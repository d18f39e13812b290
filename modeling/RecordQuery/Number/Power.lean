/-!
# Powers

In this library `a ^ n` on natural numbers is repeated multiplication as core defines it, also in a
module that sees a power from algebra. So the bounds of the number formats read the same everywhere.
-/

namespace RecordQuery

attribute [scoped instance (2000)] instPowNat

end RecordQuery
