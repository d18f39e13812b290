import RecordQuery.Json
import RecordQuery.Value
import RecordQuery.Value.Json

/-!
# Records

The engine shapes records without knowing how they are held. There are three kinds of them:

* maps read a missing name as null: a value tree, a table or a hash of values, or a document;
* dynamic records are asked for each member by name;
* static records have members that are declared: a list, whose members are its positions, and a
  structure of some `Shape`.

`Shape` declares the members of a structure, and `Shape.blank` is the structure with nothing
entered. `Record.toValue` is the whole record as a value tree.
-/

namespace RecordQuery

/-- The three kinds of records. -/
inductive Representation
  | static
  | map
  | dynamic
  deriving DecidableEq

mutual

/-- The declaration of a structure: a name and its members in order. -/
inductive Shape
  | mk (name : String) (members : List (String × MemberShape))

/-- The declaration of a member. -/
inductive MemberShape
  /-- A value of one kind, or null where that is allowed. -/
  | scalar (type : TypeInfo)
  /-- A number of an enumeration. In a closed choice it is the number of a member. -/
  | choice (descriptor : EnumDescriptor) (nullable closed : Bool)
  /-- An optional structure of a shape, or of the enclosing shape where none is given. An assignable
  one can be cleared, and a typed one declares that it is an object. -/
  | nested (shape : Option Shape) (typed assignable : Bool)
  /-- A list of records. -/
  | records

end

namespace Shape

def name : Shape → String
  | .mk name _ => name

def members : Shape → List (String × MemberShape)
  | .mk _ members => members

end Shape

mutual

/-- A record. -/
inductive Record
  /-- A value tree. -/
  | value (v : Value)
  /-- Fields in the order of their names. -/
  | table (fields : List (String × Value))
  /-- Fields in no order that counts. -/
  | hash (entries : List (String × Value))
  /-- A document. -/
  | json (j : Json)
  /-- An object that is asked for its members, and refuses names that begin with an underscore. -/
  | dynamic (members : List (String × Value))
  /-- A list of records, with positions for members. -/
  | list (items : List Record)
  /-- A structure with its members in order. -/
  | shaped (name : String) (slots : List (String × Slot))

/-- The content of a member of a structure, with its declaration. -/
inductive Slot
  | scalar (type : TypeInfo) (v : Value)
  | choice (descriptor : EnumDescriptor) (nullable closed : Bool) (number : Option Int64)
  | nested (shape : Shape) (typed assignable : Bool) (record : Option Record)
  | records (items : List Record)

end

namespace Slot

/-- The first day of the Unix era at midnight. -/
def epoch : LocalDateTime := .midnight ⟨1970, 1, 1, by decide⟩

/-- The value of a scalar member with nothing entered. -/
def blankValue (type : TypeInfo) : Value :=
  if type.nullable then .null
  else match type.kind with
    | .bool => .bool false
    | .int16 => .int16 0
    | .int32 => .int32 0
    | .int64 => .int64 0
    | .float32 => .float32 (.zero .single false)
    | .float64 => .float64 (.zero .double false)
    | .decimal => .decimal .zero
    | .string => .string ""
    | .guid => .guid ⟨0⟩
    | .dateTime => .dateTime epoch
    | .dateTimeOffset => .dateTimeOffset (.ofUniversal epoch)
    | .enum d => .enum d 0
    | .list => .list []
    | .object => .object []
    | .unknown => .null

/-- The slot of a member of a shape with nothing entered. -/
def blank (shape : Shape) : MemberShape → Slot
  | .scalar type => .scalar type (blankValue type)
  | .choice descriptor nullable closed =>
    .choice descriptor nullable closed (if nullable then none else some 0)
  | .nested inner typed assignable => .nested (inner.getD shape) typed assignable none
  | .records => .records []

/-- The declared type of a member. -/
def type? : Slot → Option TypeInfo
  | .scalar type _ => some type
  | .choice descriptor nullable _ _ => some ⟨.enum descriptor, nullable⟩
  | .nested _ typed _ _ => if typed then some ⟨.object, true⟩ else none
  | .records _ => none

/-- The value of a choice. -/
def choiceValue (descriptor : EnumDescriptor) : Option Int64 → Value
  | some n => .enum descriptor n
  | none => .null

end Slot

/-- A structure of a shape with nothing entered. -/
def Shape.blank (shape : Shape) : Record :=
  .shaped shape.name (shape.members.map fun (name, member) => (name, Slot.blank shape member))

namespace Record

mutual

/-- The whole record as a value tree. -/
def toValue : Record → Value
  | .value v => v
  | .table fields => .object fields
  | .hash entries => .object (Fields.ofList entries)
  | .json j => .ofJson j
  | .dynamic members => .object members
  | .list items => .list (toValues items)
  | .shaped _ slots => .object (Fields.ofList (slotValues slots))

def toValues : List Record → List Value
  | [] => []
  | r :: rs => r.toValue :: toValues rs

def slotValues : List (String × Slot) → List (String × Value)
  | [] => []
  | (name, slot) :: slots => (name, slotValue slot) :: slotValues slots

/-- The content of a member as a value tree. -/
def slotValue : Slot → Value
  | .scalar _ v => v
  | .choice descriptor _ _ number => Slot.choiceValue descriptor number
  | .nested _ _ _ none => .null
  | .nested _ _ _ (some r) => r.toValue
  | .records items => .list (toValues items)

end

def representation : Record → Representation
  | .value _ | .table _ | .hash _ | .json _ => .map
  | .dynamic _ => .dynamic
  | .list _ | .shaped _ _ => .static

def isStatic (r : Record) : Bool := r.representation == .static

/-- The whole record as a document. -/
def toJson (r : Record) : Json := r.toValue.toJson

end Record

end RecordQuery
