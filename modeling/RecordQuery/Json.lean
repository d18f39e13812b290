import RecordQuery.Fields
import RecordQuery.Number.Binary.Text
import RecordQuery.Number.Integer

/-!
# JSON

A document as a tree. Numbers are integers from `-2 ^ 63` to `2 ^ 64 - 1`, or binary numbers of 64
bits; a number of 32 bits occurs only in what is written, never in what is read. Members of an
object stand in the order of their names unless the text they were read from is of interest.
-/

namespace RecordQuery

/-- A document. -/
inductive Json
  | null
  | bool (b : Bool)
  | integer (n : Int)
  | single (x : Single)
  | double (x : Double)
  | string (s : String)
  | array (items : List Json)
  | object (members : List (String × Json))
  deriving Inhabited

namespace Json

/-- The member of an object. -/
def member? (name : String) : Json → Option Json
  | .object members => Fields.get? name members
  | _ => none

/-- A member that is present and not null. -/
def present? (name : String) (j : Json) : Option Json :=
  match j.member? name with
  | none => none
  | some .null => none
  | some v => some v

def isNull : Json → Bool
  | .null => true
  | _ => false

/-- Whether a document has children. -/
def isContainer : Json → Bool
  | .array _ => true
  | .object _ => true
  | _ => false

/-- An object with its members in the order of their names. -/
def ofMembers (members : List (String × Json)) : Json := .object (Fields.ofList members)

mutual

/-- The document with the members of every object in order, the last of equal names winning. -/
def ordered : Json → Json
  | .array items => .array (orderedItems items)
  | .object members => .object (Fields.ofList (orderedMembers members))
  | j => j

def orderedItems : List Json → List Json
  | [] => []
  | item :: items => item.ordered :: orderedItems items

def orderedMembers : List (String × Json) → List (String × Json)
  | [] => []
  | (name, value) :: members => (name, value.ordered) :: orderedMembers members

end

end Json

end RecordQuery
