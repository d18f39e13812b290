import RecordQuery.Record
import RecordQuery.Text.LowerCase

/-!
# Members of a record

* `Record.member?` reads a member by its exact name. It is a value, or a record of its own;
* `Record.lookup?` also finds a member of a static record by a name in other case;
* `Record.declaredType?` is the type that a structure declares for a member.
-/

namespace RecordQuery

open Text

/-- What a member of a record is. -/
inductive Member
  | value (v : Value)
  | record (r : Record)

namespace Member

def isNull : Member → Bool
  | .value .null => true
  | _ => false

def toValue : Member → Value
  | .value v => v
  | .record r => r.toValue

end Member

namespace Record

/-- A child of a value tree: a record if it has children itself. -/
def memberOfValue (v : Value) : Member := if v.isContainer then .record (.value v) else .value v

/-- A child of a document: a record if it has children itself. -/
def memberOfJson (j : Json) : Member :=
  if j.isContainer then .record (.json j) else .value (.ofJson j)

/-- The child of a document that a name stands for. -/
def jsonChild? (name : String) : Json → Option Json
  | .object members => Fields.get? name members
  | .array items => (readIndex? name).bind (items[·]?)
  | _ => none

/-- The member of a structure. -/
def slotMember : Slot → Member
  | .scalar _ v => .value v
  | .choice descriptor _ _ number => .value (Slot.choiceValue descriptor number)
  | .nested _ _ _ none => .value .null
  | .nested _ _ _ (some r) => .record r
  | .records items => .record (.list items)

/-- Reads a member by its exact name. -/
def member? (r : Record) (name : String) : Option Member :=
  match r with
  | .value v => (v.member? name).map memberOfValue
  | .table fields => (Fields.get? name fields).map memberOfValue
  | .hash entries => (Fields.get? name entries).map memberOfValue
  | .json j => (jsonChild? name j).map memberOfJson
  | .dynamic members => (Fields.get? name members).map .value
  | .list items => (readIndex? name).bind fun i => items[i]?.map .record
  | .shaped _ slots => (Fields.get? name slots).map slotMember

/-- The positions of a list as names. -/
def positions (count : Nat) : List String := (List.range count).map fun i => intText (Int.ofNat i)

/-- The names of all members. -/
def memberNames : Record → List String
  | .value (.object fields) => Fields.names fields
  | .value (.list items) => positions items.length
  | .value _ => []
  | .table fields => Fields.names fields
  | .hash entries => Fields.names entries
  | .json (.object members) => Fields.names members
  | .json (.array items) => positions items.length
  | .json _ => []
  | .dynamic members => Fields.names members
  | .list items => positions items.length
  | .shaped _ slots => Fields.names slots

/-- The first member of a static record whose name differs at most in case. -/
def nameInOtherCase? (r : Record) (name : String) : Option String :=
  if r.isStatic then r.memberNames.find? (equalIgnoringAsciiCase · name) else none

/-- Reads a member by its name, in other case if need be. -/
def lookup? (r : Record) (name : String) : Option Member :=
  match r.member? name with
  | some m => some m
  | none => (r.nameInOtherCase? name).bind r.member?

/-- The type that a structure declares for a member of exactly this name. -/
def memberType? (r : Record) (name : String) : Option TypeInfo :=
  match r with
  | .shaped _ slots => (Fields.get? name slots).bind Slot.type?
  | _ => none

/-- The type that a structure declares for a member, by a name in other case if need be. -/
def declaredType? (r : Record) (name : String) : Option TypeInfo :=
  match r.memberType? name with
  | some t => some t
  | none => (r.nameInOtherCase? name).bind r.memberType?

end Record

end RecordQuery
