import RecordQuery.Path
import RecordQuery.Record.Member

/-!
# Reading a path

A path is read name by name. Reading never fails: it stops at a null on the way, or at a name that
a static record does not have, and reads as null then.

* `Record.resolve` tells how the reading ended, `Record.get` only the value;
* `Record.parent` is what holds the last name of a path.
-/

namespace RecordQuery

/-- How the reading of a path ended. -/
inductive Resolved
  /-- The last name was reached; its value may be null. -/
  | value (v : Value)
  /-- A name on the way is null, or missing from a record that is not static. -/
  | intermediateNull
  /-- A static record has no such member. -/
  | missing

namespace Resolved

/-- The value that was read; null unless the last name was reached. -/
def toValue : Resolved → Value
  | .value v => v
  | .intermediateNull => .null
  | .missing => .null

def isMissing : Resolved → Bool
  | .missing => true
  | _ => false

end Resolved

/-- What holds the last name of a path. -/
inductive Parent
  | record (r : Record)
  /-- A value tree that is not a record of its own. -/
  | tree (v : Value)
  | intermediateNull
  | missing

namespace Record

/-- Where a name that is not the last one leads. -/
def step (r : Record) (name : String) : Parent :=
  match r.lookup? name with
  | some (.record child) => .record child
  | some (.value .null) => .intermediateNull
  | some (.value v) =>
    if v.isContainer then .tree v
    else if r.isStatic then .missing else .intermediateNull
  | none => if r.isStatic then .missing else .intermediateNull

/-- Where a name that is not the last one leads in a value tree. -/
def stepTree (v : Value) (name : String) : Parent :=
  match v.member? name with
  | some child => if child.isContainer then .tree child else .intermediateNull
  | none => .intermediateNull

/-- Follows names from a parent on. -/
def follow : Parent → List String → Parent
  | p, [] => p
  | .record r, name :: names => follow (r.step name) names
  | .tree v, name :: names => follow (stepTree v name) names
  | .intermediateNull, _ :: _ => .intermediateNull
  | .missing, _ :: _ => .missing

/-- What holds the last name of a path. -/
def parent (r : Record) (path : FieldPath) : Parent := follow (.record r) path.parents

/-- Reads the last name of a path. -/
def Parent.read (name : String) : Parent → Resolved
  | .record r =>
    match r.lookup? name with
    | some m => .value m.toValue
    | none => if r.isStatic then .missing else .value .null
  | .tree v => .value ((v.member? name).getD .null)
  | .intermediateNull => .intermediateNull
  | .missing => .missing

/-- Reads a path. The empty path reads as null. -/
def resolve (r : Record) (path : FieldPath) : Resolved :=
  match path.leaf? with
  | none => .value .null
  | some name => Parent.read name (r.parent path)

/-- The value at a path; null where nothing is reached. -/
def valueAt (r : Record) (path : FieldPath) : Value := (r.resolve path).toValue

/-- The value at a path that is given as a text. -/
def get (r : Record) (path : String) : Value := r.valueAt (.parse path)

end Record

end RecordQuery
