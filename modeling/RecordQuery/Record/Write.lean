import RecordQuery.Record.Resolve
import RecordQuery.Value.Field

/-!
# Writing a path

A write goes down the path name by name. Where a record on the way is missing and may be made, it
is made; then the last name is assigned. A write can be refused at every step, and what was made
before stays.

* `Record.setMember` assigns one member, `Record.materialize` makes a record at an empty one;
* `Record.nested?` and `Record.setNested` read and replace a record inside a record;
* `Record.write` writes a path, `Record.set` a path that is given as a text.
-/

namespace RecordQuery

/-- Why a write was refused. -/
inductive AccessError
  | noSuchMember (name : String)
  | readOnly (name : String)
  | typeMismatch (name : String) (cause : CoercionError)
  | notMaterializable (name : String)
  | notAContainer (name : String)
  deriving DecidableEq

namespace AccessError

def code : AccessError → Nat
  | .noSuchMember _ => ErrorCode.noSuchMember
  | .readOnly _ => ErrorCode.readOnly
  | .typeMismatch _ _ => ErrorCode.typeMismatch
  | .notMaterializable _ => ErrorCode.access
  | .notAContainer _ => ErrorCode.access

def message : AccessError → String
  | .noSuchMember name => s!"no member named '{name}'"
  | .readOnly name => s!"member '{name}' is read-only"
  | .typeMismatch name cause => s!"member '{name}' rejects the value: {cause.message}"
  | .notMaterializable name => s!"member '{name}' cannot be materialized"
  | .notAContainer name => s!"value at '{name}' is not a container"

end AccessError

namespace Slot

/-- The number for a choice. A closed choice takes only numbers of members. -/
def choose (descriptor : EnumDescriptor) (nullable closed : Bool) (v : Value) :
    Except CoercionError (Option Int64) :=
  if nullable && v.isNull then .ok none
  else match descriptor.number v with
    | .error e => .error e
    | .ok n =>
      if closed && (descriptor.byValue n).isNone then
        .error (.enum (intText n.toInt) descriptor.name)
      else .ok (some n)

/-- Assigns a value to a member of a structure. -/
def assign (name : String) (v : Value) : Slot → Except AccessError Slot
  | .scalar type _ => ((v.fitField type).map (.scalar type)).mapError (.typeMismatch name)
  | .choice descriptor nullable closed _ =>
    ((choose descriptor nullable closed v).map (.choice descriptor nullable closed)).mapError
      (.typeMismatch name)
  | .nested shape typed assignable _ =>
    if !assignable then .error (.readOnly name)
    else if v.isNull then .ok (.nested shape typed assignable none)
    else .error (.typeMismatch name (.unsupported v.display shape.name))
  | .records _ => .error (.readOnly name)

/-- The record in a member of a structure. -/
def nested? : Slot → Option Record
  | .scalar _ _ => none
  | .choice _ _ _ _ => none
  | .nested _ _ _ record => record
  | .records items => some (.list items)

/-- Replaces the record in a member of a structure. -/
def setNested (child : Record) : Slot → Slot
  | .nested shape typed assignable _ => .nested shape typed assignable (some child)
  | .records items =>
    match child with
    | .list items => .records items
    | _ => .records items
  | slot => slot

/-- Makes a record in a member of a structure, unless there is one. -/
def materialize? : Slot → Option Slot
  | .nested shape typed assignable none => some (.nested shape typed assignable (some shape.blank))
  | .nested shape typed assignable (some record) =>
    some (.nested shape typed assignable (some record))
  | _ => none

end Slot

namespace Record

/-! ## One member -/

/-- Replaces the item at a position that is named, if there is one. -/
def setItem? {α : Type} (name : String) (item : α) (items : List α) : Option (List α) :=
  (readIndex? name).bind fun i => if i < items.length then some (items.set i item) else none

/-- Assigns a member. -/
def setMember (name : String) (v : Value) : Record → Except AccessError Record
  | .value (.object fields) => .ok (.value (.object (Fields.insert name v fields)))
  | .value (.list items) =>
    match setItem? name v items with
    | some items => .ok (.value (.list items))
    | none => .error (.noSuchMember name)
  | .value _ => .error (.notAContainer name)
  | .table fields => .ok (.table (Fields.insert name v fields))
  | .hash entries => .ok (.hash (Fields.put name v entries))
  | .json (.object members) => .ok (.json (.object (Fields.insert name v.toJson members)))
  | .json (.array items) =>
    match setItem? name v.toJson items with
    | some items => .ok (.json (.array items))
    | none => .error (.noSuchMember name)
  | .json _ => .error (.notAContainer name)
  | .dynamic members =>
    if Text.startsWith name "_" then .error (.readOnly name)
    else .ok (.dynamic (Fields.insert name v members))
  | .list _ => .error (.readOnly name)
  | .shaped shape slots =>
    match Fields.get? name slots with
    | none => .error (.noSuchMember name)
    | some slot => (slot.assign name v).map fun slot => .shaped shape (Fields.put name slot slots)

/-- Fills a gap. -/
def fillGap {α : Type} (name : String) (isGap : Bool) (filled : α) : Except AccessError α :=
  if isGap then .ok filled else .error (.notAContainer name)

/-- Makes a record at a member that is null or missing. -/
def materialize (name : String) : Record → Except AccessError Record
  | .value (.object fields) =>
    fillGap name ((Fields.get? name fields).all Value.isNull)
      (.value (.object (Fields.insert name (.object []) fields)))
  | .table fields =>
    fillGap name ((Fields.get? name fields).all Value.isNull)
      (.table (Fields.insert name (.object []) fields))
  | .hash entries =>
    fillGap name ((Fields.get? name entries).all Value.isNull)
      (.hash (Fields.put name (.object []) entries))
  | .json (.object members) =>
    fillGap name ((Fields.get? name members).all Json.isNull)
      (.json (.object (Fields.insert name (.object []) members)))
  | .shaped shape slots =>
    match (Fields.get? name slots).bind Slot.materialize? with
    | some slot => .ok (.shaped shape (Fields.put name slot slots))
    | none => .error (.notMaterializable name)
  | _ => .error (.notMaterializable name)

/-- The value tree as a record, if it has children. -/
def ofContainer? (v : Value) : Option Record := if v.isContainer then some (.value v) else none

/-- The record at a member, for writing into it. -/
def nested? (name : String) : Record → Option Record
  | .value v => (v.member? name).bind ofContainer?
  | .table fields => (Fields.get? name fields).bind ofContainer?
  | .hash entries => (Fields.get? name entries).bind ofContainer?
  | .json j =>
    (jsonChild? name j).bind fun child =>
      if child.isContainer then some (.json child) else none
  | .dynamic _ => none
  | .list items => (readIndex? name).bind (items[·]?)
  | .shaped _ slots => (Fields.get? name slots).bind Slot.nested?

/-- Puts a record back where `nested?` found it. -/
def setNested (r : Record) (name : String) (child : Record) : Record :=
  match r with
  | .value (.object fields) =>
    match child with
    | .value v => .value (.object (Fields.insert name v fields))
    | _ => .value (.object fields)
  | .value (.list items) =>
    match child with
    | .value v => .value (.list ((setItem? name v items).getD items))
    | _ => .value (.list items)
  | .table fields =>
    match child with
    | .value v => .table (Fields.insert name v fields)
    | _ => .table fields
  | .hash entries =>
    match child with
    | .value v => .hash (Fields.put name v entries)
    | _ => .hash entries
  | .json (.object members) =>
    match child with
    | .json j => .json (.object (Fields.insert name j members))
    | _ => .json (.object members)
  | .json (.array items) =>
    match child with
    | .json j => .json (.array ((setItem? name j items).getD items))
    | _ => .json (.array items)
  | .list items => .list ((setItem? name child items).getD items)
  | .shaped shape slots =>
    match Fields.get? name slots with
    | some slot => .shaped shape (Fields.put name (slot.setNested child) slots)
    | none => .shaped shape slots
  | r => r

/-! ## A path -/

/-- The name under which a member is written: in a static record the name that it has, which may
differ in case. -/
def writableName (r : Record) (name : String) : Except AccessError String :=
  if !r.isStatic || (r.member? name).isSome then .ok name
  else match r.nameInOtherCase? name with
    | some name => .ok name
    | none => .error (.noSuchMember name)

/-- Makes sure that there is a record at a member. -/
def openMember (r : Record) (name : String) : Except AccessError Record :=
  match r.nested? name with
  | some _ => .ok r
  | none => r.materialize name

/-- Writes a value at the end of a chain of names. The record is given back as it stands at the end,
with the error if the write was refused. -/
def writeAt (v : Value) (leaf : String) : Record → List String → Record × Option AccessError
  | r, [] =>
    match (r.writableName leaf).bind fun name => r.setMember name v with
    | .ok written => (written, none)
    | .error e => (r, some e)
  | r, name :: names =>
    match r.writableName name with
    | .error e => (r, some e)
    | .ok name =>
      match r.openMember name with
      | .error e => (r, some e)
      | .ok opened =>
        match opened.nested? name with
        | none => (opened, some (.notAContainer name))
        | some child =>
          let (child, refused) := writeAt v leaf child names
          (opened.setNested name child, refused)

/-- Writes a value at a path. -/
def write (r : Record) (path : FieldPath) (v : Value) : Record × Option AccessError :=
  match path.leaf? with
  | none => (r, some (.noSuchMember path.text))
  | some leaf => writeAt v leaf r path.parents

/-- Writes a value at a path that is given as a text, and tells whether it was written. -/
def set (r : Record) (path : String) (v : Value) : Record × Bool :=
  let (written, refused) := r.write (.parse path) v
  (written, refused.isNone)

end Record

end RecordQuery
