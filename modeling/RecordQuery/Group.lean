import RecordQuery.Aggregate
import RecordQuery.Group.Format

/-!
# Groups

Records are grouped by the values of a field; groups stand in the order of their first records.
Grouping groups once more cuts every leaf into subgroups, so that a list of fields gives a tree.

* `classes` cuts a list by keys: the members of a class keep their order;
* `Grouping.partition` is one level of groups, `Grouping.regroup` a further level below a group;
* `Grouping.groupAll` groups by one field after the other.
-/

namespace RecordQuery

/-! ## Classes -/

/-- Cuts a list by keys. A class stands where its first member stood. -/
def classes {α : Type} : List (String × α) → List (String × List α)
  | [] => []
  | (key, a) :: rest =>
    let later := classes rest
    (key, a :: (Fields.get? key later).getD []) :: later.filter (·.1 ≠ key)

/-! ## Groups -/

/-- A group of records, or of subgroups. -/
structure Group where
  /-- What the members have in common. -/
  key : Value
  field : String
  /-- The distance from the records as a whole. -/
  level : Nat
  /-- The number of members. -/
  count : Nat
  items : List Record
  subgroups : List Group
  /-- A copy of the members that does not move into subgroups. -/
  groupedData : List Record
  aggregates : Option (List (String × Value))

namespace Group

def isLeaf (g : Group) : Bool := g.subgroups.isEmpty

mutual

/-- The groups without subgroups below a group, or the group itself. -/
def leaves : Group → List Group
  | ⟨key, field, level, count, items, [], groupedData, aggregates⟩ =>
    [⟨key, field, level, count, items, [], groupedData, aggregates⟩]
  | ⟨_, _, _, _, _, g :: gs, _, _⟩ => leaves g ++ leavesOfList gs

def leavesOfList : List Group → List Group
  | [] => []
  | g :: gs => leaves g ++ leavesOfList gs

end

/-- The members of a leaf. -/
def members (g : Group) : List Record := if g.items.isEmpty then g.groupedData else g.items

end Group

/-- Groups with the depth of their tree. -/
structure GroupSet where
  level : Nat
  /-- The number of levels below the first. -/
  childLevels : Nat
  groups : List Group

def GroupSet.depth (set : GroupSet) : Nat := set.level + set.childLevels

/-- Records, flat or grouped. -/
inductive DataSet
  | records (items : List Record)
  | grouped (set : GroupSet)

namespace DataSet

/-- The number of records, or of groups at the first level. -/
def length : DataSet → Nat
  | .records items => items.length
  | .grouped set => set.groups.length

def isEmpty (data : DataSet) : Bool := data.length == 0

def isGrouped : DataSet → Bool
  | .records _ => false
  | .grouped _ => true

end DataSet

/-! ## Grouping -/

/-- What is wanted of groups. -/
structure GroupOptions where
  /-- Computed for every group. -/
  aggregates : List Aggregate := []
  /-- Leaves the items out, unless there are aggregates. -/
  lazyLoad : Bool := false
  /-- Keeps a copy of the members of every group. -/
  expandAll : Bool := false
  /-- Display formats of the keys, by field. -/
  formats : List (String × String) := []

namespace Grouping

/-- The key of a value: null has a key of its own, and a format makes a text of any other value. -/
def keyOf (settings : Settings) (format : Option String) (v : Value) : Value :=
  if v.isNull then .string settings.nullGroupKey
  else match format with
    | some format => .string (v.format format)
    | none => v

/-- What tells keys apart: the form and the text, so that `1` and `"1"` differ. -/
def identity (key : Value) : String := s!"{key.tag}:{key.display}"

/-- The identity and the key of a record, with the record. -/
def keyed (settings : Settings) (options : GroupOptions) (field : String) (r : Record) :
    String × Value × Record :=
  let key := keyOf settings (Fields.get? field options.formats) (r.valueAt (.parse field))
  (identity key, key, r)

/-- The key of a class is that of its first member. -/
def classKey : List (Value × Record) → Value
  | [] => .null
  | (key, _) :: _ => key

/-- The aggregates of a group, if there are any to compute. -/
def groupAggregates (settings : Settings) (options : GroupOptions) (members : List Record) :
    StateM FieldTypes (Option (List (String × Value))) :=
  if options.aggregates.isEmpty then pure none
  else do pure (some (← Aggregate.computeGroup settings members options.aggregates))

/-- The group of a class. -/
def build (settings : Settings) (options : GroupOptions) (field : String) (level : Nat)
    (members : List (Value × Record)) : StateM FieldTypes Group := do
  let records := members.map (·.2)
  let aggregates ← groupAggregates settings options records
  pure {
    key := classKey members
    field
    level
    count := records.length
    items := if options.lazyLoad && options.aggregates.isEmpty then [] else records
    subgroups := []
    groupedData := if options.lazyLoad || options.expandAll then records else []
    aggregates }

/-- The groups of classes, one by one. -/
def buildList (settings : Settings) (options : GroupOptions) (field : String) (level : Nat) :
    List (List (Value × Record)) → StateM FieldTypes (List Group)
  | [] => pure []
  | members :: rest => do
    let group ← build settings options field level members
    let groups ← buildList settings options field level rest
    pure (group :: groups)

/-- Cuts records into groups by a field. -/
def partition (settings : Settings) (options : GroupOptions) (field : String) (level : Nat)
    (records : List Record) : StateM FieldTypes (List Group) :=
  buildList settings options field level
    ((classes (records.map (keyed settings options field))).map (·.2))

mutual

/-- Cuts the leaves of a group into subgroups by a field. -/
def regroup (settings : Settings) (options : GroupOptions) (field : String) :
    Group → StateM FieldTypes Group
  | ⟨key, ownField, level, count, items, [], groupedData, aggregates⟩ => do
    let members := if items.isEmpty then groupedData else items
    let subgroups ← partition settings options field (level + 1) members
    pure ⟨key, ownField, level, count, [], subgroups, groupedData, aggregates⟩
  | ⟨key, ownField, level, count, items, g :: gs, groupedData, aggregates⟩ => do
    let first ← regroup settings options field g
    let rest ← regroupList settings options field gs
    pure ⟨key, ownField, level, count, items, first :: rest, groupedData, aggregates⟩

def regroupList (settings : Settings) (options : GroupOptions) (field : String) :
    List Group → StateM FieldTypes (List Group)
  | [] => pure []
  | g :: gs => do
    let first ← regroup settings options field g
    let rest ← regroupList settings options field gs
    pure (first :: rest)

end

/-- Adds a level of groups. No records stay flat. -/
def group (settings : Settings) (options : GroupOptions) (data : DataSet) (field : String) :
    StateM FieldTypes DataSet :=
  match data with
  | .records [] => pure (.records [])
  | .records items => do
    pure (.grouped ⟨1, 0, ← partition settings options field 1 items⟩)
  | .grouped set => do
    let groups ← regroupList settings options field set.groups
    pure (.grouped { set with childLevels := set.childLevels + 1, groups })

/-- Adds a level of groups for every field. -/
def groupAll (settings : Settings) (options : GroupOptions) :
    DataSet → List String → StateM FieldTypes DataSet
  | data, [] => pure data
  | data, field :: fields => do
    let data ← group settings options data field
    groupAll settings options data fields

end Grouping

end RecordQuery
