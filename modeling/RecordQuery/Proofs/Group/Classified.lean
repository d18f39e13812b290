import Mathlib.Data.List.Forall2
import RecordQuery.Proofs.Group.Identity

/-!
# Groups by the identities of their members

Grouping by one field after the other sorts the records by the identities of their keys.

* `Grouping.identities` are the identities of records in the order in which they first occur
  (`pairwise_classes`), `Grouping.ofIdentity` the records of one of them;
* `Group.Classifies` is the invariant: below a group stands a group for every identity of the next
  field, with the members of this identity;
* `Grouping.classifies_partition`: a first level has it, and `Grouping.classifies_regroup`: a
  further level keeps it, with a field added;
* `Grouping.classifies_groupAll`: so has the set of groups by any list of fields
  (`GroupSet.Classifies`).
-/

namespace RecordQuery

/-! ## Classes -/

section Classes

variable {α : Type}

/-- Classes stand in the order in which their keys first occur. -/
theorem pairwise_classes (members : List (String × α)) :
    (classes members).Pairwise fun a b =>
      members.findIdx (·.1 = a.1) < members.findIdx (·.1 = b.1) := by
  induction members with
  | nil => exact .nil
  | cons member members ih =>
    have other {own : String × List α} (later : own ∈ (classes members).filter (·.1 ≠ member.1)) :
        own.1 ≠ member.1 := by simpa using (List.mem_filter.1 later).2
    rw [classes]
    refine List.pairwise_cons.2 ⟨fun own later => ?_, ?_⟩
    · simp [List.findIdx_cons, (other later).symm]
    · refine (ih.filter _).imp_of_mem fun {a b} ha hb lt => ?_
      simpa [List.findIdx_cons, (other ha).symm, (other hb).symm] using lt

theorem fst_mem_classes {key : String} {members : List (String × α)} {a : α}
    (h : (key, a) ∈ members) : ∃ items, (key, items) ∈ classes members := by
  induction members with
  | nil => cases h
  | cons member members ih =>
    by_cases same : member.1 = key
    · subst same
      exact ⟨_, List.mem_cons_self⟩
    · rcases List.mem_cons.1 h with rfl | later
      · exact absurd rfl same
      · obtain ⟨items, found⟩ := ih later
        have kept : (key, items) ∈ (classes members).filter (·.1 ≠ member.1) :=
          List.mem_filter.2 ⟨found, by simpa using Ne.symm same⟩
        exact ⟨items, List.mem_cons_of_mem _ kept⟩

end Classes

/-! ## Identities -/

namespace Grouping

variable (settings : Settings) (options : GroupOptions) (field : String)

/-- The key of a record. -/
def recordKey (r : Record) : Value :=
  keyOf settings (Fields.get? field options.formats) (r.valueAt (.parse field))

theorem recordIdentity_eq (r : Record) :
    recordIdentity settings options field r = identity (recordKey settings options field r) := rfl

/-- The identities of records, in the order in which they first occur. -/
def identities (records : List Record) : List String :=
  Fields.names (classes (records.map (keyed settings options field)))

/-- The records of an identity. -/
def ofIdentity (records : List Record) (key : String) : List Record :=
  records.filter (recordIdentity settings options field · = key)

variable {settings options field} {records : List Record} {key : String} {r : Record}

theorem mem_ofIdentity :
    r ∈ ofIdentity settings options field records key ↔
      r ∈ records ∧ recordIdentity settings options field r = key := by
  simp [ofIdentity]

/-- Every record has one of the identities. -/
theorem recordIdentity_mem (mem : r ∈ records) :
    recordIdentity settings options field r ∈ identities settings options field records := by
  have member : (recordIdentity settings options field r, recordKey settings options field r, r) ∈
      records.map (keyed settings options field) := List.mem_map.2 ⟨r, mem, rfl⟩
  obtain ⟨items, found⟩ := fst_mem_classes member
  exact List.mem_map.2 ⟨_, found, rfl⟩

/-- The records of one of the identities of some records. -/
theorem ofIdentity_ne_nil (mem : key ∈ identities settings options field records) :
    ofIdentity settings options field records key ≠ [] := by
  obtain ⟨⟨_, items⟩, found, rfl⟩ := List.mem_map.1 mem
  obtain ⟨items_eq, some⟩ := mem_classes found
  intro none
  apply some
  rw [items_eq, List.filter_map, List.map_map, List.map_eq_nil_iff]
  exact none

/-- The classes of records are the records of their identities. -/
theorem map_snd_classes (records : List Record) :
    (classes (records.map (keyed settings options field))).map (·.2) =
      (identities settings options field records).map fun key =>
        (ofIdentity settings options field records key).map fun r =>
          (recordKey settings options field r, r) := by
  rw [identities, Fields.names, List.map_map]
  refine List.map_congr_left fun own mem => ?_
  rw [(mem_classes mem).1, List.filter_map, List.map_map]
  rfl

theorem pairwise_identities (records : List Record) :
    (identities settings options field records).Pairwise fun a b =>
      records.findIdx (recordIdentity settings options field · = a) <
        records.findIdx (recordIdentity settings options field · = b) := by
  refine List.pairwise_map.2 ((pairwise_classes _).imp fun {a b} lt => ?_)
  rw [List.findIdx_map, List.findIdx_map] at lt
  exact lt

end Grouping

/-! ## The invariant -/

namespace Group

open Grouping

variable (settings : Settings) (options : GroupOptions)

/-- A group stands for members by a field: its key is the key of the first of them. -/
structure Heads (field : String) (members : List Record) (g : Group) : Prop where
  field_eq : g.field = field
  key_eq : ∃ first, members.head? = some first ∧ g.key = recordKey settings options field first

/-- The tree below a group of some members has a group for every identity of the next field, and its
leaves hold what is left after the last one. -/
def Classifies : String → List String → List Record → Group → Prop
  | field, [], members, g =>
    g.Heads settings options field members ∧ g.subgroups = [] ∧ g.members = members
  | field, next :: fields, members, g =>
    g.Heads settings options field members ∧
      List.Forall₂
        (fun key => Classifies next fields (ofIdentity settings options next members key))
        (identities settings options next members) g.subgroups

variable {settings options} {field next : String} {fields : List String} {members : List Record}
  {g : Group}

theorem Classifies.heads (h : Classifies settings options field fields members g) :
    g.Heads settings options field members := by
  cases fields with
  | nil => exact h.1
  | cons next fields => exact h.1

theorem Classifies.subgroups_ne_nil
    (h : Classifies settings options field (next :: fields) members g) : g.subgroups ≠ [] := by
  obtain ⟨⟨-, first, listed, -⟩, below⟩ := h
  intro none
  rw [none] at below
  have first' :
      recordIdentity settings options next first ∈ identities settings options next members :=
    recordIdentity_mem (List.mem_of_head? listed)
  rw [List.forall₂_nil_right_iff.1 below] at first'
  cases first'

end Group

namespace Grouping

variable (settings : Settings) (options : GroupOptions) (field : String)

/-- Records with their keys. -/
def withKeys (records : List Record) : List (Value × Record) :=
  records.map fun r => (recordKey settings options field r, r)

theorem map_snd_withKeys (records : List Record) :
    (withKeys settings options field records).map (·.2) = records := by
  rw [withKeys, List.map_map]
  exact List.map_id records

theorem classifies_build (level : Nat) {records : List Record} (some : records ≠ [])
    (types : FieldTypes) :
    Group.Classifies settings options field [] records
      (build settings options field level (withKeys settings options field records) types).1 := by
  have some' : withKeys settings options field records ≠ [] := by simpa [withKeys] using some
  obtain ⟨-, none, held⟩ := spans_build settings options field level some' types
  rw [map_snd_withKeys] at held
  obtain ⟨first, rest, rfl⟩ := List.exists_cons_of_ne_nil some
  exact ⟨⟨rfl, first, rfl, rfl⟩, none, held⟩

theorem classifies_buildList (level : Nat) {records : List Record} {keys : List String}
    (known : ∀ key ∈ keys, key ∈ identities settings options field records) (types : FieldTypes) :
    List.Forall₂
      (fun key => Group.Classifies settings options field []
        (ofIdentity settings options field records key)) keys
      (buildList settings options field level
        (keys.map fun key =>
          withKeys settings options field (ofIdentity settings options field records key))
        types).1 := by
  induction keys generalizing types with
  | nil => exact .nil
  | cons key keys ih =>
    obtain ⟨first, rest⟩ := List.forall_mem_cons.1 known
    exact .cons (classifies_build settings options field level (ofIdentity_ne_nil first) types)
      (ih rest _)

/-- **One level of groups** has a group for every identity of the records. -/
theorem classifies_partition (level : Nat) (records : List Record) (types : FieldTypes) :
    List.Forall₂
      (fun key => Group.Classifies settings options field []
        (ofIdentity settings options field records key))
      (identities settings options field records)
      (partition settings options field level records types).1 := by
  rw [partition, map_snd_classes]
  exact classifies_buildList settings options field level (fun _ mem => mem) types

/-! ## A further level -/

/-- Regrouping a list of groups adds a level to each, if regrouping one group does. -/
theorem classifies_regroupList {own : String} {fields : List String}
    {members : String → List Record}
    (step : ∀ key g types, Group.Classifies settings options own fields (members key) g →
      Group.Classifies settings options own (fields ++ [field]) (members key)
        (regroup settings options field g types).1)
    {keys : List String} {gs : List Group}
    (h : List.Forall₂ (fun key => Group.Classifies settings options own fields (members key))
      keys gs)
    (types : FieldTypes) :
    List.Forall₂
      (fun key => Group.Classifies settings options own (fields ++ [field]) (members key)) keys
      (regroupList settings options field gs types).1 := by
  induction h generalizing types with
  | nil => exact .nil
  | cons first _ ih => exact .cons (step _ _ types first) (ih _)

/-- **A further level of groups** cuts the members of every leaf by one more field. -/
theorem classifies_regroup {own : String} {fields : List String} {members : List Record} {g : Group}
    (h : Group.Classifies settings options own fields members g) (types : FieldTypes) :
    Group.Classifies settings options own (fields ++ [field]) members
      (regroup settings options field g types).1 := by
  induction fields generalizing own members g types with
  | nil =>
    obtain ⟨key, ownField, level, count, items, subgroups, groupedData, aggregates⟩ := g
    obtain ⟨⟨field_eq, key_eq⟩, none, held⟩ := h
    obtain rfl : subgroups = [] := none
    have below := classifies_partition settings options field (level + 1) members types
    rw [← held] at below
    refine ⟨⟨field_eq, key_eq⟩, ?_⟩
    rw [← held]
    exact below
  | cons next fields ih =>
    have some := h.subgroups_ne_nil
    obtain ⟨key, ownField, level, count, items, subgroups, groupedData, aggregates⟩ := g
    obtain ⟨⟨field_eq, key_eq⟩, below⟩ := h
    obtain ⟨first, rest, rfl⟩ := List.exists_cons_of_ne_nil some
    exact ⟨⟨field_eq, key_eq⟩,
      classifies_regroupList settings options field (fun _ _ types h => ih h types) below types⟩

end Grouping

/-- The groups of a set sort the records by the identities of a first field, and the tree below each
of them by those of further fields. -/
def GroupSet.Classifies (settings : Settings) (options : GroupOptions) (field : String)
    (fields : List String) (records : List Record) (set : GroupSet) : Prop :=
  List.Forall₂
    (fun key => Group.Classifies settings options field fields
      (Grouping.ofIdentity settings options field records key))
    (Grouping.identities settings options field records) set.groups

namespace Grouping

variable (settings : Settings) (options : GroupOptions) {field : String} {records : List Record}

theorem classifies_groupAll_grouped {own : String} (fields : List String) {later : List String}
    {set : GroupSet} (h : set.Classifies settings options own later records) (types : FieldTypes) :
    ∃ set', (groupAll settings options (.grouped set) fields types).1 = .grouped set' ∧
      set'.Classifies settings options own (later ++ fields) records := by
  induction fields generalizing later set types with
  | nil => exact ⟨set, rfl, by simpa using h⟩
  | cons field fields ih =>
    let next := group settings options (.grouped set) field types
    have below : GroupSet.Classifies settings options own (later ++ [field]) records
        ⟨set.level, set.childLevels + 1, (regroupList settings options field set.groups types).1⟩ :=
      classifies_regroupList settings options field
        (fun _ _ types h => classifies_regroup settings options field h types) h types
    obtain ⟨set', result, classified⟩ := ih below next.2
    exact ⟨set', result, by simpa using classified⟩

/-- **Grouping by a list of fields** sorts the records by the identities of each of them in turn. -/
theorem classifies_groupAll (field : String) (fields : List String) (some : records ≠ [])
    (types : FieldTypes) :
    ∃ set, (groupAll settings options (.records records) (field :: fields) types).1 =
        .grouped set ∧ set.Classifies settings options field fields records := by
  obtain ⟨first, rest, rfl⟩ := List.exists_cons_of_ne_nil some
  let next := group settings options (.records (first :: rest)) field types
  have level : GroupSet.Classifies settings options field [] (first :: rest)
      ⟨1, 0, (partition settings options field 1 (first :: rest) types).1⟩ :=
    classifies_partition settings options field 1 (first :: rest) types
  obtain ⟨set, result, classified⟩ :=
    classifies_groupAll_grouped settings options fields level next.2
  exact ⟨set, result, classified⟩

end Grouping

end RecordQuery
