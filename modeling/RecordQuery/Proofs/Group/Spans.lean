import Mathlib.Data.List.Forall2
import RecordQuery.Proofs.Group.Classes

/-!
# Grouping keeps the shape of a tree

Grouping step by step, each step by a field and with options of its own, adds one level at a time.

* `Grouping.groupSteps` takes the steps; `groupAll` takes all of them with the same options
  (`Grouping.groupAll_eq_groupSteps`);
* `Group.Spans` is the invariant: the tree below a group has the levels of a list of fields, and its
  parts cut the members of the group (`IsCut`);
* `Grouping.spans_partition`: a first level has it, and `Grouping.spans_regroup`: cutting every leaf
  once more keeps it, with a field added;
* `Grouping.spans_groupSteps`: so has the set of groups after any number of steps
  (`GroupSet.Spans`).
-/

namespace RecordQuery

/-! ## Steps of grouping -/

namespace Grouping

/-- Adds a level of groups for every step. -/
def groupSteps (settings : Settings) :
    DataSet → List (String × GroupOptions) → StateM FieldTypes DataSet
  | data, [] => pure data
  | data, (field, options) :: steps => do
    let data ← group settings options data field
    groupSteps settings data steps

theorem groupAll_eq_groupSteps (settings : Settings) (options : GroupOptions) (data : DataSet)
    (fields : List String) :
    groupAll settings options data fields =
      groupSteps settings data (fields.map fun field => (field, options)) := by
  induction fields generalizing data with
  | nil => rfl
  | cons field fields ih => simp only [groupAll, List.map_cons, groupSteps, ih]

theorem groupSteps_nil_records (settings : Settings) (steps : List (String × GroupOptions)) :
    groupSteps settings (.records []) steps = pure (.records []) := by
  induction steps with
  | nil => rfl
  | cons step steps ih => exact ih

end Grouping

/-! ## The invariant -/

/-- A list is cut into parts without loss. No part is empty, and each keeps the order. -/
structure IsCut (members : List Record) (parts : List (List Record)) : Prop where
  perm : parts.flatten.Perm members
  sublist : ∀ part ∈ parts, part.Sublist members
  ne_nil : ∀ part ∈ parts, part ≠ []

namespace Group

/-- A group stands at a level for members. -/
structure Covers (field : String) (level : Nat) (members : List Record) (g : Group) : Prop where
  field_eq : g.field = field
  level_eq : g.level = level
  count_eq : g.count = members.length
  ne_nil : members ≠ []

/-- The tree below a group has a level for every field, and its leaves hold the members. -/
def Spans : List String → Nat → List Record → Group → Prop
  | [], _, _, _ => False
  | [field], level, members, g =>
    g.Covers field level members ∧ g.subgroups = [] ∧ g.members = members
  | field :: next :: fields, level, members, g =>
    g.Covers field level members ∧
      ∃ parts, IsCut members parts ∧
        List.Forall₂ (Spans (next :: fields) (level + 1)) parts g.subgroups

variable {field : String} {fields : List String} {level : Nat} {members : List Record}
  {parts : List (List Record)} {g : Group} {gs : List Group}

theorem Spans.covers (h : Spans (field :: fields) level members g) :
    g.Covers field level members := by
  cases fields with
  | nil => exact h.1
  | cons next fields => exact h.1

/-- A group with further levels below it has subgroups. -/
theorem Spans.subgroups_ne_nil {next : String}
    (h : Spans (field :: next :: fields) level members g) : g.subgroups ≠ [] := by
  obtain ⟨covers, parts, cut, below⟩ := h
  intro none
  rw [none] at below
  cases below
  exact covers.ne_nil cut.perm.nil_eq.symm

end Group

/-! ## One level -/

namespace Grouping

open RecordQuery.Group

/-- Whatever the options, the members of a new group stand in its items or in its grouped data. -/
theorem members_of_options (lazyLoad noAggregates expandAll : Bool) (records : List Record) :
    (let items := if lazyLoad && noAggregates then [] else records
      if items.isEmpty then (if lazyLoad || expandAll then records else []) else items) =
      records := by
  cases lazyLoad <;> cases noAggregates <;> cases records <;> simp

variable (settings : Settings) (options : GroupOptions) (field : String)

theorem spans_build (level : Nat) {members : List (Value × Record)} (some : members ≠ [])
    (types : FieldTypes) :
    Spans [field] level (members.map (·.2)) (build settings options field level members types).1 :=
  ⟨⟨rfl, rfl, rfl, by simpa using some⟩, rfl, members_of_options _ _ options.expandAll _⟩

theorem spans_buildList (level : Nat) {classes : List (List (Value × Record))}
    (some : ∀ members ∈ classes, members ≠ []) (types : FieldTypes) :
    List.Forall₂ (Spans [field] level) (classes.map fun members => members.map (·.2))
      (buildList settings options field level classes types).1 := by
  induction classes generalizing types with
  | nil => exact .nil
  | cons members classes ih =>
    exact .cons (spans_build settings options field level (some members (by simp)) types)
      (ih (fun other mem => some other (by simp [mem])) _)

/-- The parts of records that have one key. -/
def parts (records : List Record) : List (List Record) :=
  ((classes (records.map (keyed settings options field))).map (·.2)).map fun members =>
    members.map (·.2)

/-- Keys cut records. -/
theorem isCut_parts (records : List Record) :
    IsCut records (parts settings options field records) := by
  set keyed := records.map (Grouping.keyed settings options field) with hkeyed
  have records_eq : (keyed.map (·.2)).map (·.2) = records := by
    simp [hkeyed, Grouping.keyed, Function.comp_def]
  rw [parts, ← hkeyed]
  refine ⟨?_, ?_, ?_⟩
  · have perm := (flatMap_classes_perm keyed).map (·.2)
    rw [records_eq, List.flatMap_def, List.map_flatten] at perm
    exact perm
  · intro part mem
    obtain ⟨members, listed, rfl⟩ := List.mem_map.1 mem
    obtain ⟨⟨key, items⟩, pair, rfl⟩ := List.mem_map.1 listed
    rw [(mem_classes pair).1, ← records_eq]
    exact (List.filter_sublist.map _).map _
  · intro part mem
    obtain ⟨members, listed, rfl⟩ := List.mem_map.1 mem
    obtain ⟨⟨key, items⟩, pair, rfl⟩ := List.mem_map.1 listed
    simpa using classes_ne_nil pair

theorem ne_nil_of_mem_classes {records : List Record} {members : List (Value × Record)}
    (mem : members ∈ (classes (records.map (keyed settings options field))).map (·.2)) :
    members ≠ [] := by
  obtain ⟨⟨key, items⟩, listed, rfl⟩ := List.mem_map.1 mem
  exact classes_ne_nil listed

/-- The groups of a partition hold the parts of the records, one by one. -/
theorem spans_parts (level : Nat) (records : List Record) (types : FieldTypes) :
    List.Forall₂ (Spans [field] level) (parts settings options field records)
      (partition settings options field level records types).1 :=
  spans_buildList settings options field level
    (fun _ mem => ne_nil_of_mem_classes settings options field mem) types

/-- **One level of groups** cuts the records. -/
theorem spans_partition (level : Nat) (records : List Record) (types : FieldTypes) :
    ∃ parts, IsCut records parts ∧
      List.Forall₂ (Spans [field] level) parts
        (partition settings options field level records types).1 :=
  ⟨_, isCut_parts settings options field records,
    spans_parts settings options field level records types⟩

/-! ## A further level -/

/-- Regrouping a list of groups adds a level to each, if regrouping one group does. -/
theorem spans_regroupList {fields : List String} {level : Nat}
    (step : ∀ members g types, Spans fields level members g →
      Spans (fields ++ [field]) level members (regroup settings options field g types).1)
    {parts : List (List Record)} {gs : List Group} (h : List.Forall₂ (Spans fields level) parts gs)
    (types : FieldTypes) :
    List.Forall₂ (Spans (fields ++ [field]) level) parts
      (regroupList settings options field gs types).1 := by
  induction h generalizing types with
  | nil => exact .nil
  | cons first _ ih => exact .cons (step _ _ types first) (ih _)

/-- **A further level of groups**: cutting every leaf once more adds a field. -/
theorem spans_regroup {fields : List String} {level : Nat} {members : List Record} {g : Group}
    (h : Spans fields level members g) (types : FieldTypes) :
    Spans (fields ++ [field]) level members (regroup settings options field g types).1 := by
  induction fields generalizing level members g types with
  | nil => exact h.elim
  | cons own fields ih =>
    obtain ⟨key, ownField, ownLevel, count, items, subgroups, groupedData, aggregates⟩ := g
    cases fields with
    | nil =>
      obtain ⟨⟨hfield, hlevel, hcount, some⟩, none, held⟩ := h
      obtain rfl : subgroups = [] := none
      obtain rfl : ownLevel = level := hlevel
      obtain ⟨parts, cut, below⟩ :=
        spans_partition settings options field (ownLevel + 1) members types
      refine ⟨⟨hfield, rfl, hcount, some⟩, parts, cut, ?_⟩
      rw [← held] at below
      exact below
    | cons next fields =>
      have some := h.subgroups_ne_nil
      obtain ⟨⟨hfield, hlevel, hcount, some'⟩, parts, cut, below⟩ := h
      obtain ⟨first, rest, rfl⟩ := List.exists_cons_of_ne_nil some
      exact ⟨⟨hfield, hlevel, hcount, some'⟩, parts, cut,
        spans_regroupList settings options field (fun _ _ types h => ih h types) below types⟩

end Grouping

/-! ## All steps -/

/-- The groups of a set cut the records, and the tree below each of them has a level for every
field. -/
structure GroupSet.Spans (fields : List String) (records : List Record) (set : GroupSet) :
    Prop where
  level_eq : set.level = 1
  childLevels_eq : set.childLevels + 1 = fields.length
  groups : ∃ parts, IsCut records parts ∧ List.Forall₂ (Group.Spans fields 1) parts set.groups

namespace Grouping

variable (settings : Settings) {fields : List String} {records : List Record} {set : GroupSet}

/-- The first step groups the records. -/
theorem spans_group_records (options : GroupOptions) (field : String) (some : records ≠ [])
    (types : FieldTypes) :
    ∃ set, (group settings options (.records records) field types).1 = .grouped set ∧
      set.Spans [field] records := by
  obtain ⟨first, rest, rfl⟩ := List.exists_cons_of_ne_nil some
  exact ⟨_, rfl, rfl, rfl, spans_partition settings options field 1 (first :: rest) types⟩

/-- Every further step adds a level. -/
theorem spans_group_grouped (options : GroupOptions) (field : String)
    (h : set.Spans fields records) (types : FieldTypes) :
    ∃ set', (group settings options (.grouped set) field types).1 = .grouped set' ∧
      set'.Spans (fields ++ [field]) records := by
  obtain ⟨level, childLevels, parts, cut, below⟩ := h
  refine ⟨_, rfl, level, ?_, parts, cut, ?_⟩
  · rw [List.length_append, ← childLevels]
    rfl
  · exact spans_regroupList settings options field
      (fun _ _ types h => spans_regroup settings options field h types) below types

theorem spans_groupSteps_grouped (steps : List (String × GroupOptions))
    (h : set.Spans fields records) (types : FieldTypes) :
    ∃ set', (groupSteps settings (.grouped set) steps types).1 = .grouped set' ∧
      set'.Spans (fields ++ steps.map (·.1)) records := by
  induction steps generalizing fields set types with
  | nil => exact ⟨set, rfl, by simpa using h⟩
  | cons step steps ih =>
    obtain ⟨next, grouped, spans⟩ := spans_group_grouped settings step.2 step.1 h types
    obtain ⟨last, result, spans'⟩ := ih spans (group settings step.2 (.grouped set) step.1 types).2
    refine ⟨last, ?_, by simpa using spans'⟩
    rw [← result, ← grouped]
    rfl

/-- **Steps of grouping** build a level for every step. -/
theorem spans_groupSteps {steps : List (String × GroupOptions)} (some : records ≠ [])
    (step : steps ≠ []) (types : FieldTypes) :
    ∃ set, (groupSteps settings (.records records) steps types).1 = .grouped set ∧
      set.Spans (steps.map (·.1)) records := by
  obtain ⟨⟨field, options⟩, rest, rfl⟩ := List.exists_cons_of_ne_nil step
  obtain ⟨first, grouped, spans⟩ :=
    spans_group_records settings options field some types
  obtain ⟨last, result, spans'⟩ := spans_groupSteps_grouped settings rest spans
    (group settings options (.records records) field types).2
  refine ⟨last, ?_, spans'⟩
  rw [← result, ← grouped]
  rfl

/-- Grouping by fields groups all records; if there are none, they stay flat. -/
theorem groupAll_cases (options : GroupOptions) (records : List Record) (some : fields ≠ [])
    (types : FieldTypes) :
    (records = [] ∧ groupAll settings options (.records records) fields types =
      (.records [], types)) ∨
    ∃ set, (groupAll settings options (.records records) fields types).1 = .grouped set ∧
      set.Spans fields records := by
  rw [groupAll_eq_groupSteps]
  cases records with
  | nil =>
    left
    rw [groupSteps_nil_records]
    exact ⟨rfl, rfl⟩
  | cons first rest =>
    right
    have step : (fields.map fun field => (field, options)) ≠ [] := by simpa using some
    obtain ⟨set, grouped, spans⟩ :=
      spans_groupSteps settings (List.cons_ne_nil first rest) step types
    refine ⟨set, grouped, ?_⟩
    simpa [Function.comp_def] using spans

end Grouping

end RecordQuery
