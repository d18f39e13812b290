import Mathlib.Algebra.GroupWithZero.Nat
import RecordQuery.Proofs.Group.Spans

/-!
# The tree of groups

Grouping builds a tree that has one level for every step and keeps every record in one leaf.

* `Group.Chain` are the chains from a group down to a leaf, `Group.Within` the groups of its tree;
* `GroupSet.IsTreeOf` says what a set of groups is to the records: how long its chains are, how the
  counts add up, and what its leaves hold;
* `Group.Spans.chain_eq`, `Group.Spans.count_eq_sum` and `Group.Spans.flatMap_leaves_perm` read this
  off the invariant of grouping;
* `Grouping.groupSteps_isTreeOf`: any steps of grouping give a tree of the records, whatever their
  options, and no records stay as they are.
-/

namespace RecordQuery

namespace Group

/-- A chain of groups, each among the subgroups of the one before, that ends at a leaf. -/
inductive Chain : Group → List Group → Prop
  | leaf {g : Group} : g.subgroups = [] → Chain g [g]
  | step {g sub : Group} {chain : List Group} :
    sub ∈ g.subgroups → Chain sub chain → Chain g (g :: chain)

/-- The group itself, and the groups within its subgroups. -/
inductive Within : Group → Group → Prop
  | self (g : Group) : Within g g
  | step {inner sub g : Group} : sub ∈ g.subgroups → Within inner sub → Within inner g

/-! ## Leaves -/

theorem leavesOfList_eq_flatMap (gs : List Group) : leavesOfList gs = gs.flatMap leaves := by
  induction gs with
  | nil => rfl
  | cons g gs ih => rw [leavesOfList, ih, List.flatMap_cons]

theorem leaves_of_isLeaf {g : Group} (h : g.subgroups = []) : g.leaves = [g] := by
  obtain ⟨key, field, level, count, items, subgroups, groupedData, aggregates⟩ := g
  obtain rfl : subgroups = [] := h
  rw [leaves]

theorem leaves_of_subgroups {g : Group} (h : g.subgroups ≠ []) :
    g.leaves = g.subgroups.flatMap leaves := by
  obtain ⟨key, field, level, count, items, subgroups, groupedData, aggregates⟩ := g
  obtain ⟨first, rest, rfl⟩ := List.exists_cons_of_ne_nil h
  rw [leaves, leavesOfList_eq_flatMap, List.flatMap_cons]

/-! ## Reading the invariant -/

variable {field : String} {fields : List String} {level : Nat} {members : List Record}
  {parts : List (List Record)} {g : Group} {gs : List Group}

theorem exists_part {α β : Type} {R : α → β → Prop} {parts : List α} {gs : List β} {g : β}
    (h : List.Forall₂ R parts gs) (mem : g ∈ gs) : ∃ part ∈ parts, R part g := by
  induction h with
  | nil => cases mem
  | cons first _ ih =>
    rcases List.mem_cons.1 mem with rfl | later
    · exact ⟨_, List.mem_cons_self, first⟩
    · obtain ⟨part, listed, holds⟩ := ih later
      exact ⟨part, List.mem_cons_of_mem _ listed, holds⟩

theorem Spans.count_eq (h : Spans fields level members g) : g.count = members.length := by
  cases fields with
  | nil => exact h.elim
  | cons field fields => exact h.covers.count_eq

theorem Spans.ne_nil (h : Spans fields level members g) : members ≠ [] := by
  cases fields with
  | nil => exact h.elim
  | cons field fields => exact h.covers.ne_nil

/-- Where groups cut members, their counts add up. -/
theorem sum_count {R : List Record → Group → Prop}
    (counts : ∀ part g, R part g → g.count = part.length) (cut : IsCut members parts)
    (h : List.Forall₂ R parts gs) : (gs.map (·.count)).sum = members.length := by
  have lengths : gs.map (·.count) = parts.map List.length := by
    clear cut
    induction h with
    | nil => rfl
    | cons first _ ih => rw [List.map_cons, List.map_cons, ih, counts _ _ first]
  rw [lengths, ← List.length_flatten, cut.perm.length_eq]

/-- A chain has a group for every field, at levels that ascend one by one. -/
theorem Spans.chain_eq {chain : List Group} (c : Chain g chain) (h : Spans fields level members g) :
    chain.map (·.level) = List.range' level fields.length ∧ chain.map (·.field) = fields := by
  induction c generalizing fields level members with
  | leaf none =>
    match fields, h with
    | [field], h => simp [h.1.level_eq, h.1.field_eq]
    | field :: next :: fields, h => exact absurd none h.subgroups_ne_nil
  | step mem _ ih =>
    match fields, h with
    | [field], h =>
      rw [h.2.1] at mem
      cases mem
    | field :: next :: fields, ⟨covers, parts, cut, below⟩ =>
      obtain ⟨part, _, spans⟩ := exists_part below mem
      obtain ⟨levels, names⟩ := ih spans
      refine ⟨?_, ?_⟩
      · rw [List.map_cons, levels, covers.level_eq]
        rfl
      · rw [List.map_cons, names, covers.field_eq]

/-- Every group of the tree has a tree of its own. -/
theorem Spans.within {inner : Group} (w : Within inner g) (h : Spans fields level members g) :
    ∃ fields level members, Spans fields level members inner := by
  induction w generalizing fields level members with
  | self => exact ⟨fields, level, members, h⟩
  | step mem _ ih =>
    match fields, h with
    | [field], h =>
      rw [h.2.1] at mem
      cases mem
    | field :: next :: fields, ⟨_, parts, _, below⟩ =>
      obtain ⟨part, _, spans⟩ := exists_part below mem
      exact ih spans

theorem Spans.count_pos (h : Spans fields level members g) : 0 < g.count := by
  rw [h.count_eq]
  exact List.length_pos_iff.2 h.ne_nil

/-- The counts of the subgroups add up to the count of their group. -/
theorem Spans.count_eq_sum (h : Spans fields level members g) (some : g.subgroups ≠ []) :
    g.count = (g.subgroups.map (·.count)).sum := by
  match fields, h with
  | [field], h => exact absurd h.2.1 some
  | field :: next :: fields, ⟨covers, parts, cut, below⟩ =>
    rw [covers.count_eq, sum_count (fun _ _ => Spans.count_eq) cut below]

/-- A leaf holds as many members as it counts, in the order of the records. -/
theorem Spans.members_leaf {leaf : Group} (h : Spans fields level members g)
    (mem : leaf ∈ g.leaves) :
    leaf.members.length = leaf.count ∧ leaf.members.Sublist members := by
  induction fields generalizing level members g with
  | nil => exact h.elim
  | cons field fields ih =>
    cases fields with
    | nil =>
      obtain ⟨covers, none, held⟩ := h
      rw [leaves_of_isLeaf none, List.mem_singleton] at mem
      subst mem
      rw [held]
      exact ⟨covers.count_eq.symm, .refl _⟩
    | cons next fields =>
      rw [leaves_of_subgroups h.subgroups_ne_nil] at mem
      obtain ⟨_, parts, cut, below⟩ := h
      obtain ⟨sub, listed, mem⟩ := List.mem_flatMap.1 mem
      obtain ⟨part, listed, spans⟩ := exists_part below listed
      obtain ⟨count, order⟩ := ih spans mem
      exact ⟨count, order.trans (cut.sublist part listed)⟩

/-- Where the leaves below each group hold a part, all leaves together hold all parts. -/
theorem flatMap_leaves_perm (cut : IsCut members parts)
    (h : List.Forall₂ (fun part g => (g.leaves.flatMap Group.members).Perm part) parts gs) :
    ((gs.flatMap leaves).flatMap Group.members).Perm members := by
  refine List.Perm.trans ?_ cut.perm
  clear cut
  induction h with
  | nil => exact .refl _
  | cons first _ ih =>
    rw [List.flatMap_cons, List.flatMap_append, List.flatten_cons]
    exact first.append ih

/-- The leaves hold every member once. -/
theorem Spans.flatMap_leaves_perm (h : Spans fields level members g) :
    (g.leaves.flatMap Group.members).Perm members := by
  induction fields generalizing level members g with
  | nil => exact h.elim
  | cons field fields ih =>
    cases fields with
    | nil =>
      obtain ⟨_, none, held⟩ := h
      rw [leaves_of_isLeaf none, List.flatMap_singleton, held]
    | cons next fields =>
      rw [leaves_of_subgroups h.subgroups_ne_nil]
      obtain ⟨_, parts, cut, below⟩ := h
      exact Group.flatMap_leaves_perm cut (below.imp fun _ _ spans => ih spans)

end Group

/-! ## The tree of all steps -/

/-- A set of groups is a tree of records, with a level for every field. -/
structure GroupSet.IsTreeOf (fields : List String) (records : List Record) (set : GroupSet) :
    Prop where
  level_eq : set.level = 1
  childLevels_eq : set.childLevels = fields.length - 1
  /-- Every chain has a group of every field, and nothing else. -/
  chain_eq : ∀ g ∈ set.groups, ∀ chain, g.Chain chain →
    chain.map (·.level) = List.range' 1 fields.length ∧ chain.map (·.field) = fields
  /-- No group is empty. -/
  count_pos : ∀ g ∈ set.groups, ∀ inner, Group.Within inner g → 0 < inner.count
  sum_count : (set.groups.map (·.count)).sum = records.length
  count_eq_sum : ∀ g ∈ set.groups, ∀ inner, Group.Within inner g → inner.subgroups ≠ [] →
    inner.count = (inner.subgroups.map (·.count)).sum
  /-- A leaf holds its members in the order of the records. -/
  members_leaf : ∀ g ∈ set.groups, ∀ leaf ∈ g.leaves,
    leaf.members.length = leaf.count ∧ leaf.members.Sublist records
  /-- Every record is held once. -/
  members_perm : ((set.groups.flatMap Group.leaves).flatMap Group.members).Perm records

theorem GroupSet.Spans.isTreeOf {fields : List String} {records : List Record} {set : GroupSet}
    (h : set.Spans fields records) : set.IsTreeOf fields records := by
  obtain ⟨level_eq, childLevels_eq, parts, cut, groups⟩ := h
  have spans {g : Group} (mem : g ∈ set.groups) :
      ∃ part ∈ parts, Group.Spans fields 1 part g := Group.exists_part groups mem
  refine ⟨level_eq, by omega, fun g mem chain c => ?_, fun g mem inner w => ?_,
    Group.sum_count (fun _ _ => Group.Spans.count_eq) cut groups, fun g mem inner w some => ?_,
    fun g mem leaf leaf' => ?_, ?_⟩
  · obtain ⟨part, _, h⟩ := spans mem
    exact h.chain_eq c
  · obtain ⟨part, _, h⟩ := spans mem
    obtain ⟨_, _, _, h⟩ := h.within w
    exact h.count_pos
  · obtain ⟨part, _, h⟩ := spans mem
    obtain ⟨_, _, _, h⟩ := h.within w
    exact h.count_eq_sum some
  · obtain ⟨part, listed, h⟩ := spans mem
    obtain ⟨count, order⟩ := h.members_leaf leaf'
    exact ⟨count, order.trans (cut.sublist part listed)⟩
  · exact Group.flatMap_leaves_perm cut (groups.imp fun _ _ h => h.flatMap_leaves_perm)

namespace Grouping

/-- **Grouping builds a tree of the records**, with a level for every step, whatever the options of
the steps and whatever is known of types. No records stay flat and empty. -/
theorem groupSteps_isTreeOf (settings : Settings) (records : List Record)
    (steps : List (String × GroupOptions)) (types : FieldTypes) :
    (records ≠ [] → steps ≠ [] →
      ∃ set, (groupSteps settings (.records records) steps types).1 = .grouped set ∧
        set.IsTreeOf (steps.map (·.1)) records) ∧
    (groupSteps settings (.records []) steps types).1 = .records [] := by
  refine ⟨fun some step => ?_, ?_⟩
  · obtain ⟨set, result, spans⟩ := spans_groupSteps settings some step types
    exact ⟨set, result, spans.isTreeOf⟩
  · rw [groupSteps_nil_records]
    rfl

/-- Two records, grouped lazily by one field and then by another one that keeps copies. -/
theorem groupSteps_isTreeOf_lazy :
    ∃ set,
      (groupSteps {} (.records [.table [("A", .int64 1)], .table [("A", .int64 2), ("B", .null)]])
        [("A", { lazyLoad := true }), ("B", { expandAll := true })] { limit := none }).1 =
          .grouped set ∧
      set.IsTreeOf ["A", "B"] [.table [("A", .int64 1)], .table [("A", .int64 2), ("B", .null)]] :=
  (groupSteps_isTreeOf _ _ _ _).1 (by simp) (by simp)

end Grouping

end RecordQuery
