import RecordQuery.Proofs.Aggregate.Meaning
import RecordQuery.Proofs.Group.Tree

/-!
# The aggregates of groups

Once the types are known that the aggregates of groups ask for, grouping learns nothing more: every
group, at whatever level, shows the aggregates of its members over the same types.

* `Grouping.valuesOver` are the aggregates of members over types, and
  `Grouping.groupAggregates_of_knows` those that a group is given;
* `Group.Totals` is the invariant: every group of a tree shows its members (`Group.Shows`), and the
  members of its subgroups are parts of them;
* `Grouping.totals_partition`: a first level has it, and `Grouping.totals_regroup`: cutting every
  leaf once more keeps it;
* `Grouping.totals_groupAll`: so have the groups of any list of fields.
-/

namespace RecordQuery

/-! ## The aggregates of members -/

namespace Grouping

variable (settings : Settings) (options : GroupOptions) {typeAt : String → Option TypeInfo}

/-- The aggregates of members whose fields have some types. -/
def valuesOver (typeAt : String → Option TypeInfo) (members : List Record) :
    Option (Fields Value) :=
  if options.aggregates.isEmpty then none
  else
    some (Fields.ofList
      (Aggregate.namedOver settings typeAt members Aggregate.groupLabel options.aggregates))

variable {settings options}

theorem get?_valuesOver {a : Aggregate} (mem : a ∈ options.aggregates)
    (supported : a.kind.isSupported = true) (members : List Record) :
    (valuesOver settings options typeAt members).bind (Fields.get? a.groupLabel) =
      Aggregate.valueOver settings typeAt members a := by
  rw [valuesOver, if_neg (mt List.isEmpty_iff.1 (List.ne_nil_of_mem mem))]
  exact Aggregate.get?_named settings members Aggregate.tellsApart_groupLabel mem supported

end Grouping

namespace Group

/-- The entry of a label among the aggregates of a group. -/
def aggregate? (g : Group) (label : String) : Option Value := g.aggregates.bind (Fields.get? label)

/-! ## The invariant -/

variable (values : List Record → Option (Fields Value))

/-- A group shows the aggregates and the number of its members. -/
structure Shows (members : List Record) (g : Group) : Prop where
  aggregates_eq : g.aggregates = values members
  count_eq : g.count = members.length
  ne_nil : members ≠ []

/-- All groups of a tree show their members, and the members of subgroups are cut from those of
their group. -/
def Totals : Nat → List Record → Group → Prop
  | 0, members, g => g.Shows values members ∧ g.subgroups = [] ∧ g.members = members
  | depth + 1, members, g =>
    g.Shows values members ∧
      ∃ parts, IsCut members parts ∧ List.Forall₂ (Totals depth) parts g.subgroups

variable {values} {depth : Nat} {members : List Record} {parts : List (List Record)} {g : Group}
  {gs : List Group}

theorem Totals.shows (h : Totals values depth members g) : g.Shows values members := by
  cases depth with
  | zero => exact h.1
  | succ depth => exact h.1

theorem Totals.subgroups_ne_nil (h : Totals values (depth + 1) members g) : g.subgroups ≠ [] := by
  obtain ⟨shows, parts, cut, below⟩ := h
  intro none
  rw [none] at below
  cases below
  exact shows.ne_nil cut.perm.nil_eq.symm

/-- Every group of the tree has a tree of its own, with members among those of the whole. -/
theorem Totals.within {inner : Group} (w : Within inner g) (h : Totals values depth members g) :
    ∃ depth own, own ⊆ members ∧ Totals values depth own inner := by
  induction w generalizing depth members with
  | self => exact ⟨depth, members, List.Subset.refl _, h⟩
  | step mem _ ih =>
    cases depth with
    | zero =>
      rw [h.2.1] at mem
      cases mem
    | succ depth =>
      obtain ⟨_, parts, cut, below⟩ := h
      obtain ⟨part, listed, totals⟩ := exists_part below mem
      obtain ⟨depth', own, inside, totals'⟩ := ih totals
      exact ⟨depth', own, List.Subset.trans inside (cut.sublist part listed).subset, totals'⟩

/-- The members of the subgroups of a group are parts of its members. -/
theorem Totals.exists_parts (h : Totals values depth members g) (some : g.subgroups ≠ []) :
    ∃ depth parts, IsCut members parts ∧ List.Forall₂ (Totals values depth) parts g.subgroups := by
  cases depth with
  | zero => exact absurd h.2.1 some
  | succ depth =>
    obtain ⟨_, parts, cut, below⟩ := h
    exact ⟨depth, parts, cut, below⟩

/-! ## Entries -/

variable {settings : Settings} {options : GroupOptions} {typeAt : String → Option TypeInfo}
  {a : Aggregate}

/-- The entry of a group is the value for its members. -/
theorem Totals.aggregate?_eq
    (h : Totals (Grouping.valuesOver settings options typeAt) depth members g)
    (mem : a ∈ options.aggregates) (supported : a.kind.isSupported = true) :
    g.aggregate? a.groupLabel = Aggregate.valueOver settings typeAt members a := by
  rw [aggregate?, h.shows.aggregates_eq, Grouping.get?_valuesOver mem supported]

theorem map_aggregate?_eq
    (h : List.Forall₂ (Totals (Grouping.valuesOver settings options typeAt) depth) parts gs)
    (mem : a ∈ options.aggregates) (supported : a.kind.isSupported = true) :
    gs.map (·.aggregate? a.groupLabel) =
      parts.map fun part => Aggregate.valueOver settings typeAt part a := by
  induction h with
  | nil => rfl
  | cons first _ ih => rw [List.map_cons, List.map_cons, ih, first.aggregate?_eq mem supported]

end Group

namespace Grouping

open RecordQuery.Group

variable (settings : Settings) (options : GroupOptions) (field : String)
  {typeAt : String → Option TypeInfo} {types : FieldTypes}

/-! ## One level -/

variable (knows : types.Knows typeAt (options.aggregates.flatMap Aggregate.typedFields))
include knows

/-- Aggregates of known types teach nothing new. -/
theorem groupAggregates_of_knows (members : List Record) :
    groupAggregates settings options members types =
      (valuesOver settings options typeAt members, types) := by
  rw [groupAggregates, valuesOver]
  split
  · rfl
  · simp only [Aggregate.computeGroup, bind, StateT.bind,
      Aggregate.computeNamed_of_knows settings members Aggregate.groupLabel knows]
    rfl

theorem totals_build (level : Nat) {members : List (Value × Record)} (some : members ≠ []) :
    ∃ g, build settings options field level members types = (g, types) ∧
      Totals (valuesOver settings options typeAt) 0 (members.map (·.2)) g := by
  have computed := groupAggregates_of_knows settings options knows (members.map (·.2))
  have learned : (build settings options field level members types).2 = types :=
    congrArg Prod.snd computed
  have shown : (build settings options field level members types).1.aggregates =
      valuesOver settings options typeAt (members.map (·.2)) := congrArg Prod.fst computed
  exact ⟨_, Prod.ext rfl learned, ⟨shown, rfl, by simpa using some⟩, rfl,
    members_of_options _ _ options.expandAll _⟩

theorem totals_buildList (level : Nat) {classes : List (List (Value × Record))}
    (some : ∀ members ∈ classes, members ≠ []) :
    ∃ gs, buildList settings options field level classes types = (gs, types) ∧
      List.Forall₂ (Totals (valuesOver settings options typeAt) 0)
        (classes.map fun members => members.map (·.2)) gs := by
  induction classes with
  | nil => exact ⟨[], rfl, .nil⟩
  | cons members classes ih =>
    obtain ⟨g, built, totals⟩ :=
      totals_build settings options field knows level (some members (by simp))
    obtain ⟨gs, builtList, below⟩ := ih fun other mem => some other (by simp [mem])
    refine ⟨g :: gs, ?_, .cons totals below⟩
    simp only [buildList, bind, StateT.bind, built, builtList]
    rfl

/-- **One level of groups** shows the members of its parts, and learns nothing. -/
theorem totals_partition (level : Nat) (records : List Record) :
    ∃ gs, partition settings options field level records types = (gs, types) ∧
      ∃ parts, IsCut records parts ∧
        List.Forall₂ (Totals (valuesOver settings options typeAt) 0) parts gs := by
  obtain ⟨gs, built, below⟩ := totals_buildList settings options field knows level
    fun _ mem => ne_nil_of_mem_classes settings options field mem
  exact ⟨gs, built, _, isCut_parts settings options field records, below⟩

/-! ## A further level -/

omit knows in
/-- Regrouping a list of groups adds a level to each, if regrouping one group does. -/
theorem totals_regroupList {depth : Nat}
    (step : ∀ members g, Totals (valuesOver settings options typeAt) depth members g →
      ∃ g', regroup settings options field g types = (g', types) ∧
        Totals (valuesOver settings options typeAt) (depth + 1) members g')
    {parts : List (List Record)} {gs : List Group}
    (h : List.Forall₂ (Totals (valuesOver settings options typeAt) depth) parts gs) :
    ∃ gs', regroupList settings options field gs types = (gs', types) ∧
      List.Forall₂ (Totals (valuesOver settings options typeAt) (depth + 1)) parts gs' := by
  induction h with
  | nil => exact ⟨[], rfl, .nil⟩
  | @cons part g parts gs first _ ih =>
    obtain ⟨g', regrouped, totals⟩ := step part g first
    obtain ⟨gs', regroupedList, below⟩ := ih
    refine ⟨g' :: gs', ?_, .cons totals below⟩
    simp only [regroupList, bind, StateT.bind, regrouped, regroupedList]
    rfl

/-- **A further level of groups** shows the members of its parts, and the groups above it stay as
they are. -/
theorem totals_regroup {depth : Nat} {members : List Record} {g : Group}
    (h : Totals (valuesOver settings options typeAt) depth members g) :
    ∃ g', regroup settings options field g types = (g', types) ∧
      Totals (valuesOver settings options typeAt) (depth + 1) members g' := by
  induction depth generalizing members g with
  | zero =>
    obtain ⟨⟨aggregates, count, some⟩, none, held⟩ := h
    obtain ⟨key, ownField, level, count', items, subgroups, groupedData, aggregates'⟩ := g
    obtain rfl : subgroups = [] := none
    obtain ⟨gs, cut, parts, isCut, below⟩ :=
      totals_partition settings options field knows (level + 1) members
    refine ⟨⟨key, ownField, level, count', [], gs, groupedData, aggregates'⟩, ?_,
      ⟨aggregates, count, some⟩, parts, isCut, below⟩
    rw [← held] at cut
    simp only [regroup, bind, StateT.bind]
    rw [Group.members] at cut
    simp only [cut]
    rfl
  | succ depth ih =>
    have some := h.subgroups_ne_nil
    obtain ⟨⟨aggregates, count, some'⟩, parts, isCut, below⟩ := h
    obtain ⟨key, ownField, level, count', items, subgroups, groupedData, aggregates'⟩ := g
    cases below with
    | nil => exact absurd rfl some
    | cons first rest =>
      obtain ⟨g', regrouped, totals⟩ := ih first
      obtain ⟨gs', regroupedList, below'⟩ :=
        totals_regroupList settings options field (fun _ _ h => ih h) rest
      refine ⟨⟨key, ownField, level, count', items, g' :: gs', groupedData, aggregates'⟩, ?_,
        ⟨aggregates, count, some'⟩, _, isCut, .cons totals below'⟩
      simp only [regroup, bind, StateT.bind, regrouped, regroupedList]
      rfl

/-! ## All levels -/

/-- Further levels below groups. -/
theorem totals_groupAll_grouped {depth : Nat} {parts : List (List Record)} (set : GroupSet)
    (h : List.Forall₂ (Totals (valuesOver settings options typeAt) depth) parts set.groups)
    (fields : List String) :
    ∃ set' depth', (groupAll settings options (.grouped set) fields types).1 = .grouped set' ∧
      List.Forall₂ (Totals (valuesOver settings options typeAt) depth') parts set'.groups := by
  induction fields generalizing depth set with
  | nil => exact ⟨set, depth, rfl, h⟩
  | cons field fields ih =>
    obtain ⟨gs, regrouped, below⟩ := totals_regroupList settings options field
      (fun _ _ h => totals_regroup settings options field knows h) h
    obtain ⟨set', depth', grouped, totals⟩ := ih ⟨set.level, set.childLevels + 1, gs⟩ below
    refine ⟨set', depth', ?_, totals⟩
    rw [← grouped]
    simp only [groupAll, group, bind, StateT.bind, regrouped]
    rfl

/-- **Groups show the aggregates of their members**, at all levels and over the same types. -/
theorem totals_groupAll {records : List Record} (some : records ≠ []) {fields : List String}
    (step : fields ≠ []) :
    ∃ set depth, (groupAll settings options (.records records) fields types).1 = .grouped set ∧
      ∃ parts, IsCut records parts ∧
        List.Forall₂ (Totals (valuesOver settings options typeAt) depth) parts set.groups := by
  obtain ⟨field, rest, rfl⟩ := List.exists_cons_of_ne_nil step
  obtain ⟨first, others, rfl⟩ := List.exists_cons_of_ne_nil some
  obtain ⟨gs, cut, parts, isCut, below⟩ :=
    totals_partition settings options field knows 1 (first :: others)
  obtain ⟨set', depth', grouped, totals⟩ :=
    totals_groupAll_grouped settings options knows ⟨1, 0, gs⟩ below rest
  refine ⟨set', depth', ?_, parts, isCut, totals⟩
  rw [← grouped]
  simp only [groupAll, group, bind, StateT.bind, cut]
  rfl

end Grouping

end RecordQuery
