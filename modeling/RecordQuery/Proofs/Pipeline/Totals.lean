import RecordQuery.Proofs.Aggregate.Sums
import RecordQuery.Proofs.Group.Totals
import RecordQuery.Proofs.Pipeline.Stages

/-!
# Totals of a result

In a result that is cut into groups, the counts and the sums of integers add up: the entries of a
group are those of its subgroups added up, at every level, and the entries of the whole result those
of the groups at the first level.

* `QueryResult.aggregate?` is an entry of the whole result, `Group.aggregate?` one of a group;
* `TotalsOver` says that one list of records and one choice of types stand behind all entries, and
  `Pipeline.exists_totalsOver` finds them;
* `TotalsOver.addUp`: what an aggregate does over members and their parts, the entries do;
* `execute_totals`: the entries add up.
-/

namespace RecordQuery

/-- The entry of a label among the aggregates of all records. -/
def QueryResult.aggregate? (result : QueryResult) (label : String) : Option Value :=
  result.aggregates.bind (Fields.get? label)

/-- A group that stands somewhere in a set of groups. -/
def GroupSet.Within (set : GroupSet) (inner : Group) : Prop :=
  ∃ g ∈ set.groups, Group.Within inner g

/-! ## What stands behind the entries -/

/-- All entries of a grouped result are those of records over some types: of all of them, and of the
members that are cut from them. -/
structure TotalsOver (settings : Settings) (q : Request) (typeAt : String → Option TypeInfo)
    (records : List Record) (result : QueryResult) (set : GroupSet) : Prop where
  aggregates_eq : q.aggregates ≠ [] → result.aggregates = some (Fields.ofList
    (Aggregate.namedOver settings typeAt records Aggregate.label q.aggregates))
  groups : ∃ depth parts, IsCut records parts ∧
    List.Forall₂ (Group.Totals (Grouping.valuesOver settings q.groupOptions typeAt) depth) parts
      set.groups

namespace TotalsOver

variable {settings : Settings} {q : Request} {typeAt : String → Option TypeInfo}
  {records : List Record} {result : QueryResult} {set : GroupSet} {a : Aggregate}

theorem aggregate?_eq (h : TotalsOver settings q typeAt records result set) (mem : a ∈ q.aggregates)
    (supported : a.kind.isSupported = true) :
    result.aggregate? a.label = Aggregate.valueOver settings typeAt records a := by
  rw [QueryResult.aggregate?, h.aggregates_eq (List.ne_nil_of_mem mem)]
  exact Aggregate.get?_named settings records Aggregate.tellsApart_label mem supported

theorem within {inner : Group} (h : TotalsOver settings q typeAt records result set)
    (w : set.Within inner) :
    ∃ depth own, own ⊆ records ∧
      Group.Totals (Grouping.valuesOver settings q.groupOptions typeAt) depth own inner := by
  obtain ⟨depth, parts, cut, groups⟩ := h.groups
  obtain ⟨g, mem, w⟩ := w
  obtain ⟨part, listed, totals⟩ := Group.exists_part groups mem
  obtain ⟨depth', own, sub, totals'⟩ := totals.within w
  exact ⟨depth', own, List.Subset.trans sub (cut.sublist part listed).subset, totals'⟩

/-- What holds of an aggregate over members and over their parts holds of the entries. -/
theorem addUp (h : TotalsOver settings q typeAt records result set)
    (Up : Nat → Option Value → List (Option Value) → Prop) (mem : a ∈ q.aggregates)
    (supported : a.kind.isSupported = true)
    (cut : ∀ (members : List Record) (parts : List (List Record)), members ⊆ records →
      parts.flatten.Perm members →
      Up members.length (Aggregate.valueOver settings typeAt members a)
        (parts.map fun part => Aggregate.valueOver settings typeAt part a)) :
    (∀ inner, set.Within inner → inner.subgroups ≠ [] →
      Up inner.count (inner.aggregate? a.groupLabel)
        (inner.subgroups.map (·.aggregate? a.groupLabel))) ∧
    Up (set.groups.map (·.count)).sum (result.aggregate? a.label)
      (set.groups.map (·.aggregate? a.groupLabel)) := by
  constructor
  · intro inner w some
    obtain ⟨depth, own, sub, totals⟩ := h.within w
    obtain ⟨depth', parts, isCut, below⟩ := totals.exists_parts some
    rw [totals.aggregate?_eq mem supported, Group.map_aggregate?_eq below mem supported,
      totals.shows.count_eq]
    exact cut own parts sub isCut.perm
  · obtain ⟨depth, parts, isCut, groups⟩ := h.groups
    have counts := Group.sum_count (fun _ _ totals => totals.shows.count_eq) isCut groups
    rw [h.aggregate?_eq mem supported, Group.map_aggregate?_eq groups mem supported, counts]
    exact cut records parts (List.Subset.refl _) isCut.perm

end TotalsOver

namespace Pipeline

variable {settings : Settings} {q : Request} {source : List Record}

/-- **One list of records and one choice of types** stand behind all entries of a grouped result. -/
theorem exists_totalsOver {set : GroupSet} (skip : q.skip = 0) (take : q.take = none)
    (grouped : (execute settings source q).result = .grouped set) :
    ∃ records typeAt, TotalsOver settings q typeAt records (execute settings source q) set ∧
      records ⊆ source ∧
      ∀ field, IntegersAt field source → DeclaresIntegers field source →
        AllowsIntegers (typeAt field) := by
  set found := selected settings q source
  set records := arranged q found.1
  set last := (aggregated settings q records found.2).2
  have run : execute settings source q =
      (finish settings q records (aggregated settings q records found.2).1 last).1 :=
    execute_eq_finish settings q source
  -- the records are among those of the source
  have shown : records ⊆ source :=
    List.Subset.trans (arranged_subset q found.1) (selected_subset settings q source)
  -- there are some, and they are grouped
  have cut : (Grouping.groupAll settings q.groupOptions (.records records) q.group last).1 =
      .grouped set := by
    rw [← paged_whole skip take, ← grouped, run, finish_eq]
  have fields : q.group ≠ [] := by
    intro none
    rw [none] at cut
    cases cut
  have rows : records ≠ [] := by
    intro none
    rw [none, Grouping.groupAll_eq_groupSteps, Grouping.groupSteps_nil_records] at cut
    cases cut
  have knows := knows_aggregated settings q rows found.2
  refine ⟨records, found.2.typeAt records, ⟨fun some => ?_, ?_⟩, shown,
    fun field values declared => ?_⟩
  · rw [run, finish_eq, (reads_aggregated settings q rows).value_eq,
      if_neg (mt List.isEmpty_iff.1 some)]
  · obtain ⟨set', depth, grouped', parts, isCut, totals⟩ :=
      Grouping.totals_groupAll settings q.groupOptions knows rows fields
    obtain rfl : set = set' := DataSet.grouped.inj (cut.symm.trans grouped')
    exact ⟨depth, parts, isCut, totals⟩
  · exact typeAt_selected settings q source (fun limit _ inside =>
      fieldType?_of_integers (values.mono inside) (declared.mono inside)) records shown

end Pipeline

/-! ## Adding up -/

/-- **Totals add up.** In a result without a page that is cut into groups, the counts of a group are
those of its subgroups added up, at every level, and the counts of the whole are those of the groups
at the first level. A count of all records is the number of members. So do the sums of a field of
integers add up, as far as they are in range; where the declared types are integer kinds, these sums
are integers, and where there are no values at all, they are one zero. -/
theorem execute_totals (settings : Settings) (source : List Record) (q : Request) {set : GroupSet}
    (skip : q.skip = 0) (take : q.take = none)
    (grouped : (execute settings source q).result = .grouped set) :
    let result := execute settings source q
    (∀ a ∈ q.aggregates, a.kind.isTally = true →
      (∀ inner, set.Within inner → inner.subgroups ≠ [] →
        CountsAddUp inner.count (inner.aggregate? a.groupLabel)
          (inner.subgroups.map (·.aggregate? a.groupLabel))) ∧
      CountsAddUp (set.groups.map (·.count)).sum (result.aggregate? a.label)
        (set.groups.map (·.aggregate? a.groupLabel))) ∧
    (∀ field, ⟨field, .count⟩ ∈ q.aggregates → ∀ inner, set.Within inner →
      inner.aggregate? (Aggregate.groupLabel ⟨field, .count⟩) =
        some (Aggregate.countValue inner.count)) ∧
    ∀ field, ⟨field, .sum⟩ ∈ q.aggregates → IntegersAt field source →
      let label := Aggregate.label ⟨field, .sum⟩
      let groupLabel := Aggregate.groupLabel ⟨field, .sum⟩
      (∀ inner, set.Within inner → inner.subgroups ≠ [] →
        SumsAddUp (inner.aggregate? groupLabel) (inner.subgroups.map (·.aggregate? groupLabel))) ∧
      SumsAddUp (result.aggregate? label) (set.groups.map (·.aggregate? groupLabel)) ∧
      (DeclaresIntegers field source →
        (∀ inner, set.Within inner → ∀ x, inner.aggregate? groupLabel = some x →
          x.isInteger = true) ∧
        ∀ x, result.aggregate? label = some x → x.isInteger = true) ∧
      ((∀ r ∈ source, (r.get field).isNull = true) →
        ∃ zero : Option Value, (∀ x, zero = some x → x.toDouble?.map Binary.isZero = some true) ∧
          (∀ inner, set.Within inner → inner.aggregate? groupLabel = zero) ∧
          result.aggregate? label = zero) := by
  intro result
  obtain ⟨records, typeAt, totals, inside, allowed⟩ :=
    Pipeline.exists_totalsOver skip take grouped
  refine ⟨fun a mem tally => ?_, fun field mem inner within => ?_, fun field mem integers => ?_⟩
  · have supported := AggregateKind.isSupported_of_isTally tally
    exact totals.addUp CountsAddUp mem supported fun members parts _ perm =>
      Aggregate.countsAddUp_valueOver settings typeAt tally perm
  · obtain ⟨depth, own, -, h⟩ := totals.within within
    rw [h.aggregate?_eq mem rfl, h.shows.count_eq]
    rfl
  · have values : IntegersAt field records := integers.mono inside
    have sums := totals.addUp (fun _ => SumsAddUp) mem rfl fun members parts sub perm =>
      Aggregate.sumsAddUp_valueOver settings typeAt (values.mono sub) perm
    refine ⟨sums.1, sums.2, fun declared => ⟨fun inner within x shown => ?_, fun x shown => ?_⟩,
      fun none => ?_⟩
    · obtain ⟨depth, own, sub, h⟩ := totals.within within
      rw [h.aggregate?_eq mem rfl] at shown
      exact Aggregate.isInteger_valueOver settings typeAt (values.mono sub)
        (allowed field integers declared) shown
    · rw [totals.aggregate?_eq mem rfl] at shown
      exact Aggregate.isInteger_valueOver settings typeAt values
        (allowed field integers declared) shown
    · refine ⟨(typeAt field).bind fun type => Aggregate.sumIn [] type.kind, fun x sum => ?_,
        fun inner within => ?_, ?_⟩
      · obtain ⟨type, -, sum⟩ := Option.bind_eq_some_iff.1 sum
        exact Aggregate.isZero_sumIn_nil sum
      · obtain ⟨depth, own, sub, h⟩ := totals.within within
        rw [h.aggregate?_eq mem rfl]
        have nulls : ∀ r ∈ own, (r.get field).isNull = true := fun r listed =>
          none r (inside (sub listed))
        exact Aggregate.valueOver_of_nulls settings typeAt nulls
      · rw [totals.aggregate?_eq mem rfl]
        exact Aggregate.valueOver_of_nulls settings typeAt fun r listed => none r (inside listed)

/-- Two records on two levels: how many of them are true, and the sum of their numbers. -/
theorem execute_totals_of_two_levels :
    let source : List Record := [
      .table [("A", .string "x"), ("B", .int64 1), ("N", .int64 2), ("T", .bool true)],
      .table [("A", .string "y"), ("B", .int64 1), ("N", .int64 3), ("T", .bool false)]]
    let q : Request := { group := ["A", "B"], aggregates := [⟨"N", .sum⟩, ⟨"T", .trueCount⟩] }
    let result := execute {} source q
    ∃ set, result.result = .grouped set ∧
      CountsAddUp (set.groups.map (·.count)).sum (result.aggregate? "T - truecount")
        (set.groups.map (·.aggregate? "T - TrueCount")) ∧
      SumsAddUp (result.aggregate? "N - sum") (set.groups.map (·.aggregate? "N - Sum")) ∧
      ∀ inner, set.Within inner → inner.subgroups ≠ [] →
        SumsAddUp (inner.aggregate? "N - Sum") (inner.subgroups.map (·.aggregate? "N - Sum")) := by
  intro source q result
  let start : FieldTypes := { limit := ({} : Settings).sampleLimit }
  have isGrouped : result.result.isGrouped = true := by
    have unsorted : result = (Pipeline.finish {} q (sortRecords [] source)
      (Pipeline.aggregated {} q (sortRecords [] source) start).1
      (Pipeline.aggregated {} q (sortRecords [] source) start).2).1 := rfl
    rw [unsorted, Pipeline.sortRecords_nil]
    decide +kernel
  cases grouped : result.result with
  | records items =>
    rw [grouped] at isGrouped
    cases isGrouped
  | grouped set =>
    obtain ⟨counts, -, sums⟩ := execute_totals {} source q rfl rfl grouped
    have integers : IntegersAt "N" source := by
      intro r mem _
      simp only [source, List.mem_cons, List.not_mem_nil, or_false] at mem
      rcases mem with rfl | rfl <;> decide
    obtain ⟨levels, whole, -⟩ := sums "N" (by decide) integers
    exact ⟨set, rfl, (counts ⟨"T", .trueCount⟩ (by decide) rfl).2, whole, levels⟩

end RecordQuery
