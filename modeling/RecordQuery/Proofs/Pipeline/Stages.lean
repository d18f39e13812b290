import RecordQuery.Pipeline
import RecordQuery.Proofs.Aggregate.Meaning
import RecordQuery.Proofs.Group.Spans
import RecordQuery.Proofs.Search.Meaning

/-!
# The stages of a run

A run comes to the records that are shown and to the aggregates of all of them, and then takes the
page and cuts the groups.

* `Pipeline.reads_filtered`, `Pipeline.reads_searched` and `Pipeline.reads_aggregated`: what a stage
  yields, given the types of fields over the records that come to it;
* `Pipeline.filtered_subset`, `Pipeline.searched_subset` and `Pipeline.arranged_subset`: no stage
  adds a record;
* `Pipeline.selected` is what passes the filters and the searches, and `Pipeline.typeAt_selected`
  what is known of types by then;
* `Pipeline.knows_aggregated`: which types are known once the aggregates are computed;
* `Pipeline.prepared` is all that comes before the page and the groups, and `Pipeline.finish` the
  rest;
* `Pipeline.paged_of_group_nil`, `Pipeline.paged_of_groupPaging` and
  `Pipeline.paged_of_not_groupPaging` are the three ways to take a page, and `Pipeline.paged_whole`
  is the result without one.
-/

namespace RecordQuery.Pipeline

variable (settings : Settings) (q : Request) (source : List Record)

/-! ## Before the page -/

/-- The filters keep what the joined trees hold of. -/
theorem reads_filtered :
    Reads source (filtered settings q source) fun typeAt =>
      source.filter fun r => q.joiner.answer
        (q.filters.map (FilterClause.evaluate (FilterClause.leafOver settings typeAt) r)) := by
  rw [filtered]
  split
  · next none =>
    rw [List.isEmpty_iff.1 none]
    refine (Reads.pure source).congr fun typeAt => ?_
    simp [Joiner.answer]
  · exact (FilterClause.reads_compileAll settings source q.joiner q.filters).bind fun predicate =>
      Reads.pure (source.filter predicate)

/-- The searches keep what all of them match. -/
theorem reads_searched :
    Reads source (searched settings q source) fun typeAt =>
      source.filter fun r => q.search.all fun clause =>
        clause.matchesAny settings typeAt (clause.searchedFields source) r := by
  rw [searched]
  split
  · next none =>
    rw [List.isEmpty_iff.1 none]
    refine (Reads.pure source).congr fun typeAt => ?_
    simp
  · exact (SearchClause.reads_compileAll settings source q.search).bind fun predicate =>
      Reads.pure (source.filter predicate)

/-- **Filtering and searching add no record.** -/
theorem filtered_subset (types : FieldTypes) : (filtered settings q source types).1 ⊆ source := by
  rw [(reads_filtered settings q source).value_eq]
  exact List.filter_subset_self _

theorem searched_subset (types : FieldTypes) : (searched settings q source types).1 ⊆ source := by
  rw [(reads_searched settings q source).value_eq]
  exact List.filter_subset_self _

/-- Sorted records are the same records. -/
theorem sortRecords_perm (keys : List SortKey) (records : List Record) :
    (sortRecords keys records).Perm records := by
  have sorted := (List.mergeSort_perm (records.map fun r => (keyValues keys r, r)) fun a b =>
    compareKeys keys a.1 b.1 != .gt).map (·.2)
  have back : (records.map fun r => (keyValues keys r, r)).map (·.2) = records := by
    rw [List.map_map]
    exact List.map_id _
  rw [back] at sorted
  exact sorted

/-- No keys leave the records in their order. -/
theorem sortRecords_nil (records : List Record) : sortRecords [] records = records := by
  have unsorted : ((records.map fun r => (keyValues [] r, r)).mergeSort fun a b =>
      compareKeys [] a.1 b.1 != .gt) = records.map fun r => (keyValues [] r, r) :=
    List.mergeSort_of_pairwise (List.pairwise_of_forall fun _ _ => rfl)
  rw [sortRecords, unsorted, List.map_map]
  exact List.map_id _

theorem firstOfKeys_sublist (path : FieldPath) (root : String) (seen : List String)
    (records : List Record) : (firstOfKeys path root seen records).Sublist records := by
  induction records generalizing seen with
  | nil => exact .slnil
  | cons r rest ih =>
    simp only [firstOfKeys]
    split
    · exact (ih seen).cons r
    · exact (ih _).cons_cons r

/-- **Arranging adds no record.** -/
theorem arranged_subset (records : List Record) : arranged q records ⊆ records := by
  have sorted := (sortRecords_perm q.sort records).subset
  simp only [arranged]
  split
  · next field _ =>
    refine List.Subset.trans ?_ sorted
    simp only [distinct]
    split
    · exact List.Subset.refl _
    · exact (firstOfKeys_sublist _ _ [] _).subset
  · exact sorted

/-- The records that pass the filters and the searches, with what is known of types by then. -/
def selected : List Record × FieldTypes :=
  let kept := filtered settings q source { limit := settings.sampleLimit }
  searched settings q kept.1 kept.2

theorem selected_subset : (selected settings q source).1 ⊆ source :=
  List.Subset.trans (searched_subset settings q _ _) (filtered_subset settings q source _)

/-- What holds of the type of a field over all records that may be left, whatever was looked up
before them, holds of the type that is known after filtering and searching. -/
theorem typeAt_selected {P : Option TypeInfo → Prop} {field : String}
    (fresh : ∀ limit, ∀ records ⊆ source, P (fieldType? limit records (.parse field))) :
    ∀ records ⊆ source, P ((selected settings q source).2.typeAt records field) := by
  intro records shown
  set kept := filtered settings q source { limit := settings.sampleLimit }
  have initial : P (({ limit := settings.sampleLimit } : FieldTypes).typeAt source field) :=
    fresh _ source (List.Subset.refl _)
  have inside : kept.1 ⊆ source := filtered_subset settings q source _
  have filtered' : P (kept.2.typeAt source field) := by
    rw [(reads_filtered settings q source).typeAt_eq]
    exact initial
  have searched' : P ((selected settings q source).2.typeAt kept.1 field) := by
    rw [selected, (reads_searched settings q kept.1).typeAt_eq]
    exact FieldTypes.typeAt_of_other filtered' (fresh _ kept.1 inside)
  exact FieldTypes.typeAt_of_other searched' (fresh _ records shown)

variable {source}

theorem reads_aggregated (rows : source ≠ []) :
    Reads source (aggregated settings q source) fun typeAt =>
      if q.aggregates.isEmpty then none
      else some (Fields.ofList
        (Aggregate.namedOver settings typeAt source Aggregate.label q.aggregates)) := by
  rw [aggregated]
  split
  · exact Reads.pure none
  · have named := Aggregate.reads_computeNamed settings source Aggregate.label q.aggregates
    have fields : Reads source (Aggregate.computeAll settings source q.aggregates) fun typeAt =>
        Fields.ofList
          (Aggregate.namedOver settings typeAt source Aggregate.label q.aggregates) := by
      rw [Aggregate.computeAll, if_neg (mt List.isEmpty_iff.1 rows)]
      exact named.bind fun pairs => Reads.pure (Fields.ofList pairs)
    exact fields.bind fun entries => Reads.pure (some entries)

/-- Afterwards the types that the aggregates ask for are known. -/
theorem knows_aggregated (rows : source ≠ []) (types : FieldTypes) :
    (aggregated settings q source types).2.Knows (types.typeAt source)
      (q.aggregates.flatMap Aggregate.typedFields) := by
  by_cases none : q.aggregates = []
  · rw [none]
    intro field mem
    cases mem
  · have learned :=
      Aggregate.learned_computeNamed settings source Aggregate.label q.aggregates types
    have computed : (aggregated settings q source types).2 =
        (Aggregate.computeNamed settings source Aggregate.label q.aggregates types).2 := by
      rw [aggregated, if_neg (mt List.isEmpty_iff.1 none), Aggregate.computeAll,
        if_neg (mt List.isEmpty_iff.1 rows)]
      rfl
    rw [computed]
    exact learned.knows

variable (source)

/-- The records that are shown, and the aggregates of all of them. -/
def prepared : StateM FieldTypes (List Record × Option (List (String × Value))) := do
  let records ← filtered settings q source
  let records ← searched settings q records
  let records := arranged q records
  let aggregates ← aggregated settings q records
  pure (records, aggregates)

/-- The page and the groups. -/
def finish (records : List Record) (aggregates : Option (List (String × Value))) :
    StateM FieldTypes QueryResult := do
  let (result, groups) ← paged settings q records
  let count := if q.requiresCounts then some (groups.getD records.length) else none
  pure { result, count, aggregates }

theorem execute_eq :
    execute settings source q =
      let before := prepared settings q source { limit := settings.sampleLimit }
      (finish settings q before.1.1 before.1.2 before.2).1 := rfl

/-- A run arranges what is selected, computes the aggregates, and finishes. -/
theorem execute_eq_finish :
    execute settings source q =
      let selection := selected settings q source
      let records := arranged q selection.1
      let totals := aggregated settings q records selection.2
      (finish settings q records totals.1 totals.2).1 := rfl

theorem finish_eq (records : List Record) (aggregates : Option (List (String × Value)))
    (types : FieldTypes) :
    (finish settings q records aggregates types).1 =
      let page := (paged settings q records types).1
      { result := page.1
        count := if q.requiresCounts then some (page.2.getD records.length) else none
        aggregates } := rfl

variable {settings q} {records : List Record} {types : FieldTypes}

/-! ## Ways to take a page -/

theorem paged_of_group_nil (flat : q.group = []) :
    (paged settings q records types).1 = (.records (page q.skip q.take records), none) := by
  rw [paged, if_pos (List.isEmpty_iff.2 flat)]
  rfl

/-- A page of the groups, with the number of all of them. -/
def groupPage (skip : Nat) (take : Option Nat) : DataSet → DataSet × Option Nat
  | .grouped set =>
    (.grouped { set with groups := page skip take set.groups }, some set.groups.length)
  | .records items => (.records items, none)

/-- Groups are cut first, and then a page of them is taken. -/
theorem paged_of_groupPaging (fields : q.group ≠ []) (groups : q.groupPaging = true) :
    (paged settings q records types).1 = groupPage q.skip q.take
      (Grouping.groupAll settings q.groupOptions (.records records) q.group types).1 := by
  rw [paged, if_neg (mt List.isEmpty_iff.1 fields), if_pos groups]
  simp only [bind, StateT.bind]
  cases Grouping.groupAll settings q.groupOptions (.records records) q.group types with
  | mk data after => cases data <;> rfl

/-- A page of records is taken first, and then groups are cut from it. -/
theorem paged_of_not_groupPaging (fields : q.group ≠ []) (items : q.groupPaging = false) :
    (paged settings q records types).1 =
      ((Grouping.groupAll settings q.groupOptions (.records (page q.skip q.take records)) q.group
        types).1, none) := by
  rw [paged, if_neg (mt List.isEmpty_iff.1 fields), if_neg (Bool.not_eq_true _ ▸ items)]
  rfl

/-- Without a page all records are grouped, in either way. -/
theorem paged_whole (skip : q.skip = 0) (take : q.take = none) :
    (paged settings q records types).1.1 =
      (Grouping.groupAll settings q.groupOptions (.records records) q.group types).1 := by
  by_cases fields : q.group = []
  · rw [paged_of_group_nil fields, skip, take, fields]
    rfl
  · cases paging : q.groupPaging with
    | true =>
      rw [paged_of_groupPaging fields paging, skip, take]
      cases (Grouping.groupAll settings q.groupOptions (.records records) q.group types).1 <;> rfl
    | false =>
      rw [paged_of_not_groupPaging fields paging, skip, take]
      rfl

end RecordQuery.Pipeline
