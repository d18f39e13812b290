import RecordQuery.Proofs.Search.Meaning

/-!
# A search as a filter

A search that lists its fields is the filter that compares each of them with the key and joins the
comparisons by `or`. A field of an enumeration in which the key names nothing is skipped by the
search; in the filter it is compared, but passes no record. Only `notEquals` and a null key would
tell the two apart, and a search without fields, which stands for all members.

* `SearchClause.alternatives` is the filter, `SearchClause.Listed` the searches that are meant;
* `SearchClause.predicate_of_not_isSearchable`: a field that is skipped would pass no record;
* `SearchClause.compile_eq_alternatives`: searches and their filters, one by one and all together.
-/

namespace RecordQuery.SearchClause

/-- The comparisons of the listed fields with the key, joined by `or`. -/
def alternatives (clause : SearchClause) : FilterClause :=
  .composite .or (clause.fields.map fun field => .simple (clause.onField field))

/-- A search that lists its fields, has a key, and does not ask for what differs from it. -/
structure Listed (clause : SearchClause) : Prop where
  fields : clause.fields ≠ []
  key : clause.key.isNull = false
  operator : clause.operator ≠ .notEquals

/-! ## Fields that are skipped -/

section

variable {clause : SimpleClause} {type? : Option TypeInfo}

/-- A field is skipped if it holds values of an enumeration in which the key names nothing. -/
theorem exists_of_not_isSearchable {key : Value} (skipped : isSearchable key type? = false) :
    ∃ type descriptor, type? = some type ∧ type.kind.descriptor? = some descriptor ∧
      resolveEnum? key descriptor = none := by
  unfold isSearchable at skipped
  split at skipped
  · next descriptor enum =>
    obtain ⟨type, rfl, enum⟩ := Option.bind_eq_some_iff.1 enum
    exact ⟨type, descriptor, rfl, enum, Option.isNone_iff_eq_none.1 (by simpa using skipped)⟩
  · cases skipped

/-- **A field that is skipped** would pass no record: a literal that names no member equals
nothing. -/
theorem predicate_of_not_isSearchable (settings : Settings) (given : clause.value.isNull = false)
    (operator : clause.operator ≠ .notEquals)
    (skipped : isSearchable clause.value type? = false) (r : Record) :
    clause.predicate settings type? r = false := by
  obtain ⟨type, descriptor, rfl, enum, unnamed⟩ := exists_of_not_isSearchable skipped
  have noMatch : clause.comparand type = .noMatch := by
    simp [SimpleClause.comparand, enum, given, unnamed]
  have differs : (clause.operator == .notEquals) = false := by simpa using operator
  simp only [SimpleClause.predicate, Comparison.test, Comparison.testValue, noMatch]
  cases r.resolve (.parse clause.field) with
  | missing => rfl
  | intermediateNull => exact differs
  | value v => exact differs

end

/-! ## Searches and filters -/

variable {clause : SearchClause}

theorem Listed.searchedFields_eq (h : clause.Listed) (records : List Record) :
    clause.searchedFields records = clause.fields :=
  if_neg (by simpa using h.fields)

/-- A field passes in a search as it does in a filter, skipped or not. -/
theorem Listed.matchesField_eq (h : clause.Listed) (settings : Settings)
    (typeAt : String → Option TypeInfo) (r : Record) (field : String) :
    clause.matchesField settings typeAt r field =
      FilterClause.leafOver settings typeAt (clause.onField field) r := by
  rw [matchesField, FilterClause.leafOver]
  cases searched : isSearchable clause.key (typeAt field) with
  | true => rfl
  | false =>
    have none : (clause.onField field).predicate settings (typeAt field) r = false :=
      predicate_of_not_isSearchable settings h.key h.operator searched r
    rw [Bool.false_and]
    exact none.symm

/-- The filter of a search passes what any of its fields passes. -/
theorem Listed.evaluate_alternatives (h : clause.Listed) (settings : Settings)
    (typeAt : String → Option TypeInfo) (r : Record) :
    clause.alternatives.evaluate (FilterClause.leafOver settings typeAt) r =
      clause.matchesAny settings typeAt clause.fields r := by
  have some : clause.fields.map (fun field =>
      FilterClause.leafOver settings typeAt (clause.onField field) r) ≠ [] := by
    simpa using h.fields
  calc clause.alternatives.evaluate (FilterClause.leafOver settings typeAt) r
      = Joiner.or.answer (clause.fields.map fun field =>
          FilterClause.leafOver settings typeAt (clause.onField field) r) := by
        rw [alternatives, FilterClause.evaluate_composite, List.map_map]
        rfl
    _ = clause.fields.any fun field =>
          FilterClause.leafOver settings typeAt (clause.onField field) r := by
        rw [Joiner.answer_or some, List.any_map]
        rfl
    _ = clause.matchesAny settings typeAt clause.fields r := by
        rw [matchesAny, funext (h.matchesField_eq settings typeAt r)]

/-- **A search is the `or` of its fields.** Whatever was compiled before, a search that lists its
fields, has a key and does not ask for what differs from it compiles to the predicate of its
alternatives. Of several searches a record must pass all, and no searches at all pass every record;
so searches of this form compile to the `and` of their alternatives. -/
theorem compile_eq_alternatives (settings : Settings) (records : List Record)
    (types : FieldTypes) :
    (∀ clause : SearchClause, clause.Listed →
      (clause.compile settings records types).1 =
        (clause.alternatives.compile settings records types).1) ∧
    (∀ (clauses : List SearchClause) (r : Record),
      (compileAll settings records clauses types).1 r = true ↔
        ∀ clause ∈ clauses, (clause.compile settings records types).1 r = true) ∧
    (∀ r : Record, (compileAll settings records [] types).1 r = true) ∧
    ∀ clauses : List SearchClause, (∀ clause ∈ clauses, clause.Listed) →
      (compileAll settings records clauses types).1 =
        (FilterClause.compile settings records (.composite .and (clauses.map alternatives))
          types).1 := by
  have one (clause : SearchClause) : (clause.compile settings records types).1 =
      clause.matchesAny settings (types.typeAt records) (clause.searchedFields records) :=
    (reads_compile settings records clause).value_eq types
  have all (clauses : List SearchClause) (r : Record) :
      (compileAll settings records clauses types).1 r = true ↔
        ∀ clause ∈ clauses, (clause.compile settings records types).1 r = true := by
    rw [(reads_compileAll settings records clauses).value_eq types]
    simp only [one, List.all_eq_true]
  have tree (filter : FilterClause) (r : Record) : (filter.compile settings records types).1 r =
      filter.evaluate (FilterClause.leafOver settings (types.typeAt records)) r := by
    rw [(FilterClause.reads_compile settings records filter).value_eq types]
  have single (clause : SearchClause) (h : clause.Listed) (r : Record) :
      (clause.compile settings records types).1 r =
        (clause.alternatives.compile settings records types).1 r := by
    rw [one, h.searchedFields_eq, tree, h.evaluate_alternatives]
  refine ⟨fun clause h => funext (single clause h), all, fun r => (all [] r).2 nofun,
    fun clauses h => funext fun r => ?_⟩
  rw [Bool.eq_iff_iff, all, tree, FilterClause.evaluate_composite, Joiner.answer_and,
    List.map_map, List.all_map, List.all_eq_true]
  refine forall₂_congr fun clause mem => ?_
  rw [single clause (h clause mem), tree]
  rfl

/-- A text that is looked for in a rank, in a field that is not there and in a name: the rank is
skipped, and the name passes. -/
theorem compile_eq_alternatives_of_rank :
    let rank : EnumDescriptor := ⟨"Priority", [⟨"Low", none, 1⟩, ⟨"VeryHigh", some "very-high", 9⟩]⟩
    let r : Record := .table [("Name", .string "Anton"), ("Rank", .enum rank 9)]
    let types : FieldTypes := { limit := none }
    let search (key : String) : SearchClause :=
      ⟨["Rank", "", "Name"], .string key, .contains, true⟩
    types.typeAt [r] "Rank" = some ⟨.enum rank, true⟩ ∧ types.typeAt [r] "" = none ∧
      (search "TON").Listed ∧
      ((search "TON").compile {} [r] types).1 =
        ((search "TON").alternatives.compile {} [r] types).1 ∧
      (compileAll {} [r] [search "TON", search "very-high"] types).1 r = true := by
  intro rank r types search
  have listed (key : String) : (search key).Listed := ⟨by simp [search], rfl, by simp [search]⟩
  obtain ⟨single, all, -, -⟩ := compile_eq_alternatives {} [r] types
  have name : ((search "TON").compile {} [r] types).1 r = true := by decide +kernel
  have rankNamed : ((search "very-high").compile {} [r] types).1 r = true := by decide +kernel
  refine ⟨by decide, by decide, listed "TON", single _ (listed "TON"), (all _ r).2 ?_⟩
  exact List.forall_mem_cons.2 ⟨name, List.forall_mem_singleton.2 rankNamed⟩

end RecordQuery.SearchClause
