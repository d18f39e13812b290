import Mathlib.Data.List.Forall2
import RecordQuery.Proofs.FieldTypes.Matching
import RecordQuery.Proofs.Record.Alike
import RecordQuery.Proofs.Search.Meaning
import RecordQuery.Pipeline

/-!
# Replacing records by records that look alike

Every stage of a request does the same with records that look alike.

* `Replacement` replaces every record by one that looks alike;
* `Replacement.matches_compileAll`, `Replacement.matches_searches` and
  `Replacement.matches_computeNamed`: filters, searches and aggregates over replaced records answer
  as over the records themselves, and come to know the same of types;
* `Replacement.sortRecords_map` and `Replacement.distinct_map`: the order and the distinct records
  are those of the records themselves, replaced.
-/

namespace RecordQuery

/-- A replacement of records by records that look alike. -/
structure Replacement where
  apply : Record → Record
  alike : ∀ r : Record, r.Alike (apply r)

namespace Replacement

instance : CoeFun Replacement fun _ => Record → Record := ⟨apply⟩

variable (ρ : Replacement) (settings : Settings) (records : List Record)

/-- Replaced records have the same types. -/
theorem sameTypes : FieldTypes.SameTypes records (records.map ρ) := by
  intro limit path
  have samples : ((sampledRecords limit (records.map ρ)).map (Sample.ofRecord path)) =
      (sampledRecords limit records).map (Sample.ofRecord path) := by
    have sampled : sampledRecords limit (records.map ρ) = (sampledRecords limit records).map ρ := by
      cases limit with
      | none => rfl
      | some n => exact List.map_take.symm
    rw [sampled, List.map_map]
    exact List.map_congr_left fun r _ => ((ρ.alike r).sample_eq path).symm
  rw [fieldType?, fieldType?, samples]

theorem valueAt_eq (path : FieldPath) (r : Record) : (ρ r).valueAt path = r.valueAt path := by
  rw [Record.valueAt, Record.valueAt, (ρ.alike r).resolve_eq]

/-! ## Predicates -/

/-- The second predicate answers of replaced records what the first one answers of the records. -/
def Carries (p p' : Predicate) : Prop := ∀ r, p' (ρ r) = p r

variable {ρ}

theorem Carries.filter_map {p p' : Predicate} (h : ρ.Carries p p') :
    (records.map ρ).filter p' = (records.filter p).map ρ := by
  rw [List.filter_map, show p' ∘ ρ = p from funext h]

theorem Carries.countP_map {p p' : Predicate} (h : ρ.Carries p p') :
    (records.map ρ).countP p' = records.countP p := by
  rw [List.countP_map, show p' ∘ ρ = p from funext h]

theorem Carries.combine {ps ps' : List Predicate} (h : List.Forall₂ ρ.Carries ps ps')
    (joiner : Joiner) : ρ.Carries (Predicate.combine joiner ps) (Predicate.combine joiner ps') := by
  intro r
  have answers : ps'.map (· (ρ r)) = ps.map (· r) := by
    induction h with
    | nil => rfl
    | cons first _ ih => rw [List.map_cons, List.map_cons, ih, first]
  rw [Predicate.combine_apply, Predicate.combine_apply, answers]

variable (ρ)

theorem carries_predicate (clause : SimpleClause) (type : Option TypeInfo) :
    ρ.Carries (clause.predicate settings type) (clause.predicate settings type) := by
  intro r
  cases type with
  | none => rfl
  | some type =>
    simp only [SimpleClause.predicate, Comparison.test, (ρ.alike r).resolve_eq]

/-! ## Filters -/

theorem matches_compileSimple (clause : SimpleClause) :
    Matches ρ.Carries (clause.compile settings records)
      (clause.compile settings (records.map ρ)) :=
  (Matches.resolve (ρ.sameTypes records) _).bind fun type _ same =>
    .pure (same ▸ ρ.carries_predicate settings clause type)

mutual

theorem matches_compile (clause : FilterClause) :
    Matches ρ.Carries (clause.compile settings records)
      (clause.compile settings (records.map ρ)) := by
  cases clause with
  | simple clause => exact ρ.matches_compileSimple settings records clause
  | composite joiner clauses =>
    exact (matches_compileList clauses).bind fun _ _ carries => .pure (.combine carries joiner)

theorem matches_compileList (clauses : List FilterClause) :
    Matches (List.Forall₂ ρ.Carries) (FilterClause.compileList settings records clauses)
      (FilterClause.compileList settings (records.map ρ) clauses) := by
  cases clauses with
  | nil => exact .pure .nil
  | cons clause clauses =>
    exact (matches_compile clause).bind fun _ _ first =>
      (matches_compileList clauses).bind fun _ _ rest => .pure (.cons first rest)

end

/-- Filters answer of replaced records as of the records. -/
theorem matches_compileAll (joiner : Joiner) (clauses : List FilterClause) :
    Matches ρ.Carries (FilterClause.compileAll settings records joiner clauses)
      (FilterClause.compileAll settings (records.map ρ) joiner clauses) :=
  (ρ.matches_compileList settings records clauses).bind fun _ _ carries =>
    .pure (.combine carries joiner)

/-! ## Searches -/

theorem mem_searchedFields (clause : SearchClause) (field : String) :
    field ∈ clause.searchedFields records ↔ field ∈ clause.searchedFields (records.map ρ) := by
  simp only [SearchClause.searchedFields]
  split
  · cases records with
    | nil => rfl
    | cons r records => exact (ρ.alike r).mem_memberNames_iff field
  · rfl

/-- A search answers of replaced records as of the records, though all members of the first of them
may stand in another order. -/
theorem matches_search (clause : SearchClause) :
    Matches ρ.Carries (clause.compile settings records)
      (clause.compile settings (records.map ρ)) := by
  intro types types' agree
  have typeAt : types'.typeAt (records.map ρ) = types.typeAt records :=
    funext fun field => (agree.typeOf?_eq (ρ.sameTypes records) _).symm
  refine ⟨fun r => ?_, (SearchClause.learned_compile settings records clause types).agree
    (SearchClause.learned_compile settings (records.map ρ) clause types') agree
    (ρ.sameTypes records) (ρ.mem_searchedFields records clause)⟩
  rw [(SearchClause.reads_compile settings records clause).value_eq,
    (SearchClause.reads_compile settings (records.map ρ) clause).value_eq, typeAt,
    SearchClause.matchesAny, SearchClause.matchesAny, Bool.eq_iff_iff, List.any_eq_true,
    List.any_eq_true]
  -- the two lists of fields have the same members, which is all that `any` asks for
  have fields (field : String) : clause.matchesField settings (types.typeAt records) (ρ r) field =
      clause.matchesField settings (types.typeAt records) r field := by
    rw [SearchClause.matchesField, SearchClause.matchesField,
      ρ.carries_predicate settings (clause.onField field) _ r]
  simp only [fields, ← ρ.mem_searchedFields records clause]

theorem matches_searches (clauses : List SearchClause) :
    Matches ρ.Carries (SearchClause.compileAll settings records clauses)
      (SearchClause.compileAll settings (records.map ρ) clauses) := by
  have list : Matches (List.Forall₂ ρ.Carries) (SearchClause.compileList settings records clauses)
      (SearchClause.compileList settings (records.map ρ) clauses) := by
    induction clauses with
    | nil => exact .pure .nil
    | cons clause clauses ih =>
      exact (ρ.matches_search settings records clause).bind fun _ _ first =>
        ih.bind fun _ _ rest => .pure (.cons first rest)
  exact list.bind fun _ _ carries => .pure (.combine carries .and)

/-! ## Order and distinct records -/

theorem keyValues_eq (keys : List SortKey) (r : Record) : keyValues keys (ρ r) = keyValues keys r :=
  List.map_congr_left fun key _ => ρ.valueAt_eq key.field r

/-- Replaced records are sorted as the records. -/
theorem sortRecords_map (keys : List SortKey) :
    sortRecords keys (records.map ρ) = (sortRecords keys records).map ρ := by
  let keyed (r : Record) : List Value × Record := (keyValues keys r, r)
  let replace (pair : List Value × Record) : List Value × Record := (pair.1, ρ pair.2)
  let order (a b : List Value × Record) : Bool := compareKeys keys a.1 b.1 != .gt
  have pairs : (records.map ρ).map keyed = (records.map keyed).map replace := by
    rw [List.map_map, List.map_map]
    exact List.map_congr_left fun r _ => congrArg (·, ρ r) (ρ.keyValues_eq keys r)
  calc sortRecords keys (records.map ρ)
      = (((records.map keyed).map replace).mergeSort order).map (·.2) := by rw [← pairs]; rfl
    _ = (((records.map keyed).mergeSort order).map replace).map (·.2) := by
        rw [List.map_mergeSort (s := order) fun _ _ _ _ => rfl]
    _ = (sortRecords keys records).map ρ := by
        rw [sortRecords, List.map_map, List.map_map]
        rfl

theorem firstOfKeys_map (path : FieldPath) (root : String) (seen : List String) :
    firstOfKeys path root seen (records.map ρ) = (firstOfKeys path root seen records).map ρ := by
  induction records generalizing seen with
  | nil => rfl
  | cons r records ih =>
    have eligible : isEligible root (ρ r) = isEligible root r := by
      rw [isEligible, isEligible, (ρ.alike r).isStatic_eq, (ρ.alike r).isSome_member?_eq]
    simp only [List.map_cons, firstOfKeys, eligible, ρ.valueAt_eq, ih]
    split <;> rfl

theorem distinct_map (field : String) :
    distinct field (records.map ρ) = (distinct field records).map ρ := by
  simp only [distinct]
  split
  · rfl
  · exact ρ.firstOfKeys_map records _ _ []

/-! ## Aggregates -/

theorem valuesAt_map (path : FieldPath) :
    Aggregate.valuesAt path (records.map ρ) = Aggregate.valuesAt path records := by
  have values : (records.map ρ).map (·.valueAt path) = records.map (·.valueAt path) := by
    rw [List.map_map]
    exact List.map_congr_left fun r _ => ρ.valueAt_eq path r
  rw [Aggregate.valuesAt, values, Aggregate.valuesAt]

theorem matches_countEqual (field : String) (expected : Bool) :
    Matches Eq (Aggregate.countEqual settings records field expected)
      (Aggregate.countEqual settings (records.map ρ) field expected) :=
  (ρ.matches_compileSimple settings records _).bind fun _ _ carries =>
    .pure (congrArg Aggregate.countValue (carries.countP_map records).symm)

theorem matches_compute (a : Aggregate) :
    Matches Eq (a.compute settings records) (a.compute settings (records.map ρ)) := by
  obtain ⟨field, kind⟩ := a
  have reduced (kind : AggregateKind) := (Matches.resolve (ρ.sameTypes records) (.parse field)).bind
    fun type type' (same : type = type') => Matches.pure (R := Eq)
      (a := type.bind fun type => Aggregate.reduce kind type
        (Aggregate.valuesAt (.parse field) records))
      (b := type'.bind fun type => Aggregate.reduce kind type
        (Aggregate.valuesAt (.parse field) (records.map ρ)))
      (by rw [same, ρ.valuesAt_map])
  cases kind with
  | count => exact .pure (by rw [List.length_map])
  | trueCount =>
    exact (ρ.matches_countEqual settings records field true).bind
      fun _ _ same => .pure (same ▸ rfl)
  | falseCount =>
    exact (ρ.matches_countEqual settings records field false).bind
      fun _ _ same => .pure (same ▸ rfl)
  | unsupported name => exact .pure rfl
  | sum => exact reduced .sum
  | average => exact reduced .average
  | min => exact reduced .min
  | max => exact reduced .max

/-- Aggregates over replaced records are those over the records. -/
theorem matches_computeNamed (name : Aggregate → String) (aggregates : List Aggregate) :
    Matches Eq (Aggregate.computeNamed settings records name aggregates)
      (Aggregate.computeNamed settings (records.map ρ) name aggregates) := by
  induction aggregates with
  | nil => exact .pure rfl
  | cons a aggregates ih =>
    exact (ρ.matches_compute settings records a).bind fun _ _ first =>
      ih.bind fun _ _ rest => .pure (first ▸ rest ▸ rfl)

theorem matches_computeAll (aggregates : List Aggregate) :
    Matches Eq (Aggregate.computeAll settings records aggregates)
      (Aggregate.computeAll settings (records.map ρ) aggregates) := by
  cases records with
  | nil => exact .pure rfl
  | cons r records =>
    exact (ρ.matches_computeNamed settings (r :: records) Aggregate.label aggregates).bind
      fun _ _ same => .pure (same ▸ rfl)

theorem matches_computeGroup (aggregates : List Aggregate) :
    Matches Eq (Aggregate.computeGroup settings records aggregates)
      (Aggregate.computeGroup settings (records.map ρ) aggregates) :=
  (ρ.matches_computeNamed settings records Aggregate.groupLabel aggregates).bind
    fun _ _ same => .pure (same ▸ rfl)

end Replacement

end RecordQuery
