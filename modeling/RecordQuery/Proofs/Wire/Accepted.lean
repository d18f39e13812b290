import RecordQuery.Proofs.Wire.Forest

/-!
# Accepted wire requests

A wire request is converted exactly if it is well formed, and the request keeps its shape.

* `WireRequest.WellFormed` says what is asked of every part of a request;
* `WireRequest.Yields` relates a wire request to the request that it becomes: the filters as a
  forest, the searches one by one, and the sort keys from the last one to the first;
* `WireRequest.toRequest_eq_ok_iff` takes the conversion apart into its parts;
* `WireRequest.toRequest_isOk_iff_wellFormed` is the result, under settings that are valid.
-/

namespace RecordQuery

open Text

/-! ## Searches -/

/-- The clause of a search. Without an operator, or with a blank one, it has that of the settings.
-/
structure WireSearch.Yields (settings : Settings) (s : WireSearch) (clause : SearchClause) :
    Prop where
  fields_eq : clause.fields = s.fields.getD []
  key_eq : clause.key = .ofJson s.key
  operator_spells :
    Spells clause.operator.words ((filledText s.operator).getD settings.searchOperator)
  ignoreCase_eq : clause.ignoreCase = s.ignoreCase.getD settings.ignoreCase

theorem WireSearch.toClause_eq_ok_iff {settings : Settings} {s : WireSearch}
    {clause : SearchClause} :
    s.toClause settings = .ok clause ↔ s.Yields settings clause := by
  rw [toClause]
  simp only [map_eq_ok_iff, Operator.parse_eq_ok_iff]
  constructor
  · rintro ⟨op, word, rfl⟩
    exact ⟨rfl, rfl, word, rfl⟩
  · rintro ⟨fields, key, word, ignoreCase⟩
    exact ⟨clause.operator, word, by rw [← fields, ← key, ← ignoreCase]⟩

/-- The operator of searches in valid settings is known. -/
theorem Settings.exists_searchOperator {settings : Settings}
    (valid : settings.validate = .ok settings) :
    ∃ op : Operator, Spells op.words settings.searchOperator := by
  have known : settings.defect? = none := by
    rw [validate] at valid
    cases defect : settings.defect? with
    | none => rfl
    | some reason =>
      rw [defect] at valid
      cases valid
  cases read : Operator.parse? settings.searchOperator with
  | some op => exact ⟨op, Operator.parse?_eq_some_iff.1 read⟩
  | none =>
    rw [defect?, read] at known
    split at known
    · cases known
    · split at known
      · cases known
      · split at known <;> cases known

/-- Under valid settings a search has a clause if its operator is blank or known. -/
theorem WireSearch.exists_yields_iff {settings : Settings}
    (valid : settings.validate = .ok settings)
    {s : WireSearch} : (∃ clause, s.Yields settings clause) ↔
      ∀ name, s.operator = some name → isBlankText name = false →
        ∃ op : Operator, Spells op.words name := by
  constructor
  · rintro ⟨clause, -, -, word, -⟩ name given shown
    rw [filledText_eq_some_iff.2 ⟨given, shown⟩, Option.getD_some] at word
    exact ⟨clause.operator, word⟩
  · intro known
    have word : ∃ op : Operator,
        Spells op.words ((filledText s.operator).getD settings.searchOperator) := by
      cases filled : filledText s.operator with
      | none => exact Settings.exists_searchOperator valid
      | some name =>
        obtain ⟨given, shown⟩ := filledText_eq_some_iff.1 filled
        exact known name given shown
    obtain ⟨op, word⟩ := word
    exact ⟨⟨_, _, op, _⟩, rfl, rfl, word, rfl⟩

/-! ## Sort keys -/

/-- The direction for which a text stands; without one it is ascending. -/
def SortDirection.IsFor (given : Option String) (direction : SortDirection) : Prop :=
  match given with
  | none => direction = .ascending
  | some text => Spells direction.words text

/-- The sort key of a wire key, in the natural order of the values. -/
structure WireSort.Yields (s : WireSort) (key : SortKey) : Prop where
  field_eq : key.field = .parse s.name
  direction_isFor : key.direction.IsFor s.direction
  comparer_eq : key.comparer = none

theorem WireSort.toKey_eq_ok_iff {s : WireSort} {key : SortKey} :
    s.toKey = .ok key ↔ s.Yields key := by
  obtain ⟨name, given⟩ := s
  obtain ⟨field, direction, comparer⟩ := key
  cases given with
  | none =>
    constructor
    · intro made
      cases made
      exact ⟨rfl, rfl, rfl⟩
    · rintro ⟨rfl, rfl, rfl⟩
      rfl
  | some text =>
    rw [toKey]
    simp only [map_eq_ok_iff, SortDirection.parse_eq_ok_iff]
    constructor
    · rintro ⟨direction, word, made⟩
      cases made
      exact ⟨rfl, word, rfl⟩
    · rintro ⟨rfl, word, rfl⟩
      exact ⟨direction, word, rfl⟩

theorem WireSort.exists_yields_iff {s : WireSort} :
    (∃ key, s.Yields key) ↔
      ∀ text, s.direction = some text →
        ∃ direction : SortDirection, Spells direction.words text := by
  constructor
  · rintro ⟨key, -, word, -⟩ text given
    rw [given] at word
    exact ⟨key.direction, word⟩
  · intro known
    cases given : s.direction with
    | none => exact ⟨{ field := .parse s.name }, rfl, by rw [given]; rfl, rfl⟩
    | some text =>
      obtain ⟨direction, word⟩ := known text given
      exact ⟨{ field := .parse s.name, direction }, rfl, by rw [given]; exact word, rfl⟩

/-! ## Pages -/

/-- The number of records for which a number in a request stands. Zero stands for none. -/
def IsPageNumber (given : Option Int64) (number : Option Nat) : Prop :=
  ∀ k, number = some k ↔ k ≠ 0 ∧ given.map Int64.toInt = some (k : Int)

theorem pagingNumber_eq_ok_iff {name : String} {given : Option Int64} {number : Option Nat} :
    pagingNumber name given = .ok number ↔
      (∀ n, given = some n → 0 ≤ n.toInt) ∧ IsPageNumber given number := by
  cases given with
  | none =>
    cases number with
    | none => simp [pagingNumber, IsPageNumber]
    | some k => simp [pagingNumber, IsPageNumber]
  | some n =>
    simp only [pagingNumber, IsPageNumber, Option.some.injEq, forall_eq', Option.map_some]
    split
    · next negative =>
      refine iff_of_false (by simp) fun h => ?_
      omega
    · next natural =>
      have bound : 0 ≤ n.toInt := by omega
      simp only [bound, true_and]
      split
      · next zero =>
        rw [zero]
        constructor
        · intro made
          cases made
          intro k
          simp only [reduceCtorEq, false_iff]
          omega
        · intro h
          cases number with
          | none => rfl
          | some k =>
            have := (h k).1 rfl
            omega
      · next positive =>
        constructor
        · intro made
          cases made
          intro k
          rw [Option.some.injEq]
          omega
        · intro h
          have own : number = some n.toInt.toNat := (h _).2 (by omega)
          rw [own]

/-- Where none is given, zero is. -/
theorem IsPageNumber.getD_eq {given : Option Int64} {number : Option Nat}
    (h : IsPageNumber given number) (natural : ∀ n, given = some n → 0 ≤ n.toInt) :
    ((number.getD 0 : Nat) : Int) = (given.map Int64.toInt).getD 0 := by
  cases number with
  | some k => rw [((h k).1 rfl).2, Option.getD_some, Option.getD_some]
  | none =>
    cases given with
    | none => rfl
    | some n =>
      have bound := natural n rfl
      by_contra other
      have found : none = some n.toInt.toNat := by
        rw [h, Option.map_some, Option.some.injEq]
        simp only [Option.getD_none, Option.map_some, Option.getD_some] at other
        omega
      cases found

theorem exists_pagingNumber_iff (name : String) {given : Option Int64} :
    (∃ number, pagingNumber name given = .ok number) ↔ ∀ n, given = some n → 0 ≤ n.toInt := by
  constructor
  · rintro ⟨number, made⟩
    exact (pagingNumber_eq_ok_iff.1 made).1
  · intro natural
    cases given with
    | none => exact ⟨none, rfl⟩
    | some n =>
      have bound := natural n rfl
      rw [pagingNumber, if_neg (by omega)]
      split
      · exact ⟨_, rfl⟩
      · exact ⟨_, rfl⟩

/-! ## Requests -/

namespace WireRequest

variable {settings : Settings} {w : WireRequest} {q : Request}

/-- What is asked of a wire request: the first condition among its filters is empty, `and` or `or`,
every filter at any depth is sound, every operator of a search is blank or known, every direction is
known, and no number of records is negative. -/
structure WellFormed (w : WireRequest) : Prop where
  condition : ∀ text, (w.filters.getD []).head?.bind (·.condition) = some text →
    Spells ["", "and", "or"] text
  filters : ∀ f, WireFilter.Within (w.filters.getD []) f → f.Sound
  search : ∀ s ∈ w.search.getD [], ∀ name, s.operator = some name → isBlankText name = false →
    ∃ op : Operator, Spells op.words name
  sort : ∀ s ∈ w.sorted.getD [], ∀ text, s.direction = some text →
    ∃ direction : SortDirection, Spells direction.words text
  skip : ∀ n, w.skip = some n → 0 ≤ n.toInt
  take : ∀ n, w.take = some n → 0 ≤ n.toInt

/-- The request that a wire request becomes. Filters and searches stand as they were sent, and the
sort keys the other way round. -/
structure Yields (settings : Settings) (w : WireRequest) (q : Request) : Prop where
  joiner_isFor : q.joiner.IsFor ((w.filters.getD []).head?.bind (·.condition))
  filters : List.Forall₂ (WireFilter.Yields settings) (w.filters.getD []) q.filters
  search : List.Forall₂ (WireSearch.Yields settings) (w.search.getD []) q.search
  sort : List.Forall₂ WireSort.Yields (w.sorted.getD []).reverse q.sort
  skip_eq : (q.skip : Int) = (w.skip.map Int64.toInt).getD 0
  take : IsPageNumber w.take q.take

/-- **The conversion of a request** is that of its parts. -/
theorem toRequest_eq_ok_iff :
    w.toRequest settings = .ok q ↔
      ∃ joiner : Joiner, joiner.IsFor ((w.filters.getD []).head?.bind (·.condition)) ∧
      ∃ filters, List.Forall₂ (WireFilter.Yields settings) (w.filters.getD []) filters ∧
      ∃ search, List.Forall₂ (WireSearch.Yields settings) (w.search.getD []) search ∧
      ∃ sort, List.Forall₂ WireSort.Yields (w.sorted.getD []) sort ∧
      ∃ skip, pagingNumber "skip" w.skip = .ok skip ∧
      ∃ take, pagingNumber "take" w.take = .ok take ∧
      q = {
        filters, joiner, search
        sort := sort.reverse
        group := w.group.getD []
        skip := skip.getD 0
        take
        aggregates := (w.aggregates.getD []).map WireAggregate.toAggregate
        requiresCounts := w.requiresCounts
        lazyLoad := w.isLazyLoad
        expandAll := w.lazyExpandAllGroup
        groupPaging := w.groupPaging
        distinct := filledText w.distinct
        select := w.select.getD [] } := by
  simp only [toRequest, bind_eq_ok_iff, Joiner.ofCondition_eq_ok_iff,
    WireFilter.toClauses_eq_ok_iff, WireFilter.toClause_eq_ok_iff, mapM_eq_ok_iff,
    WireSearch.toClause_eq_ok_iff, WireSort.toKey_eq_ok_iff, Except.ok.injEq, eq_comm (b := q)]

/-- A request that was converted has the shape of the wire request. -/
theorem yields_of_toRequest (h : w.toRequest settings = .ok q) : w.Yields settings q := by
  obtain ⟨joiner, condition, filters, forest, search, searches, sort, keys, skip, skipped, take,
    taken, rfl⟩ := toRequest_eq_ok_iff.1 h
  obtain ⟨natural, number⟩ := pagingNumber_eq_ok_iff.1 skipped
  exact ⟨condition, forest, searches, List.rel_reverse keys, number.getD_eq natural,
    (pagingNumber_eq_ok_iff.1 taken).2⟩

theorem wellFormed_of_toRequest (valid : settings.validate = .ok settings)
    (h : w.toRequest settings = .ok q) : w.WellFormed := by
  obtain ⟨joiner, condition, filters, forest, search, searches, sort, keys, skip, skipped, take,
    taken, rfl⟩ := toRequest_eq_ok_iff.1 h
  refine ⟨Joiner.exists_isFor_iff.1 ⟨joiner, condition⟩, WireFilter.exists_yields_iff.1 ⟨_, forest⟩,
    fun s mem => ?_, fun s mem => ?_, (pagingNumber_eq_ok_iff.1 skipped).1,
    (pagingNumber_eq_ok_iff.1 taken).1⟩
  · exact (WireSearch.exists_yields_iff valid).1 (exists_of_mem_forall₂ searches mem)
  · exact WireSort.exists_yields_iff.1 (exists_of_mem_forall₂ keys mem)

theorem WellFormed.exists_toRequest (h : w.WellFormed) (valid : settings.validate = .ok settings) :
    ∃ q, w.toRequest settings = .ok q := by
  obtain ⟨joiner, condition⟩ := Joiner.exists_isFor_iff.2 h.condition
  obtain ⟨filters, forest⟩ := WireFilter.exists_yields_iff.2 h.filters
  obtain ⟨search, searches⟩ := exists_forall₂ fun s mem =>
    (WireSearch.exists_yields_iff valid).2 (h.search s mem)
  obtain ⟨sort, keys⟩ := exists_forall₂ fun s mem => WireSort.exists_yields_iff.2 (h.sort s mem)
  obtain ⟨skip, skipped⟩ := (exists_pagingNumber_iff "skip").2 h.skip
  obtain ⟨take, taken⟩ := (exists_pagingNumber_iff "take").2 h.take
  exact ⟨_, toRequest_eq_ok_iff.2 ⟨joiner, condition, filters, forest, search, searches, sort, keys,
    skip, skipped, take, taken, rfl⟩⟩

/-- **Well-formed requests are accepted**, and no others, and a request that is accepted keeps its
shape: the filters are the same forest, with a joiner for every condition and a comparison for every
leaf, and the sort keys stand the other way round. -/
theorem toRequest_isOk_iff_wellFormed (valid : settings.validate = .ok settings) (w : WireRequest) :
    ((∃ q, w.toRequest settings = .ok q) ↔ w.WellFormed) ∧
      ∀ q, w.toRequest settings = .ok q → w.Yields settings q := by
  refine ⟨⟨?_, fun wellFormed => wellFormed.exists_toRequest valid⟩, fun q => yields_of_toRequest⟩
  rintro ⟨q, made⟩
  exact wellFormed_of_toRequest valid made

/-- Two comparisons joined by `or` are accepted under the settings that nobody changed, and the
request sorts by the last key first. Without a field the second comparison is refused. -/
theorem toRequest_isOk_iff_wellFormed_of_two :
    let freight : WireFilter :=
      ⟨some "Freight", some " GreaterThan", .integer 20, none, false, none, none⟩
    let city : WireFilter :=
      ⟨some "City", some "equal", .string "Bern", some false, false, none, none⟩
    let nameless : WireFilter := { city with field := none }
    let either (f g : WireFilter) : WireFilter :=
      { isComplex := true, condition := some "OR", predicates := some [f, g] }
    let request (f g : WireFilter) : WireRequest :=
      { filters := some [either f g], sorted := some [⟨"City", none⟩, ⟨"Freight", some "desc"⟩] }
    let q : Request := {
      filters := [.composite .or [.simple ⟨"Freight", .greaterThan, .int64 20, true⟩,
        .simple ⟨"City", .equals, .string "Bern", false⟩]]
      joiner := .or
      sort :=
        [{ field := .parse "Freight", direction := .descending }, { field := .parse "City" }] }
    Settings.validate {} = .ok {} ∧ (request freight city).toRequest {} = .ok q ∧
      (request freight city).WellFormed ∧ (request freight city).Yields {} q ∧
      ¬ ∃ q, (request freight nameless).toRequest {} = .ok q := by
  intro freight city nameless either request q
  have valid : Settings.validate {} = .ok {} := rfl
  have made : (request freight city).toRequest {} = .ok q := rfl
  obtain ⟨accepted, shape⟩ := toRequest_isOk_iff_wellFormed valid (request freight city)
  refine ⟨valid, made, accepted.1 ⟨q, made⟩, shape q made, ?_⟩
  rw [(toRequest_isOk_iff_wellFormed valid (request freight nameless)).1]
  intro wellFormed
  have inside : WireFilter.Within [either freight nameless] nameless :=
    .deeper List.mem_cons_self (.here (List.mem_cons_of_mem _ List.mem_cons_self))
  obtain ⟨field, given, -⟩ := (wellFormed.filters nameless inside).field ⟨"equal", rfl, rfl⟩
  cases given

end WireRequest

end RecordQuery
