import RecordQuery.Proofs.Pipeline.Stages

/-!
# Pages

A request asks for a page of records, or of groups. Everything before the page is the same for all
pages, so a page is a part of the result without pages, and pages one after the other make up the
whole.

* `DataSet.slice` are the records or groups at some positions, and `DataSet.flatMap_slice`: slices
  of one width, one after the other, leave nothing out;
* `execute_pages`: the pages of a result.
-/

namespace RecordQuery

/-- The same request for another page. -/
def Request.withPage (q : Request) (skip : Nat) (take : Option Nat) : Request :=
  { q with skip, take }

/-! ## Slices -/

/-- The positions of a page. -/
theorem page_some {α : Type} (skip n : Nat) (items : List α) :
    page skip (some n) items = (items.take (skip + n)).drop skip := by
  rw [page, List.drop_take, Nat.add_sub_cancel_left]

theorem page_none {α : Type} (items : List α) : page 0 none items = items := rfl

namespace DataSet

/-- The records, or the groups at the first level. -/
def entries : DataSet → List (Record ⊕ Group)
  | .records items => items.map .inl
  | .grouped set => set.groups.map .inr

/-- The records, or the groups at the first level, from one position up to another. -/
def slice (start stop : Nat) : DataSet → DataSet
  | .records items => .records ((items.take stop).drop start)
  | .grouped set => .grouped { set with groups := (set.groups.take stop).drop start }

variable (data : DataSet)

theorem length_entries : data.entries.length = data.length := by
  cases data with
  | records items => exact List.length_map _
  | grouped set => exact List.length_map _

theorem entries_slice (start stop : Nat) :
    (data.slice start stop).entries = (data.entries.take stop).drop start := by
  cases data with
  | records items => simp only [slice, entries, List.map_drop, List.map_take]
  | grouped set => simp only [slice, entries, List.map_drop, List.map_take]

/-- Slices of one width, one after the other, are what stands before the last one ends. -/
theorem flatMap_slice (n k : Nat) :
    (List.range k).flatMap (fun i => (data.slice (i * n) ((i + 1) * n)).entries) =
      data.entries.take (k * n) := by
  induction k with
  | zero => simp
  | succ k ih =>
    have before : k * n ≤ (k + 1) * n := Nat.mul_le_mul_right n (Nat.le_succ k)
    have first : (data.entries.take ((k + 1) * n)).take (k * n) = data.entries.take (k * n) := by
      rw [List.take_take, Nat.min_eq_left before]
    rw [List.range_succ, List.flatMap_append, ih, List.flatMap_singleton, entries_slice, ← first,
      List.take_append_drop]

end DataSet

/-! ## The pages of a run -/

namespace Pipeline

variable (settings : Settings) {q : Request}

/-- No stage before the page asks which page it is. -/
theorem prepared_withPage (q : Request) (source : List Record) (skip : Nat) (take : Option Nat) :
    prepared settings (q.withPage skip take) source = prepared settings q source := rfl

/-- **A page is a slice** of the result without pages. The number that is given for the length of
that result is its length. -/
theorem paged_withPage (h : q.group = [] ∨ q.groupPaging = true) (records : List Record)
    (types : FieldTypes) :
    let full := (paged settings (q.withPage 0 none) records types).1
    full.2.getD records.length = full.1.length ∧
      ∀ skip n, (paged settings (q.withPage skip (some n)) records types).1 =
        (full.1.slice skip (skip + n), full.2) := by
  intro full
  by_cases flat : q.group = []
  · have whole : full = (.records records, none) := paged_of_group_nil (q := q.withPage 0 none) flat
    refine ⟨by rw [whole]; rfl, fun skip n => ?_⟩
    rw [paged_of_group_nil (q := q.withPage skip (some n)) flat, whole, Request.withPage, page_some]
    rfl
  · have groups : q.groupPaging = true := h.resolve_left flat
    have paged_eq (skip : Nat) (take : Option Nat) :
        (paged settings (q.withPage skip take) records types).1 = groupPage skip take
          (Grouping.groupAll settings q.groupOptions (.records records) q.group types).1 :=
      paged_of_groupPaging flat groups
    have full_eq : full = _ := paged_eq 0 none
    rcases Grouping.groupAll_cases settings q.groupOptions records flat types with
      ⟨rfl, empty⟩ | ⟨set, grouped, -⟩
    · rw [empty] at full_eq
      rw [full_eq]
      refine ⟨rfl, fun skip n => ?_⟩
      rw [paged_eq, empty]
      simp [groupPage, DataSet.slice]
    · rw [grouped] at full_eq
      rw [full_eq]
      refine ⟨rfl, fun skip n => ?_⟩
      rw [paged_eq, grouped]
      simp only [groupPage, page_some, page_none]
      rfl

end Pipeline

/-- **The pages of a result.** Where pages are not cut into groups, page `i` of `n` holds what
stands at the positions from `i * n` up to `(i + 1) * n` of the result without pages, with the same
aggregates and the count of all. Pages one after the other make up the result. -/
theorem execute_pages (settings : Settings) (source : List Record) (q : Request)
    (h : q.group = [] ∨ q.groupPaging = true) :
    let full := execute settings source (q.withPage 0 none)
    let part (n i : Nat) := execute settings source (q.withPage (i * n) (some n))
    (∀ n i, (part n i).result = full.result.slice (i * n) ((i + 1) * n) ∧
      (part n i).aggregates = full.aggregates ∧
      (part n i).count = if q.requiresCounts then some full.result.length else none) ∧
    (∀ n k, (List.range k).flatMap (fun i => (part n i).result.entries) =
      full.result.entries.take (k * n)) ∧
    ∀ n k, full.result.length ≤ k * n →
      (List.range k).flatMap (fun i => (part n i).result.entries) = full.result.entries := by
  intro full part
  have parts (n i : Nat) : (part n i).result = full.result.slice (i * n) ((i + 1) * n) ∧
      (part n i).aggregates = full.aggregates ∧
      (part n i).count = if q.requiresCounts then some full.result.length else none := by
    set before := Pipeline.prepared settings q source { limit := settings.sampleLimit }
    obtain ⟨length, slices⟩ := Pipeline.paged_withPage settings h before.1.1 before.2
    have page_eq := slices (i * n) n
    have positions : i * n + n = (i + 1) * n := (Nat.succ_mul i n).symm
    have run_eq (skip : Nat) (take : Option Nat) :
        execute settings source (q.withPage skip take) =
          (Pipeline.finish settings (q.withPage skip take) before.1.1 before.1.2 before.2).1 := by
      rw [Pipeline.execute_eq, Pipeline.prepared_withPage]
    have full_eq : full = _ := run_eq 0 none
    have part_eq : part n i = _ := run_eq (i * n) (some n)
    rw [part_eq, full_eq, Pipeline.finish_eq, Pipeline.finish_eq]
    simp only [page_eq, ← length, positions]
    exact ⟨trivial, trivial, rfl⟩
  have tiles (n k : Nat) : (List.range k).flatMap (fun i => (part n i).result.entries) =
      full.result.entries.take (k * n) := by
    simp only [(parts n _).1]
    exact full.result.flatMap_slice n k
  refine ⟨parts, tiles, fun n k long => ?_⟩
  have all : full.result.entries.length ≤ k * n := by rwa [full.result.length_entries]
  rw [tiles, List.take_of_length_le all]

/-- The second page of two groups out of three, and both pages together. -/
theorem execute_pages_of_groups :
    let source : List Record := [.table [("A", .int64 1)], .table [("A", .int64 2)],
      .table [("A", .int64 3)], .table [("A", .int64 1)]]
    let q : Request := { group := ["A"], groupPaging := true, requiresCounts := true }
    let full := execute {} source (q.withPage 0 none)
    let part (i : Nat) := execute {} source (q.withPage (i * 2) (some 2))
    (part 1).result = full.result.slice 2 4 ∧ (part 1).count = some 3 ∧
      (List.range 2).flatMap (fun i => (part i).result.entries) = full.result.entries := by
  intro source q full part
  obtain ⟨parts, -, together⟩ := execute_pages {} source q (.inr rfl)
  obtain ⟨slice, -, count⟩ := parts 2 1
  have three : full.result.length = 3 := by
    have unsorted : full = (Pipeline.finish {} (q.withPage 0 none) (sortRecords [] source) none
      { limit := ({} : Settings).sampleLimit }).1 := rfl
    rw [unsorted, Pipeline.sortRecords_nil]
    decide +kernel
  refine ⟨slice, count.trans (congrArg some three), together 2 2 ?_⟩
  rw [three]
  decide

end RecordQuery
