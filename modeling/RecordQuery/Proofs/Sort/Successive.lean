import RecordQuery.Pipeline
import RecordQuery.Proofs.Conversion
import RecordQuery.Proofs.Sort.Stable
import RecordQuery.Wire.Request

/-!
# Sorting by one key after the other

Sorting by a list of keys is sorting stably by every single key, the last one first. A wire request
lists its keys in the order of these single sorts.

* `SortKey.Orders` says that the order of a key is a total preorder on the values that records have;
* `stablySorted_iff_eq_sortRecords`: sorting by keys is sorting stably by the first values that
  differ;
* `SortedInTurn`: sorting stably by one key after the other;
* `WireRequest.mapM_toKey_of_toRequest`: the sort keys of a wire request;
* `sortRecords_inTurn`: sorting by keys, and by one key after the other.
-/

namespace RecordQuery

/-- The order of a key is a total preorder on the values that records have in its field. -/
def SortKey.Orders (key : SortKey) (records : List Record) : Prop :=
  IsPreorderOn key.compare (records.map (·.valueAt key.field))

instance (key : SortKey) (records : List Record) : Decidable (key.Orders records) :=
  inferInstanceAs (Decidable (IsPreorderOn _ _))

/-- The order of records by a key. -/
def SortKey.order (key : SortKey) (r s : Record) : Ordering :=
  key.compare (r.valueAt key.field) (s.valueAt key.field)

/-- The order of records by a list of keys. -/
def keysOrder (keys : List SortKey) (r s : Record) : Ordering :=
  compareKeys keys (keyValues keys r) (keyValues keys s)

/-- The first key counts, and the others among what is equal under it. -/
theorem keysOrder_cons (key : SortKey) (keys : List SortKey) :
    keysOrder (key :: keys) = compareLex key.order (keysOrder keys) := rfl

variable {keys : List SortKey} {records sorted result : List Record}

theorem SortKey.Orders.isPreorderOn {key : SortKey} (h : key.Orders records) :
    IsPreorderOn key.order records :=
  h.comap

/-- The order by keys is a total preorder where that of every key is one. -/
theorem isPreorderOn_keysOrder (h : ∀ key ∈ keys, key.Orders records) :
    IsPreorderOn (keysOrder keys) records := by
  induction keys with
  | nil => exact ⟨fun _ _ _ _ => rfl, fun _ _ _ _ _ _ _ _ => rfl⟩
  | cons key keys ih =>
    obtain ⟨first, rest⟩ := List.forall_mem_cons.1 h
    rw [keysOrder_cons]
    exact first.isPreorderOn.lex (ih rest)

/-! ## Sorting by all keys at once -/

/-- Reading the values of the keys beforehand leaves the order of the records as it is. -/
theorem sortRecords_eq_mergeSort (keys : List SortKey) (records : List Record) :
    sortRecords keys records = records.mergeSort fun r s => keysOrder keys r s != .gt := by
  let read : Record → List Value × Record := fun r => (keyValues keys r, r)
  have back : (records.map read).map (·.2) = records := by
    rw [List.map_map]
    exact List.map_id _
  have same : ∀ a ∈ records.map read, ∀ b ∈ records.map read,
      (compareKeys keys a.1 b.1 != .gt) = (keysOrder keys a.2 b.2 != .gt) := by
    intro a ha b hb
    obtain ⟨r, -, rfl⟩ := List.mem_map.1 ha
    obtain ⟨s, -, rfl⟩ := List.mem_map.1 hb
    rfl
  rw [sortRecords, List.map_mergeSort (s := fun r s => keysOrder keys r s != .gt) same, back]

/-- **Sorting by keys** is sorting stably by the order that they make. -/
theorem stablySorted_iff_eq_sortRecords (h : ∀ key ∈ keys, key.Orders records) :
    StablySorted (keysOrder keys) records result ↔ result = sortRecords keys records := by
  have order := isPreorderOn_keysOrder h
  have own : StablySorted (keysOrder keys) records (sortRecords keys records) := by
    rw [sortRecords_eq_mergeSort]
    exact stablySorted_mergeSort order
  constructor
  · intro other
    exact other.unique order own
  · rintro rfl
    exact own

/-! ## Sorting by one key after the other -/

/-- The records `result` are `records` sorted stably by the first key, then by the second one, and
so on. -/
def SortedInTurn : List SortKey → List Record → List Record → Prop
  | [], records, result => result = records
  | key :: keys, records, result =>
    ∃ sorted, StablySorted key.order records sorted ∧ SortedInTurn keys sorted result

theorem sortedInTurn_append (keys : List SortKey) (key : SortKey) :
    SortedInTurn (keys ++ [key]) records result ↔
      ∃ sorted, SortedInTurn keys records sorted ∧ StablySorted key.order sorted result := by
  induction keys generalizing records with
  | nil => simp [SortedInTurn]
  | cons first keys ih =>
    simp only [List.cons_append, SortedInTurn, ih]
    constructor
    · rintro ⟨early, hearly, late, hlate, last⟩
      exact ⟨late, ⟨early, hearly, hlate⟩, last⟩
    · rintro ⟨late, ⟨early, hearly, hlate⟩, last⟩
      exact ⟨early, hearly, late, hlate, last⟩

/-- **Sorting by one more key** after all others makes it count most. -/
theorem stablySorted_sortRecords_iff {key : SortKey} (h : ∀ k ∈ key :: keys, k.Orders records) :
    StablySorted key.order (sortRecords keys records) result ↔
      result = sortRecords (key :: keys) records := by
  obtain ⟨first, rest⟩ := List.forall_mem_cons.1 h
  have early : StablySorted (keysOrder keys) records (sortRecords keys records) :=
    (stablySorted_iff_eq_sortRecords rest).2 rfl
  have both {result : List Record}
      (late : StablySorted key.order (sortRecords keys records) result) :
      result = sortRecords (key :: keys) records :=
    (stablySorted_iff_eq_sortRecords h).1 (early.lex first.isPreorderOn late)
  constructor
  · exact both
  · rintro rfl
    have late := stablySorted_mergeSort (first.isPreorderOn.mono early.perm.subset)
    rwa [both late] at late

/-- The sorts by single keys come to the records sorted by all of them. -/
theorem sortedInTurn_reverse_iff (h : ∀ key ∈ keys, key.Orders records) :
    SortedInTurn keys.reverse records result ↔ result = sortRecords keys records := by
  induction keys generalizing result with
  | nil =>
    have unsorted :
        StablySorted (keysOrder []) records records ↔ records = sortRecords [] records :=
      stablySorted_iff_eq_sortRecords h
    have own : StablySorted (keysOrder []) records records :=
      .self (List.pairwise_of_forall fun _ _ => rfl)
    rw [List.reverse_nil, SortedInTurn, ← unsorted.1 own]
  | cons key keys ih =>
    obtain ⟨first, rest⟩ := List.forall_mem_cons.1 h
    rw [List.reverse_cons, sortedInTurn_append, ← stablySorted_sortRecords_iff h]
    constructor
    · rintro ⟨sorted, early, late⟩
      rwa [(ih rest).1 early] at late
    · intro late
      exact ⟨_, (ih rest).2 rfl, late⟩

/-- Records that are sorted by keys are sorted by the first of them. -/
theorem sortRecords_sortRecords {key : SortKey} (h : ∀ k ∈ key :: keys, k.Orders records) :
    sortRecords [key] (sortRecords (key :: keys) records) = sortRecords (key :: keys) records := by
  have all : StablySorted (keysOrder (key :: keys)) records (sortRecords (key :: keys) records) :=
    (stablySorted_iff_eq_sortRecords h).2 rfl
  rw [sortRecords_eq_mergeSort [key]]
  refine List.mergeSort_of_pairwise (all.sorted.imp fun {r s} le => ?_)
  simp only [keysOrder_cons, compareLex] at le ⊢
  cases order : key.order r s with
  | lt => rfl
  | eq => rfl
  | gt =>
    rw [order] at le
    cases le

/-! ## The keys of a wire request -/

/-- The sort keys of a wire request, of which the last one counts most. -/
theorem WireRequest.mapM_toKey_of_toRequest {settings : Settings} {w : WireRequest} {q : Request}
    (h : w.toRequest settings = .ok q) :
    (w.sorted.getD []).mapM WireSort.toKey = .ok q.sort.reverse := by
  -- what is wrong in front of the sort keys or behind them would be the error
  simp only [WireRequest.toRequest, bind_eq_ok_iff] at h
  obtain ⟨joiner, -, filters, -, search, -, sort, keys, skip, -, take, -, made⟩ := h
  obtain rfl := Except.ok.inj made
  rw [keys, List.reverse_reverse]

/-! ## Both ways to sort -/

/-- **Sorting by keys** is sorting stably by the last key alone, then by the one before it, and so
on up to the first. Sorting the result by its first key again changes nothing. A wire request lists
its keys in the order of these sorts, and a run that does nothing but sort shows the records so. -/
theorem sortRecords_inTurn (keys : List SortKey) (records : List Record)
    (h : ∀ key ∈ keys, key.Orders records) :
    (∀ result, SortedInTurn keys.reverse records result ↔ result = sortRecords keys records) ∧
    (∀ key rest, keys = key :: rest →
      sortRecords [key] (sortRecords keys records) = sortRecords keys records) ∧
    ∀ (settings : Settings) (w : WireRequest) (q : Request), w.toRequest settings = .ok q →
      q.sort = keys →
      ∃ wired, (w.sorted.getD []).mapM WireSort.toKey = .ok wired ∧
        (∀ result, SortedInTurn wired records result ↔ result = sortRecords q.sort records) ∧
        (q = { sort := q.sort } → ∀ result, SortedInTurn wired records result ↔
          (execute settings records q).result = .records result) := by
  refine ⟨fun result => sortedInTurn_reverse_iff h, ?_, fun settings w q read same => ?_⟩
  · rintro key rest rfl
    exact sortRecords_sortRecords h
  · subst same
    refine ⟨q.sort.reverse, w.mapM_toKey_of_toRequest read,
      fun result => sortedInTurn_reverse_iff h, fun only result => ?_⟩
    have shown : (execute settings records q).result = .records (sortRecords q.sort records) := by
      rw [only]
      rfl
    rw [sortedInTurn_reverse_iff h, shown, DataSet.records.injEq, eq_comm]

/-- Three records by a letter and, from the greatest down, by a number. -/
theorem sortRecords_inTurn_of_letters :
    let records : List Record := [.table [("A", .string "x"), ("B", .int64 1)],
      .table [("A", .string "y"), ("B", .null)], .table [("A", .string "x"), ("B", .int64 2)]]
    let letter : SortKey := { field := .parse "A" }
    let number : SortKey := { field := .parse "B", direction := .descending }
    let sorted := sortRecords [letter, number] records
    (∃ early, StablySorted number.order records early ∧ StablySorted letter.order early sorted) ∧
      sortRecords [letter] sorted = sorted ∧
      (execute {} records { sort := [letter, number] }).result = .records sorted := by
  intro records letter number sorted
  have orders : ∀ key ∈ [letter, number], key.Orders records := by decide +kernel
  obtain ⟨inTurn, again, wire⟩ := sortRecords_inTurn [letter, number] records orders
  obtain ⟨early, hearly, last, hlast, rfl⟩ := (inTurn sorted).2 rfl
  let w : WireRequest := { sorted := some [⟨"B", some "descending"⟩, ⟨"A", none⟩] }
  have read : w.toRequest {} = .ok { sort := [letter, number] } := rfl
  obtain ⟨wired, -, ways, run⟩ := wire {} w _ read rfl
  exact ⟨⟨early, hearly, hlast⟩, again letter [number] rfl,
    (run rfl sorted).1 ((ways sorted).2 rfl)⟩

end RecordQuery
