import RecordQuery.Proofs.Sort.Successive
import RecordQuery.Proofs.Value.Meaning

/-!
# Sorting by exact columns

Where the values at the path of every key are of one family, records are sorted stably by what the
values stand for: by the first key first, and by the others among what is equal under it.

* `StablySorted.congr`: only the order of the members counts;
* `Record.meaningAt?`: what stands at a path, `exactOrder`: the order of records by that;
* `SortKey.IsExact`: a key of an exact column, and `keysOrder_eq_exactOrder`, the order of such
  keys;
* `sortRecords_of_exact`: sorting by such keys.
-/

namespace RecordQuery

/-! ## Orders that agree -/

section

variable {α : Type} {cmp other : α → α → Ordering} {xs ys : List α}

/-- Two orders agree on the members of a list. -/
def AgreeOn (cmp other : α → α → Ordering) (xs : List α) : Prop :=
  ∀ a ∈ xs, ∀ b ∈ xs, cmp a b = other a b

theorem AgreeOn.symm (h : AgreeOn cmp other xs) : AgreeOn other cmp xs :=
  fun a ha b hb => (h a ha b hb).symm

theorem IsPreorderOn.congr (h : AgreeOn cmp other xs) (order : IsPreorderOn cmp xs) :
    IsPreorderOn other xs where
  swap a ha b hb := by
    rw [← h b hb a ha, ← h a ha b hb]
    exact order.swap a ha b hb
  trans a ha b hb c hc := by
    rw [← h a ha b hb, ← h b hb c hc, ← h a ha c hc]
    exact order.trans a ha b hb c hc

/-- Whether a list is sorted stably depends on the order of its members alone. -/
theorem StablySorted.congr (h : AgreeOn cmp other xs) (sorted : StablySorted cmp xs ys) :
    StablySorted other xs ys := by
  have inside : ys ⊆ xs := sorted.perm.subset
  have alike {a : α} (ha : a ∈ xs) {zs : List α} (sub : zs ⊆ xs) :
      zs.filter (isAlike other a) = zs.filter (isAlike cmp a) := by
    apply List.filter_congr
    intro b hb
    rw [isAlike, isAlike, h a ha b (sub hb)]
  refine ⟨sorted.perm, ?_, fun a ha => ?_⟩
  · refine sorted.sorted.imp_of_mem fun {a b} ha hb le => ?_
    rwa [← h a (inside ha) b (inside hb)]
  · rw [alike ha inside, alike ha (List.Subset.refl xs), sorted.stable a ha]

theorem StablySorted.congr_iff (h : AgreeOn cmp other xs) :
    StablySorted cmp xs ys ↔ StablySorted other xs ys :=
  ⟨.congr h, .congr h.symm⟩

end

/-! ## The order of records by what their values stand for -/

/-- What stands at a path of a record. Nothing stands where a member is missing, and nothing where
the path goes on from null. -/
def Record.meaningAt? (r : Record) (path : FieldPath) : Option Meaning :=
  match r.resolve path with
  | .value v => v.meaning?
  | .intermediateNull => none
  | .missing => none

/-- The order of two records by what stands at the paths of keys. The first key counts, and the
others among what is equal under it; nothing comes before everything, and last in a descending
order. -/
def exactOrder : List SortKey → Record → Record → Ordering
  | [], _, _ => .eq
  | key :: keys, r, s =>
    (key.direction.apply <|
      Meaning.compareOption (r.meaningAt? key.field) (s.meaningAt? key.field)).then
      (exactOrder keys r s)

/-- A key without an order of its own, in a column of one family. Where the path reaches nothing the
value counts as null. -/
structure SortKey.IsExact (key : SortKey) (records : List Record) : Prop where
  natural : key.comparer = none
  column : ∃ family : ColumnFamily, ∀ r ∈ records, family.admits (r.valueAt key.field) = true

variable {key : SortKey} {keys : List SortKey} {records : List Record}

theorem Record.meaningAt?_eq (r : Record) (path : FieldPath) :
    r.meaningAt? path = (r.valueAt path).meaning? := by
  rw [meaningAt?, valueAt]
  cases r.resolve path <;> rfl

theorem SortKey.compare_of_natural (natural : key.comparer = none) (a b : Value) :
    key.compare a b = key.direction.apply (a.sortCompare b) := by
  rw [compare, natural]

/-- A direction keeps a total preorder one. -/
theorem SortDirection.isPreorderOn_apply {α : Type} {cmp : α → α → Ordering} {xs : List α}
    (direction : SortDirection) (h : IsPreorderOn cmp xs) :
    IsPreorderOn (fun a b => direction.apply (cmp a b)) xs := by
  cases direction with
  | ascending => exact h
  | descending =>
    have turned {a b : α} (ha : a ∈ xs) (hb : b ∈ xs) : (cmp a b).swap = cmp b a :=
      (h.swap a ha b hb).symm
    refine ⟨fun a ha b hb => ?_, fun a ha b hb c hc first second => ?_⟩
    · exact congrArg Ordering.swap (h.swap a ha b hb)
    · simp only [SortDirection.apply, turned ha hb, turned hb hc, turned ha hc] at first second ⊢
      exact h.trans c hc b hb a ha second first

/-- The sort order is a total preorder on a column of one family. -/
theorem ColumnFamily.isPreorderOn_sortCompare {family : ColumnFamily} {values : List Value}
    (h : ∀ v ∈ values, family.admits v = true) : IsPreorderOn Value.sortCompare values := by
  have numbers (v : Value) (hv : v ∈ values) : family.numbers.admits v = true := by
    rcases family.null_or_holds (h v hv) with rfl | holds
    · cases family <;> rfl
    · exact admits_numbers holds
  refine ⟨fun a _ b _ => Value.sortCompare_swap a b, fun a ha b hb c hc first second => ?_⟩
  rw [Value.sortCompare_eq_compare_place (numbers a ha) (numbers b hb)] at first
  rw [Value.sortCompare_eq_compare_place (numbers b hb) (numbers c hc)] at second
  rw [Value.sortCompare_eq_compare_place (numbers a ha) (numbers c hc)]
  exact Std.TransCmp.isLE_trans first second

namespace SortKey.IsExact

/-- The order of the key is a total preorder on the column. -/
theorem orders (h : key.IsExact records) : key.Orders records := by
  obtain ⟨family, admits⟩ := h.column
  have column : ∀ v ∈ records.map (·.valueAt key.field), family.admits v = true := by
    intro v hv
    obtain ⟨r, hr, rfl⟩ := List.mem_map.1 hv
    exact admits r hr
  have own : key.compare = fun a b => key.direction.apply (a.sortCompare b) :=
    funext₂ (compare_of_natural h.natural)
  rw [Orders, own]
  exact key.direction.isPreorderOn_apply (ColumnFamily.isPreorderOn_sortCompare column)

/-- The order of the key is that of what the values stand for. -/
theorem order_eq (h : key.IsExact records) {r s : Record} (hr : r ∈ records) (hs : s ∈ records) :
    key.order r s = key.direction.apply
      (Meaning.compareOption (r.meaningAt? key.field) (s.meaningAt? key.field)) := by
  obtain ⟨family, admits⟩ := h.column
  rw [order, compare_of_natural h.natural, family.sortCompare_eq (admits r hr) (admits s hs),
    r.meaningAt?_eq, s.meaningAt?_eq]

end SortKey.IsExact

/-- The order of keys of exact columns. -/
theorem keysOrder_eq_exactOrder (h : ∀ key ∈ keys, key.IsExact records) :
    AgreeOn (keysOrder keys) (exactOrder keys) records := by
  intro r hr s hs
  induction keys with
  | nil => rfl
  | cons key keys ih =>
    obtain ⟨first, rest⟩ := List.forall_mem_cons.1 h
    rw [keysOrder_cons, compareLex, first.order_eq hr hs, ih rest, exactOrder]

/-! ## Sorting -/

/-- **Sorting by exact columns.** Let the values other than null at the path of every key be of one
family. The order by what the values stand for is a total preorder on the records. The records
sorted by the keys have the same members; none stands before a lesser one; those that agree in all
keys stand as they stood; and there is no other list of which that holds. -/
theorem sortRecords_of_exact (keys : List SortKey) (records : List Record)
    (exact : ∀ key ∈ keys, key.IsExact records) :
    IsPreorderOn (exactOrder keys) records ∧
      StablySorted (exactOrder keys) records (sortRecords keys records) ∧
      ∀ result, StablySorted (exactOrder keys) records result →
        result = sortRecords keys records := by
  have orders : ∀ key ∈ keys, key.Orders records := fun key mem => (exact key mem).orders
  have agree := keysOrder_eq_exactOrder exact
  refine ⟨.congr agree (isPreorderOn_keysOrder orders), ?_, fun result sorted => ?_⟩
  · rw [← StablySorted.congr_iff agree, stablySorted_iff_eq_sortRecords orders]
  · rwa [← StablySorted.congr_iff agree, stablySorted_iff_eq_sortRecords orders] at sorted

/-- Five records by a price, from the greatest down. Prices are integers and decimals of any scale;
one of them is null, and one is missing. -/
theorem sortRecords_of_exact_of_prices :
    let records : List Record := [.table [("ID", .int64 1), ("Price", .int64 2)],
      .table [("ID", .int64 2), ("Price", .null)],
      .table [("ID", .int64 3), ("Price", .decimal ⟨false, 250, 2, by decide, by decide⟩)],
      .table [("ID", .int64 4)],
      .table [("ID", .int64 5), ("Price", .decimal ⟨false, 25, 1, by decide, by decide⟩)]]
    let price : SortKey := { field := .parse "Price", direction := .descending }
    (records.map fun r => records.map (exactOrder [price] r)) =
        [[.eq, .lt, .gt, .lt, .gt], [.gt, .eq, .gt, .eq, .gt], [.lt, .lt, .eq, .lt, .eq],
          [.gt, .eq, .gt, .eq, .gt], [.lt, .lt, .eq, .lt, .eq]] ∧
      StablySorted (exactOrder [price]) records (sortRecords [price] records) := by
  intro records price
  have exact : ∀ key ∈ [price], key.IsExact records := by
    intro key mem
    obtain rfl := List.mem_singleton.1 mem
    exact ⟨rfl, .decimals, by decide +kernel⟩
  exact ⟨by decide +kernel, (sortRecords_of_exact [price] records exact).2.1⟩

end RecordQuery
