import RecordQuery.Proofs.Aggregate.Meaning
import RecordQuery.Proofs.Sort.Successive
import RecordQuery.Proofs.Value.Meaning
import RecordQuery.Proofs.Value.SortOrder

/-!
# Extremes and sorting

The least value of a field is the first value of the sorted records that is not null, and the
greatest one is the last value of the sorted records. This holds of the values themselves, where
others are equal to them and yet differ, such as a decimal of another scale.

* `survivor` is what is left when the values are met one by one and one of two is kept;
* `Survives` says where it stands: `survivor_eq_some_iff` says it of the whole list, and
  `Survives.append_single` of one more value;
* `StablySorted.survives_head`, `StablySorted.survives_getLast`: the ends of a list sorted stably;
* `Aggregate.compute_extremes`: the extremes of a field and the ends of the sorted records.
-/

namespace RecordQuery

variable {α : Type} {keep : α → α → Bool} {cmp : α → α → Ordering} {xs ys : List α} {m n : α}

/-! ## Survivors -/

/-- One of two, the first if it is kept. -/
def keepOne (keep : α → α → Bool) (best v : α) : α := if keep best v then best else v

/-- What is left of a list where one of two is kept, from the first on. -/
def survivor (keep : α → α → Bool) : List α → Option α
  | [] => none
  | v :: vs => some (vs.foldl (keepOne keep) v)

/-- A member of a list is kept against all behind it, and none before it is kept against it. -/
def Survives (keep : α → α → Bool) (xs : List α) (m : α) : Prop :=
  ∃ front back, xs = front ++ m :: back ∧ (∀ a ∈ front, keep a m = false) ∧
    ∀ b ∈ back, keep m b = true

/-- What is kept along a chain is kept at once, and so is what is given up. -/
structure KeepsInOrder (keep : α → α → Bool) (xs : List α) : Prop where
  trans : ∀ a ∈ xs, ∀ b ∈ xs, ∀ c ∈ xs,
    keep a b = true → keep b c = true → keep a c = true
  negTrans : ∀ a ∈ xs, ∀ b ∈ xs, ∀ c ∈ xs,
    keep a b = false → keep b c = false → keep a c = false

theorem KeepsInOrder.mono (h : KeepsInOrder keep xs) (sub : ys ⊆ xs) : KeepsInOrder keep ys where
  trans _ ha _ hb _ hc := h.trans _ (sub ha) _ (sub hb) _ (sub hc)
  negTrans _ ha _ hb _ hc := h.negTrans _ (sub ha) _ (sub hb) _ (sub hc)

/-- Of two places in a list, one is before the other or they are the same. -/
theorem eq_or_mem_of_split {front back front' back' : List α}
    (split : front ++ m :: back = front' ++ n :: back') :
    m = n ∨ (m ∈ front' ∧ n ∈ back) ∨ n ∈ front ∧ m ∈ back' := by
  rcases List.append_eq_append_iff.1 split with ⟨gap, rfl, rest⟩ | ⟨gap, rfl, rest⟩
  all_goals cases gap <;> simp_all

/-- **At most one member survives**: of two, the first would be kept against the second and not. -/
theorem Survives.unique (hm : Survives keep xs m) (hn : Survives keep xs n) : m = n := by
  obtain ⟨front, back, rfl, front_m, m_back⟩ := hm
  obtain ⟨front', back', split, front_n, n_back⟩ := hn
  rcases eq_or_mem_of_split split with same | ⟨before, behind⟩ | ⟨before, behind⟩
  · exact same
  · have kept := m_back n behind
    rw [front_n m before] at kept
    cases kept
  · have kept := n_back m behind
    rw [front_m n before] at kept
    cases kept

/-- One more member at the end is met by the one that survived so far. -/
theorem Survives.append_single {v : α} (h : Survives keep xs m)
    (order : KeepsInOrder keep (xs ++ [v])) : Survives keep (xs ++ [v]) (keepOne keep m v) := by
  obtain ⟨front, back, rfl, front_m, m_back⟩ := h
  cases kept : keep m v with
  | true =>
    rw [keepOne, kept, if_pos rfl]
    refine ⟨front, back ++ [v], by simp, front_m, fun b hb => ?_⟩
    rcases List.mem_append.1 hb with earlier | last
    · exact m_back b earlier
    · rwa [List.mem_singleton.1 last]
  | false =>
    rw [keepOne, kept, if_neg Bool.false_ne_true]
    -- what `m` is kept against is not kept against `v`, as `m` would be
    refine ⟨front ++ m :: back, [], rfl, fun a ha => ?_, fun b hb => absurd hb List.not_mem_nil⟩
    rcases List.mem_append.1 ha with before | ha
    · exact order.negTrans a (by simp [before]) m (by simp) v (by simp) (front_m a before) kept
    · rcases List.mem_cons.1 ha with rfl | behind
      · exact kept
      · cases other : keep a v with
        | false => rfl
        | true =>
          have chain := order.trans m (by simp) a (by simp [behind]) v (by simp) (m_back a behind)
            other
          rw [kept] at chain
          cases chain

/-- All further members are met one by one. -/
theorem Survives.foldl {vs : List α} (h : Survives keep xs m)
    (order : KeepsInOrder keep (xs ++ vs)) :
    Survives keep (xs ++ vs) (vs.foldl (keepOne keep) m) := by
  induction vs generalizing xs m with
  | nil => rwa [List.append_nil]
  | cons v vs ih =>
    rw [List.append_cons] at order ⊢
    exact ih (h.append_single (order.mono (List.subset_append_left _ _))) order

/-- **What is left of a list** is the member that survives. -/
theorem survivor_eq_some_iff (order : KeepsInOrder keep xs) :
    survivor keep xs = some m ↔ Survives keep xs m := by
  cases xs with
  | nil =>
    refine ⟨fun none => (by cases none), fun ⟨front, back, split, _⟩ => ?_⟩
    simp at split
  | cons v vs =>
    have alone : Survives keep [v] v :=
      ⟨[], [], rfl, fun a ha => absurd ha List.not_mem_nil, fun b hb => absurd hb List.not_mem_nil⟩
    have left : Survives keep (v :: vs) (vs.foldl (keepOne keep) v) := alone.foldl order
    rw [survivor, Option.some_inj]
    exact ⟨fun same => same ▸ left, fun survives => left.unique survives⟩

/-! ## The ends of a sorted list -/

/-- The first of two is kept unless it is greater. -/
def keepsLess (cmp : α → α → Ordering) (a b : α) : Bool := cmp a b != .gt

/-- The first of two is kept if it is greater. -/
def keepsGreater (cmp : α → α → Ordering) (a b : α) : Bool := cmp a b == .gt

theorem keepsLess_iff {a b : α} : keepsLess cmp a b = true ↔ (cmp a b).isLE = true := by
  rw [keepsLess]
  cases cmp a b <;> decide

theorem keepsLess_eq_false_iff {a b : α} : keepsLess cmp a b = false ↔ cmp a b = .gt := by
  rw [keepsLess]
  cases cmp a b <;> decide

theorem keepsGreater_iff {a b : α} : keepsGreater cmp a b = true ↔ cmp a b = .gt :=
  beq_iff_eq

theorem keepsGreater_eq_false_iff {a b : α} :
    keepsGreater cmp a b = false ↔ (cmp a b).isLE = true := by
  rw [keepsGreater]
  cases cmp a b <;> decide

namespace IsPreorderOn

theorem gt_trans (h : IsPreorderOn cmp xs) {a b c : α} (ha : a ∈ xs) (hb : b ∈ xs) (hc : c ∈ xs)
    (ab : cmp a b = .gt) (bc : cmp b c = .gt) : cmp a c = .gt := by
  have order := h.transCmp
  exact @Std.TransCmp.gt_trans _ _ order ⟨a, ha⟩ ⟨b, hb⟩ ⟨c, hc⟩ ab bc

theorem keepsInOrder_less (h : IsPreorderOn cmp xs) : KeepsInOrder (keepsLess cmp) xs where
  trans a ha b hb c hc := by
    simpa only [keepsLess_iff] using h.trans a ha b hb c hc
  negTrans a ha b hb c hc := by
    simpa only [keepsLess_eq_false_iff] using h.gt_trans ha hb hc

theorem keepsInOrder_greater (h : IsPreorderOn cmp xs) : KeepsInOrder (keepsGreater cmp) xs where
  trans a ha b hb c hc := by
    simpa only [keepsGreater_iff] using h.gt_trans ha hb hc
  negTrans a ha b hb c hc := by
    simpa only [keepsGreater_eq_false_iff] using h.trans a ha b hb c hc

/-- What is not greater than another member is less than it or equal to it. -/
theorem gt_or_eq (h : IsPreorderOn cmp xs) {a b : α} (ha : a ∈ xs) (hb : b ∈ xs)
    (le : (cmp a b).isLE = true) : cmp b a = .gt ∨ cmp a b = .eq ∧ cmp b a = .eq := by
  rw [h.swap a ha b hb]
  revert le
  cases cmp a b <;> decide

end IsPreorderOn

namespace StablySorted

/-- The first member of a list sorted stably is the first of the least ones: those that are equal to
it stand behind it. -/
theorem survives_head (h : StablySorted cmp xs ys) (order : IsPreorderOn cmp xs)
    (first : ys.head? = some m) : Survives (keepsLess cmp) xs m := by
  obtain ⟨rest, rfl⟩ := List.head?_eq_some_iff.1 first
  have m_mem : m ∈ xs := h.perm.subset List.mem_cons_self
  have own : isAlike cmp m m = true := beq_iff_eq.2 (order.refl m_mem)
  have least : ∀ a ∈ xs, (cmp m a).isLE = true := by
    intro a ha
    rcases List.mem_cons.1 (h.perm.symm.subset ha) with rfl | later
    · rw [order.refl ha]
      rfl
    · exact (List.pairwise_cons.1 h.sorted).1 a later
  have alike := h.stable m m_mem
  rw [List.filter_cons_of_pos own] at alike
  obtain ⟨front, back, rfl, unlike, -, -⟩ := List.filter_eq_cons_iff.1 alike.symm
  refine ⟨front, back, rfl, fun a ha => ?_, fun b hb => ?_⟩
  · have mem : a ∈ front ++ m :: back := List.mem_append_left _ ha
    rcases order.gt_or_eq m_mem mem (least a mem) with greater | ⟨same, -⟩
    · exact keepsLess_eq_false_iff.2 greater
    · exact absurd (beq_iff_eq.2 same) (unlike a ha)
  · exact keepsLess_iff.2 (least b (by simp [hb]))

/-- The last member of a list sorted stably is the last of the greatest ones. -/
theorem survives_getLast (h : StablySorted cmp xs ys) (order : IsPreorderOn cmp xs)
    (last : ys.getLast? = some m) : Survives (keepsGreater cmp) xs m := by
  obtain ⟨rest, rfl⟩ := List.getLast?_eq_some_iff.1 last
  have m_mem : m ∈ xs := h.perm.subset (by simp)
  have own : isAlike cmp m m = true := beq_iff_eq.2 (order.refl m_mem)
  have greatest : ∀ a ∈ xs, (cmp a m).isLE = true := by
    intro a ha
    rcases List.mem_append.1 (h.perm.symm.subset ha) with earlier | same
    · exact (List.pairwise_append.1 h.sorted).2.2 a earlier m (by simp)
    · rw [List.mem_singleton.1 same, order.refl m_mem]
      rfl
  have alike := h.stable m m_mem
  rw [List.filter_append, List.filter_cons_of_pos own, List.filter_nil] at alike
  obtain ⟨early, late, rfl, -, alone⟩ := List.filter_eq_append_iff.1 alike.symm
  obtain ⟨middle, back, rfl, -, -, unlike⟩ := List.filter_eq_cons_iff.1 alone
  refine ⟨early ++ middle, back, by simp, fun a ha => ?_, fun b hb => ?_⟩
  · have mem : a ∈ early ++ (middle ++ m :: back) := by
      rw [← List.append_assoc]
      exact List.mem_append_left _ ha
    exact keepsGreater_eq_false_iff.2 (greatest a mem)
  · have mem : b ∈ early ++ (middle ++ m :: back) := by simp [hb]
    rcases order.gt_or_eq mem m_mem (greatest b mem) with greater | ⟨-, same⟩
    · exact keepsGreater_iff.2 greater
    · exact absurd (beq_iff_eq.2 same) (List.filter_eq_nil_iff.1 unlike b hb)

/-- What is left of a list where the lesser is kept is the first of the list sorted stably. -/
theorem survivor_less (h : StablySorted cmp xs ys) (order : IsPreorderOn cmp xs) :
    survivor (keepsLess cmp) xs = ys.head? := by
  cases first : ys.head? with
  | none =>
    obtain rfl := List.head?_eq_none_iff.1 first
    rw [← h.perm.nil_eq, survivor]
  | some m => exact (survivor_eq_some_iff order.keepsInOrder_less).2 (h.survives_head order first)

/-- What is left of a list where the greater is kept is the last of the list sorted stably. -/
theorem survivor_greater (h : StablySorted cmp xs ys) (order : IsPreorderOn cmp xs) :
    survivor (keepsGreater cmp) xs = ys.getLast? := by
  cases last : ys.getLast? with
  | none =>
    obtain rfl := List.getLast?_eq_none_iff.1 last
    rw [← h.perm.nil_eq, survivor]
  | some m =>
    exact (survivor_eq_some_iff order.keepsInOrder_greater).2 (h.survives_getLast order last)

end StablySorted

/-! ## Nulls -/

namespace Value

/-- Only null comes before null. -/
theorem isNull_of_isLE {v w : Value} (isNull : w.isNull = true)
    (le : (v.sortCompare w).isLE = true) : v.isNull = true := by
  cases other : v.isNull with
  | true => rfl
  | false =>
    rw [sortCompare, other, isNull] at le
    cases le

/-- Null comes before all other values, so a preorder on these is one on all. -/
theorem isPreorderOn_of_present {values : List Value}
    (h : IsPreorderOn sortCompare (values.filter (!·.isNull))) :
    IsPreorderOn sortCompare values where
  swap a _ b _ := sortCompare_swap a b
  trans a ha b hb c hc ab bc := by
    have present {v : Value} (mem : v ∈ values) (isNull : v.isNull = false) :
        v ∈ values.filter (!·.isNull) := List.mem_filter.2 ⟨mem, by rw [isNull]; rfl⟩
    cases nullA : a.isNull with
    | true =>
      rw [sortCompare, nullA]
      cases c.isNull <;> rfl
    | false =>
      have nullB : b.isNull = false := by
        by_contra other
        rw [isNull_of_isLE (Bool.not_eq_false _ |>.mp other) ab] at nullA
        cases nullA
      have nullC : c.isNull = false := by
        by_contra other
        rw [isNull_of_isLE (Bool.not_eq_false _ |>.mp other) bc] at nullB
        cases nullB
      exact h.trans a (present ha nullA) b (present hb nullB) c (present hc nullC) ab bc

/-- The last of sorted values is null only if all are. -/
theorem getLast?_present {values : List Value}
    (sorted : values.Pairwise fun a b => (a.sortCompare b).isLE = true) :
    (values.filter (!·.isNull)).getLast?.getD .null = values.getLast?.getD .null := by
  cases last : values.getLast? with
  | none =>
    obtain rfl := List.getLast?_eq_none_iff.1 last
    rfl
  | some v =>
    obtain ⟨rest, rfl⟩ := List.getLast?_eq_some_iff.1 last
    cases isNull : v.isNull with
    | true =>
      have none : (rest ++ [v]).filter (!·.isNull) = [] := by
        refine List.filter_eq_nil_iff.2 fun a ha => ?_
        rcases List.mem_append.1 ha with earlier | same
        · have le := (List.pairwise_append.1 sorted).2.2 a earlier v (by simp)
          simp [isNull_of_isLE isNull le]
        · simp [List.mem_singleton.1 same, isNull]
      rw [none]
      exact (isNull_iff.1 isNull).symm
    | false => simp [isNull]

end Value

/-! ## The extremes of a field -/

namespace Aggregate

theorem least_eq (values : List Value) :
    least values = (survivor (keepsLess Value.sortCompare) values).getD .null := by
  have step : (fun best v : Value => if best.sortCompare v == .gt then v else best) =
      keepOne (keepsLess Value.sortCompare) := by
    funext best v
    rw [keepOne, keepsLess, bne]
    cases best.sortCompare v == .gt <;> rfl
  cases values with
  | nil => rfl
  | cons v vs => rw [least, step, survivor, Option.getD_some]

theorem greatest_eq (values : List Value) :
    greatest values = (survivor (keepsGreater Value.sortCompare) values).getD .null := by
  cases values <;> rfl

variable {types : FieldTypes} {records : List Record} {field : String} {type : TypeInfo}

/-- The values of a field of the sorted records are those of the field, sorted stably. -/
theorem stablySorted_keys
    (total : IsPreorderOn Value.sortCompare (valuesAt (.parse field) records)) :
    StablySorted Value.sortCompare (records.map (·.get field))
      ((sortRecords [{ field := .parse field }] records).map (·.get field)) := by
  let key : SortKey := { field := .parse field }
  have orders : ∀ k ∈ [key], k.Orders records := by
    intro k mem
    rw [List.mem_singleton.1 mem]
    exact Value.isPreorderOn_of_present total
  have alone : keysOrder [key] = key.order := by
    funext r s
    rw [keysOrder_cons, compareLex]
    cases key.order r s <;> rfl
  have sorted := (stablySorted_iff_eq_sortRecords orders).2 rfl
  rw [alone] at sorted
  exact sorted.map (f := fun r : Record => r.get field)

/-- **The least and the greatest value** of a field on whose values the sort order is a total
preorder: the first value of the records sorted by the field that is not null, and the last value of
all. Both are null where all values are. -/
theorem compute_extremes (settings : Settings)
    (found : types.typeAt records field = some type)
    (total : IsPreorderOn Value.sortCompare (valuesAt (.parse field) records)) :
    let keys := (sortRecords [{ field := .parse field }] records).map (·.get field)
    let least := (compute settings records ⟨field, .min⟩ types).1
    let greatest := (compute settings records ⟨field, .max⟩ types).1
    least = some ((keys.find? (!·.isNull)).getD .null) ∧
    greatest = some (keys.getLast?.getD .null) ∧
    ((∀ r ∈ records, r.get field = .null) → least = some .null ∧ greatest = some .null) := by
  intro keys least greatest
  have sorted : StablySorted Value.sortCompare (records.map (·.get field)) keys :=
    stablySorted_keys total
  have present : StablySorted Value.sortCompare (valuesAt (.parse field) records)
      (keys.filter (!·.isNull)) := sorted.filter _
  have value (kind : AggregateKind) :=
    (reads_compute settings records ⟨field, kind⟩).value_eq types
  have isLeast : least = some ((keys.find? (!·.isNull)).getD .null) := by
    have reduced : least = some (Aggregate.least (valuesAt (.parse field) records)) := by
      rw [show least = _ from value .min, valueOver, found]
      rfl
    rw [reduced, least_eq, present.survivor_less total, List.head?_filter]
  have isGreatest : greatest = some (keys.getLast?.getD .null) := by
    have reduced : greatest = some (Aggregate.greatest (valuesAt (.parse field) records)) := by
      rw [show greatest = _ from value .max, valueOver, found]
      rfl
    rw [reduced, greatest_eq, present.survivor_greater total, Value.getLast?_present sorted.sorted]
  refine ⟨isLeast, isGreatest, fun nulls => ?_⟩
  have none : keys.filter (!·.isNull) = [] := by
    refine List.filter_eq_nil_iff.2 fun v mem => ?_
    obtain ⟨r, listed, rfl⟩ := List.mem_map.1 (sorted.perm.subset mem)
    rw [show r.get field = .null from nulls r listed]
    decide
  constructor
  · rw [isLeast, ← List.head?_filter, none]
    rfl
  · rw [isGreatest, ← Value.getLast?_present sorted.sorted, none]
    rfl

/-- Of decimals that are equal in different scales, the least value is the one that stands first,
and the greatest the one that stands last. -/
theorem compute_extremes_of_decimals :
    let low : Decimal := ⟨false, 15, 1, by decide, by decide⟩
    let low' : Decimal := ⟨false, 150, 2, by decide, by decide⟩
    let high : Decimal := ⟨false, 25, 1, by decide, by decide⟩
    let high' : Decimal := ⟨false, 250, 2, by decide, by decide⟩
    let priced (price : Value) : Record := .table [("P", price)]
    let records := [priced .null, priced (.decimal low'), priced (.decimal low),
      priced (.decimal high), priced (.decimal high')]
    (compute {} records ⟨"P", .min⟩ { limit := none }).1 = some (.decimal low') ∧
      (compute {} records ⟨"P", .max⟩ { limit := none }).1 = some (.decimal high') := by
  intro low low' high high' priced records
  let types : FieldTypes := { limit := none }
  have found : types.typeAt records "P" = some ⟨.decimal, true⟩ := by decide +kernel
  obtain ⟨least, greatest, -⟩ := compute_extremes {} found (by decide +kernel)
  have sorted : sortRecords [{ field := .parse "P" }] records = records := by
    rw [sortRecords_eq_mergeSort]
    exact List.mergeSort_of_pairwise (by decide +kernel)
  rw [least, greatest, sorted]
  exact ⟨rfl, rfl⟩

end Aggregate

end RecordQuery
