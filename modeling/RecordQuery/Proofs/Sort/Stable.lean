import RecordQuery.Sort

/-!
# Stable sorting

A list is sorted stably by an order when no member stands before a lesser one, and members that are
equal under the order stand as they stood. Where the order is a total preorder on the members, there
is one such list. Sorting it stably by a second order sorts by the second order first, and by the
first one among equals.

* `IsPreorderOn`: an order is a total preorder on the members of a list;
* `StablySorted`: a list is another one sorted stably;
* `StablySorted.unique`: there is at most one such list, and `stablySorted_mergeSort` is it;
* `StablySorted.lex`: two sorts, one after the other.
-/

namespace RecordQuery

variable {α β : Type} {cmp first second : α → α → Ordering} {xs ys zs : List α}

/-! ## Orders on the members of a list -/

/-- An order is a total preorder on the members of a list: turning two of them round turns their
order round, and what is not greater stays so along a chain. -/
structure IsPreorderOn (cmp : α → α → Ordering) (xs : List α) : Prop where
  swap : ∀ a ∈ xs, ∀ b ∈ xs, cmp b a = (cmp a b).swap
  trans : ∀ a ∈ xs, ∀ b ∈ xs, ∀ c ∈ xs,
    (cmp a b).isLE = true → (cmp b c).isLE = true → (cmp a c).isLE = true

instance (cmp : α → α → Ordering) (xs : List α) : Decidable (IsPreorderOn cmp xs) :=
  decidable_of_iff ((∀ a ∈ xs, ∀ b ∈ xs, cmp b a = (cmp a b).swap) ∧
      ∀ a ∈ xs, ∀ b ∈ xs, ∀ c ∈ xs,
        (cmp a b).isLE = true → (cmp b c).isLE = true → (cmp a c).isLE = true)
    ⟨fun h => ⟨h.1, h.2⟩, fun h => ⟨h.swap, h.trans⟩⟩

namespace IsPreorderOn

/-- Such an order is one of the library on the members alone. -/
theorem transCmp (h : IsPreorderOn cmp xs) :
    Std.TransCmp fun a b : { a // a ∈ xs } => cmp a.1 b.1 where
  eq_swap {a b} := h.swap b.1 b.2 a.1 a.2
  isLE_trans {a b c} := h.trans a.1 a.2 b.1 b.2 c.1 c.2

theorem of_transCmp (h : Std.TransCmp fun a b : { a // a ∈ xs } => cmp a.1 b.1) :
    IsPreorderOn cmp xs where
  swap a ha b hb := h.eq_swap (a := ⟨b, hb⟩) (b := ⟨a, ha⟩)
  trans a ha b hb c hc := h.isLE_trans (a := ⟨a, ha⟩) (b := ⟨b, hb⟩) (c := ⟨c, hc⟩)

theorem mono (h : IsPreorderOn cmp xs) (sub : ys ⊆ xs) : IsPreorderOn cmp ys where
  swap _ ha _ hb := h.swap _ (sub ha) _ (sub hb)
  trans _ ha _ hb _ hc := h.trans _ (sub ha) _ (sub hb) _ (sub hc)

/-- An order of what is read off the members. -/
theorem comap {cmp : β → β → Ordering} {f : α → β} (h : IsPreorderOn cmp (xs.map f)) :
    IsPreorderOn (fun a b => cmp (f a) (f b)) xs where
  swap _ ha _ hb := h.swap _ (List.mem_map_of_mem ha) _ (List.mem_map_of_mem hb)
  trans _ ha _ hb _ hc :=
    h.trans _ (List.mem_map_of_mem ha) _ (List.mem_map_of_mem hb) _ (List.mem_map_of_mem hc)

/-- One order, and another one among equals. -/
theorem lex (h₁ : IsPreorderOn first xs) (h₂ : IsPreorderOn second xs) :
    IsPreorderOn (compareLex first second) xs := by
  have := h₁.transCmp
  have := h₂.transCmp
  have both : Std.TransCmp (compareLex (fun a b : { a // a ∈ xs } => first a.1 b.1)
      fun a b => second a.1 b.1) := inferInstance
  exact of_transCmp both

/-- Members that are not greater than each other are equal under the order. -/
theorem eq_of_isLE (h : IsPreorderOn cmp xs) {a b : α} (ha : a ∈ xs) (hb : b ∈ xs)
    (ab : (cmp a b).isLE = true) (ba : (cmp b a).isLE = true) : cmp a b = .eq := by
  have swap := h.swap a ha b hb
  cases order : cmp a b with
  | lt =>
    rw [swap, order] at ba
    cases ba
  | eq => rfl
  | gt =>
    rw [order] at ab
    cases ab

theorem refl (h : IsPreorderOn cmp xs) {a : α} (ha : a ∈ xs) : cmp a a = .eq := by
  have swap := h.swap a ha a ha
  cases order : cmp a a <;> simp_all

/-- Of two members, one is not greater than the other. -/
theorem total (h : IsPreorderOn cmp xs) {a b : α} (ha : a ∈ xs) (hb : b ∈ xs) :
    (cmp a b).isLE = true ∨ (cmp b a).isLE = true := by
  rw [h.swap a ha b hb]
  cases cmp a b <;> simp

end IsPreorderOn

/-! ## Sorting stably -/

/-- Whether a member is equal to a given one under an order. -/
def isAlike (cmp : α → α → Ordering) (a b : α) : Bool := cmp a b == .eq

/-- The list `ys` is `xs` sorted stably: the same members, none before a lesser one, and those that
are equal to a member stand as they stood. -/
structure StablySorted (cmp : α → α → Ordering) (xs ys : List α) : Prop where
  perm : ys.Perm xs
  sorted : ys.Pairwise fun a b => (cmp a b).isLE = true
  stable : ∀ a ∈ xs, ys.filter (isAlike cmp a) = xs.filter (isAlike cmp a)

/-- Sorted lists with the same members, where equal ones stand in the same order, are the same. -/
theorem eq_of_sorted_of_alike (h : IsPreorderOn cmp xs) (sub : ys ⊆ xs) (perm : ys.Perm zs)
    (hy : ys.Pairwise fun a b => (cmp a b).isLE = true)
    (hz : zs.Pairwise fun a b => (cmp a b).isLE = true)
    (alike : ∀ a ∈ xs, ys.filter (isAlike cmp a) = zs.filter (isAlike cmp a)) : ys = zs := by
  induction ys generalizing zs with
  | nil => exact perm.nil_eq
  | cons y ys ih =>
    cases zs with
    | nil => exact absurd perm.eq_nil (List.cons_ne_nil y ys)
    | cons z zs =>
      obtain ⟨y_le, hys⟩ := List.pairwise_cons.1 hy
      obtain ⟨z_le, hzs⟩ := List.pairwise_cons.1 hz
      have y_mem : y ∈ xs := sub List.mem_cons_self
      have z_mem : z ∈ xs := sub (perm.symm.subset List.mem_cons_self)
      -- the first members are equal under the order, as neither is greater
      have yz : (cmp y z).isLE = true := by
        rcases List.mem_cons.1 (perm.symm.subset (List.mem_cons_self (a := z))) with rfl | later
        · rw [h.refl y_mem]
          rfl
        · exact y_le z later
      have zy : (cmp z y).isLE = true := by
        rcases List.mem_cons.1 (perm.subset (List.mem_cons_self (a := y))) with rfl | later
        · rw [h.refl y_mem]
          rfl
        · exact z_le y later
      have same : y = z := by
        have own : isAlike cmp y y = true := by simp [isAlike, h.refl y_mem]
        have other : isAlike cmp y z = true := by
          simp [isAlike, h.eq_of_isLE y_mem z_mem yz zy]
        have lists := alike y y_mem
        rw [List.filter_cons_of_pos own, List.filter_cons_of_pos other] at lists
        exact (List.cons.inj lists).1
      subst same
      have rest : ∀ a ∈ xs, ys.filter (isAlike cmp a) = zs.filter (isAlike cmp a) := by
        intro a ha
        have lists := alike a ha
        by_cases equal : isAlike cmp a y = true
        · rw [List.filter_cons_of_pos equal, List.filter_cons_of_pos equal] at lists
          exact (List.cons.inj lists).2
        · rwa [List.filter_cons_of_neg equal, List.filter_cons_of_neg equal] at lists
      have inside : ys ⊆ xs := fun a ha => sub (List.mem_cons_of_mem y ha)
      rw [ih inside perm.cons_inv hys hzs rest]

namespace StablySorted

/-- **A list is sorted stably in one way.** -/
theorem unique (h : IsPreorderOn cmp xs) (hy : StablySorted cmp xs ys)
    (hz : StablySorted cmp xs zs) : ys = zs :=
  eq_of_sorted_of_alike h hy.perm.subset (hy.perm.trans hz.perm.symm) hy.sorted hz.sorted
    fun a ha => (hy.stable a ha).trans (hz.stable a ha).symm

/-- A sorted list is itself sorted stably. -/
theorem self (sorted : xs.Pairwise fun a b => (cmp a b).isLE = true) : StablySorted cmp xs xs :=
  ⟨.refl xs, sorted, fun _ _ => rfl⟩

/-- What is kept of a list sorted stably is what is kept of the list, sorted stably. -/
theorem filter (h : StablySorted cmp xs ys) (p : α → Bool) :
    StablySorted cmp (xs.filter p) (ys.filter p) := by
  refine ⟨h.perm.filter p, h.sorted.filter p, fun a ha => ?_⟩
  have swapped (list : List α) :
      (list.filter p).filter (isAlike cmp a) = (list.filter (isAlike cmp a)).filter p := by
    rw [List.filter_filter, List.filter_filter]
    exact List.filter_congr fun b _ => Bool.and_comm _ _
  rw [swapped, swapped, h.stable a (List.mem_filter.1 ha).1]

/-- A list sorted stably by what is read off its members. -/
theorem map {cmp : β → β → Ordering} {f : α → β}
    (h : StablySorted (fun a b => cmp (f a) (f b)) xs ys) :
    StablySorted cmp (xs.map f) (ys.map f) := by
  refine ⟨h.perm.map f, List.pairwise_map.2 h.sorted, fun v hv => ?_⟩
  obtain ⟨a, ha, rfl⟩ := List.mem_map.1 hv
  rw [List.filter_map, List.filter_map]
  exact congrArg (List.map f) (h.stable a ha)

/-- What is equal under one order and, among that, under another. -/
theorem isAlike_compareLex (a b : α) :
    isAlike (compareLex first second) a b = (isAlike first a b && isAlike second a b) := by
  simp only [isAlike, compareLex]
  cases first a b <;> cases second a b <;> rfl

/-- **Two sorts, one after the other**, sort by the order of the later one, and by that of the
earlier one among equals. -/
theorem lex (h : IsPreorderOn first xs) (early : StablySorted second xs ys)
    (late : StablySorted first ys zs) : StablySorted (compareLex first second) xs zs := by
  refine ⟨late.perm.trans early.perm, ?_, fun a ha => ?_⟩
  · rw [List.pairwise_iff_forall_sublist]
    intro a b pair
    have le : (first a b).isLE = true := List.pairwise_iff_forall_sublist.1 late.sorted pair
    rw [compareLex]
    cases order : first a b with
    | lt => rfl
    | gt =>
      rw [order] at le
      cases le
    | eq =>
      -- two that are equal for the later sort stand as the earlier one left them
      have ha : a ∈ ys := late.perm.subset (pair.subset List.mem_cons_self)
      have own : isAlike first a a = true := by simp [isAlike, h.refl (early.perm.subset ha)]
      have other : isAlike first a b = true := by simp [isAlike, order]
      have kept := pair.filter (isAlike first a)
      rw [List.filter_cons_of_pos own, List.filter_cons_of_pos other, late.stable a ha] at kept
      exact List.pairwise_iff_forall_sublist.1 early.sorted (kept.trans List.filter_sublist)
  · have ha' : a ∈ ys := early.perm.symm.subset ha
    have alike (list : List α) : list.filter (isAlike (compareLex first second) a) =
        (list.filter (isAlike second a)).filter (isAlike first a) := by
      rw [List.filter_filter]
      exact List.filter_congr fun b _ => isAlike_compareLex a b
    have alike' (list : List α) : list.filter (isAlike (compareLex first second) a) =
        (list.filter (isAlike first a)).filter (isAlike second a) := by
      rw [List.filter_filter]
      refine List.filter_congr fun b _ => ?_
      rw [isAlike_compareLex, Bool.and_comm]
    rw [alike', late.stable a ha', ← alike', alike, early.stable a ha, ← alike]

end StablySorted

/-! ## Sorting by merging -/

/-- Members that are equal to one member are in order among themselves. -/
theorem IsPreorderOn.pairwise_alike (h : IsPreorderOn cmp xs) {a : α} (ha : a ∈ xs) :
    (xs.filter (isAlike cmp a)).Pairwise fun b c => (cmp b c).isLE = true := by
  rw [List.pairwise_iff_forall_sublist]
  intro b c pair
  have alike : ∀ d ∈ [b, c], d ∈ xs ∧ cmp a d = .eq := by
    intro d hd
    obtain ⟨mem, equal⟩ := List.mem_filter.1 (pair.subset hd)
    exact ⟨mem, by simpa [isAlike] using equal⟩
  obtain ⟨hb, ab⟩ := alike b (by simp)
  obtain ⟨hc, ac⟩ := alike c (by simp)
  have ba : (cmp b a).isLE = true := by
    rw [h.swap a ha b hb, ab]
    rfl
  exact h.trans b hb a ha c hc ba (by rw [ac]; rfl)

/-- The order as a test on the members alone, where it is total and transitive. -/
def leOn (cmp : α → α → Ordering) (xs : List α) (a b : { a // a ∈ xs }) : Bool :=
  cmp a.1 b.1 != .gt

theorem leOn_iff {a b : { a // a ∈ xs }} : leOn cmp xs a b = true ↔ (cmp a.1 b.1).isLE = true := by
  rw [leOn]
  cases cmp a.1 b.1 <;> simp

theorem map_val_mergeSort :
    (xs.attach.mergeSort (leOn cmp xs)).map Subtype.val =
      xs.mergeSort fun a b => cmp a b != .gt := by
  have same : ∀ a ∈ xs.attach, ∀ b ∈ xs.attach, leOn cmp xs a b = (cmp a.1 b.1 != .gt) :=
    fun _ _ _ _ => rfl
  rw [List.map_mergeSort (s := fun a b => cmp a b != .gt) same, List.attach_map_subtype_val]

namespace IsPreorderOn

theorem leOn_trans (h : IsPreorderOn cmp xs) (a b c : { a // a ∈ xs }) :
    leOn cmp xs a b = true → leOn cmp xs b c = true → leOn cmp xs a c = true := by
  simp only [leOn_iff]
  exact h.trans a.1 a.2 b.1 b.2 c.1 c.2

theorem leOn_total (h : IsPreorderOn cmp xs) (a b : { a // a ∈ xs }) :
    (leOn cmp xs a b || leOn cmp xs b a) = true := by
  rw [Bool.or_eq_true, leOn_iff, leOn_iff]
  exact h.total a.2 b.2

/-- Members that are in order stay as they stand. -/
theorem sublist_mergeSort (h : IsPreorderOn cmp xs) {p : α → Bool}
    (ordered : (xs.filter p).Pairwise fun a b => (cmp a b).isLE = true) :
    (xs.filter p).Sublist (xs.mergeSort fun a b => cmp a b != .gt) := by
  have members : (xs.attach.filter (p ∘ Subtype.val)).map Subtype.val = xs.filter p := by
    rw [← List.filter_map, List.attach_map_subtype_val]
  have ordered' : (xs.attach.filter (p ∘ Subtype.val)).Pairwise fun a b =>
      leOn cmp xs a b = true := by
    rw [← members, List.pairwise_map] at ordered
    exact ordered.imp leOn_iff.2
  have kept := List.sublist_mergeSort h.leOn_trans h.leOn_total ordered' List.filter_sublist
  have kept' := kept.map Subtype.val
  rwa [members, map_val_mergeSort] at kept'

end IsPreorderOn

/-- **Merge sort sorts stably.** -/
theorem stablySorted_mergeSort (h : IsPreorderOn cmp xs) :
    StablySorted cmp xs (xs.mergeSort fun a b => cmp a b != .gt) := by
  have perm := List.mergeSort_perm xs fun a b => cmp a b != .gt
  refine ⟨perm, ?_, fun a ha => ?_⟩
  · rw [← map_val_mergeSort, List.pairwise_map]
    exact (List.pairwise_mergeSort h.leOn_trans h.leOn_total xs.attach).imp leOn_iff.1
  · have kept := (h.sublist_mergeSort (h.pairwise_alike ha)).filter (isAlike cmp a)
    rw [List.filter_filter] at kept
    simp only [Bool.and_self] at kept
    exact (kept.eq_of_length (perm.filter _).length_eq.symm).symm

end RecordQuery
