import Mathlib.Data.List.Forall2

/-!
# Conversions that may fail

A conversion comes to a result exactly if all of its steps do, and a list is converted item by item.

* `map_eq_ok_iff`, `bind_eq_ok_iff`: the results of a step and of what follows it;
* `mapM_eq_ok_iff`: a list and its converted items;
* `exists_forall₂`, `exists_of_mem_forall₂`, `forall₂_congr_mem`: lists that are related item by
  item;
* `exists_split_cons`: the first item of some kind.
-/

namespace RecordQuery

/-! ## Steps -/

theorem map_eq_ok_iff {ε α β : Type} {x : Except ε α} {f : α → β} {b : β} :
    x.map f = .ok b ↔ ∃ a, x = .ok a ∧ f a = b := by
  cases x <;> simp [Except.map]

theorem bind_eq_ok_iff {ε α β : Type} {x : Except ε α} {f : α → Except ε β} {b : β} :
    (x >>= f) = .ok b ↔ ∃ a, x = .ok a ∧ f a = .ok b := by
  cases x <;> simp [bind, Except.bind]

/-! ## Lists -/

/-- A list is converted where every item is, and item by item. -/
theorem mapM_eq_ok_iff {ε α β : Type} {f : α → Except ε β} {as : List α} {bs : List β} :
    as.mapM f = .ok bs ↔ List.Forall₂ (fun a b => f a = .ok b) as bs := by
  induction as generalizing bs with
  | nil => cases bs <;> simp [pure, Except.pure]
  | cons a as ih =>
    rw [List.mapM_cons, List.forall₂_cons_left_iff]
    cases head : f a with
    | error e => simp [bind, Except.bind]
    | ok b =>
      cases tail : as.mapM f with
      | error e => simp [bind, Except.bind, ← ih, tail]
      | ok cs => simp [bind, Except.bind, pure, Except.pure, ← ih, tail, eq_comm]

theorem exists_forall₂ {α β : Type} {R : α → β → Prop} {as : List α}
    (h : ∀ a ∈ as, ∃ b, R a b) : ∃ bs, List.Forall₂ R as bs := by
  induction as with
  | nil => exact ⟨[], .nil⟩
  | cons a as ih =>
    obtain ⟨⟨b, first⟩, rest⟩ := List.forall_mem_cons.1 h
    obtain ⟨bs, all⟩ := ih rest
    exact ⟨b :: bs, .cons first all⟩

theorem exists_of_mem_forall₂ {α β : Type} {R : α → β → Prop} {as : List α} {bs : List β} {a : α}
    (h : List.Forall₂ R as bs) (mem : a ∈ as) : ∃ b, R a b := by
  induction h with
  | nil => cases mem
  | cons first _ ih =>
    rcases List.mem_cons.1 mem with rfl | later
    · exact ⟨_, first⟩
    · exact ih later

/-- Relations that agree on the items of a list relate it to the same lists. -/
theorem forall₂_congr_mem {α β : Type} {R S : α → β → Prop} {as : List α} {bs : List β}
    (h : ∀ a ∈ as, ∀ b, R a b ↔ S a b) : List.Forall₂ R as bs ↔ List.Forall₂ S as bs := by
  induction as generalizing bs with
  | nil => simp
  | cons a as ih =>
    obtain ⟨first, rest⟩ := List.forall_mem_cons.1 h
    simp only [List.forall₂_cons_left_iff, first, ih rest]

/-- The first item of some kind in a list is its head, or it comes after the head. -/
theorem exists_split_cons {α : Type} {P Q : α → Prop} {a : α} {as : List α} :
    (∃ before b after, a :: as = before ++ b :: after ∧ (∀ x ∈ before, P x) ∧ Q b) ↔
      Q a ∨ P a ∧ ∃ before b after, as = before ++ b :: after ∧ (∀ x ∈ before, P x) ∧ Q b := by
  constructor
  · rintro ⟨_ | ⟨first, before⟩, b, after, cut, all, found⟩
    · obtain ⟨rfl, -⟩ := List.cons.inj cut
      exact .inl found
    · obtain ⟨rfl, rest⟩ := List.cons.inj cut
      obtain ⟨head, tail⟩ := List.forall_mem_cons.1 all
      exact .inr ⟨head, before, b, after, rest, tail, found⟩
  · rintro (found | ⟨head, before, b, after, rfl, tail, found⟩)
    · exact ⟨[], a, as, rfl, nofun, found⟩
    · exact ⟨a :: before, b, after, rfl, List.forall_mem_cons.2 ⟨head, tail⟩, found⟩

end RecordQuery
