import RecordQuery.Proofs.FieldTypes.Memory

/-!
# Memories that agree

Two runs over different lists of records may look the same types up in different orders. What counts
is what they know in the end.

* `FieldTypes.Agree`: two memories know the same;
* `Matches`: from memories that agree, two computations come to related results and to memories that
  agree again. Such computations can follow one another (`Matches.bind`);
* `FieldTypes.Learned.agree`: memories that have learned the same fields agree, whichever of them
  came first.
-/

namespace RecordQuery

namespace FieldTypes

/-- Two memories know the same types. -/
structure Agree (a b : FieldTypes) : Prop where
  limit_eq : a.limit = b.limit
  get?_eq : ∀ text, Fields.get? text a.known = Fields.get? text b.known

theorem Agree.refl (types : FieldTypes) : Agree types types := ⟨rfl, fun _ => rfl⟩

/-- Lists of records over which every field has the same type. -/
def SameTypes (records records' : List Record) : Prop :=
  ∀ limit path, fieldType? limit records path = fieldType? limit records' path

variable {types types' : FieldTypes} {records records' : List Record}

theorem Agree.typeOf?_eq (h : Agree types types') (same : SameTypes records records')
    (path : FieldPath) : types.typeOf? records path = types'.typeOf? records' path := by
  rw [typeOf?, typeOf?, h.get?_eq, h.limit_eq, same]

variable {fields fields' : List String}

/-- Memories that agree have learned the same from the same fields, in whatever order. -/
theorem Learned.agree {learned learned' : FieldTypes} (h : Learned records fields types learned)
    (h' : Learned records' fields' types' learned') (agree : types.Agree types')
    (same : SameTypes records records') (sameFields : ∀ field, field ∈ fields ↔ field ∈ fields') :
    learned.Agree learned' := by
  refine ⟨by rw [h.limit_eq, h'.limit_eq, agree.limit_eq], fun text => ?_⟩
  by_cases asked : ∃ field ∈ fields, (FieldPath.parse field).text = text
  · obtain ⟨field, mem, rfl⟩ := asked
    rw [h.get?_of_mem field mem, h'.get?_of_mem field ((sameFields field).1 mem), typeAt, typeAt,
      agree.typeOf?_eq same]
  · have other : ∀ field ∈ fields, (FieldPath.parse field).text ≠ text :=
      fun field mem same => asked ⟨field, mem, same⟩
    rw [h.get?_of_ne text other, agree.get?_eq,
      h'.get?_of_ne text fun field mem => other field ((sameFields field).2 mem)]

end FieldTypes

/-! ## Computations in step -/

/-- From memories that agree, two computations come to related results and to memories that agree
again. -/
def Matches {α β : Type} (R : α → β → Prop) (m : StateM FieldTypes α) (m' : StateM FieldTypes β) :
    Prop :=
  ∀ types types' : FieldTypes, types.Agree types' →
    R (m types).1 (m' types').1 ∧ (m types).2.Agree (m' types').2

namespace Matches

variable {α β γ δ : Type} {R : α → β → Prop} {S : γ → δ → Prop}

theorem pure {a : α} {b : β} (h : R a b) : Matches R (pure a) (pure b) :=
  fun _ _ agree => ⟨h, agree⟩

theorem bind {m : StateM FieldTypes α} {m' : StateM FieldTypes β} {k : α → StateM FieldTypes γ}
    {k' : β → StateM FieldTypes δ} (first : Matches R m m')
    (next : ∀ a b, R a b → Matches S (k a) (k' b)) : Matches S (m >>= k) (m' >>= k') := by
  intro types types' agree
  obtain ⟨related, agree⟩ := first types types' agree
  exact next _ _ related _ _ agree

theorem resolve {records records' : List Record} (same : FieldTypes.SameTypes records records')
    (path : FieldPath) :
    Matches Eq (FieldTypes.resolve records path) (FieldTypes.resolve records' path) := by
  intro types types' agree
  have typeOf? := agree.typeOf?_eq same path
  refine ⟨by rw [types.resolve_fst, types'.resolve_fst, typeOf?], ?_, fun text => ?_⟩
  · rw [FieldTypes.limit_resolve, FieldTypes.limit_resolve, agree.limit_eq]
  · rw [FieldTypes.get?_resolve, FieldTypes.get?_resolve, typeOf?, agree.get?_eq]

end Matches

end RecordQuery
