import RecordQuery.FieldTypes

/-!
# What is remembered of the types of fields

Filters, searches and aggregates look types up in a memory that they share. Over one list of records
the memory changes nothing: every look-up finds what the first one would have found.

* `FieldTypes.typeAt` is the type of a field over a list of records, found or remembered;
* `FieldTypes.Learned` says what is known after some fields were looked up; it leaves all these
  types as they are (`FieldTypes.Learned.typeAt_eq`);
* `Reads` says of a computation that its result is read off the types over a list of records, which
  stay as they are (`Reads.resolve`); such computations can follow one another (`Reads.bind`).
-/

namespace RecordQuery

/-- A path is determined by its text. -/
theorem FieldPath.parse_eq_of_text_eq {a b : String} (h : (parse a).text = (parse b).text) :
    parse a = parse b := by
  have trimmed : Text.trim a.toList = Text.trim b.toList := String.ofList_injective h
  simp only [parse, trimmed]

namespace FieldTypes

/-- The type of a field over a list of records. -/
def typeAt (types : FieldTypes) (records : List Record) (field : String) : Option TypeInfo :=
  types.typeOf? records (.parse field)

/-- What holds of a type over one list of records, and of the type that other records show, holds of
the type over those. -/
theorem typeAt_of_other {P : Option TypeInfo → Prop} {types : FieldTypes}
    {records records' : List Record} {field : String} (h : P (types.typeAt records field))
    (fresh : P (fieldType? types.limit records' (.parse field))) :
    P (types.typeAt records' field) := by
  simp only [typeAt, typeOf?] at h ⊢
  split
  · next known => simpa only [known] using h
  · exact fresh

/-! ## One look-up -/

theorem limit_resolve (types : FieldTypes) (records : List Record) (path : FieldPath) :
    (resolve records path types).2.limit = types.limit := by
  simp only [resolve]
  split <;> rfl

/-- After a look-up the type that it found is known, and all else is known as before. -/
theorem get?_resolve (types : FieldTypes) (records : List Record) (path : FieldPath)
    (text : String) :
    Fields.get? text (resolve records path types).2.known =
      if path.text = text then some (types.typeOf? records path)
      else Fields.get? text types.known := by
  by_cases same : path.text = text
  · subst same
    cases found : Fields.get? path.text types.known with
    | some type => simp [resolve, typeOf?, found]
    | none => simp [resolve, typeOf?, found, Fields.get?]
  · cases found : Fields.get? path.text types.known with
    | some type => simp [resolve, found, same]
    | none => simp [resolve, found, same, Fields.get?]

/-! ## Fields that were looked up -/

/-- The second memory knows what the first one does, and the types of some fields over a list of
records. -/
structure Learned (records : List Record) (fields : List String) (types types' : FieldTypes) :
    Prop where
  limit_eq : types'.limit = types.limit
  get?_of_mem : ∀ field ∈ fields, Fields.get? (FieldPath.parse field).text types'.known =
    some (types.typeAt records field)
  get?_of_ne : ∀ text, (∀ field ∈ fields, (FieldPath.parse field).text ≠ text) →
    Fields.get? text types'.known = Fields.get? text types.known

namespace Learned

variable {records : List Record} {types types' types'' : FieldTypes} {fields fields' : List String}

theorem nil (records : List Record) (types : FieldTypes) : Learned records [] types types :=
  ⟨rfl, by simp, fun _ _ => rfl⟩

/-- A look-up learns one field. -/
theorem resolve (records : List Record) (field : String) (types : FieldTypes) :
    Learned records [field] types (FieldTypes.resolve records (.parse field) types).2 := by
  refine ⟨limit_resolve _ _ _, fun other mem => ?_, fun text ne => ?_⟩
  · obtain rfl := List.mem_singleton.1 mem
    rw [FieldTypes.get?_resolve, if_pos rfl, typeAt]
  · rw [FieldTypes.get?_resolve, if_neg (ne field (List.mem_singleton.2 rfl))]

/-- Learning leaves the types as they are. -/
theorem typeAt_eq (h : Learned records fields types types') :
    types'.typeAt records = types.typeAt records := by
  funext field
  by_cases asked : ∃ other ∈ fields, (FieldPath.parse other).text = (FieldPath.parse field).text
  · obtain ⟨other, mem, same⟩ := asked
    have known := h.get?_of_mem other mem
    rw [same] at known
    rw [typeAt, typeOf?, known, typeAt, FieldPath.parse_eq_of_text_eq same, typeAt]
  · have other : ∀ other ∈ fields, (FieldPath.parse other).text ≠ (FieldPath.parse field).text :=
      fun other mem same => asked ⟨other, mem, same⟩
    rw [typeAt, typeOf?, h.get?_of_ne _ other, h.limit_eq, typeAt, typeOf?]

theorem trans (first : Learned records fields types types')
    (second : Learned records fields' types' types'') :
    Learned records (fields ++ fields') types types'' := by
  refine ⟨second.limit_eq.trans first.limit_eq, fun field mem => ?_, fun text ne => ?_⟩
  -- a field that is asked again is known by then, with the type that was found first
  · by_cases later : ∃ other ∈ fields', (FieldPath.parse other).text = (FieldPath.parse field).text
    · obtain ⟨other, mem', same⟩ := later
      rw [← same, second.get?_of_mem other mem', first.typeAt_eq, typeAt,
        FieldPath.parse_eq_of_text_eq same, typeAt]
    · have other : ∀ other ∈ fields', (FieldPath.parse other).text ≠ (FieldPath.parse field).text :=
        fun other mem same => later ⟨other, mem, same⟩
      rcases List.mem_append.1 mem with old | new
      · rw [second.get?_of_ne _ other, first.get?_of_mem field old]
      · exact absurd rfl (other field new)
  · rw [second.get?_of_ne text fun field mem => ne field (List.mem_append_right _ mem),
      first.get?_of_ne text fun field mem => ne field (List.mem_append_left _ mem)]

theorem congr (h : Learned records fields types types')
    (same : ∀ field, field ∈ fields' ↔ field ∈ fields) : Learned records fields' types types' :=
  ⟨h.limit_eq, fun field mem => h.get?_of_mem field ((same field).1 mem),
    fun text ne => h.get?_of_ne text fun field mem => ne field ((same field).2 mem)⟩

end Learned

end FieldTypes

/-! ## Computations that read types -/

/-- The result of a computation is read off the types over a list of records, and these stay as they
are. -/
def Reads {α : Type} (records : List Record) (m : StateM FieldTypes α)
    (result : (String → Option TypeInfo) → α) : Prop :=
  ∀ types : FieldTypes,
    (m types).1 = result (types.typeAt records) ∧ (m types).2.typeAt records = types.typeAt records

namespace Reads

variable {α β : Type} {records : List Record}

theorem pure (a : α) : Reads records (pure a) fun _ => a := fun _ => ⟨rfl, rfl⟩

theorem bind {m : StateM FieldTypes α} {f : α → StateM FieldTypes β}
    {a : (String → Option TypeInfo) → α} {b : α → (String → Option TypeInfo) → β}
    (first : Reads records m a) (next : ∀ x, Reads records (f x) (b x)) :
    Reads records (m >>= f) fun typeAt => b (a typeAt) typeAt := by
  intro types
  obtain ⟨value, kept⟩ := first types
  obtain ⟨value', kept'⟩ := next (m types).1 (m types).2
  refine ⟨?_, kept'.trans kept⟩
  calc ((m >>= f) types).1 = b (m types).1 ((m types).2.typeAt records) := value'
    _ = b (a (types.typeAt records)) (types.typeAt records) := by rw [value, kept]

theorem resolve (field : String) :
    Reads records (FieldTypes.resolve records (.parse field)) fun typeAt => typeAt field :=
  fun types =>
    ⟨types.resolve_fst records _, (FieldTypes.Learned.resolve records field types).typeAt_eq⟩

variable {m : StateM FieldTypes α} {a b : (String → Option TypeInfo) → α}

theorem value_eq (h : Reads records m a) (types : FieldTypes) :
    (m types).1 = a (types.typeAt records) :=
  (h types).1

/-- The types are the same after a computation that reads them. -/
theorem typeAt_eq (h : Reads records m a) (types : FieldTypes) :
    (m types).2.typeAt records = types.typeAt records :=
  (h types).2

theorem congr (h : Reads records m a) (same : ∀ typeAt, a typeAt = b typeAt) : Reads records m b :=
  funext same ▸ h

end Reads

end RecordQuery
