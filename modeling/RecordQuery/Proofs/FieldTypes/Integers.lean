import RecordQuery.Proofs.FieldTypes.Memory
import RecordQuery.Proofs.Record.Alike

/-!
# The type of a field of integers

Where the values of a field are integers, and so are the types that structures declare for it, its
type is an integer kind, or nothing is known of it.

* `IntegersAt` says so of the values, `DeclaresIntegers` of the declarations;
* `Sample.kind?_valueAt`: what a record shows of the type is the kind of its value;
* `fieldType?_of_integers`: the type over all records.
-/

namespace RecordQuery

def Value.isInteger (v : Value) : Bool := v.toInt?.isSome

theorem Value.isInteger_of_kind? {v : Value} {kind : FieldKind} (h : v.kind? = some kind) :
    v.isInteger = kind.isInteger := by
  cases v <;> cases h <;> rfl

/-- The values of a field are integers, where they are not null. -/
def IntegersAt (field : String) (records : List Record) : Prop :=
  ∀ r ∈ records, (r.get field).isNull = false → (r.get field).isInteger = true

/-- The types that are declared for a field are integer kinds. -/
def DeclaresIntegers (field : String) (records : List Record) : Prop :=
  ∀ r ∈ records, ∀ type, Sample.ofRecord (.parse field) r = .declared type →
    type.kind.isInteger = true

/-! ## Samples -/

namespace Sample

theorem ofValue_eq_seen {v : Value} {kind : FieldKind} (h : ofValue v = .seen kind) :
    v.kind? = some kind := by
  unfold ofValue at h
  split at h
  · next found => rw [found, Sample.seen.inj h]
  · cases h

/-- What a record shows of the type of a field is the kind of its value there. -/
theorem kind?_valueAt {r : Record} {path : FieldPath} {kind : FieldKind}
    (h : ofRecord path r = .seen kind) : (r.valueAt path).kind? = some kind := by
  cases last : path.leaf? with
  | none =>
    rw [ofRecord, last] at h
    cases h
  | some name =>
    rw [ofRecord_eq last] at h
    simp only [Record.valueAt, Record.resolve, last]
    cases parent : r.parent path with
    | tree v =>
      rw [parent] at h
      exact ofValue_eq_seen h
    | intermediateNull =>
      rw [parent] at h
      cases h
    | missing =>
      rw [parent] at h
      cases h
    | record owner =>
      rw [parent, Parent.sample, ofMember] at h
      rw [Record.Parent.read]
      cases declared : (if owner.isStatic then owner.declaredType? name else none) with
      | some type =>
        rw [declared] at h
        cases h
      | none =>
        rw [declared] at h
        cases found : owner.lookup? name with
        | some m =>
          rw [found] at h
          exact ofValue_eq_seen h
        | none =>
          rw [found] at h
          cases static : owner.isStatic <;> (rw [static] at h; cases h)

/-- A sample that shows an integer kind, if any. -/
def IsInteger : Sample → Prop
  | declared type => type.kind.isInteger = true
  | seen kind => kind.isInteger = true
  | null => True
  | missing => True

end Sample

theorem isInteger_ofRecord {field : String} {records : List Record} {r : Record}
    (values : IntegersAt field records) (declared : DeclaresIntegers field records)
    (mem : r ∈ records) : (Sample.ofRecord (.parse field) r).IsInteger := by
  cases shown : Sample.ofRecord (.parse field) r with
  | declared type => exact declared r mem type shown
  | seen kind =>
    have found : (r.get field).kind? = some kind := Sample.kind?_valueAt shown
    have some : (r.get field).isNull = false := by
      cases v : r.get field <;> first | rfl | (rw [v] at found; cases found)
    exact (Value.isInteger_of_kind? found).symm.trans (values r mem some)
  | null => trivial
  | missing => trivial

/-! ## Types -/

theorem FieldKind.isInteger_widen {a b : FieldKind} (ha : a.isInteger = true)
    (hb : b.isInteger = true) : (a.widen b).isInteger = true := by
  cases a <;> cases ha <;> cases b <;> cases hb <;> rfl

/-- Integers settle an integer kind, or nothing. -/
theorem isInteger_of_settleType {samples : List Sample} {numeric : Option FieldKind}
    {type : TypeInfo} (integers : ∀ sample ∈ samples, sample.IsInteger)
    (before : ∀ kind, numeric = some kind → kind.isInteger = true)
    (h : settleType numeric samples = some type) :
    type.kind.isInteger = true ∨ type.kind = .unknown := by
  induction samples generalizing numeric with
  | nil =>
    cases numeric with
    | none => exact .inr (Option.some.inj h ▸ rfl)
    | some kind => exact .inl (Option.some.inj h ▸ before kind rfl)
  | cons sample samples ih =>
    obtain ⟨first, rest⟩ := List.forall_mem_cons.1 integers
    cases sample with
    | declared own => exact .inl (Option.some.inj h ▸ first)
    | null => exact ih rest before h
    | missing =>
      cases numeric with
      | none => cases h
      | some kind => exact ih rest before h
    | seen kind =>
      have numeric? : kind.isNumeric = true := by
        cases kind <;> first | rfl | cases first
      cases numeric with
      | none =>
        rw [settleType, numeric?] at h
        exact ih rest (fun _ same => Option.some.inj same ▸ first) h
      | some seen =>
        rw [settleType, numeric?] at h
        refine ih rest (fun _ same => ?_) h
        obtain rfl := Option.some.inj same
        exact FieldKind.isInteger_widen (before seen rfl) first

theorem mem_of_mem_sampledRecords {limit : Option Nat} {records : List Record} {r : Record}
    (mem : r ∈ sampledRecords limit records) : r ∈ records := by
  cases limit with
  | none => exact mem
  | some n => exact List.mem_of_mem_take mem

/-- A type of integers, or one of which nothing is known, if there is such a field. -/
def AllowsIntegers (type? : Option TypeInfo) : Prop :=
  ∀ type, type? = some type → type.kind.isInteger = true ∨ type.kind = .unknown

/-- **The type of a field of integers** is an integer kind, or nothing is known of it. -/
theorem fieldType?_of_integers {field : String} {records : List Record} {limit : Option Nat}
    (values : IntegersAt field records) (declared : DeclaresIntegers field records) :
    AllowsIntegers (fieldType? limit records (.parse field)) := by
  intro type h
  unfold fieldType? at h
  split at h
  · cases h
  · refine isInteger_of_settleType (fun sample mem => ?_) (fun _ same => by cases same) h
    obtain ⟨r, asked, rfl⟩ := List.mem_map.1 mem
    exact isInteger_ofRecord values declared (mem_of_mem_sampledRecords asked)

/-! ## Other records -/

variable {field : String} {records records' : List Record}

theorem IntegersAt.mono (h : IntegersAt field records) (sub : records' ⊆ records) :
    IntegersAt field records' :=
  fun r mem => h r (sub mem)

theorem DeclaresIntegers.mono (h : DeclaresIntegers field records) (sub : records' ⊆ records) :
    DeclaresIntegers field records' :=
  fun r mem => h r (sub mem)

end RecordQuery
