import RecordQuery.Proofs.FieldTypes.Integers
import RecordQuery.Proofs.FieldTypes.Widening
import RecordQuery.Proofs.Value.Coercion

/-!
# The type of a uniform field

Where the values of a field have one kind, apart from nulls, its type is this kind, as soon as one
of them is asked. Records without declared members show nothing but their values.

* `UniformAt` says so of the values of a field;
* `Parent.Plain`: on the way along a path from a record that is not static, no member is missing and
  none is declared (`Parent.Plain.follow`);
* `Sample.ofRecord_eq_ofValue`: such a record shows the kind of its value;
* `fieldType?_of_uniform`: the type over some of the records, as many as are asked.
-/

namespace RecordQuery

/-- The values of a field have one kind, apart from nulls. -/
def UniformAt (field : String) (kind : FieldKind) (records : List Record) : Prop :=
  ∀ r ∈ records, (r.get field).isNull = true ∨ (r.get field).kind? = some kind

theorem UniformAt.mono {field : String} {kind : FieldKind} {records records' : List Record}
    (h : UniformAt field kind records) (sub : records' ⊆ records) : UniformAt field kind records' :=
  fun r mem => h r (sub mem)

/-! ## Records that are not static -/

namespace Parent

/-- A parent whose members are not declared, if it is a record. -/
def Plain : Parent → Prop
  | .record r => r.isStatic = false
  | .missing => False
  | _ => True

variable {r : Record} {name : String} {p : Parent}

theorem Plain.step (plain : r.isStatic = false) (name : String) : (r.step name).Plain := by
  rw [Record.step, Record.lookup?_of_not_static plain]
  cases found : r.member? name with
  | none => simp [plain, Plain]
  | some m =>
    cases m with
    | record child => exact Record.isStatic_of_member? plain found
    | value v => cases v <;> simp [plain, Plain, Value.isContainer]

theorem Plain.stepTree (v : Value) (name : String) : (Record.stepTree v name).Plain := by
  rw [Record.stepTree]
  split
  · split <;> trivial
  · trivial

theorem Plain.follow (h : p.Plain) (names : List String) : (Record.follow p names).Plain := by
  induction names generalizing p with
  | nil =>
    rw [Record.follow]
    exact h
  | cons name names ih =>
    cases p with
    | record r => exact ih (Plain.step h name)
    | tree v => exact ih (Plain.stepTree v name)
    | intermediateNull => exact trivial
    | missing => exact h.elim

/-- A plain parent shows the kind of the value that is read. -/
theorem Plain.sample_eq (h : p.Plain) (name : String) :
    p.sample name = .ofValue (Record.Parent.read name p).toValue := by
  cases p with
  | record r =>
    have plain : r.isStatic = false := h
    rw [sample, Record.Parent.read, Sample.ofMember, plain]
    cases r.lookup? name <;> rfl
  | tree v => rfl
  | intermediateNull => rfl
  | missing => exact h.elim

end Parent

/-- A record that is not static shows the kind of its value. -/
theorem Sample.ofRecord_eq_ofValue {r : Record} {path : FieldPath} (plain : r.isStatic = false)
    (named : path.isEmpty = false) : Sample.ofRecord path r = .ofValue (r.valueAt path) := by
  obtain ⟨name, last⟩ := FieldPath.exists_leaf? named
  have start : (Parent.record r).Plain := plain
  have way : (r.parent path).Plain := start.follow path.parents
  rw [ofRecord_eq last, way.sample_eq, Record.valueAt, Record.resolve, last]

/-! ## The type -/

/-- Nulls and values of one kind settle this kind, once it was seen. -/
theorem settleType_of_seen {kind : FieldKind} {samples : List Sample}
    (one : ∀ sample ∈ samples, sample = .null ∨ sample = .seen kind) :
    settleType (some kind) samples = some ⟨kind, true⟩ := by
  induction samples with
  | nil => rfl
  | cons sample samples ih =>
    obtain ⟨first, rest⟩ := List.forall_mem_cons.1 one
    rcases first with rfl | rfl
    · exact ih rest
    · rw [settleType]
      simpa only [FieldKind.widen_self, ite_self] using ih rest

/-- Nulls and values of one kind settle this kind, if there are values at all. -/
theorem settleType_of_uniform {kind : FieldKind} {samples : List Sample}
    (one : ∀ sample ∈ samples, sample = .null ∨ sample = .seen kind) :
    settleType none samples =
      some (if .seen kind ∈ samples then ⟨kind, true⟩ else .unknown) := by
  induction samples with
  | nil => rfl
  | cons sample samples ih =>
    obtain ⟨first, rest⟩ := List.forall_mem_cons.1 one
    rcases first with rfl | rfl
    · rw [settleType, ih rest]
      simp
    · rw [settleType, if_pos List.mem_cons_self, settleType_of_seen rest, ite_self]

variable {field : String} {kind : FieldKind} {records : List Record}

/-- Whether one of the records that are asked has a value other than null. -/
def ShowsValue (limit : Option Nat) (records : List Record) (field : String) : Prop :=
  ∃ r ∈ sampledRecords limit records, (r.get field).isNull = false

/-- A record of a uniform field shows a null, or the kind of the field. -/
theorem UniformAt.ofRecord_eq {r : Record} (uniform : UniformAt field kind records)
    (plain : ∀ r ∈ records, r.isStatic = false) (named : (FieldPath.parse field).isEmpty = false)
    (mem : r ∈ records) :
    Sample.ofRecord (.parse field) r = if (r.get field).isNull then .null else .seen kind := by
  rw [Sample.ofRecord_eq_ofValue (plain r mem) named]
  show Sample.ofValue (r.get field) = _
  rcases uniform r mem with null | own
  · cases v : r.get field <;> first | rfl | (rw [v] at null; cases null)
  · rw [Value.isNull_of_kind? own, Sample.ofValue, own]
    rfl

/-- **The type of a uniform field** is the kind of its values if one of them is asked, and otherwise
nothing is known of it. -/
theorem fieldType?_of_uniform (plain : ∀ r ∈ records, r.isStatic = false)
    (uniform : UniformAt field kind records) (named : (FieldPath.parse field).isEmpty = false)
    (limit : Option Nat) :
    (ShowsValue limit records field →
      fieldType? limit records (.parse field) = some ⟨kind, true⟩) ∧
    (¬ ShowsValue limit records field →
      fieldType? limit records (.parse field) = some .unknown) := by
  have shown (r : Record) (mem : r ∈ sampledRecords limit records) :
      Sample.ofRecord (.parse field) r = if (r.get field).isNull then .null else .seen kind :=
    uniform.ofRecord_eq plain named (mem_of_mem_sampledRecords mem)
  have one : ∀ sample ∈ (sampledRecords limit records).map (Sample.ofRecord (.parse field)),
      sample = .null ∨ sample = .seen kind := by
    intro sample mem
    obtain ⟨r, asked, rfl⟩ := List.mem_map.1 mem
    rw [shown r asked]
    split
    · exact .inl rfl
    · exact .inr rfl
  have value : .seen kind ∈ (sampledRecords limit records).map (Sample.ofRecord (.parse field)) ↔
      ShowsValue limit records field := by
    rw [List.mem_map]
    constructor
    · rintro ⟨r, mem, seen⟩
      rw [shown r mem] at seen
      split at seen
      · cases seen
      · next some => exact ⟨r, mem, Bool.eq_false_iff.2 some⟩
    · rintro ⟨r, mem, some⟩
      refine ⟨r, mem, ?_⟩
      rw [shown r mem, some]
      rfl
  rw [fieldType?, if_neg (by simp [named]), settleType_of_uniform one]
  constructor
  · intro shows
    rw [if_pos (value.2 shows)]
  · intro blind
    rw [if_neg fun seen => blind (value.1 seen)]

end RecordQuery
