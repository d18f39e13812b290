import RecordQuery.Proofs.FieldTypes.Uniform
import RecordQuery.Proofs.Filter.Relations

/-!
# Fields that are not resolved

A record that lacks a field decides that there is no such field, unless a record before it showed a
type. So where static records differ in what they lack, as lists of different lengths do, a field
that some of them have may not be resolved, and its clauses keep no record.

* `settleType_eq_none_iff`: samples without a type begin with nulls, and then a member is missing;
* `Sample.ofRecord_eq_missing_iff`: a member is missing in the sample where it is in the reading;
* `FilterClause.compile_unresolved`: when a field is not resolved, and what that means for records
  that agree in what they lack.
-/

namespace RecordQuery

/-! ## Samples without a type -/

/-- Once a number was seen, there is a type. -/
theorem settleType_seen_ne_none (kind : FieldKind) (samples : List Sample) :
    settleType (some kind) samples ≠ none := by
  induction samples generalizing kind with
  | nil => exact Option.some_ne_none _
  | cons sample samples ih =>
    cases sample with
    | declared type => exact Option.some_ne_none _
    | seen other => exact ih _
    | null => exact ih kind
    | missing => exact ih kind

/-- **Samples settle no type** exactly if a member is missing from the first of them that is not
null. -/
theorem settleType_eq_none_iff {samples : List Sample} :
    settleType none samples = none ↔
      ∃ front rest, samples = front ++ .missing :: rest ∧ ∀ sample ∈ front, sample = .null := by
  constructor
  · intro h
    induction samples with
    | nil => cases h
    | cons sample samples ih =>
      cases sample with
      | declared type => cases h
      | missing => exact ⟨[], samples, rfl, by simp⟩
      | null =>
        obtain ⟨front, rest, rfl, nulls⟩ := ih h
        exact ⟨.null :: front, rest, rfl, List.forall_mem_cons.2 ⟨rfl, nulls⟩⟩
      | seen kind =>
        rw [settleType] at h
        split at h
        · exact absurd h (settleType_seen_ne_none kind samples)
        · cases h
  · rintro ⟨front, rest, rfl, nulls⟩
    induction front with
    | nil => rfl
    | cons sample front ih =>
      obtain ⟨rfl, later⟩ := List.forall_mem_cons.1 nulls
      exact ih later

/-! ## Members that are missing -/

namespace Record

/-- A structure declares the types of members that it has. -/
theorem isSome_member?_of_memberType? {r : Record} {name : String} {type : TypeInfo}
    (h : r.memberType? name = some type) : (r.member? name).isSome = true := by
  cases r with
  | shaped title slots =>
    obtain ⟨slot, listed, -⟩ := Option.bind_eq_some_iff.1 h
    simp [member?, listed]
  | _ => cases h

/-- A record declares no type for a member that is not found. -/
theorem declaredType?_of_lookup?_eq_none {r : Record} {name : String}
    (h : r.lookup? name = none) : r.declaredType? name = none := by
  have undeclared {name : String} (h : r.member? name = none) : r.memberType? name = none := by
    cases declared : r.memberType? name with
    | none => rfl
    | some type =>
      have found := isSome_member?_of_memberType? declared
      rw [h] at found
      cases found
  cases exact : r.member? name with
  | some m =>
    rw [lookup?, exact] at h
    cases h
  | none =>
    rw [lookup?, exact] at h
    rw [declaredType?, undeclared exact]
    cases other : r.nameInOtherCase? name with
    | none => rfl
    | some name' =>
      rw [other] at h
      exact undeclared h

end Record

namespace Parent

/-- A parent shows that a member is missing exactly if none is read from it. -/
theorem sample_eq_missing_iff (name : String) (p : Parent) :
    p.sample name = .missing ↔ Record.Parent.read name p = .missing := by
  have value (v : Value) : Sample.ofValue v ≠ .missing := by
    rw [Sample.ofValue]
    split <;> simp
  cases p with
  | tree v => simp [sample, Record.Parent.read, value]
  | intermediateNull => simp [sample, Record.Parent.read]
  | missing => simp [sample, Record.Parent.read]
  | record r =>
    cases found : r.lookup? name with
    | some m =>
      rw [sample, Sample.ofMember, Record.Parent.read]
      cases declared : (if r.isStatic then r.declaredType? name else none) with
      | some type => simp [found]
      | none => simp [found, value]
    | none =>
      have undeclared := Record.declaredType?_of_lookup?_eq_none found
      rw [sample, Sample.ofMember, Record.Parent.read, undeclared, found, ite_self]
      cases r.isStatic <;> simp

end Parent

variable {path : FieldPath} {r : Record}

/-- A record shows that a field is missing exactly if the field is missing when it is read. -/
theorem Sample.ofRecord_eq_missing_iff (named : path.isEmpty = false) :
    ofRecord path r = .missing ↔ r.resolve path = .missing := by
  obtain ⟨name, last⟩ := FieldPath.exists_leaf? named
  rw [ofRecord_eq last, Record.resolve, last]
  exact Parent.sample_eq_missing_iff name _

/-! ## Records without a type -/

/-- A field has no type over a list of records exactly if it is missing from the first of them that
shows anything but a null. -/
theorem fieldType?_eq_none_iff {records : List Record} (named : path.isEmpty = false) :
    fieldType? none records path = none ↔
      ∃ front r rest, records = front ++ r :: rest ∧
        (∀ s ∈ front, Sample.ofRecord path s = .null) ∧ r.resolve path = .missing := by
  rw [fieldType?, if_neg (by simp [named]), settleType_eq_none_iff]
  constructor
  · rintro ⟨front, rest, shown, nulls⟩
    obtain ⟨before, after, rfl, rfl, later⟩ := List.map_eq_append_iff.1 shown
    obtain ⟨r, behind, rfl, missing, rfl⟩ := List.map_eq_cons_iff.1 later
    exact ⟨before, r, behind, rfl, fun s mem => nulls _ (List.mem_map.2 ⟨s, mem, rfl⟩),
      (Sample.ofRecord_eq_missing_iff named).1 missing⟩
  · rintro ⟨front, r, rest, rfl, nulls, missing⟩
    refine ⟨front.map (Sample.ofRecord path), rest.map (Sample.ofRecord path), ?_, ?_⟩
    · rw [← (Sample.ofRecord_eq_missing_iff named).2 missing]
      simp [sampledRecords]
    · intro sample mem
      obtain ⟨s, before, rfl⟩ := List.mem_map.1 mem
      exact nulls s before

namespace FilterClause

/-- **When a field is not resolved**: of the records that are all asked, the first that shows
anything but a null lacks the field. Then no clause on the field keeps any record. Records of which
all lack the field if one does are not resolved only if they all lack it, and there is a type where
no record lacks the field. -/
theorem compile_unresolved (settings : Settings) {field : String} (records : List Record)
    (named : (FieldPath.parse field).isEmpty = false) :
    let path := FieldPath.parse field
    let found := (FieldTypes.resolve records path { limit := none }).1
    (found = none ↔ ∃ front r rest, records = front ++ r :: rest ∧
      (∀ s ∈ front, Sample.ofRecord path s = .null) ∧ r.resolve path = .missing) ∧
    (found = none → ∀ op literal ignoreCase r,
      (compile settings records (.simple ⟨field, op, literal, ignoreCase⟩) { limit := none }).1 r =
        false) ∧
    ((∀ r ∈ records, ∀ s ∈ records, r.resolve path = .missing → s.resolve path = .missing) →
      found = none → ∀ r ∈ records, r.resolve path = .missing) ∧
    ((∀ r ∈ records, r.resolve path ≠ .missing) → found ≠ none) := by
  intro path found
  have fresh : found = fieldType? none records path := by
    show (FieldTypes.resolve records path { limit := none }).1 = _
    rw [FieldTypes.resolve_fst]
    rfl
  have unresolved : fieldType? none records path = none ↔ _ := fieldType?_eq_none_iff named
  rw [← fresh] at unresolved
  refine ⟨unresolved, fun none op literal ignoreCase r => ?_, fun agree none r mem => ?_,
    fun reached none => ?_⟩
  · exact compile_eq_false settings ⟨field, op, literal, ignoreCase⟩ (.inl (fresh.symm.trans none))
  · obtain ⟨front, s, rest, rfl, -, missing⟩ := unresolved.1 none
    exact agree s (by simp) r mem missing
  · obtain ⟨front, s, rest, rfl, -, missing⟩ := unresolved.1 none
    exact reached s (by simp) missing

/-- A null and a list that is too short: the field is not resolved, and the null is not found. -/
theorem compile_unresolved_of_null :
    let row : Record := .list [.json .null]
    let rows : List Record := [row, .list []]
    let path := FieldPath.parse "0"
    path.isEmpty = false ∧ row.resolve path = .value .null ∧
      (FieldTypes.resolve rows path { limit := none }).1 = none ∧
      (compile {} rows (.simple ⟨"0", .equals, .null, true⟩) { limit := none }).1 row = false := by
  intro row rows path
  have named : path.isEmpty = false := by decide +kernel
  obtain ⟨unresolved, nothing, -⟩ := compile_unresolved {} rows named
  have none : (FieldTypes.resolve rows path { limit := none }).1 = none := by
    refine unresolved.2 ⟨[row], .list [], [], rfl, fun s mem => ?_, by rfl⟩
    obtain rfl := List.mem_singleton.1 mem
    decide +kernel
  exact ⟨named, by rfl, none, nothing none .equals .null true row⟩

/-- Of two lists the first is too short for the field. So the field is not resolved, although the
second list has it, and the clause that names the value there does not keep it. -/
theorem compile_unresolved_not_of_lengths :
    let rows : List Record :=
      [.list [.json (.integer 1)], .list [.json (.integer 2), .json (.integer 3)]]
    let path := FieldPath.parse "1"
    let clause : FilterClause := .simple ⟨"1", .equals, .int64 3, true⟩
    (FieldTypes.resolve rows path { limit := none }).1 = none ∧
      (FieldTypes.resolve rows.reverse path { limit := none }).1 = some ⟨.int64, true⟩ ∧
      rows.map (·.resolve path) = [.missing, .value (.int64 3)] ∧
      rows.map (compile {} rows clause { limit := none }).1 = [false, false] ∧
      rows.map (compile {} rows.reverse clause { limit := none }).1 = [false, true] := by
  refine ⟨by decide +kernel, by decide +kernel, by rfl, by decide +kernel, by decide +kernel⟩

end FilterClause

end RecordQuery
