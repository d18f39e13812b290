import RecordQuery.Proofs.Value.Coercion
import RecordQuery.Record.Write

/-!
# What is assigned to a typed member

A member of a declared type takes a value as it is coerced to the type, and null only if it is
nullable. Coercion never leaves a value of another kind behind, so no value is refused for that.

* `CoercionError.isMismatch`: coercion fails only since a value cannot be read as the kind
  (`isMismatch_of_coerce`);
* `Value.fitField_eq`: what a field takes, and why it refuses a value;
* `TypeInfo.Holds`: the values of a field, which are taken as they are (`Value.fitField_of_holds`);
* `Record.assign_coerced`: what coercion comes to, and what is assigned to a member.
-/

namespace RecordQuery

variable {raw v w : Value} {kind : FieldKind} {target : TypeInfo} {e : CoercionError}

/-! ## Errors -/

/-- An error of reading a value as another kind. -/
def CoercionError.isMismatch : CoercionError → Bool
  | .nullNotAllowed _ | .unsupported _ _ => false
  | _ => true

theorem isMismatch_of_coerceGuid (h : coerceGuid raw = .error e) : e.isMismatch = true := by
  unfold coerceGuid at h
  split at h
  · split at h
    · cases h
    · exact Except.error.inj h ▸ rfl
  · exact Except.error.inj h ▸ rfl

theorem isMismatch_of_coerceDate (h : coerceDate raw kind = .error e) : e.isMismatch = true := by
  unfold coerceDate at h
  split at h
  · cases h
  · cases h
  · split at h
    · cases h
    · exact Except.error.inj h ▸ rfl
  · exact Except.error.inj h ▸ rfl

theorem isMismatch_of_coerceBool (h : coerceBool raw = .error e) : e.isMismatch = true := by
  unfold coerceBool at h
  split at h
  · dsimp only at h
    split at h
    · cases h
    · split at h
      · cases h
      · exact Except.error.inj h ▸ rfl
  · split at h
    · cases h
    · exact Except.error.inj h ▸ rfl

theorem isMismatch_of_coerceNumber (h : coerceNumber raw kind = .error e) :
    e.isMismatch = true := by
  unfold coerceNumber at h
  split at h
  · cases h
  · exact Except.error.inj h ▸ rfl

theorem isMismatch_of_coerceEnum {d : EnumDescriptor} (h : coerceEnum raw d = .error e) :
    e.isMismatch = true := by
  unfold coerceEnum at h
  split at h
  · cases h
  · exact Except.error.inj h ▸ rfl

/-- **Coercion fails** only since a value cannot be read as another kind. -/
theorem isMismatch_of_coerce (h : coerce raw target = .error e) : e.isMismatch = true := by
  have date {f : DateLiteral → Value}
      (h : (coerceDate raw target.kind).map f = .error e) : e.isMismatch = true := by
    cases read : coerceDate raw target.kind with
    | ok d =>
      rw [read] at h
      cases h
    | error e' =>
      rw [read] at h
      exact Except.error.inj h ▸ isMismatch_of_coerceDate read
  unfold coerce at h
  split at h
  · cases h
  · split at h
    · cases h
    · obtain ⟨kind, nullable⟩ := target
      cases kind with
      | unknown | object | list | string => cases h
      | guid => exact isMismatch_of_coerceGuid h
      | bool => exact isMismatch_of_coerceBool h
      | enum d => exact isMismatch_of_coerceEnum h
      | dateTime | dateTimeOffset => exact date h
      | int16 | int32 | int64 | float32 | float64 | decimal => exact isMismatch_of_coerceNumber h

/-! ## Fields -/

namespace Value

/-- A value that is fitted to a kind is coerced to it, and is not null. -/
theorem fitKind_eq (single : kind.takesAll = false) (raw : Value) :
    raw.fitKind kind =
      match coerce raw (.of kind) with
      | .error e => .error e
      | .ok w => if w.isNull then .error (.nullNotAllowed kind.name) else .ok w := by
  rw [fitKind]
  cases coerced : coerce raw (.of kind) with
  | error e => rfl
  | ok w =>
    rcases kind?_of_coerce coerced with ⟨-, rfl⟩ | ⟨-, ⟨all, -⟩ | own⟩
    · rfl
    · exact absurd all (ne_true_of_eq_false single)
    · have some : w.isNull = false := isNull_of_kind? own
      have kept : (if w.kind? = .some kind then Except.ok w
          else .error (CoercionError.unsupported w.display kind.name)) = .ok w := if_pos own
      cases w <;> first | exact kept | cases some

/-- **What a field takes**: the coerced value, unless it is null and the field is not nullable. -/
theorem fitField_eq (single : target.kind.takesAll = false) (raw : Value) :
    raw.fitField target =
      match coerce raw target with
      | .error e => .error e
      | .ok w =>
        if w.isNull && !target.nullable then .error (.nullNotAllowed target.kind.name)
        else .ok w := by
  obtain ⟨kind, nullable⟩ := target
  cases nullable with
  | false =>
    -- whether null is allowed makes no difference to coercion itself
    simp only [fitField, Bool.not_false, Bool.and_true]
    exact fitKind_eq single raw
  | true =>
    rw [fitField, if_pos rfl]
    cases coerced : coerce raw ⟨kind, true⟩ with
    | error e => rfl
    | ok w =>
      cases null : w.isNull with
      | true => cases w <;> first | rfl | cases null
      | false =>
        have again : coerce w (.of kind) = .ok w := coerce_coerce coerced
        have fitted : w.fitKind kind = .ok w := by
          rw [fitKind_eq single, again]
          simp [null]
        cases w <;> first | exact fitted | cases null

end Value

/-- A value that a field of a type can hold: one of its kind, or null if it is nullable. -/
def TypeInfo.Holds (type : TypeInfo) (v : Value) : Prop :=
  v.kind? = some type.kind ∨ type.nullable = true ∧ v = .null

/-- A field takes every value that it can hold as it is. -/
theorem Value.fitField_of_holds (single : target.kind.takesAll = false) (h : target.Holds v) :
    v.fitField target = .ok v := by
  rw [fitField_eq single]
  rcases h with own | ⟨nullable, rfl⟩
  · rw [coerce_of_own_kind own]
    simp [isNull_of_kind? own]
  · have null : coerce .null target = .ok .null := rfl
    rw [null]
    simp [nullable]

namespace Record

/-- A scalar member that is written by its own name. -/
theorem write_scalar {title name : String} {slots : List (String × Slot)} {old : Value}
    (listed : Fields.get? name slots = some (.scalar target old)) (raw : Value) :
    (Record.shaped title slots).write ⟨name, [name]⟩ raw =
      match raw.fitField target with
      | .error e => (.shaped title slots, some (.typeMismatch name e))
      | .ok w => (.shaped title (Fields.put name (.scalar target w) slots), none) := by
  have found : ((Record.shaped title slots).member? name).isSome = true := by
    simp [member?, listed]
  have own : (Record.shaped title slots).writableName name = .ok name := by
    rw [writableName, found, Bool.or_true, if_pos rfl]
  simp only [write, FieldPath.leaf?, FieldPath.parents, List.getLast?_singleton,
    List.dropLast_singleton, writeAt, own, Except.bind, setMember, listed, Slot.assign]
  cases raw.fitField target <;> rfl

/-- **Coercion and assignment.** What a value is coerced to is null exactly if the value is null, or
the empty text and no text is asked for. Otherwise it has the kind that is asked for, or is the
value itself where every value fits; and it is coerced to itself again. A field of a single kind
never refuses a value for the kind that coercion left it in, and takes what it can hold as it is. A
member of such a type is set to the coerced value, or stays as it is: with the error of coercion, or
because null is not allowed. -/
theorem assign_coerced (raw : Value) (target : TypeInfo) :
    (∀ w, coerce raw target = .ok w →
      (w.isNull = true ↔ raw.isNull = true ∨ raw = .string "" ∧ target.kind ≠ .string) ∧
      (w.isNull = false →
        if target.kind.takesAll then w = raw else w.kind? = some target.kind) ∧
      coerce w target = .ok w) ∧
    (target.kind.takesAll = false →
      (∀ input name, raw.fitField target ≠ .error (.unsupported input name)) ∧
      (target.Holds raw → raw.fitField target = .ok raw) ∧
      ∀ title name slots old, Fields.get? name slots = some (.scalar target old) →
        (Record.shaped title slots).write ⟨name, [name]⟩ raw =
          match coerce raw target with
          | .error e => (.shaped title slots, some (.typeMismatch name e))
          | .ok w =>
            if w.isNull && !target.nullable then
              (.shaped title slots,
                some (.typeMismatch name (.nullNotAllowed target.kind.name)))
            else (.shaped title (Fields.put name (.scalar target w) slots), none)) := by
  refine ⟨fun w coerced => ⟨?_, fun some => ?_, coerce_coerce coerced⟩, fun single =>
    ⟨fun input name refused => ?_, Value.fitField_of_holds single, ?_⟩⟩
  · rw [isNull_of_coerce coerced, standsForNull_iff]
  · rcases kind?_of_coerce coerced with ⟨-, rfl⟩ | ⟨given, fitted⟩
    · cases some
    · split
      · next all => exact eq_of_coerce_of_takesAll all given coerced
      · next single => exact fitted.resolve_left fun all => single all.1
  · rw [Value.fitField_eq single] at refused
    cases coerced : coerce raw target with
    | error e =>
      rw [coerced] at refused
      have mismatch := isMismatch_of_coerce coerced
      rw [Except.error.inj refused] at mismatch
      cases mismatch
    | ok w =>
      rw [coerced] at refused
      dsimp only at refused
      split at refused
      · cases refused
      · cases refused
  · intro title name slots old listed
    rw [write_scalar listed, Value.fitField_eq single]
    cases coerce raw target with
    | error e => rfl
    | ok w =>
      dsimp only
      cases w.isNull && !target.nullable <;> rfl

/-- The empty text empties an optional number, and is refused by one that is not optional. -/
theorem assign_coerced_of_blank :
    (Record.shaped "Row" [("Rank", .scalar ⟨.int32, true⟩ (.int32 7))]).write ⟨"Rank", ["Rank"]⟩
        (.string "") =
      (.shaped "Row" [("Rank", .scalar ⟨.int32, true⟩ .null)], none) ∧
    (Record.shaped "Row" [("Rank", .scalar (.of .int32) (.int32 7))]).write ⟨"Rank", ["Rank"]⟩
        (.string "") =
      (.shaped "Row" [("Rank", .scalar (.of .int32) (.int32 7))],
        some (.typeMismatch "Rank" (.nullNotAllowed "Int32"))) :=
  ⟨((assign_coerced (.string "") ⟨.int32, true⟩).2 rfl).2.2 "Row" "Rank" _ _ rfl,
    ((assign_coerced (.string "") (.of .int32)).2 rfl).2.2 "Row" "Rank" _ _ rfl⟩

end Record

end RecordQuery
