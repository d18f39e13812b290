import RecordQuery.Proofs.Conversion
import RecordQuery.Value.Coercion

/-!
# What a value is fitted to

A value that is fitted to a type has the kind of the type, unless it is null or the type takes every
value.

* `kind?_of_toNumber?` and `kind?_of_coerceTo`: the kind of a fitted value;
* `coerceForComparison_unknown`: what is fitted where nothing is known of a field;
* `isNull_of_coerce` and `isNull_of_coerceForComparison`: it is null exactly if what was given
  stands for null.
-/

namespace RecordQuery

open Text

/-- Whether every value fits the kind as it is. -/
def FieldKind.takesAll : FieldKind → Bool
  | .unknown | .object | .list => true
  | _ => false

theorem Value.isNull_of_kind? {v : Value} {kind : FieldKind} (h : v.kind? = some kind) :
    v.isNull = false := by
  cases v <;> first | rfl | cases h

variable {raw v : Value} {kind : FieldKind}

/-! ## Numbers -/

theorem kind?_of_integerTo? {n : Int64} (h : integerTo? n kind = some v) : v.kind? = some kind := by
  cases kind with
  | int16 | int32 =>
    obtain ⟨m, -, rfl⟩ := Option.map_eq_some_iff.1 h
    rfl
  | int64 | float32 | float64 | decimal =>
    obtain rfl := Option.some.inj h
    rfl
  | _ => cases h

theorem kind?_of_readNumeral? {cs : List Char} (h : readNumeral? cs kind = some v) :
    v.kind? = some kind := by
  cases kind with
  | int16 | int32 | int64 | float32 | float64 | decimal =>
    obtain ⟨x, -, rfl⟩ := Option.map_eq_some_iff.1 h
    rfl
  | _ => cases h

theorem kind?_of_convertNumber? (h : convertNumber? raw kind = some v) : v.kind? = some kind := by
  cases kind with
  | int16 | int32 | int64 =>
    obtain ⟨n, -, fitted⟩ := Option.bind_eq_some_iff.1 h
    exact kind?_of_integerTo? fitted
  | float32 | float64 | decimal =>
    obtain ⟨x, -, rfl⟩ := Option.map_eq_some_iff.1 h
    rfl
  | _ => cases h

/-- A value that is read as a number of a kind has this kind. -/
theorem kind?_of_toNumber? (h : toNumber? raw kind = some v) : v.kind? = some kind := by
  cases raw with
  | string text => exact kind?_of_readNumeral? h
  | bool b => exact kind?_of_integerTo? h
  | enum descriptor n => exact kind?_of_integerTo? h
  | int16 _ | int32 _ | int64 _ | float32 _ | float64 _ | decimal _ =>
    simp only [toNumber?, Value.isNumeric, if_true] at h
    exact kind?_of_convertNumber? h
  | _ => cases h

theorem kind?_of_coerceNumber (h : coerceNumber raw kind = .ok v) : v.kind? = some kind := by
  rw [coerceNumber] at h
  split at h
  · next read =>
    obtain rfl := Except.ok.inj h
    exact kind?_of_toNumber? read
  · cases h

/-! ## Other kinds -/

theorem kind?_of_coerceGuid (h : coerceGuid raw = .ok v) : v.kind? = some .guid := by
  unfold coerceGuid at h
  split at h
  · split at h
    · obtain rfl := Except.ok.inj h
      rfl
    · cases h
  · cases h

theorem kind?_of_coerceBool (h : coerceBool raw = .ok v) : v.kind? = some .bool := by
  unfold coerceBool at h
  split at h
  · dsimp only at h
    split at h
    · obtain rfl := Except.ok.inj h
      rfl
    · split at h
      · obtain rfl := Except.ok.inj h
        rfl
      · cases h
  · split at h
    · obtain rfl := Except.ok.inj h
      rfl
    · cases h

theorem kind?_of_coerceEnum {d : EnumDescriptor} (h : coerceEnum raw d = .ok v) :
    v.kind? = some (.enum d) := by
  unfold coerceEnum at h
  split at h
  · obtain rfl := Except.ok.inj h
    rfl
  · cases h

/-- **A fitted value** has the kind that it is fitted to, unless this takes every value. -/
theorem kind?_of_coerceTo (h : coerceTo raw kind = .ok v) :
    (kind.takesAll = true ∧ v = raw) ∨ v.kind? = some kind := by
  cases kind with
  | unknown | object | list => exact .inl ⟨rfl, (Except.ok.inj h).symm⟩
  | string =>
    obtain rfl := Except.ok.inj h
    exact .inr rfl
  | guid => exact .inr (kind?_of_coerceGuid h)
  | bool => exact .inr (kind?_of_coerceBool h)
  | enum d => exact .inr (kind?_of_coerceEnum h)
  | dateTime | dateTimeOffset =>
    obtain ⟨d, -, rfl⟩ := map_eq_ok_iff.1 h
    exact .inr rfl
  | int16 | int32 | int64 | float32 | float64 | decimal => exact .inr (kind?_of_coerceNumber h)

/-! ## Nulls -/

theorem coerceTo_unknown (raw : Value) : coerceTo raw .unknown = .ok raw := rfl

/-- Where nothing is known of a field, a literal is kept, or stands for null. -/
theorem coerceForComparison_unknown (raw : Value) (nullable : Bool) :
    coerceForComparison raw ⟨.unknown, nullable⟩ =
      .ok (if standsForNull raw .unknown then .null else raw) := by
  have fitted : coerce raw ⟨.unknown, nullable⟩ =
      .ok (if standsForNull raw .unknown then .null else raw) := by
    simp only [coerce, coerceTo_unknown, ite_self]
    split <;> rfl
  have whole : (if (FieldKind.unknown).isInteger = true then fractionalLiteral? raw else none) =
      none := rfl
  rw [coerceForComparison, whole]
  exact fitted

theorem coerceForComparison_unknown_again {nullable : Bool}
    (h : coerceForComparison raw ⟨.unknown, nullable⟩ = .ok v) :
    coerceForComparison v (.of .unknown) = .ok v := by
  rw [coerceForComparison_unknown] at h
  rw [TypeInfo.of, coerceForComparison_unknown, Except.ok.inj h.symm]
  split <;> rfl

theorem isNull_of_standsForNull_eq_false (h : standsForNull raw kind = false) :
    raw.isNull = false := by
  cases raw <;> first | rfl | cases h

/-- What stands for null in a field: null, and the empty text unless the field holds texts. -/
theorem standsForNull_iff :
    standsForNull raw kind = true ↔ raw.isNull = true ∨ raw = .string "" ∧ kind ≠ .string := by
  cases raw with
  | null => simp [standsForNull, Value.isNull]
  | string text => simp [standsForNull, Value.isNull]
  | _ => simp [standsForNull, Value.isNull]

/-- What is fitted without being null either takes every value or has its own kind. -/
theorem kind?_of_coerce {target : TypeInfo} (h : coerce raw target = .ok v) :
    standsForNull raw target.kind = true ∧ v = .null ∨
      standsForNull raw target.kind = false ∧
        (target.kind.takesAll = true ∧ v = raw ∨ v.kind? = some target.kind) := by
  unfold coerce at h
  cases null : standsForNull raw target.kind with
  | true =>
    rw [null] at h
    exact .inl ⟨rfl, (Except.ok.inj h).symm⟩
  | false =>
    rw [null, if_neg Bool.false_ne_true] at h
    refine .inr ⟨rfl, ?_⟩
    by_cases own : raw.kind? = some target.kind
    · rw [if_pos own] at h
      obtain rfl := Except.ok.inj h
      exact .inr own
    · rw [if_neg own] at h
      exact kind?_of_coerceTo h

/-- **A value is fitted to null** exactly if it stands for null. -/
theorem isNull_of_coerce {target : TypeInfo} (h : coerce raw target = .ok v) :
    v.isNull = standsForNull raw target.kind := by
  rcases kind?_of_coerce h with ⟨null, rfl⟩ | ⟨some, all | own⟩
  · exact null.symm
  · rw [some, all.2]
    exact isNull_of_standsForNull_eq_false some
  · rw [some]
    exact Value.isNull_of_kind? own

/-- A value of the kind itself does not stand for null. -/
theorem standsForNull_of_own_kind (own : raw.kind? = some kind) :
    standsForNull raw kind = false := by
  rw [← Bool.not_eq_true, standsForNull_iff]
  rintro (null | ⟨rfl, other⟩)
  · rw [Value.isNull_of_kind? own] at null
    cases null
  · exact other (Option.some.inj own).symm

/-- A value of the kind itself is kept. -/
theorem coerce_of_own_kind {target : TypeInfo} (own : raw.kind? = some target.kind) :
    coerce raw target = .ok raw := by
  rw [coerce, standsForNull_of_own_kind own, if_neg Bool.false_ne_true, if_pos own]

/-- What takes every value takes it as it is. -/
theorem eq_of_coerce_of_takesAll {target : TypeInfo} (all : target.kind.takesAll = true)
    (some : standsForNull raw target.kind = false) (h : coerce raw target = .ok v) : v = raw := by
  rw [coerce, some, if_neg Bool.false_ne_true] at h
  split at h
  · exact (Except.ok.inj h).symm
  · obtain ⟨kind, nullable⟩ := target
    cases kind with
    | unknown | object | list => exact (Except.ok.inj h).symm
    | _ => cases all

/-- What was fitted to a type is kept by every type of its kind. -/
theorem coerce_coerce {target : TypeInfo} (h : coerce raw target = .ok v) :
    coerce v (.of target.kind) = .ok v := by
  rcases kind?_of_coerce h with ⟨-, rfl⟩ | ⟨-, ⟨-, rfl⟩ | own⟩
  · rfl
  · exact h
  · exact coerce_of_own_kind own

/-- A value of the kind itself is kept, in a comparison too. -/
theorem coerceForComparison_of_own_kind {target : TypeInfo} (own : raw.kind? = some target.kind) :
    coerceForComparison raw target = .ok raw := by
  have fraction : (if target.kind.isInteger then fractionalLiteral? raw else none) = none := by
    obtain ⟨kind, nullable⟩ := target
    cases raw <;> cases own <;> rfl
  rw [coerceForComparison, fraction]
  exact coerce_of_own_kind own

/-- A fraction that is kept in a comparison was no null. -/
theorem isNull_of_fractionalLiteral? (h : fractionalLiteral? raw = some v) (kind : FieldKind) :
    v.isNull = false ∧ standsForNull raw kind = false := by
  cases raw with
  | float32 x | float64 x | decimal x =>
    simp only [fractionalLiteral?] at h
    split at h
    · cases h
    · obtain rfl := Option.some.inj h
      exact ⟨rfl, rfl⟩
  | string text =>
    have some : text ≠ "" := by
      rintro rfl
      have none : fractionalLiteral? (.string "") = none := by decide
      rw [none] at h
      cases h
    simp only [fractionalLiteral?] at h
    split at h
    · cases h
    · obtain ⟨x, -, rfl⟩ := Option.map_eq_some_iff.1 h
      exact ⟨rfl, by simp [standsForNull, some]⟩
  | _ => cases h

theorem isNull_of_coerceForComparison {target : TypeInfo}
    (h : coerceForComparison raw target = .ok v) : v.isNull = standsForNull raw target.kind := by
  unfold coerceForComparison at h
  split at h
  · next fraction kept =>
    obtain rfl := Except.ok.inj h
    split at kept
    · obtain ⟨some, other⟩ := isNull_of_fractionalLiteral? kept target.kind
      rw [some, other]
    · cases kept
  · exact isNull_of_coerce h

end RecordQuery
