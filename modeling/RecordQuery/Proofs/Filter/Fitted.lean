import RecordQuery.Proofs.Filter.Nulls
import RecordQuery.Proofs.Text.Parts
import RecordQuery.Proofs.Value.Visible

/-!
# Literals fitted early and late

Where the type of a field is known, a literal is fitted to it once. Where nothing is known, it is
fitted to the kind of each value. Most literals mean the same either way.

* `Comparison.testFitted` fits a literal to a kind and compares;
* `Comparison.testKind_null_null` and `Comparison.testKind_null_of_shown`: what null compares to,
  which does not depend on a kind;
* `Value.Suits` are the literals that mean the same for a kind of values: the empty text, which
  stands for null where nothing is known, may not be one for a field of texts, and a literal for an
  enumeration must name a member;
* `SimpleClause.predicate_unknown_eq`: such a literal finds the same among values of that kind.
-/

namespace RecordQuery

open Text

/-! ## Comparing null -/

/-- Whether a clause with a null literal keeps a record whose field reads as null. -/
def Operator.keepsNulls (stopped : Bool) : Operator → Bool
  | .equals | .startsWith | .endsWith => true
  | .contains => !stopped
  | _ => false

namespace Comparison

variable {c : Comparison} {kind : FieldKind} {field literal : Value} {stopped : Bool}

theorem folded_empty : c.folded "" = "" := by
  rw [folded]
  split <;> rfl

theorem folded_ne_empty {s : String} (h : s ≠ "") : c.folded s ≠ "" := by
  rw [folded]
  split
  · rwa [Ne, lower_eq_empty_iff]
  · exact h

/-- Null is compared with null in one way, whatever the kind. -/
theorem testKind_null_null :
    c.testKind kind .null .null stopped = c.operator.keepsNulls stopped := by
  have same (dayOnly : Bool) : c.equals kind .null .null dayOnly = true := equals_null.2 (.inl rfl)
  cases op : c.operator with
  | equals | notEquals => simp [testKind, op, same, Operator.keepsNulls]
  | lessThan | lessThanOrEqual | greaterThan | greaterThanOrEqual =>
    simp [testKind, op, Value.isNull, Operator.keepsNulls]
  | startsWith =>
    simp only [testKind, op, texts, textOr, Operator.keepsNulls]
    exact startsWith_self _
  | endsWith =>
    simp only [testKind, op, texts, textOr, Operator.keepsNulls]
    exact endsWith_self _
  | contains =>
    cases stopped with
    | true => simp [testKind, op, Operator.keepsNulls]
    | false =>
      simp only [testKind, op, texts, textOr, Operator.keepsNulls]
      exact contains_self _

/-- Null is compared with a literal that is shown in one way, whatever the kind. -/
theorem testKind_null_of_shown (shown : literal.display ≠ "") :
    c.testKind kind .null literal stopped = (c.operator == .notEquals) := by
  have some : literal.isNull = false := by
    cases literal <;> first | rfl | exact absurd rfl shown
  have other (dayOnly : Bool) : c.equals kind .null literal dayOnly = false :=
    Bool.eq_false_iff.2 fun equal => shown ((equals_of_isNull rfl some).1 equal).2
  have texts : c.texts kind .null literal = ("", c.folded literal.display) := by
    have null (blank : String) : textOr blank .null = blank := rfl
    simp only [texts, some, Bool.and_false, null, textOr_of_not_isNull some]
    exact congrArg (·, _) folded_empty
  have part : c.folded literal.display ≠ "" := folded_ne_empty shown
  cases op : c.operator with
  | equals | notEquals => simp [testKind, op, other]
  | lessThan | lessThanOrEqual | greaterThan | greaterThanOrEqual =>
    simp [testKind, op, Value.isNull]
  | startsWith => simp [testKind, op, texts, startsWith_empty part]
  | endsWith => simp [testKind, op, texts, endsWith_empty part]
  | contains => cases stopped <;> simp [testKind, op, texts, contains_empty part]

end Comparison

/-! ## Fitting a literal -/

section Fitting

variable {literal v : Value} {kind : FieldKind} {d : EnumDescriptor} {n : Int64}

/-- What stands for null is fitted to null, in a comparison too. -/
theorem coerceForComparison_of_standsForNull (h : standsForNull literal kind = true) :
    coerceForComparison literal (.of kind) = .ok .null := by
  have whole : fractionalLiteral? literal = none := by
    rcases standsForNull_iff.1 h with null | ⟨rfl, -⟩
    · cases literal <;> first | rfl | cases null
    · decide
  rw [coerceForComparison, whole, ite_self, coerce]
  exact if_pos h

/-- A literal that names a member is fitted to its number. -/
theorem coerceForComparison_enum (given : standsForNull literal (.enum d) = false)
    (named : resolveEnum? literal d = some n) :
    coerceForComparison literal (.of (.enum d)) = .ok (.enum d n) := by
  have whole : (if (FieldKind.enum d).isInteger = true then fractionalLiteral? literal else none) =
      none := rfl
  rw [coerceForComparison, TypeInfo.of, whole]
  simp only [coerce, given, Bool.false_eq_true, if_false]
  split
  · next own =>
    cases literal with
    | enum e m =>
      obtain rfl : e = d := FieldKind.enum.inj (Option.some.inj own)
      simp only [resolveEnum?, if_true] at named
      rw [Option.some.inj named]
    | _ => cases own
  · rw [coerceTo, coerceEnum, named]

/-- A literal for texts is fitted to its own text. -/
theorem coerceForComparison_string (given : literal.isNull = false) :
    coerceForComparison literal (.of .string) = .ok (.string literal.display) := by
  cases literal with
  | null => cases given
  | string s =>
    have kept : standsForNull (.string s) .string = false := by simp [standsForNull]
    rw [coerceForComparison, coerce, TypeInfo.of, kept]
    rfl
  | _ => rfl

/-- A fraction that is kept is a number. -/
theorem display_ne_empty_of_fractionalLiteral? (h : fractionalLiteral? literal = some v) :
    v.display ≠ "" := by
  cases literal with
  | float32 x | float64 x | decimal x =>
    simp only [fractionalLiteral?] at h
    split at h
    · cases h
    · obtain rfl := Option.some.inj h
      first | exact Binary.display_ne_empty _ | exact Decimal.display_ne_empty _
  | string text =>
    simp only [fractionalLiteral?] at h
    split at h
    · cases h
    · obtain ⟨x, -, rfl⟩ := Option.map_eq_some_iff.1 h
      exact x.display_ne_empty
  | _ => cases h

end Fitting

/-- The literals that mean the same whether or not the kind of the values is known. -/
structure Value.Suits (kind : FieldKind) (literal : Value) : Prop where
  /-- The empty text stands for null, so it is not compared as a text and not looked up as a name.
  -/
  empty : literal = .string "" → kind ≠ .string ∧ kind.descriptor? = none
  /-- A literal for an enumeration is null or names a member, which is shown as something. -/
  member : ∀ d, kind = .enum d →
    literal.isNull = true ∨ ∃ n, resolveEnum? literal d = some n ∧ Value.enumText d n ≠ ""
  /-- A number of any enumeration is shown as something. -/
  shown : ∀ d n, literal = .enum d n → Value.enumText d n ≠ ""

namespace Value.Suits

variable {literal v : Value} {kind : FieldKind}

theorem null (kind : FieldKind) : Suits kind .null where
  empty same := by cases same
  member _ _ := .inl rfl
  shown _ _ same := by cases same

theorem unknown (h : Suits kind literal) : Suits .unknown literal where
  empty _ := ⟨by decide, rfl⟩
  member _ same := by cases same
  shown := h.shown

theorem standsForNull_eq (h : Suits kind literal) :
    standsForNull literal kind = standsForNull literal .unknown := by
  rw [Bool.eq_iff_iff, standsForNull_iff, standsForNull_iff]
  exact or_congr_right (and_congr_right fun empty => iff_of_true (h.empty empty).1 (by decide))

/-- What does not stand for null is shown. -/
theorem display_ne_empty (h : Suits kind literal) (given : standsForNull literal kind = false) :
    literal.display ≠ "" := by
  intro silent
  have nothing := display_eq_empty_iff.1 silent
  cases literal with
  | null => cases given
  | string s =>
    obtain rfl : s = "" := nothing
    rw [standsForNull_iff.2 (.inr ⟨rfl, (h.empty rfl).1⟩)] at given
    cases given
  | enum d n => exact h.shown d n rfl nothing
  | _ => exact nothing

/-- What it is fitted to is shown, unless it stands for null. -/
theorem display_fitted_ne_empty (h : Suits kind literal)
    (given : standsForNull literal kind = false)
    (fitted : coerceForComparison literal (.of kind) = .ok v) : v.display ≠ "" := by
  have isNull : literal.isNull = false := isNull_of_standsForNull_eq_false given
  by_cases texts : kind = .string
  · subst texts
    rw [coerceForComparison_string isNull] at fitted
    obtain rfl := Except.ok.inj fitted
    exact h.display_ne_empty given
  by_cases enum : ∃ d, kind = .enum d
  · obtain ⟨d, rfl⟩ := enum
    obtain ⟨n, named, shown⟩ := (h.member d rfl).resolve_left (by simp [isNull])
    rw [coerceForComparison_enum given named] at fitted
    obtain rfl := Except.ok.inj fitted
    exact shown
  unfold coerceForComparison at fitted
  split at fitted
  · next fraction kept =>
    obtain rfl := Except.ok.inj fitted
    split at kept
    · exact display_ne_empty_of_fractionalLiteral? kept
    · cases kept
  · rcases kind?_of_coerce fitted with ⟨null, -⟩ | ⟨-, ⟨-, rfl⟩ | own⟩
    · exact absurd (given.symm.trans null) (by decide)
    · exact h.display_ne_empty given
    · -- the values of all other kinds are shown
      intro silent
      have nothing := display_eq_empty_iff.1 silent
      cases v with
      | null => cases own
      | string s => exact texts (Option.some.inj own).symm
      | enum d n => exact enum ⟨d, (Option.some.inj own).symm⟩
      | _ => exact nothing

end Value.Suits

/-! ## Fitting early and late -/

namespace Comparison

/-- Fits a literal to a kind and compares a value with it. A literal that does not fit is compared
as a text. -/
def testFitted (c : Comparison) (kind : FieldKind) (literal field : Value)
    (stopped : Bool) : Bool :=
  match coerceForComparison literal (.of kind) with
  | .ok fitted => c.testKind kind field fitted stopped
  | .error _ => c.testText field literal.display stopped

theorem testValue_of_unknown {c : Comparison} {literal field : Value} {stopped : Bool}
    (unknown : c.type.kind = .unknown) (typed : c.comparand = .typed literal) :
    c.testValue field stopped = c.testFitted (field.kind?.getD .unknown) literal field stopped := by
  rw [testValue, typed]
  exact if_pos unknown

/-- Null is compared with a literal in one way, whatever the kind that it suits. -/
theorem testFitted_null {c : Comparison} {kind : FieldKind} {literal : Value} {stopped : Bool}
    (suits : literal.Suits kind) :
    c.testFitted kind literal .null stopped =
      if standsForNull literal kind then c.operator.keepsNulls stopped
      else c.operator == .notEquals := by
  rw [testFitted]
  cases stands : standsForNull literal kind with
  | true =>
    rw [coerceForComparison_of_standsForNull stands]
    exact testKind_null_null
  | false =>
    cases fitted : coerceForComparison literal (.of kind) with
    | ok v => exact testKind_null_of_shown (suits.display_fitted_ne_empty stands fitted)
    | error e =>
      have shown : (Value.string literal.display).display ≠ "" := suits.display_ne_empty stands
      exact testKind_null_of_shown shown

end Comparison

namespace SimpleClause

variable {clause : SimpleClause} {kind : FieldKind} {field : Value} {r : Record}

/-- Where the kind is known, a literal is fitted to it once and for all. -/
theorem testValue_known (settings : Settings) (known : kind ≠ .unknown)
    (suits : clause.value.Suits kind) (stopped : Bool) :
    (clause.comparison settings ⟨kind, true⟩).testValue field stopped =
      (clause.comparison settings ⟨kind, true⟩).testFitted kind clause.value field stopped := by
  rw [Comparison.testValue, Comparison.testFitted, comparison]
  by_cases enum : ∃ d, kind = .enum d
  · obtain ⟨d, rfl⟩ := enum
    simp only [comparand, FieldKind.descriptor?]
    rcases suits.member d rfl with null | ⟨n, named, -⟩
    · rw [if_pos null, coerceForComparison_of_standsForNull (standsForNull_iff.2 (.inl null))]
      rfl
    · cases null : clause.value.isNull with
      | true =>
        rw [if_pos rfl, coerceForComparison_of_standsForNull (standsForNull_iff.2 (.inl null))]
        rfl
      | false =>
        have given : standsForNull clause.value (.enum d) = false := by
          rw [Bool.eq_false_iff, Ne, standsForNull_iff]
          rintro (isNull | ⟨empty, -⟩)
          · exact absurd (null.symm.trans isNull) (by decide)
          · cases (suits.empty empty).2
        rw [if_neg Bool.false_ne_true, named, coerceForComparison_enum given named]
        rfl
  · have plain : kind.descriptor? = none := by
      cases kind <;> first | rfl | exact absurd ⟨_, rfl⟩ enum
    have fit : coerceForComparison clause.value ⟨kind, true⟩ =
        coerceForComparison clause.value (.of kind) := rfl
    simp only [comparand, plain, fit]
    cases coerceForComparison clause.value (.of kind) with
    | ok v => exact if_neg known
    | error e => rfl

/-- Where nothing is known, a literal is fitted to the kind of each value. -/
theorem testValue_unknown (settings : Settings)
    (suits : clause.value.Suits (field.kind?.getD .unknown)) (stopped : Bool) :
    (clause.comparison settings .unknown).testValue field stopped =
      (clause.comparison settings .unknown).testFitted (field.kind?.getD .unknown) clause.value
        field stopped := by
  have typed : (clause.comparison settings .unknown).comparand =
      .typed (if standsForNull clause.value .unknown then .null else clause.value) := by
    simp only [comparison, comparand, TypeInfo.unknown, FieldKind.descriptor?,
      coerceForComparison_unknown]
  rw [Comparison.testValue_of_unknown rfl typed, ← suits.standsForNull_eq, Comparison.testFitted,
    Comparison.testFitted]
  cases stands : standsForNull clause.value (field.kind?.getD .unknown) with
  | true =>
    rw [if_pos rfl, coerceForComparison_of_standsForNull stands,
      coerceForComparison_of_standsForNull (standsForNull_iff.2 (.inl rfl))]
  | false => rw [if_neg Bool.false_ne_true]

/-- **A literal finds the same among values of a kind that it suits**, whether or not the kind is
known. -/
theorem predicate_unknown_eq (settings : Settings) (suits : clause.value.Suits kind)
    (uniform : (r.get clause.field).isNull = true ∨ (r.get clause.field).kind? = some kind) :
    clause.predicate settings (some .unknown) r =
      clause.predicate settings (some ⟨kind, true⟩) r := by
  by_cases known : kind = .unknown
  · rw [known]
    rfl
  have value {field : Value} (stopped : Bool)
      (uniform : field.isNull = true ∨ field.kind? = some kind) :
      (clause.comparison settings .unknown).testValue field stopped =
        (clause.comparison settings ⟨kind, true⟩).testValue field stopped := by
    rw [testValue_known settings known suits]
    rcases uniform with null | own
    · obtain rfl : field = .null := by cases field <;> first | rfl | cases null
      have blank : clause.value.Suits (Value.null.kind?.getD .unknown) := suits.unknown
      rw [testValue_unknown settings blank, Comparison.testFitted_null suits]
      exact (Comparison.testFitted_null suits.unknown).trans (by rw [suits.standsForNull_eq]; rfl)
    · have own' : field.kind?.getD .unknown = kind := by rw [own]; rfl
      rw [testValue_unknown settings (own' ▸ suits), own']
      rfl
  show (clause.comparison settings .unknown).test r =
    (clause.comparison settings ⟨kind, true⟩).test r
  have way : (clause.comparison settings .unknown).path = .parse clause.field := rfl
  have way' : (clause.comparison settings ⟨kind, true⟩).path = .parse clause.field := rfl
  rw [Comparison.test, Comparison.test, way, way']
  rw [Record.get, Record.valueAt] at uniform
  cases ended : r.resolve (.parse clause.field) with
  | missing => rfl
  | intermediateNull => exact value true (.inl rfl)
  | value field =>
    rw [ended] at uniform
    exact value false uniform

end SimpleClause

end RecordQuery
