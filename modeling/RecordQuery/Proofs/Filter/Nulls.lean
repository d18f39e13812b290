import RecordQuery.Proofs.Filter.Integers
import RecordQuery.Proofs.Value.Coercion

/-!
# Nulls in equality

A clause with a null literal keeps the records whose field reads as null, and a clause with another
literal keeps none of them. Texts that ignore case are the exception: null is then compared as a
text, the blank marker or the empty text.

* `lower_eq_empty_iff`: only the empty text is empty in lower case;
* `SimpleClause.isNull_comparand`: which literals are fitted to null;
* `Comparison.equals_null` and `Comparison.equals_of_isNull`: equality with null on either side;
* `Comparison.exists_test_eq`: a record is tested by the value that is read;
* `FilterClause.compile_equals_nulls`: what a clause keeps where nulls are compared.
-/

namespace RecordQuery

open Text

/-! ## Empty texts -/

theorem Text.lowerChar_ne_nil (c : Char) : lowerChar c ≠ [] := by
  unfold lowerChar
  split
  · exact List.cons_ne_nil _ _
  · split
    · exact List.cons_ne_nil _ _
    · dsimp only
      split <;> exact List.cons_ne_nil _ _

/-- Only the empty text has the empty text in lower case. -/
theorem Text.lower_eq_empty_iff {s : String} : lower s = "" ↔ s = "" := by
  have none {cs : List Char} (h : lowerFrom [] cs = []) : cs = [] := by
    cases cs with
    | nil => rfl
    | cons c cs =>
      obtain ⟨here, -⟩ := List.append_eq_nil_iff.1 h
      split at here
      · split at here <;> cases here
      · exact absurd here (lowerChar_ne_nil c)
  constructor
  · intro h
    have chars : lowerFrom [] s.toList = [] := String.ofList_injective h
    exact String.toList_injective (none chars)
  · rintro rfl
    rfl

/-! ## Literals -/

namespace SimpleClause

variable {clause : SimpleClause} {type : TypeInfo} {v : Value}

/-- **A literal is fitted to null** if it is null, or the empty text for a field of neither texts
nor an enumeration. -/
theorem isNull_comparand (h : clause.comparand type = .typed v) :
    v.isNull = true ↔ clause.value.isNull = true ∨
      clause.value = .string "" ∧ type.kind ≠ .string ∧ type.kind.descriptor? = none := by
  unfold comparand at h
  cases enum : type.kind.descriptor? with
  | some descriptor =>
    rw [enum] at h
    dsimp only at h
    cases null : clause.value.isNull with
    | true =>
      rw [null, if_pos rfl] at h
      obtain rfl := Comparand.typed.inj h
      simp [Value.isNull]
    | false =>
      rw [null, if_neg Bool.false_ne_true] at h
      split at h
      · obtain rfl := Comparand.typed.inj h
        simp [Value.isNull]
      · cases h
  | none =>
    rw [enum] at h
    dsimp only at h
    split at h
    · next fitted =>
      obtain rfl := Comparand.typed.inj h
      rw [isNull_of_coerceForComparison fitted, standsForNull_iff]
      simp
    · cases h

/-- Where nothing is known of the field, what a literal was fitted to is fitted to itself. -/
theorem coerceForComparison_comparand (h : clause.comparand type = .typed v)
    (unknown : type.kind = .unknown) : coerceForComparison v (.of .unknown) = .ok v := by
  obtain ⟨kind, nullable⟩ := type
  obtain rfl : kind = .unknown := unknown
  simp only [comparand, FieldKind.descriptor?] at h
  split at h
  · next fitted =>
    obtain rfl := Comparand.typed.inj h
    exact coerceForComparison_unknown_again fitted
  · cases h

/-- A literal for a field of texts is a text, if it is not null. -/
theorem exists_string_comparand (h : clause.comparand type = .typed v) (some : v.isNull = false)
    (texts : type.kind = .string) : ∃ s, v = .string s := by
  obtain ⟨kind, nullable⟩ := type
  obtain rfl : kind = .string := texts
  simp only [comparand, FieldKind.descriptor?] at h
  split at h
  · next w fitted =>
    obtain rfl : w = v := Comparand.typed.inj h
    rcases kind?_of_coerce fitted with ⟨-, rfl⟩ | ⟨-, all | own⟩
    · cases some
    · cases all.1
    · cases w with
      | string s => exact ⟨s, rfl⟩
      | _ => cases own
  · cases h

end SimpleClause

/-! ## Comparing with null -/

namespace Comparison

variable {c : Comparison} {kind : FieldKind} {field literal : Value} {dayOnly stopped : Bool}

/-- Whether null is compared as a text. -/
def nullIsText (c : Comparison) (kind : FieldKind) : Prop := c.ignoreCase = true ∧ kind = .string

theorem textOr_of_isNull {blank : String} (h : field.isNull = true) : textOr blank field = blank :=
  if_pos h

theorem textOr_of_not_isNull {blank : String} (h : field.isNull = false) :
    textOr blank field = field.display :=
  if_neg (h ▸ Bool.false_ne_true)

/-- What equals null: null, and the blank marker where null is compared as a text. -/
theorem equals_null :
    c.equals kind field .null dayOnly = true ↔
      field.isNull = true ∨ c.nullIsText kind ∧ lower field.display = lower c.blankMarker := by
  have marker {blank : String} : textOr blank .null = blank := textOr_of_isNull rfl
  have isNull : Value.null.isNull = true := rfl
  unfold equals
  by_cases texts : c.nullIsText kind
  · have both : (kind = .string && c.ignoreCase) = true := by simpa [texts.1] using texts.2
    rw [if_pos both]
    cases null : field.isNull with
    | true => simp [textOr_of_isNull null, marker, isNull]
    | false => simp [textOr_of_not_isNull null, marker, texts]
  · have other : ¬ (kind = .string && c.ignoreCase) = true := fun both => texts (by
      simpa [nullIsText, and_comm] using both)
    rw [if_neg other]
    cases null : field.isNull <;> simp [isNull, texts]

/-- What null equals, apart from null: the empty text where null is compared as a text. -/
theorem equals_of_isNull (null : field.isNull = true) (some : literal.isNull = false) :
    c.equals kind field literal dayOnly = true ↔ c.nullIsText kind ∧ literal.display = "" := by
  have empty : lower "" = "" := rfl
  unfold equals
  by_cases texts : c.nullIsText kind
  · have both : (kind = .string && c.ignoreCase) = true := by simpa [texts.1] using texts.2
    have text : textOr c.blankMarker literal = literal.display := textOr_of_not_isNull some
    rw [if_pos both]
    simp only [textOr_of_isNull null, text, some, texts, true_and, Bool.false_eq_true, if_false,
      empty, beq_iff_eq]
    rw [eq_comm, lower_eq_empty_iff]
  · have other : ¬ (kind = .string && c.ignoreCase) = true := fun both => texts (by
      simpa [nullIsText, and_comm] using both)
    rw [if_neg other]
    simp [null, some, texts]

variable (equality : c.operator = .equals)

include equality

theorem testKind_equals : c.testKind kind field literal stopped =
    c.equals kind field literal (kind.isDate && c.type.nullable && literal.isMidnight) := by
  rw [testKind, equality]

/-- A null literal is compared with the value that is read, of the kind of the field. -/
theorem testValue_null (fitted : c.comparand = .typed .null) :
    c.testValue field stopped = true ↔ field.isNull = true ∨
      c.nullIsText (c.type.kindFor field) ∧ lower field.display = lower c.blankMarker := by
  have null (kind : FieldKind) : coerceForComparison .null (.of kind) = .ok .null := by
    cases kind <;> rfl
  have answer : c.testValue field stopped =
      c.testKind (c.type.kindFor field) field .null stopped := by
    simp only [testValue, fitted, TypeInfo.kindFor, null]
    split <;> rfl
  rw [answer, testKind_equals equality, equals_null]

/-- Null is compared with a text. -/
theorem testValue_text {s : String} (text : c.comparand = .text s) (null : field.isNull = true) :
    c.testValue field stopped = true ↔ c.ignoreCase = true ∧ s = "" := by
  have answer : c.testValue field stopped = c.testText field s stopped := by
    rw [testValue, text]
  rw [answer, testText, if_pos null, testKind_equals equality, equals_of_isNull rfl rfl]
  simp [nullIsText, Value.display]

/-- Null is compared with a literal that is not null. -/
theorem testValue_of_isNull (fitted : c.comparand = .typed literal) (some : literal.isNull = false)
    (again : c.type.kind = .unknown → coerceForComparison literal (.of .unknown) = .ok literal)
    (null : field.isNull = true) :
    c.testValue field stopped = true ↔ c.nullIsText c.type.kind ∧ literal.display = "" := by
  have kindless : field.kind?.getD .unknown = .unknown := by
    cases field <;> first | rfl | cases null
  have answer : c.testValue field stopped = c.testKind c.type.kind field literal stopped := by
    simp only [testValue, fitted]
    split
    · next unknown => rw [kindless, again unknown, unknown]
    · rfl
  rw [answer, testKind_equals equality, equals_of_isNull null some]

omit equality in
/-- A record is tested by the value that is read. -/
theorem exists_test_eq {r : Record} (present : (r.resolve c.path).isMissing = false) :
    ∃ stopped, c.test r = c.testValue (r.valueAt c.path) stopped := by
  rw [test, Record.valueAt]
  cases ended : r.resolve c.path with
  | value v => exact ⟨false, rfl⟩
  | intermediateNull => exact ⟨true, rfl⟩
  | missing =>
    rw [ended] at present
    cases present

end Comparison

/-! ## Compiled clauses -/

namespace FilterClause

variable {records : List Record} {types : FieldTypes} {clause : SimpleClause} {type : TypeInfo}

/-- A clause over a field whose type is found compiles to a comparison. -/
theorem compile_simple_eq_test (settings : Settings)
    (found : types.typeAt records clause.field = some type) (r : Record) :
    (compile settings records (.simple clause) types).1 r =
      (clause.comparison settings type).test r := by
  have read := (reads_compileSimple settings records clause).value_eq types
  rw [leafOver, found] at read
  exact congrFun read r

/-- **Nulls in equality.** Where the type of the field is found and the record has the field, a
clause with a literal that is fitted to null keeps the record if the field reads as null, and
otherwise only where texts ignore case and the text of the field is the blank marker. A clause with
another literal does not keep a record whose field reads as null, unless texts ignore case and the
literal is the empty text, which a null member of the record then equals. -/
theorem compile_equals_nulls (settings : Settings) (records : List Record) (types : FieldTypes)
    (clause : SimpleClause) {type : TypeInfo} {r : Record} (equality : clause.operator = .equals)
    (found : types.typeAt records clause.field = some type)
    (present : (r.resolve (.parse clause.field)).isMissing = false) :
    let field := r.get clause.field
    let keeps := (compile settings records (.simple clause) types).1 r
    (∀ v, clause.comparand type = .typed v →
      (v.isNull = true ↔ clause.value.isNull = true ∨
        clause.value = .string "" ∧ type.kind ≠ .string ∧ type.kind.descriptor? = none) ∧
      (v.isNull = true → (keeps = true ↔ field.isNull = true ∨
        clause.ignoreCase = true ∧ type.kindFor field = .string ∧
          lower field.display = lower settings.blankMarker)) ∧
      (v.isNull = false → field.isNull = true → keeps = true →
        clause.ignoreCase = true ∧ type.kind = .string ∧ v = .string "") ∧
      (r.resolve (.parse clause.field) = .value .null → clause.ignoreCase = true →
        type.kind = .string → v = .string "" → keeps = true)) ∧
    (∀ s, clause.comparand type = .text s → field.isNull = true → keeps = true →
      clause.ignoreCase = true ∧ s = "") ∧
    (clause.comparand type = .noMatch → keeps = false) := by
  intro field keeps
  let c : Comparison := clause.comparison settings type
  have compiled : keeps = c.test r := compile_simple_eq_test settings found r
  obtain ⟨stopped, read⟩ : ∃ stopped, c.test r = c.testValue field stopped :=
    c.exists_test_eq present
  have equality' : c.operator = .equals := equality
  rw [compiled, read]
  refine ⟨fun v typed => ⟨SimpleClause.isNull_comparand typed, fun null => ?_, ?_⟩,
    fun s text null kept => ?_, fun other => ?_⟩
  · obtain rfl : v = .null := by cases v <;> first | rfl | cases null
    have answer : c.testValue field stopped = true ↔ _ := c.testValue_null equality' typed
    rw [answer, Comparison.nullIsText, and_assoc]
    rfl
  · have again : type.kind = .unknown → coerceForComparison v (.of .unknown) = .ok v :=
      SimpleClause.coerceForComparison_comparand typed
    have answer (some : v.isNull = false) (null : field.isNull = true) :
        c.testValue field stopped = true ↔ c.nullIsText type.kind ∧ v.display = "" :=
      c.testValue_of_isNull equality' typed some again null
    refine ⟨fun some null kept => ?_, fun leaf ignores texts empty => ?_⟩
    · obtain ⟨⟨ignores, texts⟩, empty⟩ := (answer some null).1 kept
      obtain ⟨s, rfl⟩ := SimpleClause.exists_string_comparand typed some texts
      obtain rfl : s = "" := empty
      exact ⟨ignores, texts, rfl⟩
    · subst empty
      have null : field.isNull = true := by
        have value : field = .null := congrArg Resolved.toValue leaf
        rw [value]
        rfl
      exact (answer rfl null).2 ⟨⟨ignores, texts⟩, rfl⟩
  · have answer : c.testValue field stopped = true ↔ _ := c.testValue_text equality' text null
    exact answer.1 kept
  · have none : c.comparand = .noMatch := other
    rw [Comparison.testValue, none, equality']
    rfl

/-- A null literal finds the record without a note, and another literal does not. -/
theorem compile_equals_nulls_of_notes :
    let noted : Record := .table [("Note", .string "a")]
    let blank : Record := .table [("Note", .null)]
    let keeps (literal : Value) (r : Record) := (compile {} [noted, blank]
      (.simple ⟨"Note", .equals, literal, true⟩) ⟨none, []⟩).1 r
    keeps .null blank = true ∧ keeps .null noted = false ∧ keeps (.string "a") blank = false := by
  intro noted blank keeps
  have found : FieldTypes.typeAt ⟨none, []⟩ [noted, blank] "Note" = some ⟨.string, true⟩ := by
    decide
  have asked (literal : Value) (r : Record)
      (present : (r.resolve (.parse "Note")).isMissing = false) :=
    compile_equals_nulls {} [noted, blank] ⟨none, []⟩ ⟨"Note", .equals, literal, true⟩ (r := r) rfl
      found present
  refine ⟨?_, ?_, ?_⟩
  · obtain ⟨typed, -⟩ := asked .null blank (by decide)
    exact ((typed .null rfl).2.1 rfl).2 (.inl rfl)
  · obtain ⟨typed, -⟩ := asked .null noted (by decide)
    refine Bool.eq_false_iff.2 fun kept => ?_
    rcases ((typed .null rfl).2.1 rfl).1 kept with null | ⟨-, -, marker⟩
    · cases null
    · exact absurd marker (by decide)
  · obtain ⟨typed, -⟩ := asked (.string "a") blank (by decide)
    refine Bool.eq_false_iff.2 fun kept => ?_
    obtain ⟨-, -, empty⟩ := (typed (.string "a") rfl).2.2.1 rfl rfl kept
    exact absurd (Value.string.inj empty) (by decide)

/-- The word of the blank marker is found by a null literal, and null by the empty text. -/
theorem compile_equals_nulls_as_texts :
    let word : Record := .table [("Note", .string "Blanks")]
    let blank : Record := .table [("Note", .null)]
    let clause (literal : Value) : SimpleClause := ⟨"Note", .equals, literal, true⟩
    let keeps (literal : Value) (r : Record) :=
      (compile {} [word, blank] (.simple (clause literal)) ⟨none, []⟩).1 r
    FieldTypes.typeAt ⟨none, []⟩ [word, blank] "Note" = some ⟨.string, true⟩ ∧
      ((clause .null).comparand ⟨.string, true⟩ = .typed .null ∧
        word.resolve (.parse "Note") = .value (.string "Blanks") ∧ keeps .null word = true) ∧
      (clause (.string "")).comparand ⟨.string, true⟩ = .typed (.string "") ∧
        blank.resolve (.parse "Note") = .value .null ∧ keeps (.string "") blank = true := by
  intro word blank clause keeps
  exact ⟨by decide, ⟨rfl, rfl, by decide +kernel⟩, rfl, rfl, by decide +kernel⟩

end FilterClause

end RecordQuery
