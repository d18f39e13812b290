import RecordQuery.Proofs.Filter.OwnValue
import RecordQuery.Proofs.Value.ReadBack

/-!
# The text that is looked for

A text that is given to an operator on texts is fitted first, like every other literal, to the kind
of the field, or to the kind of the value where nothing is known of the field. What is looked for in
the text of the value is the text of what came out. This is the text that was given if it does not
fit, or if it is how a value of the kind is written.

* `FieldKind.fittedText`: the text that is looked for among values of a kind;
* `FieldKind.Preserves.fittedText_eq`: the texts that are looked for as they are;
* `Comparison.testFitted_text` and `SimpleClause.testValue_eq_testFitted`: what the operators on
  texts ask of one value;
* `FilterClause.compile_fittedText`: what the clauses keep.
-/

namespace RecordQuery

open Text

variable {text : String} {kind : FieldKind}

/-! ## Texts that are fitted -/

/-- The text that is looked for among values of a kind: that of the value that the given text is
fitted to, or the given one if it does not fit. -/
def FieldKind.fittedText (kind : FieldKind) (text : String) : String :=
  match coerceForComparison (.string text) (.of kind) with
  | .ok v => v.display
  | .error _ => text

/-- The texts that are looked for as they are. -/
inductive FieldKind.Preserves (kind : FieldKind) (text : String) : Prop
  /-- Texts, lists, objects and values of which nothing is known take every text. -/
  | untyped : kind = .string ∨ kind.takesAll = true → Preserves kind text
  /-- The text does not fit. -/
  | unfit (e : CoercionError) :
    coerceForComparison (.string text) (.of kind) = .error e → Preserves kind text
  /-- The text is how a value of the kind is written. -/
  | written {w : Value} : w.kind? = some kind → w.isContainer = false → kind.descriptor? = none →
    w.Legible → w.display = text → Preserves kind text

/-- A kind that takes every value keeps what does not stand for null. -/
theorem coerceForComparison_of_takesAll {raw : Value} (all : kind.takesAll = true)
    (given : standsForNull raw kind = false) : coerceForComparison raw (.of kind) = .ok raw := by
  have same : (TypeInfo.of kind).kind = kind := rfl
  have kept : coerceTo raw kind = .ok raw := by cases kind <;> first | rfl | cases all
  have whole : (if kind.isInteger then fractionalLiteral? raw else none) = none := by
    cases kind <;> first | rfl | cases all
  have fitted : coerce raw (.of kind) = .ok raw := by
    rw [coerce, same, given, if_neg Bool.false_ne_true, kept, ite_self]
  rw [coerceForComparison, same, whole]
  exact fitted

theorem FieldKind.Preserves.fittedText_eq (h : kind.Preserves text) (some : text ≠ "") :
    kind.fittedText text = text := by
  rw [fittedText]
  cases h with
  | untyped all =>
    have whole : coerceForComparison (.string text) (.of kind) = .ok (.string text) := by
      rcases all with rfl | all
      · exact coerceForComparison_of_own_kind rfl
      · exact coerceForComparison_of_takesAll all (by simp [standsForNull, some])
    rw [whole]
    rfl
  | unfit e unread => rw [unread]
  | written own single named legible shown =>
    rw [← shown, coerceForComparison_display own single named legible]

/-! ## Operators on texts -/

/-- What an operator asks of two texts. -/
def Operator.onTexts : Operator → String → String → Bool
  | .startsWith, whole, part => Text.startsWith whole part
  | .endsWith, whole, part => Text.endsWith whole part
  | .contains, whole, part => Text.contains whole part
  | _, _, _ => false

/-- The operators on texts. -/
def Operator.isTextual : Operator → Bool
  | .startsWith | .endsWith | .contains => true
  | _ => false

namespace Comparison

variable {c : Comparison} {v literal : Value}

/-- Of values other than null, the operators on texts see the texts alone. -/
theorem testKind_of_textual (textual : c.operator.isTextual = true) (known : v.isNull = false)
    (given : literal.isNull = false) :
    c.testKind kind v literal false =
      c.operator.onTexts (c.folded v.display) (c.folded literal.display) := by
  have texts : c.texts kind v literal = (c.folded v.display, c.folded literal.display) := by
    rw [texts, textOr_of_not_isNull known, textOr_of_not_isNull given]
  cases op : c.operator with
  | startsWith | endsWith | contains => simp [testKind, op, texts, Operator.onTexts]
  | _ => rw [op] at textual; cases textual

/-- A text is fitted and then looked for. -/
theorem testFitted_text (textual : c.operator.isTextual = true) (known : v.isNull = false)
    (some : text ≠ "") :
    c.testFitted kind (.string text) v false =
      c.operator.onTexts (c.folded v.display) (c.folded (kind.fittedText text)) := by
  rw [testFitted, FieldKind.fittedText]
  cases fitted : coerceForComparison (.string text) (.of kind) with
  | ok w =>
    have given : w.isNull = false := by
      rw [isNull_of_coerceForComparison fitted]
      simp [standsForNull, some]
    exact testKind_of_textual textual known given
  | error e =>
    have shown : (if v.isNull then Value.null else .string v.display) = .string v.display :=
      if_neg (ne_true_of_eq_false known)
    dsimp only
    rw [testText, shown]
    exact testKind_of_textual textual rfl rfl

end Comparison

namespace SimpleClause

variable {clause : SimpleClause} {type : TypeInfo} {v : Value}

/-- A text is fitted to the kind of the field, or to that of the value. -/
theorem testValue_eq_testFitted (settings : Settings) (given : clause.value = .string text)
    (some : text ≠ "") (named : type.kind.descriptor? = none) (v : Value) (stopped : Bool) :
    (clause.comparison settings type).testValue v stopped =
      (clause.comparison settings type).testFitted (type.kindFor v) (.string text) v stopped := by
  have fit : coerceForComparison (.string text) type =
      coerceForComparison (.string text) (.of type.kind) := rfl
  have fitted : (clause.comparison settings type).comparand =
      match coerceForComparison (.string text) (.of type.kind) with
      | .ok w => .typed w
      | .error _ => .text text := by
    rw [comparison, comparand, named, given, fit]
    rfl
  by_cases unknown : type.kind = .unknown
  · have whole : (clause.comparison settings type).comparand = .typed (.string text) := by
      rw [fitted, unknown, TypeInfo.of, coerceForComparison_unknown]
      simp [standsForNull, some]
    rw [Comparison.testValue_of_unknown unknown whole, TypeInfo.kindFor, if_pos unknown]
  · rw [TypeInfo.kindFor, if_neg unknown, Comparison.testValue, Comparison.testFitted, fitted]
    cases coerceForComparison (.string text) (.of type.kind) with
    | ok w => exact if_neg unknown
    | error e => rfl

end SimpleClause

namespace FilterClause

/-- **What is looked for** in the text of a value, with case, is the text of what the given text is
fitted to: by the kind of the field, or by that of the value where nothing is known of the field. So
the given text itself is looked for among texts, lists and objects, where it does not fit, and where
it is how a value of the kind is written. -/
theorem compile_fittedText (settings : Settings) (records : List Record) (types : FieldTypes)
    (field : String) {type : TypeInfo} (found : types.typeAt records field = some type)
    (named : type.kind.descriptor? = none) (some : text ≠ "") {r : Record}
    (known : (r.get field).isNull = false) :
    let keeps (op : Operator) : Bool :=
      (compile settings records (.simple ⟨field, op, .string text, false⟩) types).1 r
    let shown := (r.get field).display
    let kind := type.kindFor (r.get field)
    let asks (part : String) : Prop :=
      keeps .startsWith = startsWith shown part ∧ keeps .endsWith = endsWith shown part ∧
        keeps .contains = contains shown part
    asks (kind.fittedText text) ∧ (kind.Preserves text → asks text) := by
  intro keeps shown kind asks
  have present : r.resolve (.parse field) ≠ .missing := by
    rw [Record.resolve_of_known known]
    exact nofun
  obtain ⟨stopped, null, read⟩ := exists_compile_eq_read settings found present
  obtain rfl : stopped = false := Bool.eq_false_iff.2 fun stop =>
    absurd (known.symm.trans (null stop)) Bool.false_ne_true
  have answer (op : Operator) (textual : op.isTextual = true) :
      keeps op = op.onTexts shown (kind.fittedText text) := by
    let clause : SimpleClause := ⟨field, op, .string text, false⟩
    exact (read clause rfl).trans
      ((clause.testValue_eq_testFitted settings rfl some named _ _).trans
        (Comparison.testFitted_text textual known some))
  have fitted : asks (kind.fittedText text) :=
    ⟨answer .startsWith rfl, answer .endsWith rfl, answer .contains rfl⟩
  exact ⟨fitted, fun as_is => as_is.fittedText_eq some ▸ fitted⟩

/-- The first digits of a decimal are a decimal. -/
theorem compile_fittedText_of_digits :
    let freight : Decimal := ⟨false, 14051, 2, by decide, by decide⟩
    let r : Record := .table [("Freight", .decimal freight)]
    let keeps (op : Operator) : Bool := (compile {} [r]
      (.simple ⟨"Freight", op, .string "14", false⟩) { limit := none }).1 r
    keeps .startsWith = true ∧ keeps .endsWith = false ∧ keeps .contains = true := by
  intro freight r keeps
  have found : FieldTypes.typeAt { limit := none } [r] "Freight" = some ⟨.decimal, true⟩ := by
    decide
  have known : (r.get "Freight").isNull = false := by decide
  let part : Decimal := ⟨false, 14, 0, by decide, by decide⟩
  have as_is : FieldKind.decimal.Preserves "14" :=
    .written (w := .decimal part) rfl rfl rfl (fun none => by cases none) (by decide)
  obtain ⟨first, last, within⟩ :=
    (compile_fittedText {} [r] { limit := none } "Freight" found rfl (by decide) known).2 as_is
  exact ⟨first.trans (by decide), last.trans (by decide), within.trans (by decide)⟩

/-- Zeros in front of a number are not looked for, and a day is looked for as its midnight. -/
theorem compile_fittedText_not_of_notation :
    let number : Record := .table [("F", .int64 7)]
    let time : Record := .table [("F", .dateTime ⟨⟨2023, 8, 24, by decide⟩, 37230, 0, by decide,
      by decide⟩)]
    let keeps (r : Record) (op : Operator) (text : String) : Bool := (compile {} [r]
      (.simple ⟨"F", op, .string text, false⟩) { limit := none }).1 r
    (keeps number .contains "007" = true ∧ contains (number.get "F").display "007" = false) ∧
      keeps time .startsWith "2023-08-24" = false ∧
        startsWith (time.get "F").display "2023-08-24" = true := by
  decide +kernel

end FilterClause

end RecordQuery
