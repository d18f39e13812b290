import RecordQuery.Proofs.Filter.OwnValue
import RecordQuery.Proofs.Text.LowerCase

/-!
# Ignoring case

A clause that ignores case compares texts in lower case. Equal texts stay equal. A part of a text
need not be a part of it in lower case: a capital sigma at its end is a final sigma in the part, and
may be none in the text. As long as no sigma differs, ignoring case only keeps more records.

* `Comparison.texts_text`, `Comparison.display_of_equals` and `Comparison.equals_of_display`: how
  values are compared with a text;
* `FilterClause.exists_compile_eq_parts`: what is asked of the text of a field;
* `FilterClause.compile_ignoreCase`: what is kept with case is kept without it.
-/

namespace RecordQuery

open Text

/-- Only a text equals a text. -/
theorem Value.display_of_looselyEqual {v : Value} {s : String}
    (equal : v.looselyEqual (.string s) = true) : v.display = s := by
  cases v with
  | string text => exact Std.LawfulEqOrd.eq_of_compare (Option.some.inj (beq_iff_eq.1 equal))
  | _ => cases equal

namespace Comparison

variable {c : Comparison} {field : Value} {s : String}

theorem textOr_empty (field : Value) : textOr "" field = field.display := by
  cases field <;> rfl

/-- The texts of a field and a text are folded alike. -/
theorem texts_text (c : Comparison) (field : Value) (s : String) :
    c.texts .string field (.string s) = (c.folded field.display, c.folded s) := by
  have blank :
      (if FieldKind.string = .string && (Value.string s).isNull then c.blankMarker else "") = "" :=
    rfl
  rw [texts, blank, textOr_empty, textOr_empty]
  rfl

/-- With case, only what shows a text equals it. -/
theorem display_of_equals (exact : c.ignoreCase = false)
    (equal : c.equals .string field (.string s) false = true) : field.display = s := by
  rw [equals, exact, Bool.and_false, if_neg Bool.false_ne_true] at equal
  cases null : field.isNull with
  | true =>
    rw [null] at equal
    cases equal
  | false =>
    rw [null] at equal
    exact Value.display_of_looselyEqual equal

/-- Without case, what shows a text equals it. -/
theorem equals_of_display (ignores : c.ignoreCase = true) (same : field.display = s) :
    c.equals .string field (.string s) false = true := by
  have literal : (Value.string s).isNull = false := rfl
  have text : textOr c.blankMarker (.string s) = s := textOr_of_not_isNull literal
  rw [equals, ignores, literal, text]
  simp only [decide_true, Bool.and_self, if_true, Bool.false_eq_true, if_false, textOr_empty, same,
    beq_self_eq_true]

end Comparison

namespace FilterClause

variable {records : List Record} {types : FieldTypes} {type : TypeInfo} {field : String}
    {r : Record}

/-- **What is asked of the text of a field.** A null has the empty text. Behind a null, nothing is
inside of it. -/
theorem exists_compile_eq_parts (settings : Settings)
    (found : types.typeAt records field = some type) (texts : type.kind = .string)
    (present : r.resolve (.parse field) ≠ .missing) (part : String) :
    let keeps (op : Operator) (ignoreCase : Bool) : Bool :=
      (compile settings records (.simple ⟨field, op, .string part, ignoreCase⟩) types).1 r
    let text := (r.get field).display
    (keeps .equals false = true → text = part) ∧ (text = part → keeps .equals true = true) ∧
    ∃ stopped, ∀ ignoreCase, let folded (s : String) := if ignoreCase then lower s else s
      keeps .startsWith ignoreCase = startsWith (folded text) (folded part) ∧
      keeps .endsWith ignoreCase = endsWith (folded text) (folded part) ∧
      keeps .contains ignoreCase = (!stopped && contains (folded text) (folded part)) := by
  intro keeps text
  have own : (Value.string part).kind? = some type.kind := by rw [texts]; rfl
  obtain ⟨stopped, -, answer⟩ := exists_compile_eq_testKind settings found own present
  rw [texts] at answer
  refine ⟨fun kept => ?_, fun same => ?_, stopped, fun ignoreCase => ⟨?_, ?_, ?_⟩⟩
  · exact Comparison.display_of_equals rfl ((answer .equals false).symm.trans kept)
  · exact (answer .equals true).trans (Comparison.equals_of_display rfl same)
  · refine (answer .startsWith ignoreCase).trans ?_
    rw [Comparison.testKind, SimpleClause.comparison, Comparison.texts_text]
    rfl
  · refine (answer .endsWith ignoreCase).trans ?_
    rw [Comparison.testKind, SimpleClause.comparison, Comparison.texts_text]
    rfl
  · refine (answer .contains ignoreCase).trans ?_
    rw [Comparison.testKind, SimpleClause.comparison, Comparison.texts_text]
    cases stopped <;> rfl

/-- **Ignoring case only keeps more**, as far as capital sigmas allow. Take the clauses with a text
on a field of texts. With `equals`, what is kept with case is kept without it. With `startsWith` and
`endsWith`, it is kept without case exactly if every capital sigma of the literal ends a word where
the literal stands in the text of the field if it ends one in the literal alone. With `contains` it
is enough that the literal stands so somewhere. So all four keep more if no capital sigma is in the
literal. -/
theorem compile_ignoreCase (settings : Settings) (records : List Record) (types : FieldTypes)
    (field part : String) {type : TypeInfo} (found : types.typeAt records field = some type)
    (texts : type.kind = .string) (r : Record) :
    let keeps (op : Operator) (ignoreCase : Bool) : Bool :=
      (compile settings records (.simple ⟨field, op, .string part, ignoreCase⟩) types).1 r
    let text := (r.get field).display
    (keeps .equals false = true → keeps .equals true = true) ∧
    (keeps .startsWith false = true → ∃ after, text.toList = part.toList ++ after ∧
      (keeps .startsWith true = true ↔ KeepsSigmas [] part.toList after)) ∧
    (keeps .endsWith false = true → ∃ before, text.toList = before ++ part.toList ∧
      (keeps .endsWith true = true ↔ KeepsSigmas before.reverse part.toList [])) ∧
    (keeps .contains false = true →
      (∃ before after, text.toList = before ++ part.toList ++ after) ∧
      ∀ before after, text.toList = before ++ part.toList ++ after →
        KeepsSigmas before.reverse part.toList after → keeps .contains true = true) ∧
    ('Σ' ∉ part.toList → ∀ op ∈ [Operator.equals, .startsWith, .endsWith, .contains],
      keeps op false = true → keeps op true = true) := by
  intro keeps text
  by_cases present : r.resolve (.parse field) = .missing
  · have none (op : Operator) (ignoreCase : Bool) : keeps op ignoreCase ≠ true :=
      ne_true_of_eq_false (compile_eq_false settings _ (.inr present))
    exact ⟨fun kept => absurd kept (none _ _), fun kept => absurd kept (none _ _),
      fun kept => absurd kept (none _ _), fun kept => absurd kept (none _ _),
      fun _ _ _ kept => absurd kept (none _ _)⟩
  obtain ⟨exact, equal, stopped, parts⟩ :=
    exists_compile_eq_parts settings found texts present part
  obtain ⟨front, back, inside⟩ := parts false
  obtain ⟨front', back', inside'⟩ :
      keeps .startsWith true = startsWith (lower text) (lower part) ∧
        keeps .endsWith true = endsWith (lower text) (lower part) ∧
        keeps .contains true = (!stopped && contains (lower text) (lower part)) := parts true
  have equality (kept : keeps .equals false = true) : keeps .equals true = true :=
    equal (exact kept)
  have starts (kept : keeps .startsWith false = true) : ∃ after,
      text.toList = part.toList ++ after ∧
        (keeps .startsWith true = true ↔ KeepsSigmas [] part.toList after) := by
    obtain ⟨after, cut⟩ := startsWith_iff.1 (front.symm.trans kept)
    rw [front']
    exact ⟨after, cut, startsWith_lower_iff cut⟩
  have ends (kept : keeps .endsWith false = true) : ∃ before,
      text.toList = before ++ part.toList ∧
        (keeps .endsWith true = true ↔ KeepsSigmas before.reverse part.toList []) := by
    obtain ⟨before, cut⟩ := endsWith_iff.1 (back.symm.trans kept)
    rw [back']
    exact ⟨before, cut, endsWith_lower_iff cut⟩
  have within (kept : keeps .contains false = true) :
      (∃ before after, text.toList = before ++ part.toList ++ after) ∧
      ∀ before after, text.toList = before ++ part.toList ++ after →
        KeepsSigmas before.reverse part.toList after → keeps .contains true = true := by
    obtain ⟨reached, found⟩ := Bool.and_eq_true_iff.1 (inside.symm.trans kept)
    refine ⟨contains_iff.1 found, fun before after cut sigmas => ?_⟩
    exact inside'.trans (Bool.and_eq_true_iff.2 ⟨reached, contains_lower cut sigmas⟩)
  refine ⟨equality, starts, ends, within, fun none op mem kept => ?_⟩
  simp only [List.mem_cons, List.not_mem_nil, or_false] at mem
  rcases mem with rfl | rfl | rfl | rfl
  · exact equality kept
  · obtain ⟨after, -, kept'⟩ := starts kept
    exact kept'.2 (.of_not_mem none)
  · obtain ⟨before, -, kept'⟩ := ends kept
    exact kept'.2 (.of_not_mem none)
  · obtain ⟨⟨before, after, cut⟩, kept'⟩ := within kept
    exact kept' before after cut (.of_not_mem none)

/-- A word that ends in a sigma is found in a text, also without case, where no letter follows it.
-/
theorem compile_ignoreCase_of_word :
    let r : Record := .table [("F", .string "Η ΟΔΟΣ ΑΒ")]
    let keeps (ignoreCase : Bool) : Bool := (compile {} [r]
      (.simple ⟨"F", .contains, .string "ΟΔΟΣ", ignoreCase⟩) { limit := none }).1 r
    keeps false = true ∧ keeps true = true := by
  intro r keeps
  have found : FieldTypes.typeAt { limit := none } [r] "F" = some ⟨.string, true⟩ := by decide
  have kept : keeps false = true := by decide
  obtain ⟨-, -, -, inside, -⟩ := compile_ignoreCase {} [r] { limit := none } "F" "ΟΔΟΣ" found rfl r
  have cut : (r.get "F").display.toList = ['Η', ' '] ++ "ΟΔΟΣ".toList ++ [' ', 'Α', 'Β'] := by
    decide
  have sigmas : KeepsSigmas [' ', 'Η'] "ΟΔΟΣ".toList [' ', 'Α', 'Β'] :=
    lowerWithin_eq_lowerFrom_iff.1 (by decide +kernel)
  exact ⟨kept, (inside kept).2 _ _ cut sigmas⟩

/-- A capital sigma that ends the literal, but no word of the text, is found with case alone. -/
theorem compile_ignoreCase_not_of_final_sigma :
    let r : Record := .table [("F", .string "ΑΣΑ")]
    let keeps (op : Operator) (ignoreCase : Bool) : Bool := (compile {} [r]
      (.simple ⟨"F", op, .string "ΑΣ", ignoreCase⟩) { limit := none }).1 r
    FieldTypes.typeAt { limit := none } [r] "F" = some ⟨.string, true⟩ ∧
      keeps .startsWith false = true ∧ keeps .startsWith true = false ∧
      keeps .contains false = true ∧ keeps .contains true = false := by
  decide +kernel

end FilterClause

end RecordQuery
