import RecordQuery.Proofs.Calendar.ReadBack
import RecordQuery.Proofs.Number.ReadBack
import RecordQuery.Proofs.Value.Coercion
import RecordQuery.Proofs.Value.Integers
import RecordQuery.Proofs.Value.Texts
import RecordQuery.Proofs.Value.Visible

/-!
# Values read back from their texts

The text of a value is fitted to the kind of the value as this value, unless the text leaves
something out: the sign of a decimal zero, a leap second at an odd place, the seconds of an offset.

* `Guid.read?_display`: identifiers;
* `Value.Legible`: the text of a value leaves nothing out;
* `coerceForComparison_display`: legible values read back.
-/

namespace RecordQuery

open Text

/-! ## Identifiers -/

namespace Guid

theorem hexValue?_digitChar : ∀ n < 16, Json.hexValue? (Nat.digitChar n) = some n := by decide

theorem isBlank_digitChar : ∀ n < 16, isBlank (Nat.digitChar n) = false := by decide

theorem length_hexDigitsReverse (count n : ℕ) : (hexDigitsReverse count n).length = count := by
  induction count generalizing n with
  | zero => rfl
  | succ count ih => rw [hexDigitsReverse, List.length_cons, ih]

theorem isBlank_of_mem_hexDigits {count n : ℕ} {c : Char} (mem : c ∈ hexDigitsReverse count n) :
    isBlank c = false := by
  induction count generalizing n with
  | zero => cases mem
  | succ count ih =>
    rcases List.mem_cons.1 mem with rfl | rest
    · exact isBlank_digitChar _ (Nat.mod_lt _ (by decide))
    · exact ih rest

theorem hexNumber?_append (acc : ℕ) (cs ds : List Char) :
    hexNumber? acc (cs ++ ds) = (hexNumber? acc cs).bind fun n => hexNumber? n ds := by
  induction cs generalizing acc with
  | nil => rfl
  | cons c cs ih =>
    rw [List.cons_append, hexNumber?, hexNumber?, Option.bind_assoc]
    exact Option.bind_congr fun digit _ => ih _

/-- The digits of a number are read behind those of another one. -/
theorem hexNumber?_hexDigits {count n : ℕ} (lt : n < 16 ^ count) (acc : ℕ) :
    hexNumber? acc (hexDigitsReverse count n).reverse = some (acc * 16 ^ count + n) := by
  induction count generalizing n with
  | zero =>
    rw [Nat.pow_zero] at lt
    obtain rfl : n = 0 := by omega
    simp [hexDigitsReverse, hexNumber?]
  | succ count ih =>
    rw [Nat.pow_succ] at lt
    have front := ih ((Nat.div_lt_iff_lt_mul (by decide)).2 lt)
    have last := hexValue?_digitChar _ (Nat.mod_lt n (by decide))
    rw [hexDigitsReverse, List.reverse_cons, hexNumber?_append, front, Option.bind_some, hexNumber?,
      last, Option.bind_some, hexNumber?, Nat.pow_succ, ← Nat.mul_assoc]
    exact congrArg some (by omega)

theorem length_group {digits : List Char} (h : digits.length = 32) :
    (group digits).length = 36 := by
  simp [group, h]

theorem mem_group {digits : List Char} (plain : '-' ∉ digits) {c : Char} (h : c ∈ group digits) :
    c = '-' ∨ c ∈ digits := by
  by_cases dash : c = '-'
  · exact .inl dash
  · have kept : c ∈ (group digits).filter (· ≠ '-') := List.mem_filter.2 ⟨h, by simpa using dash⟩
    rw [filter_group plain] at kept
    exact .inr kept

/-- The digits of an identifier have no dashes. -/
theorem notMem_digits (g : Guid) : '-' ∉ (hexDigitsReverse 32 g.bits.toNat).reverse := fun mem =>
  notMem_hexDigitsReverse _ _ (List.mem_reverse.1 mem)

/-- **Identifiers read back.** -/
theorem read?_display (g : Guid) : read? g.display.toList = some g := by
  have length : (hexDigitsReverse 32 g.bits.toNat).reverse.length = 32 := by
    rw [List.length_reverse, length_hexDigitsReverse]
  have number : hexNumber? 0 (hexDigitsReverse 32 g.bits.toNat).reverse = some g.bits.toNat := by
    rw [hexNumber?_hexDigits g.bits.isLt, Nat.zero_mul, Nat.zero_add]
  have text : g.display.toList = group (hexDigitsReverse 32 g.bits.toNat).reverse :=
    String.toList_ofList
  have grouped : readGrouped? (group (hexDigitsReverse 32 g.bits.toNat).reverse) = some g := by
    rw [readGrouped?, filter_group g.notMem_digits, if_pos ⟨length_group length, rfl⟩, readPlain?,
      if_pos length, number, Option.map_some, BitVec.ofNat_toNat, BitVec.setWidth_eq]
  rw [text]
  unfold read?
  rw [length_group length]
  exact grouped

theorem trim_display (g : Guid) : trim g.display.toList = g.display.toList := by
  refine trim_of_all_not_blank fun c mem => ?_
  rw [display, String.toList_ofList] at mem
  rcases mem_group g.notMem_digits mem with rfl | digit
  · rfl
  · exact isBlank_of_mem_hexDigits (List.mem_reverse.1 digit)

end Guid

/-! ## Numbers -/

theorem isBlank_of_mem_withSign {negative : Bool} {cs : List Char} {c : Char}
    (chars : ∀ c ∈ cs, isDigit c = true ∨ c = '.') (mem : c ∈ Binary.withSign negative cs) :
    isBlank c = false := by
  have plain (h : c ∈ cs) : isBlank c = false := by
    rcases chars c h with digit | rfl
    · exact isBlank_of_isDigit digit
    · rfl
  cases negative with
  | false => exact plain mem
  | true =>
    rcases List.mem_cons.1 mem with rfl | rest
    · rfl
    · exact plain rest

theorem Binary.trim_display {f : Format} (few : f.FewDigits) (x : Binary f) :
    trim x.display.toList = x.display.toList := by
  cases x with
  | nan =>
    have name : (nan : Binary f).display = "NaN" := rfl
    rw [name]
    decide
  | infinite negative =>
    have name : (infinite (f := f) negative).display =
        String.ofList (withSign negative "inf".toList) :=
      rfl
    rw [name]
    cases negative <;> decide
  | finite negative units h =>
    have text : (finite negative units h).display.toList = withSign negative (magnitude f units) :=
      String.toList_ofList
    rw [text]
    exact trim_of_all_not_blank fun _ => isBlank_of_mem_withSign fun _ => mem_magnitude few

theorem Decimal.trim_display (d : Decimal) : trim d.display.toList = d.display.toList := by
  rw [display, String.toList_ofList]
  exact trim_of_all_not_blank fun _ => isBlank_of_mem_withSign fun _ => mem_placesDigits

/-- The text of an integer keeps no fraction in a comparison. -/
theorem fractionalLiteral?_intText (n : Int64) :
    fractionalLiteral? (.string (intText n.toInt)) = none := by
  have read : (readInt? (trim (intText n.toInt).toList)).bind int64? = some n := by
    rw [trim_intDigits, readInt?_intText]
    exact int64?_eq_some.2 rfl
  simp only [fractionalLiteral?, read]

/-! ## Values -/

namespace Value

/-- The text of a value leaves nothing out. -/
def Legible : Value → Prop
  | .decimal d => d.mantissa = 0 → d.negative = false
  | .dateTime t => t.Regular
  | .dateTimeOffset t => t.Regular
  | _ => True

end Value

variable {w : Value} {kind : FieldKind}

theorem toNumber?_display (own : w.kind? = some kind) (numeric : kind.isNumeric = true)
    (legible : w.Legible) : toNumber? (.string w.display) kind = some w := by
  have integer (n : Int) : readInt? (trim (intText n).toList) = some n := by
    rw [trim_intDigits, readInt?_intText]
  cases w with
  | int16 n =>
    cases own
    rw [Value.display, toNumber?, readNumeral?, integer, Option.bind_some, int16?_eq_some.2 rfl]
    rfl
  | int32 n =>
    cases own
    rw [Value.display, toNumber?, readNumeral?, integer, Option.bind_some, int32?_eq_some.2 rfl]
    rfl
  | int64 n =>
    cases own
    rw [Value.display, toNumber?, readNumeral?, integer, Option.bind_some, int64?_eq_some.2 rfl]
    rfl
  | float32 x =>
    cases own
    rw [Value.display, toNumber?, readNumeral?, x.trim_display Format.fewDigits_single,
      x.read?_display Format.fewDigits_single Format.inReach_single]
    rfl
  | float64 x =>
    cases own
    rw [Value.display, toNumber?, readNumeral?, x.trim_display Format.fewDigits_double,
      x.read?_display Format.fewDigits_double Format.inReach_double]
    rfl
  | decimal d =>
    cases own
    rw [Value.display, toNumber?, readNumeral?, d.trim_display, Decimal.read?_display legible]
    rfl
  | _ => cases own <;> cases numeric

/-- Only a text is shown as nothing, apart from nulls and members of enumerations. -/
theorem standsForNull_display (own : w.kind? = some kind) (named : kind.descriptor? = none) :
    standsForNull (.string w.display) kind = false := by
  rw [← Bool.not_eq_true, standsForNull_iff]
  rintro (null | ⟨empty, other⟩)
  · cases null
  · have nothing := Value.display_eq_empty_iff.1 (Value.string.inj empty)
    cases w with
    | null => cases own
    | string s => exact other (Option.some.inj own).symm
    | enum d n => cases own; cases named
    | _ => exact nothing

/-- The text of a value keeps no fraction for integers. -/
theorem fractionalLiteral?_display (own : w.kind? = some kind) :
    (if kind.isInteger then fractionalLiteral? (.string w.display) else none) = none := by
  cases integer : kind.isInteger with
  | false => exact if_neg Bool.false_ne_true
  | true =>
    obtain ⟨n, found⟩ : ∃ n, w.toInt? = some n := by
      cases w <;> first | exact ⟨_, rfl⟩ | (cases own <;> cases integer)
    rw [if_pos rfl, display_of_toInt? found, fractionalLiteral?_intText]

theorem coerceTo_display (own : w.kind? = some kind) (single : w.isContainer = false)
    (named : kind.descriptor? = none) (legible : w.Legible) :
    coerceTo (.string w.display) kind = .ok w := by
  have number (numeric : kind.isNumeric = true) : coerceTo (.string w.display) kind = .ok w := by
    have read := toNumber?_display own numeric legible
    have fitted : coerceNumber (.string w.display) kind = .ok w := by rw [coerceNumber, read]
    cases kind <;> first | exact fitted | cases numeric
  cases w with
  | null => cases own
  | bool b => cases own; cases b <;> rfl
  | int16 n | int32 n | int64 n | float32 x | float64 x | decimal d =>
    cases own
    exact number rfl
  | string s => cases own; rfl
  | guid g =>
    cases own
    rw [coerceTo, coerceGuid, Value.display, g.trim_display, g.read?_display]
  | dateTime t =>
    cases own
    rw [coerceTo, coerceDate, Value.display, DateLiteral.read?_wall legible]
    rfl
  | dateTimeOffset t =>
    cases own
    rw [coerceTo, coerceDate, Value.display, DateLiteral.read?_zoned legible]
    rfl
  | enum d n => cases own; cases named
  | list items => cases single
  | object fields => cases single

/-- **A legible value is read back** from its text. Lists, objects and members of enumerations are
not read from texts. -/
theorem coerceForComparison_display (own : w.kind? = some kind) (single : w.isContainer = false)
    (named : kind.descriptor? = none) (legible : w.Legible) :
    coerceForComparison (.string w.display) (.of kind) = .ok w := by
  have same : (TypeInfo.of kind).kind = kind := rfl
  have text : coerce (.string w.display) (.of kind) = coerceTo (.string w.display) kind := by
    rw [coerce, same, standsForNull_display own named, if_neg Bool.false_ne_true]
    split
    · next kept =>
      obtain rfl : FieldKind.string = kind := Option.some.inj kept
      rfl
    · rfl
  rw [coerceForComparison, same, fractionalLiteral?_display own]
  exact text.trans (coerceTo_display own single named legible)

end RecordQuery
