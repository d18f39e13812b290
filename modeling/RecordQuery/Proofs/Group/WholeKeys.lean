import RecordQuery.Proofs.Group.Identity
import RecordQuery.Proofs.Group.Thousands
import RecordQuery.Proofs.Number.Integral

/-!
# Integer keys without decimals

A number format writes an integer as the number of 64 bits that is nearest. Without decimals the
text is that of an integer, which is the one to be written only as far as 53 bits suffice. Integers
that have one nearest number share a key.

* `NumberFormat.apply_ofInt`: an integer without decimals, and `NumberFormat.apply_ofInt_inj`: which
  integers share a text;
* `Grouping.keys_of_int64`: the keys of integers, and which of them share a group.
-/

namespace RecordQuery

open Text

/-! ## Texts -/

namespace FixedNotation

/-- An integer in fixed notation. -/
def ofInt (n : Int) : FixedNotation where
  negative := n < 0
  whole := natDigits n.natAbs
  fraction := none
  whole_ne_nil := Nat.toDigits_ne_nil
  whole_digits _ mem := isDigit_of_mem_natDigits mem
  fraction_digits _ none := nomatch none

theorem text_ofInt (n : Int) : (ofInt n).text = intDigits n := by
  rw [intDigits_eq]
  exact congrArg (Binary.withSign _) (List.append_nil _)

end FixedNotation

/-- Separated thousands tell integers apart. -/
theorem groupThousands_intDigits_inj {m n : Int} :
    groupThousands (intDigits m) = groupThousands (intDigits n) ↔ m = n := by
  constructor
  · intro same
    have plain := congrArg (List.filter (· != ',')) same
    rw [← FixedNotation.text_ofInt, ← FixedNotation.text_ofInt, FixedNotation.filter_groupThousands,
      FixedNotation.filter_groupThousands, FixedNotation.text_ofInt,
      FixedNotation.text_ofInt] at plain
    exact intText_inj.1 (congrArg String.ofList plain)
  · rintro rfl
    rfl

/-- The blocks of an integer stand between the commas. -/
theorem exists_groupThousands_intDigits (n : Int) :
    ∃ blocks, InThousands (natDigits n.natAbs) blocks ∧
      groupThousands (intDigits n) = Binary.withSign (n < 0) (join [','] blocks) := by
  obtain ⟨blocks, h, joined⟩ := exists_commas (FixedNotation.ofInt n).whole_ne_nil
  refine ⟨blocks, h, ?_⟩
  rw [← FixedNotation.text_ofInt, FixedNotation.groupThousands_text_eq, joined]
  exact congrArg (Binary.withSign _) (List.append_nil _)

namespace NumberFormat

variable {number : NumberFormat} {m n : Int}

/-- **An integer in a format without decimals** is written as the nearest one with 53 bits. -/
theorem apply_ofInt (whole : number.places = 0) (size : n.natAbs ≤ 2 ^ 64) :
    number.apply (.ofInt .double n) =
      if number.grouped then .ofList (groupThousands (intDigits (nearestDouble n)))
      else intText (nearestDouble n) := by
  rw [apply, whole, Binary.fixed_ofInt size, intText, String.toList_ofList]

/-- Integers share a text if they have one nearest number. -/
theorem apply_ofInt_inj (whole : number.places = 0) (hm : m.natAbs ≤ 2 ^ 64)
    (hn : n.natAbs ≤ 2 ^ 64) :
    number.apply (.ofInt .double m) = number.apply (.ofInt .double n) ↔
      nearestDouble m = nearestDouble n := by
  rw [apply_ofInt whole hm, apply_ofInt whole hn]
  cases number.grouped with
  | true => exact String.ofList_inj.trans groupThousands_intDigits_inj
  | false => exact intText_inj

end NumberFormat

/-! ## Keys -/

variable {format : String} {number : NumberFormat}

theorem Value.format_int64 (read : NumberFormat.parse? format = some number) (n : Int64) :
    (Value.int64 n).format format = number.apply (.ofInt .double n.toInt) := by
  rw [Value.format, read]
  rfl

theorem natAbs_toInt_le (n : Int64) : n.toInt.natAbs ≤ 2 ^ 64 := by
  have low := n.le_toInt
  have high := n.toInt_lt
  omega

namespace Grouping

/-- Two integers share a group if they have one nearest number. -/
theorem together_iff_nearestDouble (settings : Settings) {options : GroupOptions} {field : String}
    {records : List Record} {r s : Record} {n m : Int64} (types : FieldTypes)
    (formatted : Fields.get? field options.formats = some format)
    (read : NumberFormat.parse? format = some number) (whole : number.places = 0)
    (hr : r ∈ records) (hs : s ∈ records) (hn : r.valueAt (.parse field) = .int64 n)
    (hm : s.valueAt (.parse field) = .int64 m) :
    (group settings options (.records records) field types).1.Together r s ↔
      nearestDouble n.toInt = nearestDouble m.toInt := by
  refine (together_iff_format settings formatted hr hs hn hm rfl rfl types).trans ?_
  rw [Value.format_int64 read, Value.format_int64 read]
  exact NumberFormat.apply_ofInt_inj whole (natAbs_toInt_le n) (natAbs_toInt_le m)

/-- **Keys of integers** without decimals are the digits of the nearest number with 53 bits, with
commas between blocks of three or without. So an integer is written exactly if it has no more bits
before its zeros, as all up to `2 ^ 53` have, and two records share a group if the numbers nearest
their integers agree. -/
theorem keys_of_int64 (n : Int64) :
    (Value.int64 n).format "F0" = intText (nearestDouble n.toInt) ∧
      (∃ blocks, InThousands (natDigits (nearestDouble n.toInt).natAbs) blocks ∧
        (Value.int64 n).format "N0" =
          .ofList (Binary.withSign (nearestDouble n.toInt < 0) (join [','] blocks))) ∧
      (∃ k : ℤ, nearestDouble n.toInt = k * (2 ^ Format.double.spacing n.toInt.natAbs : ℕ) ∧
        IsNearest (n.toInt / (2 ^ Format.double.spacing n.toInt.natAbs : ℕ)) k) ∧
      (nearestDouble n.toInt = n.toInt ↔ ∃ significand shift,
        significand < 2 ^ 53 ∧ n.toInt.natAbs = significand * 2 ^ shift) ∧
      (n.toInt.natAbs ≤ 2 ^ 53 → nearestDouble n.toInt = n.toInt) ∧
      ∀ (settings : Settings) (options : GroupOptions) (field format : String)
        (number : NumberFormat) (records : List Record) (r s : Record) (m : Int64)
        (types : FieldTypes),
        Fields.get? field options.formats = some format →
        NumberFormat.parse? format = some number → number.places = 0 →
        r ∈ records → s ∈ records →
        r.valueAt (.parse field) = .int64 n → s.valueAt (.parse field) = .int64 m →
        ((group settings options (.records records) field types).1.Together r s ↔
          nearestDouble n.toInt = nearestDouble m.toInt) := by
  refine ⟨?_, ?_, isNearest_nearestDouble _, nearestDouble_eq_self_iff, nearestDouble_of_le, ?_⟩
  · have read : NumberFormat.parse? "F0" = some ⟨false, 0⟩ := by decide
    rw [Value.format_int64 read, NumberFormat.apply_ofInt rfl (natAbs_toInt_le n)]
    rfl
  · have read : NumberFormat.parse? "N0" = some ⟨true, 0⟩ := by decide
    obtain ⟨blocks, h, text⟩ := exists_groupThousands_intDigits (nearestDouble n.toInt)
    refine ⟨blocks, h, ?_⟩
    rw [Value.format_int64 read, NumberFormat.apply_ofInt rfl (natAbs_toInt_le n), ← text]
    rfl
  · intro settings options field format number records r s m types
    exact together_iff_nearestDouble settings types

/-- Below `2 ^ 53` an integer is written as it is and told from its neighbour. -/
theorem keys_of_int64_of_million :
    let million : Record := .table [("N", .int64 1000000)]
    let more : Record := .table [("N", .int64 1000001)]
    let options : GroupOptions := { formats := [("N", "N0")] }
    (Value.int64 1000000).format "F0" = "1000000" ∧
      ¬ (group {} options (.records [million, more]) "N" ⟨none, []⟩).1.Together million more := by
  intro million more options
  obtain ⟨text, -, -, -, same, groups⟩ := keys_of_int64 1000000
  have near : nearestDouble (1000000 : Int64).toInt = 1000000 := same (by decide)
  refine ⟨text.trans (congrArg intText near), fun together => ?_⟩
  have nearest := (groups {} options "N" "N0" ⟨true, 0⟩ [million, more] million more 1000001
    ⟨none, []⟩ rfl (by decide) rfl (by simp) (by simp) rfl rfl).1 together
  exact absurd nearest (by decide +kernel)

/-- Beyond `2 ^ 53` an odd integer is written as a neighbour of it, and shares the group of that. -/
theorem keys_of_int64_not_apart :
    let odd : Record := .table [("N", .int64 9007199254740993)]
    let even : Record := .table [("N", .int64 9007199254740992)]
    let options : GroupOptions := { formats := [("N", "N0")] }
    (Value.int64 9007199254740993).format "F0" = "9007199254740992" ∧
      (Value.int64 9007199254740993).format "N0" = "9,007,199,254,740,992" ∧
      (group {} options (.records [odd, even]) "N" ⟨none, []⟩).1.Together odd even := by
  intro odd even options
  have near : nearestDouble (9007199254740993 : Int64).toInt = 9007199254740992 := by
    decide +kernel
  have plain : NumberFormat.parse? "F0" = some ⟨false, 0⟩ := by decide
  have grouped : NumberFormat.parse? "N0" = some ⟨true, 0⟩ := by decide
  refine ⟨?_, ?_, ?_⟩
  · rw [Value.format_int64 plain, NumberFormat.apply_ofInt rfl (natAbs_toInt_le _), near]
    decide +kernel
  · rw [Value.format_int64 grouped, NumberFormat.apply_ofInt rfl (natAbs_toInt_le _), near]
    decide +kernel
  · have same : nearestDouble (9007199254740992 : Int64).toInt = 9007199254740992 := by
      decide +kernel
    have listed : odd ∈ [odd, even] ∧ even ∈ [odd, even] := by simp
    exact (together_iff_nearestDouble {} ⟨none, []⟩ rfl grouped rfl listed.1 listed.2 rfl rfl).2
      (near.trans same.symm)

end Grouping

end RecordQuery
