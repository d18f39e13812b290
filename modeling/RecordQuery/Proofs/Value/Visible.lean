import RecordQuery.Proofs.Number.IntegerText
import RecordQuery.Proofs.Text.Digits
import RecordQuery.Value.Display

/-!
# Values that are shown as nothing

Hardly any value has the empty text.

* `Text.ofList_ne_empty`: a text with a character in it;
* `Binary.display_ne_empty`, `Decimal.display_ne_empty`, `Json.compact_array_ne_empty` and
  `Json.compact_object_ne_empty`: numbers and documents are shown;
* `Value.ShowsNothing` are the values that are not (`Value.display_eq_empty_iff`).
-/

namespace RecordQuery

open Text

namespace Text

theorem ofList_ne_empty {cs : List Char} (h : cs ≠ []) : String.ofList cs ≠ "" :=
  fun empty => h (String.ofList_injective empty)

theorem append_cons_ne_nil (before : List Char) (c : Char) (after : List Char) :
    before ++ c :: after ≠ [] :=
  List.append_ne_nil_of_right_ne_nil _ (List.cons_ne_nil _ _)

theorem append_ne_empty {a b : String} (h : a ≠ "") : a ++ b ≠ "" := by
  intro empty
  have chars : (a ++ b).toList = [] := by rw [empty]; rfl
  rw [String.toList_append, List.append_eq_nil_iff] at chars
  exact h (String.toList_injective chars.1)

end Text

/-! ## Numbers -/

theorem DecimalDigits.plain_ne_nil (d : DecimalDigits) : d.plain ≠ [] := by
  unfold plain
  split
  · exact List.cons_ne_nil _ _
  · next p _ =>
    by_cases whole : p = 0
    · rw [if_pos whole]
      exact List.cons_ne_nil _ _
    · rw [if_neg whole]
      split
      · -- as many characters as there are digits before the point
        next short =>
        refine List.ne_nil_of_length_pos ?_
        rw [List.length_append, List.length_replicate]
        omega
      · exact append_cons_ne_nil _ _ _

namespace Binary

theorem withSign_ne_nil (negative : Bool) {cs : List Char} (h : cs ≠ []) :
    withSign negative cs ≠ [] := by
  cases negative with
  | false => exact h
  | true => exact List.cons_ne_nil _ _

theorem display_ne_empty {f : Format} (x : Binary f) : x.display ≠ "" := by
  cases x with
  | nan =>
    intro empty
    have name : "NaN" = "" := empty
    exact absurd name (by decide)
  | infinite negative =>
    have name : "inf".toList ≠ [] := by decide
    exact ofList_ne_empty (withSign_ne_nil negative name)
  | finite negative units bound =>
    refine ofList_ne_empty (withSign_ne_nil negative ?_)
    split
    · exact List.cons_ne_nil _ _
    · exact DecimalDigits.plain_ne_nil _

theorem placesDigits_ne_nil (places n : Nat) : placesDigits places n ≠ [] := by
  unfold placesDigits
  dsimp only
  split
  · next none =>
    subst none
    refine List.ne_nil_of_length_pos ?_
    have long := le_length_padDigits (0 + 1) n
    rw [List.length_take]
    omega
  · exact append_cons_ne_nil _ _ _

end Binary

theorem Decimal.display_ne_empty (d : Decimal) : d.display ≠ "" :=
  ofList_ne_empty (Binary.withSign_ne_nil _ (Binary.placesDigits_ne_nil _ _))

/-! ## Other values -/

theorem Guid.display_ne_empty (g : Guid) : g.display ≠ "" :=
  ofList_ne_empty (append_cons_ne_nil _ _ _)

theorem LocalDateTime.displayDigits_ne_nil (t : LocalDateTime) : t.displayDigits ≠ [] := by
  rw [displayDigits, List.append_assoc, List.cons_append]
  exact append_cons_ne_nil _ _ _

theorem Json.compact_array_ne_empty (items : List Json) : (Json.array items).compact ≠ "" := by
  rw [Json.compact, String.append_assoc]
  exact append_ne_empty (by decide)

theorem Json.compact_object_ne_empty (members : List (String × Json)) :
    (Json.object members).compact ≠ "" := by
  rw [Json.compact, String.append_assoc]
  exact append_ne_empty (by decide)

namespace Value

/-- The values that are shown as nothing: null, the empty text, and an enum value whose member has
the empty name for the outside. -/
def ShowsNothing : Value → Prop
  | .null => True
  | .string s => s = ""
  | .enum d n => enumText d n = ""
  | _ => False

/-- **Few values have the empty text.** -/
theorem display_eq_empty_iff {v : Value} : v.display = "" ↔ v.ShowsNothing := by
  cases v with
  | null => exact iff_of_true rfl trivial
  | string s | enum d n => exact Iff.rfl
  | bool b => exact iff_of_false (by cases b <;> decide) id
  | int16 n | int32 n | int64 n => exact iff_of_false (intText_ne_empty _) id
  | float32 x | float64 x => exact iff_of_false x.display_ne_empty id
  | decimal d => exact iff_of_false d.display_ne_empty id
  | guid g => exact iff_of_false g.display_ne_empty id
  | dateTime t => exact iff_of_false (ofList_ne_empty t.displayDigits_ne_nil) id
  | dateTimeOffset t =>
    have some : t.displayDigits ≠ [] :=
      List.append_ne_nil_of_left_ne_nil t.wall.displayDigits_ne_nil _
    exact iff_of_false (ofList_ne_empty some) id
  | list items => exact iff_of_false (Json.compact_array_ne_empty _) id
  | object fields => exact iff_of_false (Json.compact_object_ne_empty _) id

end Value

end RecordQuery
