import RecordQuery.Proofs.Number.IntegerText
import RecordQuery.Proofs.Value.SortOrder
import RecordQuery.Value.Display

/-!
# Integers of all widths

The width of an integer shows in its kind alone: integers are written, compared and equal as the
numbers they are.

* `display_of_toInt?`: the text of an integer;
* `compare?_of_toInt?` and `looselyEqual_of_toInt?`: two integers compared;
* `Value.looselyEqual_eq_compare?`: equality of a value without children, under the natural order.
-/

namespace RecordQuery

variable {v w : Value} {m n : Int64}

theorem isNull_of_toInt? (h : v.toInt? = some n) : v.isNull = false := by
  cases v <;> first | rfl | cases h

theorem kind?_of_toInt? (h : v.toInt? = some n) :
    ∃ kind, v.kind? = some kind ∧ kind.isInteger = true := by
  cases v <;> first | exact ⟨_, rfl, rfl⟩ | cases h

theorem display_of_toInt? (h : v.toInt? = some n) : v.display = intText n.toInt := by
  cases v with
  | int16 x => obtain rfl := Option.some.inj h; rw [Value.display, Int16.toInt_toInt64]
  | int32 x => obtain rfl := Option.some.inj h; rw [Value.display, Int32.toInt_toInt64]
  | int64 x => obtain rfl := Option.some.inj h; rfl
  | _ => cases h

theorem compare?_of_toInt? (hv : v.toInt? = some n) (hw : w.toInt? = some m) :
    v.compare? w = some (compare n.toInt m.toInt) := by
  have numbers (u : Value) {k : Int64} (h : u.toInt? = some k) : u.isNumeric = true := by
    cases u <;> first | rfl | cases h
  rw [Value.compare?_of_numeric (numbers v hv) (numbers w hw), Value.compareNumbers?_eq, hv, hw]

/-- What a value without children equals, if it is not null, it equals under the natural order. -/
theorem Value.looselyEqual_eq_compare? (known : v.isNull = false) (single : v.isContainer = false) :
    v.looselyEqual w = (v.compare? w == some .eq) := by
  cases v with
  | null => cases known
  | list items => cases single
  | object fields => cases single
  | _ => cases w <;> rfl

theorem looselyEqual_of_toInt? (hv : v.toInt? = some n) (hw : w.toInt? = some m) :
    v.looselyEqual w = (compare n.toInt m.toInt == .eq) := by
  have single : v.isContainer = false := by
    cases v <;> first | rfl | cases hv
  rw [Value.looselyEqual_eq_compare? (isNull_of_toInt? hv) single, compare?_of_toInt? hv hw]
  rfl

end RecordQuery
