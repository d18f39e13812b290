import RecordQuery.Group.Format
import RecordQuery.Proofs.Text.Digits
import RecordQuery.Proofs.Text.Parts

/-!
# Separated thousands

A number in fixed notation is a sign, digits, and perhaps a point with more digits behind it. Where
its thousands are separated, the digits before the point stand in blocks of three, and what is left
over stands in front.

* `InThousands` are such blocks, and `exists_commas`: they are what stands between the commas;
* `filter_commas`: without its commas the text is what it was;
* `FixedNotation` is a number in fixed notation, and `groupThousands_text` what becomes of it.
-/

namespace RecordQuery

open Text

/-! ## Blocks of three -/

/-- Digits in blocks of three. The first block may be shorter. -/
structure InThousands (digits : List Char) (blocks : List (List Char)) : Prop where
  some : blocks ≠ []
  flatten_eq : blocks.flatten = digits
  head : ∀ first ∈ blocks.head?, 1 ≤ first.length ∧ first.length ≤ 3
  tail : ∀ block ∈ blocks.tail, block.length = 3

namespace InThousands

variable {c : Char} {digits first : List Char} {later : List (List Char)}

theorem single (c : Char) : InThousands [c] [[c]] :=
  ⟨by simp, rfl, by simp, by simp⟩

/-- The first block is as long as what is left over, or full where nothing is. -/
theorem length_first (h : InThousands digits (first :: later)) :
    digits.length % 3 = first.length % 3 ∧ 1 ≤ first.length ∧ first.length ≤ 3 := by
  have lengths : later.map List.length = List.replicate later.length 3 :=
    List.eq_replicate_iff.2 ⟨List.length_map _, by simpa using h.tail⟩
  have sum : digits.length = first.length + later.length * 3 := by
    rw [← h.flatten_eq, List.flatten_cons, List.length_append, List.length_flatten, lengths,
      List.sum_replicate_nat]
  exact ⟨by omega, h.head first rfl⟩

/-- A digit in front of full blocks begins a block. -/
theorem cons_full (h : InThousands digits (first :: later)) (full : digits.length % 3 = 0) :
    InThousands (c :: digits) ([c] :: first :: later) := by
  obtain ⟨rest, low, high⟩ := h.length_first
  have three : first.length = 3 := by omega
  exact ⟨by simp, congrArg (c :: ·) h.flatten_eq, by simp,
    List.forall_mem_cons.2 ⟨three, h.tail⟩⟩

/-- Another one goes to the first block. -/
theorem cons_short (h : InThousands digits (first :: later)) (short : digits.length % 3 ≠ 0) :
    InThousands (c :: digits) ((c :: first) :: later) := by
  obtain ⟨rest, low, high⟩ := h.length_first
  refine ⟨by simp, congrArg (c :: ·) h.flatten_eq, fun block mem => ?_, h.tail⟩
  obtain rfl : c :: first = block := Option.some.inj mem
  rw [List.length_cons]
  omega

end InThousands

/-- **Blocks of three** stand between the commas. -/
theorem exists_commas {digits : List Char} (some : digits ≠ []) :
    ∃ blocks, InThousands digits blocks ∧ commas digits = join [','] blocks := by
  induction digits with
  | nil => exact absurd rfl some
  | cons c digits ih =>
    by_cases last : digits = []
    · subst last
      exact ⟨[[c]], .single c, rfl⟩
    · obtain ⟨blocks, h, text⟩ := ih last
      obtain ⟨first, later, rfl⟩ := List.exists_cons_of_ne_nil h.some
      by_cases full : digits.length % 3 = 0
      · refine ⟨[c] :: first :: later, h.cons_full full, ?_⟩
        rw [commas, if_pos ⟨full, last⟩, text]
        rfl
      · refine ⟨(c :: first) :: later, h.cons_short full, ?_⟩
        rw [commas, if_neg fun both => full both.1, text]
        exact (join_append_cons [','] [c] first later).symm

/-- The commas are all that is added. -/
theorem filter_commas (digits : List Char) :
    (commas digits).filter (· != ',') = digits.filter (· != ',') := by
  induction digits with
  | nil => rfl
  | cons c digits ih =>
    rw [commas]
    split <;> simp [List.filter_cons, ih]

/-! ## Fixed notation -/

/-- A number in fixed notation. -/
structure FixedNotation where
  negative : Bool
  whole : List Char
  fraction : Option (List Char)
  whole_ne_nil : whole ≠ []
  whole_digits : ∀ c ∈ whole, isDigit c = true
  fraction_digits : ∀ digits ∈ fraction, ∀ c ∈ digits, isDigit c = true

namespace FixedNotation

/-- The point with the digits behind it, if there is one. -/
def point (n : FixedNotation) : List Char := n.fraction.elim [] ('.' :: ·)

def text (n : FixedNotation) : List Char := Binary.withSign n.negative (n.whole ++ n.point)

variable (n : FixedNotation)

theorem comma_notMem_whole : ',' ∉ n.whole := fun mem =>
  ne_of_isDigit (n.whole_digits _ mem) rfl rfl

theorem comma_notMem_point : ',' ∉ n.point := by
  rw [point]
  cases eq : n.fraction with
  | none => exact List.not_mem_nil
  | some digits =>
    rintro (_ | ⟨_, mem⟩)
    exact ne_of_isDigit (n.fraction_digits digits eq _ mem) rfl rfl

theorem cut_unsigned : cut '.' (n.whole ++ n.point) = (n.whole, n.fraction) := by
  have plain : '.' ∉ n.whole := fun mem => ne_of_isDigit (n.whole_digits _ mem) rfl rfl
  rw [point]
  cases n.fraction with
  | none => exact (congrArg (cut '.') (List.append_nil _)).trans (cut_of_notMem plain)
  | some digits => exact cut_append_cons plain digits

/-- Without a minus sign there is none at the front. -/
theorem unsigned_ne_cons (cs : List Char) : n.whole ++ n.point ≠ '-' :: cs := by
  intro same
  obtain ⟨c, digits, whole⟩ := List.exists_cons_of_ne_nil n.whole_ne_nil
  rw [whole, List.cons_append] at same
  have digit := n.whole_digits c (whole ▸ List.mem_cons_self)
  exact ne_of_isDigit digit rfl (List.cons.inj same).1

/-- Only the digits before the point change. -/
theorem groupThousands_text_eq :
    groupThousands n.text = Binary.withSign n.negative (commas n.whole ++ n.point) := by
  rw [text]
  cases n.negative with
  | true =>
    rw [Binary.withSign, Binary.withSign, if_pos rfl, if_pos rfl, groupThousands, cut_unsigned,
      point]
    cases n.fraction with
    | none => exact congrArg ('-' :: ·) (List.append_nil _).symm
    | some digits => rfl
  | false =>
    rw [Binary.withSign, Binary.withSign, if_neg Bool.false_ne_true, if_neg Bool.false_ne_true,
      groupThousands, cut_unsigned, point]
    · cases n.fraction with
      | none => exact (List.append_nil _).symm
      | some digits => rfl
    · exact n.unsigned_ne_cons

/-- Without its commas the text is what it was. -/
theorem filter_groupThousands : (groupThousands n.text).filter (· != ',') = n.text := by
  have kept {cs : List Char} (none : ',' ∉ cs) : cs.filter (· != ',') = cs :=
    List.filter_eq_self.2 fun c mem => bne_iff_ne.2 fun comma => none (comma ▸ mem)
  have unsigned : (commas n.whole ++ n.point).filter (· != ',') = n.whole ++ n.point := by
    rw [List.filter_append, filter_commas, kept n.comma_notMem_whole, kept n.comma_notMem_point]
  rw [groupThousands_text_eq, text]
  cases n.negative with
  | true => exact congrArg ('-' :: ·) unsigned
  | false => exact unsigned

/-- **Separated thousands.** Without its commas the text is what it was, and the commas stand in the
digits before the point only. The first block of these has one to three digits, and all others have
three. -/
theorem groupThousands_text :
    (groupThousands n.text).filter (· != ',') = n.text ∧
      ',' ∉ n.point ∧
      ∃ whole, groupThousands n.text = Binary.withSign n.negative (whole ++ n.point) ∧
        InThousands n.whole (splitOn ',' whole) := by
  refine ⟨n.filter_groupThousands, n.comma_notMem_point, commas n.whole,
    n.groupThousands_text_eq, ?_⟩
  obtain ⟨blocks, h, joined⟩ := exists_commas n.whole_ne_nil
  have digits : ∀ block ∈ blocks, ',' ∉ block := fun block listed mem =>
    n.comma_notMem_whole (h.flatten_eq ▸ List.mem_flatten.2 ⟨block, listed, mem⟩)
  rw [joined, splitOn_join h.some digits]
  exact h

/-- Millions with a sign and a fraction. -/
theorem groupThousands_text_of_millions :
    let n : FixedNotation :=
      { negative := true
        whole := ['1', '2', '3', '4', '5', '6', '7']
        fraction := some ['8', '9']
        whole_ne_nil := by decide
        whole_digits := List.all_eq_true.1 (by decide)
        fraction_digits := by
          rintro digits ⟨rfl⟩
          exact List.all_eq_true.1 (by decide) }
    n.text = "-1234567.89".toList ∧ groupThousands n.text = "-1,234,567.89".toList ∧
      (groupThousands n.text).filter (· != ',') = n.text ∧ ',' ∉ n.point ∧
      ∃ whole, groupThousands n.text = Binary.withSign true (whole ++ n.point) ∧
        InThousands n.whole (splitOn ',' whole) := by
  intro n
  exact ⟨by decide, by decide, n.groupThousands_text⟩

end FixedNotation

end RecordQuery
