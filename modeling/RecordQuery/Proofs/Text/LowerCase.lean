import RecordQuery.Proofs.Text.Parts
import RecordQuery.Text.LowerCase

/-!
# Lower case of parts of texts

Every character but the capital sigma has one lower case. A sigma has two, as long as each other,
and which one is taken depends on the letters around it. So the lower case of a part of a text
stands in the lower case of the text, unless a sigma of the part ends a word in one of them alone.

* `lowerWithin`: the lower case of a part of a text, and `lowerFrom_append`, how those of two parts
  are put together;
* `KeepsSigmas`: the sigmas of a part are written in the text as they are in the part;
* `lowerWithin_eq_iff`: only then is the part written in the text as it is alone;
* `startsWith_lower_iff`, `endsWith_lower_iff` and `contains_lower`: parts of texts in lower case.
-/

namespace RecordQuery.Text

/-- Whether a sigma ends a word, with the characters before it in reverse. -/
def endsWord (before after : List Char) : Bool := leadsToCased before && !leadsToCased after

/-- The lower case of a character between others, those before it in reverse. -/
def lowerAt (before : List Char) (c : Char) (after : List Char) : List Char :=
  if c = 'Σ' then if endsWord before after then ['ς'] else ['σ'] else lowerChar c

/-- The lower case of a part of a text, between the characters `before` it, in reverse, and those
`after` it. -/
def lowerWithin (before : List Char) : List Char → List Char → List Char
  | [], _ => []
  | c :: cs, after => lowerAt before c (cs ++ after) ++ lowerWithin (c :: before) cs after

/-- Every sigma of a part, which stands between `before`, in reverse, and `after` in a text, ends a
word in the text exactly if it does in the part alone. -/
def KeepsSigmas (before part after : List Char) : Prop :=
  ∀ front back, part = front ++ 'Σ' :: back →
    endsWord (front.reverse ++ before) (back ++ after) = endsWord front.reverse back

variable {before after cs : List Char} {text part : String}

/-! ## Parts in their places -/

/-- The lower case of a text is that of its first part, followed by that of the rest. -/
theorem lowerFrom_append (before cs after : List Char) :
    lowerFrom before (cs ++ after) =
      lowerWithin before cs after ++ lowerFrom (cs.reverse ++ before) after := by
  induction cs generalizing before with
  | nil => rfl
  | cons c cs ih =>
    rw [List.cons_append, lowerFrom, ih (c :: before), lowerWithin, List.reverse_cons,
      List.append_assoc _ [c], List.singleton_append, List.append_assoc]
    rfl

/-- A part that nothing comes after is the end of the text. -/
theorem lowerWithin_nil (before cs : List Char) :
    lowerWithin before cs [] = lowerFrom before cs := by
  have whole := lowerFrom_append before cs []
  rw [List.append_nil, lowerFrom, List.append_nil] at whole
  exact whole.symm

/-- How long the lower case of a character is does not depend on the characters around it. -/
theorem length_lowerAt (before before' : List Char) (c : Char) (after after' : List Char) :
    (lowerAt before c after).length = (lowerAt before' c after').length := by
  unfold lowerAt
  by_cases sigma : c = 'Σ'
  · rw [if_pos sigma, if_pos sigma]
    cases endsWord before after <;> cases endsWord before' after' <;> rfl
  · rw [if_neg sigma, if_neg sigma]

/-- Nor does that of a part depend on what stands around it. -/
theorem length_lowerWithin (before before' cs after after' : List Char) :
    (lowerWithin before cs after).length = (lowerWithin before' cs after').length := by
  induction cs generalizing before before' with
  | nil => rfl
  | cons c cs ih =>
    rw [lowerWithin, lowerWithin, List.length_append, List.length_append,
      length_lowerAt before before' c (cs ++ after) (cs ++ after'),
      ih (c :: before) (c :: before')]

/-- A character is written the same in two places if, where it is a sigma, it ends a word in both or
in neither. -/
theorem lowerAt_eq_iff {before before' after after' : List Char} {c : Char} :
    lowerAt before c after = lowerAt before' c after' ↔
      (c = 'Σ' → endsWord before after = endsWord before' after') := by
  unfold lowerAt
  by_cases sigma : c = 'Σ'
  · rw [if_pos sigma, if_pos sigma]
    cases endsWord before after <;> cases endsWord before' after' <;> simp [sigma]
  · simp [sigma]

/-- **A part is written the same in two places** if each of its sigmas ends a word in both or in
neither. -/
theorem lowerWithin_eq_iff (before before' cs after after' : List Char) :
    lowerWithin before cs after = lowerWithin before' cs after' ↔
      ∀ front back, cs = front ++ 'Σ' :: back →
        endsWord (front.reverse ++ before) (back ++ after) =
          endsWord (front.reverse ++ before') (back ++ after') := by
  induction cs generalizing before before' with
  | nil =>
    refine iff_of_true rfl fun front back parts => ?_
    cases front <;> cases parts
  | cons c cs ih =>
    have parts : lowerWithin before (c :: cs) after = lowerWithin before' (c :: cs) after' ↔
        lowerAt before c (cs ++ after) = lowerAt before' c (cs ++ after') ∧
          lowerWithin (c :: before) cs after = lowerWithin (c :: before') cs after' := by
      have equally := length_lowerAt before before' c (cs ++ after) (cs ++ after')
      refine ⟨fun h => List.append_inj h equally, fun ⟨first, rest⟩ => ?_⟩
      rw [lowerWithin, lowerWithin, first, rest]
    rw [parts, lowerAt_eq_iff, ih]
    constructor
    · rintro ⟨first, rest⟩ front back cut
      cases front with
      | nil =>
        obtain ⟨rfl, rfl⟩ := List.cons.inj cut
        exact first rfl
      | cons d front =>
        obtain ⟨rfl, tail⟩ := List.cons.inj cut
        simpa using rest front back tail
    · intro all
      refine ⟨fun sigma => all [] cs (congrArg (· :: cs) sigma), fun front back cut => ?_⟩
      simpa using all (c :: front) back (congrArg (c :: ·) cut)

/-- A part is written in a text as it is alone if its sigmas are. -/
theorem lowerWithin_eq_lowerFrom_iff :
    lowerWithin before cs after = lowerFrom [] cs ↔ KeepsSigmas before cs after := by
  rw [← lowerWithin_nil, lowerWithin_eq_iff]
  simp only [List.append_nil]
  rfl

theorem KeepsSigmas.of_not_mem (none : 'Σ' ∉ cs) : KeepsSigmas before cs after :=
  fun _ _ cut => absurd (cut ▸ List.mem_append_right _ List.mem_cons_self) none

/-! ## Parts of texts in lower case -/

theorem toList_lower (s : String) : (lower s).toList = lowerFrom [] s.toList := String.toList_ofList

/-- **The front of a text** is the front in lower case too, if it keeps its sigmas. -/
theorem startsWith_lower_iff (front : text.toList = part.toList ++ after) :
    startsWith (lower text) (lower part) = true ↔ KeepsSigmas [] part.toList after := by
  have equally := length_lowerWithin [] [] part.toList after []
  rw [lowerWithin_nil] at equally
  rw [startsWith_iff, toList_lower, toList_lower, front, lowerFrom_append,
    ← lowerWithin_eq_lowerFrom_iff]
  constructor
  · rintro ⟨rest, same⟩
    exact (List.append_inj same equally).1
  · intro same
    rw [same]
    exact ⟨_, rfl⟩

/-- **The end of a text** is the end in lower case too, if it keeps its sigmas. -/
theorem endsWith_lower_iff (back : text.toList = before ++ part.toList) :
    endsWith (lower text) (lower part) = true ↔ KeepsSigmas before.reverse part.toList [] := by
  have equally := length_lowerWithin before.reverse [] part.toList [] []
  rw [lowerWithin_nil, lowerWithin_nil] at equally
  rw [endsWith_iff, toList_lower, toList_lower, back, lowerFrom_append, List.append_nil,
    ← lowerWithin_eq_lowerFrom_iff, lowerWithin_nil]
  constructor
  · rintro ⟨rest, same⟩
    exact (List.append_inj' same equally).2
  · intro same
    rw [same]
    exact ⟨_, rfl⟩

/-- **A text in lower case contains** the lower case of a part that keeps its sigmas. -/
theorem contains_lower (inside : text.toList = before ++ part.toList ++ after)
    (keeps : KeepsSigmas before.reverse part.toList after) :
    contains (lower text) (lower part) = true := by
  rw [contains_iff, toList_lower, toList_lower, inside, List.append_assoc, lowerFrom_append,
    List.append_nil, lowerFrom_append, lowerWithin_eq_lowerFrom_iff.2 keeps]
  exact ⟨_, _, (List.append_assoc _ _ _).symm⟩

end RecordQuery.Text
