/-!
# Parts of a text

Cutting a text at a character and putting the parts together again, and the three ways of looking
for one text in another.

* `splitOn_ne_nil`: there is always at least one part;
* `join_splitOn`: joining the parts gives the text back.
-/

namespace RecordQuery.Text

/-- The parts of a text between the occurrences of `sep`; one empty part for the empty text. -/
def splitOn (sep : Char) : List Char → List (List Char)
  | [] => [[]]
  | c :: cs =>
    if c = sep then [] :: splitOn sep cs
    else match splitOn sep cs with
      | [] => [[c]]
      | part :: parts => (c :: part) :: parts

/-- The text before the first `sep` and the text after it, if there is one. -/
def cut (sep : Char) : List Char → List Char × Option (List Char)
  | [] => ([], none)
  | c :: cs =>
    if c = sep then ([], some cs)
    else let (before, after) := cut sep cs; (c :: before, after)

/-- The parts with `sep` between them. -/
def join (sep : List Char) : List (List Char) → List Char
  | [] => []
  | [part] => part
  | part :: parts => part ++ sep ++ join sep parts

/-- Whether `needle` stands at the front of `text`. -/
def startsWith (text needle : String) : Bool := needle.toList.isPrefixOf text.toList

/-- Whether `needle` stands at the end of `text`. -/
def endsWith (text needle : String) : Bool := needle.toList.reverse.isPrefixOf text.toList.reverse

/-- Whether `needle` stands somewhere in `text`. -/
def occursIn (needle : List Char) : List Char → Bool
  | [] => needle.isEmpty
  | c :: cs => needle.isPrefixOf (c :: cs) || occursIn needle cs

/-- Whether `needle` stands somewhere in `text`. -/
def contains (text needle : String) : Bool := occursIn needle.toList text.toList

theorem splitOn_ne_nil (sep : Char) (cs : List Char) : splitOn sep cs ≠ [] := by
  cases cs with
  | nil => simp [splitOn]
  | cons c cs =>
    rw [splitOn]
    split
    · simp
    · split <;> simp

/-- Joining the parts gives the text back. -/
theorem join_splitOn (sep : Char) (cs : List Char) : join [sep] (splitOn sep cs) = cs := by
  induction cs with
  | nil => rfl
  | cons c cs ih =>
    rw [splitOn]
    cases h : splitOn sep cs with
    | nil => exact absurd h (splitOn_ne_nil sep cs)
    | cons part parts =>
      rw [h] at ih
      by_cases hc : c = sep
      · simp [hc, join, ih]
      · cases parts with
        | nil => simp [hc, join] at ih ⊢; exact ih
        | cons q qs => simp [hc, join] at ih ⊢; exact ih

end RecordQuery.Text
