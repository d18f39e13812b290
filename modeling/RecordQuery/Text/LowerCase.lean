import RecordQuery.Text.CaseTable

/-!
# Lower case

Lower-casing a text takes every character to its lower case. Two rules go beyond the table: U+0130
(capital I with a dot) becomes two characters, and a capital sigma that ends a word becomes the
final sigma. A sigma ends a word if a cased letter stands before it and none after it, where
characters that are ignored for case are skipped.

The names that the program itself knows are matched by `asciiLower`, which changes A to Z alone.
-/

namespace RecordQuery.Text

/-- A to Z become a to z; all else is kept. -/
def asciiLowerChar (c : Char) : Char :=
  if 'A' ≤ c && c ≤ 'Z' then Char.ofNat (c.toNat + 32) else c

/-- A text with A to Z in lower case. -/
def asciiLower (s : String) : String := String.ofList (s.toList.map asciiLowerChar)

/-- Whether two texts differ at most in the case of the letters A to Z. -/
def equalIgnoringAsciiCase (a b : String) : Bool :=
  a.toList.map asciiLowerChar == b.toList.map asciiLowerChar

/-- Whether a code point lies in one of the ranges. -/
def inRanges (ranges : List (Nat × Nat)) (n : Nat) : Bool :=
  ranges.any fun (first, last) => first ≤ n && n ≤ last

/-- Whether a character is skipped when the neighbours of a sigma are looked at. -/
def isCaseIgnorable (c : Char) : Bool := inRanges caseIgnorableRanges c.toNat

/-- Whether a character is a letter with case. -/
def isCased (c : Char) : Bool := inRanges casedRanges c.toNat

/-- The lower case of a character, out of context. -/
def lowerChar (c : Char) : List Char :=
  if c.toNat < 128 then [asciiLowerChar c]
  else if c.toNat = 0x130 then ['i', Char.ofNat 0x307]
  else
    let covers := fun (run : Nat × Nat × Nat × Int) =>
      run.1 ≤ c.toNat && c.toNat ≤ run.2.1 && (c.toNat - run.1) % run.2.2.1 == 0
    match lowerRuns.find? covers with
    | some run => [Char.ofNat ((c.toNat : Int) + run.2.2.2).toNat]
    | none => [c]

/-- Whether the first character that is not skipped is cased. -/
def leadsToCased (cs : List Char) : Bool :=
  match cs.dropWhile isCaseIgnorable with
  | [] => false
  | c :: _ => isCased c

/-- Lower case of a text, with the characters `before` it in reverse. -/
def lowerFrom (before : List Char) : List Char → List Char
  | [] => []
  | c :: cs =>
    let here :=
      if c = 'Σ' then
        if leadsToCased before && !leadsToCased cs then ['ς'] else ['σ']
      else lowerChar c
    here ++ lowerFrom (c :: before) cs

/-- A text in lower case. -/
def lower (s : String) : String := String.ofList (lowerFrom [] s.toList)

end RecordQuery.Text
