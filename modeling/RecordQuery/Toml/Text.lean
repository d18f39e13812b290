import RecordQuery.Json.Reader

/-!
# Characters, strings and keys of TOML

* gaps: blanks, line breaks and comments;
* strings: basic ones, with escapes, and literal ones, each on one line or on several. A line break
  within a string is kept as it is written, with its carriage return or without;
* keys: bare or quoted, with points between them.
-/

namespace RecordQuery.Toml

open Text

/-! ## Gaps -/

def isGapBlank (c : Char) : Bool := c == ' ' || c == '\t'

def skipBlanks (cs : List Char) : List Char := cs.dropWhile isGapBlank

/-- Whether a character may stand in a comment or a string. -/
def isPrintable (c : Char) : Bool := c == '\t' || (0x20 ≤ c.toNat && c.toNat != 0x7F)

/-- Reads a line break. -/
def readBreak? : List Char → Option (List Char)
  | '\n' :: cs => some cs
  | '\r' :: '\n' :: cs => some cs
  | _ => none

/-- Skips a comment up to the end of its line. -/
def skipComment (cs : List Char) : List Char :=
  match cs with
  | '#' :: rest => rest.dropWhile isPrintable
  | _ => cs

/-- Skips the rest of a line, which may hold a comment. -/
def skipLine? (cs : List Char) : Option (List Char) :=
  match skipComment (skipBlanks cs) with
  | [] => some []
  | rest => readBreak? rest

/-- Skips blanks, line breaks and comments. -/
def skipGaps : Nat → List Char → List Char
  | 0, cs => cs
  | fuel + 1, cs =>
    let rest := skipComment (skipBlanks cs)
    match readBreak? rest with
    | some next => skipGaps fuel next
    | none => rest

/-- Skips blanks, line breaks and comments, as many as there are. -/
def skipAllGaps (cs : List Char) : List Char := skipGaps (cs.length + 1) cs

/-! ## Strings -/

/-- The number of `count` hexadecimal digits. -/
def readHexDigits? : Nat → Nat → List Char → Option (Nat × List Char)
  | 0, n, cs => some (n, cs)
  | count + 1, n, c :: cs => (Json.hexValue? c).bind fun d => readHexDigits? count (16 * n + d) cs
  | _ + 1, _, [] => none

/-- Reads a character that is given by its number. -/
def readCodePoint? (count : Nat) (cs : List Char) : Option (Char × List Char) :=
  (readHexDigits? count 0 cs).bind fun (n, cs) =>
    if n.isValidChar then some (Char.ofNat n, cs) else none

/-- Reads what follows a backslash. -/
def readEscape? : List Char → Option (Char × List Char)
  | 'b' :: cs => some (Char.ofNat 8, cs)
  | 't' :: cs => some ('\t', cs)
  | 'n' :: cs => some ('\n', cs)
  | 'f' :: cs => some (Char.ofNat 12, cs)
  | 'r' :: cs => some ('\r', cs)
  | 'e' :: cs => some (Char.ofNat 27, cs)
  | '"' :: cs => some ('"', cs)
  | '\\' :: cs => some ('\\', cs)
  | 'x' :: cs => readCodePoint? 2 cs
  | 'u' :: cs => readCodePoint? 4 cs
  | 'U' :: cs => readCodePoint? 8 cs
  | _ => none

/-- Puts a character in front of a string that was read. -/
def before (c : Char) : List Char × List Char → List Char × List Char
  | (string, rest) => (c :: string, rest)

/-- Reads the rest of a basic string on one line. -/
def readBasic? : Nat → List Char → Option (List Char × List Char)
  | 0, _ => none
  | _ + 1, [] => none
  | fuel + 1, c :: cs =>
    if c = '"' then some ([], cs)
    else if c = '\\' then
      (readEscape? cs).bind fun (d, cs) => (readBasic? fuel cs).map (before d)
    else if isPrintable c then (readBasic? fuel cs).map (before c)
    else none

/-- Reads the rest of a literal string on one line. -/
def readLiteral? : List Char → Option (List Char × List Char)
  | [] => none
  | c :: cs =>
    if c = '\'' then some ([], cs)
    else if isPrintable c then (readLiteral? cs).map (before c)
    else none

/-- Three quotes end a string on several lines; up to two more in front of them belong to it. -/
def readClosing? (quote : Char) (cs : List Char) : Option (List Char × List Char) :=
  let run := (cs.takeWhile (· == quote)).length
  if run < 3 then none
  else
    let taken := min run 5
    some (List.replicate (taken - 3) quote, cs.drop taken)

/-- Skips blanks and line breaks. -/
def skipEmptyLines : Nat → List Char → List Char
  | 0, cs => cs
  | fuel + 1, cs =>
    let rest := skipBlanks cs
    match readBreak? rest with
    | some next => skipEmptyLines fuel next
    | none => rest

/-- Skips a line break behind a backslash, with all blanks and line breaks that follow. -/
def skipContinuation? (cs : List Char) : Option (List Char) :=
  (readBreak? (skipBlanks cs)).map fun rest => skipEmptyLines (rest.length + 1) rest

/-- Reads the rest of a string on several lines. Escapes count in basic strings only. -/
def readLines? (quote : Char) (escapes : Bool) : Nat → List Char → Option (List Char × List Char)
  | 0, _ => none
  | _ + 1, [] => none
  | fuel + 1, c :: cs =>
    match readClosing? quote (c :: cs) with
    | some closing => some closing
    | none =>
      if c = '\\' ∧ escapes then
        match skipContinuation? cs with
        | some rest => readLines? quote escapes fuel rest
        | none =>
          (readEscape? cs).bind fun (d, rest) =>
            (readLines? quote escapes fuel rest).map (before d)
      else if isPrintable c || (readBreak? (c :: cs)).isSome then
        (readLines? quote escapes fuel cs).map (before c)
      else none

/-- A line break right after the opening quotes does not count. -/
def skipFirstBreak (cs : List Char) : List Char := (readBreak? cs).getD cs

/-- Reads a string on one line. -/
def readLineString? : List Char → Option (List Char × List Char)
  | '"' :: cs => readBasic? (cs.length + 1) cs
  | '\'' :: cs => readLiteral? cs
  | _ => none

/-- Reads a string of any form. -/
def readString? : List Char → Option (List Char × List Char)
  | '"' :: '"' :: '"' :: cs => readLines? '"' true (cs.length + 1) (skipFirstBreak cs)
  | '\'' :: '\'' :: '\'' :: cs => readLines? '\'' false (cs.length + 1) (skipFirstBreak cs)
  | cs => readLineString? cs

/-! ## Keys -/

/-- Whether a character may stand in a bare key. -/
def isKeyChar (c : Char) : Bool :=
  isDigit c || ('a' ≤ c && c ≤ 'z') || ('A' ≤ c && c ≤ 'Z') || c == '-' || c == '_'

/-- Reads a single key. -/
def readKey? (cs : List Char) : Option (String × List Char) :=
  match cs with
  | '"' :: _ | '\'' :: _ => (readLineString? cs).map fun (key, rest) => (.ofList key, rest)
  | _ =>
    match cs.takeWhile isKeyChar with
    | [] => none
    | key => some (.ofList key, cs.dropWhile isKeyChar)

/-- A key may have this many parts. -/
def maxParts : Nat := 80

/-- Reads at most `parts` keys with points between them: all but the last, and the last. Blanks
around the keys do not count. -/
def readParts? : Nat → List Char → Option (List String × String × List Char)
  | 0, _ => none
  | parts + 1, cs =>
    (readKey? (skipBlanks cs)).bind fun (key, rest) =>
      match skipBlanks rest with
      | '.' :: rest =>
        (readParts? parts rest).map fun (path, last, rest) => (key :: path, last, rest)
      | rest => some ([], key, rest)

/-- Reads a key with all its parts. -/
def readPath? (cs : List Char) : Option (List String × String × List Char) := readParts? maxParts cs

end RecordQuery.Toml
