import RecordQuery.Json

/-!
# Reading JSON

The reader accepts exactly the JSON grammar: one document with white space around its parts. Some
texts of the grammar have no value: a number too large for 64 bits, a string with half of a
surrogate pair, and what is nested too deeply. A reader of documents that skips a part need not
mind.

* `Json.readText?` keeps the members of objects as they were written, in their order and with
  repetitions, and parts without a value as numbers that are not finite;
* `Json.isReadable`: all parts have a value;
* `Json.read?` refuses other documents, and puts the members of objects in the order of their names,
  the last of equal names winning.
-/

namespace RecordQuery.Json

open Text

/-- Drops the white space of JSON. -/
def skipSpace (cs : List Char) : List Char :=
  cs.dropWhile fun c => c == ' ' || c == '\n' || c == '\t' || c == '\r'

/-- The value of a hexadecimal digit. -/
def hexValue? (c : Char) : Option Nat :=
  if '0' ≤ c ∧ c ≤ '9' then some (c.toNat - '0'.toNat)
  else if 'a' ≤ c ∧ c ≤ 'f' then some (c.toNat - 'a'.toNat + 10)
  else if 'A' ≤ c ∧ c ≤ 'F' then some (c.toNat - 'A'.toNat + 10)
  else none

/-- Reads four hexadecimal digits. -/
def readHex? : List Char → Option (Nat × List Char)
  | a :: b :: c :: d :: rest => do
    let a ← hexValue? a
    let b ← hexValue? b
    let c ← hexValue? c
    let d ← hexValue? d
    some (((a * 16 + b) * 16 + c) * 16 + d, rest)
  | _ => none

/-- Stands for a part without a value. -/
def unreadable : Json := .double .nan

mutual

/-- Whether all parts of a document have a value. -/
def isReadable : Json → Bool
  | .single x => x.isFinite
  | .double x => x.isFinite
  | .array items => areReadable items
  | .object members => haveReadable members
  | _ => true

def areReadable : List Json → Bool
  | [] => true
  | item :: items => item.isReadable && areReadable items

def haveReadable : List (String × Json) → Bool
  | [] => true
  | (_, value) :: members => value.isReadable && haveReadable members

end

/-- Reads the second unit of a pair after the first. -/
def readSecondUnit? (first : Nat) : List Char → Option (Char × List Char)
  | '\\' :: 'u' :: cs =>
    (readHex? cs).bind fun (second, rest) =>
      if first < 0xDC00 ∧ 0xDC00 ≤ second ∧ second ≤ 0xDFFF then
        some (Char.ofNat (0x10000 + (first - 0xD800) * 0x400 + (second - 0xDC00)), rest)
      else none
  | _ => none

/-- Reads what follows a backslash. A character outside the basic plane is written as a pair of
units; half a pair is no character. -/
def readEscape? : List Char → Option (Option Char × List Char)
  | '"' :: cs => some ('"', cs)
  | '\\' :: cs => some ('\\', cs)
  | '/' :: cs => some ('/', cs)
  | 'b' :: cs => some (Char.ofNat 8, cs)
  | 'f' :: cs => some (Char.ofNat 12, cs)
  | 'n' :: cs => some ('\n', cs)
  | 'r' :: cs => some ('\r', cs)
  | 't' :: cs => some ('\t', cs)
  | 'u' :: cs =>
    (readHex? cs).map fun (unit, rest) =>
      if unit < 0xD800 ∨ 0xDFFF < unit then (some (Char.ofNat unit), rest)
      else match readSecondUnit? unit rest with
        | some (c, rest) => (some c, rest)
        | none => (none, rest)
  | _ => none

/-- Reads the rest of a string, after its opening quote. -/
def readString? : Nat → List Char → Option (Option (List Char) × List Char)
  | 0, _ => none
  | _ + 1, [] => none
  | fuel + 1, c :: cs =>
    if c = '"' then some (some [], cs)
    else if c = '\\' then
      (readEscape? cs).bind fun (d, cs) =>
        (readString? fuel cs).map fun (ds, rest) => (d.bind fun d => ds.map (d :: ·), rest)
    else if c.toNat < 0x20 then none
    else (readString? fuel cs).map fun (ds, rest) => (ds.map (c :: ·), rest)

/-- The document of a string. -/
def ofString : Option (List Char) → Json
  | some cs => .string (.ofList cs)
  | none => unreadable

/-- The document of an object. -/
def ofObject : Option (List (String × Json)) → Json
  | some members => .object members
  | none => unreadable

/-- The objects with one more member. -/
def withMember (name : Option (List Char)) (value : Json)
    (members : Option (List (String × Json))) : Option (List (String × Json)) :=
  name.bind fun name => members.map ((.ofList name, value) :: ·)

/-- A container, unless it is nested too deeply. -/
def within (depth : Nat) (j : Json) : Json := if depth ≤ 1 then unreadable else j

/-- The digits of a whole number: a zero alone, or digits that do not start with zero. -/
def readWhole? (cs : List Char) : Option (List Char × List Char) :=
  match Binary.digitsAt cs with
  | ([], _) => none
  | ('0' :: _ :: _, _) => none
  | (digits, rest) => some (digits, rest)

/-- Reads the fraction of a number, if there is one. -/
def readPlaces? : List Char → Option (Option (List Char) × List Char)
  | '.' :: cs =>
    match Binary.digitsAt cs with
    | ([], _) => none
    | (digits, rest) => some (some digits, rest)
  | cs => some (none, cs)

/-- Reads the exponent of a number, if there is one. -/
def readPower? : List Char → Option (Option Int × List Char)
  | c :: cs =>
    if c = 'e' ∨ c = 'E' then
      let (sign, cs) := match cs with
        | '+' :: cs => ((1 : Int), cs)
        | '-' :: cs => ((-1 : Int), cs)
        | cs => ((1 : Int), cs)
      match Binary.digitsAt cs with
      | ([], _) => none
      | (digits, rest) => some (some (sign * digitsValue digits), rest)
    else some (none, c :: cs)
  | [] => some (none, [])

/-- A number without fraction and exponent. Minus zero, and integers out of range, are binary. -/
def ofDigits (negative : Bool) (n : Nat) : Json :=
  if negative then
    if 0 < n ∧ n ≤ 0x8000000000000000 then .integer (-n) else .double (.ofDecimal .double true n 0)
  else if n < UInt64.size then .integer n
  else .double (.ofDecimal .double false n 0)

/-- Reads a number. -/
def readNumber? (cs : List Char) : Option (Json × List Char) := do
  let (negative, cs) := match cs with
    | '-' :: cs => (true, cs)
    | cs => (false, cs)
  let (whole, cs) ← readWhole? cs
  let (places, cs) ← readPlaces? cs
  let (power, cs) ← readPower? cs
  let number := match places, power with
    | none, none => ofDigits negative (digitsValue whole)
    | _, _ =>
      let digits := places.getD []
      .double (.ofDecimal .double negative (digitsValue (whole ++ digits))
        (power.getD 0 - digits.length))
  some (number, cs)

/-- Reads a word at the front of a text. -/
def readWord? (word : String) (j : Json) (cs : List Char) : Option (Json × List Char) :=
  if word.toList.isPrefixOf cs then some (j, cs.drop word.length) else none

mutual

/-- Reads a document at the front of a text. `depth` bounds the nesting, `fuel` the steps. -/
def readValue? (depth : Nat) : Nat → List Char → Option (Json × List Char)
  | 0, _ => none
  | fuel + 1, cs =>
    match skipSpace cs with
    | '"' :: cs => (readString? (cs.length + 1) cs).map fun (s, rest) => (ofString s, rest)
    | '[' :: cs =>
      match skipSpace cs with
      | ']' :: rest => some (within depth (.array []), rest)
      | cs =>
        (readItems? (depth - 1) fuel cs).map fun (items, rest) =>
          (within depth (.array items), rest)
    | '{' :: cs =>
      match skipSpace cs with
      | '}' :: rest => some (within depth (.object []), rest)
      | cs =>
        (readMembers? (depth - 1) fuel cs).map fun (members, rest) =>
          (within depth (ofObject members), rest)
    | 't' :: cs => readWord? "true" (.bool true) ('t' :: cs)
    | 'f' :: cs => readWord? "false" (.bool false) ('f' :: cs)
    | 'n' :: cs => readWord? "null" .null ('n' :: cs)
    | cs => readNumber? cs

/-- Reads the rest of an array, from an item on. -/
def readItems? (depth : Nat) : Nat → List Char → Option (List Json × List Char)
  | 0, _ => none
  | fuel + 1, cs =>
    (readValue? depth fuel cs).bind fun (item, rest) =>
      match skipSpace rest with
      | ']' :: rest => some ([item], rest)
      | ',' :: rest => (readItems? depth fuel rest).map fun (items, rest) => (item :: items, rest)
      | _ => none

/-- Reads the rest of an object, from a member on. -/
def readMembers? (depth : Nat) :
    Nat → List Char → Option (Option (List (String × Json)) × List Char)
  | 0, _ => none
  | fuel + 1, cs =>
    match skipSpace cs with
    | '"' :: cs =>
      (readString? (cs.length + 1) cs).bind fun (name, rest) =>
        match skipSpace rest with
        | ':' :: rest =>
          (readValue? depth fuel rest).bind fun (value, rest) =>
            match skipSpace rest with
            | '}' :: rest => some (withMember name value (some []), rest)
            | ',' :: rest =>
              (readMembers? depth fuel rest).map fun (members, rest) =>
                (withMember name value members, rest)
            | _ => none
        | _ => none
    | _ => none

end

/-- Containers may be nested fewer than this many levels deep. -/
def maxDepth : Nat := 128

/-- Reads a document, keeping the members of objects as written and parts without a value. -/
def readText? (depth : Nat) (text : String) : Option Json :=
  let cs := text.toList
  (readValue? depth (2 * cs.length + 2) cs).bind fun (j, rest) =>
    if (skipSpace rest).isEmpty then some j else none

/-- Reads a document of which all parts have a value, with the members of objects in order. -/
def read? (text : String) : Option Json := ((readText? maxDepth text).filter isReadable).map ordered

end RecordQuery.Json
