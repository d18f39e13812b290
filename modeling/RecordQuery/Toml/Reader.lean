import RecordQuery.Toml.Scalar
import RecordQuery.Toml.Text

/-!
# Reading TOML

`Toml.read?` reads a document into its entries. It refuses what the grammar does not allow, and a
document that gives one name two meanings.
-/

namespace RecordQuery.Toml

open Text

/-- Arrays and inline tables may be nested this many levels deep. -/
def maxDepth : Nat := 80

mutual

/-- Reads a value. `depth` bounds the nesting, `fuel` the steps. -/
def readValue? (depth : Nat) : Nat → List Char → Option (Toml × List Char)
  | 0, _ => none
  | fuel + 1, cs =>
    match cs with
    | '"' :: _ | '\'' :: _ => (readString? cs).map fun (s, rest) => (.text (.ofList s), rest)
    | '[' :: rest =>
      if depth = 0 then none
      else (readItems? (depth - 1) fuel (skipAllGaps rest)).map fun (items, rest) =>
        (.array items, rest)
    | '\x7b' :: rest =>
      if depth = 0 then none
      else (readEntries? (depth - 1) fuel [] (skipAllGaps rest)).map fun (entries, rest) =>
        (.table .inline entries, rest)
    | _ =>
      let (scalar, rest) := cutScalar cs
      (readScalar? scalar).map fun v => (v, rest)

/-- Reads the rest of an array. The last item may be followed by a comma. -/
def readItems? (depth : Nat) : Nat → List Char → Option (List Toml × List Char)
  | 0, _ => none
  | fuel + 1, cs =>
    match cs with
    | ']' :: rest => some ([], rest)
    | _ =>
      (readValue? depth fuel cs).bind fun (item, rest) =>
        match skipAllGaps rest with
        | ',' :: rest =>
          (readItems? depth fuel (skipAllGaps rest)).map fun (items, rest) => (item :: items, rest)
        | ']' :: rest => some ([item], rest)
        | _ => none

/-- Reads the rest of an inline table, after some entries. The last entry may be followed by a
comma, and line breaks may stand around each sign. -/
def readEntries? (depth : Nat) : Nat → Entries → List Char → Option (Entries × List Char)
  | 0, _, _ => none
  | fuel + 1, entries, cs =>
    match cs with
    | '\x7d' :: rest => some (entries, rest)
    | _ =>
      (readPath? cs).bind fun (path, key, rest) =>
        (readChar? '=' (skipAllGaps rest)).bind fun rest =>
          (readValue? depth fuel (skipAllGaps rest)).bind fun (v, rest) =>
            (addDotted path key v entries).bind fun entries =>
              match skipAllGaps rest with
              | ',' :: rest => readEntries? depth fuel entries (skipAllGaps rest)
              | '\x7d' :: rest => some (entries, rest)
              | _ => none

end

/-- What was read of a document: the header that is open, and the entries. -/
structure Draft where
  header : List String := []
  root : Entries := []

/-- Reads a header, with what follows the closing brackets. -/
def readHeader? (cs : List Char) : Option (List String × String × List Char) :=
  (readPath? cs).bind fun (path, key, rest) =>
    (readChar? ']' rest).map fun rest => (path, key, rest)

/-- Reads a line that is not blank. -/
def readStatement? (draft : Draft) (cs : List Char) : Option (Draft × List Char) :=
  match cs with
  | '[' :: '[' :: rest => do
    let (path, key, rest) ← readHeader? rest
    let rest ← readChar? ']' rest
    let root ← appendTable path key draft.root
    some (⟨path ++ [key], root⟩, rest)
  | '[' :: rest => do
    let (path, key, rest) ← readHeader? rest
    let root ← openTable path key draft.root
    some (⟨path ++ [key], root⟩, rest)
  | _ => do
    let (path, key, rest) ← readPath? cs
    let rest ← readChar? '=' rest
    let (v, rest) ← readValue? maxDepth (rest.length + 1) (skipBlanks rest)
    let root ← assign draft.header path key v draft.root
    some ({ draft with root }, rest)

/-- Reads lines until the end. -/
def readLines : Nat → Draft → List Char → Option Entries
  | 0, _, _ => none
  | fuel + 1, draft, cs =>
    match skipAllGaps cs with
    | [] => some draft.root
    | rest =>
      (readStatement? draft rest).bind fun (draft, rest) =>
        (skipLine? rest).bind fun rest => readLines fuel draft rest

/-- Reads a document; a byte order mark at its start does not count. -/
def read? (text : String) : Option Entries :=
  let cs := match text.toList with
    | c :: cs => if c.toNat = 0xFEFF then cs else c :: cs
    | [] => []
  readLines (cs.length + 1) {} cs

end RecordQuery.Toml
