import RecordQuery.Fields
import RecordQuery.Number.Binary

/-!
# TOML documents

A document is a table. Tables come into being in four ways, and the way decides who may add to them:

* a table with a header may be entered by longer headers, and by nothing else;
* a table that only occurs inside a longer header may still get a header of its own;
* a table made by dotted keys may get further dotted keys;
* an inline table is complete.

`assign`, `openTable` and `appendTable` are the three kinds of lines of a document. They refuse a
line that would define something twice.
-/

namespace RecordQuery

/-- How a table came into being. -/
inductive TableOrigin
  | header
  | implied
  | dotted
  | inline
  deriving DecidableEq

/-- A value. -/
inductive Toml
  | text (s : String)
  | integer (n : Int)
  | float (x : Double)
  | bool (b : Bool)
  /-- A date, a time, or both. -/
  | moment
  | array (items : List Toml)
  | table (origin : TableOrigin) (entries : List (String × Toml))
  /-- Tables that were appended one by one. -/
  | tables (items : List (List (String × Toml)))
  deriving Inhabited

namespace Toml

/-- The entries of a table, in the order in which they were written. -/
abbrev Entries := List (String × Toml)

/-- Changes the table at the end of a path of keys, and makes the tables that are missing on the
way. The change is told how the table came into being. Dotted keys enter no table that has a header.
-/
def changeAt (dotted : Bool) (change : TableOrigin → Entries → Option Entries) :
    List String → TableOrigin → Entries → Option Entries
  | [], origin, entries => change origin entries
  | key :: path, _, entries =>
    match Fields.get? key entries with
    | none =>
      let origin := if dotted then .dotted else .implied
      (changeAt dotted change path origin []).map fun inner =>
        Fields.put key (.table origin inner) entries
    | some (.table origin inner) =>
      if origin = .inline ∨ (dotted ∧ origin = .header) then none
      else (changeAt dotted change path origin inner).map fun inner =>
        Fields.put key (.table origin inner) entries
    | some (.tables items) =>
      match items.getLast? with
      | none => none
      | some last =>
        (changeAt dotted change path .header last).map fun last =>
          Fields.put key (.tables (items.dropLast ++ [last])) entries
    | some _ => none

/-- Adds an entry that must be new. -/
def addNew (key : String) (v : Toml) (entries : Entries) : Option Entries :=
  match Fields.get? key entries with
  | none => some (entries ++ [(key, v)])
  | some _ => none

/-- Adds a value under a dotted key to a table. -/
def addDotted (path : List String) (key : String) (v : Toml) (entries : Entries) : Option Entries :=
  changeAt true
    (fun origin inner => if !path.isEmpty && origin != .dotted then none else addNew key v inner)
    path .header entries

/-- A line with a key and a value, in the table of a header. -/
def assign (header path : List String) (key : String) (v : Toml) (root : Entries) :
    Option Entries :=
  changeAt false (fun _ inner => addDotted path key v inner) header .header root

/-- A line with the header of a table. -/
def openTable (path : List String) (key : String) (root : Entries) : Option Entries :=
  changeAt false
    (fun _ inner =>
      match Fields.get? key inner with
      | none => some (inner ++ [(key, .table .header [])])
      | some (.table .implied entries) => some (Fields.put key (.table .header entries) inner)
      | some _ => none)
    path .header root

/-- A line with the header of one more table of an array. -/
def appendTable (path : List String) (key : String) (root : Entries) : Option Entries :=
  changeAt false
    (fun _ inner =>
      match Fields.get? key inner with
      | none => some (inner ++ [(key, .tables [[]])])
      | some (.tables items) => some (Fields.put key (.tables (items ++ [[]])) inner)
      | some _ => none)
    path .header root

end Toml

end RecordQuery
