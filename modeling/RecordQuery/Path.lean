import RecordQuery.Text.Blank
import RecordQuery.Text.Split

/-!
# Field paths

A path such as `Address.ShipCity` names a member of a member. It is written with points between the
names; white space around the path and around each name does not count.
-/

namespace RecordQuery

/-- A path: its text and the names in it. -/
structure FieldPath where
  text : String
  segments : List String
  deriving DecidableEq

namespace FieldPath

/-- Reads a path. The empty path has no names. -/
def parse (path : String) : FieldPath :=
  let text := Text.trim path.toList
  ⟨.ofList text, if text.isEmpty then [] else
    (Text.splitOn '.' text).map fun part => .ofList (Text.trim part)⟩

def isEmpty (p : FieldPath) : Bool := p.segments.isEmpty

/-- Whether the path names a member of a member. -/
def isNested (p : FieldPath) : Bool := 1 < p.segments.length

/-- The first name. -/
def root? (p : FieldPath) : Option String := p.segments.head?

/-- All names but the last. -/
def parents (p : FieldPath) : List String := p.segments.dropLast

/-- The last name. -/
def leaf? (p : FieldPath) : Option String := p.segments.getLast?

end FieldPath

end RecordQuery
