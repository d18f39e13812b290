import RecordQuery.Error
import RecordQuery.Value

/-!
# Filter clauses

A filter is a tree. Its leaves compare a field with a literal, and the inner nodes join their
clauses by `and` or by `or`.

* `Operator.parse?` and `Joiner.parse?` read the names in requests, in any case;
* `FilterClause` is a tree.
-/

namespace RecordQuery

open Text

/-- How a field is compared with a literal. -/
inductive Operator
  | equals
  | notEquals
  | lessThan
  | lessThanOrEqual
  | greaterThan
  | greaterThanOrEqual
  | startsWith
  | endsWith
  | contains
  deriving DecidableEq

namespace Operator

/-- The short name. -/
def name : Operator → String
  | .equals => "equal"
  | .notEquals => "notequal"
  | .lessThan => "lessthan"
  | .lessThanOrEqual => "lessthanorequal"
  | .greaterThan => "greaterthan"
  | .greaterThanOrEqual => "greaterthanorequal"
  | .startsWith => "startswith"
  | .endsWith => "endswith"
  | .contains => "contains"

/-- The full name. -/
def fullName : Operator → String
  | .equals => "equals"
  | .notEquals => "notEquals"
  | .lessThan => "lessThan"
  | .lessThanOrEqual => "lessThanOrEqual"
  | .greaterThan => "greaterThan"
  | .greaterThanOrEqual => "greaterThanOrEqual"
  | .startsWith => "startsWith"
  | .endsWith => "endsWith"
  | .contains => "contains"

def isOrdering : Operator → Bool
  | .lessThan | .lessThanOrEqual | .greaterThan | .greaterThanOrEqual => true
  | _ => false

/-- Whether an order between the field and the literal is what the operator asks for. -/
def accepts : Operator → Ordering → Bool
  | .lessThan, o => o == .lt
  | .lessThanOrEqual, o => o != .gt
  | .greaterThan, o => o == .gt
  | .greaterThanOrEqual, o => o != .lt
  | .equals, o => o == .eq
  | .notEquals, o => o != .eq
  | _, _ => false

/-- All operators. -/
def all : List Operator :=
  [.equals, .notEquals, .lessThan, .lessThanOrEqual, .greaterThan, .greaterThanOrEqual,
    .startsWith, .endsWith, .contains]

/-- Reads a short or a full name, in any case and with white space around it. -/
def parse? (text : String) : Option Operator :=
  let name := asciiLower (trimmed text)
  all.find? fun op => op.name == name || asciiLower op.fullName == name

/-- Reads a name; a field may be named in the error. -/
def parse (text : String) (field : Option String) : Except QueryError Operator :=
  match parse? text with
  | some op => .ok op
  | none => .error (.of (.unknownOperator text field))

end Operator

/-- How sibling clauses are joined. -/
inductive Joiner
  | and
  | or
  deriving DecidableEq

namespace Joiner

/-- The name in requests. -/
def name : Joiner → String
  | .and => "and"
  | .or => "or"

/-- The name in a summary. -/
def title : Joiner → String
  | .and => "And"
  | .or => "Or"

/-- Reads a condition, in any case and with white space around it; the empty one is `and`. -/
def parse? (text : String) : Option Joiner :=
  match asciiLower (trimmed text) with
  | "" => some .and
  | "and" => some .and
  | "or" => some .or
  | _ => none

def parse (text : String) : Except QueryError Joiner :=
  match parse? text with
  | some joiner => .ok joiner
  | none => .error (.of (.unknownJoiner text))

/-- Joins two answers. -/
def apply : Joiner → Bool → Bool → Bool
  | .and, a, b => a && b
  | .or, a, b => a || b

end Joiner

/-- A comparison of a field with a literal. -/
structure SimpleClause where
  field : String
  operator : Operator
  value : Value
  ignoreCase : Bool := true

/-- A filter. -/
inductive FilterClause
  | simple (clause : SimpleClause)
  | composite (joiner : Joiner) (clauses : List FilterClause)

end RecordQuery
