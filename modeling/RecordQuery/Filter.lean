import RecordQuery.FieldTypes
import RecordQuery.Settings
import RecordQuery.Text.LowerCase

/-!
# Filters

A clause is compiled once for a list of records: the type of its field is looked up and its literal
fitted to it. What comes out is a predicate on single records.

* `SimpleClause.comparand` fits the literal. One that does not fit is compared as text, and one that
  names no member of an enumeration equals nothing;
* `Comparison.test` is a compiled clause. Without a type, the literal is fitted to the kind of each
  value;
* `FilterClause.compile` compiles a tree, `compileAll` a list of them.
-/

namespace RecordQuery

open Text

/-- A test on records. -/
abbrev Predicate := Record → Bool

namespace Predicate

/-- Joins predicates from the left; the empty list holds of every record. -/
def combine (joiner : Joiner) : List Predicate → Predicate
  | [] => fun _ => true
  | first :: rest => fun r => rest.foldl (fun answer p => joiner.apply answer (p r)) (first r)

end Predicate

/-- The literal of a clause, fitted to the type of the field. -/
inductive Comparand
  | typed (v : Value)
  /-- The literal does not fit the type, and texts are compared. -/
  | text (s : String)
  /-- The literal names no member of the enumeration. -/
  | noMatch

/-- Fits the literal of a clause to the type of the field. -/
def SimpleClause.comparand (clause : SimpleClause) (type : TypeInfo) : Comparand :=
  match type.kind.descriptor? with
  | some descriptor =>
    if clause.value.isNull then .typed .null
    else match resolveEnum? clause.value descriptor with
      | some n => .typed (.enum descriptor n)
      | none => .noMatch
  | none =>
    match coerceForComparison clause.value type with
    | .ok v => .typed v
    | .error _ => .text clause.value.display

/-- A compiled clause. -/
structure Comparison where
  path : FieldPath
  operator : Operator
  ignoreCase : Bool
  type : TypeInfo
  comparand : Comparand
  blankMarker : String

namespace Comparison

/-- The text of a value; null has the text `blank`. -/
def textOr (blank : String) (v : Value) : String := if v.isNull then blank else v.display

/-- A text in the case in which it is compared. -/
def folded (c : Comparison) (s : String) : String := if c.ignoreCase then lower s else s

/-- Whether a field equals a literal. Among texts that ignore case, null is the blank marker for a
null literal and the empty text for any other one. -/
def equals (c : Comparison) (kind : FieldKind) (field literal : Value) (dayOnly : Bool) : Bool :=
  if kind = .string && c.ignoreCase then
    let blank := if literal.isNull then c.blankMarker else ""
    lower (textOr blank field) == lower (textOr c.blankMarker literal)
  else match field.isNull, literal.isNull with
    | true, true => true
    | true, false => false
    | false, true => false
    | false, false => if dayOnly then field.day? == literal.day? else field.looselyEqual literal

/-- The order between a field and a literal, neither of which is null. -/
def order? (c : Comparison) (kind : FieldKind) (field literal : Value) (dayOnly : Bool) :
    Option Ordering :=
  if dayOnly then
    field.day?.bind fun a => literal.day?.map fun b => compare a.position b.position
  else if kind = .string && c.ignoreCase then
    some (compare (lower field.display) (lower literal.display))
  else field.compare? literal

/-- The texts of a field and a literal, in the case in which they are compared. Texts are compared
with null as with the blank marker. -/
def texts (c : Comparison) (kind : FieldKind) (field literal : Value) : String × String :=
  let blank := if kind = .string && literal.isNull then c.blankMarker else ""
  (c.folded (textOr blank field), c.folded (textOr blank literal))

/-- Compares a field with a literal of a kind. `stopped` tells that a null stands on the way to the
field. A literal that is the start of a day means the whole day, in a field that may be null. -/
def testKind (c : Comparison) (kind : FieldKind) (field literal : Value) (stopped : Bool) : Bool :=
  let dayOnly := kind.isDate && c.type.nullable && literal.isMidnight
  match c.operator with
  | .equals => c.equals kind field literal dayOnly
  | .notEquals => !c.equals kind field literal dayOnly
  | .lessThan | .lessThanOrEqual | .greaterThan | .greaterThanOrEqual =>
    if stopped || field.isNull || literal.isNull then false
    else match c.order? kind field literal dayOnly with
      | some order => c.operator.accepts order
      | none => false
  | .startsWith =>
    let (text, part) := c.texts kind field literal
    Text.startsWith text part
  | .endsWith =>
    let (text, part) := c.texts kind field literal
    Text.endsWith text part
  | .contains =>
    if stopped then false
    else
      let (text, part) := c.texts kind field literal
      Text.contains text part

/-- Compares the text of a field with a text. -/
def testText (c : Comparison) (field : Value) (text : String) (stopped : Bool) : Bool :=
  let field := if field.isNull then .null else .string field.display
  c.testKind .string field (.string text) stopped

/-- Compares a field with the literal. -/
def testValue (c : Comparison) (field : Value) (stopped : Bool) : Bool :=
  match c.comparand with
  | .noMatch => c.operator == .notEquals
  | .text text => c.testText field text stopped
  | .typed literal =>
    if c.type.kind = .unknown then
      let kind := field.kind?.getD .unknown
      match coerceForComparison literal (.of kind) with
      | .ok fitted => c.testKind kind field fitted stopped
      | .error _ => c.testText field literal.display stopped
    else c.testKind c.type.kind field literal stopped

/-- Whether a record passes. A record without the field does not. -/
def test (c : Comparison) : Predicate := fun r =>
  match r.resolve c.path with
  | .missing => false
  | .intermediateNull => c.testValue .null true
  | .value field => c.testValue field false

end Comparison

/-- The predicate of a clause over a field of a type; without a type nothing passes. -/
def SimpleClause.predicate (clause : SimpleClause) (settings : Settings) :
    Option TypeInfo → Predicate
  | none => fun _ => false
  | some type =>
    Comparison.test {
      path := .parse clause.field
      operator := clause.operator
      ignoreCase := clause.ignoreCase
      type
      comparand := clause.comparand type
      blankMarker := settings.blankMarker }

/-- Compiles a clause. -/
def SimpleClause.compile (settings : Settings) (records : List Record) (clause : SimpleClause) :
    StateM FieldTypes Predicate := do
  let type ← FieldTypes.resolve records (.parse clause.field)
  pure (clause.predicate settings type)

namespace FilterClause

mutual

/-- Compiles a tree. -/
def compile (settings : Settings) (records : List Record) :
    FilterClause → StateM FieldTypes Predicate
  | .simple clause => clause.compile settings records
  | .composite joiner clauses => do
    let predicates ← compileList settings records clauses
    pure (Predicate.combine joiner predicates)

/-- Compiles trees one by one. -/
def compileList (settings : Settings) (records : List Record) :
    List FilterClause → StateM FieldTypes (List Predicate)
  | [] => pure []
  | clause :: clauses => do
    let predicate ← clause.compile settings records
    let predicates ← compileList settings records clauses
    pure (predicate :: predicates)

end

/-- Compiles a list of trees, joined by `joiner`. -/
def compileAll (settings : Settings) (records : List Record) (joiner : Joiner)
    (clauses : List FilterClause) : StateM FieldTypes Predicate := do
  let predicates ← compileList settings records clauses
  pure (Predicate.combine joiner predicates)

end FilterClause

end RecordQuery
