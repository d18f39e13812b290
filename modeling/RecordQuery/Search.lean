import RecordQuery.Filter

/-!
# Searches

A search compares one key with several fields, and a record passes if any of them passes. Of several
searches all must pass.

* `SearchClause.compile` compiles one search, `compileAll` a list of them;
* `SearchClause.searchedFields`: without a list of fields, all members of the first record.
-/

namespace RecordQuery

/-- A search for a key in several fields. -/
structure SearchClause where
  /-- The fields; none stands for every member of the first record. -/
  fields : List String
  key : Value
  operator : Operator
  ignoreCase : Bool

namespace SearchClause

/-- The fields that are searched. -/
def searchedFields (clause : SearchClause) (records : List Record) : List String :=
  if clause.fields.isEmpty then
    match records with
    | [] => []
    | r :: _ => r.memberNames
  else clause.fields

/-- The comparison of one field with the key. -/
def onField (clause : SearchClause) (field : String) : SimpleClause :=
  ⟨field, clause.operator, clause.key, clause.ignoreCase⟩

/-- Whether a field of a type is searched. An enumeration is skipped if the key names none of its
members, so that a text does not match by a number. -/
def isSearchable (key : Value) (type : Option TypeInfo) : Bool :=
  match type.bind (·.kind.descriptor?) with
  | some descriptor => (resolveEnum? key descriptor).isSome
  | none => true

/-- The fields that are not skipped. -/
def searchableFields (records : List Record) (key : Value) :
    List String → StateM FieldTypes (List String)
  | [] => pure []
  | field :: fields => do
    let type ← FieldTypes.resolve records (.parse field)
    let rest ← searchableFields records key fields
    pure (if isSearchable key type then field :: rest else rest)

/-- Compiles the comparison of every field with the key. -/
def compileFields (clause : SearchClause) (settings : Settings) (records : List Record) :
    List String → StateM FieldTypes (List Predicate)
  | [] => pure []
  | field :: fields => do
    let predicate ← (clause.onField field).compile settings records
    let predicates ← compileFields clause settings records fields
    pure (predicate :: predicates)

/-- Compiles a search. Without a field to search nothing passes. -/
def compile (clause : SearchClause) (settings : Settings) (records : List Record) :
    StateM FieldTypes Predicate := do
  let fields ← searchableFields records clause.key (clause.searchedFields records)
  let predicates ← clause.compileFields settings records fields
  pure (if predicates.isEmpty then fun _ => false else Predicate.combine .or predicates)

/-- Compiles searches one by one. -/
def compileList (settings : Settings) (records : List Record) :
    List SearchClause → StateM FieldTypes (List Predicate)
  | [] => pure []
  | clause :: clauses => do
    let predicate ← clause.compile settings records
    let predicates ← compileList settings records clauses
    pure (predicate :: predicates)

/-- Compiles searches of which all must pass. -/
def compileAll (settings : Settings) (records : List Record) (clauses : List SearchClause) :
    StateM FieldTypes Predicate := do
  let predicates ← compileList settings records clauses
  pure (Predicate.combine .and predicates)

end SearchClause

end RecordQuery
