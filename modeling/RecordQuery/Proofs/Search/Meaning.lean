import RecordQuery.Proofs.Filter.Meaning
import RecordQuery.Search

/-!
# The meaning of a search

A search passes if one of its fields does. Neither the order of the fields counts nor how often one
of them stands there, for the answer and for what is remembered of types.

* `SearchClause.matchesField` is the answer of one field, `SearchClause.matchesAny` that of a list;
* `SearchClause.reads_compile`: compiling a search reads the types of its fields and gives this
  answer, and `SearchClause.reads_compileAll` compiles searches that must all pass;
* `SearchClause.learned_compile`: afterwards the types of all its fields are known, and no others.
-/

namespace RecordQuery.SearchClause

/-- The answer of one field, given the types of fields. -/
def matchesField (clause : SearchClause) (settings : Settings) (typeAt : String → Option TypeInfo)
    (r : Record) (field : String) : Bool :=
  isSearchable clause.key (typeAt field) &&
    (clause.onField field).predicate settings (typeAt field) r

/-- The answer of a list of fields. -/
def matchesAny (clause : SearchClause) (settings : Settings) (typeAt : String → Option TypeInfo)
    (fields : List String) (r : Record) : Bool :=
  fields.any (clause.matchesField settings typeAt r)

variable (settings : Settings) (records : List Record) (clause : SearchClause)

/-! ## What is read -/

theorem reads_searchableFields (key : Value) (fields : List String) :
    Reads records (searchableFields records key fields) fun typeAt =>
      fields.filter fun field => isSearchable key (typeAt field) := by
  induction fields with
  | nil => exact Reads.pure []
  | cons field fields ih =>
    have own : Reads records (FieldTypes.resolve records (.parse field)) fun typeAt =>
        typeAt field :=
      Reads.resolve field
    have step := own.bind fun type => ih.bind fun rest =>
      Reads.pure (if isSearchable key type then field :: rest else rest)
    exact step.congr fun typeAt => by rw [List.filter_cons]

theorem reads_compileFields (fields : List String) :
    Reads records (clause.compileFields settings records fields) fun typeAt =>
      fields.map fun field => (clause.onField field).predicate settings (typeAt field) := by
  induction fields with
  | nil => exact Reads.pure []
  | cons field fields ih =>
    exact (FilterClause.reads_compileSimple settings records (clause.onField field)).bind
      fun predicate => ih.bind fun predicates => Reads.pure (predicate :: predicates)

/-- Without a predicate nothing passes, and of several any one is enough. -/
theorem anyOf_apply (fields : List String) (predicate : String → Predicate) (r : Record) :
    (if (fields.map predicate).isEmpty then fun _ => false
      else Predicate.combine .or (fields.map predicate)) r = fields.any (predicate · r) := by
  cases fields with
  | nil => rfl
  | cons field fields =>
    have answers : ((field :: fields).map (predicate · r)) ≠ [] := by simp
    rw [List.map_cons, List.isEmpty_cons, if_neg Bool.false_ne_true, ← List.map_cons,
      Predicate.combine_apply, List.map_map]
    exact (Joiner.answer_or answers).trans List.any_map

/-- Compiling a search reads the types of its fields, and gives the answer of any of them. -/
theorem reads_compile :
    Reads records (clause.compile settings records) fun typeAt =>
      clause.matchesAny settings typeAt (clause.searchedFields records) := by
  have steps := (reads_searchableFields records clause.key (clause.searchedFields records)).bind
    fun fields => (reads_compileFields settings records clause fields).bind fun predicates =>
      Reads.pure (if predicates.isEmpty then fun _ => false else Predicate.combine .or predicates)
  refine steps.congr fun typeAt => funext fun r => ?_
  rw [anyOf_apply, List.any_filter]
  rfl

theorem reads_compileList (clauses : List SearchClause) :
    Reads records (compileList settings records clauses) fun typeAt =>
      clauses.map fun clause =>
        clause.matchesAny settings typeAt (clause.searchedFields records) := by
  induction clauses with
  | nil => exact Reads.pure []
  | cons clause clauses ih =>
    exact (reads_compile settings records clause).bind fun predicate =>
      ih.bind fun predicates => Reads.pure (predicate :: predicates)

/-- All searches must pass. -/
theorem reads_compileAll (clauses : List SearchClause) :
    Reads records (compileAll settings records clauses) fun typeAt r =>
      clauses.all fun clause =>
        clause.matchesAny settings typeAt (clause.searchedFields records) r := by
  have list := (reads_compileList settings records clauses).bind fun predicates =>
    Reads.pure (Predicate.combine .and predicates)
  refine list.congr fun typeAt => funext fun r => ?_
  rw [Predicate.combine_apply, Joiner.answer_and, List.map_map, List.all_map]
  rfl

/-! ## What is remembered -/

variable (types : FieldTypes)

theorem learned_searchableFields (key : Value) (fields : List String) :
    FieldTypes.Learned records fields types (searchableFields records key fields types).2 := by
  induction fields generalizing types with
  | nil => exact .nil records types
  | cons field fields ih => exact (FieldTypes.Learned.resolve records field types).trans (ih _)

theorem learned_compileFields (fields : List String) :
    FieldTypes.Learned records fields types
      (clause.compileFields settings records fields types).2 := by
  induction fields generalizing types with
  | nil => exact .nil records types
  | cons field fields ih => exact (FieldTypes.Learned.resolve records field types).trans (ih _)

/-- Compiling a search looks up all its fields, and only these. -/
theorem learned_compile :
    FieldTypes.Learned records (clause.searchedFields records) types
      (clause.compile settings records types).2 := by
  have first := learned_searchableFields records types clause.key (clause.searchedFields records)
  refine (first.trans (learned_compileFields settings records clause _ _)).congr fun field => ?_
  rw [(reads_searchableFields records clause.key (clause.searchedFields records)).value_eq,
    List.mem_append, List.mem_filter]
  exact (or_iff_left_of_imp And.left).symm

end RecordQuery.SearchClause
