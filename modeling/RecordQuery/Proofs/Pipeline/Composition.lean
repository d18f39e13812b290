import RecordQuery.Proofs.Filter.Sampling
import RecordQuery.Proofs.Pipeline.Stages

/-!
# Filters, then searches

A run filters before it searches, and so do two runs one after the other. But within one run the
searches find the types that the filters have looked up, over records that are gone by then.

* `FilterClause.fields` are the fields that a filter compares, and `FilterClause.learned_compile`:
  what is known after it was compiled;
* `Pipeline.sharedType` is the type that a search finds after filters;
* `Pipeline.SameMeaning`: where a key means the same with either type;
* `Pipeline.execute_filters_searches`: what one run yields, what two runs yield, and when these are
  the same records.
-/

namespace RecordQuery

/-! ## What filters leave behind -/

namespace FilterClause

mutual

/-- The fields that are compared in a tree. -/
def fields : FilterClause → List String
  | .simple clause => [clause.field]
  | .composite _ clauses => fieldsOfList clauses

def fieldsOfList : List FilterClause → List String
  | [] => []
  | clause :: clauses => clause.fields ++ fieldsOfList clauses

end

variable (settings : Settings) (records : List Record)

mutual

/-- Compiling a tree looks up its fields, and only these. -/
theorem learned_compile (clause : FilterClause) (types : FieldTypes) :
    FieldTypes.Learned records clause.fields types (clause.compile settings records types).2 := by
  cases clause with
  | simple clause =>
    rw [fields]
    exact FieldTypes.Learned.resolve records clause.field types
  | composite joiner clauses =>
    rw [fields]
    exact learned_compileList clauses types

theorem learned_compileList (clauses : List FilterClause) (types : FieldTypes) :
    FieldTypes.Learned records (fieldsOfList clauses) types
      (compileList settings records clauses types).2 := by
  cases clauses with
  | nil => exact .nil records types
  | cons clause clauses =>
    rw [fieldsOfList]
    exact (learned_compile clause types).trans (learned_compileList clauses _)

end

end FilterClause

namespace Pipeline

/-- Whether a filter compares a field. White space in a path does not count. -/
def isFiltered (filters : List FilterClause) (field : String) : Bool :=
  (FilterClause.fieldsOfList filters).any fun other =>
    (FieldPath.parse other).text == (FieldPath.parse field).text

/-- The type that a search finds after filters: the one over all records, if a filter compares the
field, and otherwise the one over the records that are left. -/
def sharedType (limit : Option Nat) (source kept : List Record) (filters : List FilterClause)
    (field : String) : Option TypeInfo :=
  fieldType? limit (if isFiltered filters field then source else kept) (.parse field)

theorem learned_filtered (settings : Settings) (q : Request) (source : List Record)
    (types : FieldTypes) :
    FieldTypes.Learned source (FilterClause.fieldsOfList q.filters) types
      (filtered settings q source types).2 := by
  rw [filtered]
  split
  · next none =>
    rw [List.isEmpty_iff.1 none]
    exact .nil source types
  · exact FilterClause.learned_compileList settings source q.filters types

/-- What is known of a field after the filters. -/
theorem typeAt_filtered (settings : Settings) (q : Request) (source kept : List Record) :
    ((filtered settings q source { limit := settings.sampleLimit }).2).typeAt kept =
      sharedType settings.sampleLimit source kept q.filters := by
  have learned := learned_filtered settings q source { limit := settings.sampleLimit }
  funext field
  rw [FieldTypes.typeAt, FieldTypes.typeOf?, sharedType]
  cases asked : isFiltered q.filters field with
  | true =>
    obtain ⟨other, mem, same⟩ := List.any_eq_true.1 asked
    have text : (FieldPath.parse other).text = (FieldPath.parse field).text := by simpa using same
    rw [← text, learned.get?_of_mem other mem]
    show fieldType? settings.sampleLimit source (.parse other) = _
    rw [FieldPath.parse_eq_of_text_eq text]
    rfl
  | false =>
    have others : ∀ other ∈ FilterClause.fieldsOfList q.filters,
        (FieldPath.parse other).text ≠ (FieldPath.parse field).text := by
      intro other mem same
      have present : isFiltered q.filters field = true :=
        List.any_eq_true.2 ⟨other, mem, beq_iff_eq.2 same⟩
      rw [asked] at present
      cases present
    rw [learned.get?_of_ne _ others, learned.limit_eq]
    rfl

end Pipeline

/-! ## Keys that mean the same -/

namespace SearchClause

variable {clause : SearchClause} {settings : Settings} {typeAt typeAt' : String → Option TypeInfo}
  {field : String} {kind : FieldKind} {records source : List Record} {r : Record}

theorem matchesField_congr (same : typeAt field = typeAt' field) (r : Record) :
    clause.matchesField settings typeAt r field = clause.matchesField settings typeAt' r field := by
  rw [matchesField, matchesField, same]

/-- A key that suits the kind of a uniform field finds the same over any of the records. -/
theorem matchesField_of_suits (plain : ∀ r ∈ source, r.isStatic = false)
    (uniform : UniformAt field kind source) (suits : clause.key.Suits kind)
    (searchable : isSearchable clause.key (some ⟨kind, true⟩) = true)
    (named : (FieldPath.parse field).isEmpty = false) (sub : records ⊆ source) (mem : r ∈ source)
    (limit : Option Nat) :
    clause.matchesField settings (fun field => fieldType? limit records (.parse field)) r field =
      clause.matchesField settings (fun _ => some .unknown) r field := by
  obtain ⟨known, unknown⟩ :=
    fieldType?_of_uniform (fun r mem => plain r (sub mem)) (uniform.mono sub) named limit
  by_cases shows : ShowsValue limit records field
  · have same : (clause.onField field).predicate settings (some .unknown) r =
        (clause.onField field).predicate settings (some ⟨kind, true⟩) r :=
      SimpleClause.predicate_unknown_eq settings suits (uniform r mem)
    simp only [matchesField, known shows, searchable, same]
    rfl
  · simp only [matchesField, unknown shows]

end SearchClause

namespace Pipeline

/-- Where a key means the same with the type of a field over all records and with the one over the
records that are left. -/
inductive SameMeaning (limit : Option Nat) (source kept : List Record) (key : Value)
    (field : String) : Prop
  /-- The types are the same. -/
  | type : fieldType? limit source (.parse field) = fieldType? limit kept (.parse field) →
    SameMeaning limit source kept key field
  /-- The values have one kind, and the key suits it; for an enumeration it names a member. -/
  | uniform {kind : FieldKind} : (∀ r ∈ source, r.isStatic = false) → UniformAt field kind source →
    key.Suits kind → SearchClause.isSearchable key (some ⟨kind, true⟩) = true →
    SameMeaning limit source kept key field

variable {limit : Option Nat} {source kept : List Record} {r : Record} {field : String}

/-- Such a key finds the same either way. -/
theorem SameMeaning.matchesField_eq {clause : SearchClause} (settings : Settings)
    (same : SameMeaning limit source kept clause.key field) (sub : kept ⊆ source) (mem : r ∈ kept) :
    clause.matchesField settings (fun field => fieldType? limit source (.parse field)) r field =
      clause.matchesField settings (fun field => fieldType? limit kept (.parse field)) r field := by
  cases same with
  | type same => exact SearchClause.matchesField_congr same r
  | uniform plain uniform suits searchable =>
    cases named : (FieldPath.parse field).isEmpty with
    | true =>
      have absent (records : List Record) : fieldType? limit records (.parse field) = none :=
        if_pos named
      exact SearchClause.matchesField_congr ((absent source).trans (absent kept).symm) r
    | false =>
      rw [SearchClause.matchesField_of_suits plain uniform suits searchable named
          (List.Subset.refl _) (sub mem),
        SearchClause.matchesField_of_suits plain uniform suits searchable named sub (sub mem)]

/-! ## Runs -/

/-- The records that all searches find, given the types of fields. -/
def found (settings : Settings) (searches : List SearchClause)
    (typeAt : String → Option TypeInfo) (records : List Record) : List Record :=
  records.filter fun r => searches.all fun clause =>
    clause.matchesAny settings typeAt (clause.searchedFields records) r

/-- A run that only filters and searches yields the records that are selected. -/
theorem execute_selected (settings : Settings) (source : List Record)
    (filters : List FilterClause) (joiner : Joiner) (search : List SearchClause) :
    (execute settings source { filters, joiner, search }).result =
      .records (selected settings { filters, joiner, search } source).1 := by
  rw [execute_eq_finish, finish_eq]
  simp only [paged_of_group_nil]
  show DataSet.records (sortRecords [] _) = _
  rw [sortRecords_nil]

/-- Searches find the same with types by which each of their keys means the same. -/
theorem found_congr {settings : Settings} {searches : List SearchClause}
    {typeAt typeAt' : String → Option TypeInfo} {records : List Record}
    (same : ∀ clause ∈ searches, ∀ field ∈ clause.searchedFields records, ∀ r ∈ records,
      clause.matchesField settings typeAt r field = clause.matchesField settings typeAt' r field) :
    found settings searches typeAt records = found settings searches typeAt' records := by
  refine List.filter_congr fun r mem => ?_
  rw [Bool.eq_iff_iff, List.all_eq_true, List.all_eq_true]
  refine forall₂_congr fun clause listed => ?_
  rw [SearchClause.matchesAny, SearchClause.matchesAny, List.any_eq_true, List.any_eq_true]
  refine exists_congr fun field => and_congr_right fun searched => ?_
  rw [same clause listed field searched r mem]

/-- Searches after filters find what they find with the types that both share. -/
theorem selected_eq_found (settings : Settings) (source : List Record) (q : Request) :
    (selected settings q source).1 =
      let kept := (filtered settings q source { limit := settings.sampleLimit }).1
      found settings q.search (sharedType settings.sampleLimit source kept q.filters) kept := by
  rw [selected, (reads_searched settings q _).value_eq, typeAt_filtered]
  rfl

/-- **Filtering and searching in one run** yields the filtered records that all searches find, where
a field that a filter compares has its type over all records, and any other field the one over the
filtered records. Searching these in a run of its own differs in that all fields have the latter
type. So both yield the same records if each key means the same with either type of a field that a
filter compares. -/
theorem execute_filters_searches (settings : Settings) (source : List Record)
    (filters : List FilterClause) (joiner : Joiner) (search : List SearchClause) :
    let limit := settings.sampleLimit
    let whole := (execute settings source { filters, joiner, search }).result
    ∃ kept, (execute settings source { filters, joiner }).result = .records kept ∧
      let alone := (execute settings kept { search }).result
      whole = .records (found settings search (sharedType limit source kept filters) kept) ∧
      alone =
        .records (found settings search (fun field => fieldType? limit kept (.parse field)) kept) ∧
      ((∀ clause ∈ search, ∀ field ∈ clause.searchedFields kept, isFiltered filters field = true →
          SameMeaning limit source kept clause.key field) → whole = alone) := by
  intro limit whole
  let kept := (filtered settings { filters, joiner } source { limit }).1
  have sub : kept ⊆ source := filtered_subset settings { filters, joiner } source { limit }
  have whole_eq : whole =
      .records (found settings search (sharedType limit source kept filters) kept) :=
    (execute_selected settings source filters joiner search).trans
      (congrArg DataSet.records (selected_eq_found settings source { filters, joiner, search }))
  have alone_eq : (execute settings kept { search }).result =
      .records (found settings search (fun field => fieldType? limit kept (.parse field)) kept) :=
    (execute_selected settings kept [] .and search).trans
      (congrArg DataSet.records (selected_eq_found settings kept { search }))
  refine ⟨kept, execute_selected settings source filters joiner [], whole_eq, alone_eq,
    fun meanings => ?_⟩
  rw [whole_eq, alone_eq]
  refine congrArg DataSet.records (found_congr fun clause listed field searched r mem => ?_)
  cases compared : isFiltered filters field with
  | true =>
    have shared : clause.matchesField settings (sharedType limit source kept filters) r field =
        clause.matchesField settings (fun field => fieldType? limit source (.parse field)) r
          field := by
      refine SearchClause.matchesField_congr ?_ r
      rw [sharedType, compared]
      rfl
    exact shared.trans
      ((meanings clause listed field searched compared).matchesField_eq settings sub mem)
  | false =>
    refine SearchClause.matchesField_congr ?_ r
    rw [sharedType, compared]
    rfl

/-- A number that is found by its digit, by the filter and then by the search. -/
theorem execute_filters_searches_number :
    let first : Record := .table [("City", .string "Cork"), ("N", .int64 1)]
    let second : Record := .table [("City", .string "Lyon"), ("N", .int64 2)]
    let filter : FilterClause := .simple ⟨"N", .equals, .string "2", true⟩
    let clause : SearchClause := ⟨["City", "N"], .string "2", .contains, true⟩
    ∃ kept, (execute {} [first, second] { filters := [filter] }).result = .records kept ∧
      (execute {} [first, second] { filters := [filter], search := [clause] }).result =
        (execute {} kept { search := [clause] }).result := by
  intro first second filter clause
  have plain : ∀ r ∈ [first, second], r.isStatic = false :=
    List.forall_mem_cons.2 ⟨rfl, List.forall_mem_singleton.2 rfl⟩
  have uniform : UniformAt "N" .int64 [first, second] :=
    List.forall_mem_cons.2 ⟨.inr (by decide), List.forall_mem_singleton.2 (.inr (by decide))⟩
  have suits : clause.key.Suits .int64 := {
    empty := fun same => absurd (Value.string.inj same) (by decide)
    member := fun _ same => by cases same
    shown := fun _ _ same => by cases same }
  obtain ⟨kept, filtered, -, -, same⟩ :=
    execute_filters_searches {} [first, second] [filter] .and [clause]
  refine ⟨kept, filtered, same fun own listed field searched compared => ?_⟩
  obtain rfl := List.mem_singleton.1 listed
  rcases List.mem_cons.1 searched with rfl | other
  · exact absurd compared (by decide)
  · obtain rfl := List.mem_singleton.1 other
    exact .uniform plain uniform suits rfl

/-- A filter for nulls leaves a field of texts without a text, and a filter for other numbers one of
numbers and texts without a number. In a run of its own, a search then finds the null by the empty
text, and does not find the text by a number in another notation. -/
theorem execute_filters_searches_not_always :
    let rows (data : DataSet) : List Record :=
      match data with
      | .records items => items
      | .grouped _ => []
    let whole (source : List Record) (filter : FilterClause) (clause : SearchClause) :
        List Record :=
      rows (execute {} source { filters := [filter], search := [clause] }).result
    let composed (source : List Record) (filter : FilterClause) (clause : SearchClause) :
        List Record :=
      rows (execute {} (rows (execute {} source { filters := [filter] }).result)
        { search := [clause] }).result
    let texts : List Record := [.table [("F", .string "a")], .table [("F", .null)]]
    let null : FilterClause := .simple ⟨"F", .equals, .null, true⟩
    let empty : SearchClause := ⟨["F"], .string "", .equals, false⟩
    let mixed : List Record := [.table [("N", .int64 1)], .table [("N", .string "1a")]]
    let other : FilterClause := .simple ⟨"N", .notEquals, .int64 1, true⟩
    let digits : SearchClause := ⟨["N"], .string "01", .contains, true⟩
    ((whole texts null empty).length = 0 ∧ (composed texts null empty).length = 1) ∧
      (whole mixed other digits).length = 1 ∧ (composed mixed other digits).length = 0 := by
  intro rows whole composed texts null empty mixed other digits
  have selects (source : List Record) (filters : List FilterClause) (search : List SearchClause) :
      rows (execute {} source { filters, joiner := .and, search }).result =
        (selected {} { filters, joiner := .and, search } source).1 := by
    rw [execute_selected]
  have whole_eq (source : List Record) (filter : FilterClause) (clause : SearchClause) :
      whole source filter clause =
        (selected {} { filters := [filter], joiner := .and, search := [clause] } source).1 :=
    selects source [filter] [clause]
  have composed_eq (source : List Record) (filter : FilterClause) (clause : SearchClause) :
      composed source filter clause =
        (selected {} { filters := [], joiner := .and, search := [clause] }
          (selected {} { filters := [filter], joiner := .and, search := [] } source).1).1 :=
    (selects _ [] [clause]).trans (congrArg
      (fun kept => (selected {} { filters := [], joiner := .and, search := [clause] } kept).1)
      (selects source [filter] []))
  rw [whole_eq, whole_eq, composed_eq, composed_eq]
  decide +kernel

end Pipeline

end RecordQuery
