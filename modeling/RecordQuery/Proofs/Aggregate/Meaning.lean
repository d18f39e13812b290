import RecordQuery.Aggregate
import RecordQuery.Proofs.Fields.Sorted
import RecordQuery.Proofs.Filter.Meaning

/-!
# The meaning of aggregates

The value of an aggregate depends on the records and on the type of its field, which is looked up in
the memory that all stages share. Once the types are known, aggregates over any records are read off
these types and the memory stays as it is.

* `Aggregate.valueOver` is the value of an aggregate over records, given the types of fields;
* `Aggregate.reads_computeNamed` and `Aggregate.learned_computeNamed`: what a first computation
  yields, and what is known of types afterwards;
* `FieldTypes.Knows` says that types are known, and `Aggregate.computeNamed_of_knows` is every later
  computation;
* `Aggregate.tellsApart_label`, `Aggregate.tellsApart_groupLabel`: labels tell aggregates apart, so
  the entry of a label is the value of its aggregate (`Aggregate.get?_named`).
-/

namespace RecordQuery

/-! ## Known types -/

namespace FieldTypes

/-- The types of some fields are known. -/
def Knows (typeAt : String → Option TypeInfo) (fields : List String) (types : FieldTypes) : Prop :=
  ∀ field ∈ fields, Fields.get? (FieldPath.parse field).text types.known = some (typeAt field)

variable {typeAt : String → Option TypeInfo} {fields : List String} {types types' : FieldTypes}
  {records : List Record}

theorem Learned.knows (h : Learned records fields types types') :
    types'.Knows (types.typeAt records) fields :=
  h.get?_of_mem

/-- A type that is known is found, whatever the records, and nothing is learned. -/
theorem Knows.resolve_eq (h : types.Knows typeAt fields) {field : String} (mem : field ∈ fields)
    (records : List Record) :
    resolve records (.parse field) types = (typeAt field, types) := by
  have known := h field mem
  simp only [resolve, known]

theorem Knows.mono (h : types.Knows typeAt fields) {fewer : List String} (sub : fewer ⊆ fields) :
    types.Knows typeAt fewer :=
  fun field mem => h field (sub mem)

end FieldTypes

namespace Aggregate

variable (settings : Settings) (typeAt : String → Option TypeInfo) (records : List Record)
  (a : Aggregate) (name : Aggregate → String) (aggregates : List Aggregate)

/-! ## Values over types -/

/-- The fields whose types an aggregate asks for. -/
def typedFields : List String :=
  match a.kind with
  | .count => []
  | .unsupported _ => []
  | _ => [a.field]

/-- The clause that a field equals true or false. -/
def equalClause (field : String) (expected : Bool) : SimpleClause :=
  ⟨field, .equals, .bool expected, true⟩

/-- The value of an aggregate over records, where fields have some types. -/
def valueOver : Option Value :=
  match a.kind with
  | .count => some (countValue records.length)
  | .trueCount =>
    some (countValue
      (records.countP (FilterClause.leafOver settings typeAt (equalClause a.field true))))
  | .falseCount =>
    some (countValue
      (records.countP (FilterClause.leafOver settings typeAt (equalClause a.field false))))
  | .unsupported _ => none
  | kind => (typeAt a.field).bind fun type => reduce kind type (valuesAt (.parse a.field) records)

/-- The values at a path are those of the records that have one there. -/
theorem mem_valuesAt {records : List Record} {path : FieldPath} {v : Value} :
    v ∈ valuesAt path records ↔ ∃ r ∈ records, r.valueAt path = v ∧ v.isNull = false := by
  simp only [valuesAt, List.mem_filter, List.mem_map, Bool.not_eq_true']
  constructor
  · rintro ⟨⟨r, mem, same⟩, some⟩
    exact ⟨r, mem, same, some⟩
  · rintro ⟨r, mem, same, some⟩
    exact ⟨⟨r, mem, same⟩, some⟩

/-- The named values of aggregates, of those that apply. -/
def namedOver : List (String × Value) :=
  aggregates.filterMap fun a => (valueOver settings typeAt records a).map fun v => (name a, v)

/-! ## Computing for the first time -/

theorem reads_compute :
    Reads records (compute settings records a) fun typeAt =>
      valueOver settings typeAt records a := by
  obtain ⟨field, kind⟩ := a
  have counts (expected : Bool) : Reads records (countEqual settings records field expected)
      fun typeAt => countValue
        (records.countP (FilterClause.leafOver settings typeAt (equalClause field expected))) :=
    (FilterClause.reads_compileSimple settings records _).bind fun predicate =>
      Reads.pure (countValue (records.countP predicate))
  have looked : Reads records (FieldTypes.resolve records (.parse field)) fun typeAt =>
      typeAt field :=
    Reads.resolve field
  have reduces (kind : AggregateKind) := looked.bind fun type =>
    Reads.pure (type.bind fun type => reduce kind type (valuesAt (.parse field) records))
  cases kind with
  | count => exact Reads.pure _
  | unsupported name => exact Reads.pure _
  | trueCount => exact (counts true).bind fun v => Reads.pure (some v)
  | falseCount => exact (counts false).bind fun v => Reads.pure (some v)
  | sum => exact reduces .sum
  | average => exact reduces .average
  | min => exact reduces .min
  | max => exact reduces .max

/-- Computing aggregates reads the types of their fields. -/
theorem reads_computeNamed :
    Reads records (computeNamed settings records name aggregates) fun typeAt =>
      namedOver settings typeAt records name aggregates := by
  induction aggregates with
  | nil => exact Reads.pure []
  | cons a rest ih =>
    have steps := (reads_compute settings records a).bind fun value =>
      ih.bind fun named => Reads.pure ((value.map fun v => (name a, v)).toList ++ named)
    refine steps.congr fun typeAt => ?_
    rw [namedOver, namedOver, List.filterMap_cons]
    cases valueOver settings typeAt records a <;> rfl

theorem learned_compute (types : FieldTypes) :
    FieldTypes.Learned records a.typedFields types (compute settings records a types).2 := by
  obtain ⟨field, kind⟩ := a
  cases kind with
  | count => exact .nil records types
  | unsupported name => exact .nil records types
  | _ => exact .resolve records field types

/-- Computing aggregates looks up the types that they ask for. -/
theorem learned_computeNamed (types : FieldTypes) :
    FieldTypes.Learned records (aggregates.flatMap typedFields) types
      (computeNamed settings records name aggregates types).2 := by
  induction aggregates generalizing types with
  | nil => exact .nil records types
  | cons a rest ih => exact (learned_compute settings records a types).trans (ih _)

/-! ## Computing again -/

variable {typeAt aggregates} {types : FieldTypes}

theorem compute_of_knows {a : Aggregate} (h : types.Knows typeAt a.typedFields) :
    compute settings records a types = (valueOver settings typeAt records a, types) := by
  obtain ⟨field, kind⟩ := a
  have known (asked : field ∈ (⟨field, kind⟩ : Aggregate).typedFields) :
      FieldTypes.resolve records (.parse field) types = (typeAt field, types) :=
    h.resolve_eq asked records
  cases kind with
  | count => rfl
  | unsupported name => rfl
  | trueCount | falseCount =>
    simp only [compute, countEqual, SimpleClause.compile, bind, StateT.bind,
      known List.mem_cons_self]
    rfl
  | _ =>
    simp only [compute, bind, StateT.bind, known List.mem_cons_self]
    rfl

/-- **Aggregates of known types** are read off these types, and nothing is learned. -/
theorem computeNamed_of_knows (h : types.Knows typeAt (aggregates.flatMap typedFields)) :
    computeNamed settings records name aggregates types =
      (namedOver settings typeAt records name aggregates, types) := by
  induction aggregates with
  | nil => rfl
  | cons a rest ih =>
    rw [List.flatMap_cons] at h
    have first := compute_of_knows settings records (h.mono (List.subset_append_left _ _))
    have later := ih (h.mono (List.subset_append_right _ _))
    simp only [computeNamed, bind, StateT.bind, first, later]
    rw [namedOver, namedOver, List.filterMap_cons]
    cases valueOver settings typeAt records a <;> rfl

/-! ## Labels -/

/-- A text is determined by its parts around a dash, where the second part has no space. -/
theorem parts_of_dash {f g m n : String} (hm : ' ' ∉ m.toList) (hn : ' ' ∉ n.toList)
    (h : f ++ " - " ++ m = g ++ " - " ++ n) : f = g ∧ m = n := by
  have last (f m : String) (hm : ' ' ∉ m.toList) :
      (f ++ " - " ++ m).toList.reverse.takeWhile (· ≠ ' ') = m.toList.reverse := by
    have dash : " - ".toList = [' ', '-', ' '] := rfl
    have letters : ∀ c ∈ m.toList.reverse, decide (c ≠ ' ') = true := by
      intro c mem
      have : c ≠ ' ' := fun same => hm (same ▸ List.mem_reverse.1 mem)
      simpa using this
    simp only [String.toList_append, List.reverse_append, dash]
    rw [List.takeWhile_append_of_pos letters]
    simp
  have names : m = n := by
    have same : m.toList.reverse = n.toList.reverse := by rw [← last f m hm, h, last g n hn]
    exact String.toList_injective (List.reverse_inj.1 same)
  subst names
  refine ⟨?_, rfl⟩
  have lists : f.toList ++ (" - ".toList ++ m.toList) = g.toList ++ (" - ".toList ++ m.toList) := by
    simpa only [String.toList_append, List.append_assoc] using congrArg String.toList h
  exact String.toList_injective (List.append_cancel_right lists)

/-- Names tell the supported aggregates apart. -/
def TellsApart (name : Aggregate → String) : Prop :=
  ∀ a b : Aggregate, a.kind.isSupported = true → b.kind.isSupported = true → name a = name b → a = b

/-- Titles that have no spaces and are read back as their kinds make names that tell aggregates
apart. -/
theorem tellsApart_of_parse (title : AggregateKind → String)
    (space : ∀ kind, kind.isSupported = true → ' ' ∉ (title kind).toList)
    (parse : ∀ kind, kind.isSupported = true → AggregateKind.parse (title kind) = kind) :
    TellsApart fun a => a.field ++ " - " ++ title a.kind := by
  intro a b ha hb same
  obtain ⟨field, titles⟩ := parts_of_dash (space _ ha) (space _ hb) same
  have kind : a.kind = b.kind := by rw [← parse _ ha, titles, parse _ hb]
  obtain ⟨fieldA, kindA⟩ := a
  obtain ⟨fieldB, kindB⟩ := b
  obtain rfl : fieldA = fieldB := field
  obtain rfl : kindA = kindB := kind
  rfl

theorem tellsApart_groupLabel : TellsApart groupLabel := by
  refine tellsApart_of_parse AggregateKind.name (fun kind supported => ?_)
    fun kind supported => ?_
  all_goals
    cases kind with
    | unsupported name => cases supported
    | _ => decide

theorem tellsApart_label : TellsApart label := by
  refine tellsApart_of_parse (fun kind => Text.lower kind.name) (fun kind supported => ?_)
    fun kind supported => ?_
  all_goals
    cases kind with
    | unsupported name => cases supported
    | _ => decide

/-! ## Entries -/

/-- **The entry of a label** is the value of its aggregate. -/
theorem get?_named {name : Aggregate → String} (apart : TellsApart name) {a : Aggregate}
    (mem : a ∈ aggregates) (supported : a.kind.isSupported = true) :
    Fields.get? (name a) (Fields.ofList (namedOver settings typeAt records name aggregates)) =
      valueOver settings typeAt records a := by
  -- an entry of this label is the value of an aggregate that is told apart from all others
  have own {pair : String × Value}
      (listed : pair ∈ namedOver settings typeAt records name aggregates)
      (label : pair.1 = name a) : valueOver settings typeAt records a = some pair.2 := by
    obtain ⟨b, -, found⟩ := List.mem_filterMap.1 listed
    obtain ⟨v, value, rfl⟩ := Option.map_eq_some_iff.1 found
    have applies : b.kind.isSupported = true := by
      obtain ⟨field, kind⟩ := b
      cases kind with
      | unsupported name => cases value
      | _ => rfl
    obtain rfl := apart b a applies supported label
    exact value
  rw [Fields.get?_ofList]
  cases found : Fields.get? (name a)
      (namedOver settings typeAt records name aggregates).reverse with
  | some v => exact (own (List.mem_reverse.1 (Fields.mem_of_get? found)) rfl).symm
  | none =>
    cases value : valueOver settings typeAt records a with
    | none => rfl
    | some v =>
      have listed : (name a, v) ∈ namedOver settings typeAt records name aggregates :=
        List.mem_filterMap.2 ⟨a, mem, by rw [value]; rfl⟩
      have named :
          name a ∈ Fields.names (namedOver settings typeAt records name aggregates).reverse :=
        List.mem_map.2 ⟨_, List.mem_reverse.2 listed, rfl⟩
      have entry := Fields.mem_names_iff.1 named
      rw [found] at entry
      cases entry

end Aggregate

end RecordQuery
