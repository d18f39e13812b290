import RecordQuery.Proofs.Filter.OwnValue
import RecordQuery.Proofs.Search.Meaning

/-!
# Searching an enumeration

A text is looked up in an enumeration by the names of its members, and then as a numeral. So a text
that names no member is skipped by a search if it is no numeral; a numeral is not skipped, and finds
the member with its number, as if the number itself had been given.

* `EnumDescriptor.NamesNone` says that a text names no member, `Text.numeral?` is its number;
* `EnumDescriptor.resolve?_of_namesNone`: what such a text is looked up as;
* `SearchClause.matchesField_of_enum`: keys that are looked up as one number find the same;
* `SearchClause.compile_of_namesNone`: what a search for such a text finds.
-/

namespace RecordQuery

open Text

/-! ## Texts without a member -/

/-- The integer of 64 bits that a text is a numeral of, where white space around it does not
count. -/
def Text.numeral? (text : String) : Option Int64 := (readInt? (trim text.toList)).bind int64?

namespace EnumDescriptor

variable {d : EnumDescriptor} {text : String}

/-- No member has the text for its name for the outside or for its identifier, where white space
around the text does not count. -/
def NamesNone (d : EnumDescriptor) (text : String) : Prop :=
  ∀ m ∈ d.members, m.displayName ≠ trimmed text ∧ m.name ≠ trimmed text

instance (d : EnumDescriptor) (text : String) : Decidable (d.NamesNone text) :=
  inferInstanceAs (Decidable (∀ m ∈ d.members, _))

/-- **A text that names no member** is looked up as a numeral. -/
theorem resolve?_of_namesNone (unnamed : d.NamesNone text) : d.resolve? text = numeral? text := by
  have outside : d.lookup (.ofList (trim text.toList)) = none :=
    List.find?_eq_none.2 fun m mem => mt of_decide_eq_true (unnamed m mem).1
  have inside : d.byName (.ofList (trim text.toList)) = none :=
    List.find?_eq_none.2 fun m mem => mt of_decide_eq_true (unnamed m mem).2
  simp only [resolve?, outside, inside, numeral?]

end EnumDescriptor

/-! ## Numbers of an enumeration -/

/-- A value of an enumeration is compared with a number of one by its own number. -/
theorem Comparison.testKind_enum {c : Comparison} {d e : EnumDescriptor} {m n : Int64}
    (relation : c.operator.isRelation = true) :
    c.testKind (.enum d) (.enum e m) (.enum d n) false =
      c.operator.accepts (compare m.toInt n.toInt) := by
  have order : (Value.enum e m).compare? (.enum d n) = some (compare m.toInt n.toInt) := rfl
  refine testKind_eq_accepts rfl rfl rfl ?_ ?_ relation
  · simp [equals, Value.isNull, Value.looselyEqual, order]
  · simp [order?, order]

namespace SearchClause

variable {settings : Settings} {records : List Record} {types : FieldTypes} {field text : String}
  {type : TypeInfo} {d : EnumDescriptor} {n : Int64} {op : Operator} {ignoreCase : Bool}
  {r : Record}

/-- A search of one field answers as this field does. -/
theorem compile_single (settings : Settings) (records : List Record) (types : FieldTypes)
    (key : Value) (op : Operator) (ignoreCase : Bool) (field : String) (r : Record) :
    let clause : SearchClause := ⟨[field], key, op, ignoreCase⟩
    (clause.compile settings records types).1 r =
      clause.matchesField settings (types.typeAt records) r field := by
  intro clause
  rw [(reads_compile settings records clause).value_eq types]
  exact Bool.or_false _

/-- **Keys that are looked up as one number** find the same in a field of the enumeration. -/
theorem matchesField_of_enum {clause clause' : SearchClause} {typeAt : String → Option TypeInfo}
    (found : typeAt field = some type) (enum : type.kind = .enum d)
    (given : clause.key.isNull = false) (given' : clause'.key.isNull = false)
    (named : resolveEnum? clause.key d = resolveEnum? clause'.key d)
    (operator : clause.operator = clause'.operator)
    (ignoreCase : clause.ignoreCase = clause'.ignoreCase) :
    clause.matchesField settings typeAt r field = clause'.matchesField settings typeAt r field := by
  have descriptor : type.kind.descriptor? = some d := by rw [enum]; rfl
  have searched : isSearchable clause.key (some type) = isSearchable clause'.key (some type) := by
    simp only [isSearchable, Option.bind_some, descriptor, named]
  have fitted : (clause.onField field).comparand type = (clause'.onField field).comparand type := by
    simp only [SimpleClause.comparand, onField, descriptor, given, given', named]
  rw [matchesField, matchesField, found, searched]
  simp only [SimpleClause.predicate, fitted]
  simp only [onField, operator, ignoreCase]

/-- **A number of an enumeration** is compared with the numbers of the values. -/
theorem matchesField_number (settings : Settings) (found : types.typeAt records field = some type)
    (enum : type.kind = .enum d) (relation : op.isRelation = true) (fields : List String)
    {e : EnumDescriptor} {m : Int64} (value : r.get field = .enum e m) :
    SearchClause.matchesField ⟨fields, .enum d n, op, ignoreCase⟩ settings (types.typeAt records) r
      field = true ↔ op.Holds m.toInt n.toInt := by
  have known : (r.get field).isNull = false := by rw [value]; rfl
  have present : r.resolve (.parse field) ≠ .missing := by
    rw [Record.resolve_of_known known]
    exact nofun
  have own : (Value.enum d n).kind? = some type.kind := congrArg some enum.symm
  obtain ⟨stopped, null, tested⟩ :=
    FilterClause.exists_compile_eq_testKind settings found own present
  obtain rfl : stopped = false := Bool.eq_false_iff.2 fun stop =>
    absurd (known.symm.trans (null stop)) Bool.false_ne_true
  let clause : SimpleClause := ⟨field, op, .enum d n, ignoreCase⟩
  have searched : isSearchable (.enum d n) (some type) = true := by
    simp [isSearchable, enum, FieldKind.descriptor?, resolveEnum?]
  have asked : SearchClause.matchesField ⟨fields, .enum d n, op, ignoreCase⟩ settings
      (types.typeAt records) r field = (clause.comparison settings type).test r := by
    rw [matchesField, found, searched]
    rfl
  have known' : types.typeAt records clause.field = some type := found
  rw [asked, ← FilterClause.compile_simple_eq_test settings known' r, tested op ignoreCase, value,
    enum, Comparison.testKind_enum relation]
  exact Operator.accepts_compare relation _ _

/-! ## Searches for a text -/

/-- **What a text without a member finds.** In a field of an enumeration, a text that names no
member finds nothing if it is no numeral, whatever the operator. A numeral finds what its number
finds: as a key for a relation it is compared with the number of every value, and for the operators
on texts it stands for the name of the member that has this number. -/
theorem compile_of_namesNone (settings : Settings) (records : List Record) (types : FieldTypes)
    (found : types.typeAt records field = some type) (enum : type.kind = .enum d)
    (unnamed : d.NamesNone text) (op : Operator) (ignoreCase : Bool) :
    let finds (key : Value) : Predicate :=
      (SearchClause.compile ⟨[field], key, op, ignoreCase⟩ settings records types).1
    (numeral? text = none → ∀ r, finds (.string text) r = false) ∧
    ∀ n, numeral? text = some n →
      (∀ r, finds (.string text) r = finds (.enum d n) r) ∧
      (op.isRelation = true → ∀ r e m, r.get field = .enum e m →
        (finds (.string text) r = true ↔ op.Holds m.toInt n.toInt)) := by
  intro finds
  have single (key : Value) (r : Record) : finds key r =
      SearchClause.matchesField ⟨[field], key, op, ignoreCase⟩ settings (types.typeAt records) r
        field :=
    compile_single settings records types key op ignoreCase field r
  have looked : resolveEnum? (.string text) d = numeral? text :=
    EnumDescriptor.resolve?_of_namesNone unnamed
  refine ⟨fun other r => ?_, fun n numeral => ?_⟩
  · have skipped : isSearchable (.string text) (some type) = false := by
      simp [isSearchable, enum, FieldKind.descriptor?, looked, other]
    rw [single, matchesField, found, skipped, Bool.false_and]
  · have own : resolveEnum? (.enum d n) d = some n := if_pos rfl
    have same (r : Record) : finds (.string text) r = finds (.enum d n) r := by
      rw [single, single]
      exact matchesField_of_enum found enum rfl rfl (by rw [own, ← numeral, ← looked]) rfl rfl
    refine ⟨same, fun relation r e m value => ?_⟩
    rw [same, single]
    exact matchesField_number settings found enum relation [field] value

/-- A word that is no name finds nothing; a numeral with white space around it finds a lesser
number. -/
theorem compile_of_namesNone_of_priority :
    let priority : EnumDescriptor :=
      ⟨"Priority", [⟨"Low", none, 1⟩, ⟨"VeryHigh", some "very-high", 9⟩]⟩
    let low : Record := .table [("F", .enum priority 1)]
    let finds (op : Operator) (text : String) : Bool :=
      (SearchClause.compile ⟨["F"], .string text, op, true⟩ {} [low] { limit := none }).1 low
    priority.NamesNone "high" ∧ priority.NamesNone " 9 " ∧ finds .notEquals "high" = false ∧
      finds .lessThan " 9 " = true := by
  intro priority low finds
  let types : FieldTypes := { limit := none }
  have found : types.typeAt [low] "F" = some ⟨.enum priority, true⟩ := by decide
  have word : priority.NamesNone "high" := by decide
  have number : priority.NamesNone " 9 " := by decide
  obtain ⟨nothing, -⟩ := compile_of_namesNone {} [low] types found rfl word .notEquals true
  obtain ⟨-, numeral⟩ := compile_of_namesNone {} [low] types found rfl number .lessThan true
  have less : Operator.lessThan.Holds 1 9 := show (1 : Int) < 9 by decide
  have lesser := ((numeral 9 (by decide)).2 rfl low priority 1 rfl).2 less
  exact ⟨word, number, nothing (by decide) low, lesser⟩

/-- A numeral is not skipped: a text that names no member finds the member with its number, by
`equals` and inside the name. -/
theorem compile_finds_number :
    let priority : EnumDescriptor :=
      ⟨"Priority", [⟨"Low", none, 1⟩, ⟨"VeryHigh", some "very-high", 9⟩]⟩
    let high : Record := .table [("F", .enum priority 9)]
    let types : FieldTypes := { limit := none }
    let finds (op : Operator) : Bool :=
      (SearchClause.compile ⟨["F"], .string "9", op, true⟩ {} [high] types).1 high
    types.typeAt [high] "F" = some ⟨.enum priority, true⟩ ∧ priority.NamesNone "9" ∧
      finds .equals = true ∧ finds .contains = true := by
  intro priority high types finds
  exact ⟨by decide, by decide, by decide +kernel, by decide +kernel⟩

end SearchClause

end RecordQuery
