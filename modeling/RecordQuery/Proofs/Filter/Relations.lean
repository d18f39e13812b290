import RecordQuery.Proofs.Calendar.Clocks
import RecordQuery.Proofs.Filter.Nulls
import RecordQuery.Proofs.Text.Parts

/-!
# One clause with all operators

A compiled clause compares two values of a kind, which do not depend on its operator. Equality and
order are computed apart, but come to the same comparison of these two.

* `Comparison.sides?`: what is compared, and `Comparison.testValue_eq`, how;
* `Comparison.equals_eq_order?`: values are equal if their order says so;
* `FilterClause.compile_operators`: the laws of the operators of a compiled clause.
-/

namespace RecordQuery

open Text

/-! ## Relations of an order -/

namespace Operator

/-- The relations of which at most one holds. -/
def exclusive : List Operator := [.lessThan, .equals, .greaterThan]

variable {a b : Operator} {order : Ordering}

theorem isOrdering_or_equals (h : a ∈ exclusive) : a.isOrdering = true ∨ a = .equals := by
  simp only [exclusive, List.mem_cons, List.not_mem_nil, or_false] at h
  rcases h with rfl | rfl | rfl <;> simp [isOrdering]

/-- An order is less, equal or greater, and only one of these. -/
theorem eq_of_accepts (ha : a ∈ exclusive) (hb : b ∈ exclusive) (first : a.accepts order = true)
    (second : b.accepts order = true) : a = b := by
  simp only [exclusive, List.mem_cons, List.not_mem_nil, or_false] at ha hb
  rcases ha with rfl | rfl | rfl <;> rcases hb with rfl | rfl | rfl <;>
    cases order <;> simp [accepts] at first second ⊢

end Operator

/-! ## What is compared -/

/-- The values that a compiled clause compares: the kind that decides how, the value of the field
and the literal as it was fitted. -/
structure Comparison.Sides where
  kind : FieldKind
  field : Value
  literal : Value

namespace Comparison

variable {c : Comparison} {op : Operator} {kind : FieldKind} {field literal : Value}
  {dayOnly stopped : Bool}

/-- The comparison with another operator. -/
def withOperator (c : Comparison) (op : Operator) : Comparison := { c with operator := op }

@[simp] theorem operator_withOperator : (c.withOperator op).operator = op := rfl

@[simp] theorem type_withOperator : (c.withOperator op).type = c.type := rfl

@[simp] theorem order?_withOperator : (c.withOperator op).order? = c.order? := rfl

/-- The text of a value, and null for null. -/
def asText (v : Value) : Value := if v.isNull then .null else .string v.display

/-- What a clause compares when it reads a value. A literal that does not fit is compared as a text;
one that names no member of an enumeration is not compared at all. -/
def sides? (c : Comparison) (field : Value) : Option Sides :=
  match c.comparand with
  | .noMatch => none
  | .text text => some ⟨.string, asText field, .string text⟩
  | .typed literal =>
    if c.type.kind = .unknown then
      match coerceForComparison literal (.of (field.kind?.getD .unknown)) with
      | .ok fitted => some ⟨field.kind?.getD .unknown, field, fitted⟩
      | .error _ => some ⟨.string, asText field, .string literal.display⟩
    else some ⟨c.type.kind, field, literal⟩

/-- **What is compared does not depend on the operator.** -/
theorem sides?_withOperator (c : Comparison) (op : Operator) (field : Value) :
    (c.withOperator op).sides? field = c.sides? field := rfl

/-- A value is tested by its sides. A literal without a member differs from every value. -/
theorem testValue_eq (c : Comparison) (field : Value) (stopped : Bool) :
    c.testValue field stopped =
      match c.sides? field with
      | none => c.operator == .notEquals
      | some s => c.testKind s.kind s.field s.literal stopped := by
  cases fitted : c.comparand with
  | noMatch => simp only [testValue, sides?, fitted]
  | text text =>
    simp only [testValue, sides?, fitted]
    rfl
  | typed literal =>
    simp only [testValue, sides?, fitted]
    by_cases unknown : c.type.kind = .unknown
    · simp only [if_pos unknown]
      cases coerceForComparison literal (.of (field.kind?.getD .unknown)) <;> rfl
    · simp only [if_neg unknown]

/-- The value keeps its form: null stays null, and what has no children gets none. -/
theorem field_of_sides? {s : Sides} (h : c.sides? field = some s) :
    s.field.isNull = field.isNull ∧ (field.isContainer = false → s.field.isContainer = false) := by
  have text : (asText field).isNull = field.isNull ∧ (asText field).isContainer = false := by
    unfold asText
    cases null : field.isNull <;> exact ⟨rfl, rfl⟩
  unfold sides? at h
  split at h
  · cases h
  · cases h
    exact ⟨text.1, fun _ => text.2⟩
  · split at h
    · split at h
      · cases h
        exact ⟨rfl, id⟩
      · cases h
        exact ⟨text.1, fun _ => text.2⟩
    · cases h
      exact ⟨rfl, id⟩

/-! ## Equality and order -/

theorem exists_day_of_isMidnight (h : literal.isMidnight = true) : ∃ d, literal.day? = some d := by
  cases literal with
  | dateTime t => exact ⟨t.date, rfl⟩
  | dateTimeOffset t => exact ⟨t.wall.date, rfl⟩
  | _ => cases h

/-- **Equality is what the order says.** Of two values that are not null, the first without
children, equality and order are decided by the days, by the texts that ignore case, or by the
natural order: both by the same. -/
theorem equals_eq_order? (known : field.isNull = false) (single : field.isContainer = false)
    (given : literal.isNull = false)
    (day : dayOnly = true → kind.isDate = true ∧ literal.isMidnight = true) :
    c.equals kind field literal dayOnly = (c.order? kind field literal dayOnly == some .eq) := by
  unfold equals order?
  cases dayOnly with
  | true =>
    obtain ⟨date, midnight⟩ := day rfl
    obtain ⟨b, hb⟩ := exists_day_of_isMidnight midnight
    have noText : kind ≠ .string := by
      rintro rfl
      cases date
    simp only [noText, decide_false, Bool.false_and, Bool.false_eq_true, if_false, if_true, known,
      given, hb, Option.map_some]
    cases field.day? with
    | none => rfl
    | some a =>
      have same : a = b ↔ compare a.position b.position = .eq := by
        rw [Int.compare_eq_eq]
        exact ⟨congrArg Date.position, Date.position_inj⟩
      rw [Bool.eq_iff_iff]
      simp [same]
  | false =>
    by_cases texts : (kind = .string && c.ignoreCase) = true
    · simp only [if_pos texts, textOr_of_not_isNull known, textOr_of_not_isNull given,
        Bool.false_eq_true, if_false]
      rw [Bool.eq_iff_iff]
      simp
    · simp only [if_neg texts, known, given, Bool.false_eq_true, if_false]
      exact Value.looselyEqual_eq_compare? known single

/-- Whether the comparison is one of days. -/
def comparesDays (c : Comparison) (s : Sides) : Bool :=
  s.kind.isDate && c.type.nullable && s.literal.isMidnight

/-- The order of the two sides, from which all relations are read. -/
def orderOf? (c : Comparison) (s : Sides) : Option Ordering :=
  c.order? s.kind s.field s.literal (c.comparesDays s)

/-- Equality and the four relations of order are read from one order. -/
theorem testKind_eq_any {s : Sides} (known : s.field.isNull = false)
    (single : s.field.isContainer = false) (given : s.literal.isNull = false)
    (relation : op.isOrdering = true ∨ op = .equals) :
    (c.withOperator op).testKind s.kind s.field s.literal false =
      (c.orderOf? s).any op.accepts := by
  have day : c.comparesDays s = true → s.kind.isDate = true ∧ s.literal.isMidnight = true := by
    intro h
    simp only [comparesDays, Bool.and_eq_true] at h
    exact ⟨h.1.1, h.2⟩
  have equal : c.equals s.kind s.field s.literal (c.comparesDays s) = (c.orderOf? s == some .eq) :=
    equals_eq_order? known single given day
  rcases relation with ordering | rfl
  · cases op with
    | lessThan | lessThanOrEqual | greaterThan | greaterThanOrEqual =>
      simp only [testKind, operator_withOperator, type_withOperator, order?_withOperator, known,
        given, Bool.false_or, Bool.false_eq_true, if_false, orderOf?, comparesDays]
      cases c.order? s.kind s.field s.literal _ <;> rfl
    | _ => cases ordering
  · have asked : (c.withOperator .equals).testKind s.kind s.field s.literal false =
        c.equals s.kind s.field s.literal (c.comparesDays s) := rfl
    rw [asked, equal]
    cases c.orderOf? s <;> rfl

/-- No relation of order holds of null. -/
theorem testKind_of_isNull (ordering : op.isOrdering = true)
    (null : stopped = true ∨ field.isNull = true ∨ literal.isNull = true) :
    (c.withOperator op).testKind kind field literal stopped = false := by
  have never : (stopped || field.isNull || literal.isNull) = true := by
    rcases null with h | h | h <;> simp [h]
  cases op with
  | lessThan | lessThanOrEqual | greaterThan | greaterThanOrEqual =>
    simp only [testKind, operator_withOperator, never, if_true]
  | _ => cases ordering

/-! ## The laws for one value -/

theorem testValue_notEquals (c : Comparison) (field : Value) (stopped : Bool) :
    (c.withOperator .notEquals).testValue field stopped =
      !(c.withOperator .equals).testValue field stopped := by
  rw [testValue_eq, testValue_eq, sides?_withOperator, sides?_withOperator]
  cases c.sides? field <;> rfl

/-- A relation of values that are not null is read from the order of the sides, and holds of none
where nothing is compared. -/
theorem testValue_eq_any (known : field.isNull = false) (single : field.isContainer = false)
    (given : ∀ s, c.sides? field = some s → s.literal.isNull = false)
    (relation : op.isOrdering = true ∨ op = .equals) :
    (c.withOperator op).testValue field false =
      ((c.sides? field).bind c.orderOf?).any op.accepts := by
  rw [testValue_eq, sides?_withOperator]
  cases compared : c.sides? field with
  | none =>
    cases op with
    | notEquals => rcases relation with ordering | other <;> contradiction
    | _ => rfl
  | some s =>
    obtain ⟨null, children⟩ := field_of_sides? compared
    exact testKind_eq_any (null.trans known) (children single) (given s compared) relation

/-- **At most one** of less, equal and greater holds of a value without children. -/
theorem testValue_exclusive {a b : Operator} (single : field.isContainer = false)
    (ha : a ∈ Operator.exclusive) (hb : b ∈ Operator.exclusive)
    (first : (c.withOperator a).testValue field stopped = true)
    (second : (c.withOperator b).testValue field stopped = true) : a = b := by
  rw [testValue_eq, sides?_withOperator] at first second
  cases compared : c.sides? field with
  | none =>
    rw [compared] at first
    obtain rfl : a = .notEquals := by simpa [withOperator] using first
    simp [Operator.exclusive] at ha
  | some s =>
    rw [compared] at first second
    by_cases null : stopped = true ∨ s.field.isNull = true ∨ s.literal.isNull = true
    · -- of null nothing is less or greater, so both ask for equality
      have equality {op : Operator} (h : op ∈ Operator.exclusive)
          (holds : (c.withOperator op).testKind s.kind s.field s.literal stopped = true) :
          op = .equals := by
        refine (Operator.isOrdering_or_equals h).resolve_left fun ordering => ?_
        rw [testKind_of_isNull ordering null] at holds
        cases holds
      rw [equality ha first, equality hb second]
    · simp only [not_or, Bool.not_eq_true] at null
      obtain ⟨rfl, known, given⟩ := null
      have children := (field_of_sides? compared).2 single
      simp only [testKind_eq_any known children given (Operator.isOrdering_or_equals ha)] at first
      simp only [testKind_eq_any known children given (Operator.isOrdering_or_equals hb)] at second
      cases order : c.orderOf? s with
      | none =>
        rw [order] at first
        cases first
      | some o =>
        rw [order] at first second
        exact Operator.eq_of_accepts ha hb first second

/-- **A relation or equality** is the relation or equality, where nothing is null. -/
theorem testValue_orEqual (known : field.isNull = false) (single : field.isContainer = false)
    (given : ∀ s, c.sides? field = some s → s.literal.isNull = false) :
    (c.withOperator .lessThanOrEqual).testValue field false =
        ((c.withOperator .lessThan).testValue field false ||
          (c.withOperator .equals).testValue field false) ∧
      (c.withOperator .greaterThanOrEqual).testValue field false =
        ((c.withOperator .greaterThan).testValue field false ||
          (c.withOperator .equals).testValue field false) := by
  have read (op : Operator) (relation : op.isOrdering = true ∨ op = .equals) :=
    testValue_eq_any (c := c) known single given relation
  rw [read .lessThanOrEqual (.inl rfl), read .lessThan (.inl rfl), read .equals (.inr rfl),
    read .greaterThanOrEqual (.inl rfl), read .greaterThan (.inl rfl)]
  cases (c.sides? field).bind c.orderOf? with
  | none => exact ⟨rfl, rfl⟩
  | some o => cases o <;> exact ⟨rfl, rfl⟩

/-- **The front and the end** of a text are inside it, where the field is reached. -/
theorem testValue_contains (h : op = .startsWith ∨ op = .endsWith)
    (holds : (c.withOperator op).testValue field false = true) :
    (c.withOperator .contains).testValue field false = true := by
  rw [testValue_eq, sides?_withOperator] at holds ⊢
  cases compared : c.sides? field with
  | none =>
    rw [compared] at holds
    rcases h with rfl | rfl <;> cases holds
  | some s =>
    rw [compared] at holds
    rcases h with rfl | rfl
    · exact contains_of_startsWith holds
    · exact contains_of_endsWith holds

/-- A record without the field passes no comparison. -/
theorem test_of_missing {r : Record} (missing : r.resolve c.path = .missing) :
    c.test r = false := by
  rw [test, missing]

/-- A record is tested by the value that is read, which is null where a null stands on the way. -/
theorem exists_test_withOperator {r : Record} (c : Comparison)
    (present : r.resolve c.path ≠ .missing) :
    ∃ stopped,
      (∀ op, (c.withOperator op).test r =
        (c.withOperator op).testValue (r.valueAt c.path) stopped) ∧
      (stopped = true →
        r.resolve c.path = .intermediateNull ∧ (r.valueAt c.path).isNull = true) := by
  simp only [test, withOperator, Record.valueAt]
  cases ended : r.resolve c.path with
  | value v => exact ⟨false, fun op => rfl, fun other => absurd other Bool.false_ne_true⟩
  | intermediateNull => exact ⟨true, fun op => rfl, fun _ => ⟨rfl, rfl⟩⟩
  | missing => exact absurd ended present

end Comparison

/-! ## Compiled clauses -/

/-- Clauses that differ in the operator compile to comparisons that differ in the operator. -/
theorem SimpleClause.comparison_eq_withOperator (field : String) (op : Operator) (literal : Value)
    (ignoreCase : Bool) (settings : Settings) (type : TypeInfo) :
    (SimpleClause.mk field op literal ignoreCase).comparison settings type =
      ((SimpleClause.mk field .equals literal ignoreCase).comparison settings
        type).withOperator op :=
  rfl

namespace FilterClause

section

variable {records : List Record} {types : FieldTypes} {r : Record}

/-- Where there is no such field, for the records or for this one, nothing is kept. -/
theorem compile_eq_false (settings : Settings) (clause : SimpleClause)
    (unread : types.typeAt records clause.field = none ∨
      r.resolve (.parse clause.field) = .missing) :
    (compile settings records (.simple clause) types).1 r = false := by
  cases found : types.typeAt records clause.field with
  | none =>
    have read := (reads_compileSimple settings records clause).value_eq types
    rw [leafOver, found] at read
    exact congrFun read r
  | some type =>
    rw [found] at unread
    have missing : r.resolve (clause.comparison settings type).path = .missing :=
      unread.resolve_left (Option.some_ne_none type)
    rw [compile_simple_eq_test settings found r, Comparison.test_of_missing missing]

/-- Clauses that differ in the operator test one value with it. -/
theorem exists_compile_eq_testValue (settings : Settings) {type : TypeInfo} {field : String}
    {literal : Value} {ignoreCase : Bool} (found : types.typeAt records field = some type)
    (present : r.resolve (.parse field) ≠ .missing) :
    let c : Comparison :=
      SimpleClause.comparison ⟨field, .equals, literal, ignoreCase⟩ settings type
    ∃ stopped,
      (∀ op, (compile settings records (.simple ⟨field, op, literal, ignoreCase⟩) types).1 r =
        (c.withOperator op).testValue (r.get field) stopped) ∧
      (stopped = true →
        r.resolve (.parse field) = .intermediateNull ∧ (r.get field).isNull = true) := by
  intro c
  obtain ⟨stopped, tested, null⟩ := c.exists_test_withOperator present
  refine ⟨stopped, fun op => ?_, null⟩
  let clause : SimpleClause := ⟨field, op, literal, ignoreCase⟩
  have own : types.typeAt records clause.field = some type := found
  rw [compile_simple_eq_test settings own r, SimpleClause.comparison_eq_withOperator]
  exact tested op

end

/-- **The laws of the operators.** Take the clauses over one field with one literal that differ in
their operator alone. Where the type of the field is not found, or the record misses the field, none
of them keeps the record. Otherwise `notEquals` keeps it exactly if `equals` does not. At most one
of `lessThan`, `equals` and `greaterThan` keeps it if the field reads as a value without children.
If besides neither this value nor the literal that it is compared with is null, `lessThanOrEqual`
keeps it exactly if `lessThan` or `equals` does, and `greaterThanOrEqual` if `greaterThan` or
`equals` does. What `startsWith` or `endsWith` keeps, `contains` keeps, unless a null stands on the
way to the field. -/
theorem compile_operators (settings : Settings) (records : List Record) (types : FieldTypes)
    (field : String) (literal : Value) (ignoreCase : Bool) (r : Record) :
    let clause (op : Operator) : SimpleClause := ⟨field, op, literal, ignoreCase⟩
    let keeps (op : Operator) : Bool := (compile settings records (.simple (clause op)) types).1 r
    let reached := r.resolve (.parse field)
    let value := r.get field
    (types.typeAt records field = none ∨ reached = .missing → ∀ op, keeps op = false) ∧
    ∀ type, types.typeAt records field = some type → reached ≠ .missing →
      (keeps .notEquals = !keeps .equals) ∧
      (value.isContainer = false → ∀ a ∈ [Operator.lessThan, .equals, .greaterThan],
        ∀ b ∈ [Operator.lessThan, .equals, .greaterThan],
          keeps a = true → keeps b = true → a = b) ∧
      (value.isContainer = false → value.isNull = false →
        (∀ s, ((clause .equals).comparison settings type).sides? value = some s →
          s.literal.isNull = false) →
        keeps .lessThanOrEqual = (keeps .lessThan || keeps .equals) ∧
          keeps .greaterThanOrEqual = (keeps .greaterThan || keeps .equals)) ∧
      (reached ≠ .intermediateNull → keeps .startsWith = true ∨ keeps .endsWith = true →
        keeps .contains = true) := by
  intro clause keeps reached value
  refine ⟨fun unread op => compile_eq_false settings (clause op) unread,
    fun type found present => ?_⟩
  obtain ⟨stopped, answer, null⟩ : ∃ stopped, (∀ op, keeps op = _) ∧ (stopped = true → _ ∧ _) :=
    exists_compile_eq_testValue settings found present
  refine ⟨?_, fun single a ha b hb first second => ?_, fun single known given => ?_,
    fun open' part => ?_⟩
  · rw [answer, answer, Comparison.testValue_notEquals]
  · rw [answer] at first second
    exact Comparison.testValue_exclusive single ha hb first second
  · have reads : stopped = false := by
      rw [← Bool.not_eq_true]
      intro h
      have none : value.isNull = true := (null h).2
      rw [none] at known
      cases known
    subst reads
    rw [answer, answer, answer, answer, answer]
    exact Comparison.testValue_orEqual known single given
  · have reads : stopped = false := by
      rw [← Bool.not_eq_true]
      exact fun h => open' (null h).1
    subst reads
    rw [answer, answer] at part
    rw [answer]
    rcases part with front | back
    · exact Comparison.testValue_contains (.inl rfl) front
    · exact Comparison.testValue_contains (.inr rfl) back

/-- A day as the literal, for a time of that day in a field that may be null: the time equals the
day, and comes neither before nor after it. A clause without a field keeps nothing. -/
theorem compile_operators_of_day :
    let day : Date := ⟨2024, 2, 29, by decide⟩
    let timed : Record := .table [("At", .dateTime ⟨day, 36000, 0, by decide, by decide⟩)]
    let unset : Record := .table [("At", .null)]
    let keeps (field : String) (op : Operator) : Bool :=
      (compile {} [timed, unset] (.simple ⟨field, op, .string "2024-02-29", true⟩)
        ⟨none, []⟩).1 timed
    keeps "At" .equals = true ∧ keeps "At" .notEquals = false ∧
      keeps "At" .lessThan = false ∧ keeps "At" .greaterThan = false ∧
      keeps "At" .lessThanOrEqual = true ∧ keeps "At" .greaterThanOrEqual = true ∧
      (keeps "At" .endsWith = true → keeps "At" .contains = true) ∧
      ∀ op, keeps "" op = false := by
  intro day timed unset keeps
  have found : FieldTypes.typeAt ⟨none, []⟩ [timed, unset] "At" = some ⟨.dateTime, true⟩ := by
    decide
  have absent : FieldTypes.typeAt ⟨none, []⟩ [timed, unset] "" = none := by decide
  obtain ⟨other, exclusive, orEqual, inside⟩ := (compile_operators {} [timed, unset] ⟨none, []⟩ "At"
    (.string "2024-02-29") true timed).2 _ found nofun
  have equal : keeps "At" .equals = true := by decide +kernel
  have apart {op : Operator} (h : op ∈ Operator.exclusive) (differs : op ≠ .equals) :
      keeps "At" op = false := by
    rw [← Bool.not_eq_true]
    exact fun kept => differs (exclusive rfl op h .equals (by decide) kept equal)
  obtain ⟨atMost, atLeast⟩ := orEqual rfl rfl fun s compared => by
    obtain rfl := Option.some.inj compared
    rfl
  refine ⟨equal, ?_, apart (by decide) (by decide), apart (by decide) (by decide), ?_, ?_,
    fun back => inside nofun (.inr back), ?_⟩
  · exact other.trans (congrArg not equal)
  · exact atMost.trans ((congrArg (_ || ·) equal).trans (Bool.or_true _))
  · exact atLeast.trans ((congrArg (_ || ·) equal).trans (Bool.or_true _))
  · exact (compile_operators {} [timed, unset] ⟨none, []⟩ "" (.string "2024-02-29") true
      timed).1 (.inl absent)

end FilterClause

end RecordQuery
