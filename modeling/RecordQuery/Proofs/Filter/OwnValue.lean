import RecordQuery.Proofs.FieldTypes.Uniform
import RecordQuery.Proofs.Filter.Fitted
import RecordQuery.Proofs.Filter.Relations

/-!
# A value as its own literal

The value of a field, given as the literal of a clause on this field, is fitted to its own kind and
stays as it is. So the clause compares it with itself. That it equals itself holds at every depth
of a list or an object; only NaN would differ from itself.

* `Value.HoldsNoBinary`: no binary number stands in a value;
* `Value.compare?_self` and `Value.looselyEqual_self`: such a value equals itself;
* `Comparison.testKind_self`: what the operators answer for a value and itself;
* `SimpleClause.comparand_of_own_kind`: a literal of the kind of the field is kept;
* `FilterClause.exists_compile_eq_read` and `FilterClause.exists_compile_eq_testKind`: what a clause
  compares in a record;
* `FilterClause.compile_own_value`: the clauses that a record passes with its own value.
-/

namespace RecordQuery

open Text

/-! ## Reading a value -/

theorem Value.kind?_ne_unknown {v : Value} : v.kind? ≠ some .unknown := by
  cases v <;> exact nofun

namespace Record

variable {r : Record} {field : String}

/-- Where a value is read, the way to it ends. -/
theorem resolve_of_known (known : (r.get field).isNull = false) :
    r.resolve (.parse field) = .value (r.get field) := by
  rw [get, valueAt] at known ⊢
  cases ended : r.resolve (.parse field) with
  | value v => rfl
  | intermediateNull =>
    rw [ended] at known
    cases known
  | missing =>
    rw [ended] at known
    cases known

/-- The empty path reads no value. -/
theorem isEmpty_of_known (known : (r.get field).isNull = false) :
    (FieldPath.parse field).isEmpty = false := by
  rw [← Bool.not_eq_true]
  intro empty
  have unnamed : (FieldPath.parse field).leaf? = none :=
    List.getLast?_eq_none_iff.2 (List.isEmpty_iff.1 empty)
  rw [get, valueAt, resolve, unnamed] at known
  cases known

end Record

/-! ## Values that equal themselves -/

namespace Value

def isBinary : Value → Bool
  | .float32 _ | .float64 _ => true
  | _ => false

/-- No binary number stands in a value, at any depth. -/
inductive HoldsNoBinary : Value → Prop
  | leaf {v : Value} : v.isContainer = false → v.isBinary = false → HoldsNoBinary v
  | list {items : List Value} : (∀ v ∈ items, HoldsNoBinary v) → HoldsNoBinary (.list items)
  | object {fields : List (String × Value)} :
    (∀ field ∈ fields, HoldsNoBinary field.2) → HoldsNoBinary (.object fields)

variable {v : Value}

theorem HoldsNoBinary.isBinary_eq (h : v.HoldsNoBinary) : v.isBinary = false := by
  cases h with
  | leaf _ exact => exact exact
  | _ => rfl

theorem compareNumbers?_self (numeric : v.isNumeric = true) (exact : v.isBinary = false) :
    compareNumbers? v v = some .eq := by
  cases v with
  | int16 n => exact congrArg some Std.compare_self
  | int32 n => exact congrArg some Std.compare_self
  | int64 n => exact congrArg some Std.compare_self
  | decimal d => exact congrArg some Std.compare_self
  | float32 x => cases exact
  | float64 x => cases exact
  | _ => cases numeric

/-- In the natural order a value is equal to itself. -/
theorem compare?_self (known : v.isNull = false) (single : v.isContainer = false)
    (exact : v.isBinary = false) : v.compare? v = some .eq := by
  cases v with
  | null => cases known
  | list items => cases single
  | object fields => cases single
  | int16 n => exact compareNumbers?_self rfl exact
  | int32 n => exact compareNumbers?_self rfl exact
  | int64 n => exact compareNumbers?_self rfl exact
  | decimal d => exact compareNumbers?_self rfl exact
  | float32 x => cases exact
  | float64 x => cases exact
  | _ => exact congrArg some Std.compare_self

theorem sameItems_self {items : List Value} (h : ∀ v ∈ items, v.same v = true) :
    sameItems items items = true := by
  induction items with
  | nil => rfl
  | cons v items ih =>
    obtain ⟨first, rest⟩ := List.forall_mem_cons.1 h
    rw [sameItems, first, ih rest]
    rfl

theorem sameFields_self {fields : List (String × Value)}
    (h : ∀ field ∈ fields, field.2.same field.2 = true) : sameFields fields fields = true := by
  induction fields with
  | nil => rfl
  | cons field fields ih =>
    obtain ⟨first, rest⟩ := List.forall_mem_cons.1 h
    rw [sameFields, first, ih rest, beq_self_eq_true]
    rfl

theorem same_self (h : v.HoldsNoBinary) : v.same v = true := by
  induction h with
  | @leaf v single exact =>
    cases v with
    | float32 x => cases exact
    | float64 x => cases exact
    | list items => cases single
    | object fields => cases single
    | _ => simp [same]
  | list _ ih => exact sameItems_self ih
  | object _ ih => exact sameFields_self ih

theorem looselyEqualItems_self {items : List Value} (h : ∀ v ∈ items, v.looselyEqual v = true) :
    looselyEqualItems items items = true := by
  induction items with
  | nil => rfl
  | cons v items ih =>
    obtain ⟨first, rest⟩ := List.forall_mem_cons.1 h
    rw [looselyEqualItems, first, ih rest]
    rfl

/-- **A value without binary numbers equals itself**, and so do the items of a list. -/
theorem looselyEqual_self (h : v.HoldsNoBinary) : v.looselyEqual v = true := by
  induction h with
  | @leaf v single exact =>
    cases known : v.isNull with
    | true =>
      obtain rfl : v = .null := by cases v <;> first | rfl | cases known
      rfl
    | false =>
      rw [looselyEqual_eq_compare? known single, compare?_self known single exact]
      rfl
  | list _ ih => exact looselyEqualItems_self ih
  | object fields _ => exact same_self (.object fields)

end Value

/-! ## Clauses with the value as the literal -/

namespace Operator

/-- Whether an operator holds of a value and itself: it is no relation of what comes before or
after, and not the one of what differs. -/
def isReflexive : Operator → Bool
  | .notEquals | .lessThan | .greaterThan => false
  | _ => true

end Operator

namespace Comparison

variable {c : Comparison} {kind : FieldKind} {v : Value} {dayOnly : Bool}

theorem equals_self (known : v.isNull = false) (exact : v.HoldsNoBinary) :
    c.equals kind v v dayOnly = true := by
  unfold equals
  split
  · simp only [textOr_of_not_isNull known, beq_self_eq_true]
  · simp only [known]
    cases dayOnly with
    | true => exact beq_self_eq_true _
    | false => exact Value.looselyEqual_self exact

/-- Of what has an order, a value stands in the same place as itself. -/
theorem order?_self (known : v.isNull = false) (single : v.isContainer = false)
    (exact : v.isBinary = false) (day : dayOnly = true → v.isMidnight = true) :
    c.order? kind v v dayOnly = some .eq := by
  unfold order?
  cases dayOnly with
  | true =>
    obtain ⟨d, hd⟩ := exists_day_of_isMidnight (day rfl)
    rw [if_pos rfl, hd]
    exact congrArg some Std.compare_self
  | false =>
    rw [if_neg Bool.false_ne_true]
    split
    · exact congrArg some Std.compare_self
    · exact Value.compare?_self known single exact

/-- **A value is compared with itself.** The relations of order are asked of values without children
alone. -/
theorem testKind_self {op : Operator} (known : v.isNull = false) (exact : v.HoldsNoBinary)
    (single : op.isOrdering = true → v.isContainer = false) :
    (c.withOperator op).testKind kind v v false = op.isReflexive := by
  have equal (dayOnly : Bool) : (c.withOperator op).equals kind v v dayOnly = true :=
    equals_self known exact
  have ordered (h : op.isOrdering = true) :
      (c.withOperator op).testKind kind v v false = op.accepts .eq := by
    have day : c.comparesDays ⟨kind, v, v⟩ = true → v.isMidnight = true := fun days =>
      (Bool.and_eq_true_iff.1 days).2
    rw [testKind_eq_any (s := ⟨kind, v, v⟩) known (single h) known (.inl h), orderOf?,
      order?_self known (single h) exact.isBinary_eq day]
    rfl
  cases op with
  | equals => exact equal _
  | notEquals => exact congrArg not (equal _)
  | lessThan | lessThanOrEqual | greaterThan | greaterThanOrEqual => exact ordered rfl
  | startsWith => exact startsWith_self _
  | endsWith => exact endsWith_self _
  | contains => exact contains_self _

end Comparison

namespace SimpleClause

variable {clause : SimpleClause} {type : TypeInfo}

/-- A literal of the kind of the field is kept. -/
theorem comparand_of_own_kind (own : clause.value.kind? = some type.kind) :
    clause.comparand type = .typed clause.value := by
  unfold comparand
  cases enum : type.kind.descriptor? with
  | some d =>
    have kind : type.kind = .enum d := by
      cases found : type.kind <;> rw [found] at enum <;> cases enum
      rfl
    rw [kind] at own
    cases value : clause.value with
    | enum e n =>
      rw [value] at own
      obtain rfl : e = d := FieldKind.enum.inj (Option.some.inj own)
      simp [Value.isNull, resolveEnum?]
    | _ => rw [value] at own; cases own
  | none =>
    dsimp only
    rw [coerceForComparison_of_own_kind own]

theorem testValue_of_own_kind (settings : Settings) (own : clause.value.kind? = some type.kind)
    (v : Value) (stopped : Bool) : (clause.comparison settings type).testValue v stopped =
      (clause.comparison settings type).testKind type.kind v clause.value stopped := by
  have settled : type.kind ≠ .unknown := fun unknown =>
    Value.kind?_ne_unknown (own.trans (congrArg some unknown))
  have kept : (clause.comparison settings type).comparand = .typed clause.value :=
    comparand_of_own_kind own
  rw [Comparison.testValue, kept]
  exact if_neg settled

end SimpleClause

namespace FilterClause

variable {records : List Record} {types : FieldTypes} {type : TypeInfo} {field : String}
  {literal : Value} {r : Record}

/-- All clauses on a field compare the value that is read, which is null where a null stands on the
way. -/
theorem exists_compile_eq_read (settings : Settings)
    (found : types.typeAt records field = some type)
    (present : r.resolve (.parse field) ≠ .missing) :
    ∃ stopped, (stopped = true → (r.get field).isNull = true) ∧
      ∀ clause : SimpleClause, clause.field = field →
        (compile settings records (.simple clause) types).1 r =
          (clause.comparison settings type).testValue (r.get field) stopped := by
  rw [Record.get, Record.valueAt]
  cases ended : r.resolve (.parse field) with
  | missing => exact absurd ended present
  | intermediateNull =>
    refine ⟨true, fun _ => rfl, ?_⟩
    rintro clause rfl
    rw [compile_simple_eq_test settings found r, Comparison.test, SimpleClause.comparison, ended]
    rfl
  | value v =>
    refine ⟨false, fun stop => absurd stop Bool.false_ne_true, ?_⟩
    rintro clause rfl
    rw [compile_simple_eq_test settings found r, Comparison.test, SimpleClause.comparison, ended]
    rfl

/-- A literal of the kind of the field is compared as it is. -/
theorem exists_compile_eq_testKind (settings : Settings)
    (found : types.typeAt records field = some type) (own : literal.kind? = some type.kind)
    (present : r.resolve (.parse field) ≠ .missing) :
    ∃ stopped, (stopped = true → (r.get field).isNull = true) ∧ ∀ op ignoreCase,
      let clause : SimpleClause := ⟨field, op, literal, ignoreCase⟩
      (compile settings records (.simple clause) types).1 r =
        (clause.comparison settings type).testKind type.kind (r.get field) literal stopped := by
  obtain ⟨stopped, null, read⟩ := exists_compile_eq_read settings found present
  refine ⟨stopped, null, fun op ignoreCase => ?_⟩
  let clause : SimpleClause := ⟨field, op, literal, ignoreCase⟩
  have typed : clause.value.kind? = some type.kind := own
  exact (read clause rfl).trans (clause.testValue_of_own_kind settings typed _ _)

/-- **A record passes with its own value.** Let the values of a field have one kind, apart from
nulls, in records that are not static. A clause that takes the value of one of them for its literal,
where no binary number stands in it, keeps this record with `equals` and with the three operators on
texts, and does not keep it with `notEquals`. If the value has no children, `lessThanOrEqual` and
`greaterThanOrEqual` keep the record, and `lessThan` and `greaterThan` do not. -/
theorem compile_own_value (settings : Settings) (records : List Record) (field : String)
    (ignoreCase : Bool) {kind : FieldKind} (plain : ∀ r ∈ records, r.isStatic = false)
    (uniform : UniformAt field kind records) {r : Record} (mem : r ∈ records)
    (known : (r.get field).isNull = false) (exact : (r.get field).HoldsNoBinary) :
    let keeps (op : Operator) : Bool := (compile settings records
      (.simple ⟨field, op, r.get field, ignoreCase⟩) { limit := none }).1 r
    (∀ op ∈ [Operator.equals, .startsWith, .endsWith, .contains], keeps op = true) ∧
      keeps .notEquals = false ∧
      ((r.get field).isContainer = false →
        (∀ op ∈ [Operator.lessThanOrEqual, .greaterThanOrEqual], keeps op = true) ∧
          ∀ op ∈ [Operator.lessThan, .greaterThan], keeps op = false) := by
  intro keeps
  have own : (r.get field).kind? = some kind :=
    (uniform r mem).resolve_left (Bool.eq_false_iff.1 known)
  have found : FieldTypes.typeAt { limit := none } records field = some ⟨kind, true⟩ :=
    (fieldType?_of_uniform plain uniform (Record.isEmpty_of_known known) none).1 ⟨r, mem, known⟩
  have present : r.resolve (.parse field) ≠ .missing := by
    rw [Record.resolve_of_known known]
    exact nofun
  obtain ⟨stopped, null, answers⟩ := exists_compile_eq_testKind settings found own present
  have reads : stopped = false := Bool.eq_false_iff.2 fun stop =>
    absurd (known.symm.trans (null stop)) Bool.false_ne_true
  have answer (op : Operator) (single : op.isOrdering = true → (r.get field).isContainer = false) :
      keeps op = op.isReflexive := by
    let c : Comparison := SimpleClause.comparison ⟨field, op, r.get field, ignoreCase⟩ settings
      ⟨kind, true⟩
    have self : (c.withOperator op).testKind kind (r.get field) (r.get field) false =
        op.isReflexive := Comparison.testKind_self known exact single
    exact (answers op ignoreCase).trans (reads ▸ self)
  refine ⟨fun op mem => ?_, answer .notEquals nofun, fun single => ⟨fun op mem => ?_,
    fun op mem => ?_⟩⟩
  · simp only [List.mem_cons, List.not_mem_nil, or_false] at mem
    rcases mem with rfl | rfl | rfl | rfl <;> exact answer _ nofun
  · simp only [List.mem_cons, List.not_mem_nil, or_false] at mem
    rcases mem with rfl | rfl <;> exact answer _ fun _ => single
  · simp only [List.mem_cons, List.not_mem_nil, or_false] at mem
    rcases mem with rfl | rfl <;> exact answer _ fun _ => single

/-- A list with a null and an object in it is found by itself. A day is neither before nor after
itself. -/
theorem compile_own_value_of_nested :
    let items : Value := .list [.null, .object [("Code", .string "01")]]
    let day : Value := .dateTime ⟨⟨2024, 2, 29, by decide⟩, 0, 0, by decide, by decide⟩
    let records (v : Value) : List Record := [.table [("F", .null)], .table [("F", v)]]
    let keeps (v : Value) (op : Operator) : Bool := (FilterClause.compile {} (records v)
      (.simple ⟨"F", op, v, true⟩) { limit := none }).1 (.table [("F", v)])
    items.HoldsNoBinary ∧ keeps items .equals = true ∧ keeps items .notEquals = false ∧
      keeps day .lessThanOrEqual = true ∧ keeps day .greaterThan = false := by
  intro items day records keeps
  have itemsExact : items.HoldsNoBinary := by
    have object : (Value.object [("Code", .string "01")]).HoldsNoBinary :=
      .object (List.forall_mem_singleton.2 (.leaf rfl rfl))
    exact .list (List.forall_mem_cons.2 ⟨.leaf rfl rfl, List.forall_mem_singleton.2 object⟩)
  have uniform (v : Value) {kind : FieldKind} (own : ((Record.table [("F", v)]).get "F").kind? =
      some kind) : UniformAt "F" kind (records v) :=
    List.forall_mem_cons.2 ⟨.inl (by decide), List.forall_mem_singleton.2 (.inr own)⟩
  obtain ⟨found, differs, -⟩ := compile_own_value {} (records items) "F" true (by decide)
    (uniform items rfl) (List.mem_cons_of_mem _ (List.mem_singleton_self _)) (by decide) itemsExact
  obtain ⟨-, -, order⟩ := compile_own_value {} (records day) "F" true (by decide)
    (uniform day rfl) (List.mem_cons_of_mem _ (List.mem_singleton_self _)) (by decide)
    (.leaf rfl rfl)
  obtain ⟨within, beyond⟩ := order rfl
  exact ⟨itemsExact, found .equals (by decide), differs, within .lessThanOrEqual (by decide),
    beyond .greaterThan (by decide)⟩

end FilterClause

end RecordQuery
