import RecordQuery.Proofs.Aggregate.Meaning
import RecordQuery.Proofs.Filter.IgnoreCase
import RecordQuery.Proofs.Filter.OwnValue
import RecordQuery.Proofs.Value.SortOrder

/-!
# Counting truths

The records whose field equals true are counted, and those whose field equals false. The two
literals are fitted to the kind of the field, or to that of each value where nothing is known of the
field: they become 1 and 0 in a numeric kind, and texts in one of texts or one that they do not fit.
No value equals both, whatever they become.

* `Value.NumbersApart.not_both`: no value equals two numbers that differ in every way in which
  numbers are compared;
* `Comparison.KeepsApart`: at most one of two literals equals a field, and
  `Comparison.keepsApart_truths` says so of what true and false are fitted to in each kind;
* `TruthsAt`: a field of truths, and `TruthsAt.fieldType?_eq`, its type;
* `Aggregate.not_both_predicate`, `Aggregate.predicate_truth`: the records that are counted;
* `Aggregate.compute_truths`: the two counts.
-/

namespace RecordQuery

open Text

/-! ## Numbers apart -/

namespace Value

variable {a b v : Value}

/-- The order of two numbers that are not both integers. -/
def compareFractions? (a b : Value) : Option Ordering :=
  match decimals? a b with
  | some (x, y) => some (x.compare y)
  | none => compareDoubles? a b

theorem compareNumbers?_of_toInt?_eq_none (h : a.toInt? = none ∨ b.toInt? = none) :
    compareNumbers? a b = compareFractions? a b := by
  rw [compareNumbers?_eq]
  rcases h with none | none <;> rw [none]
  · rfl
  · cases a.toInt? <;> rfl

/-- Two numbers of one form that differ: as integers, if they are integers, as decimals and as
doubles. -/
structure NumbersApart (a b : Value) : Prop where
  isNumeric : a.isNumeric = true ∧ b.isNumeric = true
  isDecimal_eq : a.isDecimal = b.isDecimal
  integers : (a.toInt? = none ∧ b.toInt? = none) ∨
    ∃ m n, a.toInt? = some m ∧ b.toInt? = some n ∧ m.toInt ≠ n.toInt
  isSome_toDecimal? : a.toDecimal?.isSome = true ∧ b.toDecimal?.isSome = true
  decimals : a.toDecimal?.map (·.position) ≠ b.toDecimal?.map (·.position)
  doubles : a.toDouble?.bind (·.position?) ≠ b.toDouble?.bind (·.position?)

/-- An integer is not equal to both of two others. -/
theorem not_both_integers {k m n : Int} (apart : m ≠ n) (first : some (compare k m) = some .eq)
    (second : some (compare k n) = some .eq) : False := by
  have own : k = m := Int.compare_eq_eq.1 (Option.some.inj first)
  have other : k = n := Int.compare_eq_eq.1 (Option.some.inj second)
  exact apart (own.symm.trans other)

/-- Numbers that are equal as doubles have one place. -/
theorem position?_of_compareDoubles? (equal : compareDoubles? v a = some .eq) :
    v.toDouble?.bind (·.position?) = a.toDouble?.bind (·.position?) := by
  rw [compareDoubles?] at equal
  cases double : v.toDouble? with
  | none =>
    rw [double] at equal
    cases equal
  | some x =>
    cases double' : a.toDouble? with
    | none =>
      rw [double, double'] at equal
      cases equal
    | some y =>
      rw [double, double', Option.bind_some, Option.bind_some, Binary.compare?] at equal
      split at equal
      · next m n hm hn =>
        rw [Option.bind_some, Option.bind_some, hm, hn,
          Int.compare_eq_eq.1 (Option.some.inj equal)]
      · cases equal

namespace NumbersApart

theorem not_both_doubles (h : NumbersApart a b) (first : compareDoubles? v a = some .eq)
    (second : compareDoubles? v b = some .eq) : False :=
  h.doubles ((position?_of_compareDoubles? first).symm.trans (position?_of_compareDoubles? second))

theorem not_both_fractions (h : NumbersApart a b) (first : compareFractions? v a = some .eq)
    (second : compareFractions? v b = some .eq) : False := by
  obtain ⟨x, hx⟩ := Option.isSome_iff_exists.1 h.isSome_toDecimal?.1
  obtain ⟨y, hy⟩ := Option.isSome_iff_exists.1 h.isSome_toDecimal?.2
  have apart := h.decimals
  rw [hx, hy] at apart
  rw [compareFractions?, decimals?_eq, hx] at first
  rw [compareFractions?, decimals?_eq, ← h.isDecimal_eq, hy] at second
  cases form : v.isDecimal || a.isDecimal with
  | false =>
    rw [form] at first second
    exact h.not_both_doubles first second
  | true =>
    rw [form] at first second
    cases decimal : v.toDecimal? with
    | none =>
      rw [decimal] at first second
      exact h.not_both_doubles first second
    | some z =>
      rw [decimal] at first second
      exact not_both_integers (fun same => apart (congrArg some same)) first second

/-- No number equals both, as it is compared with both in the same way: with integers, decimals or
doubles. -/
theorem not_both_numbers (h : NumbersApart a b) (first : compareNumbers? v a = some .eq)
    (second : compareNumbers? v b = some .eq) : False := by
  rcases h.integers with ⟨none, none'⟩ | ⟨m, n, hm, hn, apart⟩
  · rw [compareNumbers?_of_toInt?_eq_none (.inr none)] at first
    rw [compareNumbers?_of_toInt?_eq_none (.inr none')] at second
    exact h.not_both_fractions first second
  · cases integer : v.toInt? with
    | none =>
      rw [compareNumbers?_of_toInt?_eq_none (.inl integer)] at first second
      exact h.not_both_fractions first second
    | some k =>
      rw [compareNumbers?_eq, integer, hm] at first
      rw [compareNumbers?_eq, integer, hn] at second
      exact not_both_integers apart first second

/-- **No value equals both.** Besides numbers, only the values of enumerations compare with numbers,
by their own ones. -/
theorem not_both (h : NumbersApart a b) :
    ¬ (v.compare? a = some .eq ∧ v.compare? b = some .eq) := by
  rintro ⟨first, second⟩
  cases numeric : v.isNumeric with
  | true =>
    rw [compare?_of_numeric numeric h.isNumeric.1] at first
    rw [compare?_of_numeric numeric h.isNumeric.2] at second
    exact h.not_both_numbers first second
  | false =>
    have same : v.rank = a.rank := by
      by_contra other
      rw [compare?_eq_none_of_rank_ne other] at first
      cases first
    have rank : a.rank = 2 := by
      have numeric := h.isNumeric.1
      cases a <;> first | rfl | cases numeric
    obtain ⟨d, k, rfl⟩ : ∃ d k, v = .enum d k := by
      rw [rank] at same
      cases v <;> first | exact ⟨_, _, rfl⟩ | (cases numeric; done) | cases same
    rw [compare?_enum d k h.isNumeric.1] at first
    rw [compare?_enum d k h.isNumeric.2] at second
    rcases h.integers with ⟨none, -⟩ | ⟨m, n, hm, hn, apart⟩
    · rw [none] at first
      cases first
    · rw [hm] at first
      rw [hn] at second
      exact not_both_integers apart first second

end NumbersApart

end Value

/-! ## Literals apart -/

/-- A value that is no list, object or null is equal to what compares as equal. -/
theorem Value.looselyEqual_single {v a : Value} (known : a.isNull = false)
    (single : a.isContainer = false) : v.looselyEqual a = (v.compare? a == some .eq) := by
  cases a with
  | null => cases known
  | list items => cases single
  | object fields => cases single
  | _ => cases v <;> rfl

theorem Value.single_of_isNumeric {v : Value} (numeric : v.isNumeric = true) :
    v.isNull = false ∧ v.isContainer = false ∧ v.isMidnight = false := by
  cases v <;> first | exact ⟨rfl, rfl, rfl⟩ | cases numeric

namespace Comparison

variable {c : Comparison} {kind : FieldKind} {a b : Value}

/-- At most one of two literals equals a field. -/
def KeepsApart (c : Comparison) (kind : FieldKind) (a b : Value) : Prop :=
  ∀ field stopped,
    ¬ (c.testKind kind field a stopped = true ∧ c.testKind kind field b stopped = true)

/-- Texts that differ in lower case are kept apart. -/
theorem keepsApart_texts (equality : c.operator = .equals) (ignored : c.ignoreCase = true)
    {s t : String} (apart : lower s ≠ lower t) : c.KeepsApart .string (.string s) (.string t) := by
  have read (field : Value) (text : String) (stopped : Bool) :
      c.testKind .string field (.string text) stopped = true ↔
        lower field.display = lower text := by
    have given : (Value.string text).isNull = false := rfl
    have own : textOr c.blankMarker (.string text) = text := textOr_of_not_isNull given
    rw [testKind_equals equality, Comparison.equals, ignored, given, own]
    simp [textOr_empty]
  rintro field stopped ⟨first, second⟩
  exact apart (((read field s stopped).1 first).symm.trans ((read field t stopped).1 second))

/-- Values are kept apart if nothing compares as equal to both, and they are no dates and have no
children. -/
theorem keepsApart_values (equality : c.operator = .equals) (other : kind ≠ .string)
    (single : ∀ v ∈ [a, b], v.isNull = false ∧ v.isContainer = false ∧ v.isMidnight = false)
    (apart : ∀ v : Value, ¬ (v.compare? a = some .eq ∧ v.compare? b = some .eq)) :
    c.KeepsApart kind a b := by
  have read (field : Value) {v : Value} (mem : v ∈ [a, b]) {stopped : Bool}
      (passes : c.testKind kind field v stopped = true) : field.compare? v = some .eq := by
    obtain ⟨known, leaf, midnight⟩ := single v mem
    rw [testKind_equals equality, midnight, Bool.and_false, Comparison.equals, known] at passes
    cases isNull : field.isNull with
    | true => simp [other, isNull] at passes
    | false =>
      rw [isNull, Value.looselyEqual_single known leaf] at passes
      simpa [other] using passes
  rintro field stopped ⟨first, second⟩
  exact apart field ⟨read field (by simp) first, read field (by simp) second⟩

theorem keepsApart_numbers (equality : c.operator = .equals) (other : kind ≠ .string)
    (apart : a.NumbersApart b) : c.KeepsApart kind a b := by
  refine keepsApart_values equality other ?_ fun v => apart.not_both
  simpa using ⟨Value.single_of_isNumeric apart.isNumeric.1,
    Value.single_of_isNumeric apart.isNumeric.2⟩

theorem keepsApart_bools (equality : c.operator = .equals) (other : kind ≠ .string) :
    c.KeepsApart kind (.bool true) (.bool false) := by
  refine keepsApart_values equality other (by simp [Value.isNull, Value.isContainer]; decide) ?_
  rintro v ⟨first, second⟩
  cases v with
  | bool b => cases b <;> simp_all [Value.compare?]
  | _ => cases first

end Comparison

/-! ## True and false in each kind -/

section Fitting

variable {kind : FieldKind} {b : Bool}

/-- One and zero are numbers of every numeric kind, and are apart in it. -/
theorem exists_numbersApart (numeric : kind.isNumeric = true) :
    ∃ number : Bool → Value, (∀ b, integerTo? (if b then 1 else 0) kind = some (number b)) ∧
      (number true).NumbersApart (number false) := by
  have some (b : Bool) : (integerTo? (if b then 1 else 0) kind).isSome = true := by
    cases kind <;> first | (cases numeric; done) | rfl | (cases b <;> rfl)
  refine ⟨fun b => (integerTo? (if b then 1 else 0) kind).getD .null, fun b => ?_, ?_⟩
  · obtain ⟨v, fits⟩ := Option.isSome_iff_exists.1 (some b)
    simp only [fits, Option.getD_some]
  -- in each of the six kinds the two are closed numbers; integers are told from the others last
  cases kind <;> first | (cases numeric; done) | skip
  all_goals
    refine ⟨⟨rfl, rfl⟩, by decide +kernel, ?_, by decide +kernel, by decide +kernel,
      by decide +kernel⟩
    first
      | exact .inl ⟨rfl, rfl⟩
      | exact .inr ⟨1, 0, rfl, rfl, by decide⟩

/-- In a numeric kind, a truth is one or zero. -/
theorem coerceForComparison_bool (numeric : kind.isNumeric = true) {v : Value}
    (number : integerTo? (if b then 1 else 0) kind = some v) :
    coerceForComparison (.bool b) (.of kind) = .ok v := by
  have fitted : coerceForComparison (.bool b) (.of kind) = coerceNumber (.bool b) kind := by
    cases kind <;> first | (cases numeric; done) | rfl
  rw [fitted, coerceNumber, toNumber?, number]

/-- **True and false** do not fit a kind, or what they are fitted to is kept apart. -/
theorem Comparison.keepsApart_truths {c : Comparison} (equality : c.operator = .equals)
    (ignored : c.ignoreCase = true) (kind : FieldKind) :
    (∀ b, ∃ error, coerceForComparison (.bool b) (.of kind) = .error error) ∨
    ∃ literal : Bool → Value, (∀ b, coerceForComparison (.bool b) (.of kind) = .ok (literal b)) ∧
      c.KeepsApart kind (literal true) (literal false) := by
  cases numeric : kind.isNumeric with
  | true =>
    obtain ⟨number, reads, apart⟩ := exists_numbersApart numeric
    have other : kind ≠ .string := by
      rintro rfl
      cases numeric
    exact .inr ⟨number, fun b => coerceForComparison_bool numeric (reads b),
      keepsApart_numbers equality other apart⟩
  | false =>
    cases kind with
    | bool | list | object | unknown =>
      exact .inr ⟨.bool, fun b => rfl, keepsApart_bools equality nofun⟩
    | string =>
      exact .inr ⟨fun b => .string (Value.bool b).display, fun b => rfl,
        keepsApart_texts equality ignored (by decide +kernel)⟩
    | guid | dateTime | dateTimeOffset | enum d => exact .inl fun b => ⟨_, rfl⟩
    | _ => cases numeric

end Fitting

/-! ## Clauses that ask for a truth -/

namespace Aggregate

variable {settings : Settings} {type : TypeInfo} {field : String} {v : Value} {b : Bool}

/-- A truth is fitted to the kind of the field, or to that of the value where nothing is known of
the field; where it does not fit, texts are compared. It names no member of an enumeration. -/
theorem sides?_equalClause :
    ((equalClause field b).comparison settings type).sides? v =
      if type.kind.descriptor?.isSome then none
      else match coerceForComparison (.bool b) (.of (type.kindFor v)) with
        | .ok literal => some ⟨type.kindFor v, v, literal⟩
        | .error _ => some ⟨.string, Comparison.asText v, .string (Value.bool b).display⟩ := by
  obtain ⟨kind, nullable⟩ := type
  cases enum : kind.descriptor? with
  | some d =>
    simp [Comparison.sides?, SimpleClause.comparison, SimpleClause.comparand, enum, equalClause,
      Value.isNull, resolveEnum?, Value.toInt?]
  | none =>
    by_cases unknown : kind = .unknown
    · subst unknown
      rfl
    · have own : coerceForComparison (.bool b) ⟨kind, nullable⟩ =
          coerceForComparison (.bool b) (.of kind) := rfl
      simp only [Comparison.sides?, SimpleClause.comparison, SimpleClause.comparand, enum,
        equalClause, own, TypeInfo.kindFor, if_neg unknown]
      cases coerceForComparison (.bool b) (.of kind) <;> rfl

/-- A clause compares the value that is read. -/
theorem predicate_equalClause (r : Record) :
    (equalClause field b).predicate settings (some type) r =
      match r.resolve (.parse field) with
      | .missing => false
      | .intermediateNull =>
        ((equalClause field b).comparison settings type).testValue .null true
      | .value v => ((equalClause field b).comparison settings type).testValue v false := rfl

theorem not_both_testValue {stopped : Bool}
    (first : ((equalClause field true).comparison settings type).testValue v stopped = true)
    (second : ((equalClause field false).comparison settings type).testValue v stopped = true) :
    False := by
  let c := (equalClause field true).comparison settings type
  rw [Comparison.testValue_eq, sides?_equalClause] at first second
  cases enum : type.kind.descriptor?.isSome with
  | true =>
    rw [enum] at first
    cases first
  | false =>
    rw [enum, if_neg Bool.false_ne_true] at first second
    rcases c.keepsApart_truths rfl rfl (type.kindFor v) with unfit | ⟨literal, fits, apart⟩
    · obtain ⟨error, unfit₁⟩ := unfit true
      obtain ⟨error', unfit₂⟩ := unfit false
      rw [unfit₁] at first
      rw [unfit₂] at second
      exact c.keepsApart_texts rfl rfl (by decide +kernel) _ _ ⟨first, second⟩
    · rw [fits] at first second
      exact apart v stopped ⟨first, second⟩

/-- **No record passes as true and as false**, whatever its value and the type of the field. -/
theorem not_both_predicate (settings : Settings) (type? : Option TypeInfo) (field : String)
    (r : Record) : ¬ ((equalClause field true).predicate settings type? r = true ∧
      (equalClause field false).predicate settings type? r = true) := by
  rintro ⟨first, second⟩
  cases type? with
  | none => cases first
  | some type =>
    rw [predicate_equalClause] at first second
    cases ended : r.resolve (.parse field) with
    | missing =>
      rw [ended] at first
      cases first
    | intermediateNull =>
      rw [ended] at first second
      exact not_both_testValue first second
    | value v =>
      rw [ended] at first second
      exact not_both_testValue first second

/-- Where the kind is that of truths, or nothing is known of it, a truth passes as itself and null
does not pass. -/
theorem testValue_truth (kind : type.kind = .bool ∨ type.kind = .unknown) {stopped : Bool}
    (truth : v.isNull = true ∨ v.kind? = some .bool) :
    ((equalClause field b).comparison settings type).testValue v stopped = true ↔
      v = .bool b := by
  obtain ⟨own, nullable⟩ := type
  rcases kind with rfl | rfl
  all_goals
    cases v with
    | null => exact ⟨nofun, nofun⟩
    | bool b' => cases b' <;> cases b <;> simp <;> rfl
    | _ => rcases truth with null | other <;> [cases null; cases other]

theorem predicate_truth (kind : type.kind = .bool ∨ type.kind = .unknown) {r : Record}
    (truth : (r.get field).isNull = true ∨ (r.get field).kind? = some .bool) :
    (equalClause field b).predicate settings (some type) r = true ↔ r.get field = .bool b := by
  rw [predicate_equalClause]
  rw [Record.get, Record.valueAt] at truth ⊢
  cases ended : r.resolve (.parse field) with
  | missing =>
    refine ⟨fun passes => ?_, fun reads => ?_⟩
    · cases passes
    · cases reads
  | intermediateNull => exact testValue_truth kind (.inl rfl)
  | value v =>
    rw [ended] at truth
    exact testValue_truth kind truth

end Aggregate

/-! ## Fields of truths -/

/-- The values of a field are truths, apart from nulls. A static record has the field, and where it
declares a type for it, this is one of truths. -/
structure TruthsAt (field : String) (records : List Record) : Prop where
  uniform : UniformAt field .bool records
  declared : ∀ r ∈ records, r.isStatic = true → Sample.ofRecord (.parse field) r ≠ .missing ∧
    ∀ type, Sample.ofRecord (.parse field) r = .declared type → type.kind = .bool

/-- A sample that shows truths, if any. -/
def Sample.IsTruth : Sample → Prop
  | declared type => type.kind = .bool
  | seen kind => kind = .bool
  | null => True
  | missing => False

/-- Truths settle the kind of truths, or nothing. -/
theorem settleType_of_truths {samples : List Sample} (truths : ∀ sample ∈ samples, sample.IsTruth) :
    ∃ type, settleType none samples = some type ∧ (type.kind = .bool ∨ type.kind = .unknown) := by
  induction samples with
  | nil => exact ⟨_, rfl, .inr rfl⟩
  | cons sample samples ih =>
    obtain ⟨first, rest⟩ := List.forall_mem_cons.1 truths
    cases sample with
    | declared type => exact ⟨type, rfl, .inl first⟩
    | seen kind =>
      obtain rfl : kind = .bool := first
      exact ⟨_, rfl, .inl rfl⟩
    | null => exact ih rest
    | missing => exact first.elim

namespace TruthsAt

variable {field : String} {records : List Record}

theorem isTruth_ofRecord (h : TruthsAt field records)
    (named : (FieldPath.parse field).isEmpty = false) {r : Record} (mem : r ∈ records) :
    (Sample.ofRecord (.parse field) r).IsTruth := by
  cases shown : Sample.ofRecord (.parse field) r with
  | seen kind =>
    have own : (r.get field).kind? = some kind := Sample.kind?_valueAt shown
    rcases h.uniform r mem with null | truth
    · rw [Value.isNull_of_kind? own] at null
      cases null
    · exact Option.some.inj (own.symm.trans truth)
  | null => trivial
  | declared type =>
    cases static : r.isStatic with
    | true => exact (h.declared r mem static).2 type shown
    | false =>
      rw [Sample.ofRecord_eq_ofValue static named, Sample.ofValue] at shown
      split at shown <;> cases shown
  | missing =>
    cases static : r.isStatic with
    | true => exact (h.declared r mem static).1 shown
    | false =>
      rw [Sample.ofRecord_eq_ofValue static named, Sample.ofValue] at shown
      split at shown <;> cases shown

/-- The type of a field of truths is one of truths, or nothing is known of it. Only the empty path,
which reads no value, has none. -/
theorem fieldType?_eq (h : TruthsAt field records) (limit : Option Nat) :
    (fieldType? limit records (.parse field) = none ∧
      ∀ r : Record, (r.get field).isNull = true) ∨
    ∃ type, fieldType? limit records (.parse field) = some type ∧
      (type.kind = .bool ∨ type.kind = .unknown) := by
  cases named : (FieldPath.parse field).isEmpty with
  | true =>
    refine .inl ⟨by rw [fieldType?, named, if_pos rfl], fun r => ?_⟩
    by_contra known
    rw [Record.isEmpty_of_known (Bool.eq_false_iff.2 known)] at named
    cases named
  | false =>
    have sampled : ∀ sample ∈ (sampledRecords limit records).map (Sample.ofRecord (.parse field)),
        sample.IsTruth := by
      intro sample listed
      obtain ⟨r, asked, rfl⟩ := List.mem_map.1 listed
      exact h.isTruth_ofRecord named (mem_of_mem_sampledRecords asked)
    obtain ⟨type, settled, kind⟩ := settleType_of_truths sampled
    refine .inr ⟨type, ?_, kind⟩
    rw [fieldType?, named, if_neg Bool.false_ne_true, settled]

end TruthsAt

/-! ## The counts -/

/-- Members that pass two tests, none of them both, are those that pass one of them. -/
theorem countP_add_countP {α : Type} {p q : α → Bool} (xs : List α)
    (apart : ∀ a, ¬ (p a = true ∧ q a = true)) :
    xs.countP p + xs.countP q = xs.countP fun a => p a || q a := by
  induction xs with
  | nil => rfl
  | cons a xs ih =>
    have := apart a
    simp only [List.countP_cons]
    cases hp : p a <;> cases hq : q a <;> simp_all <;> omega

namespace Aggregate

/-- **The records that are counted as true and as false** are apart, so there are no more of them
than records. They are counted alike whatever has been asked of the same types before. If the field
is one of truths, and its type is that of these records, each value that is not null is counted. -/
theorem compute_truths (settings : Settings) (types : FieldTypes) (records : List Record)
    (field : String) :
    let counted (b : Bool) : Predicate := ((equalClause field b).compile settings records types).1
    (∀ types', types'.typeAt records = types.typeAt records →
      (compute settings records ⟨field, .trueCount⟩ types').1 =
        some (countValue (records.countP (counted true))) ∧
      (compute settings records ⟨field, .falseCount⟩ types').1 =
        some (countValue (records.countP (counted false))) ∧
      (compute settings records ⟨field, .count⟩ types').1 = some (countValue records.length)) ∧
    (∀ r, ¬ (counted true r = true ∧ counted false r = true)) ∧
    records.countP (counted true) + records.countP (counted false) ≤ records.length ∧
    (types.typeAt records field = fieldType? types.limit records (.parse field) →
      TruthsAt field records →
      records.countP (counted true) + records.countP (counted false) =
        records.countP fun r => !(r.get field).isNull) := by
  intro counted
  have read (b : Bool) : counted b =
      (equalClause field b).predicate settings (types.typeAt records field) :=
    (FilterClause.reads_compileSimple settings records _).value_eq types
  have apart (r : Record) : ¬ (counted true r = true ∧ counted false r = true) := by
    rw [read, read]
    exact not_both_predicate settings _ field r
  have sum := countP_add_countP records apart
  refine ⟨fun types' same => ?_, apart, ?_, fun own truths => ?_⟩
  · have value (kind : AggregateKind) :=
      (reads_compute settings records ⟨field, kind⟩).value_eq types'
    rw [value, value, value, same, read, read]
    exact ⟨rfl, rfl, rfl⟩
  · rw [sum]
    exact List.countP_le_length
  · rw [sum]
    refine List.countP_congr fun r mem => ?_
    rw [read, read, own]
    rcases truths.fieldType?_eq types.limit with ⟨none, nulls⟩ | ⟨type, found, kind⟩
    · rw [none, nulls r]
      simp [SimpleClause.predicate]
    · have truth := truths.uniform r mem
      rw [found, Bool.or_eq_true, predicate_truth kind truth, predicate_truth kind truth]
      cases v : r.get field with
      | null => simp [Value.isNull]
      | bool b => cases b <;> simp [Value.isNull]
      | _ => rw [v] at truth; rcases truth with null | other <;> [cases null; cases other]

/-- Of two truths, a null and a structure that declares the field, three are counted. -/
theorem compute_truths_of_flags :
    let declares : Record := .shaped "Order" [("Verified", .scalar (.of .bool) (.bool false))]
    let records : List Record := [.table [("Verified", .bool true)], .table [("Verified", .null)],
      .dynamic [("Verified", .bool true)], declares]
    let counted (b : Bool) : Predicate :=
      ((equalClause "Verified" b).compile {} records { limit := some 2 }).1
    records.countP (counted true) = 2 ∧ records.countP (counted false) = 1 ∧
      records.countP (counted true) + records.countP (counted false) =
        records.countP fun r => !(r.get "Verified").isNull := by
  intro declares records counted
  have uniform : ∀ r ∈ records, (r.get "Verified").isNull = true ∨
      (r.get "Verified").kind? = some .bool := by decide
  have declared : ∀ r ∈ records, r.isStatic = true →
      Sample.ofRecord (.parse "Verified") r = .declared (.of .bool) := by decide
  have truths : TruthsAt "Verified" records := by
    refine ⟨uniform, fun r mem static => ?_⟩
    rw [declared r mem static]
    exact ⟨nofun, fun type own => Sample.declared.inj own ▸ rfl⟩
  obtain ⟨-, -, -, all⟩ := compute_truths {} { limit := some 2 } records "Verified"
  exact ⟨by decide +kernel, by decide +kernel, all rfl truths⟩

end Aggregate

end RecordQuery
