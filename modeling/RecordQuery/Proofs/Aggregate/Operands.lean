import RecordQuery.Proofs.Aggregate.Sums
import RecordQuery.Proofs.FieldTypes.Widening
import RecordQuery.Proofs.Number.DecimalRange

/-!
# The operands of sums and averages

A sum or an average converts the values of a field to operands of one kind, and leaves out those
that it cannot convert. The kind is one into which the kinds of all values widen. So every number
has an operand, unless decimals are added and the number is not finite or too large for a decimal.

* `Aggregate.Reducer` is the conversion together with what becomes of the operands, and
  `Aggregate.reduce_eq_skipping` says that aggregates are computed so;
* `Aggregate.Reducer.strict` leaves nothing out, and comes to nothing instead;
* `Aggregate.isJoin_workingKind`: the kind of the operands;
* `Aggregate.Reducer.operand?_eq_none_iff`: which numbers have no operand;
* `Aggregate.compute_operands`: which numbers a sum or an average leaves out.
-/

namespace RecordQuery

/-- Whether a value is a number of a binary format that no decimal holds. -/
def Value.beyondDecimals : Value → Bool
  | .float32 x => x.beyondDecimals
  | .float64 x => x.beyondDecimals
  | _ => false

/-- A number has no decimal only if it is beyond decimals. -/
theorem Value.toDecimal?_eq_none_iff {v : Value} (number : v.isNumeric = true) :
    v.toDecimal? = none ↔ v.beyondDecimals = true := by
  cases v with
  | float32 x => exact Decimal.ofBinary?_eq_none_iff (by decide) x
  | float64 x => exact Decimal.ofBinary?_eq_none_iff (by decide) x
  | int16 n | int32 n | int64 n | decimal d =>
    exact iff_of_false (Option.some_ne_none _) Bool.false_ne_true
  | _ => cases number

theorem Value.isNumeric_of_kind? {v : Value} {kind : FieldKind} (h : v.kind? = some kind) :
    v.isNumeric = kind.isNumeric := by
  cases v <;> cases h <;> rfl

theorem Value.exists_kind?_of_isNumeric {v : Value} (number : v.isNumeric = true) :
    ∃ kind, v.kind? = some kind ∧ kind.isNumeric = true := by
  cases v <;> first | exact ⟨_, rfl, rfl⟩ | cases number

/-- The values of a field are numbers, where they are not null. -/
def NumbersAt (field : String) (records : List Record) : Prop :=
  ∀ r ∈ records, (r.get field).isNull = false → (r.get field).isNumeric = true

instance (field : String) (records : List Record) : Decidable (NumbersAt field records) :=
  inferInstanceAs (Decidable (∀ r ∈ records, _ → _))

namespace FieldKind

/-! ## Kinds of operands -/

/-- Numbers without decimals among them all widen to numbers of 64 bits. -/
theorem IsJoin.eq_decimal_iff {join : FieldKind} {kinds : List FieldKind} (h : join.IsJoin kinds)
    (numeric : ∀ kind ∈ kinds, kind.isNumeric = true) : join = .decimal ↔ .decimal ∈ kinds := by
  constructor
  · rintro rfl
    by_contra other
    have bound : ∀ kind ∈ numbers, kind ≠ .decimal → kind.WidensInto .float64 := by decide
    have wide : FieldKind.WidensInto .decimal .float64 := h.least .float64 rfl fun kind mem =>
      bound kind (mem_numbers.2 (numeric kind mem)) fun own => other (own ▸ mem)
    exact absurd wide (by decide)
  · intro mem
    have top : ∀ kind ∈ numbers, FieldKind.WidensInto .decimal kind → kind = .decimal := by decide
    exact top join (mem_numbers.2 h.isNumeric) (h.widensInto .decimal mem)

/-- Only integers of at most 32 bits widen into 32 bits. -/
theorem WidensInto.isNarrow {a b : FieldKind} (h : a.WidensInto b) (numeric : a.isNumeric = true)
    (narrow : b.isNarrow = true) : a.isNarrow = true := by
  have all : ∀ a ∈ numbers, ∀ b ∈ [FieldKind.int16, .int32], a.WidensInto b →
      a.isNarrow = true := by
    decide
  refine all a (mem_numbers.2 numeric) b ?_ h
  cases b <;> first | decide | cases narrow

/-- Only integers widen into integers. -/
theorem WidensInto.isInteger {a b : FieldKind} (h : a.WidensInto b) (numeric : a.isNumeric = true)
    (integer : b.isInteger = true) : a.isInteger = true := by
  have all : ∀ a ∈ numbers, ∀ b ∈ [FieldKind.int16, .int32, .int64], a.WidensInto b →
      a.isInteger = true := by
    decide
  refine all a (mem_numbers.2 numeric) b ?_ h
  cases b <;> first | decide | cases integer

end FieldKind

namespace Aggregate

variable {v : Value} {vs : List Value} {kind working : FieldKind} {a : AggregateKind}

/-- The kinds of what is known of a field and of its values. -/
def operandKinds (kind : FieldKind) (vs : List Value) : List FieldKind :=
  if kind = .unknown then vs.filterMap Value.kind? else kind :: vs.filterMap Value.kind?

theorem isNumeric_of_mem_kinds (numbers : ∀ v ∈ vs, v.isNumeric = true) :
    ∀ seen ∈ vs.filterMap Value.kind?, seen.isNumeric = true :=
  List.forall_mem_filterMap.2 fun v mem _ found =>
    (Value.isNumeric_of_kind? found).symm.trans (numbers v mem)

theorem workingKind_eq (numbers : ∀ v ∈ vs, v.isNumeric = true) :
    workingKind kind vs = FieldKind.widenAll (operandKinds kind vs) := by
  have numeric := isNumeric_of_mem_kinds numbers
  have folded : workingKind kind vs = (vs.filterMap Value.kind?).foldl FieldKind.widenKnown kind :=
    rfl
  rw [folded, operandKinds]
  split
  · next unknown =>
    subst unknown
    cases kinds : vs.filterMap Value.kind? with
    | nil => rfl
    | cons seen rest =>
      have known : seen ≠ .unknown := by
        rintro rfl
        have h := numeric .unknown (kinds ▸ List.mem_cons_self)
        cases h
      exact FieldKind.foldl_widenKnown known rest
  · next known => exact FieldKind.foldl_widenKnown known _

/-- **The kind of the operands** is the narrowest one for what is known of the field and for all of
its values. -/
theorem isJoin_workingKind (numbers : ∀ v ∈ vs, v.isNumeric = true)
    (numeric : (workingKind kind vs).isNumeric = true) :
    (∀ seen ∈ operandKinds kind vs, seen.isNumeric = true) ∧
      (workingKind kind vs).IsJoin (operandKinds kind vs) := by
  have values := isNumeric_of_mem_kinds numbers
  rw [workingKind_eq numbers] at numeric ⊢
  have all : ∀ seen ∈ operandKinds kind vs, seen.isNumeric = true := by
    rw [operandKinds] at numeric ⊢
    split
    · exact values
    · next known =>
      rw [if_neg known] at numeric
      refine List.forall_mem_cons.2 ⟨?_, values⟩
      -- a kind that is not numeric is never left
      by_contra other
      have kept := FieldKind.foldl_widen_of_not_numeric (Bool.eq_false_iff.2 other)
        (vs.filterMap Value.kind?)
      rw [FieldKind.widenAll, kept] at numeric
      exact other numeric
  refine ⟨all, FieldKind.isJoin_widenAll (fun none => ?_) all⟩
  rw [none] at numeric
  cases numeric

theorem workingKind_eq_decimal_iff (numbers : ∀ v ∈ vs, v.isNumeric = true)
    (numeric : (workingKind kind vs).isNumeric = true) :
    workingKind kind vs = .decimal ↔ kind = .decimal ∨ ∃ v ∈ vs, v.kind? = some .decimal := by
  obtain ⟨all, join⟩ := isJoin_workingKind numbers numeric
  rw [join.eq_decimal_iff all, operandKinds]
  split
  · next unknown => simp [unknown]
  · simp [eq_comm]

theorem widensInto_workingKind (numbers : ∀ v ∈ vs, v.isNumeric = true)
    (numeric : (workingKind kind vs).isNumeric = true) (mem : v ∈ vs) {seen : FieldKind}
    (own : v.kind? = some seen) : seen.WidensInto (workingKind kind vs) := by
  have listed : seen ∈ vs.filterMap Value.kind? := List.mem_filterMap.2 ⟨v, mem, own⟩
  refine (isJoin_workingKind numbers numeric).2.widensInto seen ?_
  rw [operandKinds]
  split
  · exact listed
  · exact List.mem_cons_of_mem _ listed

/-! ## Reducers -/

/-- A conversion of values to operands, and the value that operands come to. -/
structure Reducer where
  Operand : Type
  operand? : Value → Option Operand
  run : List Operand → Option Value

namespace Reducer

variable (r : Reducer)

/-- Reduces the values that have an operand. -/
def skipping (vs : List Value) : Option Value := r.run (vs.filterMap r.operand?)

/-- Reduces values if they all have an operand. -/
def strict (vs : List Value) : Option Value := (vs.mapM r.operand?).bind r.run

variable {r}

/-- Where nothing is skipped, every value takes part. -/
theorem skipping_eq_strict (all : ∀ v ∈ vs, r.operand? v ≠ none) :
    r.skipping vs = r.strict vs := by
  have operands : vs.mapM r.operand? = some (vs.filterMap r.operand?) := by
    induction vs with
    | nil => rfl
    | cons v vs ih =>
      obtain ⟨own, rest⟩ := List.forall_mem_cons.1 all
      obtain ⟨x, read⟩ := Option.ne_none_iff_exists'.1 own
      simp [List.mapM_cons, read, ih rest]
  rw [skipping, strict, operands, Option.bind_some]

/-- What has no operand can be left out before. -/
theorem skipping_filter {keeps : Value → Bool}
    (h : ∀ v ∈ vs, keeps v = false → r.operand? v = none) :
    r.skipping (vs.filter keeps) = r.skipping vs := by
  rw [skipping, List.filterMap_filter, skipping]
  congr 1
  refine List.filterMap_congr fun v mem => ?_
  cases kept : keeps v with
  | true => rfl
  | false => exact (h v mem kept).symm

end Reducer

/-- How values are added in a kind. -/
def sumReducer? : FieldKind → Option Reducer
  | .int16 | .int32 => some ⟨Int32, fun v => v.toInt?.bind fun n => int32? n.toInt,
      fun ns => (ns.foldlM (fun (sum n : Int32) => int32? (sum.toInt + n.toInt)) 0).map .int32⟩
  | .int64 => some ⟨Int64, Value.toInt?,
      fun ns => (ns.foldlM (fun (sum n : Int64) => int64? (sum.toInt + n.toInt)) 0).map .int64⟩
  | .float32 => some ⟨Single, fun v => v.toDouble?.map (Binary.convert .single),
      fun xs => some (.float32 (.sum xs))⟩
  | .float64 => some ⟨Double, Value.toDouble?, fun xs => some (.float64 (.sum xs))⟩
  | .decimal => some ⟨Decimal, Value.toDecimal?, fun ds => (sumDecimals ds).map .decimal⟩
  | _ => none

/-- How the mean of values is taken in a kind. -/
def averageReducer? : FieldKind → Option Reducer
  | .int16 | .int32 | .int64 => some ⟨Int64, Value.toInt?, fun ns => some (averageIntegers ns)⟩
  | .float32 => some ⟨Single, fun v => v.toDouble?.map (Binary.convert .single),
      fun xs => some (meanOf .float32 xs)⟩
  | .float64 => some ⟨Double, Value.toDouble?, fun xs => some (meanOf .float64 xs)⟩
  | .decimal => some ⟨Decimal, Value.toDecimal?, averageDecimals⟩
  | _ => none

/-- How an aggregate reduces operands of a kind. -/
def reducer? : AggregateKind → FieldKind → Option Reducer
  | .sum, kind => sumReducer? kind
  | .average, kind => averageReducer? kind
  | _, _ => none

theorem sumIn_eq_skipping (vs : List Value) (kind : FieldKind) :
    sumIn vs kind = (sumReducer? kind).bind fun r => r.skipping vs := by
  cases kind <;> rfl

theorem averageIn_eq_skipping (vs : List Value) (kind : FieldKind) :
    averageIn vs kind = (averageReducer? kind).bind fun r => r.skipping vs := by
  cases kind <;> rfl

/-- Sums and averages reduce the values that have an operand of their kind. -/
theorem reduce_eq_skipping (adds : a = .sum ∨ a = .average) (type : TypeInfo) (vs : List Value) :
    reduce a type vs =
      (reducer? a (workingKind type.kind vs)).bind fun r => r.skipping vs := by
  rcases adds with rfl | rfl
  · exact sumIn_eq_skipping vs _
  · exact averageIn_eq_skipping vs _

/-- Operands are numbers. -/
theorem isNumeric_of_reducer? {r : Reducer} (found : reducer? a working = some r) :
    working.isNumeric = true := by
  cases a with
  | sum | average => cases working <;> first | rfl | cases found
  | _ => cases found

/-! ## What has no operand -/

theorem toDouble?_ne_none (number : v.isNumeric = true) : v.toDouble? ≠ none := by
  cases v <;> first | exact Option.some_ne_none _ | cases number

/-- **A number has no operand** of a kind into which its own kind widens only if decimals are added
and it is beyond these. -/
theorem Reducer.operand?_eq_none_iff {r : Reducer} (found : reducer? a working = some r)
    {seen : FieldKind} (own : v.kind? = some seen) (numeric : seen.isNumeric = true)
    (wide : seen.WidensInto working) :
    r.operand? v = none ↔ working = .decimal ∧ v.beyondDecimals = true := by
  have number : v.isNumeric = true := (Value.isNumeric_of_kind? own).trans numeric
  have integer (h : working.isInteger = true) : v.isInteger = true :=
    (Value.isInteger_of_kind? own).trans (wide.isInteger numeric h)
  have narrow (h : working.isNarrow = true) :
      (v.toInt?.bind fun n => int32? n.toInt) ≠ none := by
    have small (kind : FieldKind) (is : v.kind? = some kind) : kind.isNarrow = true :=
      Option.some.inj (own.symm.trans is) ▸ wide.isNarrow numeric h
    have whole : v.isInteger = true := integer (by cases working <;> first | rfl | cases h)
    obtain ⟨n, m, read, fits, -⟩ := exists_int32? whole small
    rw [read, Option.bind_some, fits]
    exact Option.some_ne_none m
  have single : v.toDouble?.map (Binary.convert .single) ≠ none :=
    fun none => toDouble?_ne_none number (Option.map_eq_none_iff.1 none)
  have other {α : Type} {x : Option α} (some : x ≠ none) (binary : working ≠ .decimal) :
      x = none ↔ working = .decimal ∧ v.beyondDecimals = true :=
    iff_of_false some fun h => binary h.1
  have decimal : v.toDecimal? = none ↔ FieldKind.decimal = .decimal ∧ v.beyondDecimals = true := by
    rw [Value.toDecimal?_eq_none_iff number, and_iff_right rfl]
  cases a with
  | sum =>
    cases working with
    | int16 | int32 =>
      obtain rfl := Option.some.inj found
      exact other (narrow rfl) (by decide)
    | int64 =>
      obtain rfl := Option.some.inj found
      exact other (Option.isSome_iff_ne_none.1 (integer rfl)) (by decide)
    | float32 =>
      obtain rfl := Option.some.inj found
      exact other single (by decide)
    | float64 =>
      obtain rfl := Option.some.inj found
      exact other (toDouble?_ne_none number) (by decide)
    | decimal =>
      obtain rfl := Option.some.inj found
      exact decimal
    | _ => cases found
  | average =>
    cases working with
    | int16 | int32 | int64 =>
      obtain rfl := Option.some.inj found
      exact other (Option.isSome_iff_ne_none.1 (integer rfl)) (by decide)
    | float32 =>
      obtain rfl := Option.some.inj found
      exact other single (by decide)
    | float64 =>
      obtain rfl := Option.some.inj found
      exact other (toDouble?_ne_none number) (by decide)
    | decimal =>
      obtain rfl := Option.some.inj found
      exact decimal
    | _ => cases found
  | _ => cases found

/-- The values that take part where operands have a kind: all of them, but for decimals none that
are beyond decimals. -/
def taken (working : FieldKind) (vs : List Value) : List Value :=
  vs.filter fun v => !(working == .decimal && v.beyondDecimals)

/-! ## The values of a field -/

variable {field : String} {records : List Record}

theorem isNumeric_of_mem_valuesAt (numbers : NumbersAt field records)
    (mem : v ∈ valuesAt (.parse field) records) : v.isNumeric = true := by
  obtain ⟨r, hr, rfl, some⟩ := mem_valuesAt.1 mem
  exact numbers r hr some

/-- **Which numbers sums and averages leave out.** Where the values of a field are numbers, whatever
is known of types before, a sum or an average reduces all of them in a kind into which they widen,
or is no value. Only where decimals are added, since one of the values or the type of the field is
of this kind, numbers that are beyond decimals are left out, and only these have no operand. -/
theorem compute_operands (settings : Settings) (adds : a = .sum ∨ a = .average)
    (numbers : NumbersAt field records) (types : FieldTypes) :
    let vs := valuesAt (.parse field) records
    (compute settings records ⟨field, a⟩ types).1 =
        ((types.typeAt records field).bind fun type =>
          (reducer? a (workingKind type.kind vs)).bind fun r =>
            r.strict (taken (workingKind type.kind vs) vs)) ∧
      ∀ type r, types.typeAt records field = some type →
        reducer? a (workingKind type.kind vs) = some r →
          (workingKind type.kind vs = .decimal ↔
            type.kind = .decimal ∨ ∃ v ∈ vs, v.kind? = some .decimal) ∧
          ∀ v ∈ vs,
            (∃ kind, v.kind? = some kind ∧ kind.WidensInto (workingKind type.kind vs)) ∧
            (r.operand? v = none ↔
              workingKind type.kind vs = .decimal ∧ v.beyondDecimals = true) := by
  intro vs
  have numeric : ∀ v ∈ vs, v.isNumeric = true := fun v => isNumeric_of_mem_valuesAt numbers
  have operand {type : TypeInfo} {r : Reducer}
      (found : reducer? a (workingKind type.kind vs) = some r) (v : Value) (mem : v ∈ vs) :
      (∃ kind, v.kind? = some kind ∧ kind.WidensInto (workingKind type.kind vs)) ∧
        (r.operand? v = none ↔
          workingKind type.kind vs = .decimal ∧ v.beyondDecimals = true) := by
    obtain ⟨kind, own, number⟩ := Value.exists_kind?_of_isNumeric (numeric v mem)
    have wide := widensInto_workingKind numeric (isNumeric_of_reducer? found) mem own
    exact ⟨⟨kind, own, wide⟩, Reducer.operand?_eq_none_iff found own number wide⟩
  refine ⟨?_, fun type r _ found =>
    ⟨workingKind_eq_decimal_iff numeric (isNumeric_of_reducer? found), operand found⟩⟩
  have value : (compute settings records ⟨field, a⟩ types).1 =
      (types.typeAt records field).bind fun type => reduce a type vs := by
    rw [(reads_compute settings records ⟨field, a⟩ types).1]
    rcases adds with rfl | rfl <;> rfl
  rw [value]
  refine Option.bind_congr fun type _ => ?_
  rw [reduce_eq_skipping adds]
  refine Option.bind_congr fun r found => ?_
  have left : r.skipping (taken (workingKind type.kind vs) vs) = r.skipping vs :=
    Reducer.skipping_filter fun v mem out => by
      rw [(operand found v mem).2]
      simpa using out
  rw [← left]
  refine Reducer.skipping_eq_strict fun v mem none => ?_
  obtain ⟨listed, kept⟩ := List.mem_filter.1 mem
  have out := ((operand found v listed).2).1 none
  simp [out.1, out.2] at kept

/-- An average of an integer, a decimal and NaN is that of the first two, although the integer alone
is sampled. -/
theorem compute_operands_of_nan :
    let priced (price : Value) : Record := .table [("P", price)]
    let records := [priced (.int32 2), priced .null, priced (.float64 .nan),
      priced (.decimal ⟨false, 15, 1, by decide, by decide⟩)]
    NumbersAt "P" records ∧
      (compute {} records ⟨"P", .average⟩ { limit := some 1 }).1.bind Value.toDecimal? =
        some ⟨false, 1750, 3, by decide, by decide⟩ := by
  intro priced records
  have numbers : NumbersAt "P" records := by decide +kernel
  refine ⟨numbers, ?_⟩
  rw [(compute_operands {} (.inr rfl) numbers _).1]
  decide +kernel

/-- The sum of a decimal and a number that is too large for a decimal is the decimal, although a sum
that leaves nothing out is no value. -/
theorem sum_leaves_out_large :
    let price : Decimal := ⟨false, 15, 1, by decide, by decide⟩
    let priced (price : Value) : Record := .table [("P", price)]
    let records := [priced (.decimal price), priced (.float64 (.ofInt .double (10 ^ (30 : Nat))))]
    let vs := valuesAt (.parse "P") records
    let types : FieldTypes := { limit := none }
    NumbersAt "P" records ∧
      (compute {} records ⟨"P", .sum⟩ types).1.bind Value.toDecimal? = some price ∧
      ((types.typeAt records "P").bind fun type =>
        (reducer? .sum (workingKind type.kind vs)).bind fun r => r.strict vs).isNone = true := by
  intro price priced records vs types
  exact ⟨by decide +kernel, by decide +kernel, by decide +kernel⟩

end Aggregate

end RecordQuery
