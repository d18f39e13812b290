import Mathlib.Algebra.BigOperators.Group.List.Basic
import Mathlib.Algebra.GroupWithZero.Nat
import Mathlib.Algebra.Ring.Int.Defs
import RecordQuery.Proofs.Aggregate.Meaning
import RecordQuery.Proofs.FieldTypes.Integers
import RecordQuery.Proofs.FieldTypes.Widening

/-!
# Counts and sums over parts

Where records are cut into parts, counts of records add up, and so do sums of integers as long as no
sum is out of range.

* `CountsAddUp` and `SumsAddUp` say so of the entry of the whole and those of its parts;
* `Aggregate.countsAddUp_valueOver`: counts are numbers of records that pass one test, the same for
  all parts;
* `Aggregate.toInt_sumIn`: a sum of integers that is an integer is exact, whatever the kind in which
  the values are added, and `Aggregate.isInteger_sumIn` tells when it is one;
* `Aggregate.sumsAddUp_valueOver`: sums over parts.
-/

namespace RecordQuery

/-! ## Entries of the whole and of its parts -/

/-- The entries of the parts are numbers of records, and the entry of the whole is their sum, which
is at most the number of all. -/
def CountsAddUp (all : Nat) (whole : Option Value) (parts : List (Option Value)) : Prop :=
  ∃ ns : List Nat, ns.sum ≤ all ∧ parts = ns.map (fun n => some (Aggregate.countValue n)) ∧
    whole = some (Aggregate.countValue ns.sum)

/-- Where all entries are there as integers, that of the whole is the sum of the others. -/
def SumsAddUp (whole : Option Value) (parts : List (Option Value)) : Prop :=
  ∀ (n : Int64) (ns : List Int64), whole.bind Value.toInt? = some n →
    parts.map (·.bind Value.toInt?) = ns.map some → n.toInt = (ns.map Int64.toInt).sum

/-- The kinds of aggregates that count records. -/
def AggregateKind.isTally : AggregateKind → Bool
  | .count | .trueCount | .falseCount => true
  | _ => false

/-- The kinds whose integers have at most 32 bits. -/
def FieldKind.isNarrow : FieldKind → Bool
  | .int16 | .int32 => true
  | _ => false

/-- The kind that holds a further value, when nothing may be known before. -/
def FieldKind.widenKnown (kind seen : FieldKind) : FieldKind :=
  if kind = .unknown then seen else kind.widen seen

theorem FieldKind.widen_ne_unknown {a : FieldKind} (known : a ≠ .unknown) (b : FieldKind) :
    a.widen b ≠ .unknown := by
  cases numeric : a.isNumeric with
  | true =>
    intro unknown
    have h := isNumeric_widen numeric b
    rw [unknown] at h
    cases h
  | false =>
    rw [widen_of_not_numeric numeric]
    exact known

/-- Once a kind is known, further values widen it. -/
theorem FieldKind.foldl_widenKnown {kind : FieldKind} (known : kind ≠ .unknown)
    (kinds : List FieldKind) : kinds.foldl widenKnown kind = kinds.foldl widen kind := by
  induction kinds generalizing kind with
  | nil => rfl
  | cons seen kinds ih =>
    rw [List.foldl_cons, List.foldl_cons, widenKnown, if_neg known,
      ih (widen_ne_unknown known seen)]

theorem FieldKind.isNarrow_of_widenKnown {a b : FieldKind} (integer : b.isInteger = true)
    (h : (a.widenKnown b).isNarrow = true) :
    (a.isNarrow = true ∨ a = .unknown) ∧ b.isNarrow = true := by
  cases b <;> cases integer <;> cases a <;>
    first | exact ⟨.inl rfl, rfl⟩ | exact ⟨.inr rfl, rfl⟩ | cases h

theorem FieldKind.widenKnown_ne_unknown {b : FieldKind} (integer : b.isInteger = true)
    (a : FieldKind) : a.widenKnown b ≠ .unknown := by
  intro h
  cases b <;> cases integer <;> cases a <;> cases h

theorem FieldKind.isInteger_widenKnown {a b : FieldKind}
    (ha : a.isInteger = true ∨ a = .unknown) (hb : b.isInteger = true) :
    (a.widenKnown b).isInteger = true := by
  rcases ha with integer | rfl
  · have known : a ≠ .unknown := by
      rintro rfl
      cases integer
    rw [widenKnown, if_neg known]
    exact isInteger_widen integer hb
  · exact hb

theorem AggregateKind.isSupported_of_isTally {kind : AggregateKind} (tally : kind.isTally = true) :
    kind.isSupported = true := by
  cases kind <;> first | rfl | cases tally

namespace Aggregate

variable (settings : Settings) (typeAt : String → Option TypeInfo)

/-! ## Counts -/

/-- A count is the number of records that pass a test. -/
theorem exists_tally {a : Aggregate} (tally : a.kind.isTally = true) :
    ∃ counted : Predicate, ∀ records,
      valueOver settings typeAt records a = some (countValue (records.countP counted)) := by
  obtain ⟨field, kind⟩ := a
  cases kind with
  | count =>
    refine ⟨fun _ => true, fun records => ?_⟩
    rw [List.countP_true]
    rfl
  | trueCount => exact ⟨_, fun _ => rfl⟩
  | falseCount => exact ⟨_, fun _ => rfl⟩
  | _ => cases tally

/-- **Counts add up** over the parts of records. -/
theorem countsAddUp_valueOver {a : Aggregate} (tally : a.kind.isTally = true)
    {records : List Record} {parts : List (List Record)} (perm : parts.flatten.Perm records) :
    CountsAddUp records.length (valueOver settings typeAt records a)
      (parts.map fun part => valueOver settings typeAt part a) := by
  obtain ⟨counted, value⟩ := exists_tally settings typeAt tally
  have sum : (parts.map (List.countP counted)).sum = records.countP counted := by
    rw [← perm.countP_eq, List.countP_flatten]
  refine ⟨parts.map (List.countP counted), ?_, ?_, ?_⟩
  · rw [sum]
    exact List.countP_le_length
  · rw [List.map_map]
    exact List.map_congr_left fun part _ => value part
  · rw [value, sum]

/-! ## Sums of integers -/

/-- The sum of the integers among values. -/
def total (vs : List Value) : Int := ((vs.filterMap Value.toInt?).map Int64.toInt).sum

theorem total_append (vs ws : List Value) : total (vs ++ ws) = total vs + total ws := by
  simp only [total, List.filterMap_append, List.map_append, List.sum_append]

theorem total_flatten (parts : List (List Value)) :
    total parts.flatten = (parts.map total).sum := by
  induction parts with
  | nil => rfl
  | cons part parts ih =>
    rw [List.flatten_cons, List.map_cons, List.sum_cons, ← ih, total_append]

theorem total_perm {vs ws : List Value} (h : vs.Perm ws) : total vs = total ws :=
  ((h.filterMap _).map _).sum_eq

/-- Integers that are added in a width that refuses what is out of range add up exactly. -/
theorem foldlM_eq_some {α : Type} {toInt : α → Int} {fit? : Int → Option α}
    (fits : ∀ n a, fit? n = some a → toInt a = n) {ns : List α} {start sum : α}
    (h : ns.foldlM (fun sum n => fit? (toInt sum + toInt n)) start = some sum) :
    toInt sum = toInt start + (ns.map toInt).sum := by
  induction ns generalizing start with
  | nil =>
    obtain rfl : start = sum := Option.some.inj h
    simp
  | cons n ns ih =>
    rw [List.foldlM_cons] at h
    obtain ⟨next, added, rest⟩ := Option.bind_eq_some_iff.1 h
    have first := fits _ _ added
    have later := ih rest
    rw [List.map_cons, List.sum_cons, later, first]
    omega

theorem toInt_sumInt64 {vs : List Value} {x : Value} (h : sumInt64 vs = some x) :
    ∃ n, x.toInt? = some n ∧ n.toInt = total vs := by
  obtain ⟨sum, added, rfl⟩ := Option.map_eq_some_iff.1 h
  have exactly := foldlM_eq_some (fun n a => int64?_eq_some.1) added
  refine ⟨sum, rfl, ?_⟩
  rw [exactly, total]
  simp

/-- A value of a narrow kind is an integer of 32 bits. -/
theorem exists_int32? {v : Value} (integer : v.isInteger = true)
    (narrow : ∀ kind, v.kind? = some kind → kind.isNarrow = true) :
    ∃ n small, v.toInt? = some n ∧ int32? n.toInt = some small ∧ small.toInt = n.toInt := by
  cases v with
  | int16 m =>
    have fits : int32? m.toInt64.toInt = some m.toInt32 := int32?_eq_some.2 (by simp)
    exact ⟨_, _, rfl, fits, int32?_eq_some.1 fits⟩
  | int32 m =>
    have fits : int32? m.toInt64.toInt = some m := int32?_eq_some.2 (by simp)
    exact ⟨_, _, rfl, fits, int32?_eq_some.1 fits⟩
  | int64 m => cases narrow _ rfl
  | _ => cases integer

/-- No integer of a narrow kind is left out. -/
theorem map_filterMap_int32? {vs : List Value} (integers : ∀ v ∈ vs, v.isInteger = true)
    (narrow : ∀ v ∈ vs, ∀ kind, v.kind? = some kind → kind.isNarrow = true) :
    (vs.filterMap fun v => v.toInt?.bind fun n => int32? n.toInt).map Int32.toInt =
      (vs.filterMap Value.toInt?).map Int64.toInt := by
  induction vs with
  | nil => rfl
  | cons v vs ih =>
    obtain ⟨integer, rest⟩ := List.forall_mem_cons.1 integers
    obtain ⟨own, rest'⟩ := List.forall_mem_cons.1 narrow
    obtain ⟨n, small, hn, fits, same⟩ := exists_int32? integer own
    simp only [List.filterMap_cons, hn, Option.bind_some, fits, List.map_cons, same, ih rest rest']

theorem toInt_sumInt32 {vs : List Value} {x : Value} (integers : ∀ v ∈ vs, v.isInteger = true)
    (narrow : ∀ v ∈ vs, ∀ kind, v.kind? = some kind → kind.isNarrow = true)
    (h : sumInt32 vs = some x) : ∃ n, x.toInt? = some n ∧ n.toInt = total vs := by
  obtain ⟨sum, added, rfl⟩ := Option.map_eq_some_iff.1 h
  have exactly := foldlM_eq_some (fun n a => int32?_eq_some.1) added
  refine ⟨sum.toInt64, rfl, ?_⟩
  rw [Int32.toInt_toInt64, exactly, map_filterMap_int32? integers narrow, total]
  simp

/-! ## The kind of a sum -/

theorem isInteger_of_mem_kinds {vs : List Value} (integers : ∀ v ∈ vs, v.isInteger = true) :
    ∀ kind ∈ vs.filterMap Value.kind?, kind.isInteger = true :=
  List.forall_mem_filterMap.2 fun v mem _ found =>
    (Value.isInteger_of_kind? found).symm.trans (integers v mem)

/-- Where integers are added in a narrow kind, they are all narrow. -/
theorem isNarrow_of_foldl_widenKnown {start : FieldKind} {kinds : List FieldKind}
    (integers : ∀ kind ∈ kinds, kind.isInteger = true)
    (narrow : (kinds.foldl FieldKind.widenKnown start).isNarrow = true) :
    (start.isNarrow = true ∨ start = .unknown) ∧ ∀ kind ∈ kinds, kind.isNarrow = true := by
  induction kinds generalizing start with
  | nil => exact ⟨.inl narrow, by simp⟩
  | cons kind kinds ih =>
    obtain ⟨integer, rest⟩ := List.forall_mem_cons.1 integers
    obtain ⟨next, later⟩ := ih rest narrow
    have own := next.resolve_right (FieldKind.widenKnown_ne_unknown integer start)
    obtain ⟨first, narrow'⟩ := FieldKind.isNarrow_of_widenKnown integer own
    exact ⟨first, List.forall_mem_cons.2 ⟨narrow', later⟩⟩

/-- Integers are added in an integer kind, unless another type is known. -/
theorem isInteger_foldl_widenKnown {start : FieldKind} {kinds : List FieldKind}
    (integers : ∀ kind ∈ kinds, kind.isInteger = true)
    (known : start.isInteger = true ∨ start = .unknown) :
    (kinds.foldl FieldKind.widenKnown start).isInteger = true ∨
      kinds.foldl FieldKind.widenKnown start = .unknown := by
  induction kinds generalizing start with
  | nil => exact known
  | cons kind kinds ih =>
    obtain ⟨integer, rest⟩ := List.forall_mem_cons.1 integers
    exact ih rest (.inl (FieldKind.isInteger_widenKnown known integer))

variable {vs : List Value} {kind : FieldKind} {x : Value} {n : Int64}

/-- **A sum of integers is exact** where it is an integer, whatever the type of the field. -/
theorem toInt_sumIn (integers : ∀ v ∈ vs, v.isInteger = true)
    (h : sumIn vs (workingKind kind vs) = some x) (hx : x.toInt? = some n) :
    n.toInt = total vs := by
  have kinds := isInteger_of_mem_kinds integers
  have narrow (own : (workingKind kind vs).isNarrow = true) (added : sumInt32 vs = some x) :
      n.toInt = total vs := by
    obtain ⟨-, all⟩ := isNarrow_of_foldl_widenKnown kinds own
    obtain ⟨m, hm, exactly⟩ := toInt_sumInt32 integers
      (fun v listed seen found => all seen (List.mem_filterMap.2 ⟨v, listed, found⟩)) added
    rw [← exactly, Option.some.inj (hx.symm.trans hm)]
  cases working : workingKind kind vs with
  | int16 | int32 =>
    rw [working] at h narrow
    exact narrow rfl h
  | int64 =>
    rw [working] at h
    obtain ⟨m, hm, exactly⟩ := toInt_sumInt64 h
    rw [← exactly, Option.some.inj (hx.symm.trans hm)]
  | float32 | float64 =>
    rw [working] at h
    obtain rfl := Option.some.inj h
    cases hx
  | decimal =>
    rw [working] at h
    obtain ⟨d, -, rfl⟩ := Option.map_eq_some_iff.1 h
    cases hx
  | _ =>
    rw [working] at h
    cases h

/-- The sum of integers is an integer, unless another type is known of the field. -/
theorem isInteger_sumIn (integers : ∀ v ∈ vs, v.isInteger = true)
    (known : kind.isInteger = true ∨ kind = .unknown)
    (h : sumIn vs (workingKind kind vs) = some x) : x.isInteger = true := by
  have working : (workingKind kind vs).isInteger = true ∨ workingKind kind vs = .unknown :=
    isInteger_foldl_widenKnown (isInteger_of_mem_kinds integers) known
  generalize workingKind kind vs = working' at h working
  cases working' with
  | int16 | int32 | int64 =>
    obtain ⟨sum, -, rfl⟩ := Option.map_eq_some_iff.1 h
    rfl
  | unknown => cases h
  | _ => rcases working with other | other <;> cases other

/-! ## Sums over parts -/

variable {field : String} {records : List Record} {parts : List (List Record)}

theorem isInteger_of_mem_valuesAt (integers : IntegersAt field records) {v : Value}
    (mem : v ∈ valuesAt (.parse field) records) : v.isInteger = true := by
  obtain ⟨r, hr, rfl, some⟩ := mem_valuesAt.1 mem
  exact integers r hr some

/-- A sum that is an integer is that of the integers at the field. -/
theorem toInt_valueOver (integers : IntegersAt field records)
    (h : (valueOver settings typeAt records ⟨field, .sum⟩).bind Value.toInt? = some n) :
    n.toInt = total (valuesAt (.parse field) records) := by
  obtain ⟨x, value, hx⟩ := Option.bind_eq_some_iff.1 h
  obtain ⟨type, -, sum⟩ := Option.bind_eq_some_iff.1 value
  exact toInt_sumIn (fun _ mem => isInteger_of_mem_valuesAt integers mem) sum hx

theorem isInteger_valueOver (integers : IntegersAt field records)
    (known : ∀ type, typeAt field = some type →
      type.kind.isInteger = true ∨ type.kind = .unknown)
    (h : valueOver settings typeAt records ⟨field, .sum⟩ = some x) : x.isInteger = true := by
  obtain ⟨type, found, sum⟩ := Option.bind_eq_some_iff.1 h
  exact isInteger_sumIn (fun _ mem => isInteger_of_mem_valuesAt integers mem) (known type found) sum

/-- A sum of no values is zero. -/
theorem isZero_sumIn_nil (h : sumIn [] kind = some x) :
    x.toDouble?.map Binary.isZero = some true := by
  cases kind with
  | int16 | int32 | int64 | float32 | float64 | decimal =>
    obtain rfl := Option.some.inj h
    decide +kernel
  | _ => cases h

/-- Where all values are null, the sum is the same for all records. -/
theorem valueOver_of_nulls (nulls : ∀ r ∈ records, (r.get field).isNull = true) :
    valueOver settings typeAt records ⟨field, .sum⟩ =
      (typeAt field).bind fun type => sumIn [] type.kind := by
  have none : valuesAt (.parse field) records = [] := by
    refine List.filter_eq_nil_iff.2 fun v mem => ?_
    obtain ⟨r, hr, rfl⟩ := List.mem_map.1 mem
    have null : (r.valueAt (.parse field)).isNull = true := nulls r hr
    simp [null]
  rw [valueOver, none]
  rfl

/-- The values of the parts are those of all records. -/
theorem valuesAt_flatten_perm (path : FieldPath) (perm : parts.flatten.Perm records) :
    (parts.map (valuesAt path)).flatten.Perm (valuesAt path records) := by
  have cut : (parts.map (valuesAt path)).flatten = valuesAt path parts.flatten := by
    rw [valuesAt, List.map_flatten, List.filter_flatten, List.map_map]
    rfl
  rw [cut]
  exact (perm.map _).filter _

/-- The sums of the parts, where all are there as integers. -/
theorem map_toInt_valueOver {ns : List Int64} (integers : ∀ part ∈ parts, IntegersAt field part)
    (h : parts.map (fun part =>
      (valueOver settings typeAt part ⟨field, .sum⟩).bind Value.toInt?) = ns.map some) :
    ns.map Int64.toInt = parts.map fun part => total (valuesAt (.parse field) part) := by
  induction parts generalizing ns with
  | nil =>
    obtain rfl : ns = [] := by simpa using h.symm
    rfl
  | cons part parts ih =>
    obtain ⟨first, rest⟩ := List.forall_mem_cons.1 integers
    cases ns with
    | nil => cases h
    | cons m ms =>
      obtain ⟨own, later⟩ := List.cons.inj h
      rw [List.map_cons, List.map_cons, toInt_valueOver settings typeAt first own, ih rest later]

/-- **Sums of integers add up** over the parts of records. -/
theorem sumsAddUp_valueOver (integers : IntegersAt field records)
    (perm : parts.flatten.Perm records) :
    SumsAddUp (valueOver settings typeAt records ⟨field, .sum⟩)
      (parts.map fun part => valueOver settings typeAt part ⟨field, .sum⟩) := by
  intro n ns whole entries
  have inside : ∀ part ∈ parts, IntegersAt field part := fun part mem r hr =>
    integers r (perm.mem_iff.1 (List.mem_flatten.2 ⟨part, mem, hr⟩))
  rw [List.map_map] at entries
  calc n.toInt
      = total (valuesAt (.parse field) records) :=
        toInt_valueOver settings typeAt integers whole
    _ = total (parts.map (valuesAt (.parse field))).flatten :=
        (total_perm (valuesAt_flatten_perm _ perm)).symm
    _ = (parts.map fun part => total (valuesAt (.parse field) part)).sum := by
        rw [total_flatten, List.map_map]
        rfl
    _ = (ns.map Int64.toInt).sum := by
        rw [map_toInt_valueOver settings typeAt inside entries]

end Aggregate

end RecordQuery
