import Mathlib.Algebra.Order.BigOperators.Group.List
import Mathlib.Data.List.Infix
import RecordQuery.Proofs.Aggregate.Sums

/-!
# Running sums of Int64 values

Values are added one by one, in the order of the records, and there is no sum as soon as a running
sum is out of range. So the sum is exact where it exists, and whether it exists depends on the order
of the values, unless the positive ones alone and the negative ones alone stay in range.

* `RunsInRange` says that all running sums are in range;
* `Aggregate.sumInt64_eq_some_iff` and `Aggregate.sumInt64_eq_none_iff`: the sum of 64 bits;
* `Aggregate.gains` and `Aggregate.losses` add the values of one sign only, and
  `Aggregate.total_mem_of_prefix` says that all running sums are between them;
* `Aggregate.workingKind_of_int64s`: Int64 values are added in 64 bits.
-/

namespace RecordQuery

/-- An integer that has 64 bits. -/
def FitsInt64 (n : Int) : Prop := -0x8000000000000000 ≤ n ∧ n < 0x8000000000000000

instance (n : Int) : Decidable (FitsInt64 n) := inferInstanceAs (Decidable (_ ∧ _))

theorem fitsInt64_toInt (n : Int64) : FitsInt64 n.toInt :=
  ⟨n.le_toInt, n.toInt_lt⟩

theorem isSome_int64? {n : Int} : (int64? n).isSome = true ↔ FitsInt64 n := by
  unfold int64?
  split
  · next fits => exact iff_of_true rfl fits
  · next out => exact iff_of_false Bool.false_ne_true out

theorem exists_int64_iff {n : Int} : (∃ m : Int64, m.toInt = n) ↔ FitsInt64 n := by
  rw [← isSome_int64?, Option.isSome_iff_exists]
  exact exists_congr fun m => int64?_eq_some.symm

/-- The values of a field are Int64, where they are not null. -/
def Int64sAt (field : String) (records : List Record) : Prop :=
  ∀ r ∈ records, (r.get field).isNull = false → (r.get field).kind? = some .int64

instance (field : String) (records : List Record) : Decidable (Int64sAt field records) :=
  inferInstanceAs (Decidable (∀ r ∈ records, _ → _))

theorem Int64sAt.integersAt {field : String} {records : List Record}
    (h : Int64sAt field records) : IntegersAt field records :=
  fun r mem some => Value.isInteger_of_kind? (h r mem some)

theorem Int64sAt.mono {field : String} {records records' : List Record}
    (h : Int64sAt field records) (sub : records' ⊆ records) : Int64sAt field records' :=
  fun r mem => h r (sub mem)

namespace Aggregate

/-- All running sums of values are in range, in this order of the values. -/
def RunsInRange (vs : List Value) : Prop := ∀ front, front <+: vs → FitsInt64 (total front)

instance (vs : List Value) : Decidable (RunsInRange vs) :=
  decidable_of_iff (∀ front ∈ vs.inits, FitsInt64 (total front))
    (forall_congr' fun front => by rw [List.mem_inits])

/-! ## Adding one by one -/

theorem total_cons_of_none {v : Value} (h : v.toInt? = none) (vs : List Value) :
    total (v :: vs) = total vs := by
  rw [total, List.filterMap_cons, h, total]

theorem total_cons_of_some {v : Value} {n : Int64} (h : v.toInt? = some n) (vs : List Value) :
    total (v :: vs) = n.toInt + total vs := by
  rw [total, List.filterMap_cons, h, List.map_cons, List.sum_cons, total]

/-- Adding values to a start comes to a sum exactly if all running sums are in range. -/
theorem isSome_foldlM_int64? (start : Int64) (vs : List Value) :
    ((vs.filterMap Value.toInt?).foldlM
      (fun (sum n : Int64) => int64? (sum.toInt + n.toInt)) start).isSome = true ↔
      ∀ front, front <+: vs → FitsInt64 (start.toInt + total front) := by
  induction vs generalizing start with
  | nil =>
    simp only [List.prefix_nil, forall_eq]
    refine iff_of_true rfl ?_
    rw [total, List.filterMap_nil, List.map_nil, List.sum_nil, Int.add_zero]
    exact fitsInt64_toInt start
  | cons v vs ih =>
    have own : FitsInt64 (start.toInt + total []) := by
      simpa [total] using fitsInt64_toInt start
    simp only [List.prefix_cons_iff, forall_eq_or_imp, own, true_and]
    cases read : v.toInt? with
    | none =>
      rw [List.filterMap_cons, read, ih]
      constructor
      · rintro h _ ⟨front, rfl, inside⟩
        rw [total_cons_of_none read]
        exact h front inside
      · intro h front inside
        rw [← total_cons_of_none read]
        exact h (v :: front) ⟨front, rfl, inside⟩
    | some n =>
      rw [List.filterMap_cons, read, List.foldlM_cons]
      have moved (front : List Value) :
          start.toInt + total (v :: front) = start.toInt + n.toInt + total front := by
        rw [total_cons_of_some read, Int.add_assoc]
      cases added : int64? (start.toInt + n.toInt) with
      | none =>
        have out : ¬ FitsInt64 (start.toInt + n.toInt) := by
          rw [← isSome_int64?, added]
          exact Bool.false_ne_true
        refine iff_of_false Bool.false_ne_true fun h => out ?_
        have first := h [v] ⟨[], rfl, List.nil_prefix⟩
        rw [moved] at first
        simpa [total] using first
      | some next =>
        have same : next.toInt = start.toInt + n.toInt := int64?_eq_some.1 added
        rw [Option.bind_eq_bind, Option.bind_some, ih, same]
        constructor
        · rintro h _ ⟨front, rfl, inside⟩
          rw [moved]
          exact h front inside
        · intro h front inside
          rw [← moved]
          exact h (v :: front) ⟨front, rfl, inside⟩

variable {vs ws : List Value}

theorem isSome_sumInt64 : (sumInt64 vs).isSome = true ↔ RunsInRange vs := by
  rw [sumInt64, Option.isSome_map, isSome_foldlM_int64?]
  refine forall_congr' fun front => ?_
  rw [Int64.toInt_zero, Int.zero_add]

/-- **The sum of 64 bits** is exact, if all running sums are in range. -/
theorem sumInt64_eq_some_iff {s : Int64} :
    sumInt64 vs = some (.int64 s) ↔ RunsInRange vs ∧ s.toInt = total vs := by
  have exactly {x : Value} (h : sumInt64 vs = some x) : ∃ n, x = .int64 n ∧ n.toInt = total vs := by
    obtain ⟨n, -, rfl⟩ := Option.map_eq_some_iff.1 h
    obtain ⟨m, read, same⟩ := toInt_sumInt64 h
    obtain rfl : n = m := Option.some.inj read
    exact ⟨n, rfl, same⟩
  constructor
  · intro h
    obtain ⟨n, own, same⟩ := exactly h
    obtain rfl := Value.int64.inj own
    exact ⟨isSome_sumInt64.1 (Option.isSome_of_eq_some h), same⟩
  · rintro ⟨runs, same⟩
    obtain ⟨x, h⟩ := Option.isSome_iff_exists.1 (isSome_sumInt64.2 runs)
    obtain ⟨n, rfl, same'⟩ := exactly h
    rw [h, Int64.toInt_inj.1 (same'.trans same.symm)]

theorem sumInt64_eq_none_iff : sumInt64 vs = none ↔ ¬ RunsInRange vs := by
  rw [← isSome_sumInt64, Option.not_isSome_iff_eq_none]

/-! ## Values of one sign -/

/-- Adding the value makes no sum smaller. -/
def rises (v : Value) : Bool := v.toInt?.any fun n => decide (0 ≤ n.toInt)

/-- The sum of the values that are not negative. -/
def gains (vs : List Value) : Int := total (vs.filter rises)

/-- The sum of the negative values. -/
def losses (vs : List Value) : Int := total (vs.filter (!rises ·))

theorem gains_add_losses (vs : List Value) : gains vs + losses vs = total vs := by
  rw [gains, losses, ← total_append]
  exact total_perm (List.filter_append_perm rises vs)

theorem gains_append (vs ws : List Value) : gains (vs ++ ws) = gains vs + gains ws := by
  rw [gains, List.filter_append, total_append]
  rfl

theorem losses_append (vs ws : List Value) : losses (vs ++ ws) = losses vs + losses ws := by
  rw [losses, List.filter_append, total_append]
  rfl

theorem gains_nonneg (vs : List Value) : 0 ≤ gains vs := by
  refine List.sum_nonneg fun n mem => ?_
  obtain ⟨m, listed, rfl⟩ := List.mem_map.1 mem
  obtain ⟨v, chosen, read⟩ := List.mem_filterMap.1 listed
  have rising := (List.mem_filter.1 chosen).2
  simpa [rises, read] using rising

theorem losses_nonpos (vs : List Value) : losses vs ≤ 0 := by
  have negative : ∀ n ∈ ((vs.filter (!rises ·)).filterMap Value.toInt?).map Int64.toInt, n ≤ 0 := by
    intro n mem
    obtain ⟨m, listed, rfl⟩ := List.mem_map.1 mem
    obtain ⟨v, chosen, read⟩ := List.mem_filterMap.1 listed
    have falling := (List.mem_filter.1 chosen).2
    have below : m.toInt < 0 := by simpa [rises, read] using falling
    exact Int.le_of_lt below
  have bound := List.sum_le_card_nsmul _ 0 negative
  rw [nsmul_zero] at bound
  exact bound

/-- Running sums stay between the losses and the gains. -/
theorem total_mem_of_prefix {front : List Value} (h : front <+: vs) :
    losses vs ≤ total front ∧ total front ≤ gains vs := by
  obtain ⟨rest, rfl⟩ := h
  have sum := gains_add_losses front
  have up := gains_nonneg front
  have down := losses_nonpos front
  have later := gains_nonneg rest
  have later' := losses_nonpos rest
  rw [gains_append, losses_append]
  omega

theorem gains_perm (h : vs.Perm ws) : gains vs = gains ws := total_perm (h.filter _)

theorem losses_perm (h : vs.Perm ws) : losses vs = losses ws := total_perm (h.filter _)

theorem runsInRange_of_fits (up : FitsInt64 (gains vs)) (down : FitsInt64 (losses vs)) :
    RunsInRange vs := by
  intro front inside
  obtain ⟨least, greatest⟩ := total_mem_of_prefix inside
  exact ⟨Int.le_trans down.1 least, Int.lt_of_le_of_lt greatest up.2⟩

theorem RunsInRange.fits_front (h : RunsInRange (vs ++ ws)) : FitsInt64 (total vs) :=
  h vs (List.prefix_append vs ws)

/-! ## The kind of the sum -/

/-- Int64 values are added in 64 bits, unless another type is known of the field. -/
theorem workingKind_of_int64s {kind : FieldKind} (known : kind.isInteger = true ∨ kind = .unknown)
    (int64s : ∀ v ∈ vs, v.kind? = some .int64) (some : vs ≠ []) :
    workingKind kind vs = .int64 := by
  cases vs with
  | nil => exact absurd rfl some
  | cons v vs =>
    obtain ⟨first, rest⟩ := List.forall_mem_cons.1 int64s
    have wide : kind.widenKnown .int64 = .int64 := by
      cases kind <;> first | rfl | rcases known with other | other <;> cases other
    have unfolded : workingKind kind (v :: vs) =
        (vs.filterMap Value.kind?).foldl FieldKind.widenKnown (kind.widenKnown .int64) := by
      rw [workingKind, List.filterMap_cons, first, List.foldl_cons]
      rfl
    have one : ∀ seen ∈ vs.filterMap Value.kind?, seen = .int64 :=
      List.forall_mem_filterMap.2 fun v mem _ found =>
        Option.some.inj (found.symm.trans (rest v mem))
    rw [unfolded, wide, FieldKind.foldl_widenKnown (by decide), FieldKind.foldl_widen_self one]

/-! ## The values of a field -/

variable (settings : Settings) {typeAt : String → Option TypeInfo} {field : String}
  {records : List Record}

theorem valuesAt_perm {records' : List Record} (path : FieldPath) (h : records.Perm records') :
    (valuesAt path records).Perm (valuesAt path records') :=
  (h.map _).filter _

theorem valuesAt_append (path : FieldPath) (front rest : List Record) :
    valuesAt path (front ++ rest) = valuesAt path front ++ valuesAt path rest := by
  rw [valuesAt, List.map_append, List.filter_append]
  rfl

/-- The values that pass a test are those of the records whose values pass it. -/
theorem valuesAt_filter (path : FieldPath) (test : Value → Bool) (records : List Record) :
    valuesAt path (records.filter fun r => test (r.valueAt path)) =
      (valuesAt path records).filter test := by
  simp only [valuesAt, List.filter_map, List.filter_filter]
  congr 2
  funext r
  exact Bool.and_comm _ _

theorem valueOver_sum (typeAt : String → Option TypeInfo) (field : String)
    (records : List Record) :
    valueOver settings typeAt records ⟨field, .sum⟩ = (typeAt field).bind fun type =>
      sumIn (valuesAt (.parse field) records)
        (workingKind type.kind (valuesAt (.parse field) records)) := rfl

/-- **A field of Int64 values** whose type is found has their sum of 64 bits. -/
theorem valueOver_of_int64s {type : TypeInfo} (found : typeAt field = some type)
    (known : type.kind.isInteger = true ∨ type.kind = .unknown) (int64s : Int64sAt field records)
    (present : ∃ r ∈ records, (r.get field).isNull = false) :
    valueOver settings typeAt records ⟨field, .sum⟩ =
      sumInt64 (valuesAt (.parse field) records) := by
  have kinds : ∀ v ∈ valuesAt (.parse field) records, v.kind? = some .int64 := by
    intro v mem
    obtain ⟨r, hr, rfl, some⟩ := mem_valuesAt.1 mem
    exact int64s r hr some
  have some : valuesAt (.parse field) records ≠ [] := by
    obtain ⟨r, hr, here⟩ := present
    exact List.ne_nil_of_mem (mem_valuesAt.2 ⟨r, hr, rfl, here⟩)
  rw [valueOver_sum, found, Option.bind_some, workingKind_of_int64s known kinds some, sumIn]

end Aggregate

end RecordQuery
