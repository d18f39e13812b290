import RecordQuery.Proofs.Aggregate.RunningSum
import RecordQuery.Proofs.Pipeline.Totals

/-!
# Sums and the order of records

The sum of a field of Int64 values is exact, and it is there as long as every running sum is in
range, record by record. Which running sums there are depends on the order of the records, and so on
the sort keys of a request.

* `HasField`: no record lacks the field, so its type is found in any order of the records;
* `Aggregate.sum?` is the sum of a field where nothing is known of its type yet;
* `Pipeline.aggregate?_execute`: the entry of an aggregate in a result;
* `Pipeline.eq_of_sum_execute` and `Pipeline.exists_sum_execute`: where the requests that differ in
  their sort keys show the same sum;
* `sum_of_int64s`: the sum of a field in all orders of the records.
-/

namespace RecordQuery

/-! ## Fields that no record lacks -/

/-- No record lacks the field: static ones have it, and in others it is null at worst. -/
def HasField (field : String) (records : List Record) : Prop :=
  ∀ r ∈ records, Sample.ofRecord (.parse field) r ≠ .missing

instance (field : String) (records : List Record) : Decidable (HasField field records) :=
  inferInstanceAs (Decidable (∀ r ∈ records, _))

theorem HasField.mono {field : String} {records records' : List Record}
    (h : HasField field records) (sub : records' ⊆ records) : HasField field records' :=
  fun r mem => h r (sub mem)

/-- Samples settle a type, unless a record lacks the field. -/
theorem exists_settleType {samples : List Sample} (found : ∀ sample ∈ samples, sample ≠ .missing)
    (numeric : Option FieldKind) : ∃ type, settleType numeric samples = some type := by
  induction samples generalizing numeric with
  | nil => cases numeric <;> exact ⟨_, rfl⟩
  | cons sample samples ih =>
    obtain ⟨first, rest⟩ := List.forall_mem_cons.1 found
    cases sample with
    | declared type => exact ⟨type, rfl⟩
    | null => exact ih rest numeric
    | missing => exact absurd rfl first
    | seen kind =>
      cases numeric with
      | some seen => exact ih rest _
      | none =>
        rw [settleType]
        split
        · exact ih rest _
        · exact ⟨_, rfl⟩

/-- The empty path is no field. -/
theorem HasField.isEmpty_parse {field : String} {records : List Record}
    (h : HasField field records) (rows : records ≠ []) :
    (FieldPath.parse field).isEmpty = false := by
  obtain ⟨r, mem⟩ := List.exists_mem_of_ne_nil records rows
  by_contra empty
  have none : (FieldPath.parse field).leaf? = none := by
    rw [Bool.not_eq_false, FieldPath.isEmpty, List.isEmpty_iff] at empty
    rw [FieldPath.leaf?, empty, List.getLast?_nil]
  refine h r mem ?_
  rw [Sample.ofRecord, none]

/-- The type of a field that no record lacks is found. -/
theorem HasField.fieldType?_ne_none {field : String} {records : List Record}
    (h : HasField field records) (path : (FieldPath.parse field).isEmpty = false)
    (limit : Option Nat) : fieldType? limit records (.parse field) ≠ none := by
  have sampled : ∀ sample ∈ (sampledRecords limit records).map (Sample.ofRecord (.parse field)),
      sample ≠ .missing := by
    intro sample listed
    obtain ⟨r, asked, rfl⟩ := List.mem_map.1 listed
    refine h r ?_
    cases limit with
    | none => exact asked
    | some n => exact List.mem_of_mem_take asked
  obtain ⟨type, found⟩ := exists_settleType sampled none
  rw [fieldType?, path, if_neg Bool.false_ne_true, found]
  exact Option.some_ne_none type

/-! ## The sum of a field alone -/

/-- The sum of a field over records, where nothing is known of its type yet. -/
def Aggregate.sum? (settings : Settings) (limit : Option Nat) (field : String)
    (records : List Record) : Option Value :=
  (Aggregate.compute settings records ⟨field, .sum⟩ { limit }).1

namespace Aggregate

variable {settings : Settings} {limit : Option Nat} {field : String} {records : List Record}

theorem sum?_eq (settings : Settings) (limit : Option Nat) (field : String)
    (records : List Record) :
    sum? settings limit field records =
      valueOver settings (({ limit } : FieldTypes).typeAt records) records ⟨field, .sum⟩ :=
  (reads_compute settings records ⟨field, .sum⟩).value_eq { limit }

/-- Where no type is found, there is no sum. -/
theorem sum?_of_fieldType?_eq_none (h : fieldType? limit records (.parse field) = none) :
    sum? settings limit field records = none := by
  have unknown : ({ limit } : FieldTypes).typeAt records field = none := h
  rw [sum?_eq, valueOver_sum, unknown, Option.bind_none]

/-- Where a type is found, the sum is that of 64 bits. -/
theorem sum?_of_int64s (int64s : Int64sAt field records) (declared : DeclaresIntegers field records)
    (present : ∃ r ∈ records, (r.get field).isNull = false)
    (found : fieldType? limit records (.parse field) ≠ none) :
    sum? settings limit field records = sumInt64 (valuesAt (.parse field) records) := by
  obtain ⟨type, own⟩ := Option.ne_none_iff_exists'.1 found
  have known := fieldType?_of_integers int64s.integersAt declared type own
  rw [sum?_eq]
  exact valueOver_of_int64s settings own known int64s present

/-- **Records in any order** have their exact sum exactly if the values of each sign have one. -/
theorem forall_perm_sum?_iff (int64s : Int64sAt field records)
    (declared : DeclaresIntegers field records)
    (present : ∃ r ∈ records, (r.get field).isNull = false) (has : HasField field records) :
    (∀ shuffled, shuffled.Perm records → ∃ s : Int64,
      sum? settings limit field shuffled = some (.int64 s) ∧
        s.toInt = total (valuesAt (.parse field) records)) ↔
      FitsInt64 (gains (valuesAt (.parse field) records)) ∧
        FitsInt64 (losses (valuesAt (.parse field) records)) := by
  have sums {shuffled : List Record} (perm : shuffled.Perm records) :
      sum? settings limit field shuffled = sumInt64 (valuesAt (.parse field) shuffled) := by
    obtain ⟨r, mem, here⟩ := present
    have mem' : r ∈ shuffled := perm.mem_iff.2 mem
    have path := has.isEmpty_parse (List.ne_nil_of_mem mem)
    exact sum?_of_int64s (int64s.mono perm.subset) (declared.mono perm.subset) ⟨r, mem', here⟩
      ((has.mono perm.subset).fieldType?_ne_none path limit)
  constructor
  · intro every
    -- the values that pass a test come first in some order of the records
    have first (test : Value → Bool) :
        FitsInt64 (total ((valuesAt (.parse field) records).filter test)) := by
      have perm :=
        List.filter_append_perm (fun r : Record => test (r.valueAt (.parse field))) records
      obtain ⟨s, sum, -⟩ := every _ perm
      rw [sums perm, sumInt64_eq_some_iff, valuesAt_append, valuesAt_filter] at sum
      exact sum.1.fits_front
    exact ⟨first rises, first (!rises ·)⟩
  · rintro ⟨up, down⟩ shuffled perm
    have values := valuesAt_perm (.parse field) perm
    rw [← gains_perm values] at up
    rw [← losses_perm values] at down
    have runs := runsInRange_of_fits up down
    obtain ⟨s, same⟩ := exists_int64_iff.2 (runs _ (List.prefix_refl _))
    refine ⟨s, ?_, same.trans (total_perm values)⟩
    rw [sums perm, sumInt64_eq_some_iff]
    exact ⟨runs, same⟩

end Aggregate

/-! ## The sum in a result -/

namespace Pipeline

variable {settings : Settings} {q : Request} {source : List Record} {field : String}

/-- The entry of an aggregate is its value over the records that are left before paging. -/
theorem aggregate?_execute {a : Aggregate} (mem : a ∈ q.aggregates)
    (supported : a.kind.isSupported = true)
    (rows : arranged q (selected settings q source).1 ≠ []) :
    let records := arranged q (selected settings q source).1
    (execute settings source q).aggregate? a.label =
      Aggregate.valueOver settings ((selected settings q source).2.typeAt records) records a := by
  intro records
  have some : ¬ q.aggregates.isEmpty = true := mt List.isEmpty_iff.1 (List.ne_nil_of_mem mem)
  have entries : (execute settings source q).aggregates = _ :=
    (reads_aggregated settings q rows).value_eq (selected settings q source).2
  rw [QueryResult.aggregate?, entries, if_neg some, Option.bind_some]
  exact Aggregate.get?_named settings records Aggregate.tellsApart_label mem supported

/-- The entry of a sum of Int64 values is their sum of 64 bits, in the order of the sort keys,
unless no type is found. -/
theorem sum_execute (int64s : Int64sAt field source) (declared : DeclaresIntegers field source)
    (all : q.distinct = none) (mem : ⟨field, .sum⟩ ∈ q.aggregates)
    (present : ∃ r ∈ (selected settings q source).1, (r.get field).isNull = false) :
    let records := sortRecords q.sort (selected settings q source).1
    (execute settings source q).aggregate? (Aggregate.label ⟨field, .sum⟩) =
      ((selected settings q source).2.typeAt records field).bind fun _ =>
        Aggregate.sumInt64 (Aggregate.valuesAt (.parse field) records) := by
  intro records
  have perm : records.Perm (selected settings q source).1 := sortRecords_perm _ _
  have shown : records ⊆ source :=
    List.Subset.trans perm.subset (selected_subset settings q source)
  have rows : arranged q (selected settings q source).1 = records := by
    rw [arranged, all]
  obtain ⟨r, left, here⟩ := present
  have present' : ∃ r ∈ records, (r.get field).isNull = false := ⟨r, perm.mem_iff.2 left, here⟩
  have allowed : AllowsIntegers ((selected settings q source).2.typeAt records field) :=
    typeAt_selected settings q source (fun limit _ inside =>
      fieldType?_of_integers (int64s.mono inside).integersAt (declared.mono inside)) records shown
  have some : arranged q (selected settings q source).1 ≠ [] := by
    rw [rows]
    exact List.ne_nil_of_mem (perm.mem_iff.2 left)
  rw [aggregate?_execute mem rfl some, rows]
  cases found : (selected settings q source).2.typeAt records field with
  | none => rw [Aggregate.valueOver_sum, found, Option.bind_none, Option.bind_none]
  | some type =>
    exact Aggregate.valueOver_of_int64s settings found (allowed type found)
      (int64s.mono shown) present'

/-- A sum of Int64 values that is in a result is exact. -/
theorem eq_of_sum_execute (int64s : Int64sAt field source)
    (declared : DeclaresIntegers field source) (all : q.distinct = none)
    (mem : ⟨field, .sum⟩ ∈ q.aggregates)
    (present : ∃ r ∈ (selected settings q source).1, (r.get field).isNull = false) {x : Value}
    (shown : (execute settings source q).aggregate? (Aggregate.label ⟨field, .sum⟩) = some x) :
    ∃ s : Int64, x = .int64 s ∧
      s.toInt =
        Aggregate.total (Aggregate.valuesAt (.parse field) (selected settings q source).1) := by
  have values := Aggregate.valuesAt_perm (.parse field)
    (sortRecords_perm q.sort (selected settings q source).1)
  rw [sum_execute int64s declared all mem present] at shown
  obtain ⟨type, -, sum⟩ := Option.bind_eq_some_iff.1 shown
  obtain ⟨s, -, rfl⟩ := Option.map_eq_some_iff.1 sum
  obtain ⟨-, same⟩ := Aggregate.sumInt64_eq_some_iff.1 sum
  exact ⟨s, rfl, same.trans (Aggregate.total_perm values)⟩

/-- Where the values of each sign have a sum in range, the sum of all is in the result. -/
theorem exists_sum_execute (int64s : Int64sAt field source)
    (declared : DeclaresIntegers field source) (all : q.distinct = none)
    (mem : ⟨field, .sum⟩ ∈ q.aggregates)
    (present : ∃ r ∈ (selected settings q source).1, (r.get field).isNull = false)
    (has : HasField field source)
    (up : FitsInt64
      (Aggregate.gains (Aggregate.valuesAt (.parse field) (selected settings q source).1)))
    (down : FitsInt64
      (Aggregate.losses (Aggregate.valuesAt (.parse field) (selected settings q source).1))) :
    ∃ x, (execute settings source q).aggregate? (Aggregate.label ⟨field, .sum⟩) = some x := by
  set records := sortRecords q.sort (selected settings q source).1 with sorted
  have perm : records.Perm (selected settings q source).1 := sortRecords_perm _ _
  have shown : records ⊆ source :=
    List.Subset.trans perm.subset (selected_subset settings q source)
  have path : (FieldPath.parse field).isEmpty = false := by
    obtain ⟨r, left, -⟩ := present
    exact has.isEmpty_parse (List.ne_nil_of_mem (shown (perm.mem_iff.2 left)))
  have found : (selected settings q source).2.typeAt records field ≠ none :=
    typeAt_selected settings q source (P := (· ≠ none)) (fun limit _ inside =>
      (has.mono inside).fieldType?_ne_none path limit) records shown
  have values := Aggregate.valuesAt_perm (.parse field) perm
  rw [← Aggregate.gains_perm values] at up
  rw [← Aggregate.losses_perm values] at down
  obtain ⟨type, own⟩ := Option.ne_none_iff_exists'.1 found
  rw [sum_execute int64s declared all mem present, ← sorted, own, Option.bind_some]
  exact Option.isSome_iff_exists.1
    (Aggregate.isSome_sumInt64.2 (Aggregate.runsInRange_of_fits up down))

end Pipeline

/-! ## Sums in all orders -/

/-- **Sums of Int64 values are exact**, and there is one as long as all running sums are in range,
in the order of the records. All orders have one exactly if the positive values alone and the
negative values alone have one. Two requests that differ in their sort keys show the same sum where
both show one, and they do where the values of each sign have one. -/
theorem sum_of_int64s (settings : Settings) (limit : Option Nat) (field : String)
    (records : List Record) (int64s : Int64sAt field records)
    (declared : DeclaresIntegers field records)
    (present : ∃ r ∈ records, (r.get field).isNull = false) :
    let valuesOf := Aggregate.valuesAt (.parse field)
    let sum := Aggregate.sum? settings limit field
    (fieldType? limit records (.parse field) = none → sum records = none) ∧
    (fieldType? limit records (.parse field) ≠ none →
      (∀ s : Int64, sum records = some (.int64 s) ↔
        Aggregate.RunsInRange (valuesOf records) ∧ s.toInt = Aggregate.total (valuesOf records)) ∧
      (sum records = none ↔ ¬ Aggregate.RunsInRange (valuesOf records))) ∧
    (HasField field records →
      ((∀ shuffled, shuffled.Perm records → ∃ s : Int64, sum shuffled = some (.int64 s) ∧
          s.toInt = Aggregate.total (valuesOf records)) ↔
        FitsInt64 (Aggregate.gains (valuesOf records)) ∧
          FitsInt64 (Aggregate.losses (valuesOf records)))) ∧
    ∀ (q : Request) (keys : List SortKey), q.distinct = none → ⟨field, .sum⟩ ∈ q.aggregates →
      let kept := (Pipeline.selected settings q records).1
      let shown := fun q => (execute settings records q).aggregate? (Aggregate.label ⟨field, .sum⟩)
      (∃ r ∈ kept, (r.get field).isNull = false) →
        (∀ x y, shown q = some x → shown { q with sort := keys } = some y → x = y) ∧
        (HasField field records → FitsInt64 (Aggregate.gains (valuesOf kept)) →
          FitsInt64 (Aggregate.losses (valuesOf kept)) →
          ∃ s : Int64, shown q = some (.int64 s) ∧ shown { q with sort := keys } = some (.int64 s) ∧
            s.toInt = Aggregate.total (valuesOf kept)) := by
  intro valuesOf sum
  refine ⟨Aggregate.sum?_of_fieldType?_eq_none, fun found => ?_,
    Aggregate.forall_perm_sum?_iff int64s declared present, fun q keys all mem => ?_⟩
  · have added : sum records = Aggregate.sumInt64 (valuesOf records) :=
      Aggregate.sum?_of_int64s int64s declared present found
    rw [added]
    exact ⟨fun s => Aggregate.sumInt64_eq_some_iff, Aggregate.sumInt64_eq_none_iff⟩
  · intro kept shown here
    have same : ∀ x y, shown q = some x → shown { q with sort := keys } = some y → x = y := by
      intro x y hx hy
      obtain ⟨s, rfl, hs⟩ := Pipeline.eq_of_sum_execute int64s declared all mem here hx
      obtain ⟨t, rfl, ht⟩ := Pipeline.eq_of_sum_execute (q := { q with sort := keys }) int64s
        declared all mem here hy
      rw [Int64.toInt_inj.1 (hs.trans ht.symm)]
    refine ⟨same, fun has up down => ?_⟩
    obtain ⟨x, hx⟩ := Pipeline.exists_sum_execute int64s declared all mem here has up down
    obtain ⟨y, hy⟩ : ∃ y, shown { q with sort := keys } = some y :=
      Pipeline.exists_sum_execute (q := { q with sort := keys }) int64s declared all mem here has up
        down
    obtain rfl := same x y hx hy
    obtain ⟨s, rfl, hs⟩ := Pipeline.eq_of_sum_execute int64s declared all mem here hx
    exact ⟨s, hx, hy, hs⟩

/-- Two records whose numbers stay in range in any order. -/
theorem sum_of_int64s_of_two :
    let row (n : Int64) : Record := .table [("N", .int64 n)]
    let records := [row Int64.maxValue, row (-1)]
    let q : Request := { aggregates := [⟨"N", .sum⟩] }
    (∀ shuffled, shuffled.Perm records →
      ∃ s : Int64, Aggregate.sum? {} none "N" shuffled = some (.int64 s) ∧
        s.toInt = Int64.maxValue.toInt - 1) ∧
    Aggregate.sum? {} none "N" records = some (.int64 (Int64.maxValue - 1)) ∧
    ∀ keys : List SortKey, ∃ s : Int64,
      (execute {} records { q with sort := keys }).aggregate? "N - sum" = some (.int64 s) ∧
        s.toInt = Int64.maxValue.toInt - 1 := by
  intro row records q
  have int64s : Int64sAt "N" records := by decide
  have declared : DeclaresIntegers "N" records := by
    intro r mem type h
    rcases List.mem_pair.1 mem with rfl | rfl <;> cases h
  have has : HasField "N" records := by decide
  obtain ⟨-, alone, orders, results⟩ :=
    sum_of_int64s {} none "N" records int64s declared (by decide)
  refine ⟨(orders has).2 (by decide), (alone (by decide)).1 _ |>.2 (by decide), fun keys => ?_⟩
  obtain ⟨-, same⟩ := results q keys rfl (by decide) (by decide)
  obtain ⟨s, -, shown, exactly⟩ := same has (by decide) (by decide)
  exact ⟨s, shown, exactly⟩

/-- A sum in range that a running sum misses: there is none in one order of the records, while in
another one there is. -/
theorem sum_of_int64s_not_in_all_orders :
    let row (n : Int64) : Record := .table [("N", .int64 n)]
    let records := [row Int64.maxValue, row 1, row (-1)]
    let shuffled := [row Int64.maxValue, row (-1), row 1]
    Int64sAt "N" records ∧ shuffled.Perm records ∧
      Aggregate.total (Aggregate.valuesAt (.parse "N") records) = Int64.maxValue.toInt ∧
      Aggregate.sum? {} none "N" records = none ∧
      Aggregate.sum? {} none "N" shuffled = some (.int64 Int64.maxValue) := by
  intro row records shuffled
  have swapped : shuffled.Perm records := (List.Perm.swap _ _ _).cons _
  exact ⟨by decide, swapped, by decide, rfl, rfl⟩

end RecordQuery
