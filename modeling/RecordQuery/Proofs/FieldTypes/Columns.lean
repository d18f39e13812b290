import RecordQuery.Proofs.FieldTypes.Uniform

/-!
# The type of a column, in any order of the records

Records that are not static show nothing but the kinds of their values, and their type is found by
widening these kinds one by one. So the order of the records does not count where all kinds are
numeric, or where there is only one.

* `kindsAt` are the kinds of the values at a path that are not null;
* `settleType_ofValue`: a kind that is not numeric is kept once it was seen, and numeric kinds are
  widened;
* `fieldType?_of_plain`: the type over records that are not static;
* `FieldTypes.resolve_column`: the type of a column of numbers, or of values of one kind.
-/

namespace RecordQuery

/-- The kinds of the values at a path that are not null. -/
def kindsAt (path : FieldPath) (records : List Record) : List FieldKind :=
  records.filterMap fun r => (r.valueAt path).kind?

/-- After a kind was seen, each value widens it. -/
theorem settleType_ofValue_seen (kind : FieldKind) (vs : List Value) :
    settleType (some kind) (vs.map .ofValue) =
      some ⟨(vs.filterMap Value.kind?).foldl FieldKind.widen kind, true⟩ := by
  induction vs generalizing kind with
  | nil => rfl
  | cons v vs ih =>
    cases shown : v.kind? with
    | none => simpa [Sample.ofValue, shown, settleType] using ih kind
    | some seen =>
      -- what is not numeric would not have widened the kind
      have step : (if seen.isNumeric then kind.widen seen else kind) = kind.widen seen := by
        split
        · rfl
        · next other => exact (FieldKind.widen_not_numeric kind (Bool.eq_false_iff.2 other)).symm
      simpa [Sample.ofValue, shown, settleType, step] using ih (kind.widen seen)

/-- **Values settle the type** to which their kinds are widened, in their order. -/
theorem settleType_ofValue (vs : List Value) :
    settleType none (vs.map .ofValue) =
      some ⟨FieldKind.widenAll (vs.filterMap Value.kind?), true⟩ := by
  induction vs with
  | nil => rfl
  | cons v vs ih =>
    cases shown : v.kind? with
    | none => simpa [Sample.ofValue, shown, settleType] using ih
    | some kind =>
      cases numeric : kind.isNumeric with
      | true =>
        simpa [Sample.ofValue, shown, settleType, numeric, FieldKind.widenAll] using
          settleType_ofValue_seen kind vs
      | false =>
        have kept := FieldKind.foldl_widen_of_not_numeric numeric (vs.filterMap Value.kind?)
        simp [Sample.ofValue, shown, settleType, numeric, FieldKind.widenAll, kept]

variable {path : FieldPath} {records : List Record}

/-- The type over records that are not static is that to which the kinds of their values are
widened. -/
theorem fieldType?_of_plain (plain : ∀ r ∈ records, r.isStatic = false)
    (named : path.isEmpty = false) (limit : Option Nat) :
    fieldType? limit records path =
      some ⟨FieldKind.widenAll (kindsAt path (sampledRecords limit records)), true⟩ := by
  have shown : (sampledRecords limit records).map (Sample.ofRecord path) =
      ((sampledRecords limit records).map (·.valueAt path)).map .ofValue := by
    rw [List.map_map]
    exact List.map_congr_left fun r asked =>
      Sample.ofRecord_eq_ofValue (plain r (mem_of_mem_sampledRecords asked)) named
  rw [fieldType?, if_neg (by simp [named]), shown, settleType_ofValue, List.filterMap_map]
  rfl

/-- **The type of a column** of numbers, or of values of one kind, in records that are not static
and are all asked, is the same for every order of the records. It is nullable. It is the narrowest
kind into which all numbers widen, or the kind of the values; of a column of nulls nothing is known.
-/
theorem FieldTypes.resolve_column (plain : ∀ r ∈ records, r.isStatic = false)
    (named : path.isEmpty = false)
    (column : (∀ kind ∈ kindsAt path records, kind.isNumeric = true) ∨
      ∃ kind, ∀ seen ∈ kindsAt path records, seen = kind) :
    ∃ type : TypeInfo,
      (∀ records', records.Perm records' →
        (resolve records' path { limit := none }).1 = some type) ∧
      type.nullable = true ∧
      (kindsAt path records = [] → type.kind = .unknown) ∧
      (kindsAt path records ≠ [] → (∀ kind ∈ kindsAt path records, kind.isNumeric = true) →
        type.kind.IsJoin (kindsAt path records)) ∧
      ∀ kind, kindsAt path records ≠ [] → (∀ seen ∈ kindsAt path records, seen = kind) →
        type.kind = kind := by
  have value (records' : List Record) (perm : records.Perm records') :
      (resolve records' path { limit := none }).1 =
        some ⟨FieldKind.widenAll (kindsAt path records'), true⟩ := by
    rw [FieldTypes.resolve_fst]
    exact fieldType?_of_plain (fun r mem => plain r (perm.mem_iff.2 mem)) named none
  -- the kinds come in another order, and this order makes no difference
  have same (records' : List Record) (perm : records.Perm records') :
      FieldKind.widenAll (kindsAt path records') = FieldKind.widenAll (kindsAt path records) := by
    have kinds : (kindsAt path records).Perm (kindsAt path records') := perm.filterMap _
    by_cases none : kindsAt path records = []
    · rw [none] at kinds ⊢
      rw [List.nil_perm.1 kinds]
    · have none' : kindsAt path records' ≠ [] := fun nil => none (List.perm_nil.1 (nil ▸ kinds))
      rcases column with numeric | ⟨kind, one⟩
      · have join := FieldKind.isJoin_widenAll none' fun kind mem =>
          numeric kind (kinds.mem_iff.2 mem)
        exact (join.congr fun kind => kinds.mem_iff.symm).unique
          (FieldKind.isJoin_widenAll none numeric)
      · rw [FieldKind.widenAll_of_one none one,
          FieldKind.widenAll_of_one none' fun seen mem => one seen (kinds.mem_iff.2 mem)]
  refine ⟨⟨FieldKind.widenAll (kindsAt path records), true⟩, fun records' perm => ?_, rfl, ?_,
    ?_, ?_⟩
  · rw [value records' perm, same records' perm]
  · intro none
    rw [none]
    rfl
  · exact fun some numeric => FieldKind.isJoin_widenAll some numeric
  · exact fun kind some one => FieldKind.widenAll_of_one some one

/-- Integers of 32 bits and numbers of 32 bits meet at 64 bits, in whatever order they come; nulls
do not count. -/
theorem FieldTypes.resolve_column_of_prices :
    let priced (price : Value) : Record := .table [("Price", price)]
    let records := [priced (.int32 32), priced .null, priced (.float32 (.ofInt .single 10)),
      .dynamic [("Price", .int16 7)]]
    let path := FieldPath.parse "Price"
    (∀ r ∈ records, r.isStatic = false) ∧ path.isEmpty = false ∧
      (∀ kind ∈ kindsAt path records, kind.isNumeric = true) ∧
      (resolve records.reverse path { limit := none }).1 = some ⟨.float64, true⟩ := by
  intro priced records path
  have plain : ∀ r ∈ records, r.isStatic = false := by decide
  have named : path.isEmpty = false := by decide
  have kinds : kindsAt path records = [.int32, .float32, .int16] := by decide +kernel
  have numeric : ∀ kind ∈ kindsAt path records, kind.isNumeric = true := by
    rw [kinds]
    decide
  refine ⟨plain, named, numeric, ?_⟩
  obtain ⟨type, order, nullable, -, join, -⟩ := resolve_column plain named (.inl numeric)
  rw [order _ records.reverse_perm.symm]
  have wide : (FieldKind.widenAll [.int32, .float32, .int16]).IsJoin _ :=
    FieldKind.isJoin_widenAll (by decide) (by decide)
  rw [kinds] at join
  have kind : type.kind = .float64 := (join (by decide) (by decide)).unique wide
  rw [← kind, ← nullable]

end RecordQuery
