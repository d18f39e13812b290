import RecordQuery.Proofs.Calendar.Order
import RecordQuery.Proofs.Filter.OwnValue
import RecordQuery.Proofs.Sort.Exact

/-!
# Ranges in sorted records

A record that is sorted by a field stands, to a literal for this field, on one of four levels: its
value is null, or before the literal, or at it, or after it. The levels rise along the sorted
records. So what a relation of order keeps is cut out of them in one piece.

* `exists_cut` and `exists_cuts`: a list whose levels rise is cut at a level;
* `Value.levelAt` is the level of a value, and `Value.rangeOrder` the order that it is read from:
  that of the days if the literal is a day, and otherwise the sort order;
* `Value.levelAt_mono`: a value that is sorted later stands no lower, for days if they follow the
  instants (`DaysFollow`);
* `Value.exists_level_from` and `Value.exists_level_below`: what a relation of order accepts, by
  levels;
* `FilterClause.exists_sides?_of_own_kind` and `FilterClause.exists_compile_eq_order`: what is
  compared, and kept;
* `FilterClause.compile_ranges`: the ranges.
-/

namespace RecordQuery

/-! ## Cutting a list -/

section

variable {α : Type} {level : α → Nat} {xs : List α}

/-- A list whose levels rise is cut where a level is reached. -/
theorem exists_cut (rising : xs.Pairwise fun a b => level a ≤ level b) (n : Nat) :
    ∃ front back, xs = front ++ back ∧ (∀ a ∈ front, level a < n) ∧ ∀ a ∈ back, n ≤ level a := by
  induction xs with
  | nil => exact ⟨[], [], rfl, nofun, nofun⟩
  | cons x xs ih =>
    obtain ⟨first, rest⟩ := List.pairwise_cons.1 rising
    by_cases below : level x < n
    · obtain ⟨front, back, rfl, low, high⟩ := ih rest
      exact ⟨x :: front, back, rfl, List.forall_mem_cons.2 ⟨below, low⟩, high⟩
    · have reached : n ≤ level x := Nat.not_lt.1 below
      refine ⟨[], x :: xs, rfl, nofun, List.forall_mem_cons.2 ⟨reached, fun a mem => ?_⟩⟩
      exact Nat.le_trans reached (first a mem)

/-- A list whose levels rise is cut where a level is reached, and again where another one is. -/
theorem exists_cuts (rising : xs.Pairwise fun a b => level a ≤ level b) (m n : Nat) :
    ∃ front run rest, xs = front ++ run ++ rest ∧ (∀ a ∈ front, level a < m) ∧
      (∀ a ∈ run, m ≤ level a ∧ level a < n) ∧ ∀ a ∈ rest, m ≤ level a ∧ n ≤ level a := by
  obtain ⟨front, back, rfl, low, reached⟩ := exists_cut rising m
  obtain ⟨run, rest, rfl, inside, beyond⟩ := exists_cut (List.pairwise_append.1 rising).2.1 n
  refine ⟨front, run, rest, (List.append_assoc _ _ _).symm, low, fun a mem => ?_, fun a mem => ?_⟩
  · exact ⟨reached a (List.mem_append_left _ mem), inside a mem⟩
  · exact ⟨reached a (List.mem_append_right _ mem), beyond a mem⟩

end

/-! ## Levels -/

/-- The level of what stands before, at or after something; level 0 is left for nulls. -/
def orderLevel : Ordering → Nat
  | .lt => 1
  | .eq => 2
  | .gt => 3

/-- What stands later in an order stands on no lower level. -/
theorem orderLevel_mono {α : Type} {cmp : α → α → Ordering} [Std.TransCmp cmp] {a b c : α}
    (le : (cmp a b).isLE = true) : orderLevel (cmp a c) ≤ orderLevel (cmp b c) := by
  cases later : cmp b c with
  | lt =>
    rw [Std.TransCmp.lt_of_isLE_of_lt le later]
  | eq =>
    have within : (cmp a c).isLE = true := Std.TransCmp.isLE_trans le (by rw [later]; rfl)
    cases order : cmp a c with
    | gt =>
      rw [order] at within
      cases within
    | _ => decide
  | gt => cases cmp a c <;> decide

theorem orderLevel_bounds (order : Ordering) : 1 ≤ orderLevel order ∧ orderLevel order ≤ 3 := by
  cases order <;> decide

/-- The family of the values of a kind, where their order is exact. -/
def FieldKind.family? : FieldKind → Option ColumnFamily
  | .bool => some .truths
  | .int16 | .int32 | .int64 | .decimal => some .decimals
  | .string => some .texts
  | .guid => some .guids
  | .dateTime | .dateTimeOffset => some .dates
  | .enum _ => some .enumerations
  | .float32 | .float64 | .list | .object | .unknown => none

namespace Value

variable {a b v literal : Value} {kind : FieldKind} {family : ColumnFamily}

theorem holds_of_kind (exact : kind.family? = some family) (own : v.kind? = some kind) :
    family.holds v = true := by
  cases v <;> cases own <;> cases exact <;> rfl

theorem isContainer_of_exact (exact : kind.family? = some family) (own : v.kind? = some kind) :
    v.isContainer = false := by
  cases v <;> cases own <;> first | rfl | cases exact

/-- Values of one kind compare, and are sorted so. -/
theorem compare?_eq_sortCompare (exact : kind.family? = some family) (ha : a.kind? = some kind)
    (hb : b.kind? = some kind) : a.compare? b = some (a.sortCompare b) := by
  cases a <;> cases ha <;> cases exact <;> cases b <;> cases hb <;> rfl

/-- The place of the day of a date, on its own clock, among the days. -/
def dayPosition (v : Value) : Int := (v.day?.map Date.position).getD 0

/-- The order in which a value stands to a literal of its kind. A literal that is the start of a day
stands for the day. -/
def rangeOrder (literal v : Value) : Ordering :=
  if literal.isMidnight then compare v.dayPosition literal.dayPosition else v.sortCompare literal

/-- The level on which a value stands to a literal: 0 for null, and else 1 before it, 2 at it and 3
after it. -/
def levelAt (literal v : Value) : Nat :=
  if v.isNull then 0 else orderLevel (rangeOrder literal v)

theorem kind?_of_isMidnight (own : literal.kind? = some kind)
    (midnight : literal.isMidnight = true) :
    kind = .dateTime ∨ kind = .dateTimeOffset := by
  cases literal <;> cases own <;> first | exact .inl rfl | exact .inr rfl | cases midnight

/-- Days without an offset follow the times. -/
theorem dayPosition_le (ha : a.kind? = some .dateTime) (hb : b.kind? = some .dateTime)
    (le : (a.sortCompare b).isLE = true) : a.dayPosition ≤ b.dayPosition := by
  cases a <;> cases ha
  cases b <;> cases hb
  exact LocalDateTime.date_le_of_compare le

/-- Days at one offset follow the instants. -/
theorem dayPosition_le_of_offset {s t : OffsetDateTime} (offset : s.offset = t.offset)
    (le : ((Value.dateTimeOffset s).sortCompare (.dateTimeOffset t)).isLE = true) :
    (Value.dateTimeOffset s).dayPosition ≤ (Value.dateTimeOffset t).dayPosition :=
  OffsetDateTime.date_le_of_offset offset le

/-- Only null stands below the level of what comes before the literal. -/
theorem levelAt_pos : 1 ≤ levelAt literal v ↔ v.isNull = false := by
  rw [levelAt]
  cases v.isNull with
  | true => exact iff_of_false nofun nofun
  | false => exact iff_of_true (orderLevel_bounds _).1 rfl

/-- Greater is what reaches a level. -/
theorem exists_level_from {op : Operator}
    (greater : op ∈ [Operator.greaterThan, .greaterThanOrEqual])
    (given : Bool) (literal : Value) :
    ∃ n, ∀ v : Value, (given && !v.isNull && op.accepts (literal.rangeOrder v)) =
      decide (n ≤ literal.levelAt v) := by
  obtain ⟨n, pos, accepts⟩ :
      ∃ n, 1 ≤ n ∧ ∀ order, (given && op.accepts order) = decide (n ≤ orderLevel order) := by
    cases given with
    | false => exact ⟨4, by decide, fun order => by cases order <;> rfl⟩
    | true =>
      simp only [List.mem_cons, List.not_mem_nil, or_false] at greater
      rcases greater with rfl | rfl
      · exact ⟨3, by decide, fun order => by cases order <;> rfl⟩
      · exact ⟨2, by decide, fun order => by cases order <;> rfl⟩
  refine ⟨n, fun v => ?_⟩
  rw [levelAt]
  cases v.isNull with
  | true => simpa using Nat.ne_of_gt pos
  | false => simpa using accepts (literal.rangeOrder v)

/-- Less is what does not reach a level, without the nulls. -/
theorem exists_level_below {op : Operator} (less : op ∈ [Operator.lessThan, .lessThanOrEqual])
    (given : Bool) (literal : Value) :
    ∃ n, ∀ v : Value, (given && !v.isNull && op.accepts (literal.rangeOrder v)) =
      decide (1 ≤ literal.levelAt v ∧ literal.levelAt v < n) := by
  obtain ⟨n, accepts⟩ :
      ∃ n, ∀ order, (given && op.accepts order) =
        decide (1 ≤ orderLevel order ∧ orderLevel order < n) := by
    cases given with
    | false => exact ⟨1, fun order => by cases order <;> rfl⟩
    | true =>
      simp only [List.mem_cons, List.not_mem_nil, or_false] at less
      rcases less with rfl | rfl
      · exact ⟨2, fun order => by cases order <;> rfl⟩
      · exact ⟨3, fun order => by cases order <;> rfl⟩
  refine ⟨n, fun v => ?_⟩
  rw [levelAt]
  cases v.isNull with
  | true => simp
  | false => simpa using accepts (literal.rangeOrder v)

/-- **A value that is sorted later** stands on no lower level. -/
theorem levelAt_mono (exact : kind.family? = some family) (own : literal.kind? = some kind)
    (ha : a.isNull = true ∨ a.kind? = some kind) (hb : b.isNull = true ∨ b.kind? = some kind)
    (le : (a.sortCompare b).isLE = true)
    (days : kind = .dateTimeOffset → literal.isMidnight = true → a.isNull = false →
      b.isNull = false → a.dayPosition ≤ b.dayPosition) :
    levelAt literal a ≤ levelAt literal b := by
  rcases ha with null | ha
  · rw [levelAt, if_pos null]
    exact Nat.zero_le _
  have known := isNull_of_kind? ha
  rcases hb with null | hb
  · rw [sortCompare, known, null] at le
    cases le
  have known' := isNull_of_kind? hb
  rw [levelAt, levelAt, known, known', if_neg Bool.false_ne_true, if_neg Bool.false_ne_true,
    rangeOrder, rangeOrder]
  cases midnight : literal.isMidnight with
  | true =>
    rw [if_pos rfl, if_pos rfl]
    refine orderLevel_mono (Std.isLE_compare.2 ?_)
    rcases kind?_of_isMidnight own midnight with rfl | rfl
    · exact dayPosition_le ha hb le
    · exact days rfl midnight known known'
  | false =>
    have numbers {v : Value} (h : v.kind? = some kind) : family.numbers.admits v = true :=
      ColumnFamily.admits_numbers (holds_of_kind exact h)
    rw [sortCompare_eq_compare_place (numbers ha) (numbers hb)] at le
    rw [if_neg Bool.false_ne_true, if_neg Bool.false_ne_true,
      sortCompare_eq_compare_place (numbers ha) (numbers own),
      sortCompare_eq_compare_place (numbers hb) (numbers own)]
    exact orderLevel_mono le

end Value

/-! ## Sorted records -/

/-- The days of a field, on the clock of each of its values, follow the order of the values. -/
def DaysFollow (field : String) (records : List Record) : Prop :=
  ∀ r ∈ records, ∀ s ∈ records, (r.get field).isNull = false → (s.get field).isNull = false →
    ((r.get field).sortCompare (s.get field)).isLE = true →
      (r.get field).dayPosition ≤ (s.get field).dayPosition

section

variable {field : String} {kind : FieldKind} {family : ColumnFamily} {literal : Value}
  {records : List Record}

/-- Days follow the order where all clocks have one offset. -/
theorem daysFollow_of_offset {offset : Int} (one : ∀ r ∈ records, (r.get field).isNull = true ∨
    ∃ t, r.get field = .dateTimeOffset t ∧ t.offset = offset) : DaysFollow field records := by
  intro r hr s hs known known' le
  obtain ⟨t, read, own⟩ := (one r hr).resolve_left (Bool.eq_false_iff.1 known)
  obtain ⟨u, read', own'⟩ := (one s hs).resolve_left (Bool.eq_false_iff.1 known')
  rw [read, read'] at le ⊢
  exact Value.dayPosition_le_of_offset (own.trans own'.symm) le

/-- The records of a uniform field are sorted stably by its values. -/
theorem stablySorted_of_uniform (exact : kind.family? = some family)
    (uniform : UniformAt field kind records) :
    StablySorted (fun r s => (r.get field).sortCompare (s.get field)) records
      (sortRecords [{ field := .parse field }] records) := by
  have column : ∀ key ∈ [({ field := .parse field } : SortKey)], key.IsExact records := by
    intro key mem
    obtain rfl := List.mem_singleton.1 mem
    refine ⟨rfl, family, fun r mem => ?_⟩
    rw [ColumnFamily.admits, Bool.or_eq_true]
    exact (uniform r mem).imp_right (Value.holds_of_kind exact)
  have alone : keysOrder [{ field := .parse field }] =
      fun r s => (r.get field).sortCompare (s.get field) :=
    funext₂ fun _ _ => Ordering.then_eq
  rw [← alone]
  exact (stablySorted_iff_eq_sortRecords fun key mem => (column key mem).orders).2 rfl

/-- **The levels rise** along the sorted records. -/
theorem levelAt_pairwise (exact : kind.family? = some family)
    (uniform : UniformAt field kind records) (own : literal.kind? = some kind)
    (days : kind = .dateTimeOffset → literal.isMidnight = true → DaysFollow field records) :
    (sortRecords [{ field := .parse field }] records).Pairwise fun r s =>
      literal.levelAt (r.get field) ≤ literal.levelAt (s.get field) := by
  have sorted := stablySorted_of_uniform exact uniform
  refine sorted.sorted.imp_of_mem fun {r s} hr hs le => ?_
  have mem {r : Record} (h : r ∈ sortRecords [{ field := .parse field }] records) : r ∈ records :=
    sorted.perm.subset h
  exact Value.levelAt_mono exact own (uniform r (mem hr)) (uniform s (mem hs)) le
    fun offset midnight known known' =>
      days offset midnight r (mem hr) s (mem hs) known known' le

end

/-! ## What is compared -/

namespace Comparison

variable {c : Comparison} {op : Operator} {v literal : Value} {kind : FieldKind}
  {family : ColumnFamily} {stopped : Bool}

/-- No relation of order holds of a field that reads as null. -/
theorem testValue_of_ordering (ordering : op.isOrdering = true) (null : v.isNull = true) :
    (c.withOperator op).testValue v stopped = false := by
  rw [testValue_eq, sides?_withOperator]
  cases compared : c.sides? v with
  | none => cases op <;> first | rfl | cases ordering
  | some s =>
    exact testKind_of_isNull ordering (.inr (.inl ((field_of_sides? compared).1.trans null)))

/-- With case, the order of two values of an exact kind is that of the ranges. -/
theorem orderOf?_eq_rangeOrder (exact : kind.family? = some family) (hv : v.kind? = some kind)
    (own : literal.kind? = some kind) (case : c.ignoreCase = false)
    (nullable : c.type.nullable = true) :
    c.orderOf? ⟨kind, v, literal⟩ = some (literal.rangeOrder v) := by
  rw [orderOf?, comparesDays, nullable, Bool.and_true, order?, Value.rangeOrder]
  cases midnight : literal.isMidnight with
  | true =>
    rcases Value.kind?_of_isMidnight own midnight with rfl | rfl
    all_goals
      cases v <;> cases hv
      cases literal <;> cases own
      rfl
  | false =>
    rw [Bool.and_false, if_neg Bool.false_ne_true, if_neg Bool.false_ne_true, case, Bool.and_false,
      if_neg Bool.false_ne_true, Value.compare?_eq_sortCompare exact hv own]

end Comparison

namespace FilterClause

variable {records asked : List Record} {field : String} {kind : FieldKind} {family : ColumnFamily}
  {literal : Value}

/-- A literal of the kind of the values is compared with each of them, unless nothing is known of
the field and the literal stands for null. -/
theorem exists_sides?_of_own_kind (settings : Settings) {type : TypeInfo} (field : String)
    (own : literal.kind? = some kind) (found : type = ⟨kind, true⟩ ∨ type = .unknown) :
    ∃ given, (given = literal ∨ given = .null) ∧ ∀ op v, v.kind? = some kind →
      let clause : SimpleClause := ⟨field, op, literal, false⟩
      (clause.comparison settings type).sides? v = some ⟨kind, v, given⟩ := by
  rcases found with rfl | rfl
  · refine ⟨literal, .inl rfl, fun op v hv => ?_⟩
    intro clause
    have typed : clause.value.kind? = some (⟨kind, true⟩ : TypeInfo).kind := own
    have kept : (clause.comparison settings ⟨kind, true⟩).comparand = .typed literal :=
      SimpleClause.comparand_of_own_kind typed
    have settled : kind ≠ .unknown := fun unknown =>
      Value.kind?_ne_unknown (own.trans (congrArg some unknown))
    rw [Comparison.sides?, kept]
    exact if_neg settled
  · let given : Value := if standsForNull literal .unknown then .null else literal
    have which : given = literal ∨ given = .null := by
      by_cases stands : standsForNull literal .unknown = true
      · exact .inr (if_pos stands)
      · exact .inl (if_neg stands)
    refine ⟨given, which, fun op v hv => ?_⟩
    intro clause
    have kept : (clause.comparison settings .unknown).comparand = .typed given := by
      simp only [SimpleClause.comparison, SimpleClause.comparand, TypeInfo.unknown,
        FieldKind.descriptor?, coerceForComparison_unknown]
      rfl
    have fitted : coerceForComparison given (.of kind) = .ok given := by
      rcases which with same | null
      · rw [same]
        exact coerceForComparison_of_own_kind own
      · rw [null]
        exact coerceForComparison_of_standsForNull rfl
    have unknown : (clause.comparison settings .unknown).type.kind = .unknown := rfl
    have read : v.kind?.getD .unknown = kind := by
      rw [hv]
      rfl
    rw [Comparison.sides?, kept]
    simp only [if_pos unknown, read, fitted]

/-- **What a relation of order keeps**: the values that stand so to the literal, or nothing. -/
theorem exists_compile_eq_order (settings : Settings) (exact : kind.family? = some family)
    (plain : ∀ r ∈ records, r.isStatic = false) (uniform : UniformAt field kind records)
    (own : literal.kind? = some kind) (same : asked.Perm records) (limit : Option Nat) :
    ∃ given, ∀ op, op.isOrdering = true → ∀ r ∈ records,
      (compile settings asked (.simple ⟨field, op, literal, false⟩) { limit }).1 r =
        (given && !(r.get field).isNull && op.accepts (literal.rangeOrder (r.get field))) := by
  by_cases named : (FieldPath.parse field).isEmpty = true
  · have absent : FieldTypes.typeAt { limit } asked field = none := if_pos named
    refine ⟨false, fun op _ r _ => ?_⟩
    exact compile_eq_false settings ⟨field, op, literal, false⟩ (.inl absent)
  obtain ⟨type, found, form⟩ : ∃ type, FieldTypes.typeAt { limit } asked field = some type ∧
      (type = ⟨kind, true⟩ ∨ type = .unknown) := by
    obtain ⟨shown, blind⟩ := fieldType?_of_uniform (fun r mem => plain r (same.subset mem))
      (uniform.mono same.subset) (Bool.eq_false_iff.2 named) limit
    by_cases shows : ShowsValue limit asked field
    · exact ⟨_, shown shows, .inl rfl⟩
    · exact ⟨_, blind shows, .inr rfl⟩
  have nullable : type.nullable = true := by rcases form with rfl | rfl <;> rfl
  obtain ⟨given, which, compared⟩ := exists_sides?_of_own_kind settings field own form
  refine ⟨!given.isNull, fun op ordering r mem => ?_⟩
  let clause : SimpleClause := ⟨field, op, literal, false⟩
  by_cases present : r.resolve (.parse field) = .missing
  · have null : (r.get field).isNull = true := by
      rw [Record.get, Record.valueAt, present]
      rfl
    rw [null, Bool.not_true, Bool.and_false, Bool.false_and]
    exact compile_eq_false settings clause (.inr present)
  obtain ⟨stopped, null, read⟩ := exists_compile_eq_read settings found present
  let c : Comparison := clause.comparison settings type
  have answer : (compile settings asked (.simple clause) { limit }).1 r =
      (c.withOperator op).testValue (r.get field) stopped := read clause rfl
  refine answer.trans ?_
  cases known : (r.get field).isNull with
  | true =>
    rw [Comparison.testValue_of_ordering ordering known, Bool.not_true, Bool.and_false,
      Bool.false_and]
  | false =>
    have reads : stopped = false := Bool.eq_false_iff.2 fun stop =>
      absurd (known.symm.trans (null stop)) Bool.false_ne_true
    have hv : (r.get field).kind? = some kind :=
      (uniform r mem).resolve_left (Bool.eq_false_iff.1 known)
    have sides : c.sides? (r.get field) = some ⟨kind, r.get field, given⟩ := compared op _ hv
    rw [reads, Comparison.testValue_eq, Comparison.sides?_withOperator, sides]
    rcases which with rfl | rfl
    · have single : (r.get field).isContainer = false := Value.isContainer_of_exact exact hv
      have some : given.isNull = false := Value.isNull_of_kind? own
      have order : c.orderOf? ⟨kind, r.get field, given⟩ = .some (given.rangeOrder (r.get field)) :=
        Comparison.orderOf?_eq_rangeOrder exact hv own rfl nullable
      have any :=
        Comparison.testKind_eq_any (c := c) (s := ⟨kind, r.get field, given⟩) known single some
        (.inl ordering)
      rw [order] at any
      rw [some]
      exact any
    · exact Comparison.testKind_of_isNull ordering (.inr (.inr rfl))

/-- **Range filters agree with sorting.** Let the values of a field have one kind, apart from nulls,
whose order is exact, in records that are not static, and let the literal be of this kind. If the
kind is that of dates with an offset and the literal is the start of a day, let the days on the
clocks of the values follow the instants. When the records are sorted by the field, what is kept by
`greaterThan` or by `greaterThanOrEqual` is a last part of them, and what is kept by `lessThan` or
by `lessThanOrEqual` comes right after the nulls, in one run. -/
theorem compile_ranges (settings : Settings) {records asked : List Record} (field : String)
    {kind : FieldKind} {family : ColumnFamily} {literal : Value} (limit : Option Nat)
    (plain : ∀ r ∈ records, r.isStatic = false) (uniform : UniformAt field kind records)
    (exact : kind.family? = some family) (own : literal.kind? = some kind)
    (same : asked.Perm records)
    (days : kind = .dateTimeOffset → literal.isMidnight = true → DaysFollow field records) :
    let sorted := sortRecords [{ field := .parse field }] records
    let keeps (op : Operator) : Record → Bool :=
      (compile settings asked (.simple ⟨field, op, literal, false⟩) { limit }).1
    (∀ op ∈ [Operator.greaterThan, .greaterThanOrEqual], ∃ front back, sorted = front ++ back ∧
      (∀ r ∈ front, keeps op r = false) ∧ ∀ r ∈ back, keeps op r = true) ∧
    ∀ op ∈ [Operator.lessThan, .lessThanOrEqual], ∃ nulls run rest, sorted = nulls ++ run ++ rest ∧
      (∀ r ∈ nulls, (r.get field).isNull = true ∧ keeps op r = false) ∧
      (∀ r ∈ run, (r.get field).isNull = false ∧ keeps op r = true) ∧
      ∀ r ∈ rest, (r.get field).isNull = false ∧ keeps op r = false := by
  intro sorted keeps
  have rising := levelAt_pairwise exact uniform own days
  have members {r : Record} {parts : List Record} (cut : sorted = parts) (mem : r ∈ parts) :
      r ∈ records := by
    rw [← cut] at mem
    exact (stablySorted_of_uniform exact uniform).perm.subset mem
  obtain ⟨given, answers⟩ := exists_compile_eq_order settings exact plain uniform own same limit
  constructor
  · intro op greater
    have ordering : op.isOrdering = true := by
      simp only [List.mem_cons, List.not_mem_nil, or_false] at greater
      rcases greater with rfl | rfl <;> rfl
    obtain ⟨n, levels⟩ := Value.exists_level_from greater given literal
    obtain ⟨front, back, cut, low, high⟩ := exists_cut rising n
    have answer {r : Record} (mem : r ∈ front ++ back) :
        keeps op r = decide (n ≤ literal.levelAt (r.get field)) :=
      (answers op ordering r (members cut mem)).trans (levels _)
    refine ⟨front, back, cut, fun r mem => ?_, fun r mem => ?_⟩
    · rw [answer (List.mem_append_left _ mem), decide_eq_false (Nat.not_le.2 (low r mem))]
    · rw [answer (List.mem_append_right _ mem), decide_eq_true (high r mem)]
  · intro op less
    have ordering : op.isOrdering = true := by
      simp only [List.mem_cons, List.not_mem_nil, or_false] at less
      rcases less with rfl | rfl <;> rfl
    obtain ⟨n, levels⟩ := Value.exists_level_below less given literal
    obtain ⟨nulls, run, rest, cut, low, inside, beyond⟩ := exists_cuts rising 1 n
    have answer {r : Record} (mem : r ∈ nulls ++ run ++ rest) : keeps op r =
        decide (1 ≤ literal.levelAt (r.get field) ∧ literal.levelAt (r.get field) < n) :=
      (answers op ordering r (members cut mem)).trans (levels _)
    refine ⟨nulls, run, rest, cut, fun r mem => ?_, fun r mem => ?_, fun r mem => ?_⟩
    · have below : ¬ 1 ≤ literal.levelAt (r.get field) := Nat.not_le.2 (low r mem)
      have kept := answer (List.mem_append_left _ (List.mem_append_left _ mem))
      rw [decide_eq_false fun both => below both.1] at kept
      exact ⟨Bool.not_eq_false _ ▸ fun known => below (Value.levelAt_pos.2 known), kept⟩
    · have kept := answer (List.mem_append_left _ (List.mem_append_right _ mem))
      rw [decide_eq_true (inside r mem)] at kept
      exact ⟨Value.levelAt_pos.1 (inside r mem).1, kept⟩
    · have kept := answer (List.mem_append_right _ mem)
      rw [decide_eq_false fun both => Nat.not_lt.2 (beyond r mem).2 both.2] at kept
      exact ⟨Value.levelAt_pos.1 (beyond r mem).1, kept⟩

/-- A day as the literal, among times at one offset. -/
theorem compile_ranges_of_one_offset :
    let start : OffsetDateTime := ⟨⟨⟨2023, 8, 24, by decide⟩, 0, 0, by decide, by decide⟩, 7200,
      ⟨⟨2023, 8, 23, by decide⟩, 79200, 0, by decide, by decide⟩, by decide⟩
    let morning : OffsetDateTime := ⟨⟨⟨2023, 8, 24, by decide⟩, 28800, 0, by decide, by decide⟩,
      7200, ⟨⟨2023, 8, 24, by decide⟩, 21600, 0, by decide, by decide⟩, by decide⟩
    let records : List Record := [.table [("At", .dateTimeOffset morning)], .table [("At", .null)],
      .table [("At", .dateTimeOffset start)]]
    let keeps (op : Operator) : Record → Bool := (compile {} records
      (.simple ⟨"At", op, .dateTimeOffset start, false⟩) { limit := none }).1
    ∃ nulls run rest, sortRecords [{ field := .parse "At" }] records = nulls ++ run ++ rest ∧
      (∀ r ∈ nulls, (r.get "At").isNull = true ∧ keeps .lessThanOrEqual r = false) ∧
      (∀ r ∈ run, (r.get "At").isNull = false ∧ keeps .lessThanOrEqual r = true) ∧
      ∀ r ∈ rest, (r.get "At").isNull = false ∧ keeps .lessThanOrEqual r = false := by
  intro start morning records keeps
  have one : ∀ r ∈ records, (r.get "At").isNull = true ∨
      ∃ t, r.get "At" = .dateTimeOffset t ∧ t.offset = 7200 :=
    List.forall_mem_cons.2 ⟨.inr ⟨morning, rfl, rfl⟩, List.forall_mem_cons.2 ⟨.inl rfl,
      List.forall_mem_singleton.2 (.inr ⟨start, rfl, rfl⟩)⟩⟩
  have uniform : UniformAt "At" .dateTimeOffset records := fun r mem =>
    (one r mem).imp_right fun ⟨t, read, _⟩ => by rw [read]; rfl
  have own : (Value.dateTimeOffset start).kind? = some .dateTimeOffset := rfl
  have same : records.Perm records := .refl _
  have ranges := compile_ranges {} "At" none (by decide) uniform rfl own same
    fun _ _ => daysFollow_of_offset one
  exact ranges.2 .lessThanOrEqual (by decide)

/-- Where clocks differ, a time of a later day can come first. Then it is kept by `greaterThan` with
the day before, and the time after it is not. -/
theorem compile_ranges_not_of_offsets :
    let ahead : OffsetDateTime := ⟨⟨⟨2023, 8, 24, by decide⟩, 3600, 0, by decide, by decide⟩, 7200,
      ⟨⟨2023, 8, 23, by decide⟩, 82800, 0, by decide, by decide⟩, by decide⟩
    let behind : OffsetDateTime := ⟨⟨⟨2023, 8, 23, by decide⟩, 82800, 0, by decide, by decide⟩,
      -18000, ⟨⟨2023, 8, 24, by decide⟩, 14400, 0, by decide, by decide⟩, by decide⟩
    let day : OffsetDateTime := ⟨⟨⟨2023, 8, 23, by decide⟩, 0, 0, by decide, by decide⟩, 0,
      ⟨⟨2023, 8, 23, by decide⟩, 0, 0, by decide, by decide⟩, by decide⟩
    let records : List Record := [.table [("At", .dateTimeOffset ahead)],
      .table [("At", .dateTimeOffset behind)]]
    let sorted := sortRecords [{ field := .parse "At" }] records
    let keeps : Record → Bool := (compile {} records
      (.simple ⟨"At", .greaterThan, .dateTimeOffset day, false⟩) { limit := none }).1
    sorted.map keeps = [true, false] ∧
      ¬ ∃ front back, sorted = front ++ back ∧
        (∀ r ∈ front, keeps r = false) ∧ ∀ r ∈ back, keeps r = true := by
  intro ahead behind day records sorted keeps
  have inOrder : sorted = records := by
    rw [show sorted = _ from sortRecords_eq_mergeSort _ records]
    exact List.mergeSort_of_pairwise (by decide +kernel)
  have answers : sorted.map keeps = [true, false] := by
    rw [inOrder]
    decide +kernel
  refine ⟨answers, fun ⟨front, back, cut, low, high⟩ => ?_⟩
  rw [cut] at answers
  cases front with
  | nil =>
    have last : false ∈ back.map keeps := by
      rw [show back.map keeps = [true, false] from answers]
      decide
    obtain ⟨r, mem, kept⟩ := List.mem_map.1 last
    exact absurd (kept.symm.trans (high r mem)) Bool.false_ne_true
  | cons first front =>
    have kept : keeps first = true := (List.cons.inj answers).1
    exact absurd ((low first List.mem_cons_self).symm.trans kept) Bool.false_ne_true

end FilterClause

end RecordQuery
