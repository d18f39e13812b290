import RecordQuery.Value.Order

/-!
# The sort order of values

Values of different ranks are sorted by their ranks, and values of one rank by their natural order;
those of one rank that do not compare are equal. Turning two values round turns their order round.

* `Value.compareNumbers?_eq` takes the order of numbers apart into three orders;
* `Value.sortCompare_of_rank_ne`, `Value.sortCompare_of_rank_eq`: the order by ranks, and within one
  (`Value.SameRank`);
* `Value.sortCompare_swap`: the order turned round.
-/

namespace RecordQuery

theorem Decimal.compare_swap (x y : Decimal) : y.compare x = (x.compare y).swap :=
  Std.OrientedOrd.eq_swap

theorem Binary.compare?_swap {f : Format} (x y : Binary f) :
    y.compare? x = (x.compare? y).map Ordering.swap := by
  rw [compare?, compare?]
  cases x.position? with
  | none => cases y.position? <;> rfl
  | some m =>
    cases y.position? with
    | none => rfl
    | some n => exact congrArg some Std.OrientedOrd.eq_swap

namespace Value

variable {a b : Value}

/-! ## Numbers -/

/-- The decimals as which two numbers compare, if one of them is a decimal. -/
def decimals? (a b : Value) : Option (Decimal × Decimal) :=
  match a, b with
  | .decimal _, _ | _, .decimal _ => a.toDecimal?.bind fun x => b.toDecimal?.map fun y => (x, y)
  | _, _ => none

/-- The order of two numbers as doubles. -/
def compareDoubles? (a b : Value) : Option Ordering :=
  a.toDouble?.bind fun x => b.toDouble?.bind fun y => x.compare? y

theorem compareNumbers?_eq (a b : Value) :
    compareNumbers? a b =
      match a.toInt?, b.toInt? with
      | some m, some n => some (compare m.toInt n.toInt)
      | _, _ =>
        match decimals? a b with
        | some (x, y) => some (x.compare y)
        | none => compareDoubles? a b := rfl

def isDecimal : Value → Bool
  | .decimal _ => true
  | _ => false

theorem decimals?_eq (a b : Value) :
    decimals? a b =
      if a.isDecimal || b.isDecimal then
        a.toDecimal?.bind fun x => b.toDecimal?.map fun y => (x, y)
      else none := by
  cases a <;> cases b <;> rfl

theorem decimals?_swap (a b : Value) : decimals? b a = (decimals? a b).map Prod.swap := by
  rw [decimals?_eq, decimals?_eq, Bool.or_comm]
  split
  · cases a.toDecimal? <;> cases b.toDecimal? <;> rfl
  · rfl

theorem compareDoubles?_swap (a b : Value) :
    compareDoubles? b a = (compareDoubles? a b).map Ordering.swap := by
  rw [compareDoubles?, compareDoubles?]
  cases a.toDouble? with
  | none => cases b.toDouble? <;> rfl
  | some x =>
    cases b.toDouble? with
    | none => rfl
    | some y => exact Binary.compare?_swap x y

theorem compareNumbers?_swap (a b : Value) :
    compareNumbers? b a = (compareNumbers? a b).map Ordering.swap := by
  have inexact : (match decimals? b a with
      | some (x, y) => some (x.compare y)
      | none => compareDoubles? b a) =
      (match decimals? a b with
      | some (x, y) => some (x.compare y)
      | none => compareDoubles? a b).map Ordering.swap := by
    rw [decimals?_swap a b]
    cases decimals? a b with
    | none => exact compareDoubles?_swap a b
    | some pair => exact congrArg some (Decimal.compare_swap pair.1 pair.2)
  rw [compareNumbers?_eq, compareNumbers?_eq]
  cases a.toInt? with
  | none => cases b.toInt? <;> exact inexact
  | some m =>
    cases b.toInt? with
    | none => exact inexact
    | some n => exact congrArg some Std.OrientedOrd.eq_swap

/-! ## Ranks -/

theorem compare?_eq_none_of_rank_ne (h : a.rank ≠ b.rank) : a.compare? b = none := by
  cases a <;> cases b <;> first | exact absurd rfl h | rfl

/-- Values of different ranks are sorted by their ranks. -/
theorem sortCompare_of_rank_ne (h : a.rank ≠ b.rank) :
    a.sortCompare b = compare a.rank b.rank := by
  have apart : a.compare? b = none := compare?_eq_none_of_rank_ne h
  rw [sortCompare, apart]
  cases a <;> cases b <;> first | exact absurd rfl h | rfl

/-- Two values of one rank. -/
inductive SameRank : Value → Value → Prop
  | nulls : SameRank .null .null
  | bools (x y : Bool) : SameRank (.bool x) (.bool y)
  | strings (x y : String) : SameRank (.string x) (.string y)
  | guids (x y : Guid) : SameRank (.guid x) (.guid y)
  | lists (x y : List Value) : SameRank (.list x) (.list y)
  | objects (x y : List (String × Value)) : SameRank (.object x) (.object y)
  | dates {a b : Value} {s t : LocalDateTime} :
    a.instant? = some s → b.instant? = some t → SameRank a b
  | enums (d e : EnumDescriptor) (m n : Int64) : SameRank (.enum d m) (.enum e n)
  | enumNumber (d : EnumDescriptor) (m : Int64) {b : Value} :
    b.isNumeric = true → SameRank (.enum d m) b
  | numberEnum {a : Value} (d : EnumDescriptor) (n : Int64) :
    a.isNumeric = true → SameRank a (.enum d n)
  | numbers {a b : Value} : a.isNumeric = true → b.isNumeric = true → SameRank a b

theorem sameRank (h : a.rank = b.rank) : SameRank a b := by
  cases a <;> cases b <;> first
    | exact .nulls
    | exact .bools _ _
    | exact .strings _ _
    | exact .guids _ _
    | exact .lists _ _
    | exact .objects _ _
    | exact .enums _ _ _ _
    | exact .enumNumber _ _ rfl
    | exact .numberEnum _ _ rfl
    | exact .numbers rfl rfl
    | exact .dates rfl rfl
    | cases h

/-- Values of one rank are sorted by their natural order, and are equal if they do not compare. -/
theorem sortCompare_of_rank_eq (h : a.rank = b.rank) :
    a.sortCompare b = (a.compare? b).getD .eq := by
  have same : compare a.rank b.rank = .eq := by rw [h, Std.compare_self]
  rw [sortCompare, same]
  cases a <;> cases b <;> first | rfl | cases h

theorem compare?_of_numeric (ha : a.isNumeric = true) (hb : b.isNumeric = true) :
    a.compare? b = compareNumbers? a b := by
  cases a <;> first | (cases ha; done) | (cases b <;> first | (cases hb; done) | rfl)

theorem compare?_enum (d : EnumDescriptor) (m : Int64) (hb : b.isNumeric = true) :
    compare? (.enum d m) b = b.toInt?.map fun n => compare m.toInt n.toInt := by
  cases b <;> first | rfl | cases hb

theorem compare?_of_enum (d : EnumDescriptor) (n : Int64) (ha : a.isNumeric = true) :
    a.compare? (.enum d n) = a.toInt?.map fun m => compare m.toInt n.toInt := by
  cases a <;> first | rfl | cases ha

theorem compare?_of_instants {s t : LocalDateTime} (ha : a.instant? = some s)
    (hb : b.instant? = some t) : a.compare? b = some (s.compare t) := by
  cases a <;> cases ha <;> cases b <;> cases hb <;> rfl

/-! ## The order turned round -/

theorem compare?_swap_of_sameRank (h : SameRank a b) :
    b.compare? a = (a.compare? b).map Ordering.swap := by
  cases h with
  | nulls => rfl
  | bools x y => exact congrArg some Std.OrientedOrd.eq_swap
  | strings x y => exact congrArg some Std.OrientedOrd.eq_swap
  | guids x y => exact congrArg some Std.OrientedOrd.eq_swap
  | lists x y => rfl
  | objects x y => rfl
  | dates ha hb =>
    rw [compare?_of_instants ha hb, compare?_of_instants hb ha]
    exact congrArg some Std.OrientedOrd.eq_swap
  | enums d e m n => exact congrArg some Std.OrientedOrd.eq_swap
  | enumNumber d m hb =>
    rw [compare?_of_enum d m hb, compare?_enum d m hb, Option.map_map]
    exact congrArg (b.toInt?.map ·) (funext fun n => Std.OrientedOrd.eq_swap)
  | numberEnum d n ha =>
    rw [compare?_enum d n ha, compare?_of_enum d n ha, Option.map_map]
    exact congrArg (a.toInt?.map ·) (funext fun m => Std.OrientedOrd.eq_swap)
  | numbers ha hb =>
    rw [compare?_of_numeric ha hb, compare?_of_numeric hb ha]
    exact compareNumbers?_swap a b

/-- **Turning two values round** turns their order round. -/
theorem sortCompare_swap (a b : Value) : b.sortCompare a = (a.sortCompare b).swap := by
  by_cases same : a.rank = b.rank
  · rw [sortCompare_of_rank_eq same, sortCompare_of_rank_eq same.symm,
      compare?_swap_of_sameRank (sameRank same)]
    cases a.compare? b <;> rfl
  · rw [sortCompare_of_rank_ne same, sortCompare_of_rank_ne (Ne.symm same)]
    exact Std.OrientedOrd.eq_swap

end Value

end RecordQuery
