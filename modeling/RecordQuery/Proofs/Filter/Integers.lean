import RecordQuery.Proofs.FieldTypes.Integers
import RecordQuery.Proofs.Filter.Meaning
import RecordQuery.Proofs.Number.IntegerText
import RecordQuery.Proofs.Value.Coercion
import RecordQuery.Proofs.Value.Integers

/-!
# Comparing integers

A clause compares the integers at a field with an integer literal, which is a number of 64 bits or
its digits.

* `FieldKind.HoldsInteger`: what a kind holds;
* `IsIntegerLiteral.coerceForComparison_eq`: a literal is fitted to the kind of the field. One that
  the kind does not hold does not fit, and texts are compared;
* `Comparison.testValue_integer` is what a compiled clause asks of one value;
* `FilterClause.compile_integers`: what a clause keeps of a field of integers.
-/

namespace RecordQuery

/-! ## What is compared -/

namespace Operator

/-- Whether an operator is a relation of numbers, and not of texts alone. -/
def isRelation : Operator → Bool
  | .startsWith | .endsWith | .contains => false
  | _ => true

/-- The relation of integers that an operator stands for. -/
def Holds : Operator → Int → Int → Prop
  | .equals, n, m => n = m
  | .notEquals, n, m => n ≠ m
  | .lessThan, n, m => n < m
  | .lessThanOrEqual, n, m => n ≤ m
  | .greaterThan, n, m => m < n
  | .greaterThanOrEqual, n, m => m ≤ n
  | _, _, _ => False

theorem accepts_compare {op : Operator} (relation : op.isRelation = true) (n m : Int) :
    op.accepts (compare n m) = true ↔ op.Holds n m := by
  cases op with
  | equals => simp [accepts, Holds]
  | notEquals => simp [accepts, Holds]
  | lessThan => simp [accepts, Holds, Int.compare_eq_lt]
  | lessThanOrEqual => simp [accepts, Holds, Int.compare_ne_gt]
  | greaterThan => simp [accepts, Holds, Int.compare_eq_gt]
  | greaterThanOrEqual => simp [accepts, Holds, Int.compare_ne_lt]
  | startsWith => cases relation
  | endsWith => cases relation
  | contains => cases relation

end Operator

/-- An integer as the literal of a clause: a number of 64 bits, or its digits. -/
inductive IsIntegerLiteral (m : Int64) : Value → Prop
  | number : IsIntegerLiteral m (.int64 m)
  | digits : IsIntegerLiteral m (.string (intText m.toInt))

/-- The integers that an integer kind holds. -/
def FieldKind.HoldsInteger : FieldKind → Int → Prop
  | .int16, m => -0x8000 ≤ m ∧ m < 0x8000
  | .int32, m => -0x80000000 ≤ m ∧ m < 0x80000000
  | .int64, _ => True
  | _, _ => False

/-- The kind that a literal is fitted to: that of the field, or of the value where nothing is known
of the field. -/
def TypeInfo.kindFor (type : TypeInfo) (v : Value) : FieldKind :=
  if type.kind = .unknown then v.kind?.getD .unknown else type.kind

/-! ## Fitting a literal -/

variable {m n : Int64} {literal : Value} {kind : FieldKind}

/-- A kind that holds an integer takes it as it is. -/
theorem integerTo?_of_holds (integer : kind.isInteger = true) (holds : kind.HoldsInteger m.toInt) :
    ∃ v, integerTo? m kind = some v ∧ v.toInt? = some m := by
  cases kind with
  | int16 =>
    obtain ⟨x, hx⟩ : ∃ x, int16? m.toInt = some x := ⟨_, if_pos holds⟩
    have same : x.toInt64 = m := Int64.toInt_inj.1 (x.toInt_toInt64.trans (int16?_eq_some.1 hx))
    exact ⟨.int16 x, by rw [integerTo?, hx]; rfl, congrArg some same⟩
  | int32 =>
    obtain ⟨x, hx⟩ : ∃ x, int32? m.toInt = some x := ⟨_, if_pos holds⟩
    have same : x.toInt64 = m := Int64.toInt_inj.1 (x.toInt_toInt64.trans (int32?_eq_some.1 hx))
    exact ⟨.int32 x, by rw [integerTo?, hx]; rfl, congrArg some same⟩
  | int64 => exact ⟨.int64 m, rfl, rfl⟩
  | _ => cases integer

theorem integerTo?_of_not_holds (integer : kind.isInteger = true)
    (outside : ¬ kind.HoldsInteger m.toInt) : integerTo? m kind = none := by
  cases kind with
  | int16 => exact congrArg (Option.map Value.int16) (if_neg outside)
  | int32 => exact congrArg (Option.map Value.int32) (if_neg outside)
  | int64 => exact absurd trivial outside
  | _ => cases integer

theorem int64?_toInt (m : Int64) : int64? m.toInt = some m := int64?_eq_some.2 rfl

namespace IsIntegerLiteral

theorem display_eq (h : IsIntegerLiteral m literal) : literal.display = intText m.toInt := by
  cases h <;> rfl

/-- An integer literal has no fraction to be kept. -/
theorem fractionalLiteral?_eq (h : IsIntegerLiteral m literal) :
    fractionalLiteral? literal = none := by
  cases h with
  | number => rfl
  | digits =>
    have read : (readInt? (Text.trim (intText m.toInt).toList)).bind int64? = some m := by
      rw [trim_intDigits, readInt?_intText, Option.bind_some, int64?_toInt]
    simp only [fractionalLiteral?, read]

theorem standsForNull_eq (h : IsIntegerLiteral m literal) (kind : FieldKind) :
    standsForNull literal kind = false := by
  cases h with
  | number => rfl
  | digits => simp [standsForNull, intText_ne_empty]

theorem toNumber?_eq (h : IsIntegerLiteral m literal) (integer : kind.isInteger = true) :
    toNumber? literal kind = integerTo? m kind := by
  cases h with
  | number => cases kind <;> first | (cases integer; done) | rfl
  | digits =>
    have read : readInt? (Text.trim (intText m.toInt).toList) = some m.toInt := by
      rw [trim_intDigits, readInt?_intText]
    cases kind with
    | int16 => rw [toNumber?, readNumeral?, read]; rfl
    | int32 => rw [toNumber?, readNumeral?, read]; rfl
    | int64 => rw [toNumber?, readNumeral?, read, Option.bind_some, int64?_toInt]; rfl
    | _ => cases integer

/-- **A literal is fitted to an integer kind** as its integer is. -/
theorem coerceForComparison_eq (h : IsIntegerLiteral m literal) (integer : kind.isInteger = true)
    (nullable : Bool) :
    coerceForComparison literal ⟨kind, nullable⟩ =
      match integerTo? m kind with
      | some v => .ok v
      | none => .error (.numeric (intText m.toInt) kind.name) := by
  rw [coerceForComparison, h.fractionalLiteral?_eq, ite_self]
  simp only [coerce, h.standsForNull_eq]
  by_cases own : literal.kind? = some kind
  · cases h with
    | number =>
      cases own
      rfl
    | digits =>
      cases own
      cases integer
  · have number : coerceTo literal kind = coerceNumber literal kind := by
      cases kind <;> first | rfl | cases integer
    rw [if_neg own, number, coerceNumber, h.toNumber?_eq integer, h.display_eq]
    rfl

/-- A literal is kept where nothing is known of the field. -/
theorem coerceForComparison_unknown (h : IsIntegerLiteral m literal) (nullable : Bool) :
    coerceForComparison literal ⟨.unknown, nullable⟩ = .ok literal := by
  rw [RecordQuery.coerceForComparison_unknown, h.standsForNull_eq, if_neg Bool.false_ne_true]

end IsIntegerLiteral

/-! ## Comparing -/

variable {v w : Value}

namespace Comparison

variable {c : Comparison}

/-- Where two values that are not null have an order, a relation is asked of it. -/
theorem testKind_eq_accepts {order : Ordering} (hv : v.isNull = false) (hw : w.isNull = false)
    (noDate : kind.isDate = false) (equal : c.equals kind v w false = (order == .eq))
    (ordered : c.order? kind v w false = some order) (relation : c.operator.isRelation = true) :
    c.testKind kind v w false = c.operator.accepts order := by
  cases op : c.operator with
  | startsWith | endsWith | contains => rw [op] at relation; cases relation
  | _ => simp [testKind, op, noDate, equal, ordered, hv, hw, Operator.accepts, bne]

/-- A value and a literal of an integer kind compare as the integers. -/
theorem testKind_integer (integer : kind.isInteger = true) (hv : v.toInt? = some n)
    (hw : w.toInt? = some m) (relation : c.operator.isRelation = true) :
    c.testKind kind v w false = c.operator.accepts (compare n.toInt m.toInt) := by
  have order : v.compare? w = some (compare n.toInt m.toInt) := compare?_of_toInt? hv hw
  have number : kind ≠ .string := by
    rintro rfl
    cases integer
  have noDate : kind.isDate = false := by
    cases kind <;> first | rfl | cases integer
  refine testKind_eq_accepts (isNull_of_toInt? hv) (isNull_of_toInt? hw) noDate ?_ ?_ relation
  · simp [equals, number, isNull_of_toInt? hv, isNull_of_toInt? hw, looselyEqual_of_toInt? hv hw]
  · simp [order?, number, order]

/-- As texts, integers are compared digit by digit. -/
theorem testText_integer (hv : v.toInt? = some n) (relation : c.operator.isRelation = true) :
    c.testText v (intText m.toInt) false =
      c.operator.accepts (compare (intText n.toInt) (intText m.toInt)) := by
  have field :
      (if v.isNull then .null else .string v.display) = Value.string (intText n.toInt) := by
    rw [isNull_of_toInt? hv, display_of_toInt? hv]
    rfl
  have order : (Value.string (intText n.toInt)).compare? (.string (intText m.toInt)) =
      some (compare (intText n.toInt) (intText m.toInt)) := rfl
  have same : (intText n.toInt == intText m.toInt) =
      (compare (intText n.toInt) (intText m.toInt) == .eq) := by
    rw [Bool.eq_iff_iff, beq_iff_eq, beq_iff_eq, Std.compare_eq_iff_eq]
  simp only [testText, field]
  refine testKind_eq_accepts rfl rfl rfl ?_ ?_ relation
  · cases ignored : c.ignoreCase with
    | true => simp [equals, ignored, textOr, Value.isNull, Value.display, lower_intText, same]
    | false => simp [equals, ignored, Value.isNull, Value.looselyEqual, order]
  · cases ignored : c.ignoreCase with
    | true => simp [order?, ignored, Value.display, lower_intText]
    | false => simp [order?, ignored, order]

end Comparison

/-! ## Compiled clauses -/

/-- The comparison that a clause over a field of a type compiles to. -/
def SimpleClause.comparison (clause : SimpleClause) (settings : Settings) (type : TypeInfo) :
    Comparison where
  path := .parse clause.field
  operator := clause.operator
  ignoreCase := clause.ignoreCase
  type := type
  comparand := clause.comparand type
  blankMarker := settings.blankMarker

namespace SimpleClause

variable {clause : SimpleClause} {type : TypeInfo}

/-- A literal is fitted to an integer kind, or compared as a text. -/
theorem comparand_of_integer (literal : IsIntegerLiteral m clause.value)
    (integer : type.kind.isInteger = true) :
    clause.comparand type =
      match integerTo? m type.kind with
      | some w => .typed w
      | none => .text (intText m.toInt) := by
  have plain : type.kind.descriptor? = none := by
    cases h : type.kind <;> first | rfl | (rw [h] at integer; cases integer)
  simp only [comparand, plain]
  rw [literal.coerceForComparison_eq integer type.nullable, literal.display_eq]
  cases integerTo? m type.kind <;> rfl

theorem comparand_of_unknown (literal : IsIntegerLiteral m clause.value)
    (unknown : type.kind = .unknown) : clause.comparand type = .typed clause.value := by
  obtain ⟨kind, nullable⟩ := type
  obtain rfl : kind = .unknown := unknown
  simp only [comparand, FieldKind.descriptor?, literal.coerceForComparison_unknown nullable]

/-- A value and a literal are compared at the kind that the literal is fitted to, or as texts. -/
theorem testValue_comparison (literal : IsIntegerLiteral m clause.value) (hv : v.toInt? = some n)
    (settings : Settings) (known : type.kind.isInteger = true ∨ type.kind = .unknown) :
    (clause.comparison settings type).testValue v false =
      match integerTo? m (type.kindFor v) with
      | some w => (clause.comparison settings type).testKind (type.kindFor v) v w false
      | none => (clause.comparison settings type).testText v (intText m.toInt) false := by
  rcases known with integer | unknown
  · have some : type.kind ≠ .unknown := by
      intro unknown
      rw [unknown] at integer
      cases integer
    simp only [Comparison.testValue, comparison, comparand_of_integer literal integer,
      TypeInfo.kindFor, if_neg some]
    cases integerTo? m type.kind <;> rfl
  · obtain ⟨own, kind?, integer⟩ := kind?_of_toInt? hv
    simp only [Comparison.testValue, comparison, comparand_of_unknown literal unknown,
      TypeInfo.kindFor, if_pos unknown, kind?, Option.getD_some, TypeInfo.of,
      literal.coerceForComparison_eq integer, literal.display_eq]
    cases integerTo? m own <;> rfl

theorem isInteger_kindFor (hv : v.toInt? = some n)
    (known : type.kind.isInteger = true ∨ type.kind = .unknown) :
    (type.kindFor v).isInteger = true := by
  obtain ⟨own, kind?, integer⟩ := kind?_of_toInt? hv
  rw [TypeInfo.kindFor]
  split
  · rw [kind?]
    exact integer
  · next other => exact known.resolve_right other

/-- **What a clause asks of an integer**: the relation of the integers where the kind holds the
literal, and that of their texts where it does not. -/
theorem testValue_integer (literal : IsIntegerLiteral m clause.value) (hv : v.toInt? = some n)
    (settings : Settings) (known : type.kind.isInteger = true ∨ type.kind = .unknown)
    (relation : clause.operator.isRelation = true) :
    ((type.kindFor v).HoldsInteger m.toInt →
      (clause.comparison settings type).testValue v false =
        clause.operator.accepts (compare n.toInt m.toInt)) ∧
    (¬ (type.kindFor v).HoldsInteger m.toInt →
      (clause.comparison settings type).testValue v false =
        clause.operator.accepts (compare (intText n.toInt) (intText m.toInt))) := by
  have integer : (type.kindFor v).isInteger = true := isInteger_kindFor hv known
  rw [testValue_comparison literal hv settings known]
  constructor
  · intro holds
    obtain ⟨w, fitted, hw⟩ := integerTo?_of_holds integer holds
    rw [fitted]
    exact Comparison.testKind_integer integer hv hw relation
  · intro outside
    rw [integerTo?_of_not_holds integer outside]
    exact Comparison.testText_integer hv relation

end SimpleClause

namespace Operator

/-- Texts of integers are equal where the integers are. -/
theorem accepts_compare_intText {op : Operator} (relation : op.isRelation = true)
    (equality : op.isOrdering = false) (n m : Int) :
    op.accepts (compare (intText n) (intText m)) = true ↔ op.Holds n m := by
  cases op with
  | equals => simp [accepts, Holds, intText_inj]
  | notEquals => simp [accepts, Holds, intText_inj]
  | startsWith | endsWith | contains => cases relation
  | _ => cases equality

end Operator

namespace FilterClause

/-- **A clause over a field of integers** keeps a record where the relation holds of the integers,
whatever was compiled before. A literal that the kind of the field does not hold is ordered as a
text, but still equal to the same integers; and nothing is kept where there is no such field. -/
theorem compile_integers (settings : Settings) (records : List Record) (limit : Option Nat)
    (earlier : List FilterClause) (clause : SimpleClause) {m n : Int64} {r : Record} {v : Value}
    (literal : IsIntegerLiteral m clause.value) (relation : clause.operator.isRelation = true)
    (values : IntegersAt clause.field records) (declared : DeclaresIntegers clause.field records)
    (held : r.resolve (.parse clause.field) = .value v) (hv : v.toInt? = some n) :
    let types := (compileList settings records earlier { limit }).2
    let keeps := (compile settings records (.simple clause) types).1 r
    (fieldType? limit records (.parse clause.field) = none → keeps = false) ∧
    ∀ type, fieldType? limit records (.parse clause.field) = some type →
      (type.kindFor v).isInteger = true ∧
      ((type.kindFor v).HoldsInteger m.toInt ∨ clause.operator.isOrdering = false →
        (keeps = true ↔ clause.operator.Holds n.toInt m.toInt)) ∧
      (¬ (type.kindFor v).HoldsInteger m.toInt →
        (keeps = true ↔
          clause.operator.accepts (compare (intText n.toInt) (intText m.toInt)) = true)) := by
  intro types keeps
  have typeAt : types.typeAt records clause.field =
      fieldType? limit records (.parse clause.field) :=
    congrFun ((reads_compileList settings records earlier).typeAt_eq { limit }) clause.field
  have compiled : keeps =
      clause.predicate settings (fieldType? limit records (.parse clause.field)) r := by
    have read := (reads_compileSimple settings records clause).value_eq types
    rw [leafOver, typeAt] at read
    exact congrFun read r
  refine ⟨fun absent => ?_, fun type found => ?_⟩
  · rw [compiled, absent]
    rfl
  · have known := fieldType?_of_integers values declared type found
    have answer : keeps = (clause.comparison settings type).testValue v false := by
      rw [compiled, found]
      show (clause.comparison settings type).test r = _
      rw [Comparison.test, SimpleClause.comparison, held]
    obtain ⟨exactly, asTexts⟩ := SimpleClause.testValue_integer literal hv settings known relation
    rw [answer]
    refine ⟨SimpleClause.isInteger_kindFor hv known, fun exact => ?_, fun outside => ?_⟩
    · by_cases holds : (type.kindFor v).HoldsInteger m.toInt
      · rw [exactly holds, Operator.accepts_compare relation]
      · rw [asTexts holds, Operator.accepts_compare_intText relation (exact.resolve_left holds)]
    · rw [asTexts outside]

/-- A structure with a number of 16 bits. -/
def fivePieces : Record := .shaped "Stock" [("Pieces", .scalar (.of .int16) (.int16 5))]

theorem integers_fivePieces :
    IntegersAt "Pieces" [fivePieces] ∧ DeclaresIntegers "Pieces" [fivePieces] := by
  constructor
  · intro r mem _
    obtain rfl := List.mem_singleton.1 mem
    decide
  · intro r mem type shown
    obtain rfl := List.mem_singleton.1 mem
    have declared : Sample.ofRecord (.parse "Pieces") fivePieces = .declared (.of .int16) := by
      decide
    obtain rfl := Sample.declared.inj (declared.symm.trans shown)
    rfl

/-- Five pieces are fewer than seven, as digits. -/
theorem compile_integers_of_pieces :
    (compile {} [fivePieces] (.simple ⟨"Pieces", .lessThan, .string "7", true⟩) ⟨none, []⟩).1
      fivePieces = true := by
  obtain ⟨values, declared⟩ := integers_fivePieces
  have type : fieldType? none [fivePieces] (.parse "Pieces") = some (.of .int16) := by decide
  obtain ⟨-, found⟩ := compile_integers {} [fivePieces] none []
    ⟨"Pieces", .lessThan, .string "7", true⟩ (m := 7) (n := 5) (r := fivePieces) (v := .int16 5)
    .digits rfl values declared rfl rfl
  obtain ⟨-, exactly, -⟩ := found _ type
  have holds : ((TypeInfo.of .int16).kindFor (.int16 5)).HoldsInteger 7 := ⟨by decide, by decide⟩
  have less : Operator.lessThan.Holds 5 7 := show (5 : Int) < 7 by decide
  exact (exactly (.inl holds)).2 less

/-- Five pieces are fewer than 40000, which a number of 16 bits does not hold: the texts stand in
the other order. And a first list that is too short hides the second position from all lists. -/
theorem compile_integers_not_exact :
    (IntegersAt "Pieces" [fivePieces] ∧ DeclaresIntegers "Pieces" [fivePieces] ∧
      (fivePieces.get "Pieces").toInt? = some 5 ∧ Operator.lessThan.Holds 5 40000 ∧
      (compile {} [fivePieces] (.simple ⟨"Pieces", .lessThan, .int64 40000, true⟩) ⟨none, []⟩).1
        fivePieces = false) ∧
    ((Record.list [.value (.int64 2), .value (.int64 3)]).get "1").toInt? = some 3 ∧
    (compile {} [.list [.value (.int64 1)], .list [.value (.int64 2), .value (.int64 3)]]
      (.simple ⟨"1", .equals, .int64 3, true⟩) ⟨none, []⟩).1
        (.list [.value (.int64 2), .value (.int64 3)]) = false := by
  have less : Operator.lessThan.Holds 5 40000 := show (5 : Int) < 40000 by decide
  exact ⟨⟨integers_fivePieces.1, integers_fivePieces.2, by decide, less, by decide +kernel⟩,
    by decide, by decide +kernel⟩

end FilterClause

end RecordQuery
