import RecordQuery.Proofs.FieldTypes.Uniform
import RecordQuery.Proofs.Filter.Fitted
import RecordQuery.Sample.Orders

/-!
# How many records are asked for a type

Asking fewer records for the type of a uniform field can leave it unknown, and nothing else. A
clause then fits its literal to each value, which makes no difference to a literal that suits the
kind.

* `FilterClause.compile_limited`: what a clause keeps of a uniform field does not depend on the
  limit, unless the limit hides all values and the literal does not suit the kind. The empty text is
  then a null literal.
-/

namespace RecordQuery

namespace SimpleClause

variable {clause : SimpleClause} {records : List Record} {kind : FieldKind}

/-- A clause with a literal that suits the kind keeps what it would keep without a type. -/
theorem filter_predicate_of_suits (settings : Settings) (suits : clause.value.Suits kind)
    (plain : ∀ r ∈ records, r.isStatic = false) (uniform : UniformAt clause.field kind records)
    (named : (FieldPath.parse clause.field).isEmpty = false) (limit : Option Nat) :
    records.filter (clause.predicate settings (fieldType? limit records (.parse clause.field))) =
      records.filter (clause.predicate settings (some .unknown)) := by
  obtain ⟨known, unknown⟩ := fieldType?_of_uniform plain uniform named limit
  by_cases shows : ShowsValue limit records clause.field
  · rw [known shows]
    exact List.filter_congr fun r mem => (predicate_unknown_eq settings suits (uniform r mem)).symm
  · rw [unknown shows]

end SimpleClause

namespace FilterClause

/-- A clause without a name keeps nothing, as there is no such field. -/
theorem fieldType?_of_isEmpty {path : FieldPath} (unnamed : path.isEmpty = true)
    (limit : Option Nat) (records : List Record) : fieldType? limit records path = none :=
  if_pos unnamed

/-- **The limit on the records that are asked** for the type of a field does not change what a
clause keeps, where the values of the field have one kind apart from nulls: if one of these records
shows a value, or no record does, or the literal suits the kind. If they show no value, the empty
text is a null literal. -/
theorem compile_limited (settings : Settings) (records : List Record) (clause : SimpleClause)
    (limit : Nat) {kind : FieldKind} (plain : ∀ r ∈ records, r.isStatic = false)
    (uniform : UniformAt clause.field kind records) :
    let kept (clause : SimpleClause) (limit : Option Nat) : List Record :=
      records.filter (compile settings records (.simple clause) { limit }).1
    (ShowsValue (some limit) records clause.field ∨ ¬ ShowsValue none records clause.field ∨
        clause.value.Suits kind →
      kept clause (some limit) = kept clause none) ∧
    (clause.value = .string "" → ¬ ShowsValue (some limit) records clause.field →
      kept clause (some limit) = kept { clause with value := .null } none) := by
  intro kept
  have compiled (clause : SimpleClause) (limit : Option Nat) : kept clause limit = records.filter
      (clause.predicate settings (fieldType? limit records (.parse clause.field))) := rfl
  cases named : (FieldPath.parse clause.field).isEmpty with
  | true =>
    have absent (limit : Option Nat) : fieldType? limit records (.parse clause.field) = none :=
      fieldType?_of_isEmpty named limit records
    refine ⟨fun _ => ?_, fun _ _ => ?_⟩
    · rw [compiled, compiled, absent, absent]
    · rw [compiled, compiled, absent, absent]
      rfl
  | false =>
    have type (limit : Option Nat) := fieldType?_of_uniform plain uniform named limit
    refine ⟨?_, fun empty blind => ?_⟩
    · rintro (shows | none | suits)
      · -- what the first records show is shown by all
        have all : ShowsValue none records clause.field := by
          obtain ⟨r, asked, value⟩ := shows
          exact ⟨r, mem_of_mem_sampledRecords asked, value⟩
        rw [compiled, compiled, (type (some limit)).1 shows, (type Option.none).1 all]
      · have blind : ¬ ShowsValue (some limit) records clause.field := by
          rintro ⟨r, asked, value⟩
          exact none ⟨r, mem_of_mem_sampledRecords asked, value⟩
        rw [compiled, compiled, (type (some limit)).2 blind, (type Option.none).2 none]
      · rw [compiled, compiled, SimpleClause.filter_predicate_of_suits settings suits plain uniform
          named, SimpleClause.filter_predicate_of_suits settings suits plain uniform named]
    · let null : SimpleClause := { clause with value := .null }
      have suits : null.value.Suits kind := .null kind
      have nulls := SimpleClause.filter_predicate_of_suits settings suits plain uniform named none
      obtain ⟨field, operator, value, ignoreCase⟩ := clause
      obtain rfl : value = .string "" := empty
      rw [compiled, compiled, (type (some limit)).2 blind]
      exact nulls.symm

/-- A record with a null, and one with a value. -/
def nullFirst (v : Value) : List Record := [.table [("F", .null)], .table [("F", v)]]

theorem uniformAt_nullFirst {v : Value} {kind : FieldKind} (own : v.kind? = some kind) :
    (∀ r ∈ nullFirst v, r.isStatic = false) ∧ UniformAt "F" kind (nullFirst v) := by
  have value : (Record.table [("F", v)]).get "F" = v := Record.memberOfValue_toValue v
  refine ⟨List.forall_mem_cons.2 ⟨rfl, List.forall_mem_singleton.2 rfl⟩,
    List.forall_mem_cons.2 ⟨.inl (by decide), List.forall_mem_singleton.2 (.inr ?_)⟩⟩
  rw [value, own]

/-- A null before a text: the text is found though its kind is not asked, and the empty text finds
the null. -/
theorem compile_limited_nullFirst :
    let records : List Record := nullFirst (.string "a")
    let kept (literal : Value) (limit : Option Nat) : List Record :=
      records.filter (compile {} records (.simple ⟨"F", .equals, literal, false⟩) { limit }).1
    kept (.string "a") (some 1) = kept (.string "a") none ∧
      kept (.string "") (some 1) = kept .null none := by
  intro records kept
  obtain ⟨plain, uniform⟩ := uniformAt_nullFirst (v := .string "a") rfl
  have suits : (Value.string "a").Suits .string := {
    empty := fun same => absurd (Value.string.inj same) (by decide)
    member := fun _ same => by cases same
    shown := fun _ _ same => by cases same }
  have blind : ¬ ShowsValue (some 1) records "F" := by
    rintro ⟨r, asked, value⟩
    obtain rfl := List.mem_singleton.1 asked
    exact absurd value (by decide)
  constructor
  · exact (compile_limited {} records ⟨"F", .equals, .string "a", false⟩ 1 plain uniform).1
      (.inr (.inr suits))
  · exact (compile_limited {} records ⟨"F", .equals, .string "", false⟩ 1 plain uniform).2 rfl blind

/-- An enumeration with a member that has the empty name for the outside. -/
def nameless : EnumDescriptor := ⟨"Nameless", [⟨"A", some "", 0⟩]⟩

/-- A null before a value hides its kind from a limit of one. Then the empty text finds the null
before a text or a status, a word that names no status finds the status with this text, and a
nameless member finds the null before a number. -/
theorem compile_limited_not_unsuited :
    let keeps (v literal : Value) (operator : Operator) (ignoreCase : Bool) (limit : Option Nat) :
        List Bool :=
      (nullFirst v).map
        (compile {} (nullFirst v) (.simple ⟨"F", operator, literal, ignoreCase⟩) { limit }).1
    (UniformAt "F" .string (nullFirst (.string "a")) ∧
      keeps (.string "a") (.string "") .equals false none = [false, false] ∧
      keeps (.string "a") (.string "") .equals false (some 1) = [true, false]) ∧
    (UniformAt "F" (.enum Sample.orderStatus) (nullFirst (.enum Sample.orderStatus 0)) ∧
      keeps (.enum Sample.orderStatus 0) (.string "pending") .equals true none = [false, false] ∧
      keeps (.enum Sample.orderStatus 0) (.string "pending") .equals true (some 1) =
        [false, true] ∧
      keeps (.enum Sample.orderStatus 0) (.string "") .equals true none = [false, false] ∧
      keeps (.enum Sample.orderStatus 0) (.string "") .equals true (some 1) = [true, false]) ∧
    (UniformAt "F" .int64 (nullFirst (.int64 1)) ∧
      keeps (.int64 1) (.enum nameless 0) .startsWith true none = [false, false] ∧
      keeps (.int64 1) (.enum nameless 0) .startsWith true (some 1) = [true, false]) :=
  ⟨⟨(uniformAt_nullFirst rfl).2, by decide +kernel, by decide +kernel⟩,
    ⟨(uniformAt_nullFirst rfl).2, by decide +kernel, by decide +kernel, by decide +kernel,
      by decide +kernel⟩,
    ⟨(uniformAt_nullFirst rfl).2, by decide +kernel, by decide +kernel⟩⟩

end FilterClause

end RecordQuery
