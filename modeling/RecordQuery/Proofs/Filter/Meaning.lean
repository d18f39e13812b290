import RecordQuery.Filter
import RecordQuery.Proofs.FieldTypes.Memory

/-!
# The meaning of a filter

A filter is compiled once, with a memory of types that all its clauses share. What comes out answers
as the tree says.

* `FilterClause.evaluate` answers a tree for one record, given what its leaves answer
  (`Joiner.answer`: no clauses at all hold, whatever joins them);
* `FilterClause.reads_compile`: compiling a tree reads the types of its fields and gives its
  answers;
* `FilterClause.Rearranged` relates trees that differ in the order of siblings, at any depth;
* `FilterClause.compile_eq_evaluate`: whatever was compiled before over the same records, a compiled
  tree answers as its leaves compiled alone, in any order of siblings, and of a list of clauses
  `and` keeps what all of them keep, `or` what any of them keeps.
-/

namespace RecordQuery

/-! ## Joined answers -/

namespace Joiner

/-- The answer of clauses that are joined. -/
def answer (joiner : Joiner) (answers : List Bool) : Bool :=
  answers.isEmpty || match joiner with
    | .and => answers.all id
    | .or => answers.any id

theorem answer_and (answers : List Bool) : Joiner.and.answer answers = answers.all id := by
  cases answers <;> simp [answer]

theorem answer_or {answers : List Bool} (h : answers ≠ []) :
    Joiner.or.answer answers = answers.any id := by
  simp [answer, h]

theorem answer_perm (joiner : Joiner) {a b : List Bool} (h : a.Perm b) :
    joiner.answer a = joiner.answer b := by
  cases joiner with
  | and => rw [answer_and, answer_and, h.all_eq]
  | or => simp only [answer, h.isEmpty_eq, h.any_eq]

/-- Joining answers from the left joins them all. -/
theorem foldl_apply (joiner : Joiner) (first : Bool) (rest : List Bool) :
    rest.foldl joiner.apply first = joiner.answer (first :: rest) := by
  induction rest generalizing first with
  | nil => cases joiner <;> simp [answer]
  | cons second rest ih =>
    rw [List.foldl_cons, ih]
    cases joiner with
    | and => simp [answer, apply, Bool.and_assoc]
    | or => simp [answer, apply, Bool.or_assoc]

end Joiner

namespace Predicate

theorem combine_apply (joiner : Joiner) (predicates : List Predicate) (r : Record) :
    combine joiner predicates r = joiner.answer (predicates.map (· r)) := by
  cases predicates with
  | nil => rfl
  | cons first rest => rw [List.map_cons, ← Joiner.foldl_apply, List.foldl_map, combine]

variable {predicates : List Predicate}

/-- Predicates joined by `and` keep what all of them keep. -/
theorem mem_filter_combine_and (some : predicates ≠ []) (rows : List Record) (r : Record) :
    r ∈ rows.filter (combine .and predicates) ↔ ∀ p ∈ predicates, r ∈ rows.filter p := by
  simp only [List.mem_filter, combine_apply, Joiner.answer_and, List.all_map, List.all_eq_true]
  constructor
  · rintro ⟨row, holds⟩ p hp
    exact ⟨row, holds p hp⟩
  · intro kept
    obtain ⟨first, hfirst⟩ := List.exists_mem_of_ne_nil predicates some
    exact ⟨(kept first hfirst).1, fun p hp => (kept p hp).2⟩

/-- Predicates joined by `or` keep what any of them keeps. -/
theorem mem_filter_combine_or (some : predicates ≠ []) (rows : List Record) (r : Record) :
    r ∈ rows.filter (combine .or predicates) ↔ ∃ p ∈ predicates, r ∈ rows.filter p := by
  have answers : predicates.map (· r) ≠ [] := by simpa using some
  simp only [List.mem_filter, combine_apply, Joiner.answer_or answers, List.any_map,
    List.any_eq_true]
  constructor
  · rintro ⟨row, p, hp, holds⟩
    exact ⟨p, hp, row, holds⟩
  · rintro ⟨p, hp, row, holds⟩
    exact ⟨row, p, hp, holds⟩

end Predicate

/-! ## The answer of a tree -/

namespace FilterClause

mutual

/-- The answer of a tree for a record, from the answers of its leaves. -/
def evaluate (leaf : SimpleClause → Predicate) (r : Record) : FilterClause → Bool
  | .simple clause => leaf clause r
  | .composite joiner clauses => joiner.answer (evaluateList leaf r clauses)

def evaluateList (leaf : SimpleClause → Predicate) (r : Record) : List FilterClause → List Bool
  | [] => []
  | clause :: clauses => clause.evaluate leaf r :: evaluateList leaf r clauses

end

theorem evaluateList_eq_map (leaf : SimpleClause → Predicate) (r : Record)
    (clauses : List FilterClause) :
    evaluateList leaf r clauses = clauses.map (evaluate leaf r) := by
  induction clauses with
  | nil => rfl
  | cons clause clauses ih => rw [evaluateList, ih, List.map_cons]

theorem evaluate_composite (leaf : SimpleClause → Predicate) (r : Record) (joiner : Joiner)
    (clauses : List FilterClause) :
    evaluate leaf r (.composite joiner clauses) =
      joiner.answer (clauses.map (evaluate leaf r)) := by
  rw [evaluate, evaluateList_eq_map]

/-! ## Compiling reads types -/

/-- The predicate of a leaf over fields of some types. -/
def leafOver (settings : Settings) (typeAt : String → Option TypeInfo) (clause : SimpleClause) :
    Predicate :=
  clause.predicate settings (typeAt clause.field)

theorem reads_compileSimple (settings : Settings) (records : List Record) (clause : SimpleClause) :
    Reads records (clause.compile settings records) fun typeAt => leafOver settings typeAt clause :=
  (Reads.resolve clause.field).bind fun _ => Reads.pure _

mutual

/-- Compiling a tree reads the types of its fields, and gives the answers of the tree. -/
theorem reads_compile (settings : Settings) (records : List Record) (clause : FilterClause) :
    Reads records (clause.compile settings records) fun typeAt r =>
      clause.evaluate (leafOver settings typeAt) r := by
  cases clause with
  | simple clause => exact reads_compileSimple settings records clause
  | composite joiner clauses =>
    have list := (reads_compileList settings records clauses).bind fun predicates =>
      Reads.pure (Predicate.combine joiner predicates)
    refine list.congr fun typeAt => funext fun r => ?_
    rw [Predicate.combine_apply, List.map_map, evaluate_composite]
    rfl

theorem reads_compileList (settings : Settings) (records : List Record)
    (clauses : List FilterClause) :
    Reads records (compileList settings records clauses) fun typeAt =>
      clauses.map fun clause r => clause.evaluate (leafOver settings typeAt) r := by
  cases clauses with
  | nil => exact Reads.pure []
  | cons clause clauses =>
    exact (reads_compile settings records clause).bind fun predicate =>
      (reads_compileList settings records clauses).bind fun predicates =>
        Reads.pure (predicate :: predicates)

end

theorem reads_compileAll (settings : Settings) (records : List Record) (joiner : Joiner)
    (clauses : List FilterClause) :
    Reads records (compileAll settings records joiner clauses) fun typeAt r =>
      joiner.answer (clauses.map (evaluate (leafOver settings typeAt) r)) := by
  have tree := reads_compile settings records (.composite joiner clauses)
  exact tree.congr fun typeAt => funext fun r => evaluate_composite _ r joiner clauses

/-! ## The order of siblings -/

/-- Two trees that differ at most in the order of siblings. -/
inductive Rearranged : FilterClause → FilterClause → Prop
  | refl (clause : FilterClause) : Rearranged clause clause
  /-- Siblings change places. -/
  | siblings {joiner : Joiner} {a b : List FilterClause} :
    a.Perm b → Rearranged (.composite joiner a) (.composite joiner b)
  /-- A change below one of the clauses. -/
  | inside {joiner : Joiner} {a b : FilterClause} (before after : List FilterClause) :
    Rearranged a b →
      Rearranged (.composite joiner (before ++ a :: after))
        (.composite joiner (before ++ b :: after))
  | trans {a b c : FilterClause} : Rearranged a b → Rearranged b c → Rearranged a c

theorem Rearranged.evaluate_eq {a b : FilterClause} (h : Rearranged a b)
    (leaf : SimpleClause → Predicate) (r : Record) : a.evaluate leaf r = b.evaluate leaf r := by
  induction h with
  | refl => rfl
  | siblings perm =>
    rw [evaluate_composite, evaluate_composite]
    exact Joiner.answer_perm _ (perm.map _)
  | inside before after _ ih =>
    simp only [evaluate_composite, List.map_append, List.map_cons, ih]
  | trans _ _ first second => exact first.trans second

/-! ## Compiled filters -/

/-- **A compiled filter answers as its tree.** Whatever was compiled before over the same records,
the answers are those of the leaves compiled alone, joined as the tree says, in any order of
siblings. Of a list of clauses `and` keeps what all of them keep, and `or` what any of them
keeps. -/
theorem compile_eq_evaluate (settings : Settings) (records : List Record) (limit : Option Nat)
    (earlier : List FilterClause) :
    let types := (compileList settings records earlier { limit }).2
    let alone (clause : SimpleClause) : Predicate := (clause.compile settings records { limit }).1
    (∀ (clause : FilterClause) (r : Record),
      (clause.compile settings records types).1 r = clause.evaluate alone r) ∧
    (∀ (joiner : Joiner) (clauses : List FilterClause) (r : Record),
      (compileAll settings records joiner clauses types).1 r =
        joiner.answer (clauses.map (evaluate alone r))) ∧
    (∀ a b : FilterClause, Rearranged a b →
      (a.compile settings records types).1 = (b.compile settings records types).1) ∧
    (∀ (joiner : Joiner) (a b : List FilterClause), a.Perm b →
      (compileAll settings records joiner a types).1 =
        (compileAll settings records joiner b types).1) ∧
    (∀ clauses : List FilterClause, clauses ≠ [] → ∀ (rows : List Record) (r : Record),
      (r ∈ rows.filter (compileAll settings records .and clauses types).1 ↔
        ∀ clause ∈ clauses, r ∈ rows.filter (clause.compile settings records { limit }).1) ∧
      (r ∈ rows.filter (compileAll settings records .or clauses types).1 ↔
        ∃ clause ∈ clauses, r ∈ rows.filter (clause.compile settings records { limit }).1)) := by
  intro types alone
  have leaves : leafOver settings (FieldTypes.typeAt { limit } records) = alone :=
    funext fun clause => ((reads_compileSimple settings records clause).value_eq { limit }).symm
  have typeAt : types.typeAt records = FieldTypes.typeAt { limit } records :=
    (reads_compileList settings records earlier).typeAt_eq { limit }
  have tree (clause : FilterClause) (r : Record) :
      (clause.compile settings records types).1 r = clause.evaluate alone r := by
    rw [(reads_compile settings records clause).value_eq, typeAt, leaves]
  have all (joiner : Joiner) (clauses : List FilterClause) (r : Record) :
      (compileAll settings records joiner clauses types).1 r =
        joiner.answer (clauses.map (evaluate alone r)) := by
    rw [(reads_compileAll settings records joiner clauses).value_eq, typeAt, leaves]
  have list (clauses : List FilterClause) : (compileList settings records clauses types).1 =
      clauses.map fun clause => (clause.compile settings records { limit }).1 := by
    rw [(reads_compileList settings records clauses).value_eq, typeAt]
    exact List.map_congr_left fun clause _ =>
      ((reads_compile settings records clause).value_eq { limit }).symm
  refine ⟨tree, all, fun a b h => ?_, fun joiner a b h => ?_, fun clauses some rows r => ?_⟩
  · funext r
    rw [tree, tree, h.evaluate_eq]
  · funext r
    rw [all, all]
    exact joiner.answer_perm (h.map _)
  · have some' : (compileList settings records clauses types).1 ≠ [] := by simpa [list] using some
    refine ⟨(Predicate.mem_filter_combine_and some' rows r).trans ?_,
      (Predicate.mem_filter_combine_or some' rows r).trans ?_⟩
    · simp only [list, List.forall_mem_map]
    · simp only [list, List.mem_map]
      constructor
      · rintro ⟨_, ⟨clause, hclause, rfl⟩, kept⟩
        exact ⟨clause, hclause, kept⟩
      · rintro ⟨clause, hclause, kept⟩
        exact ⟨_, ⟨clause, hclause, rfl⟩, kept⟩

/-- Two clauses of one field in either order, and what both of them keep, after another filter was
compiled over the same record. -/
theorem compile_eq_evaluate_of_two :
    (compileAll {} [.table [("A", .int64 1)]] .or
      [.simple ⟨"A", .equals, .string "1", true⟩, .simple ⟨"a", .lessThan, .null, true⟩]
      (compileList {} [.table [("A", .int64 1)]] [.composite .and []] { limit := none }).2).1 =
    (compileAll {} [.table [("A", .int64 1)]] .or
      [.simple ⟨"a", .lessThan, .null, true⟩, .simple ⟨"A", .equals, .string "1", true⟩]
      (compileList {} [.table [("A", .int64 1)]] [.composite .and []] { limit := none }).2).1 ∧
    (.dynamic [] ∈ [Record.dynamic []].filter
        (compileAll {} [.table [("A", .int64 1)]] .and [.simple ⟨"A", .equals, .string "1", true⟩]
          (compileList {} [.table [("A", .int64 1)]] [.composite .and []] { limit := none }).2).1 ↔
      ∀ clause ∈ [FilterClause.simple ⟨"A", .equals, .string "1", true⟩],
        .dynamic [] ∈ [Record.dynamic []].filter
          (clause.compile {} [.table [("A", .int64 1)]] { limit := none }).1) := by
  obtain ⟨-, -, -, order, kept⟩ :=
    compile_eq_evaluate {} [.table [("A", .int64 1)]] none [.composite .and []]
  exact ⟨order .or _ _ (.swap _ _ []), (kept [.simple ⟨"A", .equals, .string "1", true⟩] (by simp)
    [.dynamic []] (.dynamic [])).1⟩

end FilterClause

end RecordQuery
