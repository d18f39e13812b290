import Mathlib.Data.List.TakeWhile
import RecordQuery.Proofs.Conversion
import RecordQuery.Proofs.Wire.Names
import RecordQuery.Wire.Request

/-!
# Forests of wire filters

The filters of a wire request are a forest. The conversion accepts it exactly if each filter in it
is sound, and what comes out has the same shape.

* `WireFilter.Within` are the filters that a forest holds at any depth, and
  `WireFilter.nestedInduction` goes down from a filter to those that are nested in it;
* `WireFilter.Sound`: a filter is either a comparison or a composite, and well made as such;
* `WireFilter.Yields` relates a filter to its clause, node by node;
* `WireFilter.toClause_eq_ok_iff`: the conversion finds the clause of a filter;
* `WireFilter.exists_yields_iff`: a forest has clauses exactly if all filters in it are sound.
-/

namespace RecordQuery

open Text

/-! ## Conditions and texts that are filled in -/

theorem filledText_eq_some_iff {given : Option String} {text : String} :
    filledText given = some text ↔ given = some text ∧ isBlankText text = false := by
  cases given with
  | none => simp [filledText]
  | some other =>
    cases blank : isBlankText other with
    | true =>
      simp only [filledText, blank, if_true, Option.some.injEq, reduceCtorEq, false_iff, not_and]
      rintro rfl
      simp [blank]
    | false =>
      simp only [filledText, blank, Bool.false_eq_true, if_false, Option.some.injEq, iff_self_and]
      rintro rfl
      exact blank

/-- Nothing but white space is nothing at all. -/
theorem Text.trimmed_of_isBlankText {text : String} (blank : isBlankText text = true) :
    trimmed text = "" := by
  have all : ∀ c ∈ text.toList, isBlank c = true := List.all_eq_true.1 blank
  rw [trimmed, trim, trimStart, List.dropWhile_eq_nil_iff.2 all]
  rfl

/-- A word for an operator is not blank. -/
theorem Operator.isBlankText_of_spells {op : Operator} {text : String}
    (h : Spells op.words text) : isBlankText text = false := by
  rw [Bool.eq_false_iff]
  intro blank
  rw [Spells, trimmed_of_isBlankText blank] at h
  revert h
  cases op <;> decide

/-- The joiner for which a condition stands; without a condition it is `and`. -/
def Joiner.IsFor (condition : Option String) (joiner : Joiner) : Prop :=
  match condition with
  | none => joiner = .and
  | some text => Spells joiner.words text

theorem Joiner.ofCondition_eq_ok_iff {condition : Option String} {joiner : Joiner} :
    ofCondition condition = .ok joiner ↔ joiner.IsFor condition := by
  cases condition with
  | none => simp [ofCondition, IsFor, eq_comm]
  | some text =>
    rw [ofCondition, IsFor, ← parse?_eq_some_iff, parse]
    cases parse? text <;> simp

/-- A condition that is given is one of three words. -/
theorem Joiner.exists_isFor_iff {condition : Option String} :
    (∃ joiner : Joiner, joiner.IsFor condition) ↔
      ∀ text, condition = some text → Spells ["", "and", "or"] text := by
  cases condition with
  | none => simp [IsFor]
  | some text =>
    simp only [IsFor, Option.some.injEq, forall_eq', Spells, List.mem_cons, List.not_mem_nil,
      or_false]
    constructor
    · rintro ⟨joiner, word⟩
      cases joiner with
      | and =>
        rw [words, List.mem_pair] at word
        exact word.elim .inl fun named => .inr (.inl named)
      | or => exact .inr (.inr (List.mem_singleton.1 word))
    · rintro (word | word | word)
      · exact ⟨.and, by simp [words, word]⟩
      · exact ⟨.and, by simp [words, word]⟩
      · exact ⟨.or, by simp [words, word]⟩

namespace WireFilter

variable {settings : Settings} {f g : WireFilter} {fs : List WireFilter} {clause : FilterClause}

/-! ## Filters within filters -/

/-- The filters that are nested directly in a filter. -/
def nested (f : WireFilter) : List WireFilter := f.predicates.getD []

theorem sizeOf_lt_of_mem_nested (h : g ∈ f.nested) : sizeOf g < sizeOf f := by
  obtain ⟨field, operator, value, ignoreCase, isComplex, condition, predicates⟩ := f
  cases predicates with
  | none => cases h
  | some filters =>
    have := List.sizeOf_lt_of_mem (show g ∈ filters from h)
    simp only [mk.sizeOf_spec, Option.some.sizeOf_spec]
    omega

/-- What holds of a filter once it holds of those nested in it holds of every filter. -/
@[elab_as_elim]
theorem nestedInduction {motive : WireFilter → Prop}
    (step : ∀ f, (∀ g ∈ f.nested, motive g) → motive f) (f : WireFilter) : motive f :=
  step f fun g mem =>
    have := sizeOf_lt_of_mem_nested mem
    nestedInduction step g
termination_by sizeOf f

/-- A filter is among the filters of a list, or within one of them at some depth. -/
inductive Within : List WireFilter → WireFilter → Prop
  | here {fs : List WireFilter} {f : WireFilter} : f ∈ fs → Within fs f
  | deeper {fs : List WireFilter} {f g : WireFilter} : f ∈ fs → Within f.nested g → Within fs g

/-! ## Sound filters -/

/-- A filter has an operator that is not blank. -/
def IsComparison (f : WireFilter) : Prop :=
  ∃ name, f.operator = some name ∧ isBlankText name = false

/-- A filter is marked as complex, or others are nested in it. -/
def IsComposite (f : WireFilter) : Prop := f.isComplex = true ∨ f.nested ≠ []

/-- A filter is either a comparison or a composite. The condition of a composite is empty, `and` or
`or`, if there is one, and a comparison has a field and a known operator. -/
structure Sound (f : WireFilter) : Prop where
  either : f.IsComparison ↔ ¬ f.IsComposite
  condition : f.IsComposite → ∀ text, f.condition = some text → Spells ["", "and", "or"] text
  field : f.IsComparison → ∃ field, f.field = some field ∧ isBlankText field = false
  operator : f.IsComparison → ∃ name, f.operator = some name ∧ ∃ op : Operator, Spells op.words name

/-- The clause of a filter. A comparison becomes a leaf with its field, its operator and its value,
and a composite becomes an inner node with the clauses of the filters nested in it, in order. -/
inductive Yields (settings : Settings) : WireFilter → FilterClause → Prop
  | comparison {f : WireFilter} {field name : String} {op : Operator} :
    ¬ f.IsComposite → f.field = some field → isBlankText field = false →
    f.operator = some name → Spells op.words name →
    Yields settings f
      (.simple ⟨field, op, .ofJson f.value, f.ignoreCase.getD settings.ignoreCase⟩)
  | composite {f : WireFilter} {joiner : Joiner} {clauses : List FilterClause} :
    ¬ f.IsComparison → f.IsComposite → joiner.IsFor f.condition →
    List.Forall₂ (Yields settings) f.nested clauses →
    Yields settings f (.composite joiner clauses)

/-! ## The conversion -/

theorem isComposite_iff :
    f.IsComposite ↔ (f.isComplex || f.predicates.any fun filters => !filters.isEmpty) = true := by
  cases given : f.predicates <;> simp [IsComposite, nested, given]

theorem isComparison_iff : f.IsComparison ↔ ∃ name, filledText f.operator = some name := by
  simp only [IsComparison, filledText_eq_some_iff]

theorem toClauses_eq_ok_iff {clauses : List FilterClause} :
    toClauses settings fs = .ok clauses ↔
      List.Forall₂ (fun f clause => toClause settings f = .ok clause) fs clauses := by
  have same : toClauses settings fs = fs.mapM (toClause settings) := by
    induction fs with
    | nil => rfl
    | cons f fs ih =>
      rw [toClauses, List.mapM_cons, ih]
      cases toClause settings f with
      | error e => rfl
      | ok clause => cases fs.mapM (toClause settings) <;> rfl
  rw [same, mapM_eq_ok_iff]

/-- The conversion of one filter, by what it is. -/
theorem toClause_eq (settings : Settings) (f : WireFilter) :
    toClause settings f =
      match filledText f.operator,
        f.isComplex || f.predicates.any fun filters => !filters.isEmpty with
      | some _, true => .error (.of (.malformedClause .operatorAndPredicates f.field))
      | none, false => .error (.of (.malformedClause .neither f.field))
      | some name, false => toSimple settings f.field name f.value f.ignoreCase
      | none, true =>
        match Joiner.ofCondition f.condition with
        | .error e => .error e
        | .ok joiner => (toClauses settings f.nested).map (.composite joiner) := by
  obtain ⟨field, operator, value, ignoreCase, isComplex, condition, predicates⟩ := f
  rw [toClause]
  have clauses : optionalToClauses settings predicates =
      toClauses settings (predicates.getD []) := by
    cases predicates <;> rfl
  rw [clauses]
  rfl

theorem toSimple_eq_ok_iff {field : Option String} {name : String} {value : Json}
    {ignoreCase : Option Bool} :
    toSimple settings field name value ignoreCase = .ok clause ↔
      ∃ text op, field = some text ∧ isBlankText text = false ∧ Spells op.words name ∧
        clause = .simple ⟨text, op, .ofJson value, ignoreCase.getD settings.ignoreCase⟩ := by
  rw [toSimple]
  cases filled : filledText field with
  | none =>
    simp only [reduceCtorEq, false_iff, not_exists, not_and]
    intro text op given shown
    rw [filledText_eq_some_iff.2 ⟨given, shown⟩] at filled
    cases filled
  | some text =>
    obtain ⟨rfl, shown⟩ := filledText_eq_some_iff.1 filled
    simp only [map_eq_ok_iff, Operator.parse_eq_ok_iff]
    constructor
    · rintro ⟨op, word, rfl⟩
      exact ⟨text, op, rfl, shown, word, rfl⟩
    · rintro ⟨other, op, same, -, word, rfl⟩
      obtain rfl := Option.some.inj same
      exact ⟨op, word, rfl⟩

/-- **The conversion finds the clause of a filter**, and finds one only if there is one. -/
theorem toClause_eq_ok_iff : toClause settings f = .ok clause ↔ Yields settings f clause := by
  induction f using nestedInduction generalizing clause with
  | step f ih =>
    have below {clauses : List FilterClause} : toClauses settings f.nested = .ok clauses ↔
        List.Forall₂ (Yields settings) f.nested clauses :=
      toClauses_eq_ok_iff.trans (forall₂_congr_mem fun g mem _ => ih g mem)
    rw [toClause_eq]
    constructor
    · intro made
      split at made
      · cases made
      · cases made
      · next name filled flat =>
        have flat' : ¬ f.IsComposite := by simp [isComposite_iff, flat]
        obtain ⟨field, op, given, shown, word, rfl⟩ := toSimple_eq_ok_iff.1 made
        exact .comparison flat' given shown (filledText_eq_some_iff.1 filled).1 word
      · next blank composite =>
        have blank' : ¬ f.IsComparison := by simp [isComparison_iff, blank]
        cases condition : Joiner.ofCondition f.condition with
        | error e =>
          rw [condition] at made
          cases made
        | ok joiner =>
          rw [condition] at made
          obtain ⟨clauses, nested, rfl⟩ := map_eq_ok_iff.1 made
          exact .composite blank' (isComposite_iff.2 composite)
            (Joiner.ofCondition_eq_ok_iff.1 condition) (below.1 nested)
    · intro yields
      cases yields with
      | @comparison _ field name op flat given shown named word =>
        have filled : filledText f.operator = some name :=
          filledText_eq_some_iff.2 ⟨named, Operator.isBlankText_of_spells word⟩
        have flat' := Bool.eq_false_iff.2 (mt isComposite_iff.2 flat)
        rw [filled, flat']
        exact toSimple_eq_ok_iff.2 ⟨field, op, given, shown, word, rfl⟩
      | @composite _ joiner clauses blank composite condition all =>
        have blank' : filledText f.operator = none := by
          rw [isComparison_iff] at blank
          cases filled : filledText f.operator with
          | none => rfl
          | some name => exact absurd ⟨name, filled⟩ blank
        rw [blank', isComposite_iff.1 composite]
        simp only [Joiner.ofCondition_eq_ok_iff.2 condition, below.2 all]
        rfl

/-! ## Which forests are accepted -/

/-- A filter with a clause is sound. -/
theorem Yields.sound (h : Yields settings f clause) : f.Sound := by
  cases h with
  | comparison flat given shown named word =>
    have comparison : f.IsComparison := ⟨_, named, Operator.isBlankText_of_spells word⟩
    exact ⟨iff_of_true comparison flat, fun composite => absurd composite flat,
      fun _ => ⟨_, given, shown⟩, fun _ => ⟨_, named, _, word⟩⟩
  | composite blank composite condition all =>
    exact ⟨iff_of_false blank (not_not_intro composite),
      fun _ => Joiner.exists_isFor_iff.1 ⟨_, condition⟩, fun comparison => absurd comparison blank,
      fun comparison => absurd comparison blank⟩

/-- A sound filter has a clause if those nested in it have one. -/
theorem Sound.exists_yields (h : f.Sound)
    (below : ∀ g ∈ f.nested, ∃ clause, Yields settings g clause) :
    ∃ clause, Yields settings f clause := by
  by_cases composite : f.IsComposite
  · obtain ⟨joiner, condition⟩ := Joiner.exists_isFor_iff.2 (h.condition composite)
    obtain ⟨clauses, all⟩ := exists_forall₂ below
    have blank : ¬ f.IsComparison := fun comparison => h.either.1 comparison composite
    exact ⟨_, .composite blank composite condition all⟩
  · have comparison : f.IsComparison := h.either.2 composite
    obtain ⟨field, given, shown⟩ := h.field comparison
    obtain ⟨name, named, op, word⟩ := h.operator comparison
    exact ⟨_, .comparison composite given shown named word⟩

/-- **A forest has clauses** exactly if every filter within it is sound. -/
theorem exists_yields_iff :
    (∃ clauses, List.Forall₂ (Yields settings) fs clauses) ↔ ∀ g, Within fs g → g.Sound := by
  constructor
  · rintro ⟨clauses, all⟩ g within
    induction within generalizing clauses with
    | here mem =>
      obtain ⟨clause, yields⟩ := exists_of_mem_forall₂ all mem
      exact yields.sound
    | deeper mem within ih =>
      obtain ⟨clause, yields⟩ := exists_of_mem_forall₂ all mem
      cases yields with
      | comparison flat =>
        -- nothing is nested in a comparison
        have none := Decidable.not_not.1 (fun some => flat (.inr some))
        rw [none] at within
        cases within with
        | here mem => cases mem
        | deeper mem => cases mem
      | composite _ _ _ nested => exact ih _ nested
  · intro sound
    refine exists_forall₂ fun f mem => ?_
    induction f using nestedInduction generalizing fs with
    | step f ih =>
      refine (sound f (.here mem)).exists_yields fun g nested => ?_
      exact ih g nested (fun h within => sound h (.deeper mem within)) nested

end WireFilter

end RecordQuery
