import RecordQuery.Group.Format

/-!
# What stands in a date pattern

A pattern is cut from the left: at each place the longest name of a field that stands there, or else
one character. Its text of specifiers is read as the same parts, so every pattern can be rendered.

* `DateField.at?_eq_some_iff`: the field at the front of a text is the one with the longest name;
* `DatePattern.IsGreedy` are the parts that are cut so, and `DatePattern.isGreedy_iff`: they are
  those that are read;
* `DatePattern.Renders` is what is asked of a way to render texts of specifiers, and
  `DatePattern.Renders.specifiers`: it renders the text of every pattern;
* `DatePattern.specifiers_of_any_format`: what becomes of any format.
-/

namespace RecordQuery

/-! ## The longest name -/

namespace DateField

variable {f : DateField} {cs : List Char}

theorem mem_all (f : DateField) : f ∈ all := by cases f <;> decide

theorem name_inj {f g : DateField} (h : f.name.toList = g.name.toList) : f = g := by
  have apart : ∀ f ∈ all, ∀ g ∈ all, f.name.toList = g.name.toList → f = g := by decide
  exact apart f f.mem_all g g.mem_all h

/-- No name begins with one that comes before it. -/
theorem pairwise_all : all.Pairwise fun f g => ¬ f.name.toList <+: g.name.toList := by decide

theorem at?_spec (h : at? cs = some f) :
    f.name.toList <+: cs ∧
      ∀ g : DateField, g.name.toList <+: cs → g.name.toList.length ≤ f.name.toList.length := by
  obtain ⟨found, before, after, all_eq, earlier⟩ := List.find?_eq_some_iff_append.1 h
  have front : f.name.toList <+: cs := List.isPrefixOf_iff_prefix.1 found
  have apart := pairwise_all
  rw [all_eq, List.pairwise_append, List.pairwise_cons] at apart
  refine ⟨front, fun g other => Nat.le_of_not_lt fun longer => ?_⟩
  have begins : f.name.toList <+: g.name.toList :=
    List.prefix_of_prefix_length_le front other (Nat.le_of_lt longer)
  have listed := g.mem_all
  rw [all_eq, List.mem_append, List.mem_cons] at listed
  rcases listed with early | rfl | late
  · have missed := earlier g early
    rw [List.isPrefixOf_iff_prefix.2 other] at missed
    cases missed
  · exact absurd longer (Nat.lt_irrefl _)
  · exact apart.2.1.1 g late begins

/-- **The longest name** of those that stand at the front of a text. -/
theorem at?_eq_some_iff :
    at? cs = some f ↔ f.name.toList <+: cs ∧
      ∀ g : DateField, g.name.toList <+: cs → g.name.toList.length ≤ f.name.toList.length := by
  refine ⟨at?_spec, fun ⟨front, longest⟩ => ?_⟩
  obtain ⟨g, found⟩ : ∃ g, at? cs = some g :=
    Option.isSome_iff_exists.1 (List.find?_isSome.2
      ⟨f, f.mem_all, List.isPrefixOf_iff_prefix.2 front⟩)
  obtain ⟨other, longest'⟩ := at?_spec found
  have names : f.name.toList = g.name.toList :=
    (List.prefix_of_prefix_length_le front other (longest' f front)).eq_of_length
      (Nat.le_antisymm (longest' f front) (longest g other))
  rw [found, name_inj names]

theorem at?_eq_none_iff : at? cs = none ↔ ∀ g : DateField, ¬ g.name.toList <+: cs := by
  rw [at?, List.find?_eq_none]
  refine ⟨fun none g front => none g g.mem_all (List.isPrefixOf_iff_prefix.2 front), ?_⟩
  exact fun none g _ found => none g (List.isPrefixOf_iff_prefix.1 found)

end DateField

namespace DatePattern

/-! ## The parts of a pattern -/

/-- The parts of a text, cut from the left: the longest name that stands at a place, or one
character where no name does. -/
inductive IsGreedy : List Char → DatePattern → Prop
  | nil : IsGreedy [] []
  | field {f : DateField} {rest : List Char} {p : DatePattern} :
    (∀ g : DateField, g.name.toList <+: f.name.toList ++ rest →
      g.name.toList.length ≤ f.name.toList.length) →
    IsGreedy rest p → IsGreedy (f.name.toList ++ rest) (.field f :: p)
  | literal {c : Char} {rest : List Char} {p : DatePattern} :
    (∀ g : DateField, ¬ g.name.toList <+: c :: rest) →
    IsGreedy rest p → IsGreedy (c :: rest) (.literal c :: p)

theorem parseFrom_skip (skip : Nat) (cs : List Char) :
    parseFrom skip cs = parseFrom 0 (cs.drop skip) := by
  induction skip generalizing cs with
  | zero => rfl
  | succ skip ih =>
    cases cs with
    | nil => rfl
    | cons c cs => exact ih cs

theorem isGreedy_parseFrom (skip : Nat) (cs : List Char) :
    IsGreedy (cs.drop skip) (parseFrom skip cs) := by
  fun_induction parseFrom skip cs with
  | case1 skip =>
    rw [List.drop_nil]
    exact .nil
  | case2 skip c cs ih => exact ih
  | case3 c cs f h ih =>
    have longest := (DateField.at?_spec h).2
    have text := eq_name_append h
    rw [List.drop_zero, text]
    rw [text] at longest
    exact .field longest ih
  | case4 c cs h ih => exact .literal (DateField.at?_eq_none_iff.1 h) ih

/-- **The parts of a text** are those that are read. -/
theorem isGreedy_iff {cs : List Char} {p : DatePattern} : IsGreedy cs p ↔ p = parseFrom 0 cs := by
  constructor
  · intro h
    induction h with
    | nil => rfl
    | @field f rest p longest _ ih =>
      have found : DateField.at? (f.name.toList ++ rest) = some f :=
        DateField.at?_eq_some_iff.2 ⟨⟨rest, rfl⟩, longest⟩
      obtain ⟨c, cs, name⟩ : ∃ c cs, f.name.toList = c :: cs := by
        cases f <;> exact ⟨_, _, rfl⟩
      have length : f.name.length - 1 = cs.length := by
        rw [← String.length_toList, name, List.length_cons, Nat.add_sub_cancel]
      rw [name, List.cons_append] at found ⊢
      rw [parseFrom, found]
      dsimp only
      rw [parseFrom_skip, length, List.drop_left, ← ih]
    | literal none _ ih =>
      rw [parseFrom, DateField.at?_eq_none_iff.2 none, ih]
  · rintro rfl
    exact isGreedy_parseFrom 0 cs

/-! ## Rendering -/

/-- A way to render times by texts of specifiers: each specifier, a doubled percent sign, and any
other character. Of what else may stand behind a percent sign nothing is known. -/
structure Renders (render? : LocalDateTime → List Char → Option (List Char)) : Prop where
  nil : ∀ t, render? t [] = some []
  specifier : ∀ t (f : DateField) text, render? t (f.specifier.toList ++ text) =
    (render? t text).map (fieldText t f ++ ·)
  percent : ∀ t text, render? t ('%' :: '%' :: text) = (render? t text).map ('%' :: ·)
  literal : ∀ t c text, c ≠ '%' → render? t (c :: text) = (render? t text).map (c :: ·)

variable {render? : LocalDateTime → List Char → Option (List Char)}

/-- The text of a pattern has nothing in it that cannot be rendered. -/
theorem Renders.specifiers (h : Renders render?) (t : LocalDateTime) (p : DatePattern) :
    render? t p.specifiers = some (p.flatMap (partText t)) := by
  induction p with
  | nil => exact h.nil t
  | cons part p ih =>
    rw [DatePattern.specifiers, List.flatMap_cons, List.flatMap_cons]
    rw [DatePattern.specifiers] at ih
    cases part with
    | field f =>
      rw [partSpecifier, h.specifier, ih]
      rfl
    | literal c =>
      rw [partSpecifier]
      split
      · next percent =>
        subst percent
        exact (h.percent t _).trans (congrArg _ ih)
      · next other => exact (h.literal t c _ other).trans (congrArg _ ih)

/-- Texts of specifiers are rendered by the parts that are read from them. -/
theorem renders_rendered? : Renders fun t text => (rendered? t text).map String.toList := by
  have parts (t : LocalDateTime) (text : List Char) : (rendered? t text).map String.toList =
      (items? text).map fun p => p.flatMap (partText t) := by
    simp only [rendered?, render, Option.map_map, Function.comp_def, String.toList_ofList]
  constructor
  · exact fun t => rfl
  · intro t f text
    rw [parts, parts, items?_specifier, Option.map_map, Option.map_map]
    rfl
  · intro t text
    rw [parts, parts, items?_percent, Option.map_map, Option.map_map]
    rfl
  · intro t c text other
    rw [parts, parts, items?_literal other, Option.map_map, Option.map_map]
    rfl

theorem format_of_wall? {v : Value} {t : LocalDateTime} (h : v.wall? = some t) (format : String) :
    v.format format = (parse format).rendered t := by
  have date : v.formatDate format = (parse format).rendered t := by rw [Value.formatDate, h]
  have none : v.toDouble? = none := by
    cases v with
    | dateTime t => rfl
    | dateTimeOffset t => rfl
    | _ => cases h
  rw [Value.format, none, date]
  split
  · next same => cases same
  · rfl

/-- **Every text is a pattern that can be rendered.** Its parts are cut from the left, the longest
name at each place or else one character, and hold the whole text. Its text of specifiers is read as
the same parts, with no percent sign left over. So whatever renders specifiers, doubled percent
signs and other characters renders it, and a date in any format shows its fields in their places,
with all other characters between them. -/
theorem specifiers_of_any_format (format : String) :
    let p := parse format
    (∀ q, IsGreedy format.toList q ↔ q = p) ∧
    p.source = format.toList ∧
    items? p.specifiers = some p ∧
    Renders (fun t text => (rendered? t text).map String.toList) ∧
    (∀ render?, Renders render? → ∀ t, render? t p.specifiers = some (p.flatMap (partText t))) ∧
    ∀ (v : Value) (t : LocalDateTime), v.wall? = some t →
      v.format format = String.ofList (p.flatMap (partText t)) := by
  intro p
  refine ⟨fun q => isGreedy_iff, source_parse format, items?_specifiers p,
    renders_rendered?, fun render? h t => h.specifiers t p, fun v t h => ?_⟩
  rw [format_of_wall? h, rendered_eq]
  rfl

/-- Percent signs stand next to names here, and one name is longer than another. -/
theorem specifiers_of_any_format_of_percents :
    let p := parse "%dd%MMMMM"
    p.specifiers = "%%%d%%%BM".toList ∧ items? p.specifiers = some p := by
  intro p
  obtain ⟨-, -, read, -⟩ := specifiers_of_any_format "%dd%MMMMM"
  exact ⟨by decide, read⟩

end DatePattern

end RecordQuery
