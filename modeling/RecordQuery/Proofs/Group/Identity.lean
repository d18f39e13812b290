import RecordQuery.Proofs.Group.Tree
import RecordQuery.Proofs.Value.Texts

/-!
# What brings records into one group

Records fall into one group if their keys have one identity, and an identity is a form with a text.
So grouping sees the notation of a value, where equality sees the value alone.

* `Grouping.identity_inj`: an identity is taken to pieces;
* `Grouping.mem_of_mem_parts` and `Grouping.exists_part_iff`: the parts of records are the classes
  of their identities;
* `DataSet.Together`: two records are members of one group;
* `Grouping.together_iff_identity`: they are if their keys have one identity;
* `Grouping.together_iff_format`: with a format, if their values have one text in it;
* `Grouping.together_iff_looselyEqual`: among values of one form, if they are equal and noted alike.
-/

namespace RecordQuery

open Text

namespace Grouping

/-! ## Identities -/

theorem notMem_tag (v : Value) : ':' ∉ v.tag.toList := by
  cases v <;> simp [Value.tag]

/-- An identity is a form and a text. -/
theorem identity_inj {a b : Value} :
    identity a = identity b ↔ a.tag = b.tag ∧ a.display = b.display := by
  have parts (v : Value) : (identity v).toList = v.tag.toList ++ ':' :: v.display.toList := by
    rw [identity, String.toList_append, String.toList_append, List.append_assoc]
    rfl
  constructor
  · intro same
    have texts : (identity a).toList = (identity b).toList := by rw [same]
    rw [parts, parts] at texts
    obtain ⟨tags, displays⟩ := append_cons_inj (notMem_tag a) (notMem_tag b) texts
    exact ⟨String.toList_injective tags, String.toList_injective displays⟩
  · rintro ⟨tags, displays⟩
    rw [identity, identity, tags, displays]

/-! ## Parts -/

variable (settings : Settings) (options : GroupOptions) (field : String)

/-- The identity of the key of a record. -/
def recordIdentity (r : Record) : String := (keyed settings options field r).1

variable {settings options field} {records part : List Record} {r s : Record}

/-- The records of a part are those of one identity. -/
theorem mem_of_mem_parts (listed : part ∈ parts settings options field records) :
    ∃ key, ∀ r, r ∈ part ↔ r ∈ records ∧ recordIdentity settings options field r = key := by
  obtain ⟨members, mem, rfl⟩ := List.mem_map.1 listed
  obtain ⟨⟨key, items⟩, found, rfl⟩ := List.mem_map.1 mem
  refine ⟨key, fun r => ?_⟩
  dsimp only
  rw [(mem_classes found).1]
  simp only [List.mem_map, List.mem_filter, decide_eq_true_eq]
  constructor
  · rintro ⟨-, ⟨-, ⟨⟨s, listed, rfl⟩, same⟩, rfl⟩, rfl⟩
    exact ⟨listed, same⟩
  · rintro ⟨listed, same⟩
    exact ⟨_, ⟨_, ⟨⟨r, listed, rfl⟩, same⟩, rfl⟩, rfl⟩

/-- Records are in one part if their identities agree. -/
theorem exists_part_iff (hr : r ∈ records) (hs : s ∈ records) :
    (∃ part ∈ parts settings options field records, r ∈ part ∧ s ∈ part) ↔
      recordIdentity settings options field r = recordIdentity settings options field s := by
  constructor
  · rintro ⟨part, listed, first, second⟩
    obtain ⟨key, members⟩ := mem_of_mem_parts listed
    rw [((members r).1 first).2, ((members s).1 second).2]
  · intro same
    have cut := isCut_parts settings options field records
    obtain ⟨part, listed, mem⟩ := List.mem_flatten.1 (cut.perm.mem_iff.2 hr)
    obtain ⟨key, members⟩ := mem_of_mem_parts listed
    have own := ((members r).1 mem).2
    exact ⟨part, listed, mem, (members s).2 ⟨hs, same ▸ own⟩⟩

/-! ## Groups -/

/-- Groups hold the members of the parts. -/
theorem exists_group_iff {groups : List Group} {parts : List (List Record)}
    (h : List.Forall₂ (Group.Spans [field] 1) parts groups) :
    (∃ g ∈ groups, r ∈ g.members ∧ s ∈ g.members) ↔ ∃ part ∈ parts, r ∈ part ∧ s ∈ part := by
  induction h with
  | nil => simp
  | cons first _ ih =>
    rw [List.exists_mem_cons_iff, List.exists_mem_cons_iff, ih, first.2.2]

end Grouping

/-- Two records are members of one group. -/
inductive DataSet.Together (r s : Record) : DataSet → Prop
  | grouped {set : GroupSet} {g : Group} :
    g ∈ set.groups → r ∈ g.members → s ∈ g.members → Together r s (.grouped set)

theorem DataSet.together_grouped {set : GroupSet} {r s : Record} :
    (DataSet.grouped set).Together r s ↔ ∃ g ∈ set.groups, r ∈ g.members ∧ s ∈ g.members := by
  constructor
  · rintro ⟨mem, first, second⟩
    exact ⟨_, mem, first, second⟩
  · rintro ⟨g, mem, first, second⟩
    exact .grouped mem first second

namespace Grouping

variable (settings : Settings) (options : GroupOptions) (field : String) {records : List Record}
  {r s : Record}

/-- Records fall into one group if their identities agree. -/
theorem together_iff_identity (hr : r ∈ records) (hs : s ∈ records) (types : FieldTypes) :
    (group settings options (.records records) field types).1.Together r s ↔
      recordIdentity settings options field r = recordIdentity settings options field s := by
  obtain ⟨first, rest, rfl⟩ := List.exists_cons_of_ne_nil (List.ne_nil_of_mem hr)
  have groups := spans_parts settings options field 1 (first :: rest) types
  exact DataSet.together_grouped.trans ((exists_group_iff groups).trans (exists_part_iff hr hs))

/-! ## Keys with a format -/

variable {options field} {v w : Value}

/-- Values that are not null fall into one group of a field with a format if their texts in the
format agree. -/
theorem together_iff_format {format : String}
    (formatted : Fields.get? field options.formats = some format) (hr : r ∈ records)
    (hs : s ∈ records) (hv : r.valueAt (.parse field) = v) (hw : s.valueAt (.parse field) = w)
    (someV : v.isNull = false) (someW : w.isNull = false) (types : FieldTypes) :
    (group settings options (.records records) field types).1.Together r s ↔
      v.format format = w.format format := by
  have key {x : Value} (some : x.isNull = false) :
      keyOf settings (.some format) x = .string (x.format format) := by
    rw [keyOf, some]
    rfl
  refine (together_iff_identity settings options field hr hs types).trans ?_
  rw [recordIdentity, recordIdentity, keyed, keyed, formatted, hv, hw, key someV, key someW,
    identity_inj]
  exact and_iff_right rfl

/-! ## Keys without a format -/

theorem keyOf_of_isNull (h : v.isNull = true) :
    keyOf settings none v = .string settings.nullGroupKey := by
  rw [keyOf, if_pos h]

theorem keyOf_of_some (h : v.isNull = false) : keyOf settings none v = v := by
  rw [keyOf, h]
  rfl

theorem recordIdentity_of_plain (plain : Fields.get? field options.formats = none) (r : Record) :
    recordIdentity settings options field r =
      identity (keyOf settings none (r.valueAt (.parse field))) := by
  rw [recordIdentity, keyed, plain]

/-- The key of nulls is shared by the text that stands for them. -/
theorem identity_null_iff (h : v.isNull = true) :
    identity (keyOf settings none v) = identity (keyOf settings none w) ↔
      w.isNull = true ∨ w = .string settings.nullGroupKey := by
  rw [keyOf_of_isNull settings h]
  cases null : w.isNull with
  | true =>
    rw [keyOf_of_isNull settings null]
    simp
  | false =>
    rw [keyOf_of_some settings null, identity_inj]
    constructor
    · rintro ⟨tags, texts⟩
      cases w with
      | string text =>
        have same : settings.nullGroupKey = text := texts
        exact .inr (by rw [same])
      | _ => simp [Value.tag] at tags
    · rintro (other | rfl)
      · cases other
      · exact ⟨rfl, rfl⟩

theorem identity_sameForm_iff (form : v.SameForm w) :
    identity (keyOf settings none v) = identity (keyOf settings none w) ↔
      v.looselyEqual w = true ∧ v.SameNotation w := by
  obtain ⟨hv, hw⟩ := form.isNull
  rw [keyOf_of_some settings hv, keyOf_of_some settings hw, identity_inj, form.display_eq_iff]
  exact and_iff_right form.tag_eq

/-- **Records fall into one group** of a field without a format if the forms and the texts of their
keys agree. So a null is grouped with the nulls and with the text that stands for them, and no other
values of different forms are ever grouped together. Among values of one form, grouping agrees with
equality, as far as the values are noted alike. -/
theorem together_iff_looselyEqual (plain : Fields.get? field options.formats = none)
    (hr : r ∈ records) (hs : s ∈ records) (hv : r.valueAt (.parse field) = v)
    (hw : s.valueAt (.parse field) = w) (types : FieldTypes) :
    let together := (group settings options (.records records) field types).1.Together r s
    let key := keyOf settings none
    (together ↔ (key v).tag = (key w).tag ∧ (key v).display = (key w).display) ∧
      (v.isNull = true → (together ↔ w.isNull = true ∨ w = .string settings.nullGroupKey)) ∧
      (v.isNull = false → w.isNull = false → v.tag ≠ w.tag → ¬ together) ∧
      (v.SameForm w → (together ↔ v.looselyEqual w = true ∧ v.SameNotation w)) := by
  intro together key
  have identities : together ↔ identity (key v) = identity (key w) := by
    refine (together_iff_identity settings options field hr hs types).trans ?_
    rw [recordIdentity_of_plain settings plain, recordIdentity_of_plain settings plain, hv, hw]
  refine ⟨identities.trans identity_inj, fun null => ?_, fun someV someW apart => ?_,
    fun form => ?_⟩
  · exact identities.trans (identity_null_iff settings null)
  · intro grouped
    have same : identity (keyOf settings none v) = identity (keyOf settings none w) :=
      identities.1 grouped
    rw [keyOf_of_some settings someV, keyOf_of_some settings someW, identity_inj] at same
    exact apart same.1
  · exact identities.trans (identity_sameForm_iff settings form)

/-- One number in two widths is in one group, and so are a null and the word that stands for it. -/
theorem together_iff_looselyEqual_of_numbers :
    let one : Record := .table [("N", .int32 1)]
    let wide : Record := .table [("N", .int64 1)]
    let two : Record := .table [("N", .int64 2)]
    let blank : Record := .table [("N", .null)]
    let word : Record := .table [("N", .string "null")]
    let records := [one, wide, two, blank, word]
    let grouped := (group {} {} (.records records) "N" ⟨none, []⟩).1
    grouped.Together one wide ∧ ¬ grouped.Together wide two ∧ grouped.Together blank word ∧
      ¬ grouped.Together two word := by
  intro one wide two blank word records grouped
  have mem : one ∈ records ∧ wide ∈ records ∧ two ∈ records ∧ blank ∈ records ∧ word ∈ records := by
    simp [records]
  obtain ⟨hone, hwide, htwo, hblank, hword⟩ := mem
  have plain : Fields.get? "N" (({} : GroupOptions).formats) = none := rfl
  obtain ⟨-, -, -, widths⟩ :=
    together_iff_looselyEqual {} plain hone hwide (v := .int32 1) (w := .int64 1) rfl rfl ⟨none, []⟩
  obtain ⟨-, -, -, numbers⟩ :=
    together_iff_looselyEqual {} plain hwide htwo (v := .int64 1) (w := .int64 2) rfl rfl ⟨none, []⟩
  obtain ⟨-, nulls, -, -⟩ :=
    together_iff_looselyEqual {} plain hblank hword (v := .null) (w := .string "null") rfl rfl
      ⟨none, []⟩
  obtain ⟨-, -, forms, -⟩ :=
    together_iff_looselyEqual {} plain htwo hword (v := .int64 2) (w := .string "null") rfl rfl
      ⟨none, []⟩
  have equal : (Value.int32 1).looselyEqual (.int64 1) = true := by decide
  have other : (Value.int64 1).looselyEqual (.int64 2) ≠ true := by decide
  have alike : (Value.int32 1).SameNotation (.int64 1) := trivial
  refine ⟨?_, ?_, ?_, ?_⟩
  · exact (widths (.integer rfl rfl)).2 ⟨equal, alike⟩
  · exact fun same => other ((numbers (.integer rfl rfl)).1 same).1
  · exact (nulls rfl).2 (.inr rfl)
  · exact forms rfl rfl (by decide)

/-- Equal numbers of different forms fall into two groups, and a null and a text that are not equal
into one. -/
theorem together_iff_looselyEqual_of_other_forms :
    let whole : Record := .table [("N", .int64 1)]
    let binary : Record := .table [("N", .float64 (.ofInt .double 1))]
    let blank : Record := .table [("N", .null)]
    let word : Record := .table [("N", .string "null")]
    let grouped := (group {} {} (.records [whole, binary, blank, word]) "N" ⟨none, []⟩).1
    ((whole.valueAt (.parse "N")).looselyEqual (binary.valueAt (.parse "N")) = true ∧
        ¬ grouped.Together whole binary) ∧
      (blank.valueAt (.parse "N")).looselyEqual (word.valueAt (.parse "N")) = false ∧
        grouped.Together blank word := by
  intro whole binary blank word grouped
  have mem : whole ∈ [whole, binary, blank, word] ∧ binary ∈ [whole, binary, blank, word] ∧
      blank ∈ [whole, binary, blank, word] ∧ word ∈ [whole, binary, blank, word] := by simp
  obtain ⟨hwhole, hbinary, hblank, hword⟩ := mem
  refine ⟨⟨by decide +kernel, fun same => ?_⟩, rfl, ?_⟩
  · have identities := (together_iff_identity {} {} "N" hwhole hbinary ⟨none, []⟩).1 same
    rw [recordIdentity_of_plain {} rfl, recordIdentity_of_plain {} rfl, identity_inj] at identities
    have tags : "int" = "float" := identities.1
    exact absurd tags (by decide)
  · have identities : recordIdentity {} {} "N" blank = recordIdentity {} {} "N" word := rfl
    exact (together_iff_identity {} {} "N" hblank hword ⟨none, []⟩).2 identities

end Grouping

end RecordQuery
