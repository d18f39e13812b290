import RecordQuery.Proofs.Conversion
import RecordQuery.Proofs.FieldTypes.Memory
import RecordQuery.Proofs.Text.Parts
import RecordQuery.Proofs.Wire.Names
import RecordQuery.Request

/-!
# Sort specifications

A specification names the fields to sort by, with commas between them and perhaps a direction behind
each. Blank parts say nothing. The keys of a request are shown as such a specification, which reads
back as the same keys.

* `SortDirection.IsNamed`: a word is the name of a direction, in any case;
* `SortKey.Says` is what a part of a specification says, and `SortKey.IsReadable` what is asked of a
  part;
* `SortKey.parseList_eq_ok_iff`: the keys that are read are what the parts say that are not blank;
* `SortKey.parseList_eq_error_iff`: a specification is refused for its first part that cannot be
  read, with the error of `SortKey.Refused`;
* `SortKey.parseList_joined`: the text of plain keys reads back, and `Request.mem_summary_sort` is
  where a request shows it;
* `SortKey.specification_reads_back` puts these together.
-/

namespace RecordQuery

open Text

/-! ## Names of directions -/

namespace SortDirection

variable {direction : SortDirection} {word part : List Char}

/-- The names of a direction in specifications. -/
def names : SortDirection → List String
  | .ascending => ["asc", "ascending"]
  | .descending => ["desc", "descending"]

/-- A word is the name of a direction, up to the case of the letters A to Z. -/
def IsNamed (direction : SortDirection) (word : List Char) : Prop :=
  ∃ name ∈ direction.names, equalIgnoringAsciiCase (.ofList word) name = true

theorem asciiLower_of_mem_names {name : String} (h : name ∈ direction.names) :
    asciiLower name = name := by
  cases direction <;> simp only [names, List.mem_pair] at h
  all_goals rcases h with rfl | rfl <;> rfl

theorem isNamed_iff : direction.IsNamed word ↔ asciiLower (.ofList word) ∈ direction.names := by
  have same (name : String) : equalIgnoringAsciiCase (.ofList word) name = true ↔
      asciiLower (.ofList word) = asciiLower name := by
    rw [equalIgnoringAsciiCase, beq_iff_eq, asciiLower, asciiLower, String.ofList_inj]
  constructor
  · rintro ⟨name, listed, equal⟩
    rwa [(same name).1 equal, asciiLower_of_mem_names listed]
  · intro listed
    exact ⟨_, listed, (same _).2 (asciiLower_of_mem_names listed).symm⟩

/-- A direction is read from a word that is one of its names. -/
theorem parse_token_eq_ok_iff (h : word ∈ tokens part) (field : Option String) :
    parse (.ofList word) field = .ok direction ↔ direction.IsNamed word := by
  have trimmed : trimmed (.ofList word) = .ofList word := by
    rw [Text.trimmed, String.toList_ofList, trim_of_all_not_blank fun c => visible_of_mem_tokens h]
  have some : asciiLower (.ofList word) ≠ "" := by
    intro empty
    have := congrArg String.toList empty
    simp [asciiLower, ne_nil_of_mem_tokens h] at this
  rw [parse_eq_ok_iff, Spells, trimmed, isNamed_iff]
  cases direction <;> simp [words, names, some]

theorem parse_token_eq_error (h : word ∈ tokens part)
    (unnamed : ∀ direction : SortDirection, ¬ direction.IsNamed word) (field : Option String) :
    parse (.ofList word) field = .error (.of (.unknownDirection (.ofList word) field)) := by
  cases read : parse? (.ofList word) with
  | none => rw [parse, read]
  | some direction =>
    have ok : parse (.ofList word) field = .ok direction := by rw [parse, read]
    exact absurd ((parse_token_eq_ok_iff h field).1 ok) (unnamed direction)

end SortDirection

/-! ## Reading -/

namespace SortKey

variable {part : List Char} {parts : List (List Char)} {key : SortKey} {keys : List SortKey}
  {spec : String}

/-- What a part of a specification says: a path, and perhaps the name of a direction behind it. -/
inductive Says : List Char → SortKey → Prop
  | path {part path : List Char} : tokens part = [path] →
    Says part { field := .parse (.ofList path) }
  | directed {part path name : List Char} {direction : SortDirection} :
    tokens part = [path, name] → direction.IsNamed name →
    Says part { field := .parse (.ofList path), direction }

/-- What is asked of a part of a specification: there are two words at most, and the second one is
the name of a direction. -/
structure IsReadable (part : List Char) : Prop where
  few : (tokens part).length ≤ 2
  named : ∀ name, (tokens part)[1]? = some name →
    ∃ direction : SortDirection, direction.IsNamed name

theorem parse_eq_ok_none_iff : parse part = .ok none ↔ ∀ c ∈ part, isBlank c = true := by
  rw [← tokens_eq_nil_iff, parse, words_eq_tokens]
  split
  · next none => simp [none]
  · next one => simp [one]
  · next path name two => simp [two, map_eq_ok_iff]
  · next many => simp [many]

theorem mem_tokens_of_two {path name : List Char} (two : tokens part = [path, name]) :
    name ∈ tokens part := by
  rw [two]
  exact List.mem_cons_of_mem _ List.mem_cons_self

theorem parse_eq_ok_some_iff : parse part = .ok (some key) ↔ Says part key := by
  rw [parse, words_eq_tokens]
  constructor
  · intro read
    split at read
    · cases read
    · next path one =>
      obtain rfl := Option.some.inj (Except.ok.inj read)
      exact .path one
    · next path name two =>
      obtain ⟨direction, named, made⟩ := map_eq_ok_iff.1 read
      obtain rfl := Option.some.inj made
      have listed := mem_tokens_of_two two
      exact .directed two ((SortDirection.parse_token_eq_ok_iff listed _).1 named)
    · cases read
  · rintro (one | ⟨two, named⟩)
    · rw [one]
    · have direction (field : Option String) :=
        (SortDirection.parse_token_eq_ok_iff (mem_tokens_of_two two) field).2 named
      rw [two]
      exact map_eq_ok_iff.2 ⟨_, direction _, rfl⟩

theorem Says.exists_visible (h : Says part key) : ¬ ∀ c ∈ part, isBlank c = true := by
  rw [← parse_eq_ok_none_iff, parse_eq_ok_some_iff.2 h]
  exact nofun

/-- White space in front of a part says nothing. -/
theorem Says.cons_blank {c : Char} (blank : isBlank c = true) (h : Says part key) :
    Says (c :: part) key := by
  cases h with
  | path one => exact .path ((tokens_cons blank part).trans one)
  | directed two named => exact .directed ((tokens_cons blank part).trans two) named

/-- **The keys of a specification** are what its parts say, one after the other. Blank parts are
skipped. -/
theorem parseParts_eq_ok_iff :
    parseParts parts = .ok keys ↔
      List.Forall₂ Says (parts.filter fun part => !part.all isBlank) keys := by
  induction parts generalizing keys with
  | nil => simp [parseParts, eq_comm]
  | cons part parts ih =>
    have step : parseParts (part :: parts) = .ok keys ↔ ∃ key, parse part = .ok key ∧
        ∃ later, parseParts parts = .ok later ∧ key.toList ++ later = keys := by
      rw [parseParts]
      exact bind_eq_ok_iff.trans (by simp only [map_eq_ok_iff])
    rw [step]
    by_cases blank : part.all isBlank = true
    · have none := parse_eq_ok_none_iff.2 (List.all_eq_true.1 blank)
      rw [List.filter_cons_of_neg (by simpa using blank), ← ih, none]
      simp
    · rw [List.filter_cons_of_pos (by simpa using blank), List.forall₂_cons_left_iff]
      constructor
      · rintro ⟨none | key, read, later, rest, rfl⟩
        · exact absurd (List.all_eq_true.2 (parse_eq_ok_none_iff.1 read)) blank
        · exact ⟨key, later, parse_eq_ok_some_iff.1 read, ih.1 rest, rfl⟩
      · rintro ⟨key, later, said, rest, rfl⟩
        exact ⟨some key, parse_eq_ok_some_iff.2 said, later, ih.2 rest, rfl⟩

theorem parseList_eq_ok_iff :
    parseList spec = .ok keys ↔
      List.Forall₂ Says ((spec.toList.splitOn ',').filter fun part => !part.all isBlank) keys := by
  rw [parseList, splitOn_eq, parseParts_eq_ok_iff]

/-- A part can be read if it is blank or says something. -/
theorem isReadable_iff : IsReadable part ↔ part.all isBlank = true ∨ ∃ key, Says part key := by
  rw [List.all_eq_true, ← tokens_eq_nil_iff]
  constructor
  · intro h
    cases words : tokens part with
    | nil => exact .inl rfl
    | cons path more =>
      cases more with
      | nil => exact .inr ⟨_, .path words⟩
      | cons name more =>
        have few := h.few
        obtain ⟨direction, named⟩ := h.named name (by simp [words])
        obtain rfl : more = [] := by
          rw [words] at few
          simpa using few
        exact .inr ⟨_, .directed words named⟩
  · rintro (none | ⟨key, one | ⟨two, named⟩⟩)
    · exact ⟨by simp [none], by simp [none]⟩
    · exact ⟨by simp [one], by simp [one]⟩
    · exact ⟨by simp [two], by simpa [two] using ⟨_, named⟩⟩

/-- **A specification is read** exactly if every part of it can be. -/
theorem exists_parseList_iff :
    (∃ keys, parseList spec = .ok keys) ↔ ∀ part ∈ spec.toList.splitOn ',', IsReadable part := by
  simp only [parseList_eq_ok_iff]
  constructor
  · rintro ⟨keys, said⟩ part mem
    rw [isReadable_iff]
    by_cases blank : part.all isBlank = true
    · exact .inl blank
    · exact .inr (exists_of_mem_forall₂ said (List.mem_filter.2 ⟨mem, by simpa using blank⟩))
  · intro readable
    refine exists_forall₂ fun part mem => ?_
    obtain ⟨listed, visible⟩ := List.mem_filter.1 mem
    rcases isReadable_iff.1 (readable part listed) with blank | said
    · rw [blank] at visible
      cases visible
    · exact said

/-! ## Refusals -/

/-- The error for a part that cannot be read: its second word is no name of a direction, or there is
a third one. The first word is the field at fault. -/
inductive Refused : List Char → QueryError → Prop
  | unknown {part path name : List Char} : tokens part = [path, name] →
    (∀ direction : SortDirection, ¬ direction.IsNamed name) →
    Refused part (.of (.unknownDirection (.ofList name) (some (.ofList path))))
  | surplus {part path name next : List Char} {more : List (List Char)} :
    tokens part = path :: name :: next :: more →
    Refused part
      (.of (.malformedClause (.surplusTokens (.ofList (trim part))) (some (.ofList path))))

variable {e : QueryError}

theorem Refused.parse_eq (h : Refused part e) : parse part = .error e := by
  rw [parse, words_eq_tokens]
  cases h with
  | unknown two unnamed =>
    have failed := SortDirection.parse_token_eq_error (mem_tokens_of_two two) unnamed
    rw [two]
    exact congrArg (Except.map _) (failed _)
  | surplus many => rw [many]

theorem exists_refused (h : ¬ IsReadable part) : ∃ e, Refused part e := by
  match words : tokens part with
  | [] => exact absurd ⟨by simp [words], by simp [words]⟩ h
  | [path] => exact absurd ⟨by simp [words], by simp [words]⟩ h
  | [path, name] =>
    refine ⟨_, .unknown words fun direction named => h ⟨by simp [words], ?_⟩⟩
    simpa [words] using ⟨direction, named⟩
  | path :: name :: next :: more => exact ⟨_, .surplus words⟩

/-- A part can be read if reading it gives a key or nothing. -/
theorem isReadable_iff_exists_parse : IsReadable part ↔ ∃ key, parse part = .ok key := by
  rw [isReadable_iff, List.all_eq_true, ← parse_eq_ok_none_iff]
  simp only [← parse_eq_ok_some_iff]
  constructor
  · rintro (none | ⟨key, some⟩)
    · exact ⟨_, none⟩
    · exact ⟨_, some⟩
  · rintro ⟨none | key, read⟩
    · exact .inl read
    · exact .inr ⟨key, read⟩

theorem parse_eq_error_iff : parse part = .error e ↔ Refused part e := by
  refine ⟨fun failed => ?_, Refused.parse_eq⟩
  have unread : ¬ IsReadable part := by
    rw [isReadable_iff_exists_parse, failed]
    exact nofun
  obtain ⟨e', refused⟩ := exists_refused unread
  obtain rfl : e' = e := Except.error.inj (refused.parse_eq.symm.trans failed)
  exact refused

/-- **A specification is refused** for its first part that cannot be read. -/
theorem parseParts_eq_error_iff :
    parseParts parts = .error e ↔ ∃ before part after, parts = before ++ part :: after ∧
      (∀ part ∈ before, IsReadable part) ∧ Refused part e := by
  induction parts with
  | nil => simp [parseParts]
  | cons part parts ih =>
    have step : parseParts (part :: parts) = .error e ↔ parse part = .error e ∨
        (∃ key, parse part = .ok key) ∧ parseParts parts = .error e := by
      rw [parseParts]
      cases parse part with
      | error e' => simp [Except.bind]
      | ok key => cases parseParts parts <;> simp [Except.bind, Except.map]
    rw [step, exists_split_cons, ih, parse_eq_error_iff, isReadable_iff_exists_parse]

theorem parseList_eq_error_iff :
    parseList spec = .error e ↔ ∃ before part after,
      spec.toList.splitOn ',' = before ++ part :: after ∧
        (∀ part ∈ before, IsReadable part) ∧ Refused part e := by
  rw [parseList, splitOn_eq, parseParts_eq_error_iff]

/-! ## Reading back -/

/-- The text of a key is its path, with a word behind it if the direction is descending. -/
theorem text_cases (key : SortKey) :
    key.direction = .ascending ∧ key.text.toList = key.field.text.toList ∨
      key.direction = .descending ∧
        key.text.toList = key.field.text.toList ++ ' ' :: "desc".toList := by
  rw [text]
  cases key.direction with
  | ascending => exact .inl ⟨rfl, rfl⟩
  | descending => exact .inr ⟨rfl, by simp [toString]⟩

/-- A key that can be shown in a specification: it sorts by the natural order, and its path has a
text without commas and white space. A path is always one that was read. -/
structure IsPlain (key : SortKey) : Prop where
  natural : key.comparer = none
  read : ∃ path, key.field = .parse path
  some : key.field.text ≠ ""
  whole : ∀ c ∈ key.field.text.toList, c ≠ ',' ∧ isBlank c = false

namespace IsPlain

theorem tokens_field (h : key.IsPlain) : tokens key.field.text.toList = [key.field.text.toList] :=
  tokens_of_visible (fun empty => h.some (String.toList_injective empty)) fun c mem =>
    (h.whole c mem).2

/-- The path is read again from its text. -/
theorem parse_field (h : key.IsPlain) :
    FieldPath.parse (.ofList key.field.text.toList) = key.field := by
  obtain ⟨path, read⟩ := h.read
  rw [String.ofList_toList, read]
  refine FieldPath.parse_eq_of_text_eq ?_
  rw [← read, FieldPath.parse, trim_of_all_not_blank fun c mem => (h.whole c mem).2,
    String.ofList_toList]

/-- The text of a key says the key. -/
theorem said_text (h : key.IsPlain) : Says key.text.toList key := by
  obtain ⟨path, direction, comparer⟩ := key
  obtain rfl : comparer = none := h.natural
  have field : FieldPath.parse (.ofList path.text.toList) = path := h.parse_field
  have word : tokens path.text.toList = [path.text.toList] := h.tokens_field
  rcases text_cases ⟨path, direction, none⟩ with ⟨rfl, text⟩ | ⟨rfl, text⟩
  · have said := Says.path word
    rwa [field, ← text] at said
  · have two : tokens (path.text.toList ++ ' ' :: "desc".toList) =
        [path.text.toList, "desc".toList] := by
      rw [tokens_append_cons rfl, word]
      rfl
    have named : SortDirection.descending.IsNamed "desc".toList :=
      ⟨"desc", List.mem_cons_self, by decide⟩
    have said := Says.directed two named
    rwa [field, ← text] at said

theorem comma_notMem_text (h : key.IsPlain) : ',' ∉ key.text.toList := by
  have field : ',' ∉ key.field.text.toList := fun mem => (h.whole _ mem).1 rfl
  rcases key.text_cases with ⟨-, text⟩ | ⟨-, text⟩
  · rwa [text]
  · rw [text, List.mem_append, not_or]
    exact ⟨field, by decide⟩

end IsPlain

/-- The parts of the text of some keys: every key but the first has a space in front. -/
theorem splitOn_joined (comma : ∀ k ∈ key :: keys, ',' ∉ k.text.toList) :
    (Request.joined ", " ((key :: keys).map text)).toList.splitOn ',' =
      key.text.toList :: keys.map fun k => ' ' :: k.text.toList := by
  have moved : (Request.joined ", " ((key :: keys).map text)).toList =
      join [','] (key.text.toList :: keys.map fun k => ' ' :: k.text.toList) := by
    have moved := join_append [','] [' '] key.text.toList (keys.map (·.text.toList))
    rw [List.map_map] at moved
    rw [Request.joined, String.toList_ofList, List.map_map]
    exact moved
  obtain ⟨first, rest⟩ := List.forall_mem_cons.1 comma
  rw [moved, ← splitOn_eq, splitOn_join (List.cons_ne_nil _ _)]
  refine List.forall_mem_cons.2 ⟨first, List.forall_mem_map.2 fun k mem => ?_⟩
  exact List.not_mem_cons_of_ne_of_not_mem (by decide) (rest k mem)

/-- **The text of plain keys reads back** as the same keys. -/
theorem parseList_joined (plain : ∀ key ∈ keys, key.IsPlain) :
    parseList (Request.joined ", " (keys.map text)) = .ok keys := by
  cases keys with
  | nil => rfl
  | cons key keys =>
    obtain ⟨first, rest⟩ := List.forall_mem_cons.1 plain
    have said : List.Forall₂ Says (key.text.toList :: keys.map fun k => ' ' :: k.text.toList)
        (key :: keys) := by
      refine .cons first.said_text ?_
      rw [List.forall₂_map_left_iff, List.forall₂_same]
      exact fun k mem => (rest k mem).said_text.cons_blank rfl
    have kept : ∀ part ∈ key.text.toList :: keys.map fun k => ' ' :: k.text.toList,
        (!part.all isBlank) = true := by
      intro part mem
      obtain ⟨key, h⟩ := exists_of_mem_forall₂ said mem
      simpa using h.exists_visible
    rw [parseList_eq_ok_iff, splitOn_joined fun k mem => (plain k mem).comma_notMem_text,
      List.filter_eq_self.2 kept]
    exact said

end SortKey

/-! ## The line of a request -/

theorem Request.mem_lineIf {condition : Bool} {line text : String} :
    text ∈ lineIf condition line ↔ condition = true ∧ text = line := by
  cases condition <;> simp [lineIf]

/-- A request shows its sort keys, if it has any, on the one line that begins with `sort`. -/
theorem Request.mem_summary_sort {q : Request} {text : String} :
    "sort: " ++ text ∈ q.summary ↔
      q.sort ≠ [] ∧ text = joined ", " (q.sort.map SortKey.text) := by
  have other {line : String} (h : line.toList.take 2 ≠ ['s', 'o']) : "sort: " ++ text ≠ line := by
    rintro rfl
    simp at h
  have filter (count joiner : String) : "sort: " ++ text ≠
      s!"filter: {count} clause(s) joined by {joiner}" :=
    other (by simp [toString])
  have search (clause : SearchClause) : searchLine clause ≠ "sort: " ++ text :=
    (other (by simp [searchLine, toString])).symm
  have distinct (field : String) : s!"distinct: {field}" ≠ "sort: " ++ text :=
    (other (by simp [toString])).symm
  have page : "sort: " ++ text ≠ q.pageLine := other (by simp [pageLine, toString])
  have group : "sort: " ++ text ≠ q.groupLine := other (by simp [groupLine, toString])
  have aggregates (labels : String) : "sort: " ++ text ≠ "aggregates: " ++ labels :=
    other (by simp)
  have count : "sort: " ++ text ≠ "count: yes" := other (by simp)
  simp only [summary, List.mem_append, mem_lineIf, List.mem_map, filter, search, distinct, page,
    group, aggregates, count, and_false, exists_false, false_or, or_false, Bool.not_eq_true',
    List.isEmpty_eq_false_iff, String.append_right_inj]

namespace SortKey

/-- **Specifications read back.** A request shows plain sort keys on one line, and the specification
there is read as exactly these keys, in order. A specification is read exactly if every part between
its commas has two words at most and the second one is the name of a direction, in any case. The
keys are then what its parts say one after the other, where blank parts are skipped. -/
theorem specification_reads_back :
    (∀ q : Request, (∀ key ∈ q.sort, key.IsPlain) →
      let shown := Request.joined ", " (q.sort.map text)
      (∀ spec, "sort: " ++ spec ∈ q.summary ↔ q.sort ≠ [] ∧ spec = shown) ∧
        parseList shown = .ok q.sort) ∧
    ∀ spec : String,
      let parts := spec.toList.splitOn ','
      ((∃ keys, parseList spec = .ok keys) ↔ ∀ part ∈ parts, IsReadable part) ∧
        ∀ keys, parseList spec = .ok keys ↔
          List.Forall₂ Says (parts.filter fun part => !part.all isBlank) keys := by
  constructor
  · intro q plain
    exact ⟨fun _ => Request.mem_summary_sort, parseList_joined plain⟩
  · intro spec
    exact ⟨exists_parseList_iff, fun _ => parseList_eq_ok_iff⟩

/-- Two keys are shown between a search and a page, and read back from their line. A direction may
be in capitals and parts may be blank, but no third word is read. -/
theorem specification_reads_back_of_two :
    let customer : SortKey := { field := .parse "CustomerID" }
    let city : SortKey := { field := .parse "Address.ShipCity", direction := .descending }
    let q : Request := {
      search := [⟨["Note"], .string "sort", .contains, true⟩]
      sort := [customer, city]
      take := some 5 }
    (∀ key ∈ q.sort, key.IsPlain) ∧
      "sort: CustomerID, Address.ShipCity desc" ∈ q.summary ∧
      parseList "CustomerID, Address.ShipCity desc" = .ok q.sort ∧
      parseList " Address.ShipCity  DESC,, " = .ok [city] ∧
      ¬ ∃ keys, parseList "CustomerID desc first" = .ok keys := by
  intro customer city q
  have whole (path : List Char) (h : path.all (fun c => c != ',' && !isBlank c) = true) :
      ∀ c ∈ path, c ≠ ',' ∧ isBlank c = false := by
    simpa using h
  have plain : ∀ key ∈ q.sort, key.IsPlain := by
    refine List.forall_mem_cons.2 ⟨?_, List.forall_mem_singleton.2 ?_⟩
    · exact ⟨rfl, ⟨_, rfl⟩, by decide, whole _ (by decide)⟩
    · exact ⟨rfl, ⟨_, rfl⟩, by decide, whole _ (by decide)⟩
  obtain ⟨back, accepted⟩ := specification_reads_back
  obtain ⟨line, read⟩ := back q plain
  have shown : Request.joined ", " (q.sort.map text) = "CustomerID, Address.ShipCity desc" := by
    decide
  refine ⟨plain, (line _).2 ⟨List.cons_ne_nil _ _, shown.symm⟩, shown ▸ read, ?_, ?_⟩
  · have parts : (" Address.ShipCity  DESC,, ".toList.splitOn ',').filter (fun part =>
        !part.all isBlank) = [" Address.ShipCity  DESC".toList] := by
      decide
    have two : tokens " Address.ShipCity  DESC".toList =
        ["Address.ShipCity".toList, "DESC".toList] := by
      decide
    have named : SortDirection.descending.IsNamed "DESC".toList :=
      ⟨"desc", List.mem_cons_self, by decide⟩
    exact ((accepted _).2 _).2 (parts ▸ .cons (.directed two named) .nil)
  · rw [(accepted _).1]
    intro readable
    have few := (readable "CustomerID desc first".toList (by decide)).few
    exact absurd few (by decide)

end SortKey

end RecordQuery
