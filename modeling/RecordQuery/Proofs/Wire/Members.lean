import RecordQuery.Proofs.Json.Documents
import RecordQuery.Wire.Reader
import RecordQuery.Wire.Writer

/-!
# Members of written structures

A structure of a wire request is written with all its members by their names, and what is not set as
null. Its members are read back as they are.

* `Wire.structureMembers?_ofNamed`: the members of a written structure come back in order;
* `Wire.optional?_string`, `Wire.optional?_list` and the others: single members that are read back;
* `Wire.anything?_some`: what may be anything comes back if it is a document, and
  `Wire.isDocument_of_anything?`, what was read is one;
* `Wire.isDocument_ofNamed`: what is written is a document if its members are.
-/

namespace RecordQuery

namespace Wire

/-! ## Structures -/

theorem map_get?_zip {α : Type} {names : List String} {members : List α} (distinct : names.Nodup)
    (same : names.length = members.length) :
    names.map (Fields.get? · (names.zip members)) = members.map some := by
  induction names generalizing members with
  | nil =>
    obtain rfl := List.length_eq_zero_iff.1 same.symm
    rfl
  | cons name names ih =>
    cases members with
    | nil => cases same
    | cons member members =>
      obtain ⟨fresh, rest⟩ := List.nodup_cons.1 distinct
      have tail : names.map (Fields.get? · ((name, member) :: names.zip members)) =
          names.map (Fields.get? · (names.zip members)) := by
        refine List.map_congr_left fun other mem => ?_
        have ne : name ≠ other := by
          rintro rfl
          exact fresh mem
        rw [Fields.get?, if_neg ne]
      rw [List.zip_cons_cons, List.map_cons, List.map_cons, tail, ih rest (Nat.succ.inj same),
        Fields.get?, if_pos rfl]

theorem names_zip {names : List String} {members : List Json}
    (same : names.length = members.length) : Fields.names (names.zip members) = names :=
  List.map_fst_zip (Nat.le_of_eq same)

/-- **The members of a written structure** are read in the order of their names. -/
theorem structureMembers?_ofNamed {names : List String} {members : List Json}
    (distinct : names.Nodup) (same : names.length = members.length) :
    structureMembers? names (ofNamed names members) = some (members.map some) := by
  have pairs : Fields.Distinct (names.zip members) := by
    rwa [Fields.Distinct, names_zip same]
  have once : ¬ (names.any fun name =>
      1 < (Fields.ofList (names.zip members)).countP (·.1 == name)) = true := by
    rw [List.any_eq_true]
    rintro ⟨name, -, twice⟩
    have single : (Fields.names (Fields.ofList (names.zip members))).count name ≤ 1 :=
      List.nodup_iff_count.1 (Fields.sorted_ofList _).distinct name
    rw [Fields.names, List.count_eq_countP, List.countP_map] at single
    exact absurd (of_decide_eq_true twice) (Nat.not_lt.2 single)
  have found : names.map (Fields.get? · (Fields.ofList (names.zip members))) =
      members.map some := by
    rw [← map_get?_zip distinct same]
    exact List.map_congr_left fun name _ => Fields.get?_ofList_of_distinct pairs
  rw [ofNamed, Json.ofMembers, structureMembers?, if_neg once, found]

/-! ## Single members -/

@[simp] theorem optional?_string (given : Option String) :
    optional? readText? (some (ofOption .string given)) = some given := by
  cases given <;> rfl

@[simp] theorem optional?_bool (given : Option Bool) :
    optional? readBool? (some (ofOption .bool given)) = some given := by
  cases given <;> rfl

@[simp] theorem optional?_integer (given : Option Int64) :
    optional? readInt64? (some (ofOption (fun n : Int64 => .integer n.toInt) given)) =
      some given := by
  cases given with
  | none => rfl
  | some n =>
    have own : int64? n.toInt = some n := int64?_eq_some.2 rfl
    rw [ofOption, optional?, readInt64?, own]
    · rfl
    · exact fun null => by cases null

@[simp] theorem flag?_bool (b : Bool) : flag? (some (.bool b)) = some b := rfl

/-- A list is read back if its items are. -/
theorem readList?_array {α : Type} {read : Json → Option α} {write : α → Json} {items : List α}
    (h : ∀ a ∈ items, read (write a) = some a) :
    readList? read (.array (items.map write)) = some items := by
  rw [readList?]
  induction items with
  | nil => rfl
  | cons a items ih =>
    obtain ⟨first, rest⟩ := List.forall_mem_cons.1 h
    rw [List.map_cons, List.mapM_cons, first, ih rest]
    rfl

theorem optional?_list {α : Type} {read : Json → Option α} {write : α → Json}
    {given : Option (List α)} (h : ∀ a ∈ given.getD [], read (write a) = some a) :
    optional? (readList? read) (some (ofOption (fun items => .array (items.map write)) given)) =
      some given := by
  cases given with
  | none => rfl
  | some items => exact congrArg (Option.map some) (readList?_array h)

@[simp] theorem optional?_texts (given : Option (List String)) :
    optional? (readList? readText?) (some (ofOption ofTexts given)) = some given :=
  optional?_list fun _ _ => rfl

theorem exists_of_mem_mapM {α β : Type} {f : α → Option β} {as : List α} {bs : List β} {b : β}
    (h : as.mapM f = some bs) (mem : b ∈ bs) : ∃ a, f a = some b := by
  induction as generalizing bs with
  | nil =>
    cases h
    cases mem
  | cons a as ih =>
    simp only [List.mapM_cons, Option.bind_eq_bind, Option.bind_eq_some_iff] at h
    obtain ⟨first, here, rest, later, made⟩ := h
    cases made
    rcases List.mem_cons.1 mem with rfl | behind
    · exact ⟨a, here⟩
    · exact ih later behind

/-- The items of a list that was read were read one by one. -/
theorem exists_of_mem_optional? {α : Type} {read : Json → Option α} {given : Option Json}
    {items : Option (List α)} {a : α} (h : optional? (readList? read) given = some items)
    (mem : a ∈ items.getD []) : ∃ j, read j = some a := by
  cases given with
  | none =>
    cases h
    cases mem
  | some j =>
    cases j with
    | array written =>
      obtain ⟨list, made, rfl⟩ := Option.map_eq_some_iff.1 h
      exact exists_of_mem_mapM made mem
    | null =>
      cases h
      cases mem
    | _ => cases h

/-- What may be anything comes back as it is, if it is a document. -/
theorem anything?_some {j : Json} (h : j.IsDocument) : anything? (some j) = some j := by
  rw [anything?, Option.getD_some, if_pos h.isReadable, h.ordered.ordered_eq]

theorem isDocument_of_anything? {given : Option Json} {j : Json} (h : anything? given = some j) :
    j.IsDocument := by
  rw [anything?] at h
  split at h
  · next readable =>
    obtain rfl := Option.some.inj h
    exact Json.isDocument_ordered readable
  · cases h

theorem isDocument_ofOption {α : Type} {write : α → Json} {given : Option α}
    (h : ∀ a, given = some a → (write a).IsDocument) : (ofOption write given).IsDocument := by
  cases given with
  | none => exact .null
  | some a => exact h a rfl

theorem isDocument_ofNamed {names : List String} {members : List Json}
    (h : ∀ j ∈ members, j.IsDocument) : (ofNamed names members).IsDocument :=
  .ofMembers fun _ mem => h _ (List.of_mem_zip mem).2

theorem isDocument_ofList {α : Type} {write : α → Json} {given : Option (List α)}
    (h : ∀ a ∈ given.getD [], (write a).IsDocument) :
    (ofOption (fun items => .array (items.map write)) given).IsDocument := by
  refine isDocument_ofOption fun items same => .array (List.forall_mem_map.2 ?_)
  rwa [same] at h

theorem isDocument_texts (given : Option (List String)) : (ofOption ofTexts given).IsDocument :=
  isDocument_ofList fun s _ => .string s

theorem isDocument_string (given : Option String) : (ofOption .string given).IsDocument :=
  isDocument_ofOption fun s _ => .string s

theorem isDocument_bool (given : Option Bool) : (ofOption .bool given).IsDocument :=
  isDocument_ofOption fun b _ => .bool b

end Wire

end RecordQuery
