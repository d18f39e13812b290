import RecordQuery.Proofs.Group.Classified

/-!
# Nested groups as one partition

Grouping by one field after the other cuts the records once, by the keys of all fields together.

* `Grouping.SameKeys`: the keys of two records agree for every field. These are the records of one
  leaf (`Group.Classifies.members_leaf`);
* `Group.FirstAt` is where a group first occurs among the records, and `Group.Before` the order of
  siblings. What comes first among some records comes first among all (`findIdx_filter_lt`), so the
  cuts above a group do not matter;
* `GroupSet.IsPartitionOf` says what a set of groups is to the records and the keys;
* `Grouping.groupAll_isPartitionOf`: it is what grouping by a list of fields gives.
-/

namespace RecordQuery

/-! ## Lists -/

section Lists

variable {α β : Type}

/-- What comes first among some items comes first among all. -/
theorem findIdx_filter_lt {p q q' : α → Bool} {items : List α}
    (h : (items.filter p).findIdx q < (items.filter p).findIdx q') :
    items.findIdx (fun a => p a && q a) < items.findIdx fun a => p a && q' a := by
  induction items with
  | nil => exact h
  | cons a items ih =>
    rw [List.findIdx_cons, List.findIdx_cons]
    cases kept : p a with
    | false =>
      rw [List.filter_cons_of_neg (by simp [kept])] at h
      simpa only [Bool.false_and, cond_false] using Nat.succ_lt_succ (ih h)
    | true =>
      rw [List.filter_cons_of_pos kept, List.findIdx_cons, List.findIdx_cons] at h
      simp only [Bool.true_and]
      cases first : q a <;> cases other : q' a <;>
        simp only [first, other, cond_true, cond_false] at h ⊢
      · exact Nat.succ_lt_succ (ih (Nat.lt_of_succ_lt_succ h))
      · cases h
      · exact Nat.succ_pos _
      · cases h

/-- An order of items is one of their partners. -/
theorem pairwise_of_forall₂ {R : α → β → Prop} {S : α → α → Prop} {T : β → β → Prop}
    {as : List α} {bs : List β} (h : List.Forall₂ R as bs) (ordered : as.Pairwise S)
    (step : ∀ {a a' b b'}, R a b → R a' b' → S a a' → T b b') : bs.Pairwise T := by
  induction h with
  | nil => exact .nil
  | @cons a b as bs first rest ih =>
    obtain ⟨before, ordered⟩ := List.pairwise_cons.1 ordered
    refine List.pairwise_cons.2 ⟨fun b' mem => ?_, ih ordered⟩
    obtain ⟨a', mem', partner⟩ := Group.exists_part rest mem
    exact step first partner (before a' mem')

theorem exists_mem_iff_of_forall₂ {R : α → β → Prop} {p : α → Prop} {q : β → Prop}
    {as : List α} {bs : List β} (h : List.Forall₂ R as bs) (same : ∀ a b, R a b → (p a ↔ q b)) :
    (∃ a ∈ as, p a) ↔ ∃ b ∈ bs, q b := by
  induction h with
  | nil => simp
  | cons first _ ih =>
    rw [List.exists_mem_cons_iff, List.exists_mem_cons_iff, same _ _ first, ih]

end Lists

/-! ## Reading the invariant -/

namespace Grouping

variable (settings : Settings) (options : GroupOptions)

/-- The keys of two records agree in form and text, for every field. -/
def SameKeys (fields : List String) (r s : Record) : Prop :=
  ∀ field ∈ fields,
    (recordKey settings options field r).tag = (recordKey settings options field s).tag ∧
    (recordKey settings options field r).display = (recordKey settings options field s).display

instance (fields : List String) (r s : Record) : Decidable (SameKeys settings options fields r s) :=
  inferInstanceAs (Decidable (∀ field ∈ fields, _ ∧ _))

variable {settings options} {field : String} {fields : List String} {r s : Record}

theorem sameKeys_cons :
    SameKeys settings options (field :: fields) r s ↔
      recordIdentity settings options field r = recordIdentity settings options field s ∧
        SameKeys settings options fields r s := by
  rw [recordIdentity_eq, recordIdentity_eq, identity_inj]
  exact List.forall_mem_cons

/-- The records of an identity are those that agree with one of them. -/
theorem filter_sameKeys_cons {records : List Record} {key : String}
    (own : recordIdentity settings options field r = key) :
    (ofIdentity settings options field records key).filter (SameKeys settings options fields r) =
      records.filter (SameKeys settings options (field :: fields) r) := by
  rw [ofIdentity, List.filter_filter]
  refine List.filter_congr fun s _ => ?_
  rw [← own, Bool.and_comm, ← Bool.decide_and, decide_eq_decide, sameKeys_cons, eq_comm]

end Grouping

namespace Group

open Grouping

/-- A record is in a leaf below a group. -/
def Holds (g : Group) (r : Record) : Prop := ∃ leaf ∈ g.leaves, r ∈ leaf.members

/-- Where a group first occurs among records: its first record there, and the position. -/
structure FirstAt (records : List Record) (g : Group) (first : Record) (position : Nat) : Prop where
  found : records[position]? = some first
  holds : g.Holds first
  before : ∀ earlier < position, ∀ r, records[earlier]? = some r → ¬ g.Holds r

/-- Of two siblings: their keys differ in form or text, and one first occurs before the other. -/
structure Before (records : List Record) (g h : Group) : Prop where
  apart : ¬ (g.key.tag = h.key.tag ∧ g.key.display = h.key.display)
  lt : ∀ r m s n, g.FirstAt records r m → h.FirstAt records s n → m < n

variable {settings : Settings} {options : GroupOptions} {field : String} {fields : List String}
  {members records : List Record} {g leaf inner : Group} {r : Record} {key : String}

theorem Classifies.holds_iff (h : Classifies settings options field fields members g) :
    g.Holds r ↔ r ∈ members := by
  induction fields generalizing field members g with
  | nil =>
    obtain ⟨-, none, held⟩ := h
    rw [Holds, leaves_of_isLeaf none, held.symm]
    simp
  | cons next fields ih =>
    have below : g.Holds r ↔ ∃ sub ∈ g.subgroups, sub.Holds r := by
      simp only [Holds, leaves_of_subgroups h.subgroups_ne_nil, List.mem_flatMap]
      constructor
      · rintro ⟨leaf, ⟨sub, listed, mem⟩, held⟩
        exact ⟨sub, listed, leaf, mem, held⟩
      · rintro ⟨sub, listed, leaf, mem, held⟩
        exact ⟨leaf, ⟨sub, listed, mem⟩, held⟩
    rw [below, ← exists_mem_iff_of_forall₂ h.2 fun key sub classified => (ih classified).symm]
    simp only [mem_ofIdentity]
    constructor
    · rintro ⟨-, -, mem, -⟩
      exact mem
    · intro mem
      exact ⟨_, recordIdentity_mem mem, mem, rfl⟩

/-- A leaf holds the members that agree with one of its own, in their order. -/
theorem Classifies.members_leaf (h : Classifies settings options field fields members g)
    (mem : leaf ∈ g.leaves) (held : r ∈ leaf.members) :
    leaf.members = members.filter (SameKeys settings options fields r) := by
  induction fields generalizing field members g with
  | nil =>
    obtain ⟨-, none, same⟩ := h
    rw [leaves_of_isLeaf none, List.mem_singleton] at mem
    rw [mem, same]
    exact (List.filter_eq_self.2 fun s _ => by simp [SameKeys]).symm
  | cons next fields ih =>
    rw [leaves_of_subgroups h.subgroups_ne_nil] at mem
    obtain ⟨sub, listed, mem⟩ := List.mem_flatMap.1 mem
    obtain ⟨key, -, classified⟩ := exists_part h.2 listed
    have own : r ∈ ofIdentity settings options next members key :=
      classified.holds_iff.1 ⟨leaf, mem, held⟩
    rw [ih classified mem, filter_sameKeys_cons (mem_ofIdentity.1 own).2]

/-- The members of every group of the tree are some of the members of the first, in their order. -/
theorem Classifies.within (w : Within inner g)
    (h : Classifies settings options field fields members g) :
    ∃ field fields p, Classifies settings options field fields (members.filter p) inner := by
  induction w generalizing field fields members with
  | self => exact ⟨field, fields, fun _ => true, by rwa [List.filter_true]⟩
  | step listed _ ih =>
    cases fields with
    | nil =>
      rw [h.2.1] at listed
      cases listed
    | cons next fields =>
      obtain ⟨key, -, classified⟩ := exists_part h.2 listed
      obtain ⟨field, fields, p, inside⟩ := ih classified
      rw [ofIdentity, List.filter_filter] at inside
      exact ⟨field, fields, _, inside⟩

/-! ## Siblings -/

/-- A position in a list of records that is where a group first occurs. -/
theorem FirstAt.position_eq {q : Record → Bool} {position : Nat}
    (same : ∀ s ∈ records, g.Holds s ↔ q s = true) (h : g.FirstAt records r position) :
    position = records.findIdx q := by
  obtain ⟨found, holds, before⟩ := h
  obtain ⟨inside, rfl⟩ := List.getElem?_eq_some_iff.1 found
  refine ((List.findIdx_eq inside).2 ⟨(same _ (List.getElem_mem inside)).1 holds, ?_⟩).symm
  intro earlier lt
  rw [Bool.eq_false_iff]
  exact fun also => before earlier lt _ (List.getElem?_eq_getElem _)
    ((same _ (List.getElem_mem _)).2 also)

/-- A group occurs among the records where its first member stands. -/
theorem exists_firstAt {q : Record → Bool} (same : ∀ s ∈ records, g.Holds s ↔ q s = true)
    (first : (records.filter q).head? = some r) : ∃ position, g.FirstAt records r position := by
  rw [List.head?_filter, List.find?_eq_some_iff_getElem] at first
  obtain ⟨own, position, inside, rfl, before⟩ := first
  refine ⟨position, List.getElem?_eq_getElem inside, (same _ (List.getElem_mem inside)).2 own, ?_⟩
  intro earlier lt s found holds
  obtain ⟨inside', rfl⟩ := List.getElem?_eq_some_iff.1 found
  have other := before earlier lt
  rw [(same _ (List.getElem_mem inside')).1 holds] at other
  cases other

theorem Classifies.identity_key
    (h : Classifies settings options field fields
      (ofIdentity settings options field members key) g) :
    identity g.key = key := by
  obtain ⟨-, first, listed, key_eq⟩ := h.heads
  rw [key_eq]
  exact (mem_ofIdentity.1 (List.mem_of_head? listed)).2

/-- A group of some members that are cut from the records has the key of the first of its records.
-/
theorem Classifies.key_eq {p : Record → Bool}
    (h : Classifies settings options field fields (records.filter p) g) :
    ∃ first position, g.FirstAt records first position ∧
      g.key = recordKey settings options g.field first := by
  obtain ⟨field_eq, first, listed, key_eq⟩ := h.heads
  have same : ∀ s ∈ records, g.Holds s ↔ p s = true := fun s mem => by
    rw [h.holds_iff, List.mem_filter, and_iff_right mem]
  obtain ⟨position, firstAt⟩ := exists_firstAt same listed
  exact ⟨first, position, firstAt, field_eq ▸ key_eq⟩

/-- **Groups of the identities of one field** have different keys, and stand in the order in which
they first occur among all records, whatever was cut off before. -/
theorem pairwise_before {p : Record → Bool} {gs : List Group}
    (h : List.Forall₂
      (fun key => Classifies settings options field fields
        (ofIdentity settings options field (records.filter p) key))
      (identities settings options field (records.filter p)) gs) :
    gs.Pairwise (Before records) := by
  refine pairwise_of_forall₂ h (pairwise_identities _) fun {a b g g'} own other lt => ?_
  have positions := findIdx_filter_lt lt
  have same {key : String} {g : Group} (h : Classifies settings options field fields
      (ofIdentity settings options field (records.filter p) key) g) :
      ∀ s ∈ records, g.Holds s ↔
        (p s && decide (recordIdentity settings options field s = key)) = true := fun s mem => by
    rw [h.holds_iff, mem_ofIdentity, List.mem_filter, and_iff_right mem, Bool.and_eq_true,
      decide_eq_true_eq]
  constructor
  · rw [← identity_inj, own.identity_key, other.identity_key]
    rintro rfl
    exact lt_irrefl _ lt
  · intro r m s n first second
    rw [first.position_eq (same own), second.position_eq (same other)]
    exact positions

end Group

/-! ## The partition -/

/-- Groups that stand side by side: those of a set, and the subgroups of a group below it. -/
inductive GroupSet.Siblings (set : GroupSet) : List Group → Prop
  | top : Siblings set set.groups
  | below {top g : Group} : top ∈ set.groups → g.Within top → Siblings set g.subgroups

/-- A set of groups cuts the records by their keys for all fields together. -/
structure GroupSet.IsPartitionOf (settings : Settings) (options : GroupOptions)
    (fields : List String) (records : List Record) (set : GroupSet) : Prop where
  /-- There is a level for every field, and every record is held once. -/
  isTree : set.IsTreeOf fields records
  /-- Records are in one leaf if their keys agree for every field. -/
  together_iff : ∀ r ∈ records, ∀ s ∈ records,
    (∃ g ∈ set.groups, ∃ leaf ∈ g.leaves, r ∈ leaf.members ∧ s ∈ leaf.members) ↔
      Grouping.SameKeys settings options fields r s
  /-- A leaf holds all records whose keys agree with those of one of its own, in their order. -/
  members_eq : ∀ g ∈ set.groups, ∀ leaf ∈ g.leaves, ∀ r ∈ leaf.members,
    leaf.members = records.filter (Grouping.SameKeys settings options fields r)
  /-- Siblings have different keys, and stand in the order in which they first occur. -/
  siblings : ∀ gs, set.Siblings gs → gs.Pairwise (Group.Before records)
  /-- The key of a group is the one that its first record has for the field of the group. -/
  key_eq : ∀ gs, set.Siblings gs → ∀ g ∈ gs, ∃ first position,
    g.FirstAt records first position ∧ g.key = Grouping.recordKey settings options g.field first

namespace GroupSet.Classifies

open Grouping

variable {settings : Settings} {options : GroupOptions} {field : String} {fields : List String}
  {records : List Record} {set : GroupSet} {g leaf : Group} {gs : List Group} {r s : Record}

/-- Siblings are the groups of the identities of some field, among some of the records. -/
theorem siblings (h : set.Classifies settings options field fields records)
    (side : set.Siblings gs) :
    ∃ field fields p,
      List.Forall₂
        (fun key => Group.Classifies settings options field fields
          (ofIdentity settings options field (records.filter p) key))
        (identities settings options field (records.filter p)) gs := by
  cases side with
  | top =>
    refine ⟨field, fields, fun _ => true, ?_⟩
    rw [List.filter_true]
    exact h
  | @below top g listed inside =>
    obtain ⟨key, -, classified⟩ := Group.exists_part h listed
    obtain ⟨own, later, p, classified⟩ := classified.within inside
    rw [ofIdentity, List.filter_filter] at classified
    cases later with
    | nil =>
      -- a leaf has no subgroups, which are the groups of no records at all
      refine ⟨own, [], fun _ => false, ?_⟩
      rw [classified.2.1, List.filter_false]
      exact .nil
    | cons next later => exact ⟨next, later, _, classified.2⟩

theorem members_eq (h : set.Classifies settings options field fields records)
    (listed : g ∈ set.groups) (mem : leaf ∈ g.leaves) (held : r ∈ leaf.members) :
    leaf.members = records.filter (SameKeys settings options (field :: fields) r) := by
  obtain ⟨key, -, classified⟩ := Group.exists_part h listed
  have own : r ∈ ofIdentity settings options field records key :=
    classified.holds_iff.1 ⟨leaf, mem, held⟩
  rw [classified.members_leaf mem held, filter_sameKeys_cons (mem_ofIdentity.1 own).2]

theorem together_iff (h : set.Classifies settings options field fields records)
    (hr : r ∈ records) (hs : s ∈ records) :
    (∃ g ∈ set.groups, ∃ leaf ∈ g.leaves, r ∈ leaf.members ∧ s ∈ leaf.members) ↔
      SameKeys settings options (field :: fields) r s := by
  constructor
  · rintro ⟨g, listed, leaf, mem, first, second⟩
    rw [h.members_eq listed mem first, List.mem_filter] at second
    simpa using second.2
  · intro same
    have held : ∃ g ∈ set.groups, g.Holds r :=
      (exists_mem_iff_of_forall₂ h fun _ _ classified => classified.holds_iff.symm).1
        ⟨_, recordIdentity_mem hr, mem_ofIdentity.2 ⟨hr, rfl⟩⟩
    obtain ⟨g, listed, leaf, mem, own⟩ := held
    refine ⟨g, listed, leaf, mem, own, ?_⟩
    rw [h.members_eq listed mem own, List.mem_filter]
    exact ⟨hs, by simpa using same⟩

theorem isPartitionOf (h : set.Classifies settings options field fields records)
    (isTree : set.IsTreeOf (field :: fields) records) :
    set.IsPartitionOf settings options (field :: fields) records where
  isTree := isTree
  together_iff _ hr _ hs := h.together_iff hr hs
  members_eq _ listed _ mem _ held := h.members_eq listed mem held
  siblings gs side := by
    obtain ⟨_, _, p, below⟩ := h.siblings side
    exact Group.pairwise_before below
  key_eq gs side g mem := by
    obtain ⟨own, _, p, below⟩ := h.siblings side
    obtain ⟨key, -, classified⟩ := Group.exists_part below mem
    rw [ofIdentity, List.filter_filter] at classified
    exact classified.key_eq

end GroupSet.Classifies

namespace Grouping

/-- **Nested grouping is one partition.** Two records end in one leaf exactly if their keys agree in
form and text for every field. At every level siblings have different keys and stand in the order in
which they first occur among the records, and a group has the key of its first record. -/
theorem groupAll_isPartitionOf (settings : Settings) (options : GroupOptions)
    (records : List Record) (fields : List String) (types : FieldTypes) :
    (records ≠ [] → fields ≠ [] →
      ∃ set, (groupAll settings options (.records records) fields types).1 = .grouped set ∧
        set.IsPartitionOf settings options fields records) ∧
    (groupAll settings options (.records []) fields types).1 = .records [] := by
  refine ⟨fun some named => ?_, ?_⟩
  · obtain ⟨field, fields, rfl⟩ := List.exists_cons_of_ne_nil named
    obtain ⟨set, result, classified⟩ := classifies_groupAll settings options field fields some types
    rcases groupAll_cases settings options records named types with ⟨none, -⟩ | tree
    · exact absurd none some
    · obtain ⟨same, result', spans⟩ := tree
      obtain rfl : set = same := DataSet.grouped.inj (result.symm.trans result')
      exact ⟨set, result, classified.isPartitionOf spans.isTreeOf⟩
  · rw [groupAll_eq_groupSteps, groupSteps_nil_records]
    rfl

/-- A number in two widths, with and without a text beside it: one group, of two leaves. -/
theorem groupAll_isPartitionOf_two_fields :
    let plain : Record := .table [("A", .int64 1)]
    let noted : Record := .table [("A", .int32 1), ("B", .string "x")]
    ∃ set,
      (groupAll {} {} (.records [plain, noted]) ["A", "B"] { limit := none }).1 = .grouped set ∧
      set.IsPartitionOf {} {} ["A", "B"] [plain, noted] ∧
      ¬ ∃ g ∈ set.groups, ∃ leaf ∈ g.leaves, plain ∈ leaf.members ∧ noted ∈ leaf.members := by
  intro plain noted
  have isPartition := (groupAll_isPartitionOf {} {} [plain, noted] ["A", "B"] { limit := none }).1
  obtain ⟨set, result, partition⟩ := isPartition (by simp) (by simp)
  refine ⟨set, result, partition, ?_⟩
  rw [partition.together_iff plain (by simp) noted (by simp)]
  decide

end Grouping

end RecordQuery
