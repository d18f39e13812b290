import RecordQuery.Json.Reader
import RecordQuery.Proofs.Value.Ordered

/-!
# Documents that are kept

A reader that keeps a document of any shape wants a value for every part of it, and keeps the
members of objects in order.

* `Json.IsDocument`: every part has a value, and all members are in order;
* `Json.IsDocument.ordered_eq` and `Json.isDocument_ordered`: putting a document in order leaves it
  as it is, and makes one of any tree whose parts have values.
-/

namespace RecordQuery.Json

/-- Every part of a document has a value, and the members of every object ascend. -/
structure IsDocument (j : Json) : Prop where
  isReadable : j.isReadable = true
  ordered : j.Ordered

theorem areReadable_iff {items : List Json} :
    areReadable items = true ↔ ∀ j ∈ items, j.isReadable = true := by
  induction items with
  | nil => simp [areReadable]
  | cons item items ih => rw [areReadable, Bool.and_eq_true, ih, List.forall_mem_cons]

theorem haveReadable_iff {members : Fields Json} :
    haveReadable members = true ↔ ∀ member ∈ members, member.2.isReadable = true := by
  induction members with
  | nil => simp [haveReadable]
  | cons member members ih => rw [haveReadable, Bool.and_eq_true, ih, List.forall_mem_cons]

theorem orderedItems_eq_map (items : List Json) : orderedItems items = items.map Json.ordered := by
  induction items with
  | nil => rfl
  | cons item items ih => rw [orderedItems, ih, List.map_cons]

theorem orderedMembers_eq_map (members : Fields Json) :
    orderedMembers members = members.map fun member => (member.1, member.2.ordered) := by
  induction members with
  | nil => rfl
  | cons member members ih => rw [orderedMembers, ih, List.map_cons]

/-- Putting a tree that is in order in order changes nothing. -/
theorem Ordered.ordered_eq {j : Json} (h : j.Ordered) : j.ordered = j := by
  induction h with
  | @leaf j scalar =>
    cases j with
    | array items => cases scalar
    | object members => cases scalar
    | _ => rfl
  | @array items _ ih =>
    have same : items.map Json.ordered = items := List.map_congr_left ih |>.trans (List.map_id _)
    rw [Json.ordered, orderedItems_eq_map, same]
  | @object members sorted _ ih =>
    have same : members.map (fun member => (member.1, member.2.ordered)) = members := by
      refine (List.map_congr_left fun member mem => ?_).trans (List.map_id _)
      exact Prod.ext rfl (ih member mem)
    rw [Json.ordered, orderedMembers_eq_map, same, Fields.ofList_eq_of_perm sorted (.refl _)]

mutual

/-- Putting a tree in order keeps the values of its parts. -/
theorem isReadable_ordered (j : Json) (h : j.isReadable = true) : j.ordered.isReadable = true := by
  cases j with
  | array items =>
    rw [Json.ordered, isReadable, areReadable_iff]
    exact isReadable_orderedItems items (areReadable_iff.1 h)
  | object members =>
    rw [Json.ordered, isReadable, haveReadable_iff]
    exact Fields.forall_ofList (p := fun j : Json => j.isReadable = true)
      (isReadable_orderedMembers members (haveReadable_iff.1 h))
  | _ => exact h

theorem isReadable_orderedItems (items : List Json) (h : ∀ j ∈ items, j.isReadable = true) :
    ∀ j ∈ orderedItems items, j.isReadable = true := by
  cases items with
  | nil => simp [orderedItems]
  | cons item items =>
    obtain ⟨first, rest⟩ := List.forall_mem_cons.1 h
    rw [orderedItems]
    exact List.forall_mem_cons.2
      ⟨isReadable_ordered item first, isReadable_orderedItems items rest⟩

theorem isReadable_orderedMembers (members : List (String × Json))
    (h : ∀ member ∈ members, member.2.isReadable = true) :
    ∀ member ∈ orderedMembers members, member.2.isReadable = true := by
  cases members with
  | nil => simp [orderedMembers]
  | cons member members =>
    obtain ⟨first, rest⟩ := List.forall_mem_cons.1 h
    rw [orderedMembers]
    exact List.forall_mem_cons.2
      ⟨isReadable_ordered member.2 first, isReadable_orderedMembers members rest⟩

end

/-- A tree whose parts have values becomes a document when it is put in order. -/
theorem isDocument_ordered {j : Json} (h : j.isReadable = true) : j.ordered.IsDocument :=
  ⟨isReadable_ordered j h, ordered_ordered j⟩

namespace IsDocument

theorem null : IsDocument .null := ⟨rfl, .leaf rfl⟩

theorem bool (b : Bool) : IsDocument (.bool b) := ⟨rfl, .leaf rfl⟩

theorem integer (n : Int) : IsDocument (.integer n) := ⟨rfl, .leaf rfl⟩

theorem string (s : String) : IsDocument (.string s) := ⟨rfl, .leaf rfl⟩

theorem array {items : List Json} (h : ∀ j ∈ items, j.IsDocument) : IsDocument (.array items) :=
  ⟨areReadable_iff.2 fun j mem => (h j mem).isReadable, .array fun j mem => (h j mem).ordered⟩

theorem ofMembers {members : List (String × Json)} (h : ∀ member ∈ members, member.2.IsDocument) :
    IsDocument (ofMembers members) := by
  have all : ∀ field ∈ Fields.ofList members, field.2.IsDocument := Fields.forall_ofList h
  exact ⟨haveReadable_iff.2 fun field mem => (all field mem).isReadable,
    .object (Fields.sorted_ofList members) fun field mem => (all field mem).ordered⟩

end IsDocument

end RecordQuery.Json
