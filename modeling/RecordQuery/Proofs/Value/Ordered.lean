import RecordQuery.Proofs.Fields.Sorted
import RecordQuery.Value.Json

/-!
# Trees in order

Objects hold their fields in the order of their names, in value trees and in documents, at every
depth.

* `Value.Ordered` and `Json.Ordered` say so;
* `Value.Ordered.toJson`: the document of an ordered value is ordered;
* `Value.ordered_ofJson` and `Json.ordered_ordered`: what is read from a document is ordered in any
  case.
-/

namespace RecordQuery

/-- The fields of every object in a value ascend. -/
inductive Value.Ordered : Value → Prop
  | leaf {v : Value} : v.isContainer = false → Ordered v
  | list {items : List Value} : (∀ v ∈ items, Ordered v) → Ordered (.list items)
  | object {fields : Fields Value} :
    Fields.Sorted fields → (∀ field ∈ fields, Ordered field.2) → Ordered (.object fields)

/-- The members of every object in a document ascend. -/
inductive Json.Ordered : Json → Prop
  | leaf {j : Json} : j.isContainer = false → Ordered j
  | array {items : List Json} : (∀ j ∈ items, Ordered j) → Ordered (.array items)
  | object {members : Fields Json} :
    Fields.Sorted members → (∀ member ∈ members, Ordered member.2) → Ordered (.object members)

theorem Value.Ordered.of_list {items : List Value} (h : (Value.list items).Ordered) :
    ∀ v ∈ items, v.Ordered := by
  cases h with
  | leaf scalar => cases scalar
  | list items => exact items

theorem Value.Ordered.of_object {fields : Fields Value} (h : (Value.object fields).Ordered) :
    Fields.Sorted fields ∧ ∀ field ∈ fields, field.2.Ordered := by
  cases h with
  | leaf scalar => cases scalar
  | object sorted fields => exact ⟨sorted, fields⟩

theorem Json.Ordered.of_array {items : List Json} (h : (Json.array items).Ordered) :
    ∀ j ∈ items, j.Ordered := by
  cases h with
  | leaf scalar => cases scalar
  | array items => exact items

theorem Json.Ordered.of_object {members : Fields Json} (h : (Json.object members).Ordered) :
    Fields.Sorted members ∧ ∀ member ∈ members, member.2.Ordered := by
  cases h with
  | leaf scalar => cases scalar
  | object sorted members => exact ⟨sorted, members⟩

theorem Value.Ordered.insert {fields : Fields Value} {v : Value} (h : (Value.object fields).Ordered)
    (hv : v.Ordered) (name : String) : (Value.object (Fields.insert name v fields)).Ordered :=
  .object (h.of_object.1.insert name v) (Fields.forall_insert h.of_object.2 hv)

theorem Json.Ordered.insert {members : Fields Json} {j : Json} (h : (Json.object members).Ordered)
    (hj : j.Ordered) (name : String) : (Json.object (Fields.insert name j members)).Ordered :=
  .object (h.of_object.1.insert name j) (Fields.forall_insert h.of_object.2 hj)

/-! ## Values of documents -/

namespace Value

theorem ofItems_eq_map (items : List Json) : ofItems items = items.map ofJson := by
  induction items with
  | nil => rfl
  | cons item items ih => rw [ofItems, ih, List.map_cons]

theorem ofMembers_eq_map (members : Fields Json) :
    ofMembers members = members.map fun member => (member.1, ofJson member.2) := by
  induction members with
  | nil => rfl
  | cons member members ih => rw [ofMembers, ih, List.map_cons]

mutual

/-- The value of a document is ordered. -/
theorem ordered_ofJson (j : Json) : (ofJson j).Ordered := by
  cases j with
  | integer n =>
    rw [ofJson]
    split <;> exact .leaf rfl
  | array items => exact .list (ordered_ofItems items)
  | object members =>
    refine .object (Fields.sorted_ofList _) (Fields.forall_ofList (ordered_ofMembers members))
  | _ => exact .leaf rfl

theorem ordered_ofItems (items : List Json) : ∀ v ∈ ofItems items, v.Ordered := by
  cases items with
  | nil => simp [ofItems]
  | cons item items =>
    rw [ofItems]
    exact List.forall_mem_cons.2 ⟨ordered_ofJson item, ordered_ofItems items⟩

theorem ordered_ofMembers (members : List (String × Json)) :
    ∀ field ∈ ofMembers members, field.2.Ordered := by
  cases members with
  | nil => simp [ofMembers]
  | cons member members =>
    rw [ofMembers]
    exact List.forall_mem_cons.2 ⟨ordered_ofJson member.2, ordered_ofMembers members⟩

end

end Value

namespace Json

mutual

/-- Putting the members of a document in order puts them in order at every depth. -/
theorem ordered_ordered (j : Json) : j.ordered.Ordered := by
  cases j with
  | array items => exact .array (ordered_orderedItems items)
  | object members =>
    refine .object (Fields.sorted_ofList _) (Fields.forall_ofList (ordered_orderedMembers members))
  | _ => exact .leaf rfl

theorem ordered_orderedItems (items : List Json) : ∀ j ∈ orderedItems items, j.Ordered := by
  cases items with
  | nil => simp [orderedItems]
  | cons item items =>
    rw [orderedItems]
    exact List.forall_mem_cons.2 ⟨ordered_ordered item, ordered_orderedItems items⟩

theorem ordered_orderedMembers (members : List (String × Json)) :
    ∀ member ∈ orderedMembers members, member.2.Ordered := by
  cases members with
  | nil => simp [orderedMembers]
  | cons member members =>
    rw [orderedMembers]
    exact List.forall_mem_cons.2 ⟨ordered_ordered member.2, ordered_orderedMembers members⟩

end

theorem widenedItems_eq_map (items : List Json) : widenedItems items = items.map widened := by
  induction items with
  | nil => rfl
  | cons item items ih => rw [widenedItems, ih, List.map_cons]

theorem widenedMembers_eq_map (members : Fields Json) :
    widenedMembers members = members.map fun member => (member.1, member.2.widened) := by
  induction members with
  | nil => rfl
  | cons member members ih => rw [widenedMembers, ih, List.map_cons]

theorem Ordered.widened {j : Json} (h : j.Ordered) : j.widened.Ordered := by
  induction h with
  | @leaf j scalar =>
    cases j with
    | array items => cases scalar
    | object members => cases scalar
    | single x => exact .leaf (by rw [Json.widened]; split <;> rfl)
    | double x => exact .leaf (by rw [Json.widened]; split <;> rfl)
    | _ => exact .leaf rfl
  | array _ ih =>
    rw [Json.widened, widenedItems_eq_map]
    exact .array (List.forall_mem_map.2 ih)
  | object sorted _ ih =>
    rw [Json.widened, widenedMembers_eq_map]
    exact .object (sorted.map _) (List.forall_mem_map.2 ih)

end Json

/-! ## Documents of values -/

namespace Value

theorem documents_eq_map (items : List Value) : documents items = items.map toDocument := by
  induction items with
  | nil => rfl
  | cons item items ih => rw [documents, ih, List.map_cons]

theorem memberDocuments_eq_map (fields : Fields Value) :
    memberDocuments fields = fields.map fun field => (field.1, field.2.toDocument) := by
  induction fields with
  | nil => rfl
  | cons field fields ih => rw [memberDocuments, ih, List.map_cons]

theorem Ordered.toDocument {v : Value} (h : v.Ordered) : v.toDocument.Ordered := by
  induction h with
  | @leaf v scalar =>
    cases v with
    | list items => cases scalar
    | object fields => cases scalar
    | enum descriptor value => exact .leaf (by rw [Value.toDocument, enumJson]; split <;> rfl)
    | _ => exact .leaf rfl
  | list _ ih =>
    rw [Value.toDocument, documents_eq_map]
    exact .array (List.forall_mem_map.2 ih)
  | object sorted _ ih =>
    rw [Value.toDocument, memberDocuments_eq_map]
    exact .object (sorted.map _) (List.forall_mem_map.2 ih)

/-- The document of an ordered value is ordered. -/
theorem Ordered.toJson {v : Value} (h : v.Ordered) : v.toJson.Ordered := h.toDocument.widened

end Value

end RecordQuery
