import RecordQuery.Proofs.Json.Documents
import RecordQuery.Proofs.Number.Roundings

/-!
# Documents that values hold

A document that was read has integers from `-2 ^ 63` to `2 ^ 64 - 1` and finite numbers of 64 bits,
and its objects are in order. Its value holds all of it but the integers from `2 ^ 63` on, which
become the nearest numbers of 64 bits.

* `Json.Received`: documents as they are read, with the integers below a bound;
* `Json.received_of_read?`: what is read is such a document;
* `Json.narrowed` and `Value.toJson_ofJson`: the document of the value of a document;
* `Json.Received.narrowed_eq_self`: it is the document itself without large integers.
-/

namespace RecordQuery

/-! ## Documents that were read -/

namespace Json

/-- A document with integers of 64 bits below a bound and finite numbers of 64 bits, and with the
members of every object in order. -/
inductive Received (bound : ℤ) : Json → Prop
  | null : Received bound .null
  | bool (b : Bool) : Received bound (.bool b)
  | integer {n : ℤ} : -0x8000000000000000 ≤ n → n < bound → Received bound (.integer n)
  | double {x : Double} : x.isFinite = true → Received bound (.double x)
  | string (s : String) : Received bound (.string s)
  | array {items : List Json} : (∀ j ∈ items, Received bound j) → Received bound (.array items)
  | object {members : Fields Json} :
    Fields.Sorted members → (∀ member ∈ members, Received bound member.2) →
      Received bound (.object members)

/-- One more than the greatest integer that is read. -/
def integerBound : ℤ := 0x10000000000000000

variable {bound : ℤ} {j : Json} {cs rest : List Char} {items : List Json} {members : Fields Json}
  {depth fuel : ℕ}

theorem Received.ordered (h : j.Received bound) : j.Ordered := by
  induction h with
  | null | bool | integer | double | string => exact .leaf rfl
  | array _ ih => exact .array ih
  | object sorted _ ih => exact .object sorted ih

theorem received_ofDigits {negative : Bool} {n : ℕ}
    (value : (ofDigits negative n).isReadable = true) :
    (ofDigits negative n).ordered.Received integerBound := by
  unfold ofDigits at value ⊢
  unfold integerBound
  cases negative with
  | true =>
    rw [if_pos rfl] at value ⊢
    split
    · exact .integer (by omega) (by omega)
    · next large =>
      rw [if_neg large] at value
      exact .double value
  | false =>
    rw [if_neg Bool.false_ne_true] at value ⊢
    split
    · next small =>
      have less : n < 0x10000000000000000 := small
      exact .integer (by omega) (by omega)
    · next large =>
      rw [if_neg large] at value
      exact .double value

theorem received_of_readNumber? (h : readNumber? cs = some (j, rest))
    (value : j.isReadable = true) :
    j.ordered.Received integerBound := by
  unfold readNumber? at h
  simp only [Option.bind_eq_bind] at h
  obtain ⟨⟨whole, _⟩, -, h⟩ := Option.bind_eq_some_iff.1 h
  obtain ⟨⟨places, _⟩, -, h⟩ := Option.bind_eq_some_iff.1 h
  obtain ⟨⟨power, _⟩, -, h⟩ := Option.bind_eq_some_iff.1 h
  obtain ⟨rfl, -⟩ := Prod.mk.inj (Option.some.inj h)
  cases places with
  | some digits => exact .double value
  | none =>
    cases power with
    | some exponent => exact .double value
    | none => exact received_ofDigits value

/-- A container that has a value is not nested too deeply. -/
theorem within_eq (value : (within depth j).isReadable = true) : within depth j = j := by
  unfold within at value ⊢
  split
  · next deep =>
    rw [if_pos deep] at value
    cases value
  · rfl

theorem readWord?_eq {word : String} {k : Json} (h : readWord? word k cs = some (j, rest)) :
    j = k := by
  unfold readWord? at h
  split at h
  · exact (Prod.mk.inj (Option.some.inj h)).1.symm
  · cases h

/-- Members are kept when all of their names have a text. -/
theorem withMember_eq_some {name : Option (List Char)} {others : Option (Fields Json)}
    (h : withMember name j others = some members) :
    ∃ name' others', others = some others' ∧ members = (name', j) :: others' := by
  obtain ⟨name, -, h⟩ := Option.bind_eq_some_iff.1 h
  obtain ⟨others, found, same⟩ := Option.map_eq_some_iff.1 h
  exact ⟨.ofList name, others, found, same.symm⟩

theorem received_array (h : ∀ j ∈ items, j.isReadable = true → j.ordered.Received bound)
    (value : (within depth (.array items)).isReadable = true) :
    (within depth (.array items)).ordered.Received bound := by
  have shallow := within_eq value
  rw [shallow] at value ⊢
  rw [Json.ordered, orderedItems_eq_map]
  refine .array (List.forall_mem_map.2 fun j mem => h j mem ?_)
  exact areReadable_iff.1 value j mem

theorem received_object (h : ∀ member ∈ members, member.2.isReadable = true →
      member.2.ordered.Received bound)
    (value : (within depth (.object members)).isReadable = true) :
    (within depth (.object members)).ordered.Received bound := by
  have shallow := within_eq value
  rw [shallow] at value ⊢
  rw [Json.ordered, orderedMembers_eq_map]
  refine .object (Fields.sorted_ofList _) (Fields.forall_ofList (List.forall_mem_map.2 ?_))
  exact fun member mem => h member mem (haveReadable_iff.1 value member mem)

/-- What the readers read with some fuel becomes such a document when it is put in order, if all of
its parts have values. -/
structure ReadersReceive (fuel : ℕ) : Prop where
  value : ∀ depth cs j rest, readValue? depth fuel cs = some (j, rest) → j.isReadable = true →
    j.ordered.Received integerBound
  items : ∀ depth cs items rest, readItems? depth fuel cs = some (items, rest) →
    ∀ j ∈ items, j.isReadable = true → j.ordered.Received integerBound
  members : ∀ depth cs members rest, readMembers? depth fuel cs = some (some members, rest) →
    ∀ member ∈ members, member.2.isReadable = true → member.2.ordered.Received integerBound

/-- A value read with one more unit of fuel: a leaf, or a container of what the other readers read.
-/
theorem ReadersReceive.value_succ (ih : ReadersReceive fuel)
    (h : readValue? depth (fuel + 1) cs = some (j, rest)) (value : j.isReadable = true) :
    j.ordered.Received integerBound := by
  unfold readValue? at h
  split at h
  · obtain ⟨⟨text, _⟩, -, same⟩ := Option.map_eq_some_iff.1 h
    obtain ⟨rfl, -⟩ := Prod.mk.inj same
    cases text with
    | none => cases value
    | some text => exact .string _
  · split at h
    · obtain ⟨rfl, -⟩ := Prod.mk.inj (Option.some.inj h)
      exact received_array nofun value
    · obtain ⟨⟨items, _⟩, read, same⟩ := Option.map_eq_some_iff.1 h
      obtain ⟨rfl, -⟩ := Prod.mk.inj same
      exact received_array (ih.items _ _ _ _ read) value
  · split at h
    · obtain ⟨rfl, -⟩ := Prod.mk.inj (Option.some.inj h)
      exact received_object nofun value
    · obtain ⟨⟨members, _⟩, read, same⟩ := Option.map_eq_some_iff.1 h
      obtain ⟨rfl, -⟩ := Prod.mk.inj same
      cases members with
      | none =>
        rw [within_eq value] at value
        cases value
      | some members => exact received_object (ih.members _ _ _ _ read) value
  · exact readWord?_eq h ▸ .bool true
  · exact readWord?_eq h ▸ .bool false
  · exact readWord?_eq h ▸ .null
  · exact received_of_readNumber? h value

theorem ReadersReceive.items_succ (ih : ReadersReceive fuel)
    (h : readItems? depth (fuel + 1) cs = some (items, rest)) :
    ∀ j ∈ items, j.isReadable = true → j.ordered.Received integerBound := by
  unfold readItems? at h
  obtain ⟨⟨item, _⟩, first, h⟩ := Option.bind_eq_some_iff.1 h
  have here := ih.value _ _ _ _ first
  dsimp only at h
  split at h
  · obtain ⟨rfl, -⟩ := Prod.mk.inj (Option.some.inj h)
    exact List.forall_mem_cons.2 ⟨here, nofun⟩
  · obtain ⟨⟨others, _⟩, read, same⟩ := Option.map_eq_some_iff.1 h
    obtain ⟨rfl, -⟩ := Prod.mk.inj same
    exact List.forall_mem_cons.2 ⟨here, ih.items _ _ _ _ read⟩
  · cases h

theorem ReadersReceive.members_succ (ih : ReadersReceive fuel)
    (h : readMembers? depth (fuel + 1) cs = some (some members, rest)) :
    ∀ member ∈ members, member.2.isReadable = true → member.2.ordered.Received integerBound := by
  unfold readMembers? at h
  split at h
  · obtain ⟨⟨name, _⟩, -, h⟩ := Option.bind_eq_some_iff.1 h
    dsimp only at h
    split at h
    · obtain ⟨⟨value, _⟩, first, h⟩ := Option.bind_eq_some_iff.1 h
      have here := ih.value _ _ _ _ first
      dsimp only at h
      split at h
      · obtain ⟨same, -⟩ := Prod.mk.inj (Option.some.inj h)
        obtain ⟨_, others, none, rfl⟩ := withMember_eq_some same
        obtain rfl := Option.some.inj none
        exact List.forall_mem_cons.2 ⟨here, nofun⟩
      · obtain ⟨⟨others, _⟩, read, same⟩ := Option.map_eq_some_iff.1 h
        obtain ⟨same, -⟩ := Prod.mk.inj same
        obtain ⟨_, others, rfl, rfl⟩ := withMember_eq_some same
        exact List.forall_mem_cons.2 ⟨here, ih.members _ _ _ _ read⟩
      · cases h
    · cases h
  · cases h

theorem readersReceive (fuel : ℕ) : ReadersReceive fuel := by
  induction fuel with
  | zero => exact ⟨nofun, nofun, nofun⟩
  | succ fuel ih =>
    exact ⟨fun _ _ _ _ => ih.value_succ, fun _ _ _ _ => ih.items_succ,
      fun _ _ _ _ => ih.members_succ⟩

/-- **What is read** is such a document. -/
theorem received_of_read? {text : String} (h : read? text = some j) : j.Received integerBound := by
  obtain ⟨raw, found, rfl⟩ := Option.map_eq_some_iff.1 h
  obtain ⟨read, value⟩ := Option.filter_eq_some_iff.1 found
  obtain ⟨⟨part, _⟩, first, h⟩ := Option.bind_eq_some_iff.1 read
  dsimp only at h
  split at h
  · obtain rfl := Option.some.inj h
    exact (readersReceive _).value _ _ _ _ first value
  · cases h

/-! ## What a value holds -/

mutual

/-- A document with the integers from `2 ^ 63` on as the nearest numbers of 64 bits. -/
def narrowed : Json → Json
  | .integer n => if n < 0x8000000000000000 then .integer n else .double (.ofInt .double n)
  | .array items => .array (narrowedItems items)
  | .object members => .object (narrowedMembers members)
  | j => j

def narrowedItems : List Json → List Json
  | [] => []
  | item :: items => item.narrowed :: narrowedItems items

def narrowedMembers : List (String × Json) → List (String × Json)
  | [] => []
  | (name, value) :: members => (name, value.narrowed) :: narrowedMembers members

end

theorem narrowedItems_eq_map (items : List Json) : narrowedItems items = items.map narrowed := by
  induction items with
  | nil => rfl
  | cons item items ih => rw [narrowedItems, ih, List.map_cons]

theorem narrowedMembers_eq_map (members : Fields Json) :
    narrowedMembers members = members.map fun member => (member.1, member.2.narrowed) := by
  induction members with
  | nil => rfl
  | cons member members ih => rw [narrowedMembers, ih, List.map_cons]

/-- Without large integers a document stays as it is. -/
theorem Received.narrowed_eq_self (h : j.Received 0x8000000000000000) : j.narrowed = j := by
  induction h with
  | null | bool | double | string => rfl
  | integer _ less => exact if_pos less
  | array _ ih =>
    rw [narrowed, narrowedItems_eq_map, List.map_congr_left ih, List.map_id']
  | object _ _ ih =>
    rw [narrowed, narrowedMembers_eq_map]
    refine congrArg Json.object ((List.map_congr_left fun member mem => ?_).trans (List.map_id _))
    exact Prod.ext rfl (ih member mem)

end Json

namespace Value

open Json

/-- The number of 64 bits for a large integer is finite. -/
theorem isFinite_ofInt {n : ℤ} (low : 0x8000000000000000 ≤ n) (high : n < integerBound) :
    (Binary.ofInt .double n).isFinite = true := by
  obtain ⟨k, rfl⟩ := Int.eq_ofNat_of_zero_le (show 0 ≤ n by omega)
  have less : k ≤ 2 ^ 100 := by
    unfold integerBound at high
    omega
  obtain ⟨q, ⟨units, held, same, -⟩, -⟩ := Binary.reaches_ofNat_of_le less
  rw [same]
  rfl

theorem toJson_float64 {x : Double} (finite : x.isFinite = true) :
    (float64 x).toJson = .double x := by
  rw [toJson, toDocument, widened, if_pos finite]

theorem toJson_list (items : List Value) : (list items).toJson = .array (items.map toJson) := by
  rw [toJson, toDocument, documents_eq_map, widened, widenedItems_eq_map, List.map_map]
  rfl

theorem toJson_object (fields : Fields Value) :
    (object fields).toJson = .object (fields.map fun field => (field.1, field.2.toJson)) := by
  rw [toJson, toDocument, memberDocuments_eq_map, widened, widenedMembers_eq_map, List.map_map]
  rfl

/-- **The document of the value of a document** is that document, but for large integers. -/
theorem toJson_ofJson {j : Json} (h : j.Received integerBound) :
    (ofJson j).toJson = j.narrowed := by
  induction h with
  | null | bool | string => rfl
  | @integer n low high =>
    rw [ofJson, narrowed]
    split
    · next m fits =>
      have value := int64?_eq_some.1 fits
      rw [if_pos (by have := m.toInt_lt; omega)]
      exact congrArg Json.integer value
    · next out =>
      have large : ¬ n < 0x8000000000000000 := fun less => by
        rw [int64?, if_pos ⟨low, less⟩] at out
        cases out
      rw [if_neg large, toJson_float64 (isFinite_ofInt (by omega) high)]
  | double finite => exact toJson_float64 finite
  | @array items _ ih =>
    rw [ofJson, ofItems_eq_map, toJson_list, narrowed, narrowedItems_eq_map, List.map_map]
    exact congrArg Json.array (List.map_congr_left ih)
  | @object members sorted _ ih =>
    have same : Fields.ofList (members.map fun member => (member.1, ofJson member.2)) =
        members.map fun member => (member.1, ofJson member.2) :=
      Fields.ofList_eq_of_perm (sorted.map _) (.refl _)
    rw [ofJson, ofMembers_eq_map, same, toJson_object, narrowed, narrowedMembers_eq_map,
      List.map_map]
    exact congrArg Json.object (List.map_congr_left fun member mem => Prod.ext rfl (ih member mem))

end Value

end RecordQuery
