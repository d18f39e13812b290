import RecordQuery.Proofs.Record.Members

/-!
# Records inside a record, before and after a write

Where a write goes on inside a record, it opens a member, which makes a record there if there is
none, and puts the record back when it is done. This changes the member and no other.

* `Record.changedAt_openMember`, `Record.changedTo_setNested`: all other members are as before;
* `Record.materialize_gap`: what is read where a record is made.
-/

namespace RecordQuery.Record

variable {r w child written opened : Record} {key other : String}

/-! ## Making a record at a member -/

theorem isGap_of_fillGap {α : Type} {isGap : Bool} {a b : α} (h : fillGap key isGap a = .ok b) :
    isGap = true := by
  cases isGap with
  | true => rfl
  | false => cases h

/-- What is made in a record that is not static: a map without fields, at a member that is null or
missing. -/
theorem materialize_gap (free : r.isStatic = false) (h : r.materialize key = .ok opened) :
    ∀ m, r.member? key = some m → m = .value .null := by
  have value {found : Option Value} (gap : found.all Value.isNull = true) (m : Member)
      (read : found.map memberOfValue = some m) : m = .value .null := by
    obtain ⟨old, rfl, rfl⟩ := Option.map_eq_some_iff.1 read
    cases old <;> first | rfl | cases gap
  cases r with
  | value old =>
    cases old with
    | object fields => exact value (isGap_of_fillGap h)
    | _ => cases h
  | table fields => exact value (isGap_of_fillGap h)
  | hash entries => exact value (isGap_of_fillGap h)
  | json old =>
    cases old with
    | object members =>
      intro m read
      obtain ⟨inner, found, rfl⟩ := Option.map_eq_some_iff.1 read
      have gap := isGap_of_fillGap h
      have listed : Fields.get? key members = some inner := found
      rw [listed] at gap
      cases inner <;> first | rfl | cases gap
    | _ => cases h
  | dynamic members => cases h
  | list items | shaped title slots => cases free

theorem changedAt_materialize (h : r.materialize key = .ok opened) : ChangedAt key r opened := by
  cases r with
  | value old =>
    cases old with
    | object fields =>
      obtain rfl := fillGap_eq_ok h
      exact (ChangedTo.fields _ fields).toChangedAt
    | _ => cases h
  | table fields =>
    obtain rfl := fillGap_eq_ok h
    exact (ChangedTo.table _ fields).toChangedAt
  | hash entries =>
    obtain rfl := fillGap_eq_ok h
    exact (ChangedTo.hash _ entries).toChangedAt
  | json old =>
    cases old with
    | object members =>
      obtain rfl := fillGap_eq_ok h
      exact (ChangedTo.members _ members).toChangedAt
    | _ => cases h
  | dynamic members | list items => cases h
  | shaped title slots =>
    simp only [materialize] at h
    split at h
    · next slot made =>
      obtain rfl := Except.ok.inj h
      obtain ⟨old, listed, -⟩ := Option.bind_eq_some_iff.1 made
      exact (ChangedTo.shaped (Option.isSome_of_eq_some listed) slot).toChangedAt
    · cases h

/-- A record with a record inside has a form. -/
theorem Follows.of_nested? (held : r.nested? key = some child) : Follows r r := by
  cases r with
  | value old =>
    cases old with
    | object fields => exact .fields _ _
    | list items => exact .items rfl
    | _ => cases held
  | table fields => exact .table _ _
  | hash entries => exact .hash _ _
  | json old =>
    cases old with
    | object members => exact .members _ _
    | array items => exact .array rfl
    | _ => cases held
  | dynamic members => exact .dynamic _ _
  | list items => exact .list rfl
  | shaped title slots => exact .shaped rfl

/-- **Opening a member** leaves the others. -/
theorem changedAt_openMember (h : r.openMember key = .ok opened) : ChangedAt key r opened := by
  rw [openMember] at h
  split at h
  · next child held => exact Except.ok.inj h ▸ ⟨.of_nested? held, fun _ _ => rfl⟩
  · exact changedAt_materialize h

/-! ## Putting a record back -/

theorem Follows.of_value {v : Value} (h : Follows (.value v) w) :
    ∃ v', w = .value v' ∧ memberOfValue v' = .record (.value v') := by
  cases h <;> exact ⟨_, rfl, rfl⟩

theorem Follows.of_json {j : Json} (h : Follows (.json j) w) :
    ∃ j', w = .json j' ∧ memberOfJson j' = .record (.json j') := by
  cases h <;> exact ⟨_, rfl, rfl⟩

/-- An item at a position that there is can be replaced. -/
theorem setItem?_of_bind {α : Type} {items : List α} {old : α} (item : α)
    (found : (readIndex? key).bind (items[·]?) = some old) :
    ∃ i, readIndex? key = some i ∧ i < items.length ∧
      setItem? key item items = some (items.set i item) := by
  obtain ⟨i, index, found⟩ := Option.bind_eq_some_iff.1 found
  obtain ⟨inside, -⟩ := List.getElem?_eq_some_iff.1 found
  exact ⟨i, index, inside, by rw [setItem?, index, Option.bind_some, if_pos inside]⟩

/-- **Putting a record back** leaves the other members. The member itself is the new record. -/
theorem changedTo_setNested (held : r.nested? key = some child) (same : Follows child w) :
    ChangedTo key (.record w) r (r.setNested key w) := by
  cases r with
  | value old =>
    obtain ⟨inner, found, container⟩ := Option.bind_eq_some_iff.1 held
    obtain rfl := ofContainer?_eq_some container
    obtain ⟨new, rfl, asRecord⟩ := same.of_value
    cases old with
    | object fields => exact asRecord ▸ ChangedTo.fields new fields
    | list items =>
      obtain ⟨i, index, inside, set⟩ := setItem?_of_bind new found
      rw [setNested, set, Option.getD_some]
      exact asRecord ▸ ChangedTo.items index inside new
    | _ => cases found
  | table fields =>
    obtain ⟨inner, found, container⟩ := Option.bind_eq_some_iff.1 held
    obtain rfl := ofContainer?_eq_some container
    obtain ⟨new, rfl, asRecord⟩ := same.of_value
    exact asRecord ▸ ChangedTo.table new fields
  | hash entries =>
    obtain ⟨inner, found, container⟩ := Option.bind_eq_some_iff.1 held
    obtain rfl := ofContainer?_eq_some container
    obtain ⟨new, rfl, asRecord⟩ := same.of_value
    exact asRecord ▸ ChangedTo.hash new entries
  | json old =>
    obtain ⟨inner, found, rfl⟩ := nested_json held
    obtain ⟨new, rfl, asRecord⟩ := same.of_json
    cases old with
    | object members => exact asRecord ▸ ChangedTo.members new members
    | array items =>
      obtain ⟨i, index, inside, set⟩ := setItem?_of_bind new found
      rw [setNested, set, Option.getD_some]
      exact asRecord ▸ ChangedTo.array index inside new
    | _ => cases found
  | dynamic members => cases held
  | list items =>
    obtain ⟨i, index, inside, set⟩ := setItem?_of_bind w held
    rw [setNested, set, Option.getD_some]
    exact ChangedTo.list index inside w
  | shaped title slots =>
    obtain ⟨slot, listed, inside⟩ := Option.bind_eq_some_iff.1 held
    have put : (Record.shaped title slots).setNested key w =
        .shaped title (Fields.put key (slot.setNested w) slots) := by
      rw [setNested, listed]
    have asRecord : slotMember (slot.setNested w) = .record w := by
      cases slot with
      | nested shape typed assignable record => rfl
      | records items =>
        obtain rfl := Option.some.inj inside
        cases same
        rfl
      | _ => cases inside
    rw [put]
    exact asRecord ▸ ChangedTo.shaped (Option.isSome_of_eq_some listed) _

end RecordQuery.Record
