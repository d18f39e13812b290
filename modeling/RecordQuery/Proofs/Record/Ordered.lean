import RecordQuery.Proofs.Value.Ordered
import RecordQuery.Record.Write

/-!
# Records in order

Wherever a record holds objects, their fields are in order. Writing keeps it so.

* `Record.Ordered` says so;
* `Record.Ordered.nested`: a record inside an ordered record is ordered;
* `Record.setNested_self`: in an ordered record, putting a record back where it was found changes
  nothing;
* `Shape.ordered_blank` and `Record.Ordered.set`: blank records are ordered, and stay so whatever
  ordered values are written into them.
-/

namespace RecordQuery

/-- Whatever objects a record holds, their fields ascend. The entries of a hash have no order, and
the members of a structure keep that of its shape. -/
inductive Record.Ordered : Record → Prop
  | value {v : Value} : v.Ordered → Ordered (.value v)
  | table {fields : Fields Value} : (Value.object fields).Ordered → Ordered (.table fields)
  | hash {entries : Fields Value} : (∀ field ∈ entries, field.2.Ordered) → Ordered (.hash entries)
  | json {j : Json} : j.Ordered → Ordered (.json j)
  | dynamic (members : Fields Value) : Ordered (.dynamic members)
  | list {items : List Record} : (∀ r ∈ items, Ordered r) → Ordered (.list items)
  | shaped {name : String} {slots : Fields Slot} :
    (∀ slot ∈ slots, ∀ r, slot.2.nested? = some r → Ordered r) → Ordered (.shaped name slots)

variable {name : String}

/-! ## Children in order -/

theorem Value.Ordered.member {v child : Value} (h : v.Ordered)
    (found : v.member? name = some child) : child.Ordered := by
  cases v with
  | list items =>
    obtain ⟨i, -, found⟩ := Option.bind_eq_some_iff.1 found
    exact h.of_list child (List.mem_of_getElem? found)
  | object fields => exact h.of_object.2 _ (Fields.mem_of_get? found)
  | _ => cases found

theorem Json.Ordered.child {j child : Json} (h : j.Ordered)
    (found : Record.jsonChild? name j = some child) : child.Ordered := by
  cases j with
  | array items =>
    obtain ⟨i, -, found⟩ := Option.bind_eq_some_iff.1 found
    exact h.of_array child (List.mem_of_getElem? found)
  | object members => exact h.of_object.2 _ (Fields.mem_of_get? found)
  | _ => cases found

theorem Slot.setNested_self {slot : Slot} {child : Record} (h : slot.nested? = some child) :
    slot.setNested child = slot := by
  cases slot with
  | scalar type v => cases h
  | choice descriptor nullable closed number => cases h
  | nested shape typed assignable record => rw [Slot.setNested, ← h, Slot.nested?]
  | records items =>
    obtain rfl := Option.some.inj h
    rfl

theorem Shape.ordered_blank (shape : Shape) : shape.blank.Ordered := by
  refine .shaped fun slot mem r held => ?_
  obtain ⟨⟨name, member⟩, -, rfl⟩ := List.mem_map.1 mem
  cases member with
  | records =>
    obtain rfl := Option.some.inj held
    exact .list (by simp)
  | _ => cases held

namespace Record

variable {r child : Record}

theorem ofContainer?_eq_some {v : Value} (h : ofContainer? v = some child) : child = .value v := by
  rw [ofContainer?] at h
  split at h
  · exact (Option.some.inj h).symm
  · cases h

theorem nested_json {j : Json} (h : (Record.json j).nested? name = some child) :
    ∃ inner, jsonChild? name j = some inner ∧ child = .json inner := by
  obtain ⟨inner, found, h⟩ := Option.bind_eq_some_iff.1 h
  split at h
  · exact ⟨inner, found, (Option.some.inj h).symm⟩
  · cases h

/-- A record inside an ordered record is ordered. -/
theorem Ordered.nested (h : r.Ordered) (held : r.nested? name = some child) : child.Ordered := by
  cases h with
  | value ordered =>
    obtain ⟨v, found, h⟩ := Option.bind_eq_some_iff.1 held
    exact ofContainer?_eq_some h ▸ .value (ordered.member found)
  | table ordered =>
    obtain ⟨v, found, h⟩ := Option.bind_eq_some_iff.1 held
    exact ofContainer?_eq_some h ▸ .value (ordered.member found)
  | hash fields =>
    obtain ⟨v, found, h⟩ := Option.bind_eq_some_iff.1 held
    exact ofContainer?_eq_some h ▸ .value (fields _ (Fields.mem_of_get? found))
  | json ordered =>
    obtain ⟨inner, found, rfl⟩ := nested_json held
    exact .json (ordered.child found)
  | dynamic => cases held
  | list items =>
    obtain ⟨i, -, found⟩ := Option.bind_eq_some_iff.1 held
    exact items child (List.mem_of_getElem? found)
  | shaped slots =>
    obtain ⟨slot, listed, found⟩ := Option.bind_eq_some_iff.1 held
    exact slots _ (Fields.mem_of_get? listed) child found

/-! ## Putting a record back -/

theorem setItem?_self {α : Type} {items : List α} {item : α}
    (h : (readIndex? name).bind (items[·]?) = some item) :
    setItem? name item items = some items := by
  obtain ⟨i, index, found⟩ := Option.bind_eq_some_iff.1 h
  obtain ⟨bound, rfl⟩ := List.getElem?_eq_some_iff.1 found
  rw [setItem?, index, Option.bind_some, if_pos bound, List.set_getElem_self]

/-- Putting a record back where it was found changes nothing. -/
theorem setNested_self (h : r.Ordered) (held : r.nested? name = some child) :
    r.setNested name child = r := by
  cases h with
  | @value v ordered =>
    obtain ⟨inner, found, h⟩ := Option.bind_eq_some_iff.1 held
    obtain rfl := ofContainer?_eq_some h
    cases v with
    | list items => rw [setNested, setItem?_self found, Option.getD_some]
    | object fields => rw [setNested, ordered.of_object.1.insert_eq_self found]
    | _ => cases found
  | table ordered =>
    obtain ⟨v, found, h⟩ := Option.bind_eq_some_iff.1 held
    obtain rfl := ofContainer?_eq_some h
    rw [setNested, ordered.of_object.1.insert_eq_self found]
  | hash =>
    obtain ⟨v, found, h⟩ := Option.bind_eq_some_iff.1 held
    obtain rfl := ofContainer?_eq_some h
    rw [setNested, Fields.put_eq_self found]
  | @json j ordered =>
    obtain ⟨inner, found, rfl⟩ := nested_json held
    cases j with
    | array items => rw [setNested, setItem?_self found, Option.getD_some]
    | object members => rw [setNested, ordered.of_object.1.insert_eq_self found]
    | _ => cases found
  | dynamic => cases held
  | list items => rw [setNested, setItem?_self held, Option.getD_some]
  | shaped slots =>
    obtain ⟨slot, listed, found⟩ := Option.bind_eq_some_iff.1 held
    rw [setNested, listed]
    simp only [Slot.setNested_self found, Fields.put_eq_self listed]

/-! ## Writing keeps order -/

theorem fillGap_eq_ok {α : Type} {isGap : Bool} {a b : α} (h : fillGap name isGap a = .ok b) :
    b = a := by
  cases isGap with
  | true => exact (Except.ok.inj h).symm
  | false => cases h

theorem forall_setItem? {α : Type} {p : α → Prop} {items written : List α} {item : α}
    (h : ∀ other ∈ items, p other) (new : p item) (set : setItem? name item items = some written) :
    ∀ other ∈ written, p other := by
  intro other mem
  obtain ⟨i, -, set⟩ := Option.bind_eq_some_iff.1 set
  split at set
  · obtain rfl := Option.some.inj set
    rcases List.mem_or_eq_of_mem_set mem with old | rfl
    · exact h other old
    · exact new
  · cases set

theorem forall_setItem?_getD {α : Type} {p : α → Prop} {items : List α} {item : α}
    (h : ∀ other ∈ items, p other) (new : p item) :
    ∀ other ∈ (setItem? name item items).getD items, p other := by
  cases set : setItem? name item items with
  | none => exact h
  | some written => exact forall_setItem? h new set

/-- A value that is assigned to a member of a structure is not a record. -/
theorem nested?_of_assign {slot assigned : Slot} {v : Value}
    (h : slot.assign name v = .ok assigned) : assigned.nested? = none := by
  cases slot with
  | scalar type old =>
    rw [Slot.assign] at h
    cases fit : v.fitField type with
    | error e =>
      rw [fit] at h
      cases h
    | ok fitted =>
      rw [fit] at h
      exact Except.ok.inj h ▸ rfl
  | choice descriptor nullable closed number =>
    rw [Slot.assign] at h
    cases choice : Slot.choose descriptor nullable closed v with
    | error e =>
      rw [choice] at h
      cases h
    | ok chosen =>
      rw [choice] at h
      exact Except.ok.inj h ▸ rfl
  | nested shape typed assignable record =>
    rw [Slot.assign] at h
    split at h
    · cases h
    · split at h
      · exact Except.ok.inj h ▸ rfl
      · cases h
  | records items => cases h

theorem ordered_put {title : String} {slots : Fields Slot} {slot : Slot}
    (h : ∀ slot ∈ slots, ∀ r, slot.2.nested? = some r → r.Ordered)
    (new : ∀ r, slot.nested? = some r → r.Ordered) :
    (Record.shaped title (Fields.put name slot slots)).Ordered := by
  refine .shaped fun other mem => ?_
  rcases Fields.mem_put mem with rfl | old
  · exact new
  · exact h other old

theorem Ordered.setMember {v : Value} {written : Record} (h : r.Ordered) (hv : v.Ordered)
    (set : r.setMember name v = .ok written) : written.Ordered := by
  cases h with
  | @value old ordered =>
    cases old with
    | list items =>
      simp only [Record.setMember] at set
      split at set
      · next set' =>
        obtain rfl := Except.ok.inj set
        exact .value (.list (forall_setItem? ordered.of_list hv set'))
      · cases set
    | object fields =>
      obtain rfl := Except.ok.inj set
      exact .value (ordered.insert hv name)
    | _ => cases set
  | table ordered =>
    obtain rfl := Except.ok.inj set
    exact .table (ordered.insert hv name)
  | hash fields =>
    obtain rfl := Except.ok.inj set
    exact .hash (Fields.forall_put fields hv)
  | @json old ordered =>
    cases old with
    | array items =>
      simp only [Record.setMember] at set
      split at set
      · next set' =>
        obtain rfl := Except.ok.inj set
        exact .json (.array (forall_setItem? ordered.of_array hv.toJson set'))
      · cases set
    | object members =>
      obtain rfl := Except.ok.inj set
      exact .json (ordered.insert hv.toJson name)
    | _ => cases set
  | dynamic members =>
    simp only [Record.setMember] at set
    split at set
    · cases set
    · exact Except.ok.inj set ▸ .dynamic _
  | list items => cases set
  | @shaped title slots ordered =>
    simp only [Record.setMember] at set
    split at set
    · cases set
    · next slot listed =>
      cases assigned : slot.assign name v with
      | error e => simp [assigned, Except.map] at set
      | ok new =>
        simp only [assigned, Except.map, Except.ok.injEq] at set
        subst set
        exact ordered_put ordered fun r held => by simp [nested?_of_assign assigned] at held

theorem Ordered.materialize {made : Record} (h : r.Ordered)
    (making : r.materialize name = .ok made) : made.Ordered := by
  have empty : (Value.object []).Ordered := .object .nil (by simp)
  cases h with
  | @value old ordered =>
    cases old with
    | object fields =>
      obtain rfl := fillGap_eq_ok making
      exact .value (ordered.insert empty name)
    | _ => cases making
  | table ordered =>
    obtain rfl := fillGap_eq_ok making
    exact .table (ordered.insert empty name)
  | hash fields =>
    obtain rfl := fillGap_eq_ok making
    exact .hash (Fields.forall_put fields empty)
  | @json old ordered =>
    cases old with
    | object members =>
      obtain rfl := fillGap_eq_ok making
      exact .json (ordered.insert (.object .nil (by simp)) name)
    | _ => cases making
  | dynamic members => cases making
  | list items => cases making
  | @shaped title slots ordered =>
    simp only [Record.materialize] at making
    split at making
    · next made made' =>
      obtain rfl := Except.ok.inj making
      obtain ⟨old, listed, made'⟩ := Option.bind_eq_some_iff.1 made'
      refine ordered_put ordered fun r held => ?_
      cases old with
      | nested shape typed assignable record =>
        cases record with
        | none =>
          obtain rfl := Option.some.inj made'
          exact Option.some.inj held ▸ shape.ordered_blank
        | some record =>
          obtain rfl := Option.some.inj made'
          exact ordered _ (Fields.mem_of_get? listed) r held
      | _ => cases made'
    · cases making

theorem Ordered.setNested (h : r.Ordered) (hc : child.Ordered) :
    (r.setNested name child).Ordered := by
  cases h with
  | @value old ordered =>
    cases old with
    | list items =>
      cases hc with
      | value hv => exact .value (.list (forall_setItem?_getD ordered.of_list hv))
      | _ => exact .value ordered
    | object fields =>
      cases hc with
      | value hv =>
        exact .value (ordered.insert hv name)
      | _ => exact .value ordered
    | _ => exact .value ordered
  | table ordered =>
    cases hc with
    | value hv => exact .table (ordered.insert hv name)
    | _ => exact .table ordered
  | hash fields =>
    cases hc with
    | value hv => exact .hash (Fields.forall_put fields hv)
    | _ => exact .hash fields
  | @json old ordered =>
    cases old with
    | array items =>
      cases hc with
      | json hj => exact .json (.array (forall_setItem?_getD ordered.of_array hj))
      | _ => exact .json ordered
    | object members =>
      cases hc with
      | json hj =>
        exact .json (ordered.insert hj name)
      | _ => exact .json ordered
    | _ => exact .json ordered
  | dynamic members => exact .dynamic members
  | list items => exact .list (forall_setItem?_getD items hc)
  | @shaped title slots ordered =>
    rw [Record.setNested]
    split
    · next slot listed =>
      refine ordered_put ordered fun r held => ?_
      cases slot with
      | scalar type v => cases held
      | choice descriptor nullable closed number => cases held
      | nested shape typed assignable record => exact Option.some.inj held ▸ hc
      | records items =>
        cases hc with
        | list items' => exact Option.some.inj held ▸ .list items'
        | _ => exact ordered _ (Fields.mem_of_get? listed) r held
    · exact .shaped ordered

theorem Ordered.writeAt {v : Value} (hv : v.Ordered) (leaf : String) (names : List String)
    (h : r.Ordered) : (writeAt v leaf r names).1.Ordered := by
  induction names generalizing r with
  | nil =>
    rw [Record.writeAt]
    split
    · next written set =>
      cases named : r.writableName leaf with
      | error e => simp [named, Except.bind] at set
      | ok key => exact h.setMember hv (by simpa [named, Except.bind] using set)
    · exact h
  | cons name names ih =>
    rw [Record.writeAt]
    split
    · exact h
    · next key named =>
      split
      · exact h
      · next opened opening =>
        have ordered : opened.Ordered := by
          rw [openMember] at opening
          split at opening
          · exact Except.ok.inj opening ▸ h
          · exact h.materialize opening
        split
        · exact ordered
        · next child held => exact ordered.setNested (ih (ordered.nested held))

/-- A write keeps a record in order, and so does a refused one. -/
theorem Ordered.set {v : Value} (h : r.Ordered) (hv : v.Ordered) (path : String) :
    (r.set path v).1.Ordered := by
  simp only [Record.set, write]
  split
  · exact h
  · exact h.writeAt hv _ _

end Record

end RecordQuery
