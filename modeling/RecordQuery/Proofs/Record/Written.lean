import RecordQuery.Proofs.Record.Inside
import RecordQuery.Proofs.Value.Coercion

/-!
# Reading what was written

A write that goes through leaves at its path what its last step has assigned, and all that was read
on the way to it is still there.

* `Record.Wrote` says what a write has done when it went through (`Record.wrote_of_set`);
* `Record.Wrote.exists_owner`: following the names leads to a record in which the last name was
  assigned;
* `Record.get_set_of_tree` and `Record.get_set_of_json`: the value, or its document, is read back;
* `Record.Typed` are the structures that declare a type for each member, and
  `Record.get_set_of_typed` says that in these the value is read back that was fitted to the type.
-/

namespace RecordQuery

/-! ## Fitting a value to a member -/

theorem Value.coerce_of_fitKind {v w : Value} {kind : FieldKind} (h : v.fitKind kind = .ok w) :
    coerce v (.of kind) = .ok w := by
  rw [fitKind] at h
  split at h
  · cases h
  · cases h
  · next fitted coerced =>
    split at h
    · rw [coerced, Except.ok.inj h]
    · cases h

/-- What a typed field takes is the value as it is fitted to the type. -/
theorem Value.coerce_of_fitField {v w : Value} {type : TypeInfo} (h : v.fitField type = .ok w) :
    coerce v type = .ok w := by
  rw [fitField] at h
  split at h
  · split at h
    · cases h
    · next null =>
      obtain rfl := Except.ok.inj h
      exact null
    · next fitted coerced =>
      have again := coerce_of_fitKind h
      rw [coerce_coerce coerced] at again
      rwa [← Except.ok.inj again]
  · exact coerce_of_fitKind h

theorem EnumDescriptor.coerce_of_number {d : EnumDescriptor} {v : Value} {n : Int64}
    (h : d.number v = .ok n) : coerce v (.of (.enum d)) = .ok (.enum d n) := by
  rw [number] at h
  split at h
  · cases h
  · next e m coerced =>
    obtain rfl := Except.ok.inj h
    rcases kind?_of_coerce coerced with ⟨-, null⟩ | ⟨-, ⟨all, -⟩ | own⟩
    · cases null
    · cases all
    · obtain rfl : e = d := FieldKind.enum.inj (Option.some.inj own)
      exact coerced
  · cases h

namespace Slot

/-- The number that a choice takes is that of the value as it is fitted to the enumeration. -/
theorem coerce_of_choose {d : EnumDescriptor} {nullable closed : Bool} {v : Value}
    {number : Option Int64} (h : choose d nullable closed v = .ok number) :
    coerce v ⟨.enum d, nullable⟩ = .ok (choiceValue d number) := by
  rw [choose] at h
  split at h
  · next null =>
    obtain rfl := Except.ok.inj h
    cases v with
    | null => rfl
    | _ => simp [Value.isNull] at null
  · split at h
    · cases h
    · next n named =>
      split at h
      · cases h
      · obtain rfl := Except.ok.inj h
        exact EnumDescriptor.coerce_of_number named

/-- **What a member takes** is the value as it is fitted to the declared type. -/
theorem coerce_of_assign {name : String} {v : Value} {slot assigned : Slot} {type : TypeInfo}
    (h : slot.assign name v = .ok assigned) (declared : slot.type? = some type) :
    assigned.type? = some type ∧ coerce v type = .ok (Record.slotMember assigned).toValue := by
  cases slot with
  | scalar own old =>
    obtain rfl := Option.some.inj declared
    rw [assign] at h
    cases fit : v.fitField own with
    | error e =>
      rw [fit] at h
      cases h
    | ok fitted =>
      rw [fit] at h
      obtain rfl := Except.ok.inj h
      exact ⟨rfl, Value.coerce_of_fitField fit⟩
  | choice d nullable closed old =>
    obtain rfl := Option.some.inj declared
    rw [assign] at h
    cases choice : choose d nullable closed v with
    | error e =>
      rw [choice] at h
      cases h
    | ok number =>
      rw [choice] at h
      obtain rfl := Except.ok.inj h
      exact ⟨rfl, coerce_of_choose choice⟩
  | nested shape typed assignable record =>
    rw [assign] at h
    split at h
    · cases h
    · split at h
      · next null =>
        obtain rfl := Except.ok.inj h
        refine ⟨declared, ?_⟩
        cases v with
        | null => rfl
        | _ => cases null
      · cases h
  | records items => cases h

end Slot

namespace Record

variable {r w child written opened owner : Record} {name key leaf path : String}
  {names : List String} {v : Value}

/-! ## A write that went through -/

/-- What a write does that goes through: the members that the names stand for are opened, one in the
other, and in the last one a member is assigned. -/
inductive Wrote (v : Value) (leaf : String) : Record → List String → Record → Prop
  | assigned {r w : Record} {key : String} :
    r.writableName leaf = .ok key → r.setMember key v = .ok w → Wrote v leaf r [] w
  | inside {r opened child written : Record} {name key : String} {names : List String} :
    r.writableName name = .ok key → r.openMember key = .ok opened →
    opened.nested? key = some child → Wrote v leaf child names written →
      Wrote v leaf r (name :: names) (opened.setNested key written)

theorem wrote_writeAt (v : Value) (leaf : String) (r : Record) (names : List String)
    (h : (writeAt v leaf r names).2 = none) :
    Wrote v leaf r names (writeAt v leaf r names).1 := by
  induction names generalizing r with
  | nil =>
    rw [writeAt] at h ⊢
    cases named : r.writableName leaf with
    | error e =>
      rw [named] at h
      cases h
    | ok key =>
      cases set : r.setMember key v with
      | error e =>
        simp only [named, Except.bind, set] at h
        cases h
      | ok w =>
        simp only [Except.bind, set]
        exact .assigned named set
  | cons name names ih =>
    rw [writeAt] at h ⊢
    cases named : r.writableName name with
    | error e =>
      rw [named] at h
      cases h
    | ok key =>
      cases opening : r.openMember key with
      | error e =>
        simp only [named, opening] at h
        cases h
      | ok opened =>
        cases held : opened.nested? key with
        | none =>
          simp only [named, opening, held] at h
          cases h
        | some child =>
          simp only [named, opening, held] at h
          simp only [opening, held]
          exact .inside named opening held (ih child h)

theorem wrote_of_set (h : (r.set path v).2 = true) :
    ∃ leaf, (FieldPath.parse path).leaf? = some leaf ∧
      Wrote v leaf r (FieldPath.parse path).parents (r.set path v).1 := by
  simp only [set, write] at h ⊢
  cases last : (FieldPath.parse path).leaf? with
  | none =>
    rw [last] at h
    cases h
  | some leaf =>
    rw [last] at h
    exact ⟨leaf, rfl, wrote_writeAt v leaf r _ (Option.isNone_iff_eq_none.1 h)⟩

theorem Wrote.follows (h : Wrote v leaf r names w) : Follows r w := by
  induction h with
  | assigned _ set => exact (changedAt_setMember set).follows
  | inside _ opening held _ ih =>
    exact (changedAt_openMember opening).follows.trans (changedTo_setNested held ih).follows

/-- The name leads to the record that was put back. -/
theorem lookup?_setNested (named : r.writableName name = .ok key)
    (opening : r.openMember key = .ok opened) (held : opened.nested? key = some child)
    (same : Follows child written) :
    (opened.setNested key written).lookup? name = some (.record written) := by
  obtain ⟨changed, found⟩ := changedTo_setNested held same
  have again : (opened.setNested key written).writableName name = .ok key := by
    rw [((changedAt_openMember opening).follows.trans changed.follows).writableName_eq, named]
  rw [lookup?_eq_member? again, found]

/-- **The way to what was written**: the names lead to a record in which the last name was assigned.
What holds of the first record and is passed on to records inside holds of the one that was
written. -/
theorem Wrote.exists_owner {P : Record → Prop} (h : Wrote v leaf r names w)
    (down : ∀ r key opened child, P r → r.openMember key = .ok opened →
      opened.nested? key = some child → P child) (start : P r) :
    ∃ owner key written, P owner ∧ owner.writableName leaf = .ok key ∧
      owner.setMember key v = .ok written ∧ follow (.record w) names = .record written := by
  induction h with
  | @assigned r w key named set => exact ⟨r, key, w, start, named, set, by rw [follow]⟩
  | @inside r opened child written name key names named opening held below ih =>
    obtain ⟨owner, last, assigned, holds, named', set, way⟩ :=
      ih (down r key opened child start opening held)
    refine ⟨owner, last, assigned, holds, named', set, ?_⟩
    rw [follow, step, lookup?_setNested named opening held below.follows]
    exact way

/-- What is read at a path that leads to a record in which the last name was assigned. -/
theorem get_of_setMember (last : (FieldPath.parse path).leaf? = some leaf)
    (way : follow (.record w) (FieldPath.parse path).parents = .record written)
    (named : owner.writableName leaf = .ok key) (set : owner.setMember key v = .ok written)
    {m : Member} (found : written.member? key = some m) : w.get path = m.toValue := by
  have again : written.writableName leaf = .ok key :=
    ((changedAt_setMember set).follows.writableName_eq leaf).trans named
  have read : w.resolve (.parse path) = Parent.read leaf (.record written) := by
    simp only [resolve, last, parent, way]
  rw [get, valueAt, read, Parent.read, lookup?_eq_member? again, found]
  rfl

/-- What is read back of records of one sort, if it depends on the sort alone. -/
theorem get_set_of {P : Record → Prop} {expected : Value}
    (down : ∀ r key opened child, P r → r.openMember key = .ok opened →
      opened.nested? key = some child → P child)
    (assigned : ∀ owner key written, P owner → owner.setMember key v = .ok written →
      ∃ m, written.member? key = some m ∧ m.toValue = expected)
    (start : P r) (h : (r.set path v).2 = true) : (r.set path v).1.get path = expected := by
  obtain ⟨leaf, last, wrote⟩ := wrote_of_set h
  obtain ⟨owner, key, written, holds, named, set, way⟩ := wrote.exists_owner down start
  obtain ⟨m, found, rfl⟩ := assigned owner key written holds set
  exact get_of_setMember last way named set found

/-! ## Trees and documents -/

theorem Follows.isTree (h : Follows r w) (tree : r.IsTree) : w.IsTree := by
  cases h <;> first | exact trivial | exact tree

theorem IsTree.nested (h : r.IsTree) (held : r.nested? key = some child) : child.IsTree := by
  cases r with
  | value v =>
    obtain ⟨inner, -, container⟩ := Option.bind_eq_some_iff.1 held
    exact ofContainer?_eq_some container ▸ trivial
  | table fields =>
    obtain ⟨inner, -, container⟩ := Option.bind_eq_some_iff.1 held
    exact ofContainer?_eq_some container ▸ trivial
  | hash entries =>
    obtain ⟨inner, -, container⟩ := Option.bind_eq_some_iff.1 held
    exact ofContainer?_eq_some container ▸ trivial
  | dynamic members => cases held
  | json j | list items | shaped title slots => exact h.elim

/-- **A tree** reads back what was written into it. -/
theorem get_set_of_tree (tree : r.IsTree) (h : (r.set path v).2 = true) :
    (r.set path v).1.get path = v :=
  get_set_of (P := IsTree)
    (fun _ _ _ _ tree opening held =>
      ((changedAt_openMember opening).follows.isTree tree).nested held)
    (fun _ _ _ tree set => member?_setMember_of_tree tree set) tree h

/-- **A document** reads back the document of what was written into it. -/
theorem get_set_of_json {j : Json} (h : ((Record.json j).set path v).2 = true) :
    ((Record.json j).set path v).1.get path = .ofJson v.toJson := by
  refine get_set_of (P := fun r => ∃ j, r = .json j) ?_ ?_ ⟨j, rfl⟩ h
  · rintro _ key opened child ⟨j, rfl⟩ opening held
    obtain ⟨j', rfl⟩ : ∃ j', opened = .json j' := by
      cases (changedAt_openMember opening).follows <;> exact ⟨_, rfl⟩
    obtain ⟨inner, -, rfl⟩ := nested_json held
    exact ⟨inner, rfl⟩
  · rintro _ key written ⟨j, rfl⟩ set
    exact member?_setMember_json set

end Record

/-! ## Typed structures -/

/-- The record inside a member: the one that it holds, or else the one that is made in it. -/
def Slot.inside? : Slot → Option Record
  | .nested shape _ _ record => some (record.getD shape.blank)
  | .records items => some (.list items)
  | _ => none

namespace Record

variable {r w child written opened owner : Record} {name key leaf path : String}
  {names : List String} {v : Value}

/-- Structures that declare a type for each member, as do the structures inside. -/
inductive Typed : Record → Prop
  | shaped {title : String} {slots : Fields Slot} :
    (∀ slot ∈ slots, slot.2.type?.isSome = true) →
    (∀ slot ∈ slots, ∀ r, slot.2.inside? = some r → Typed r) → Typed (.shaped title slots)

theorem inside?_of_openMember {title : String} {slots : Fields Slot}
    (opening : (Record.shaped title slots).openMember key = .ok opened)
    (held : opened.nested? key = some child) :
    ∃ slot, Fields.get? key slots = some slot ∧ slot.inside? = some child := by
  rw [openMember] at opening
  split at opening
  · next before =>
    obtain rfl := Except.ok.inj opening
    obtain ⟨slot, listed, found⟩ := Option.bind_eq_some_iff.1 held
    refine ⟨slot, listed, ?_⟩
    cases slot with
    | nested shape typed assignable record =>
      obtain rfl : record = some child := found
      rfl
    | records items => exact found
    | _ => cases found
  · next none =>
    rcases materialize_cases opening none with ⟨free, -⟩ |
      ⟨_, _, shape, typed, assignable, same, listed, rfl⟩
    · cases free
    · obtain ⟨rfl, rfl⟩ := Record.shaped.inj same
      refine ⟨_, listed, ?_⟩
      simpa [nested?, Fields.get?_put_self, Slot.nested?, Slot.inside?] using held

theorem Typed.inside (h : r.Typed) (opening : r.openMember key = .ok opened)
    (held : opened.nested? key = some child) : child.Typed := by
  cases h with
  | shaped typed below =>
    obtain ⟨slot, listed, inside⟩ := inside?_of_openMember opening held
    exact below _ (Fields.mem_of_get? listed) child inside

/-- The type of a member is found under the names that the member is read under. -/
theorem declaredType?_of_writableName {type : TypeInfo} (named : r.writableName name = .ok key)
    (declared : r.memberType? key = some type) : r.declaredType? name = some type := by
  rw [declaredType?]
  rw [writableName] at named
  split at named
  · obtain rfl := Except.ok.inj named
    rw [declared]
  · next absent =>
    split at named
    · next other found =>
      obtain rfl := Except.ok.inj named
      have undeclared : r.memberType? name = none := by
        cases r with
        | shaped title slots =>
          cases listed : Fields.get? name slots with
          | none => rw [memberType?, listed, Option.bind_none]
          | some slot => simp [member?, listed] at absent
        | _ => rfl
      rw [undeclared, found, Option.bind_some, declared]
    · cases named

/-- A member that was assigned holds the value as it is fitted to the type that is declared. -/
theorem Typed.setMember (h : owner.Typed) (named : owner.writableName leaf = .ok key)
    (set : owner.setMember key v = .ok written) :
    ∃ type m, written.declaredType? leaf = some type ∧ written.member? key = some m ∧
      coerce v type = .ok m.toValue := by
  have again : written.writableName leaf = .ok key :=
    ((changedAt_setMember set).follows.writableName_eq leaf).trans named
  cases h with
  | @shaped title slots typed below =>
    obtain ⟨slot, assigned, listed, assign, rfl⟩ := setMember_shaped set
    obtain ⟨type, declared⟩ := Option.isSome_iff_exists.1 (typed _ (Fields.mem_of_get? listed))
    obtain ⟨declared, fitted⟩ := Slot.coerce_of_assign assign declared
    refine ⟨type, slotMember assigned, declaredType?_of_writableName again ?_, ?_, fitted⟩
    · rw [memberType?, Fields.get?_put_self, Option.bind_some, declared]
    · rw [member?, Fields.get?_put_self, Option.map_some]

/-- **A typed structure** reads back what was written into it as it is fitted to the declared
type. -/
theorem get_set_of_typed (typed : r.Typed) (h : (r.set path v).2 = true) :
    ∃ type, Sample.ofRecord (.parse path) (r.set path v).1 = .declared type ∧
      coerce v type = .ok ((r.set path v).1.get path) := by
  obtain ⟨leaf, last, wrote⟩ := wrote_of_set h
  obtain ⟨owner, key, written, typed, named, set, way⟩ :=
    wrote.exists_owner (fun _ _ _ _ typed opening held => typed.inside opening held) typed
  obtain ⟨type, m, declared, found, fitted⟩ := typed.setMember named set
  have static : written.isStatic = true := by
    rw [(changedAt_setMember set).follows.isStatic_eq]
    cases typed
    rfl
  refine ⟨type, ?_, ?_⟩
  · simp only [Sample.ofRecord, last, parent, way, Sample.ofMember, static, declared, if_pos]
  · rw [get_of_setMember last way named set found, fitted]

end Record

end RecordQuery
