import RecordQuery.Proofs.Record.Refusal

/-!
# Members after an assignment

Assigning a member changes this member and no other.

* `Record.SameMember`: two names stand for one member, by a name in other case or by another
  notation of a position;
* `Record.Follows`: a record is of the form of another one, with the same names if these are
  declared;
* `Record.ChangedAt`: besides, only one member may be different, and names of other members are read
  as before (`Record.ChangedAt.lookup?_eq`);
* `Record.ChangedTo`: the one member reads as given. There is one lemma for each form of record, and
  from these come `Record.changedAt_setMember` and what is read of the member that was assigned;
* `Record.member?_setMember_of_tree` and `Record.member?_setMember_json`: the member that was
  assigned, and `Record.setMember_shaped`: what became of the slots of a structure.
-/

namespace RecordQuery.Record

variable {r w child written opened : Record} {name key other a b : String} {v : Value}

theorem setItem?_eq_some {α : Type} {item : α} {items items' : List α}
    (h : setItem? key item items = some items') :
    ∃ i, readIndex? key = some i ∧ i < items.length ∧ items' = items.set i item := by
  obtain ⟨i, index, h⟩ := Option.bind_eq_some_iff.1 h
  split at h
  · next inside => exact ⟨i, index, inside, (Option.some.inj h).symm⟩
  · cases h

/-! ## Names of one member -/

/-- Whether members are named by their positions. -/
def isPositional : Record → Bool
  | .value (.list _) | .json (.array _) | .list _ => true
  | _ => false

/-- Two exact names stand for one member: they are the same, or note the same position. -/
def SameKey (r : Record) (key other : String) : Prop :=
  key = other ∨
    r.isPositional = true ∧ (readIndex? key).isSome = true ∧ readIndex? key = readIndex? other

instance (r : Record) (key other : String) : Decidable (r.SameKey key other) :=
  inferInstanceAs (Decidable (_ ∨ _ ∧ _ ∧ _))

/-- Two names stand for one member. In a static record they may differ in case. -/
def SameMember (r : Record) (a b : String) : Prop :=
  ∃ key other, r.writableName a = .ok key ∧ r.writableName b = .ok other ∧ r.SameKey key other

instance (r : Record) (a b : String) : Decidable (r.SameMember a b) :=
  match named : r.writableName a, named' : r.writableName b with
  | .ok key, .ok other =>
    decidable_of_iff (r.SameKey key other) (by simp [SameMember, named, named'])
  | .ok _, .error _ => isFalse (by simp [SameMember, named'])
  | .error _, _ => isFalse (by simp [SameMember, named])

theorem ne_of_not_sameKey (apart : ¬ r.SameKey key other) : key ≠ other :=
  (not_or.1 apart).1

/-- Names of other members note other positions. -/
theorem readIndex?_ne_of_not_sameKey {i : Nat} (apart : ¬ r.SameKey key other)
    (positional : r.isPositional = true) (index : readIndex? key = some i) :
    readIndex? other ≠ some i := by
  intro same
  exact (not_or.1 apart).2 ⟨positional, by rw [index]; rfl, index.trans same.symm⟩

theorem member?_of_sameKey (same : r.SameKey key other) : r.member? other = r.member? key := by
  rcases same with rfl | ⟨positional, -, same⟩
  · rfl
  · cases r with
    | value v =>
      cases v with
      | list items => simp only [member?, Value.member?, same]
      | _ => cases positional
    | json j =>
      cases j with
      | array items => simp only [member?, jsonChild?, same]
      | _ => cases positional
    | list items => simp only [member?, same]
    | _ => cases positional

/-- Names of one member are read under the name that it is written under. -/
theorem lookup?_of_sameMember (named : r.writableName a = .ok key) (same : r.SameMember a b) :
    r.lookup? b = r.member? key := by
  obtain ⟨key', other, named', other', same⟩ := same
  obtain rfl : key = key' := Except.ok.inj (named.symm.trans named')
  rw [lookup?_eq_member? other', member?_of_sameKey same]

/-- A name that no member is written under is not read. -/
theorem lookup?_eq_none {e : AccessError} (h : r.writableName name = .error e) :
    r.lookup? name = none := by
  rw [writableName] at h
  split at h
  · cases h
  · next absent =>
    split at h
    · cases h
    · next noOther =>
      have exact : r.member? name = none := by
        cases found : r.member? name with
        | none => rfl
        | some m => simp [found] at absent
      rw [lookup?, exact, noOther]
      rfl

/-! ## Records of one form -/

/-- The second record is of the form of the first: a container of the same sort, with as many
positions, and with the same names if these are declared. -/
inductive Follows : Record → Record → Prop
  | fields (a b : List (String × Value)) : Follows (.value (.object a)) (.value (.object b))
  | items {a b : List Value} : b.length = a.length → Follows (.value (.list a)) (.value (.list b))
  | table (a b : List (String × Value)) : Follows (.table a) (.table b)
  | hash (a b : List (String × Value)) : Follows (.hash a) (.hash b)
  | members (a b : List (String × Json)) : Follows (.json (.object a)) (.json (.object b))
  | array {a b : List Json} : b.length = a.length → Follows (.json (.array a)) (.json (.array b))
  | dynamic (a b : List (String × Value)) : Follows (.dynamic a) (.dynamic b)
  | list {a b : List Record} : b.length = a.length → Follows (.list a) (.list b)
  | shaped {title : String} {a b : List (String × Slot)} :
    Fields.names b = Fields.names a → Follows (.shaped title a) (.shaped title b)

namespace Follows

theorem isStatic_eq (h : Follows r w) : w.isStatic = r.isStatic := by cases h <;> rfl

theorem isPositional_eq (h : Follows r w) : w.isPositional = r.isPositional := by cases h <;> rfl

theorem memberNames_eq (h : Follows r w) (static : r.isStatic = true) :
    w.memberNames = r.memberNames := by
  cases h with
  | list lengths => exact congrArg positions lengths
  | shaped names => exact names
  | _ => cases static

theorem isSome_member?_eq (h : Follows r w) (static : r.isStatic = true) (name : String) :
    (w.member? name).isSome = (r.member? name).isSome := by
  cases h with
  | @list a b lengths =>
    simp only [member?]
    cases readIndex? name with
    | none => rfl
    | some i =>
      rw [Bool.eq_iff_iff]
      simp [lengths]
  | @shaped title a b names =>
    simp only [member?, Option.isSome_map]
    rw [Bool.eq_iff_iff, ← Fields.mem_names_iff, ← Fields.mem_names_iff, names]
  | _ => cases static

/-- Members are written under the same names. -/
theorem writableName_eq (h : Follows r w) (name : String) :
    w.writableName name = r.writableName name := by
  rw [writableName, writableName, h.isStatic_eq]
  cases static : r.isStatic with
  | false => rfl
  | true =>
    rw [h.isSome_member?_eq static, nameInOtherCase?, nameInOtherCase?, h.isStatic_eq, static,
      h.memberNames_eq static]

theorem sameMember (h : Follows r w) (same : r.SameMember a b) : w.SameMember a b := by
  obtain ⟨key, other, named, named', same⟩ := same
  refine ⟨key, other, (h.writableName_eq a).trans named, (h.writableName_eq b).trans named', ?_⟩
  rwa [SameKey, h.isPositional_eq]

theorem trans {s : Record} (first : Follows r s) (second : Follows s w) : Follows r w := by
  cases first with
  | fields a b => cases second with | fields _ c => exact .fields a c
  | items same => cases second with | items same' => exact .items (same'.trans same)
  | table a b => cases second with | table _ c => exact .table a c
  | hash a b => cases second with | hash _ c => exact .hash a c
  | members a b => cases second with | members _ c => exact .members a c
  | array same => cases second with | array same' => exact .array (same'.trans same)
  | dynamic a b => cases second with | dynamic _ c => exact .dynamic a c
  | list same => cases second with | list same' => exact .list (same'.trans same)
  | shaped same => cases second with | shaped same' => exact .shaped (same'.trans same)

end Follows

/-- The second record is of the form of the first, and only the member of one name may be different.
-/
structure ChangedAt (key : String) (r w : Record) : Prop where
  follows : Follows r w
  member?_eq : ∀ other, ¬ r.SameKey key other → w.member? other = r.member? other

namespace ChangedAt

theorem trans {s : Record} (first : ChangedAt key r s) (second : ChangedAt key s w) :
    ChangedAt key r w where
  follows := first.follows.trans second.follows
  member?_eq other apart := by
    have apart' : ¬ s.SameKey key other := by
      rwa [SameKey, first.follows.isPositional_eq]
    rw [second.member?_eq other apart', first.member?_eq other apart]

/-- Names of other members are read as before, in other case too. -/
theorem lookup?_eq (h : ChangedAt key r w) (named : r.writableName a = .ok key)
    (apart : ¬ r.SameMember a b) : w.lookup? b = r.lookup? b := by
  cases named' : r.writableName b with
  | ok other =>
    have distinct : ¬ r.SameKey key other := fun same => apart ⟨key, other, named, named', same⟩
    have again : w.writableName b = .ok other := (h.follows.writableName_eq b).trans named'
    rw [lookup?_eq_member? named', lookup?_eq_member? again, h.member?_eq other distinct]
  | error e =>
    have again : w.writableName b = .error e := (h.follows.writableName_eq b).trans named'
    rw [lookup?_eq_none named', lookup?_eq_none again]

end ChangedAt

/-! ## Replacing a member -/

/-- The item at another position is as before. -/
theorem getElem?_set_of_other {α : Type} {i : Nat} (apart : readIndex? other ≠ some i)
    (items : List α) (item : α) :
    (readIndex? other).bind ((items.set i item)[·]?) = (readIndex? other).bind (items[·]?) := by
  cases index' : readIndex? other with
  | none => rfl
  | some j =>
    have distinct : i ≠ j := by
      rintro rfl
      exact apart index'
    rw [Option.bind_some, Option.bind_some, List.getElem?_set_ne distinct]

/-- Besides, the member of that name reads as `m`. -/
structure ChangedTo (key : String) (m : Member) (r w : Record) : Prop
    extends ChangedAt key r w where
  member?_self : w.member? key = some m

namespace ChangedTo

variable {i : Nat}

theorem fields (v : Value) (fields : List (String × Value)) :
    ChangedTo key (memberOfValue v) (.value (.object fields))
      (.value (.object (Fields.insert key v fields))) where
  follows := .fields _ _
  member?_eq other apart := by
    simp [member?, Value.member?, Fields.get?_insert_of_ne (ne_of_not_sameKey apart)]
  member?_self := by simp [member?, Value.member?, Fields.get?_insert_self]

theorem items (index : readIndex? key = some i) {items : List Value} (inside : i < items.length)
    (v : Value) :
    ChangedTo key (memberOfValue v) (.value (.list items)) (.value (.list (items.set i v))) where
  follows := .items List.length_set
  member?_eq other apart := by
    simp only [member?, Value.member?]
    rw [getElem?_set_of_other (readIndex?_ne_of_not_sameKey apart rfl index)]
  member?_self := by simp [member?, Value.member?, index, List.getElem?_set_self inside]

theorem table (v : Value) (fields : List (String × Value)) :
    ChangedTo key (memberOfValue v) (.table fields) (.table (Fields.insert key v fields)) where
  follows := .table _ _
  member?_eq other apart := by
    simp [member?, Fields.get?_insert_of_ne (ne_of_not_sameKey apart)]
  member?_self := by simp [member?, Fields.get?_insert_self]

theorem hash (v : Value) (entries : List (String × Value)) :
    ChangedTo key (memberOfValue v) (.hash entries) (.hash (Fields.put key v entries)) where
  follows := .hash _ _
  member?_eq other apart := by simp [member?, Fields.get?_put_of_ne (ne_of_not_sameKey apart)]
  member?_self := by simp [member?, Fields.get?_put_self]

theorem members (j : Json) (members : List (String × Json)) :
    ChangedTo key (memberOfJson j) (.json (.object members))
      (.json (.object (Fields.insert key j members))) where
  follows := .members _ _
  member?_eq other apart := by
    simp [member?, jsonChild?, Fields.get?_insert_of_ne (ne_of_not_sameKey apart)]
  member?_self := by simp [member?, jsonChild?, Fields.get?_insert_self]

theorem array (index : readIndex? key = some i) {items : List Json} (inside : i < items.length)
    (j : Json) :
    ChangedTo key (memberOfJson j) (.json (.array items)) (.json (.array (items.set i j))) where
  follows := .array List.length_set
  member?_eq other apart := by
    simp only [member?, jsonChild?]
    rw [getElem?_set_of_other (readIndex?_ne_of_not_sameKey apart rfl index)]
  member?_self := by simp [member?, jsonChild?, index, List.getElem?_set_self inside]

theorem dynamic (v : Value) (members : List (String × Value)) :
    ChangedTo key (.value v) (.dynamic members) (.dynamic (Fields.insert key v members)) where
  follows := .dynamic _ _
  member?_eq other apart := by
    simp [member?, Fields.get?_insert_of_ne (ne_of_not_sameKey apart)]
  member?_self := by simp [member?, Fields.get?_insert_self]

theorem list (index : readIndex? key = some i) {items : List Record} (inside : i < items.length)
    (w : Record) : ChangedTo key (.record w) (.list items) (.list (items.set i w)) where
  follows := .list List.length_set
  member?_eq other apart := by
    have item := getElem?_set_of_other (readIndex?_ne_of_not_sameKey apart rfl index) items w
    have member := congrArg (Option.map Member.record) item
    rwa [Option.map_bind, Option.map_bind] at member
  member?_self := by simp [member?, index, List.getElem?_set_self inside]

theorem shaped {title : String} {slots : List (String × Slot)}
    (listed : (Fields.get? key slots).isSome = true) (slot : Slot) :
    ChangedTo key (slotMember slot) (.shaped title slots)
      (.shaped title (Fields.put key slot slots)) where
  follows := .shaped (Fields.names_put listed slot)
  member?_eq other apart := by simp [member?, Fields.get?_put_of_ne (ne_of_not_sameKey apart)]
  member?_self := by simp [member?, Fields.get?_put_self]

end ChangedTo

/-! ## Assigning a member -/

theorem setMember_shaped {title : String} {slots : List (String × Slot)}
    (h : (Record.shaped title slots).setMember key v = .ok w) :
    ∃ slot assigned, Fields.get? key slots = some slot ∧ slot.assign key v = .ok assigned ∧
      w = .shaped title (Fields.put key assigned slots) := by
  simp only [setMember] at h
  cases listed : Fields.get? key slots with
  | none =>
    rw [listed] at h
    cases h
  | some slot =>
    rw [listed] at h
    cases assigned : slot.assign key v with
    | error e =>
      simp only [assigned] at h
      cases h
    | ok slot' =>
      simp only [assigned] at h
      exact ⟨slot, slot', rfl, assigned, (Except.ok.inj h).symm⟩

/-- **Assigning a member** leaves the others. -/
theorem changedAt_setMember (h : r.setMember key v = .ok w) : ChangedAt key r w := by
  cases r with
  | value old =>
    cases old with
    | object fields =>
      obtain rfl := Except.ok.inj h
      exact (ChangedTo.fields v fields).toChangedAt
    | list items =>
      simp only [setMember] at h
      split at h
      · next set =>
        obtain ⟨i, index, inside, rfl⟩ := setItem?_eq_some set
        obtain rfl := Except.ok.inj h
        exact (ChangedTo.items index inside v).toChangedAt
      · cases h
    | _ => cases h
  | table fields =>
    obtain rfl := Except.ok.inj h
    exact (ChangedTo.table v fields).toChangedAt
  | hash entries =>
    obtain rfl := Except.ok.inj h
    exact (ChangedTo.hash v entries).toChangedAt
  | json old =>
    cases old with
    | object members =>
      obtain rfl := Except.ok.inj h
      exact (ChangedTo.members v.toJson members).toChangedAt
    | array items =>
      simp only [setMember] at h
      split at h
      · next set =>
        obtain ⟨i, index, inside, rfl⟩ := setItem?_eq_some set
        obtain rfl := Except.ok.inj h
        exact (ChangedTo.array index inside v.toJson).toChangedAt
      · cases h
    | _ => cases h
  | dynamic members =>
    simp only [setMember] at h
    split at h
    · cases h
    · obtain rfl := Except.ok.inj h
      exact (ChangedTo.dynamic v members).toChangedAt
  | list items => cases h
  | shaped title slots =>
    obtain ⟨slot, assigned, listed, -, rfl⟩ := setMember_shaped h
    exact (ChangedTo.shaped (Option.isSome_of_eq_some listed) assigned).toChangedAt

/-- Value trees, held as values, tables, hashes or dynamic records. -/
def IsTree : Record → Prop
  | .value _ | .table _ | .hash _ | .dynamic _ => True
  | _ => False

/-- A tree reads the value that was assigned. -/
theorem member?_setMember_of_tree (tree : r.IsTree) (h : r.setMember key v = .ok w) :
    ∃ m, w.member? key = some m ∧ m.toValue = v := by
  cases r with
  | value old =>
    cases old with
    | object fields =>
      obtain rfl := Except.ok.inj h
      exact ⟨_, (ChangedTo.fields v fields).member?_self, memberOfValue_toValue v⟩
    | list items =>
      simp only [setMember] at h
      split at h
      · next set =>
        obtain ⟨i, index, inside, rfl⟩ := setItem?_eq_some set
        obtain rfl := Except.ok.inj h
        exact ⟨_, (ChangedTo.items index inside v).member?_self, memberOfValue_toValue v⟩
      · cases h
    | _ => cases h
  | table fields =>
    obtain rfl := Except.ok.inj h
    exact ⟨_, (ChangedTo.table v fields).member?_self, memberOfValue_toValue v⟩
  | hash entries =>
    obtain rfl := Except.ok.inj h
    exact ⟨_, (ChangedTo.hash v entries).member?_self, memberOfValue_toValue v⟩
  | dynamic members =>
    simp only [setMember] at h
    split at h
    · cases h
    · obtain rfl := Except.ok.inj h
      exact ⟨_, (ChangedTo.dynamic v members).member?_self, rfl⟩
  | json j | list items | shaped title slots => exact tree.elim

/-- A document reads the document of the value that was assigned. -/
theorem member?_setMember_json {j : Json} (h : (Record.json j).setMember key v = .ok w) :
    ∃ m, w.member? key = some m ∧ m.toValue = .ofJson v.toJson := by
  refine ⟨memberOfJson v.toJson, ?_, memberOfJson_toValue v.toJson⟩
  cases j with
  | object members =>
    obtain rfl := Except.ok.inj h
    exact (ChangedTo.members v.toJson members).member?_self
  | array items =>
    simp only [setMember] at h
    split at h
    · next set =>
      obtain ⟨i, index, inside, rfl⟩ := setItem?_eq_some set
      obtain rfl := Except.ok.inj h
      exact (ChangedTo.array index inside v.toJson).member?_self
    · cases h
  | _ => cases h

end RecordQuery.Record
