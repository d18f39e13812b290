import RecordQuery.FieldTypes
import RecordQuery.Proofs.Record.Ordered

/-!
# Records that look alike

A value tree can be held in several ways: as a value, as a table or a hash of its fields, as a
document or as a dynamic record. Names are then looked up in different ways, and a child is a record
of its own in some of them and a value in others. The engine sees none of this.

* `Record.Alike` says of two records that all that the engine sees of them is the same;
* `Record.HoldsTree` are the records that hold a value tree;
* `Parent.Like`: on the way along a path, a record that holds a tree stands for the tree, name by
  name (`Parent.Like.follow`);
* `Record.HoldsTree.alike`: records that hold the same tree look alike.
-/

namespace RecordQuery

namespace Record

/-- What the engine sees of two records is the same. Their names may stand in different orders. -/
structure Alike (r s : Record) : Prop where
  isStatic_eq : r.isStatic = s.isStatic
  resolve_eq : ∀ path, r.resolve path = s.resolve path
  sample_eq : ∀ path, Sample.ofRecord path r = Sample.ofRecord path s
  isSome_member?_eq : ∀ name, (r.member? name).isSome = (s.member? name).isSome
  mem_memberNames_iff : ∀ name, name ∈ r.memberNames ↔ name ∈ s.memberNames

theorem Alike.refl (r : Record) : Alike r r :=
  ⟨rfl, fun _ => rfl, fun _ => rfl, fun _ => rfl, fun _ => .rfl⟩

/-- Records that hold a value tree. No name stands twice in a hash, and a document is ordered. -/
inductive HoldsTree : Record → Prop
  | value (v : Value) : HoldsTree (.value v)
  | table (fields : Fields Value) : HoldsTree (.table fields)
  | hash {entries : Fields Value} : Fields.Distinct entries → HoldsTree (.hash entries)
  | json {j : Json} : j.Ordered → HoldsTree (.json j)
  | dynamic (members : Fields Value) : HoldsTree (.dynamic members)

variable {r s child : Record} {name : String}

theorem HoldsTree.isStatic_eq (h : r.HoldsTree) : r.isStatic = false := by
  cases h <;> rfl

/-! ## Members -/

theorem memberOfValue_toValue (v : Value) : (memberOfValue v).toValue = v := by
  rw [memberOfValue]
  split <;> rfl

theorem memberOfJson_toValue (j : Json) : (memberOfJson j).toValue = .ofJson j := by
  rw [memberOfJson]
  split <;> rfl

theorem isContainer_ofJson (j : Json) : (Value.ofJson j).isContainer = j.isContainer := by
  cases j with
  | integer n =>
    rw [Value.ofJson]
    split <;> rfl
  | _ => rfl

/-- The child of an ordered document is that of its value. -/
theorem member?_ofJson {j : Json} (h : j.Ordered) (name : String) :
    (Value.ofJson j).member? name = (jsonChild? name j).map .ofJson := by
  cases j with
  | integer n =>
    rw [Value.ofJson]
    split <;> rfl
  | array items =>
    rw [Value.ofJson, Value.member?, jsonChild?, Value.ofItems_eq_map]
    cases readIndex? name with
    | none => rfl
    | some i => exact List.getElem?_map
  | object members =>
    have distinct : Fields.Distinct (members.map fun member => (member.1, Value.ofJson member.2)) :=
      (h.of_object.1.map _).distinct
    rw [Value.ofJson, Value.member?, jsonChild?, Value.ofMembers_eq_map,
      Fields.get?_ofList_of_distinct distinct, Fields.get?_map]
  | _ => rfl

/-- The members of a record that holds a tree are the children of the tree. -/
theorem HoldsTree.map_member? (h : r.HoldsTree) (name : String) :
    (r.member? name).map Member.toValue = r.toValue.member? name := by
  have values (found : Option Value) : (found.map memberOfValue).map Member.toValue = found := by
    cases found with
    | none => rfl
    | some v => rw [Option.map_some, Option.map_some, memberOfValue_toValue]
  cases h with
  | value v => exact values _
  | table fields => exact values _
  | hash distinct =>
    rw [member?, values, toValue, Value.member?, Fields.get?_ofList_of_distinct distinct]
  | json ordered =>
    rw [member?, toValue, member?_ofJson ordered, Option.map_map]
    exact congrFun (congrArg Option.map (funext memberOfJson_toValue)) _
  | dynamic members =>
    rw [member?, Option.map_map]
    exact congrFun Option.map_id _

/-- A record inside a record that holds a tree holds a tree with children. -/
theorem HoldsTree.of_member? (h : r.HoldsTree) (found : r.member? name = some (.record child)) :
    child.HoldsTree ∧ child.toValue.isContainer := by
  have value {v : Value} (h : memberOfValue v = .record child) :
      child.HoldsTree ∧ child.toValue.isContainer := by
    rw [memberOfValue] at h
    split at h
    · next children =>
      obtain rfl := Member.record.inj h
      exact ⟨.value v, children⟩
    · cases h
  cases h with
  | value v =>
    obtain ⟨inner, -, h⟩ := Option.map_eq_some_iff.1 found
    exact value h
  | table fields =>
    obtain ⟨inner, -, h⟩ := Option.map_eq_some_iff.1 found
    exact value h
  | hash distinct =>
    obtain ⟨inner, -, h⟩ := Option.map_eq_some_iff.1 found
    exact value h
  | json ordered =>
    obtain ⟨inner, listed, h⟩ := Option.map_eq_some_iff.1 found
    rw [memberOfJson] at h
    split at h
    · next children =>
      obtain rfl := Member.record.inj h
      exact ⟨.json (ordered.child listed), (isContainer_ofJson inner).trans children⟩
    · cases h
  | dynamic members =>
    obtain ⟨inner, -, h⟩ := Option.map_eq_some_iff.1 found
    cases h

/-- Only static records have members under names in other case. -/
theorem lookup?_of_not_static (free : r.isStatic = false) (name : String) :
    r.lookup? name = r.member? name := by
  rw [lookup?, nameInOtherCase?, free]
  cases r.member? name <;> rfl

theorem isStatic_memberOfValue {v : Value} (h : memberOfValue v = .record child) :
    child.isStatic = false := by
  rw [memberOfValue] at h
  split at h
  · obtain rfl := Member.record.inj h
    rfl
  · cases h

theorem isStatic_memberOfJson {j : Json} (h : memberOfJson j = .record child) :
    child.isStatic = false := by
  rw [memberOfJson] at h
  split at h
  · obtain rfl := Member.record.inj h
    rfl
  · cases h

/-- A record inside a record that is not static is not static. -/
theorem isStatic_of_member? (free : r.isStatic = false)
    (h : r.member? name = some (.record child)) : child.isStatic = false := by
  cases r with
  | value v | table fields | hash entries =>
    obtain ⟨inner, -, found⟩ := Option.map_eq_some_iff.1 h
    exact isStatic_memberOfValue found
  | json j =>
    obtain ⟨inner, -, found⟩ := Option.map_eq_some_iff.1 h
    exact isStatic_memberOfJson found
  | dynamic members =>
    obtain ⟨inner, -, found⟩ := Option.map_eq_some_iff.1 h
    cases found
  | list items | shaped title slots => cases free

theorem HoldsTree.lookup?_eq (h : r.HoldsTree) (name : String) :
    r.lookup? name = r.member? name :=
  lookup?_of_not_static h.isStatic_eq name

theorem HoldsTree.mem_memberNames_iff (h : r.HoldsTree) (name : String) :
    name ∈ r.memberNames ↔ name ∈ (Record.value r.toValue).memberNames := by
  cases h with
  | value v => rfl
  | table fields => rfl
  | @hash entries distinct => exact (Fields.mem_names_ofList entries).symm
  | @json j ordered =>
    cases j with
    | integer n =>
      rw [toValue, Value.ofJson]
      split <;> rfl
    | array items =>
      rw [toValue, Value.ofJson, Value.ofItems_eq_map, memberNames, memberNames, List.length_map]
    | object members =>
      rw [toValue, Value.ofJson, Value.ofMembers_eq_map, memberNames, memberNames,
        Fields.mem_names_ofList, Fields.names, Fields.names, List.map_map]
      rfl
    | _ => rfl
  | dynamic members => rfl

end Record

open Record

/-! ## Along a path -/

/-- The same parent, but for a record that stands for the tree that it holds. -/
inductive Parent.Like : Parent → Parent → Prop
  | refl (p : Parent) : Like p p
  | record {r : Record} : r.HoldsTree → Like (.record r) (.tree r.toValue)

namespace Parent.Like

variable {p q : Parent} {r : Record}

theorem step (h : r.HoldsTree) (name : String) : Like (r.step name) (stepTree r.toValue name) := by
  rw [Record.step, h.lookup?_eq, stepTree, ← h.map_member? name]
  cases found : r.member? name with
  | none => simpa [h.isStatic_eq] using refl _
  | some m =>
    cases m with
    | record child =>
      obtain ⟨tree, children⟩ := h.of_member? found
      simpa [Member.toValue, children] using record tree
    | value v =>
      cases v <;> simpa [Member.toValue, h.isStatic_eq, Value.isContainer] using refl _

theorem follow (h : Like p q) (names : List String) :
    Like (Record.follow p names) (Record.follow q names) := by
  induction names generalizing p q with
  | nil =>
    rw [Record.follow, Record.follow]
    exact h
  | cons name names ih =>
    cases h with
    | refl => exact refl _
    | record tree => exact ih (step tree name)

theorem read_eq (h : Like p q) (name : String) : Parent.read name p = Parent.read name q := by
  cases h with
  | refl => rfl
  | record tree =>
    rw [Parent.read, Parent.read, tree.lookup?_eq, ← tree.map_member? name, tree.isStatic_eq]
    cases Record.member? _ name <;> rfl

end Parent.Like

/-- What a parent says about the type of a member. -/
def Parent.sample (name : String) : Parent → Sample
  | .record r => .ofMember r name
  | .tree v => .ofValue ((v.member? name).getD .null)
  | .intermediateNull => .null
  | .missing => .missing

/-- A path with names has a last one. -/
theorem FieldPath.exists_leaf? {path : FieldPath} (named : path.isEmpty = false) :
    ∃ name, path.leaf? = some name := by
  cases last : path.leaf? with
  | some name => exact ⟨name, rfl⟩
  | none =>
    have none : path.segments = [] := List.getLast?_eq_none_iff.1 last
    rw [isEmpty, none] at named
    cases named

theorem Sample.ofRecord_eq {path : FieldPath} {name : String} (h : path.leaf? = some name)
    (r : Record) : ofRecord path r = (r.parent path).sample name := by
  simp only [ofRecord, h]
  cases r.parent path <;> rfl

theorem Parent.Like.sample_eq {p q : Parent} (h : Like p q) (name : String) :
    p.sample name = q.sample name := by
  cases h with
  | refl => rfl
  | record tree =>
    rw [Parent.sample, Parent.sample, Sample.ofMember, tree.lookup?_eq, ← tree.map_member? name,
      tree.isStatic_eq]
    cases Record.member? _ name <;> rfl

namespace Record

variable {r s : Record}

theorem HoldsTree.parent (h : r.HoldsTree) (path : FieldPath) :
    Parent.Like (r.parent path) (follow (.tree r.toValue) path.parents) :=
  (Parent.Like.record h).follow path.parents

/-- **Records that hold the same tree look alike.** -/
theorem HoldsTree.alike (hr : r.HoldsTree) (hs : s.HoldsTree) (same : r.toValue = s.toValue) :
    Alike r s where
  isStatic_eq := hr.isStatic_eq.trans hs.isStatic_eq.symm
  resolve_eq path := by
    rw [resolve, resolve]
    cases path.leaf? with
    | none => rfl
    | some name =>
      calc Parent.read name (r.parent path)
          = Parent.read name (follow (.tree r.toValue) path.parents) :=
            (hr.parent path).read_eq name
        _ = Parent.read name (follow (.tree s.toValue) path.parents) := by rw [same]
        _ = Parent.read name (s.parent path) := ((hs.parent path).read_eq name).symm
  sample_eq path := by
    cases last : path.leaf? with
    | none => rw [Sample.ofRecord, Sample.ofRecord, last]
    | some name =>
      calc Sample.ofRecord path r = (r.parent path).sample name := Sample.ofRecord_eq last r
        _ = (follow (.tree r.toValue) path.parents).sample name := (hr.parent path).sample_eq name
        _ = (follow (.tree s.toValue) path.parents).sample name := by rw [same]
        _ = (s.parent path).sample name := ((hs.parent path).sample_eq name).symm
        _ = Sample.ofRecord path s := (Sample.ofRecord_eq last s).symm
  isSome_member?_eq name := by
    have members (r : Record) (h : r.HoldsTree) :
        (r.member? name).isSome = (r.toValue.member? name).isSome := by
      rw [← h.map_member? name, Option.isSome_map]
    rw [members r hr, members s hs, same]
  mem_memberNames_iff name := by rw [hr.mem_memberNames_iff, hs.mem_memberNames_iff, same]

end Record

end RecordQuery
