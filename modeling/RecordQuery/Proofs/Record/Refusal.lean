import RecordQuery.Proofs.Record.Alike
import RecordQuery.Sample.Orders

/-!
# Refused writes

A write makes the records that are missing on its way before it knows whether the last name takes
the value, and a refusal does not take them back. They are all that a refused write can leave
behind.

* `Record.Filled` says that a record differs from another one in blank records at empty members that
  some names lead to;
* `Record.filled_writeAt`: so does a record after a refused write;
* `Record.Filled.eq_of_not_static` and `Record.Filled.eq_of_resolve_ne_null`: nothing is different
  in maps and dynamic records, nor where no name on the way reads as null;
* `Record.set_refused` puts this together.
-/

namespace RecordQuery.Record

variable {r child filled opened : Record} {name key leaf : String} {names : List String} {v : Value}

/-- Empty members of the first record that the names lead to, one after the other, hold blank
records in the second one. All else is the same. -/
inductive Filled : List String → Record → Record → Prop
  | same (names : List String) (r : Record) : Filled names r r
  /-- In the record at the first name. -/
  | inside {name key : String} {names : List String} {r child filled : Record} :
    r.writableName name = .ok key → r.nested? key = some child → Filled names child filled →
      Filled (name :: names) r (r.setNested key filled)
  /-- The first name leads to an empty member of a structure, where a record of its shape is made.
  -/
  | made {name key title : String} {names : List String} {slots : Fields Slot} {shape : Shape}
    {typed assignable : Bool} {filled : Record} :
    (Record.shaped title slots).writableName name = .ok key →
    Fields.get? key slots = some (.nested shape typed assignable none) →
    Filled names shape.blank filled →
      Filled (name :: names) (.shaped title slots)
        (.shaped title (Fields.put key (.nested shape typed assignable (some filled)) slots))

/-! ## Making records -/

/-- What is made in a map, on the way to a value: a map without fields. -/
def IsEmptyMap (r : Record) : Prop := r = .value (.object []) ∨ r = .json (.object [])

/-- A map without fields takes every value at every path. -/
theorem writeAt_emptyMap (h : r.IsEmptyMap) (v : Value) (leaf : String) (names : List String) :
    (writeAt v leaf r names).2 = none := by
  induction names generalizing r with
  | nil => rcases h with rfl | rfl <;> rfl
  | cons name names ih =>
    rcases h with rfl | rfl
    · simpa [writeAt, writableName, isStatic, representation, openMember, nested?, Value.member?,
        Fields.get?, materialize, fillGap, Fields.insert, ofContainer?, Value.isContainer]
        using ih (.inl rfl)
    · simpa [writeAt, writableName, isStatic, representation, openMember, nested?, jsonChild?,
        Fields.get?, materialize, fillGap, Fields.insert, Json.isContainer] using ih (.inr rfl)

/-- Where there is no record yet, a map without fields is made in a map, and a blank record of the
declared shape in a structure. -/
theorem materialize_cases (h : r.materialize key = .ok opened) (none : r.nested? key = none) :
    (r.isStatic = false ∧ ∃ empty : Record, empty.IsEmptyMap ∧ opened.nested? key = some empty) ∨
    ∃ title slots shape typed assignable, r = .shaped title slots ∧
      Fields.get? key slots = some (.nested shape typed assignable Option.none) ∧
      opened = .shaped title
        (Fields.put key (.nested shape typed assignable (some shape.blank)) slots) := by
  cases r with
  | value v =>
    cases v with
    | object fields =>
      obtain rfl := fillGap_eq_ok h
      refine .inl ⟨rfl, .value (.object []), .inl rfl, ?_⟩
      simp [nested?, Value.member?, Fields.get?_insert_self, ofContainer?, Value.isContainer]
    | _ => cases h
  | table fields =>
    obtain rfl := fillGap_eq_ok h
    refine .inl ⟨rfl, .value (.object []), .inl rfl, ?_⟩
    simp [nested?, Fields.get?_insert_self, ofContainer?, Value.isContainer]
  | hash entries =>
    obtain rfl := fillGap_eq_ok h
    refine .inl ⟨rfl, .value (.object []), .inl rfl, ?_⟩
    simp [nested?, Fields.get?_put_self, ofContainer?, Value.isContainer]
  | json j =>
    cases j with
    | object members =>
      obtain rfl := fillGap_eq_ok h
      refine .inl ⟨rfl, .json (.object []), .inr rfl, ?_⟩
      simp [nested?, jsonChild?, Fields.get?_insert_self, Json.isContainer]
    | _ => cases h
  | dynamic members => cases h
  | list items => cases h
  | shaped title slots =>
    simp only [materialize] at h
    split at h
    · next slot found =>
      obtain rfl := (Except.ok.inj h).symm
      obtain ⟨old, listed, found⟩ := Option.bind_eq_some_iff.1 found
      simp only [nested?, listed, Option.bind_some] at none
      cases old with
      | nested shape typed assignable record =>
        obtain rfl : record = Option.none := none
        obtain rfl := Option.some.inj found
        exact .inr ⟨title, slots, shape, typed, assignable, rfl, listed, rfl⟩
      | _ => cases found
    · cases h

/-! ## A refused write -/

/-- **A refused write** leaves a record as it was, but for the records that were made on the way. -/
theorem filled_writeAt (v : Value) (leaf : String) (r : Record) (names : List String)
    (refused : (writeAt v leaf r names).2 ≠ none) : Filled names r (writeAt v leaf r names).1 := by
  induction names generalizing r with
  | nil =>
    rw [writeAt] at refused ⊢
    cases written : (r.writableName leaf).bind fun name => r.setMember name v with
    | ok s => simp [written] at refused
    | error e => exact .same _ _
  | cons name names ih =>
    rw [writeAt] at refused ⊢
    cases named : r.writableName name with
    | error e => exact .same _ _
    | ok key =>
      cases nested : r.nested? key with
      | some child =>
        simp only [named, openMember, nested] at refused ⊢
        exact .inside named nested (ih child refused)
      | none =>
        cases making : r.materialize key with
        | error e =>
          simp only [openMember, nested, making]
          exact .same _ _
        | ok opened =>
          simp only [named, openMember, nested, making] at refused ⊢
          rcases materialize_cases making nested with ⟨-, empty, isEmpty, held⟩ |
            ⟨title, slots, shape, typed, assignable, rfl, listed, rfl⟩
          · -- into a map that was just made every write goes through
            simp [held, writeAt_emptyMap isEmpty] at refused
          · have held : (Record.shaped title (Fields.put key
                (.nested shape typed assignable (some shape.blank)) slots)).nested? key =
                some shape.blank := by
              simp [nested?, Fields.get?_put_self, Slot.nested?]
            simp only [held, setNested, Fields.get?_put_self, Slot.setNested, Fields.put_put]
              at refused ⊢
            exact .made named listed (ih _ refused)

/-! ## Where nothing is left behind -/

theorem member?_of_nested? (h : r.nested? key = some child) :
    r.member? key = some (.record child) := by
  have container {v : Value} (h : ofContainer? v = some child) :
      memberOfValue v = .record child := by
    obtain rfl := ofContainer?_eq_some h
    rw [ofContainer?] at h
    rw [memberOfValue]
    split at h
    · next children => rw [if_pos children]
    · cases h
  cases r with
  | value v =>
    obtain ⟨inner, found, h⟩ := Option.bind_eq_some_iff.1 h
    rw [member?, found, Option.map_some, container h]
  | table fields =>
    obtain ⟨inner, found, h⟩ := Option.bind_eq_some_iff.1 h
    rw [member?, found, Option.map_some, container h]
  | hash entries =>
    obtain ⟨inner, found, h⟩ := Option.bind_eq_some_iff.1 h
    rw [member?, found, Option.map_some, container h]
  | json j =>
    obtain ⟨inner, found, h⟩ := Option.bind_eq_some_iff.1 h
    split at h
    · next children => simp [member?, found, memberOfJson, children, ← Option.some.inj h]
    · cases h
  | dynamic members => cases h
  | list items =>
    obtain ⟨i, index, found⟩ := Option.bind_eq_some_iff.1 h
    simp [member?, index, found]
  | shaped title slots =>
    obtain ⟨slot, listed, held⟩ := Option.bind_eq_some_iff.1 h
    rw [member?, listed, Option.map_some]
    cases slot with
    | nested shape typed assignable record =>
      obtain rfl : record = some child := held
      rfl
    | records items =>
      obtain rfl := Option.some.inj held
      rfl
    | _ => cases held

theorem isStatic_nested (h : r.isStatic = false) (held : r.nested? key = some child) :
    child.isStatic = false :=
  isStatic_of_member? h (member?_of_nested? held)

/-- Nothing is made in maps and dynamic records. -/
theorem Filled.eq_of_not_static (h : Filled names r filled) (ordered : r.Ordered)
    (free : r.isStatic = false) : filled = r := by
  induction h with
  | same => rfl
  | inside _ held _ ih =>
    rw [ih (ordered.nested held) (isStatic_nested free held), setNested_self ordered held]
  | made => cases free

/-- The name under which a member is written is the one under which it is read. -/
theorem lookup?_eq_member? (h : r.writableName name = .ok key) :
    r.lookup? name = r.member? key := by
  rw [writableName] at h
  rw [lookup?]
  cases exact : r.member? name with
  | some m =>
    obtain rfl : name = key := by simpa [exact] using h
    exact exact.symm
  | none =>
    by_cases static : r.isStatic
    · cases other : r.nameInOtherCase? name with
      | none => simp [exact, static, other] at h
      | some found =>
        obtain rfl : found = key := by simpa [exact, static, other] using h
        rfl
    · obtain rfl : name = key := by simpa [static] using h
      simp [nameInOtherCase?, static, exact]

/-- Reading a path goes on in the record at its first name. -/
theorem resolve_cons (text : String) (h : r.lookup? name = some (.record child))
    (some : names ≠ []) :
    r.resolve ⟨text, name :: names⟩ = child.resolve ⟨text, names⟩ := by
  obtain ⟨next, rest, rfl⟩ := List.exists_cons_of_ne_nil some
  simp only [resolve, FieldPath.leaf?, List.getLast?_cons_cons, parent, FieldPath.parents,
    List.dropLast_cons_cons, follow, step, h]

/-- Nothing is made where no name on the way reads as null. -/
theorem Filled.eq_of_resolve_ne_null (h : Filled names r filled) (ordered : r.Ordered)
    (text : String)
    (some : ∀ way, way ≠ [] → way <+: names → r.resolve ⟨text, way⟩ ≠ .value .null) :
    filled = r := by
  induction h with
  | same => rfl
  | @inside name key names r child filled named held _ ih =>
    have lookup : r.lookup? name = Option.some (.record child) := by
      rw [lookup?_eq_member? named, member?_of_nested? held]
    have below : filled = child := by
      refine ih (ordered.nested held) fun way first before => ?_
      rw [← resolve_cons text lookup first]
      exact some (name :: way) (by simp) (List.cons_prefix_cons.2 ⟨rfl, before⟩)
    rw [below, setNested_self ordered held]
  | @made name key title names slots shape typed assignable filled named listed _ _ =>
    -- the member that was filled is one that reads as null
    refine absurd ?_ (some [name] (by simp) (List.cons_prefix_cons.2 ⟨rfl, List.nil_prefix⟩))
    have lookup : (Record.shaped title slots).lookup? name = Option.some (.value .null) := by
      rw [lookup?_eq_member? named, member?, listed]
      rfl
    simp [resolve, FieldPath.leaf?, parent, FieldPath.parents, follow, Parent.read, lookup,
      Member.toValue]

/-- **A refused write** changes nothing but null members on its way, which may hold blank records
afterwards. A map or a dynamic record stays as it was, and so does every record in which no name on
the way reads as null. -/
theorem set_refused {path : String} (ordered : r.Ordered) (refused : (r.set path v).2 = false) :
    Filled (FieldPath.parse path).parents r (r.set path v).1 ∧
    (r.isStatic = false → (r.set path v).1 = r) ∧
    ((∀ way, way ≠ [] → way <+: (FieldPath.parse path).parents →
      r.resolve ⟨path, way⟩ ≠ .value .null) → (r.set path v).1 = r) := by
  have filled : Filled (FieldPath.parse path).parents r (r.set path v).1 := by
    simp only [set, write] at refused ⊢
    cases last : (FieldPath.parse path).leaf? with
    | none => exact .same _ _
    | some leaf =>
      refine filled_writeAt v leaf r _ fun written => ?_
      simp [last, written] at refused
  exact ⟨filled, filled.eq_of_not_static ordered, filled.eq_of_resolve_ne_null ordered path⟩

/-- An order takes no member `Address.Nope`, but has an address after the attempt to write one. -/
theorem set_unknown_makes_address :
    (Sample.orderShape.blank.set "Address.Nope" (.string "x")).2 = false ∧
    (Sample.orderShape.blank.set "Address.Nope" (.string "x")).1.toValue ≠
      Sample.orderShape.blank.toValue := by
  refine ⟨by decide, fun same => ?_⟩
  have : ((Sample.orderShape.blank.set "Address.Nope" (.string "x")).1.toValue.member?
      "Address").map Value.isNull =
        (Sample.orderShape.blank.toValue.member? "Address").map Value.isNull := by rw [same]
  exact absurd this (by decide)

/-- What refused writes leave of an order and of a dynamic record. -/
theorem set_refused_of_order_of_dynamic :
    Filled ["Address"] Sample.orderShape.blank
      (Sample.orderShape.blank.set "Address.Nope" (.string "x")).1 ∧
    (Sample.orderShape.blank.set "OrderID" (.string "no number")).1 = Sample.orderShape.blank ∧
    ((Record.dynamic []).set "_id" (.int64 1)).1 = .dynamic [] := by
  have parents : (FieldPath.parse "Address.Nope").parents = ["Address"] := by decide
  have root : (FieldPath.parse "OrderID").parents = [] := by decide
  refine ⟨?_, ?_, ?_⟩
  · rw [← parents]
    exact (set_refused (Shape.ordered_blank _) (by decide)).1
  · refine (set_refused (Shape.ordered_blank _) (by decide)).2.2 fun way some before => ?_
    rw [root, List.prefix_nil] at before
    exact absurd before some
  · exact (set_refused (.dynamic []) (by decide)).2.1 rfl

end RecordQuery.Record
