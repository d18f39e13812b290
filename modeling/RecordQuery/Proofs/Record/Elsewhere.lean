import RecordQuery.Proofs.Record.Written

/-!
# Reading elsewhere

A write that goes through changes nothing at paths that lead to other members. Records that it makes
on its way are read as null there before, and null is read in them afterwards.

* `Record.Diverges`: two paths lead to different members of one record on the way;
* `Record.Complete`: no structure lacks a record that a write could make in it;
* `Record.Wrote.valueAt_of_diverges`: then a diverging path reads what it read before.
-/

namespace RecordQuery.Record

variable {r w child written opened : Record} {name other key leaf path text : String}
  {names others : List String} {v : Value}

/-- The names of two paths lead on together, and then to different members of one record. It is the
record as a write along the first path finds it, or makes it. -/
inductive Diverges : Record → List String → List String → Prop
  | here {r : Record} {name other : String} (names others : List String) :
    ¬ r.SameMember name other → Diverges r (name :: names) (other :: others)
  | inside {r opened child : Record} {name other key : String} {names others : List String} :
    r.SameMember name other → r.writableName name = .ok key → r.openMember key = .ok opened →
    opened.nested? key = some child → Diverges child names others →
      Diverges r (name :: names) (other :: others)

/-- A record in which nothing is made that could be read: it is not static, or all records that its
members can hold are there, and complete. -/
inductive Complete : Record → Prop
  | free {r : Record} : r.isStatic = false → Complete r
  | static {r : Record} : (∀ key opened, r.openMember key = .ok opened → opened = r) →
    (∀ key child, r.nested? key = some child → Complete child) → Complete r

theorem Complete.inside (h : r.Complete) (opening : r.openMember key = .ok opened)
    (held : opened.nested? key = some child) : child.Complete := by
  cases h with
  | free free =>
    have free' : opened.isStatic = false :=
      (changedAt_openMember opening).follows.isStatic_eq.trans free
    exact .free (isStatic_nested free' held)
  | static full below =>
    obtain rfl := full key opened opening
    exact below key child held

/-- A structure is complete if none of its optional structures is missing, and all are complete. -/
theorem Complete.shaped {title : String} {slots : Fields Slot}
    (full : ∀ slot ∈ slots, ∀ shape typed assignable, slot.2 ≠ .nested shape typed assignable none)
    (below : ∀ slot ∈ slots, ∀ r, slot.2.nested? = some r → r.Complete) :
    (Record.shaped title slots).Complete := by
  refine .static (fun key opened opening => ?_) fun key child held => ?_
  · rw [openMember] at opening
    split at opening
    · exact (Except.ok.inj opening).symm
    · next none =>
      rcases materialize_cases opening none with ⟨free, -⟩ |
        ⟨_, _, shape, typed, assignable, same, listed, -⟩
      · cases free
      · obtain ⟨rfl, rfl⟩ := Record.shaped.inj same
        exact absurd rfl (full _ (Fields.mem_of_get? listed) shape typed assignable)
  · obtain ⟨slot, listed, held⟩ := Option.bind_eq_some_iff.1 held
    exact below _ (Fields.mem_of_get? listed) child held

/-! ## Reading along names -/

theorem resolve_single (r : Record) (text name : String) :
    r.resolve ⟨text, [name]⟩ = Parent.read name (.record r) := rfl

theorem resolve_cons_cons (r : Record) (text name next : String) (rest : List String) :
    r.resolve ⟨text, name :: next :: rest⟩ =
      Parent.read ((next :: rest).getLast (List.cons_ne_nil _ _))
        (follow (r.step name) (next :: rest).dropLast) := by
  simp only [resolve, FieldPath.leaf?, List.getLast?_cons_cons, parent, FieldPath.parents,
    List.dropLast_cons_cons, follow, List.getLast?_eq_some_getLast (List.cons_ne_nil next rest)]

/-- What is read depends on the member at the first name. -/
theorem valueAt_congr (same : w.lookup? name = r.lookup? name) (static : w.isStatic = r.isStatic)
    (names : List String) : w.valueAt ⟨text, name :: names⟩ = r.valueAt ⟨text, name :: names⟩ := by
  cases names with
  | nil => simp only [valueAt, resolve_single, Parent.read, same, static]
  | cons next rest => simp only [valueAt, resolve_cons_cons, step, same, static]

/-- A name that is null or missing leads to null. -/
theorem valueAt_of_null (h : ∀ m, r.lookup? name = some m → m = .value .null)
    (names : List String) : r.valueAt ⟨text, name :: names⟩ = .null := by
  have intermediate (names : List String) : follow .intermediateNull names = .intermediateNull := by
    cases names <;> rfl
  have missing (names : List String) : follow .missing names = .missing := by
    cases names <;> rfl
  cases names with
  | nil =>
    rw [valueAt, resolve_single, Parent.read]
    cases found : r.lookup? name with
    | none => cases r.isStatic <;> rfl
    | some m =>
      obtain rfl := h m found
      rfl
  | cons next rest =>
    rw [valueAt, resolve_cons_cons, step]
    cases found : r.lookup? name with
    | none =>
      cases r.isStatic
      · exact congrArg _ (congrArg _ (intermediate _))
      · exact congrArg _ (congrArg _ (missing _))
    | some m =>
      obtain rfl := h m found
      exact congrArg _ (congrArg _ (intermediate _))

/-- Nothing but null is read in a map without fields. -/
theorem valueAt_emptyMap (h : r.IsEmptyMap) (names : List String) :
    r.valueAt ⟨text, names⟩ = .null := by
  cases names with
  | nil => rfl
  | cons name names =>
    refine valueAt_of_null (fun m found => ?_) names
    rcases h with rfl | rfl <;> cases found

theorem valueAt_cons (found : r.lookup? name = some (.record child)) (some : names ≠ []) :
    r.valueAt ⟨text, name :: names⟩ = child.valueAt ⟨text, names⟩ := by
  rw [valueAt, resolve_cons text found some, valueAt]

/-! ## Beside what was written -/

theorem Diverges.ne_nil (h : Diverges r names others) : others ≠ [] := by
  cases h <;> exact List.cons_ne_nil _ _

/-- What a path reads that goes on inside the member that is opened for a write. If the record in it
has only been made, the path reads null in both. -/
theorem valueAt_of_openMember (complete : r.Complete) (named : r.writableName name = .ok key)
    (opening : r.openMember key = .ok opened) (held : opened.nested? key = some child)
    (same : r.SameMember name other) (some : others ≠ []) :
    r.valueAt ⟨text, other :: others⟩ = child.valueAt ⟨text, others⟩ := by
  have read : r.lookup? other = r.member? key := lookup?_of_sameMember named same
  cases before : r.nested? key with
  | some old =>
    obtain rfl : r = opened := by simpa [openMember, before] using opening
    exact valueAt_cons (read.trans (member?_of_nested? held)) some
  | none =>
    have making : r.materialize key = .ok opened := by simpa [openMember, before] using opening
    cases complete with
    | static full =>
      obtain rfl := full key opened opening
      rw [before] at held
      cases held
    | free free =>
      rcases materialize_cases making before with ⟨-, empty, isEmpty, held'⟩ |
        ⟨title, slots, shape, typed, assignable, rfl, -, -⟩
      · obtain rfl : child = empty := Option.some.inj (held.symm.trans held')
        rw [valueAt_emptyMap isEmpty]
        exact valueAt_of_null (fun m found => materialize_gap free making m (read ▸ found)) others
      · cases free

/-- **Diverging paths** read what they read before. -/
theorem Wrote.valueAt_of_diverges (h : Wrote v leaf r names w) (complete : r.Complete)
    (apart : Diverges r (names ++ [leaf]) others) :
    w.valueAt ⟨text, others⟩ = r.valueAt ⟨text, others⟩ := by
  induction h generalizing others with
  | @assigned r w key named set =>
    cases apart with
    | here _ others other =>
      exact valueAt_congr ((changedAt_setMember set).lookup?_eq named other)
        (changedAt_setMember set).follows.isStatic_eq _
    | inside _ _ _ _ below => cases below
  | @inside r opened child written name key names named opening held wrote ih =>
    obtain ⟨changed, found⟩ := changedTo_setNested held wrote.follows
    have whole := (changedAt_openMember opening).trans changed
    cases apart with
    | here _ others other =>
      exact valueAt_congr (whole.lookup?_eq named other) whole.follows.isStatic_eq _
    | @inside _ opened' child' _ other key' _ others same named' opening' held' below =>
      obtain rfl : key = key' := Except.ok.inj (named.symm.trans named')
      obtain rfl : opened = opened' := Except.ok.inj (opening.symm.trans opening')
      obtain rfl : child = child' := Option.some.inj (held.symm.trans held')
      have again : (opened.setNested key written).writableName name = .ok key :=
        (whole.follows.writableName_eq name).trans named
      have after : (opened.setNested key written).lookup? other = some (.record written) :=
        (lookup?_of_sameMember again (whole.follows.sameMember same)).trans found
      calc (opened.setNested key written).valueAt ⟨text, other :: others⟩
          = written.valueAt ⟨text, others⟩ := valueAt_cons after below.ne_nil
        _ = child.valueAt ⟨text, others⟩ := ih (complete.inside opening held) below
        _ = r.valueAt ⟨text, other :: others⟩ :=
          (valueAt_of_openMember complete named opening held same below.ne_nil).symm

/-- **Paths that diverge** from the one that was written read what they read before. -/
theorem get_set_of_diverges {other : String} (complete : r.Complete) (h : (r.set path v).2 = true)
    (apart : Diverges r (FieldPath.parse path).segments (FieldPath.parse other).segments) :
    (r.set path v).1.get other = r.get other := by
  obtain ⟨leaf, last, wrote⟩ := wrote_of_set h
  have segments : (FieldPath.parse path).segments = (FieldPath.parse path).parents ++ [leaf] := by
    obtain ⟨before, segments⟩ := List.getLast?_eq_some_iff.1 last
    rw [FieldPath.parents, segments, List.dropLast_concat]
  rw [segments] at apart
  exact wrote.valueAt_of_diverges complete apart

end RecordQuery.Record
