import RecordQuery.Group
import RecordQuery.Proofs.Fields.Sorted

/-!
# Classes of a list by keys

`classes` cuts a list of keyed members into classes. Nothing is lost and nothing comes twice.

* `get?_classes`: the class of a key holds the members of that key in their order;
* `mem_classes`: these are all classes, and none is empty;
* `flatMap_classes_perm`: together the classes hold every member once.
-/

namespace RecordQuery

variable {α : Type} {key : String}

namespace Fields

theorem get?_filter_ne {other : String} (h : other ≠ key) (fields : Fields α) :
    get? key (fields.filter (·.1 ≠ other)) = get? key fields := by
  induction fields with
  | nil => rfl
  | cons field fields ih =>
    by_cases dropped : field.1 = other
    · have : field.1 ≠ key := fun same => h (dropped.symm.trans same)
      rw [List.filter_cons_of_neg (by simpa using dropped), ih, get?, if_neg this]
    · rw [List.filter_cons_of_pos (by simpa using dropped), get?, get?, ih]

/-- The field of a name and the fields of all other names. -/
theorem flatMap_filter_ne_perm {fields : Fields (List α)} (h : Distinct fields) (key : String) :
    ((get? key fields).getD [] ++ (fields.filter (·.1 ≠ key)).flatMap (·.2)).Perm
      (fields.flatMap (·.2)) := by
  induction fields with
  | nil => exact .refl _
  | cons field fields ih =>
    obtain ⟨fresh, rest⟩ := distinct_cons.1 h
    by_cases same : field.1 = key
    · have kept : fields.filter (·.1 ≠ key) = fields := by
        refine List.filter_eq_self.2 fun other mem => ?_
        have : other.1 ≠ key := fun eq =>
          fresh (same ▸ eq ▸ List.mem_map.2 ⟨other, mem, rfl⟩)
        simpa using this
      rw [List.filter_cons_of_neg (by simpa using same), kept]
      simp [get?, same]
    · rw [List.filter_cons_of_pos (by simpa using same), get?, if_neg same, List.flatMap_cons,
        List.flatMap_cons]
      calc (get? key fields).getD [] ++ (field.2 ++ (fields.filter (·.1 ≠ key)).flatMap (·.2))
          |>.Perm (field.2 ++ ((get? key fields).getD [] ++
            (fields.filter (·.1 ≠ key)).flatMap (·.2))) := by
            simpa only [List.append_assoc] using List.perm_append_comm.append_right _
        _ |>.Perm (field.2 ++ fields.flatMap (·.2)) := (ih rest).append_left _

end Fields

theorem distinct_classes (members : List (String × α)) : Fields.Distinct (classes members) := by
  induction members with
  | nil => exact List.nodup_nil
  | cons member members ih =>
    refine Fields.distinct_cons.2 ⟨fun mem => ?_, ?_⟩
    · obtain ⟨other, later, same⟩ := List.mem_map.1 mem
      simp [same] at later
    · exact List.Nodup.sublist (List.filter_sublist.map Prod.fst) ih

/-- The class of a key. -/
theorem get?_classes (key : String) (members : List (String × α)) :
    (Fields.get? key (classes members)).getD [] =
      (members.filter (·.1 = key)).map (·.2) := by
  induction members with
  | nil => rfl
  | cons member members ih =>
    rw [classes, Fields.get?]
    by_cases same : member.1 = key
    · subst same
      simp [ih]
    · rw [if_neg same, Fields.get?_filter_ne same, ih,
        List.filter_cons_of_neg (by simpa using same)]

theorem classes_ne_nil {members : List (String × α)} {items : List α}
    (h : (key, items) ∈ classes members) : items ≠ [] := by
  induction members with
  | nil => cases h
  | cons member members ih =>
    rcases List.mem_cons.1 h with eq | later
    · simp [(Prod.mk.inj eq).2]
    · exact ih (List.mem_filter.1 later).1

/-- A class holds the members of its key in their order, and is not empty. -/
theorem mem_classes {members : List (String × α)} {items : List α}
    (h : (key, items) ∈ classes members) :
    items = (members.filter (·.1 = key)).map (·.2) ∧ items ≠ [] := by
  have found := (Fields.get?_eq_some_iff (distinct_classes members)).2 h
  refine ⟨?_, classes_ne_nil h⟩
  rw [← get?_classes, found, Option.getD_some]

/-- The classes hold every member once. -/
theorem flatMap_classes_perm (members : List (String × α)) :
    ((classes members).flatMap (·.2)).Perm (members.map (·.2)) := by
  induction members with
  | nil => exact .refl _
  | cons member members ih =>
    rw [classes, List.flatMap_cons, List.map_cons, List.cons_append]
    exact ((Fields.flatMap_filter_ne_perm (distinct_classes members) member.1).trans ih).cons _

end RecordQuery
