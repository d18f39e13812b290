import RecordQuery.Fields

/-!
# Fields in order

A list of fields is a finite map when no name stands in it twice, and the map has one list that is
in order of names.

* `Fields.Distinct` and `Fields.Sorted` say so of a list of pairs;
* `Fields.get?_eq_some_iff` and `Fields.get?_perm`: among distinct names the look-up is membership,
  so the order of the list does not count;
* `Fields.Sorted.ext`: sorted fields with the same look-up are the same list;
* `Fields.get?_ofList`, `Fields.ofList_eq_of_perm`: what `ofList` makes of a list of pairs;
* `Fields.put_eq_self` and `Fields.Sorted.insert_eq_self`: writing what is there changes nothing.
-/

namespace RecordQuery

namespace Fields

variable {α β : Type} {name : String} {value : α} {fields a b : Fields α}

/-- No name stands twice. -/
def Distinct (fields : Fields α) : Prop := (names fields).Nodup

/-- The names ascend. -/
def Sorted (fields : Fields α) : Prop := fields.Pairwise fun a b => compare a.1 b.1 = .lt

instance : Decidable (Distinct fields) := inferInstanceAs (Decidable (names fields).Nodup)

instance : Decidable (Sorted fields) :=
  inferInstanceAs (Decidable (fields.Pairwise fun a b => compare a.1 b.1 = .lt))

theorem sorted_cons {field : String × α} :
    Sorted (field :: fields) ↔ (∀ other ∈ fields, compare field.1 other.1 = .lt) ∧ Sorted fields :=
  List.pairwise_cons

theorem distinct_cons {field : String × α} :
    Distinct (field :: fields) ↔ field.1 ∉ names fields ∧ Distinct fields :=
  List.nodup_cons

theorem Sorted.distinct (h : Sorted fields) : Distinct fields := by
  refine List.Pairwise.map _ (fun a b less same => ?_) h
  simp [same, Std.ReflCmp.compare_self] at less

/-! ## Look-up -/

theorem get?_append (a b : Fields α) : get? name (a ++ b) = (get? name a).or (get? name b) := by
  induction a with
  | nil => rfl
  | cons field a ih =>
    by_cases same : field.1 = name
    · simp [get?, same]
    · simp [get?, same, ih]

theorem get?_map (f : α → β) (fields : Fields α) :
    get? name (fields.map fun field => (field.1, f field.2)) = (get? name fields).map f := by
  induction fields with
  | nil => rfl
  | cons field fields ih =>
    by_cases same : field.1 = name
    · simp [get?, same]
    · simp [get?, same, ih]

theorem mem_of_get? (h : get? name fields = some value) : (name, value) ∈ fields := by
  induction fields with
  | nil => cases h
  | cons field fields ih =>
    obtain ⟨k, v⟩ := field
    by_cases same : k = name
    · subst same
      simp only [get?, if_true, Option.some.injEq] at h
      simp [h]
    · simp only [get?, if_neg same] at h
      exact List.mem_cons_of_mem _ (ih h)

theorem mem_names_iff : name ∈ names fields ↔ (get? name fields).isSome := by
  induction fields with
  | nil => simp [names, get?]
  | cons field fields ih =>
    rw [names, List.map_cons, List.mem_cons, get?]
    by_cases same : field.1 = name
    · simp [same]
    · rw [if_neg same, ← ih, names]
      simp [Ne.symm same]

theorem get?_eq_none (h : name ∉ names fields) : get? name fields = none := by
  simpa using mt mem_names_iff.2 h

/-- Among distinct names the look-up finds every pair. -/
theorem get?_eq_some_iff (h : Distinct fields) :
    get? name fields = some value ↔ (name, value) ∈ fields := by
  refine ⟨mem_of_get?, fun mem => ?_⟩
  induction fields with
  | nil => cases mem
  | cons field fields ih =>
    obtain ⟨first, rest⟩ := distinct_cons.1 h
    rcases List.mem_cons.1 mem with rfl | later
    · simp [get?]
    · have other : field.1 ≠ name := by
        rintro rfl
        exact first (List.mem_map.2 ⟨_, later, rfl⟩)
      rw [get?, if_neg other, ih rest later]

theorem Distinct.perm (h : Distinct a) (perm : a.Perm b) : Distinct b :=
  (perm.map Prod.fst).nodup_iff.1 h

/-- Among distinct names the order does not count. -/
theorem get?_perm (h : Distinct a) (perm : a.Perm b) : get? name a = get? name b := by
  refine Option.ext fun value => ?_
  rw [get?_eq_some_iff h, get?_eq_some_iff (h.perm perm), perm.mem_iff]

theorem Sorted.map (f : α → β) (h : Sorted fields) :
    Sorted (fields.map fun field => (field.1, f field.2)) :=
  List.Pairwise.map _ (fun _ _ less => less) h

/-! ## Insertion in order -/

theorem mem_insert {field : String × α} (h : field ∈ insert name value fields) :
    field = (name, value) ∨ field ∈ fields := by
  induction fields with
  | nil => simpa [insert] using h
  | cons first rest ih =>
    rw [insert] at h
    split at h
    · simpa using h
    · rcases List.mem_cons.1 h with rfl | later
      · exact .inl rfl
      · exact .inr (List.mem_cons_of_mem _ later)
    · rcases List.mem_cons.1 h with rfl | later
      · simp
      · exact (ih later).imp_right (List.mem_cons_of_mem _)

theorem Sorted.insert (h : Sorted fields) (name : String) (value : α) :
    Sorted (insert name value fields) := by
  induction fields with
  | nil => simp [Fields.insert, Sorted]
  | cons field rest ih =>
    obtain ⟨k, v⟩ := field
    obtain ⟨first, rest'⟩ := sorted_cons.1 h
    rw [Fields.insert]
    split
    · next less =>
      refine sorted_cons.2 ⟨fun other mem => ?_, h⟩
      rcases List.mem_cons.1 mem with rfl | later
      · exact less
      · exact Std.TransCmp.lt_trans less (first other later)
    · next same =>
      have : name = k := Std.LawfulEqCmp.eq_of_compare same
      subst this
      exact sorted_cons.2 ⟨first, rest'⟩
    · next greater =>
      refine sorted_cons.2 ⟨fun other mem => ?_, ih rest'⟩
      rcases mem_insert mem with rfl | later
      · exact Std.OrientedCmp.lt_of_gt greater
      · exact first other later

/-- Sorted fields are determined by their look-up. -/
theorem Sorted.ext (ha : Sorted a) (hb : Sorted b) (h : ∀ name, get? name a = get? name b) :
    a = b := by
  induction a generalizing b with
  | nil =>
    cases b with
    | nil => rfl
    | cons field b => simpa [get?] using h field.1
  | cons first as ih =>
    cases b with
    | nil => simpa [get?] using h first.1
    | cons second bs =>
      obtain ⟨k, v⟩ := first
      obtain ⟨l, w⟩ := second
      obtain ⟨fresh, rest⟩ := distinct_cons.1 ha.distinct
      obtain ⟨fresh', rest'⟩ := distinct_cons.1 hb.distinct
      -- each name is found in the other list, and there it cannot stand behind the first place
      have same : k = l := by
        have found : (k, v) ∈ (l, w) :: bs := mem_of_get? ((h k).symm.trans (by simp [get?]))
        have found' : (l, w) ∈ (k, v) :: as := mem_of_get? ((h l).trans (by simp [get?]))
        rcases List.mem_cons.1 found with eq | later
        · exact congrArg Prod.fst eq
        · rcases List.mem_cons.1 found' with eq | later'
          · exact (congrArg Prod.fst eq).symm
          · have less := (sorted_cons.1 hb).1 _ later
            have less' := (sorted_cons.1 ha).1 _ later'
            have := Std.TransCmp.lt_trans less less'
            simp [Std.ReflCmp.compare_self] at this
      subst same
      have values : v = w := by simpa [get?] using h k
      have tails : as = bs := by
        refine ih (sorted_cons.1 ha).2 (sorted_cons.1 hb).2 fun name => ?_
        by_cases eq : k = name
        · subst eq
          rw [get?_eq_none fresh, get?_eq_none fresh']
        · simpa [get?, eq] using h name
      rw [values, tails]

theorem Sorted.insert_eq_self (h : Sorted fields) (found : get? name fields = some value) :
    Fields.insert name value fields = fields := by
  refine (h.insert name value).ext h fun other => ?_
  by_cases same : name = other
  · rw [← same, get?_insert_self, found]
  · rw [get?_insert_of_ne same]

/-- Replacing a field by itself changes nothing. -/
theorem put_eq_self (found : get? name fields = some value) : put name value fields = fields := by
  induction fields with
  | nil => cases found
  | cons field fields ih =>
    obtain ⟨k, v⟩ := field
    by_cases same : k = name
    · simp only [get?, if_pos same, Option.some.injEq] at found
      simp [put, same, found]
    · simp only [get?, if_neg same] at found
      simp [put, same, ih found]

theorem mem_put {field : String × α} (h : field ∈ put name value fields) :
    field = (name, value) ∨ field ∈ fields := by
  induction fields with
  | nil => simpa [put] using h
  | cons first rest ih =>
    rw [put] at h
    split at h
    · rcases List.mem_cons.1 h with rfl | later
      · exact .inl rfl
      · exact .inr (List.mem_cons_of_mem _ later)
    · rcases List.mem_cons.1 h with rfl | later
      · simp
      · exact (ih later).imp_right (List.mem_cons_of_mem _)

/-- What holds of all values holds of them after an insertion. -/
theorem forall_insert {p : α → Prop} (h : ∀ field ∈ fields, p field.2) (new : p value) :
    ∀ field ∈ insert name value fields, p field.2 := by
  intro field mem
  rcases mem_insert mem with rfl | old
  · exact new
  · exact h field old

theorem forall_put {p : α → Prop} (h : ∀ field ∈ fields, p field.2) (new : p value) :
    ∀ field ∈ put name value fields, p field.2 := by
  intro field mem
  rcases mem_put mem with rfl | old
  · exact new
  · exact h field old

/-- Of two replacements of a field the last one counts. -/
theorem put_put (first last : α) (fields : Fields α) :
    put name last (put name first fields) = put name last fields := by
  induction fields with
  | nil => simp [put]
  | cons field fields ih =>
    by_cases same : field.1 = name
    · simp [put, same]
    · simp [put, same, ih]

/-- Replacing a field keeps the names. -/
theorem names_put (found : (get? name fields).isSome = true) (value : α) :
    names (put name value fields) = names fields := by
  induction fields with
  | nil => cases found
  | cons field fields ih =>
    obtain ⟨k, v⟩ := field
    by_cases same : k = name
    · simp [put, names, same]
    · rw [get?, if_neg same] at found
      rw [put, if_neg same]
      exact congrArg (k :: ·) (ih found)

/-! ## The fields of a list of pairs -/

private theorem get?_foldl_insert (pairs : List (String × α)) (fields : Fields α) :
    get? name (pairs.foldl (fun fields (name, value) => Fields.insert name value fields) fields) =
      (get? name pairs.reverse).or (get? name fields) := by
  induction pairs generalizing fields with
  | nil => rfl
  | cons pair pairs ih =>
    rw [List.foldl_cons, ih, List.reverse_cons, get?_append, Option.or_assoc]
    by_cases same : pair.1 = name
    · simp [get?, same, get?_insert_self]
    · simp [get?, same, get?_insert_of_ne]

theorem get?_ofList (pairs : List (String × α)) :
    get? name (ofList pairs) = get? name pairs.reverse := by
  rw [ofList, get?_foldl_insert]
  simp [get?]

theorem get?_ofList_of_distinct {pairs : List (String × α)} (h : Distinct pairs) :
    get? name (ofList pairs) = get? name pairs := by
  rw [get?_ofList, ← get?_perm h pairs.reverse_perm.symm]

theorem sorted_ofList (pairs : List (String × α)) : Sorted (ofList pairs) := by
  suffices ∀ fields : Fields α, Sorted fields →
      Sorted (pairs.foldl (fun fields (name, value) => Fields.insert name value fields) fields) from
    this [] .nil
  induction pairs with
  | nil => exact fun _ h => h
  | cons pair pairs ih => exact fun fields h => ih _ (h.insert _ _)

/-- What holds of all values of a list of pairs holds of the fields. -/
theorem forall_ofList {p : α → Prop} {pairs : List (String × α)} (h : ∀ pair ∈ pairs, p pair.2) :
    ∀ field ∈ ofList pairs, p field.2 := by
  suffices ∀ fields : Fields α, (∀ field ∈ fields, p field.2) →
      ∀ field ∈ pairs.foldl (fun fields (name, value) => Fields.insert name value fields) fields,
        p field.2 from
    this [] (by simp)
  induction pairs with
  | nil => exact fun _ old => old
  | cons pair pairs ih =>
    obtain ⟨first, rest⟩ := List.forall_mem_cons.1 h
    exact fun fields old => ih rest _ (forall_insert old first)

theorem mem_names_ofList (pairs : List (String × α)) :
    name ∈ names (ofList pairs) ↔ name ∈ names pairs := by
  rw [mem_names_iff, get?_ofList, ← mem_names_iff, names, List.map_reverse, List.mem_reverse, names]

/-- A sorted list of fields comes back from its pairs in any order. -/
theorem ofList_eq_of_perm (h : Sorted fields) {pairs : List (String × α)}
    (perm : pairs.Perm fields) : ofList pairs = fields := by
  refine (sorted_ofList pairs).ext h fun name => ?_
  rw [get?_ofList_of_distinct (h.distinct.perm perm.symm)]
  exact get?_perm (h.distinct.perm perm.symm) perm

end Fields

end RecordQuery
