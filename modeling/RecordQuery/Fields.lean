/-!
# Named fields

A list of named fields in the order of their names, each name at most once. Names are ordered by
code point.

* `Fields.get?` looks a name up, and does so in any list of pairs;
* `Fields.insert` adds or replaces one field, `Fields.ofList` a list of them, the last of equal
  names winning;
* `get?_insert_self`, `get?_insert_of_ne`: what an insertion does to the look-up.
-/

namespace RecordQuery

/-- Named fields in the order of their names. -/
abbrev Fields (α : Type) := List (String × α)

namespace Fields

variable {α : Type}

/-- The field of a name. -/
def get? (name : String) : Fields α → Option α
  | [] => none
  | (k, v) :: rest => if k = name then some v else get? name rest

/-- Adds a field in its place, or replaces the field of that name. -/
def insert (name : String) (value : α) : Fields α → Fields α
  | [] => [(name, value)]
  | (k, v) :: rest =>
    match compare name k with
    | .lt => (name, value) :: (k, v) :: rest
    | .eq => (name, value) :: rest
    | .gt => (k, v) :: insert name value rest

/-- Replaces the field of a name, where it is, or adds it at the end. -/
def put (name : String) (value : α) : Fields α → Fields α
  | [] => [(name, value)]
  | (k, v) :: rest => if k = name then (name, value) :: rest else (k, v) :: put name value rest

/-- The fields of a list of pairs; the last of equal names wins. -/
def ofList (pairs : List (String × α)) : Fields α :=
  pairs.foldl (fun fields (name, value) => insert name value fields) []

/-- The names in order. -/
def names (fields : Fields α) : List String := fields.map (·.1)

theorem get?_insert_self (name : String) (value : α) (fields : Fields α) :
    get? name (insert name value fields) = some value := by
  induction fields with
  | nil => simp [insert, get?]
  | cons field rest ih =>
    obtain ⟨k, v⟩ := field
    rw [insert]
    split
    · simp [get?]
    · simp [get?]
    · next h =>
      have : k ≠ name := by
        rintro rfl
        simp [Std.ReflCmp.compare_self] at h
      simp [get?, this, ih]

theorem get?_insert_of_ne {name other : String} (h : name ≠ other) (value : α)
    (fields : Fields α) : get? other (insert name value fields) = get? other fields := by
  induction fields with
  | nil => simp [insert, get?, h]
  | cons field rest ih =>
    obtain ⟨k, v⟩ := field
    rw [insert]
    split
    · simp [get?, h]
    · next heq =>
      have : name = k := Std.LawfulEqCmp.eq_of_compare heq
      subst this
      simp [get?, h]
    · simp [get?, ih]

theorem get?_put_self (name : String) (value : α) (fields : Fields α) :
    get? name (put name value fields) = some value := by
  induction fields with
  | nil => simp [put, get?]
  | cons field rest ih =>
    obtain ⟨k, v⟩ := field
    rw [put]
    by_cases hk : k = name
    · simp [hk, get?]
    · simp [hk, get?, ih]

theorem get?_put_of_ne {name other : String} (h : name ≠ other) (value : α) (fields : Fields α) :
    get? other (put name value fields) = get? other fields := by
  induction fields with
  | nil => simp [put, get?, h]
  | cons field rest ih =>
    obtain ⟨k, v⟩ := field
    rw [put]
    by_cases hk : k = name
    · subst hk
      simp [get?, h]
    · simp [hk, get?, ih]

end Fields

end RecordQuery
