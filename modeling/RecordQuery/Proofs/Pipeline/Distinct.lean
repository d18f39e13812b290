import Mathlib.Data.List.Induction
import Mathlib.Data.List.Nodup
import RecordQuery.Projection

/-!
# Distinct records

Distinct records are told apart by the text of what a path reads, and the first record of every text
is kept. Records that lack the first name of the path are dropped, and their texts do not count.

* `Resolved.keyText` is the text of a reading;
* `firstOfKeys_append`: what was seen after some records are the keys of those that were kept,
  behind what was seen before them;
* `firstOfKeys_of_fresh`: records with keys of their own are all kept;
* `IsFirst` says which records are kept, from the records before them, and
  `distinct_append_singleton` that these are the ones that `distinct` adds;
* `distinct_keepsFirsts`: the records that are kept, their keys, and how lists are put together.
-/

namespace RecordQuery

/-- The text of a reading. Wherever nothing is reached it is that of a null. -/
def Resolved.keyText : Resolved → String
  | .value v => if v.isNull then "null" else v.display
  | .intermediateNull => "null"
  | .missing => "null"

/-- The text that tells a record from others. -/
def Record.keyText (path : FieldPath) (r : Record) : String := (r.resolve path).keyText

theorem distinctKey_valueAt (path : FieldPath) (r : Record) :
    distinctKey (r.valueAt path) = r.keyText path := by
  rw [Record.valueAt, Record.keyText]
  cases r.resolve path <;> rfl

section Firsts

variable {path : FieldPath} {root key : String} {seen : List String} {r : Record}
  {records kept : List Record}

/-! ## One record -/

theorem firstOfKeys_cons_kept (eligible : isEligible root r = true)
    (fresh : r.keyText path ∉ seen) :
    firstOfKeys path root seen (r :: records) =
      r :: firstOfKeys path root (r.keyText path :: seen) records := by
  have new : seen.contains (r.keyText path) = false :=
    Bool.eq_false_iff.2 fun found => fresh (List.contains_iff_mem.1 found)
  simp only [firstOfKeys, distinctKey_valueAt, eligible, new]
  rfl

theorem firstOfKeys_cons_dropped (h : isEligible root r = true → r.keyText path ∈ seen) :
    firstOfKeys path root seen (r :: records) = firstOfKeys path root seen records := by
  have out : (!isEligible root r || seen.contains (r.keyText path)) = true := by
    cases eligible : isEligible root r with
    | false => rfl
    | true => exact List.contains_iff_mem.2 (h eligible)
  simp only [firstOfKeys, distinctKey_valueAt, out, if_true]

/-! ## Runs -/

/-- A record of a run, in the two ways that it can go. -/
theorem firstOfKeys_cons_cases (path : FieldPath) (root : String) (seen : List String) (r : Record)
    (records : List Record) :
    (isEligible root r = true ∧ r.keyText path ∉ seen ∧
        firstOfKeys path root seen (r :: records) =
          r :: firstOfKeys path root (r.keyText path :: seen) records) ∨
      ((isEligible root r = true → r.keyText path ∈ seen) ∧
        firstOfKeys path root seen (r :: records) = firstOfKeys path root seen records) := by
  by_cases h : isEligible root r = true → r.keyText path ∈ seen
  · exact .inr ⟨h, firstOfKeys_cons_dropped h⟩
  · obtain ⟨eligible, fresh⟩ := Classical.not_imp.1 h
    exact .inl ⟨eligible, fresh, firstOfKeys_cons_kept eligible fresh⟩

/-- **What was seen** after some records are the keys of those that were kept. -/
theorem firstOfKeys_append (path : FieldPath) (root : String) (seen : List String)
    (records more : List Record) :
    firstOfKeys path root seen (records ++ more) =
      firstOfKeys path root seen records ++
        firstOfKeys path root
          (((firstOfKeys path root seen records).map (·.keyText path)).reverse ++ seen) more := by
  induction records generalizing seen with
  | nil => rfl
  | cons r records ih =>
    rcases firstOfKeys_cons_cases path root seen r records with ⟨eligible, fresh, here⟩ | ⟨h, here⟩
    · rw [here, List.cons_append, firstOfKeys_cons_kept eligible fresh, ih, List.map_cons,
        List.reverse_cons, List.append_assoc]
      rfl
    · rw [here, List.cons_append, firstOfKeys_cons_dropped h, ih]

/-- The keys that were seen are those of the records that could be kept. -/
theorem mem_seen_iff (path : FieldPath) (root : String) (seen : List String)
    (records : List Record) :
    key ∈ ((firstOfKeys path root seen records).map (·.keyText path)).reverse ++ seen ↔
      key ∈ seen ∨ ∃ r ∈ records, isEligible root r = true ∧ r.keyText path = key := by
  induction records generalizing seen with
  | nil => simp [firstOfKeys]
  | cons r records ih =>
    rcases firstOfKeys_cons_cases path root seen r records with ⟨eligible, -, here⟩ | ⟨h, here⟩
    · rw [here, List.map_cons, List.reverse_cons, List.append_assoc, List.singleton_append, ih,
        List.mem_cons, List.exists_mem_cons_iff, or_assoc, or_left_comm, and_iff_right eligible,
        eq_comm]
    · rw [here, ih, List.exists_mem_cons_iff, ← or_assoc]
      refine or_congr_left (iff_self_or.2 ?_)
      rintro ⟨eligible, rfl⟩
      exact h eligible

theorem isEligible_of_mem_firstOfKeys (mem : r ∈ firstOfKeys path root seen records) :
    isEligible root r = true := by
  induction records generalizing seen with
  | nil => cases mem
  | cons s records ih =>
    rcases firstOfKeys_cons_cases path root seen s records with ⟨eligible, -, here⟩ | ⟨-, here⟩
    · rw [here] at mem
      rcases List.mem_cons.1 mem with rfl | later
      · exact eligible
      · exact ih later
    · rw [here] at mem
      exact ih mem

/-- No key is kept twice, and none that was seen before. -/
theorem nodup_seen (fresh : seen.Nodup) :
    (((firstOfKeys path root seen records).map (·.keyText path)).reverse ++ seen).Nodup := by
  induction records generalizing seen with
  | nil => exact fresh
  | cons r records ih =>
    rcases firstOfKeys_cons_cases path root seen r records with ⟨-, new, here⟩ | ⟨-, here⟩
    · rw [here, List.map_cons, List.reverse_cons, List.append_assoc]
      exact ih (List.nodup_cons.2 ⟨new, fresh⟩)
    · rw [here]
      exact ih fresh

/-- **Records with keys of their own** are all kept. -/
theorem firstOfKeys_of_fresh (eligible : ∀ r ∈ kept, isEligible root r = true)
    (fresh : ((kept.map (·.keyText path)).reverse ++ seen).Nodup) :
    firstOfKeys path root seen kept = kept := by
  induction kept generalizing seen with
  | nil => rfl
  | cons r kept ih =>
    obtain ⟨first, rest⟩ := List.forall_mem_cons.1 eligible
    rw [List.map_cons, List.reverse_cons, List.append_assoc, List.singleton_append] at fresh
    have new : r.keyText path ∉ seen := (List.nodup_cons.1 fresh.of_append_right).1
    rw [firstOfKeys_cons_kept first new, ih rest fresh]

end Firsts

/-! ## The first records of their keys -/

/-- Whether a record after some others is the first one with its key. Static records count, and
others with the first name of the path. -/
def IsFirst (path : FieldPath) (root : String) (before : List Record) (r : Record) : Prop :=
  (r.isStatic = true ∨ (r.member? root).isSome = true) ∧
    ∀ s ∈ before, s.isStatic = true ∨ (s.member? root).isSome = true →
      s.keyText path ≠ r.keyText path

instance (path : FieldPath) (root : String) (before : List Record) (r : Record) :
    Decidable (IsFirst path root before r) :=
  inferInstanceAs (Decidable (_ ∧ ∀ s ∈ before, _ → _))

variable {field root : String}

theorem distinct_eq_firstOfKeys (h : (FieldPath.parse field).root? = some root)
    (records : List Record) :
    distinct field records = firstOfKeys (.parse field) root [] records := by
  simp only [distinct, h]

/-- A record at the end is kept if it is the first one with its key. -/
theorem distinct_append_singleton (h : (FieldPath.parse field).root? = some root)
    (before : List Record) (r : Record) :
    distinct field (before ++ [r]) =
      distinct field before ++ if IsFirst (.parse field) root before r then [r] else [] := by
  have can (s : Record) :
      (s.isStatic = true ∨ (s.member? root).isSome = true) ↔ isEligible root s = true :=
    Bool.or_eq_true_iff.symm
  have first : IsFirst (.parse field) root before r ↔ isEligible root r = true ∧
      r.keyText (.parse field) ∉ ((firstOfKeys (.parse field) root [] before).map
        (·.keyText (.parse field))).reverse ++ [] := by
    rw [mem_seen_iff]
    simp [IsFirst, can]
  rw [distinct_eq_firstOfKeys h, distinct_eq_firstOfKeys h, firstOfKeys_append]
  congr 1
  split
  · next kept =>
    obtain ⟨eligible, fresh⟩ := first.1 kept
    rw [firstOfKeys_cons_kept eligible fresh]
    rfl
  · next dropped =>
    refine (firstOfKeys_cons_dropped fun eligible => ?_).trans rfl
    exact Classical.byContradiction fun fresh => dropped (first.2 ⟨eligible, fresh⟩)

/-- The records that are kept, by their positions. -/
theorem distinct_eq_filter (h : (FieldPath.parse field).root? = some root)
    (records : List Record) :
    distinct field records = (records.zipIdx.filter fun (r, i) =>
      IsFirst (.parse field) root (records.take i) r).map (·.1) := by
  induction records using List.reverseRecOn with
  | nil =>
    rw [distinct_eq_firstOfKeys h]
    rfl
  | append_singleton records r ih =>
    -- A record at the end does not change what stands before the others.
    have before : records.zipIdx.filter (fun (s, i) =>
          IsFirst (.parse field) root ((records ++ [r]).take i) s) =
        records.zipIdx.filter fun (s, i) =>
          IsFirst (.parse field) root (records.take i) s := by
      refine List.filter_congr fun (s, i) mem => ?_
      have inside : i ≤ records.length := Nat.le_of_lt (List.snd_lt_of_mem_zipIdx mem)
      simp only [List.take_append_of_le_length inside]
    rw [distinct_append_singleton h, ih, List.zipIdx_append, List.filter_append, List.map_append,
      before]
    congr 1
    simp only [List.zipIdx_singleton, Nat.zero_add, List.filter_cons, List.filter_nil,
      List.take_left', decide_eq_true_eq]
    split <;> rfl

/-- **Distinct records are the first ones of their keys.** A record is kept exactly if it is static
or has the first name of the path and no such record before it has its key. So the keys that are
kept are all different, every key of a record that counts is among them once, keeping distinct
records twice changes nothing, and records may be added to those that were kept. -/
theorem distinct_keepsFirsts (h : (FieldPath.parse field).root? = some root)
    (records more : List Record) :
    let path := FieldPath.parse field
    let key := Record.keyText path
    let kept := distinct field records
    (kept = (records.zipIdx.filter fun (r, i) => IsFirst path root (records.take i) r).map (·.1)) ∧
    (kept.map key).Nodup ∧
    (∀ r ∈ records, r.isStatic = true ∨ (r.member? root).isSome = true →
      (kept.map key).count (key r) = 1) ∧
    distinct field kept = kept ∧
    distinct field (records ++ more) = distinct field (kept ++ more) := by
  intro path key kept
  have kept_eq : kept = firstOfKeys path root [] records := distinct_eq_firstOfKeys h records
  have apart : (kept.map key).Nodup := by
    have reversed : ((kept.map key).reverse ++ []).Nodup := by
      rw [kept_eq]
      exact nodup_seen List.nodup_nil
    rwa [List.append_nil, List.nodup_reverse] at reversed
  have again : distinct field kept = kept := by
    rw [distinct_eq_firstOfKeys h]
    refine firstOfKeys_of_fresh (fun r mem => ?_) ?_
    · rw [kept_eq] at mem
      exact isEligible_of_mem_firstOfKeys mem
    · rw [List.append_nil, List.nodup_reverse]
      exact apart
  refine ⟨distinct_eq_filter h records, apart, fun r mem eligible => ?_, again, ?_⟩
  · have listed := (mem_seen_iff path root [] records).2
      (.inr ⟨r, mem, Bool.or_eq_true_iff.2 eligible, rfl⟩)
    rw [List.append_nil, List.mem_reverse, ← kept_eq] at listed
    exact List.count_eq_one_of_mem apart listed
  · rw [distinct_eq_firstOfKeys h] at again
    rw [distinct_eq_firstOfKeys h, distinct_eq_firstOfKeys h, firstOfKeys_append,
      firstOfKeys_append, again, ← kept_eq]

/-- A null and a text that reads like it have one key, and a record without the name has none. -/
theorem distinct_keepsFirsts_of_nulls :
    let blank : Record := .table [("C", .null)]
    let word : Record := .table [("C", .string "null")]
    let other : Record := .table [("C", .int64 1)]
    let without : Record := .table []
    (FieldPath.parse "C").root? = some "C" ∧
      (distinct "C" [without, blank, word, other]).map (·.keyText (.parse "C")) = ["null", "1"] ∧
      distinct "C" ([without, blank, word] ++ [other]) =
        distinct "C" (distinct "C" [without, blank, word] ++ [other]) := by
  intro blank word other without
  have root : (FieldPath.parse "C").root? = some "C" := by decide +kernel
  obtain ⟨-, -, -, -, together⟩ := distinct_keepsFirsts root [without, blank, word] [other]
  exact ⟨root, by decide +kernel, together⟩

end RecordQuery
