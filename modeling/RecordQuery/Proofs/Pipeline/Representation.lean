import RecordQuery.Pipeline
import RecordQuery.Proofs.Group.Replacement

/-!
# Requests over trees in any representation

A request yields the same over records that look alike, and so it does not matter how the records
hold their trees.

* `Replacement.execute_map`: the result over replaced records is the result over the records,
  replaced;
* `QueryResult.trees` shows a result with every record as the tree that it holds;
* `trees_execute_eq`: it is the same over records that hold the same trees;
* `trees_execute_of_objects_of_documents`: objects may be held as values, tables, hashes or dynamic
  records, and documents as they are or as values.
-/

namespace RecordQuery

/-- Applies a function to every record of a result. -/
def QueryResult.mapRecords (f : Record → Record) (result : QueryResult) : QueryResult :=
  { result with result := result.result.mapRecords f }

/-- A result with every record as the tree that it holds. -/
def QueryResult.trees (result : QueryResult) : QueryResult :=
  result.mapRecords fun r => .value r.toValue

theorem page_map {α β : Type} (f : α → β) (skip : Nat) (take : Option Nat) (items : List α) :
    page skip take (items.map f) = (page skip take items).map f := by
  cases take with
  | none => exact List.map_drop.symm
  | some n => rw [page, page, ← List.map_drop, List.map_take]

/-! ## Stages -/

namespace Replacement

variable (ρ : Replacement) (settings : Settings) (q : Request) (records : List Record)

theorem matches_filtered :
    Matches (fun kept kept' => kept' = kept.map ρ) (Pipeline.filtered settings q records)
      (Pipeline.filtered settings q (records.map ρ)) := by
  rw [Pipeline.filtered, Pipeline.filtered]
  split
  · exact .pure rfl
  · exact (ρ.matches_compileAll settings records q.joiner q.filters).bind
      fun _ _ carries => .pure (carries.filter_map records)

theorem matches_searched :
    Matches (fun kept kept' => kept' = kept.map ρ) (Pipeline.searched settings q records)
      (Pipeline.searched settings q (records.map ρ)) := by
  rw [Pipeline.searched, Pipeline.searched]
  split
  · exact .pure rfl
  · exact (ρ.matches_searches settings records q.search).bind
      fun _ _ carries => .pure (carries.filter_map records)

theorem arranged_map :
    Pipeline.arranged q (records.map ρ) = (Pipeline.arranged q records).map ρ := by
  simp only [Pipeline.arranged, ρ.sortRecords_map]
  split
  · exact ρ.distinct_map _ _
  · rfl

theorem matches_aggregated :
    Matches Eq (Pipeline.aggregated settings q records)
      (Pipeline.aggregated settings q (records.map ρ)) := by
  rw [Pipeline.aggregated, Pipeline.aggregated]
  split
  · exact .pure rfl
  · exact (ρ.matches_computeAll settings records q.aggregates).bind
      fun _ _ same => .pure (same ▸ rfl)

theorem matches_paged :
    Matches (fun page page' => page' = (page.1.mapRecords ρ, page.2))
      (Pipeline.paged settings q records) (Pipeline.paged settings q (records.map ρ)) := by
  rw [Pipeline.paged, Pipeline.paged]
  split
  · exact .pure (by rw [page_map]; rfl)
  · split
    · refine (ρ.matches_groupAll settings q.groupOptions (.records records) q.group).bind
        fun data data' same => ?_
      subst same
      cases data with
      | records items => exact .pure rfl
      | grouped set =>
        refine .pure ?_
        simp only [DataSet.mapRecords, GroupSet.mapRecords, page_map, List.length_map]
    · rw [page_map]
      exact (ρ.matches_groupAll settings q.groupOptions (.records _) q.group).bind
        fun _ _ same => .pure (same ▸ rfl)

theorem matches_run :
    Matches (fun result result' => result' = result.mapRecords ρ) (Pipeline.run settings q records)
      (Pipeline.run settings q (records.map ρ)) := by
  refine (ρ.matches_filtered settings q records).bind fun kept _ same => ?_
  subst same
  refine (ρ.matches_searched settings q kept).bind fun kept _ same => ?_
  subst same
  rw [ρ.arranged_map]
  refine (ρ.matches_aggregated settings q _).bind fun aggregates _ same => ?_
  subst same
  refine (ρ.matches_paged settings q _).bind fun page _ same => .pure ?_
  subst same
  rw [List.length_map]
  rfl

/-- **Replaced records** give the same result, with the records in it replaced. -/
theorem execute_map (source : List Record) :
    execute settings (source.map ρ) q = (execute settings source q).mapRecords ρ :=
  (ρ.matches_run settings q source _ _ (.refl _)).1

end Replacement

/-! ## Trees -/

open Classical in
/-- Replaces every record that holds a tree by the tree. -/
noncomputable def Replacement.toTrees : Replacement where
  apply r := if r.HoldsTree then .value r.toValue else r
  alike r := by
    split
    · next tree => exact tree.alike (.value _) rfl
    · exact .refl r

theorem Replacement.toTrees_apply {r : Record} (h : r.HoldsTree) : toTrees r = .value r.toValue :=
  if_pos h

theorem trees_mapRecords_toTrees (result : QueryResult) :
    (result.mapRecords Replacement.toTrees).trees = result.trees := by
  have tree : (fun r => Record.value r.toValue) ∘ Replacement.toTrees =
      fun r => Record.value r.toValue := by
    funext r
    by_cases h : r.HoldsTree
    · simp only [Function.comp, Replacement.toTrees_apply h, Record.toValue]
    · simp only [Function.comp, Replacement.toTrees, if_neg h]
  simp only [QueryResult.trees, QueryResult.mapRecords, DataSet.mapRecords_mapRecords, tree]

variable (settings : Settings) (q : Request)

/-- **The same trees, however they are held**, give the same result. -/
theorem trees_execute_eq {source source' : List Record} (h : ∀ r ∈ source, r.HoldsTree)
    (h' : ∀ r ∈ source', r.HoldsTree)
    (same : source.map Record.toValue = source'.map Record.toValue) :
    (execute settings source q).trees = (execute settings source' q).trees := by
  have trees (records : List Record) (h : ∀ r ∈ records, r.HoldsTree) :
      records.map Replacement.toTrees = (records.map Record.toValue).map .value := by
    rw [List.map_map]
    exact List.map_congr_left fun r mem => Replacement.toTrees_apply (h r mem)
  calc (execute settings source q).trees
      = (execute settings (source.map Replacement.toTrees) q).trees := by
        rw [Replacement.execute_map, trees_mapRecords_toTrees]
    _ = (execute settings (source'.map Replacement.toTrees) q).trees := by
        rw [trees source h, trees source' h', same]
    _ = (execute settings source' q).trees := by
        rw [Replacement.execute_map, trees_mapRecords_toTrees]

/-- Hashes of the fields of objects, in any order, are the objects. -/
theorem ofList_hashes {objects hashes : List (Fields Value)}
    (sorted : ∀ fields ∈ objects, Fields.Sorted fields)
    (entries : List.Forall₂ List.Perm hashes objects) :
    (∀ hash ∈ hashes, Fields.Distinct hash) ∧ hashes.map Fields.ofList = objects := by
  induction entries with
  | nil => exact ⟨by simp, rfl⟩
  | cons perm _ ih =>
    obtain ⟨first, rest⟩ := List.forall_mem_cons.1 sorted
    obtain ⟨distinct, same⟩ := ih rest
    refine ⟨List.forall_mem_cons.2 ⟨first.distinct.perm perm.symm, distinct⟩, ?_⟩
    rw [List.map_cons, Fields.ofList_eq_of_perm first perm, same]

/-- **The representation of rows does not count.** Objects give the same result as values, as
tables, as hashes of their fields in any order and as dynamic records. So do documents and their
values. -/
theorem trees_execute_of_objects_of_documents {objects hashes : List (Fields Value)}
    {documents : List Json} (sorted : ∀ fields ∈ objects, Fields.Sorted fields)
    (entries : List.Forall₂ List.Perm hashes objects) (ordered : ∀ j ∈ documents, j.Ordered) :
    (execute settings (objects.map .table) q).trees =
      (execute settings (objects.map fun fields => .value (.object fields)) q).trees ∧
    (execute settings (hashes.map .hash) q).trees =
      (execute settings (objects.map fun fields => .value (.object fields)) q).trees ∧
    (execute settings (objects.map .dynamic) q).trees =
      (execute settings (objects.map fun fields => .value (.object fields)) q).trees ∧
    (execute settings (documents.map .json) q).trees =
      (execute settings (documents.map fun j => .value (.ofJson j)) q).trees := by
  have values : ∀ r ∈ objects.map fun fields => Record.value (.object fields), r.HoldsTree :=
    List.forall_mem_map.2 fun _ _ => .value _
  have objectsOf (make : Fields Value → Record) (h : ∀ fields, (make fields).HoldsTree)
      (same : ∀ fields, (make fields).toValue = .object fields) :
      (execute settings (objects.map make) q).trees =
        (execute settings (objects.map fun fields => .value (.object fields)) q).trees := by
    refine trees_execute_eq settings q (List.forall_mem_map.2 fun fields _ => h fields) values ?_
    rw [List.map_map, List.map_map]
    exact List.map_congr_left fun fields _ => same fields
  obtain ⟨distinct, same⟩ := ofList_hashes sorted entries
  refine ⟨objectsOf .table .table fun _ => rfl, ?_, objectsOf .dynamic .dynamic fun _ => rfl, ?_⟩
  · refine trees_execute_eq settings q
      (List.forall_mem_map.2 fun hash mem => .hash (distinct hash mem)) values ?_
    rw [← same, List.map_map, List.map_map, List.map_map]
    rfl
  · refine trees_execute_eq settings q (List.forall_mem_map.2 fun j mem => .json (ordered j mem))
      (List.forall_mem_map.2 fun _ _ => .value _) ?_
    rw [List.map_map, List.map_map]
    rfl

/-- One object in a hash and one document, searched in all members and grouped. -/
theorem trees_execute_of_hash_of_document :
    (execute {} [.hash [("B", .null), ("A", .string "x")]]
        { search := [⟨[], .string "X", .contains, true⟩], group := ["B", "A"] }).trees =
      (execute {} [.value (.object [("A", .string "x"), ("B", .null)])]
        { search := [⟨[], .string "X", .contains, true⟩], group := ["B", "A"] }).trees ∧
    (execute {} [.json (.object [("A", .array [.integer 1])])]
        { search := [⟨[], .string "X", .contains, true⟩], group := ["B", "A"] }).trees =
      (execute {} [.value (.ofJson (.object [("A", .array [.integer 1])]))]
        { search := [⟨[], .string "X", .contains, true⟩], group := ["B", "A"] }).trees := by
  have sorted : Fields.Sorted [("A", Value.string "x"), ("B", .null)] := by decide
  have ordered : (Json.object [("A", .array [.integer 1])]).Ordered := by
    refine .object (by decide) (List.forall_mem_singleton.2 (.array ?_))
    exact List.forall_mem_singleton.2 (.leaf rfl)
  obtain ⟨-, hash, -, document⟩ := trees_execute_of_objects_of_documents {}
    { search := [⟨[], .string "X", .contains, true⟩], group := ["B", "A"] }
    (List.forall_mem_singleton.2 sorted) (.cons (.swap _ _ []) .nil)
    (List.forall_mem_singleton.2 ordered)
  exact ⟨hash, document⟩

end RecordQuery
