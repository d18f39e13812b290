import RecordQuery.Pipeline.Document
import RecordQuery.Proofs.Json.Kept
import RecordQuery.Proofs.Pipeline.Stages
import RecordQuery.Proofs.Record.Alike

/-!
# Selected fields

A request that selects fields shows as many rows as without the selection, and in the same order. A
row has exactly the selected paths for names, and under each of them what the source row has at the
path, with large integers as numbers of 64 bits, or null.

* `Json.at?`: the part of a document at a path, and `Record.valueAt_json`;
* `Json.Projects` and `projects_selectFrom`: one row;
* `executeJson_select`: all rows.
-/

namespace RecordQuery

/-! ## Parts of a document -/

namespace Json

variable {j part : Json} {name : String} {bound : ℤ}

/-- The part of a document that names lead to. -/
def descend? : List String → Json → Option Json
  | [], j => some j
  | name :: names, j => (Record.jsonChild? name j).bind (descend? names)

/-- The part of a document at a path. The empty path leads nowhere. -/
def at? (path : FieldPath) (j : Json) : Option Json :=
  if path.isEmpty then none else j.descend? path.segments

theorem Received.child (h : j.Received bound) (found : Record.jsonChild? name j = some part) :
    part.Received bound := by
  cases h with
  | null | bool | integer | double | string => cases found
  | array items =>
    obtain ⟨i, -, listed⟩ := Option.bind_eq_some_iff.1 found
    exact items part (List.mem_of_getElem? listed)
  | object _ members => exact members _ (Fields.mem_of_get? found)

theorem Received.descend? {names : List String} (h : j.Received bound)
    (found : j.descend? names = some part) : part.Received bound := by
  induction names generalizing j with
  | nil => exact Option.some.inj found ▸ h
  | cons name names ih =>
    obtain ⟨inner, first, rest⟩ := Option.bind_eq_some_iff.1 found
    exact ih (h.child first) rest

theorem Received.at? {path : FieldPath} (h : j.Received bound) (found : j.at? path = some part) :
    part.Received bound := by
  unfold Json.at? at found
  split at found
  · cases found
  · exact h.descend? found

/-- Nothing is inside a part without children. -/
theorem descend?_of_scalar (scalar : j.isContainer = false) (names : List String) (leaf : String) :
    j.descend? (names ++ [leaf]) = none := by
  have none (name : String) : Record.jsonChild? name j = none := by
    cases j <;> first | rfl | cases scalar
  cases names with
  | nil => rw [List.nil_append, descend?, none, Option.bind_none]
  | cons name names => rw [List.cons_append, descend?, none, Option.bind_none]

end Json

namespace Record

/-- Along a path, the value of a document has the values of the parts. -/
theorem toValue_read_follow {j : Json} (h : j.Ordered) (names : List String) (leaf : String) :
    (Parent.read leaf (follow (.tree (.ofJson j)) names)).toValue =
      ((j.descend? (names ++ [leaf])).map Value.ofJson).getD .null := by
  induction names generalizing j with
  | nil =>
    have last : j.descend? [leaf] = jsonChild? leaf j := Option.bind_fun_some _
    rw [follow, Parent.read, Resolved.toValue, member?_ofJson h, List.nil_append, last]
  | cons name names ih =>
    have nowhere : follow .intermediateNull names = .intermediateNull := by
      cases names <;> rfl
    rw [follow, stepTree, member?_ofJson h, List.cons_append, Json.descend?]
    cases found : jsonChild? name j with
    | none =>
      rw [Option.map_none, nowhere]
      rfl
    | some child =>
      rw [Option.map_some, Option.bind_some]
      dsimp only
      rw [isContainer_ofJson]
      cases children : child.isContainer with
      | true => exact ih (h.child found)
      | false =>
        rw [if_neg Bool.false_ne_true, nowhere, Json.descend?_of_scalar children]
        rfl

/-- **What a document is read as at a path** is the value of the part there. -/
theorem valueAt_json {j : Json} (h : j.Ordered) (path : FieldPath) :
    (Record.json j).valueAt path = ((j.at? path).map Value.ofJson).getD .null := by
  rw [valueAt, resolve, Json.at?]
  cases last : path.leaf? with
  | none =>
    have empty : path.isEmpty = true := List.isEmpty_iff.2 (List.getLast?_eq_none_iff.1 last)
    rw [if_pos empty]
    rfl
  | some leaf =>
    obtain ⟨names, parts⟩ := List.getLast?_eq_some_iff.1 last
    have some : ¬ path.isEmpty = true := by
      rw [FieldPath.isEmpty, parts]
      simp
    have parents : path.parents = names := by rw [FieldPath.parents, parts, List.dropLast_concat]
    dsimp only
    rw [((HoldsTree.json h).parent path).read_eq leaf, parents, if_neg some, parts]
    exact toValue_read_follow h names leaf

end Record

/-! ## One row -/

/-- A row that shows fields of a source row: the names are the paths of the fields, without white
space around them, and under each of them stands what the source row has there, or null. -/
def Json.Projects (fields : List String) (source row : Json) : Prop :=
  ∃ members : Fields Json, row = .object members ∧
    (∀ name, name ∈ Fields.names members ↔ ∃ field ∈ fields, Text.trimmed field = name) ∧
    ∀ field ∈ fields, Fields.get? (Text.trimmed field) members =
      some ((source.at? (.parse field)).getD .null).narrowed

/-- The text of a path tells which path it is. -/
theorem FieldPath.parse_inj {a b : String} (h : (parse a).text = (parse b).text) :
    parse a = parse b := by
  have same : Text.trim a.toList = Text.trim b.toList := String.ofList_injective h
  rw [parse, parse, same]

/-- A field is read by its path, where paths with one text are one path. -/
theorem get?_ofList_text {α : Type} {paths : List FieldPath} {path : FieldPath} (f : FieldPath → α)
    (mem : path ∈ paths) (one : ∀ other ∈ paths, other.text = path.text → other = path) :
    Fields.get? path.text (Fields.ofList (paths.map fun path => (path.text, f path))) =
      some (f path) := by
  have named : path.text ∈ Fields.names (paths.map fun path => (path.text, f path)) := by
    rw [Fields.names, List.map_map]
    exact List.mem_map_of_mem mem
  obtain ⟨value, found⟩ := Option.isSome_iff_exists.1
    (Fields.mem_names_iff.1 ((Fields.mem_names_ofList _).2 named))
  have listed := found
  rw [Fields.get?_ofList] at listed
  obtain ⟨other, among, same⟩ := List.mem_map.1 (List.mem_reverse.1 (Fields.mem_of_get? listed))
  obtain ⟨text, rfl⟩ := Prod.mk.inj same
  rw [found, one other among text]

/-- **A selected row** shows the fields that are selected. -/
theorem projects_selectFrom {source : Json} (h : source.Received Json.integerBound)
    (fields : List String) :
    Json.Projects fields source (selectFrom (fields.map .parse) (.json source)).toJson := by
  have shown (path : FieldPath) : ((Record.json source).valueAt path).toJson =
      ((source.at? path).getD .null).narrowed := by
    rw [Record.valueAt_json h.ordered]
    cases found : source.at? path with
    | none => rfl
    | some part => exact Value.toJson_ofJson (h.at? found)
  refine ⟨_, Value.toJson_object _, fun name => ?_, fun field mem => ?_⟩
  · have kept : Fields.names ((Fields.ofList ((fields.map FieldPath.parse).map fun path =>
        (path.text, (Record.json source).valueAt path))).map fun field =>
          (field.1, field.2.toJson)) =
        Fields.names (Fields.ofList ((fields.map FieldPath.parse).map fun path =>
          (path.text, (Record.json source).valueAt path))) := List.map_map
    rw [kept, Fields.mem_names_ofList, Fields.names, List.map_map, List.map_map, List.mem_map]
    rfl
  · have text : Text.trimmed field = (FieldPath.parse field).text := rfl
    rw [Fields.get?_map, text, get?_ofList_text _ (List.mem_map_of_mem mem), Option.map_some, shown]
    intro other among same
    obtain ⟨name, -, rfl⟩ := List.mem_map.1 among
    exact FieldPath.parse_inj same

/-! ## All rows -/

theorem page_sublist {α : Type} (skip : ℕ) (take : Option ℕ) (items : List α) :
    (page skip take items).Sublist items := by
  unfold page
  cases take with
  | none => exact List.drop_sublist skip items
  | some n => exact (List.take_sublist n _).trans (List.drop_sublist skip items)

/-- Records that are among the rows of a document are rows of it. -/
theorem exists_rows {rows : List Json} {shown : List Record} (h : shown ⊆ rows.map .json) :
    ∃ kept ⊆ rows, shown = kept.map .json := by
  induction shown with
  | nil => exact ⟨[], List.nil_subset _, rfl⟩
  | cons r shown ih =>
    obtain ⟨first, rest⟩ := List.cons_subset.1 h
    obtain ⟨row, mem, rfl⟩ := List.mem_map.1 first
    obtain ⟨kept, inside, rfl⟩ := ih rest
    exact ⟨row :: kept, List.cons_subset.2 ⟨mem, inside⟩, rfl⟩

/-- **Selecting fields alters no data.** A flat request that selects fields shows a row for every
row that it shows without the selection, in the same order, with the selected fields of that row. -/
theorem executeJson_select (settings : Settings) {rows : List Json} {request : Json} {q : Request}
    (received : ∀ row ∈ rows, row.Received Json.integerBound)
    (read : requestOf settings request = .ok q) (selects : q.select ≠ []) (flat : q.group = []) :
    let whole := execute settings (rows.map .json) { q with select := [] }
    ∃ shown out : List Json, shown ⊆ rows ∧ whole.result = .records (shown.map .json) ∧
      (∀ plain, requestOf settings plain = .ok { q with select := [] } →
        executeJson settings (.array rows) plain = .ok whole) ∧
      executeJson settings (.array rows) request =
        .ok { whole with result := .records (out.map .json) } ∧
      List.Forall₂ (Json.Projects q.select) shown out := by
  intro whole
  have same : whole = execute settings (rows.map .json) q := rfl
  obtain ⟨shown, inside, result⟩ : ∃ shown ⊆ rows, whole.result = .records (shown.map .json) := by
    rw [same, Pipeline.execute_eq_finish, Pipeline.finish_eq]
    dsimp only
    rw [Pipeline.paged_of_group_nil flat]
    obtain ⟨kept, inside, rows⟩ := exists_rows
      (List.Subset.trans (page_sublist q.skip q.take _).subset
        (List.Subset.trans (Pipeline.arranged_subset q _)
          (Pipeline.selected_subset settings q (rows.map .json))))
    exact ⟨kept, inside, congrArg DataSet.records rows⟩
  refine ⟨shown, shown.map fun row => (selectFrom (q.select.map .parse) (.json row)).toJson, inside,
    result, fun plain unselected => ?_, ?_, ?_⟩
  · rw [executeJson, rowsOf, unselected]
    rfl
  · have some : q.select.isEmpty = false := List.isEmpty_eq_false_iff.2 selects
    have cut : whole.selecting q.select = { whole with result := .records ((shown.map fun row =>
        (selectFrom (q.select.map .parse) (.json row)).toJson).map .json) } := by
      rw [QueryResult.selecting, some, if_neg Bool.false_ne_true, result]
      dsimp only
      rw [select, List.map_map, List.map_map, List.map_map]
      rfl
    rw [executeJson, rowsOf, read, ← cut]
    rfl
  · rw [List.forall₂_map_right_iff, List.forall₂_same]
    exact fun row mem => projects_selectFrom (received row (inside mem)) q.select

/-- Without any stage all records are shown. -/
theorem execute_of_select (settings : Settings) (source : List Record) (fields : List String) :
    execute settings source { select := fields } = ⟨.records source, none, none⟩ := by
  have rows : Pipeline.arranged { select := fields } source = source :=
    Pipeline.sortRecords_nil source
  rw [Pipeline.execute_eq_finish]
  show QueryResult.mk (.records (Pipeline.arranged { select := fields } source)) none none = _
  rw [rows]

/-- An item of a list, and a path that leads nowhere. -/
theorem executeJson_select_of_nested :
    let row : Json := .object [("a", .object [("b", .array [.integer (-7), .string "x"])])]
    ∃ shown out : List Json, shown ⊆ [row] ∧
      executeJson {} (.array [row])
        (.object [("select", .array [.string " a.b.0 ", .string "c"])]) =
        .ok ⟨.records (out.map .json), none, none⟩ ∧
      List.Forall₂ (Json.Projects [" a.b.0 ", "c"]) shown out := by
  intro row
  have list : (Json.array [.integer (-7), .string "x"]).Received Json.integerBound :=
    .array (List.forall_mem_cons.2 ⟨.integer (by decide) (by decide),
      List.forall_mem_singleton.2 (.string "x")⟩)
  have received : row.Received Json.integerBound :=
    .object (List.pairwise_singleton _ _) (List.forall_mem_singleton.2
      (.object (List.pairwise_singleton _ _) (List.forall_mem_singleton.2 list)))
  have read : requestOf {} (.object [("select", .array [.string " a.b.0 ", .string "c"])]) =
      .ok { select := [" a.b.0 ", "c"] } := rfl
  obtain ⟨shown, out, inside, -, -, selected, rows⟩ := executeJson_select {}
    (List.forall_mem_singleton.2 received) read (List.cons_ne_nil _ _) rfl
  rw [execute_of_select] at selected
  exact ⟨shown, out, inside, selected, rows⟩

/-- The greatest integer that is read becomes the next power of two. -/
theorem executeJson_of_large_integer :
    executeJson {} (.array [.object [("n", .integer 18446744073709551615)]])
        (.object [("select", .array [.string "n"])]) =
      .ok ⟨.records [.json (.object [("n", .double (.ofInt .double 18446744073709551616))])], none,
        none⟩ := by
  have read : requestOf {} (.object [("select", .array [.string "n"])]) =
      .ok { select := ["n"] } := rfl
  have value :
      (selectFrom [.parse "n"] (.json (.object [("n", .integer 18446744073709551615)]))).toJson =
        .object [("n", .double (.ofInt .double 18446744073709551616))] := by
    have field : selectFrom [.parse "n"] (.json (.object [("n", .integer 18446744073709551615)])) =
        .object [("n", .float64 (.ofInt .double 18446744073709551615))] := rfl
    have near : Binary.ofInt .double 18446744073709551615 =
        .ofInt .double 18446744073709551616 := by
      decide +kernel
    have finite : (Binary.ofInt .double 18446744073709551616).isFinite = true := by decide +kernel
    rw [field, near, Value.toJson_object, List.map_cons, Value.toJson_float64 finite]
    rfl
  rw [executeJson, read]
  show Except.ok ((execute {} [.json (.object [("n", .integer 18446744073709551615)])]
    { select := ["n"] }).selecting ["n"]) = _
  rw [execute_of_select]
  exact congrArg (fun j => Except.ok (QueryResult.mk (.records [.json j]) none none)) value

end RecordQuery
