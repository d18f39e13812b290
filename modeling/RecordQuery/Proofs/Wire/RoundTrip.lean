import RecordQuery.Proofs.Wire.Forest
import RecordQuery.Proofs.Wire.Members

/-!
# Wire requests that are written and read back

What is written of a wire request is read back as the same request, so the written form is a normal
form of all the documents that are read as this request.

* `WireFilter.ofJson?_eq`: a filter is read like any other structure, the filters nested in it too;
* `WireFilter.ofJson?_toJson` goes down the filters, `WireRequest.ofJson?_toJson` puts the parts
  together;
* `WireRequest.normalForm?` writes what was read, and `WireRequest.normalForm_reads_back` says what
  comes of it.
-/

namespace RecordQuery

open Wire

/-! ## Filters -/

namespace WireFilter

theorem ofItems?_eq_mapM (items : List Json) : ofItems? items = items.mapM ofJson? := by
  induction items with
  | nil => rw [ofItems?, List.mapM_nil]; rfl
  | cons item items ih =>
    rw [ofItems?, List.mapM_cons, ih]
    rfl

/-- The predicates of a filter are a member like any other. -/
theorem optionalList?_eq (j : Json) : optionalList? j = optional? (readList? ofJson?) (some j) := by
  cases j with
  | null => rw [optionalList?, optional?]
  | array items => simp [optionalList?, optional?, readList?, ofItems?_eq_mapM]
  | _ => simp [optionalList?, optional?, readList?]

theorem predicatesNamed?_eq (members : List (String × Json)) :
    predicatesNamed? members =
      optional? (readList? ofJson?) (Fields.get? "predicates" members) := by
  induction members with
  | nil => rw [predicatesNamed?, Fields.get?, optional?]
  | cons member members ih =>
    obtain ⟨name, j⟩ := member
    rw [predicatesNamed?, Fields.get?]
    split
    · exact optionalList?_eq j
    · exact ih

theorem predicatesAt?_eq (n : Nat) (items : List Json) :
    predicatesAt? n items = optional? (readList? ofJson?) items[n]? := by
  induction items generalizing n with
  | nil => rw [predicatesAt?, List.getElem?_nil, optional?]
  | cons j items ih =>
    cases n with
    | zero => rw [predicatesAt?, List.getElem?_cons_zero, optionalList?_eq]
    | succ n => rw [predicatesAt?, List.getElem?_cons_succ, ih]

/-- The predicates are found in the last place of the members. -/
theorem join_getElem?_of_object {members : List (String × Json)} {found : List (Option Json)}
    (h : structureMembers? memberNames (.object members) = some found) :
    found[6]?.join = Fields.get? "predicates" members := by
  rw [structureMembers?] at h
  split at h
  · cases h
  · obtain rfl := Option.some.inj h
    rfl

theorem join_getElem?_of_array {items : List Json} {found : List (Option Json)}
    (h : structureMembers? memberNames (.array items) = some found) :
    found[6]?.join = items[6]? := by
  rw [structureMembers?] at h
  split at h
  · cases h
  · next short =>
    obtain rfl := Option.some.inj h
    have short' : items.length ≤ 7 := Nat.not_lt.1 short
    by_cases inside : 6 < items.length
    · rw [List.getElem?_append_left (by simpa using inside), List.getElem?_map]
      cases items[6]? <;> rfl
    · have missing : (List.replicate (7 - items.length) (none : Option Json))[6 - items.length]? =
          some none := List.getElem?_replicate_of_lt (by omega)
      rw [List.getElem?_append_right (by simpa using inside), List.length_map,
        List.getElem?_eq_none (Nat.not_lt.1 inside)]
      exact congrArg Option.join missing

/-- **A filter is read like any other structure**, with its predicates in the last place. -/
theorem ofJson?_eq (j : Json) :
    ofJson? j = (structureMembers? memberNames j).bind fun members =>
      (optional? (readList? ofJson?) members[6]?.join).bind fun predicates =>
        ofMembers? predicates members := by
  cases j with
  | object members =>
    rw [ofJson?, predicatesNamed?_eq]
    cases found : structureMembers? memberNames (.object members) with
    | none => simp
    | some places =>
      rw [Option.bind_some, join_getElem?_of_object found]
      rfl
  | array items =>
    rw [ofJson?, predicatesAt?_eq]
    cases found : structureMembers? memberNames (.array items) with
    | none => simp
    | some places =>
      rw [Option.bind_some, join_getElem?_of_array found]
      rfl
  | _ => simp [ofJson?, structureMembers?]

theorem listToJson_eq_map (fs : List WireFilter) : listToJson fs = fs.map toJson := by
  induction fs with
  | nil => rfl
  | cons f fs ih => rw [listToJson, ih, List.map_cons]

theorem optionalToJson_eq (given : Option (List WireFilter)) :
    optionalToJson given = ofOption (fun fs => .array (fs.map toJson)) given := by
  cases given with
  | none => rfl
  | some fs => rw [optionalToJson, listToJson_eq_map, ofOption]

/-- **A filter is read back**, with all that is nested in it. -/
theorem ofJson?_toJson (f : WireFilter) (own : f.value.IsDocument)
    (inner : ∀ g, Within f.nested g → g.value.IsDocument) : ofJson? f.toJson = some f := by
  induction f using nestedInduction with
  | step f ih =>
    have nested : ∀ g ∈ f.nested, ofJson? g.toJson = some g := fun g mem =>
      ih g mem (inner g (.here mem)) fun h within => inner h (.deeper mem within)
    obtain ⟨field, operator, value, ignoreCase, isComplex, condition, predicates⟩ := f
    rw [toJson, ofJson?_eq, structureMembers?_ofNamed (by decide) rfl, optionalToJson_eq]
    have read : optional? (readList? ofJson?)
        (some (ofOption (fun fs => .array (fs.map toJson)) predicates)) = some predicates :=
      optional?_list nested
    simp [ofMembers?, anything?_some own, read]

/-- What is written of a filter is a document. -/
theorem isDocument_toJson (f : WireFilter) (own : f.value.IsDocument)
    (inner : ∀ g, Within f.nested g → g.value.IsDocument) : f.toJson.IsDocument := by
  induction f using nestedInduction with
  | step f ih =>
    have nested : ∀ g ∈ f.nested, g.toJson.IsDocument := fun g mem =>
      ih g mem (inner g (.here mem)) fun h within => inner h (.deeper mem within)
    obtain ⟨field, operator, value, ignoreCase, isComplex, condition, predicates⟩ := f
    have all : (ofOption (fun fs => .array (fs.map toJson)) predicates).IsDocument :=
      isDocument_ofList nested
    rw [toJson, optionalToJson_eq]
    exact isDocument_ofNamed (by
      simp [isDocument_string, isDocument_bool, Json.IsDocument.bool, own, all])

/-- What a filter that was read holds of any shape is a document, and so at any depth. -/
theorem isDocument_of_ofJson? {f : WireFilter} {j : Json} (h : ofJson? j = some f) :
    f.value.IsDocument ∧ ∀ g, Within f.nested g → g.value.IsDocument := by
  induction f using nestedInduction generalizing j with
  | step f ih =>
    simp only [ofJson?_eq, Option.bind_eq_some_iff] at h
    obtain ⟨members, -, predicates, read, made⟩ := h
    unfold ofMembers? at made
    split at made
    · simp only [Option.bind_eq_bind, Option.bind_eq_some_iff, Option.some.injEq] at made
      obtain ⟨field, -, operator, -, value, kept, ignoreCase, -, isComplex, -, condition, -, rfl⟩ :=
        made
      refine ⟨isDocument_of_anything? kept, fun g within => ?_⟩
      cases within with
      | here mem =>
        obtain ⟨item, one⟩ := exists_of_mem_optional? read mem
        exact (ih g mem one).1
      | @deeper _ f' _ mem within =>
        obtain ⟨item, one⟩ := exists_of_mem_optional? read mem
        exact (ih f' mem one).2 g within
    · cases made

end WireFilter

/-! ## The other structures -/

theorem WireSearch.ofJson?_toJson (s : WireSearch) (own : s.key.IsDocument) :
    ofJson? s.toJson = some s := by
  rw [ofJson?, toJson, structureMembers?_ofNamed (by decide) rfl]
  simp [anything?_some own]

theorem WireSearch.isDocument_toJson (s : WireSearch) (own : s.key.IsDocument) :
    s.toJson.IsDocument :=
  isDocument_ofNamed (by simp [isDocument_string, isDocument_bool, isDocument_texts, own])

theorem WireSearch.isDocument_of_ofJson? {s : WireSearch} {j : Json} (h : ofJson? j = some s) :
    s.key.IsDocument := by
  simp only [ofJson?, Option.bind_eq_bind, Option.bind_eq_some_iff] at h
  obtain ⟨members, -, made⟩ := h
  split at made
  · simp only [Option.bind_eq_some_iff, Option.some.injEq] at made
    obtain ⟨fields, -, key, kept, operator, -, ignoreCase, -, rfl⟩ := made
    exact isDocument_of_anything? kept
  · cases made

theorem WireSort.ofJson?_toJson (s : WireSort) : ofJson? s.toJson = some s := by
  rw [ofJson?, toJson, structureMembers?_ofNamed (by decide) rfl]
  simp [readText?]

theorem WireSort.isDocument_toJson (s : WireSort) : s.toJson.IsDocument :=
  isDocument_ofNamed (by simp [isDocument_string, Json.IsDocument.string])

theorem WireAggregate.ofJson?_toJson (a : WireAggregate) : ofJson? a.toJson = some a := by
  rw [ofJson?, toJson, structureMembers?_ofNamed (by decide) rfl]
  simp [readText?]

theorem WireAggregate.isDocument_toJson (a : WireAggregate) : a.toJson.IsDocument :=
  isDocument_ofNamed (by simp [Json.IsDocument.string])

/-! ## Requests -/

namespace WireRequest

variable {w : WireRequest}

/-- What a request holds of any shape, the values of filters and the keys of searches, are
documents. -/
structure HoldsDocuments (w : WireRequest) : Prop where
  filters : ∀ f, WireFilter.Within (w.filters.getD []) f → f.value.IsDocument
  search : ∀ s ∈ w.search.getD [], s.key.IsDocument

/-- **A request is read back.** -/
theorem ofJson?_toJson (h : w.HoldsDocuments) : ofJson? w.toJson = some w := by
  have filters : optional? (readList? WireFilter.ofJson?)
      (some (ofOption (fun fs => .array (fs.map WireFilter.toJson)) w.filters)) = some w.filters :=
    optional?_list fun f mem =>
      WireFilter.ofJson?_toJson f (h.filters f (.here mem)) fun g within =>
      h.filters g (.deeper mem within)
  have search : optional? (readList? WireSearch.ofJson?)
      (some (ofOption (fun l => .array (l.map WireSearch.toJson)) w.search)) = some w.search :=
    optional?_list fun s mem => s.ofJson?_toJson (h.search s mem)
  have sorted : optional? (readList? WireSort.ofJson?)
      (some (ofOption (fun l => .array (l.map WireSort.toJson)) w.sorted)) = some w.sorted :=
    optional?_list fun s _ => s.ofJson?_toJson
  have aggregates : optional? (readList? WireAggregate.ofJson?)
      (some (ofOption (fun l => .array (l.map WireAggregate.toJson)) w.aggregates)) =
        some w.aggregates :=
    optional?_list fun a _ => a.ofJson?_toJson
  rw [ofJson?, toJson, structureMembers?_ofNamed (by decide) rfl, WireFilter.optionalToJson_eq]
  simp only [List.map_cons, List.map_nil]
  dsimp only [Option.bind_eq_bind, Option.bind_some]
  rw [optional?_integer, optional?_integer, filters, search, sorted, optional?_texts, aggregates,
    optional?_string, optional?_texts]
  rfl

/-- A request that was read holds documents. -/
theorem holdsDocuments_of_ofJson? {j : Json} (h : ofJson? j = some w) : w.HoldsDocuments := by
  obtain ⟨members, -, made⟩ := Option.bind_eq_some_iff.1 h
  split at made
  · obtain ⟨skip, -, made⟩ := Option.bind_eq_some_iff.1 made
    obtain ⟨take, -, made⟩ := Option.bind_eq_some_iff.1 made
    obtain ⟨requiresCounts, -, made⟩ := Option.bind_eq_some_iff.1 made
    obtain ⟨filters, forest, made⟩ := Option.bind_eq_some_iff.1 made
    obtain ⟨search, searches, made⟩ := Option.bind_eq_some_iff.1 made
    obtain ⟨sorted, -, made⟩ := Option.bind_eq_some_iff.1 made
    obtain ⟨group, -, made⟩ := Option.bind_eq_some_iff.1 made
    obtain ⟨aggregates, -, made⟩ := Option.bind_eq_some_iff.1 made
    obtain ⟨isLazyLoad, -, made⟩ := Option.bind_eq_some_iff.1 made
    obtain ⟨lazyExpandAllGroup, -, made⟩ := Option.bind_eq_some_iff.1 made
    obtain ⟨groupPaging, -, made⟩ := Option.bind_eq_some_iff.1 made
    obtain ⟨distinct, -, made⟩ := Option.bind_eq_some_iff.1 made
    obtain ⟨select, -, made⟩ := Option.bind_eq_some_iff.1 made
    cases made
    refine ⟨fun f within => ?_, fun s mem => ?_⟩
    · cases within with
      | here mem =>
        obtain ⟨item, one⟩ := exists_of_mem_optional? forest mem
        exact (WireFilter.isDocument_of_ofJson? one).1
      | deeper mem within =>
        obtain ⟨item, one⟩ := exists_of_mem_optional? forest mem
        exact (WireFilter.isDocument_of_ofJson? one).2 f within
    · obtain ⟨item, one⟩ := exists_of_mem_optional? searches mem
      exact WireSearch.isDocument_of_ofJson? one
  · cases made

/-- What is written of a request is a document. -/
theorem isDocument_toJson (h : w.HoldsDocuments) : w.toJson.IsDocument := by
  have filters : (ofOption (fun fs => .array (fs.map WireFilter.toJson)) w.filters).IsDocument :=
    isDocument_ofList fun f mem => f.isDocument_toJson (h.filters f (.here mem)) fun g within =>
      h.filters g (.deeper mem within)
  have search : (ofOption (fun l => .array (l.map WireSearch.toJson)) w.search).IsDocument :=
    isDocument_ofList fun s mem => s.isDocument_toJson (h.search s mem)
  have sorted : (ofOption (fun l => .array (l.map WireSort.toJson)) w.sorted).IsDocument :=
    isDocument_ofList fun s _ => s.isDocument_toJson
  have aggregates :
      (ofOption (fun l => .array (l.map WireAggregate.toJson)) w.aggregates).IsDocument :=
    isDocument_ofList fun a _ => a.isDocument_toJson
  have number (given : Option Int64) :
      (ofOption (fun n : Int64 => .integer n.toInt) given).IsDocument :=
    isDocument_ofOption fun n _ => .integer n.toInt
  rw [toJson, WireFilter.optionalToJson_eq]
  exact isDocument_ofNamed (by
    simp [filters, search, sorted, aggregates, number, isDocument_string, isDocument_texts,
      Json.IsDocument.bool])

/-- The requests that can be read are those that hold documents. -/
theorem exists_ofJson?_iff : (∃ j, ofJson? j = some w) ↔ w.HoldsDocuments := by
  constructor
  · rintro ⟨j, read⟩
    exact holdsDocuments_of_ofJson? read
  · intro h
    exact ⟨w.toJson, ofJson?_toJson h⟩

/-- What is written of the request that a document is read as. -/
def normalForm? (j : Json) : Option Json := (ofJson? j).map toJson

/-- **A request is read back from what is written of it**, if it can be read at all. So what is
written is a normal form: whatever a document looks like, with members that do not count, left out,
null, or in the places of an array, its normal form is read as the same request and is its own
normal form. -/
theorem normalForm_reads_back :
    (∀ w : WireRequest, (∃ j, ofJson? j = some w) ↔ w.HoldsDocuments) ∧
      (∀ w : WireRequest, w.HoldsDocuments → ofJson? w.toJson = some w) ∧
      (∀ j n : Json, normalForm? j = some n →
        n.IsDocument ∧ ofJson? n = ofJson? j ∧ normalForm? n = some n) ∧
      ∀ (text : String) (w : WireRequest), ofText? text = some w → ofJson? w.toJson = some w := by
  refine ⟨fun w => exists_ofJson?_iff, fun w => ofJson?_toJson, fun j n normal => ?_,
    fun text w read => ?_⟩
  · obtain ⟨w, read, rfl⟩ := Option.map_eq_some_iff.1 normal
    have holds := holdsDocuments_of_ofJson? read
    have again := ofJson?_toJson holds
    exact ⟨isDocument_toJson holds, again.trans read.symm,
      by rw [normalForm?, again, Option.map_some]⟩
  · obtain ⟨j, -, read⟩ := Option.bind_eq_some_iff.1 read
    exact ofJson?_toJson (holdsDocuments_of_ofJson? read)

/-- A request with a filter in a filter, read from a document that leaves out what is not set; and a
document in which arrays stand for objects. -/
theorem normalForm_reads_back_of_two :
    let value : Json := .object [("a", .null), ("b", .array [.integer 1])]
    let tag : WireFilter := { field := some "Tag", operator := some "equal", value }
    let w : WireRequest := { filters := some [{ isComplex := true, predicates := some [tag] }] }
    let sparse : Json := .object [("where", .array [.object [("isComplex", .bool true),
      ("predicates", .array [.object [("field", .string "Tag"), ("value", value),
        ("operator", .string "equal")]])]])]
    let places : Json := .array [.null, .integer 5, .bool true, .array [.array [.string "Tag",
      .string "equal", .object [("b", .null), ("a", .null), ("b", .integer 1)]]], .null,
      .array [.object [("of", .double .nan), ("name", .string "Tag")], .array [.string "City"]]]
    ofJson? sparse = some w ∧ w.HoldsDocuments ∧ ofJson? w.toJson = some w ∧
      ∃ n, normalForm? places = some n ∧ ofJson? n = ofJson? places ∧ normalForm? n = some n := by
  intro value tag w sparse places
  obtain ⟨readable, back, normal, -⟩ := normalForm_reads_back
  have read : ofJson? sparse = some w := rfl
  have holds : w.HoldsDocuments := (readable w).1 ⟨sparse, read⟩
  obtain ⟨n, form⟩ : ∃ n, normalForm? places = some n := ⟨_, rfl⟩
  exact ⟨read, holds, back w holds, n, form, (normal places n form).2⟩

end WireRequest

end RecordQuery
