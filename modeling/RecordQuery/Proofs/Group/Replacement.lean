import RecordQuery.Proofs.Pipeline.Replacement

/-!
# Groups of replaced records

Groups of replaced records are the groups of the records, with the same keys, counts and aggregates
and with every member replaced in its place.

* `Group.mapRecords`, `GroupSet.mapRecords` and `DataSet.mapRecords` apply a function to every
  record in a tree;
* `classes_map`: a function of the members does not change classes;
* `Replacement.matches_partition`, `Replacement.matches_regroup` and
  `Replacement.matches_groupAll`: one level, a further level, and all of them.
-/

namespace RecordQuery

namespace Group

mutual

/-- Applies a function to every record of a group. -/
def mapRecords (f : Record → Record) : Group → Group
  | ⟨key, field, level, count, items, subgroups, groupedData, aggregates⟩ =>
    ⟨key, field, level, count, items.map f, mapRecordsList f subgroups, groupedData.map f,
      aggregates⟩

def mapRecordsList (f : Record → Record) : List Group → List Group
  | [] => []
  | g :: gs => g.mapRecords f :: mapRecordsList f gs

end

theorem mapRecordsList_eq_map (f : Record → Record) (gs : List Group) :
    mapRecordsList f gs = gs.map (mapRecords f) := by
  induction gs with
  | nil => rfl
  | cons g gs ih => rw [mapRecordsList, ih, List.map_cons]

mutual

theorem mapRecords_mapRecords (f h : Record → Record) (g : Group) :
    (g.mapRecords f).mapRecords h = g.mapRecords (h ∘ f) := by
  obtain ⟨key, field, level, count, items, subgroups, groupedData, aggregates⟩ := g
  rw [mapRecords, mapRecords, mapRecordsList_mapRecordsList f h subgroups, mapRecords, List.map_map,
    List.map_map]

theorem mapRecordsList_mapRecordsList (f h : Record → Record) (gs : List Group) :
    mapRecordsList h (mapRecordsList f gs) = mapRecordsList (h ∘ f) gs := by
  cases gs with
  | nil => rfl
  | cons g gs =>
    rw [mapRecordsList, mapRecordsList, mapRecords_mapRecords f h g,
      mapRecordsList_mapRecordsList f h gs, mapRecordsList]

end

end Group

/-- Applies a function to every record of a set of groups. -/
def GroupSet.mapRecords (f : Record → Record) (set : GroupSet) : GroupSet :=
  { set with groups := set.groups.map (Group.mapRecords f) }

/-- Applies a function to every record. -/
def DataSet.mapRecords (f : Record → Record) : DataSet → DataSet
  | .records items => .records (items.map f)
  | .grouped set => .grouped (set.mapRecords f)

theorem DataSet.mapRecords_mapRecords (f h : Record → Record) (data : DataSet) :
    (data.mapRecords f).mapRecords h = data.mapRecords (h ∘ f) := by
  cases data with
  | records items => exact congrArg DataSet.records List.map_map
  | grouped set =>
    have groups : (set.groups.map (Group.mapRecords f)).map (Group.mapRecords h) =
        set.groups.map (Group.mapRecords (h ∘ f)) := by
      rw [List.map_map]
      exact List.map_congr_left fun g _ => Group.mapRecords_mapRecords f h g
    exact congrArg (fun groups => DataSet.grouped { set with groups }) groups

/-! ## Classes -/

/-- A function of the members does not change classes. -/
theorem classes_map {α β : Type} (g : α → β) (members : List (String × α)) :
    classes (members.map fun member => (member.1, g member.2)) =
      (classes members).map fun own => (own.1, own.2.map g) := by
  induction members with
  | nil => rfl
  | cons member members ih =>
    have own : ((Fields.get? member.1 (classes members)).map (List.map g)).getD [] =
        ((Fields.get? member.1 (classes members)).getD []).map g := by
      cases Fields.get? member.1 (classes members) <;> rfl
    rw [List.map_cons, classes, ih, Fields.get?_map, own, List.filter_map, classes, List.map_cons]
    rfl

namespace Replacement

variable (ρ : Replacement) (settings : Settings) (options : GroupOptions) (field : String)

/-! ## One level -/

/-- A key and its record, with the record replaced. -/
def onMember (member : Value × Record) : Value × Record := (member.1, ρ member.2)

theorem keyed_map (r : Record) :
    Grouping.keyed settings options field (ρ r) =
      ((Grouping.keyed settings options field r).1,
        ρ.onMember (Grouping.keyed settings options field r).2) := by
  simp only [Grouping.keyed, ρ.valueAt_eq, onMember]

theorem matches_groupAggregates (records : List Record) :
    Matches Eq (Grouping.groupAggregates settings options records)
      (Grouping.groupAggregates settings options (records.map ρ)) := by
  rw [Grouping.groupAggregates, Grouping.groupAggregates]
  split
  · exact .pure rfl
  · exact (ρ.matches_computeGroup settings records options.aggregates).bind
      fun _ _ same => .pure (same ▸ rfl)

theorem matches_build (level : Nat) (members : List (Value × Record)) :
    Matches (fun g g' => g' = g.mapRecords ρ)
      (Grouping.build settings options field level members)
      (Grouping.build settings options field level (members.map ρ.onMember)) := by
  have records : (members.map ρ.onMember).map (·.2) = (members.map (·.2)).map ρ := by
    rw [List.map_map, List.map_map]
    rfl
  have key : Grouping.classKey (members.map ρ.onMember) = Grouping.classKey members := by
    cases members <;> rfl
  rw [Grouping.build, Grouping.build, records, key]
  refine (ρ.matches_groupAggregates settings options _).bind fun _ _ same => .pure ?_
  rw [Group.mapRecords, Group.mapRecordsList, same, List.length_map]
  congr 1
  · split <;> rfl
  · split <;> rfl

theorem matches_buildList (level : Nat) (classes : List (List (Value × Record))) :
    Matches (fun gs gs' => gs' = gs.map (Group.mapRecords ρ))
      (Grouping.buildList settings options field level classes)
      (Grouping.buildList settings options field level (classes.map (List.map ρ.onMember))) := by
  induction classes with
  | nil => exact .pure rfl
  | cons members classes ih =>
    exact (ρ.matches_build settings options field level members).bind fun _ _ first =>
      ih.bind fun _ _ rest => .pure (first ▸ rest ▸ rfl)

/-- A level of groups of replaced records. -/
theorem matches_partition (level : Nat) (records : List Record) :
    Matches (fun gs gs' => gs' = gs.map (Group.mapRecords ρ))
      (Grouping.partition settings options field level records)
      (Grouping.partition settings options field level (records.map ρ)) := by
  have keyed : (records.map ρ).map (Grouping.keyed settings options field) =
      (records.map (Grouping.keyed settings options field)).map
        fun member => (member.1, ρ.onMember member.2) := by
    rw [List.map_map, List.map_map]
    exact List.map_congr_left fun r _ => ρ.keyed_map settings options field r
  rw [Grouping.partition, Grouping.partition, keyed, classes_map, List.map_map,
    show (·.2) ∘ (fun own : String × List (Value × Record) => (own.1, own.2.map ρ.onMember)) =
      List.map ρ.onMember ∘ (·.2) from rfl, ← List.map_map]
  exact ρ.matches_buildList settings options field level _

/-! ## A further level -/

mutual

/-- A further level of groups below a group of replaced records. -/
theorem matches_regroup (g : Group) :
    Matches (fun g g' => g' = g.mapRecords ρ)
      (Grouping.regroup settings options field g)
      (Grouping.regroup settings options field (g.mapRecords ρ)) := by
  obtain ⟨key, ownField, level, count, items, subgroups, groupedData, aggregates⟩ := g
  cases subgroups with
  | nil =>
    -- a leaf is cut, and its members may stand in either of two places
    have members : (if (items.map ρ).isEmpty then groupedData.map ρ else items.map ρ) =
        (if items.isEmpty then groupedData else items).map ρ := by
      rw [List.isEmpty_map]
      split <;> rfl
    rw [Group.mapRecords, Group.mapRecordsList, Grouping.regroup, Grouping.regroup]
    simp only [members]
    refine (ρ.matches_partition settings options field (level + 1) _).bind fun _ _ same => .pure ?_
    rw [Group.mapRecords, Group.mapRecordsList_eq_map, same]
    rfl
  | cons g gs =>
    rw [Group.mapRecords, Group.mapRecordsList, Grouping.regroup, Grouping.regroup]
    refine (matches_regroup g).bind fun _ _ first => (matches_regroupList gs).bind
      fun _ _ rest => .pure ?_
    rw [Group.mapRecords, Group.mapRecordsList, first, rest]

theorem matches_regroupList (gs : List Group) :
    Matches (fun gs gs' => gs' = Group.mapRecordsList ρ gs)
      (Grouping.regroupList settings options field gs)
      (Grouping.regroupList settings options field (Group.mapRecordsList ρ gs)) := by
  cases gs with
  | nil => exact .pure rfl
  | cons g gs =>
    exact (matches_regroup g).bind fun _ _ first => (matches_regroupList gs).bind
      fun _ _ rest => .pure (first ▸ rest ▸ rfl)

end

/-! ## All levels -/

theorem matches_group (data : DataSet) :
    Matches (fun data data' => data' = data.mapRecords ρ)
      (Grouping.group settings options data field)
      (Grouping.group settings options (data.mapRecords ρ) field) := by
  cases data with
  | records items =>
    cases items with
    | nil => exact .pure rfl
    | cons r rs =>
      exact (ρ.matches_partition settings options field 1 (r :: rs)).bind
        fun _ _ same => .pure (same ▸ rfl)
  | grouped set =>
    have list := ρ.matches_regroupList settings options field set.groups
    rw [Group.mapRecordsList_eq_map] at list
    exact list.bind fun gs _ same => .pure (by rw [same, Group.mapRecordsList_eq_map]; rfl)

/-- Grouping replaced records gives the groups of the records, replaced. -/
theorem matches_groupAll (data : DataSet) (fields : List String) :
    Matches (fun data data' => data' = data.mapRecords ρ)
      (Grouping.groupAll settings options data fields)
      (Grouping.groupAll settings options (data.mapRecords ρ) fields) := by
  induction fields generalizing data with
  | nil => exact .pure rfl
  | cons field fields ih =>
    exact (ρ.matches_group settings options field data).bind fun data' _ same =>
      same ▸ ih data'

end Replacement

end RecordQuery
