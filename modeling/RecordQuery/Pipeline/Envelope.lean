import RecordQuery.Pipeline
import RecordQuery.Value.Json

/-!
# The envelope of a result

A result is sent as an object with the records or groups, and with the count, the aggregates and the
depth of the groups where there are any. Members stand in a fixed order.

* `Record.document` is a record as it is sent, `Group.document` a group;
* `QueryResult.envelope` is the whole.
-/

namespace RecordQuery

namespace Record

/-- A value in a structure as it is sent: a date with as much of its fraction as it needs. -/
def scalarDocument : Value → Json
  | .dateTime t => .string t.display
  | .dateTimeOffset t => .string t.display
  | v => v.toDocument

mutual

/-- A record as it is sent. -/
def document : Record → Json
  | .value v => v.toDocument
  | .table fields => .object (Value.memberDocuments fields)
  | .hash entries => .object (Value.memberDocuments (Fields.ofList entries))
  | .json j => j
  | .dynamic members => .object (Value.memberDocuments members)
  | .list items => .array (documents items)
  | .shaped _ slots => .object (slotDocuments slots)

def documents : List Record → List Json
  | [] => []
  | r :: rs => r.document :: documents rs

def slotDocuments : List (String × Slot) → List (String × Json)
  | [] => []
  | (name, slot) :: slots => (name, slotDocument slot) :: slotDocuments slots

def slotDocument : Slot → Json
  | .scalar _ v => scalarDocument v
  | .choice descriptor _ _ number => (Slot.choiceValue descriptor number).toDocument
  | .nested _ _ _ none => .null
  | .nested _ _ _ (some r) => r.document
  | .records items => .array (documents items)

end

end Record

/-- A count as it is sent. -/
def countJson (n : Nat) : Json := .integer n

/-- Aggregates as they are sent, by their labels. -/
def aggregatesJson (aggregates : List (String × Value)) : Json :=
  .object (Value.memberDocuments aggregates)

/-- A list of documents, unless it is empty. -/
def unlessEmpty (name : String) (items : List Json) : List (String × Json) :=
  if items.isEmpty then [] else [(name, .array items)]

/-- A member that is there only if it has a value. -/
def memberIfSome {α : Type} (name : String) (write : α → Json) (value : Option α) :
    List (String × Json) :=
  (value.map fun a => (name, write a)).toList

namespace Group

mutual

/-- A group as it is sent. -/
def document : Group → Json
  | ⟨key, field, level, count, items, subgroups, groupedData, aggregates⟩ =>
    .object
      ([("key", key.toDocument), ("field", .string field), ("level", countJson level),
          ("count", countJson count), ("items", .array (Record.documents items))]
        ++ unlessEmpty "subgroups" (documents subgroups)
        ++ unlessEmpty "groupedData" (Record.documents groupedData)
        ++ memberIfSome "aggregates" aggregatesJson aggregates)

def documents : List Group → List Json
  | [] => []
  | g :: gs => g.document :: documents gs

end

end Group

/-- Records or groups as they are sent. -/
def DataSet.document : DataSet → Json
  | .records items => .array (Record.documents items)
  | .grouped set => .array (Group.documents set.groups)

/-- The levels of a grouped data set. -/
def DataSet.levels : DataSet → List (String × Json)
  | .records _ => []
  | .grouped set => [("level", countJson set.level), ("childLevels", countJson set.childLevels)]

/-- A result as it is sent. -/
def QueryResult.envelope (r : QueryResult) : Json :=
  .object
    (("result", r.result.document)
      :: memberIfSome "count" countJson r.count
      ++ memberIfSome "aggregates" aggregatesJson r.aggregates
      ++ r.result.levels)

end RecordQuery
