import RecordQuery.Proofs.Record.Elsewhere
import RecordQuery.Sample.Orders

/-!
# Writing and then reading

A path that was written reads what was written, and paths that lead elsewhere read what they read
before.

* `Sample.Order` and `Sample.Address` are orders with the members that `Sample.orderShape` declares;
* `Record.get_set` says what is read after a write in trees, documents and orders.
-/

namespace RecordQuery

/-! ## Orders -/

namespace Sample

inductive OrderStatus
  | pending
  | inTransit
  | delivered
  deriving DecidableEq

/-- The number of a status in `orderStatus`. -/
def OrderStatus.number : OrderStatus → Int64
  | .pending => 0
  | .inTransit => 1
  | .delivered => 2

/-- Where an order is shipped. -/
structure Address where
  city : String
  country : String

/-- An order. -/
structure Order where
  orderID : Int32
  customerID : Option String
  freight : Double
  orderDate : Option LocalDateTime
  verified : Bool
  quantity : Int16
  status : OrderStatus
  address : Option Address

/-- An order with nothing entered but its number. -/
def Order.new (orderID : Int32) : Order where
  orderID := orderID
  customerID := none
  freight := .zero .double false
  orderDate := none
  verified := false
  quantity := 0
  status := .pending
  address := none

/-- The address as a structure. -/
def Address.toRecord (a : Address) : Record :=
  .shaped addressShape.name [
    ("ShipCity", .scalar (.of .string) (.string a.city)),
    ("ShipCountry", .scalar (.of .string) (.string a.country))]

/-- The order as a structure. -/
def Order.toRecord (o : Order) : Record :=
  .shaped orderShape.name [
    ("OrderID", .scalar (.of .int32) (.int32 o.orderID)),
    ("CustomerID", .scalar ⟨.string, true⟩ (o.customerID.elim .null .string)),
    ("Freight", .scalar (.of .float64) (.float64 o.freight)),
    ("OrderDate", .scalar ⟨.dateTime, true⟩ (o.orderDate.elim .null .dateTime)),
    ("Verified", .scalar (.of .bool) (.bool o.verified)),
    ("Quantity", .scalar (.of .int16) (.int16 o.quantity)),
    ("Status", .choice orderStatus false true (some o.status.number)),
    ("Address", .nested addressShape true true (o.address.map Address.toRecord))]

/-- An order with nothing entered is the blank structure of its shape. -/
theorem Order.toRecord_new : (Order.new 0).toRecord = orderShape.blank := by
  simp [Order.toRecord, Order.new, Shape.blank, orderShape, Shape.name, Shape.members, Slot.blank,
    Slot.blankValue, TypeInfo.of, OrderStatus.number]

theorem Address.typed (a : Address) : a.toRecord.Typed :=
  .shaped (by simp [Slot.type?]) (by simp [Slot.inside?])

theorem Order.typed (o : Order) : o.toRecord.Typed := by
  refine .shaped (by simp [Slot.type?]) ?_
  intro slot mem r inside
  have address : r = (o.address.map Address.toRecord).getD addressShape.blank := by
    simp only [List.mem_cons, List.not_mem_nil, or_false] at mem
    rcases mem with rfl | rfl | rfl | rfl | rfl | rfl | rfl | rfl <;> cases inside
    rfl
  subst address
  cases o.address with
  | none => exact Address.typed ⟨"", ""⟩
  | some a => exact a.typed

theorem Address.complete (a : Address) : a.toRecord.Complete :=
  .shaped (by simp) (by simp [Slot.nested?])

/-- An order with an address lacks no record. -/
theorem Order.complete {o : Order} (present : o.address.isSome = true) : o.toRecord.Complete := by
  obtain ⟨a, present⟩ := Option.isSome_iff_exists.1 present
  refine .shaped (by simp [present]) ?_
  simp [Slot.nested?, present, a.complete]

end Sample

/-! ## Reading after a write -/

/-- **Writing and then reading.** The path that was written reads the value in a tree, its document
as a value in a document, and in an order or an address the value as it is fitted to the declared
type. Every path that diverges from it reads what it read before. -/
theorem Record.get_set {r : Record} {path : String} {v : Value}
    (written : (r.set path v).2 = true) :
    (r.IsTree → (r.set path v).1.get path = v) ∧
    (∀ j, r = .json j → (r.set path v).1.get path = .ofJson v.toJson) ∧
    ((∃ o : Sample.Order, r = o.toRecord) ∨ (∃ a : Sample.Address, r = a.toRecord) →
      ∃ type, Sample.ofRecord (.parse path) (r.set path v).1 = .declared type ∧
        coerce v type = .ok ((r.set path v).1.get path)) ∧
    (r.isStatic = false ∨ (∃ o : Sample.Order, r = o.toRecord ∧ o.address.isSome = true) →
      ∀ other, Diverges r (FieldPath.parse path).segments (FieldPath.parse other).segments →
        (r.set path v).1.get other = r.get other) := by
  refine ⟨fun tree => get_set_of_tree tree written, ?_, fun static => ?_,
    fun known other apart => ?_⟩
  · rintro j rfl
    exact get_set_of_json written
  · refine get_set_of_typed ?_ written
    rcases static with ⟨o, rfl⟩ | ⟨a, rfl⟩
    · exact o.typed
    · exact a.typed
  · refine get_set_of_diverges ?_ written apart
    rcases known with free | ⟨o, rfl, present⟩
    · exact .free free
    · exact Sample.Order.complete present

/-- A tag is overwritten under a name with a leading zero, and an address under a name in lower
case. The other tag and the country stay. -/
theorem Record.get_set_tag_city :
    (let tags := Record.table [("Tags", .list [.int64 1, .int64 2])]
    (tags.set "Tags.01" (.string "x")).1.get "Tags.01" = .string "x" ∧
      (tags.set "Tags.01" (.string "x")).1.get "Tags.0" = tags.get "Tags.0") ∧
    (let document := Record.json (.object [("Address", .null)])
    (document.set "Address.City" (.bool true)).1.get "Address.City" =
      .ofJson (Value.bool true).toJson) ∧
    (let order := { Sample.Order.new 1 with address := some ⟨"Lyon", "France"⟩ }.toRecord
    (∃ type, Sample.ofRecord (.parse "address.shipcity")
        (order.set "address.shipcity" (.int64 7)).1 = .declared type ∧
      coerce (.int64 7) type =
        .ok ((order.set "address.shipcity" (.int64 7)).1.get "address.shipcity")) ∧
    (order.set "address.shipcity" (.int64 7)).1.get "Address.ShipCountry" =
      order.get "Address.ShipCountry") := by
  refine ⟨?_, ?_, ?_⟩
  · intro tags
    have written : (tags.set "Tags.01" (.string "x")).2 = true := by decide
    obtain ⟨tree, -, -, elsewhere⟩ := get_set written
    refine ⟨tree trivial, elsewhere (.inl rfl) "Tags.0" ?_⟩
    rw [show (FieldPath.parse "Tags.01").segments = ["Tags", "01"] by decide,
      show (FieldPath.parse "Tags.0").segments = ["Tags", "0"] by decide]
    exact .inside (by decide) rfl rfl rfl (.here _ _ (by decide))
  · intro document
    have written : (document.set "Address.City" (.bool true)).2 = true := by decide
    exact (get_set written).2.1 _ rfl
  · intro order
    have written : (order.set "address.shipcity" (.int64 7)).2 = true := by decide
    obtain ⟨-, -, typed, elsewhere⟩ := get_set written
    refine ⟨typed (.inl ⟨_, rfl⟩), elsewhere (.inr ⟨_, rfl, rfl⟩) "Address.ShipCountry" ?_⟩
    rw [show (FieldPath.parse "address.shipcity").segments = ["address", "shipcity"] by decide,
      show (FieldPath.parse "Address.ShipCountry").segments = ["Address", "ShipCountry"] by decide]
    exact .inside (by decide) rfl rfl rfl (.here _ _ (by decide))

end RecordQuery
