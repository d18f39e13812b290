import RecordQuery.Record.Write

/-!
# Sample orders

Ten orders, as structures, as documents and as dynamic records, so that the three kinds of records
can be compared with each other.

* `orderShape` and `addressShape` declare the members;
* `orders`, `orderDocuments` and `dynamicOrders` are the records.
-/

namespace RecordQuery.Sample

/-- The status of an order. -/
def orderStatus : EnumDescriptor where
  name := "OrderStatus"
  members := [
    ⟨"Pending", none, 0⟩,
    ⟨"InTransit", some "In Transit", 1⟩,
    ⟨"Delivered", none, 2⟩]

/-- Where an order is shipped. -/
def addressShape : Shape :=
  .mk "CustomerAddress" [
    ("ShipCity", .scalar (.of .string)),
    ("ShipCountry", .scalar (.of .string))]

/-- An order. -/
def orderShape : Shape :=
  .mk "Order" [
    ("OrderID", .scalar (.of .int32)),
    ("CustomerID", .scalar ⟨.string, true⟩),
    ("Freight", .scalar (.of .float64)),
    ("OrderDate", .scalar ⟨.dateTime, true⟩),
    ("Verified", .scalar (.of .bool)),
    ("Quantity", .scalar (.of .int16)),
    ("Status", .choice orderStatus false true),
    ("Address", .nested (some addressShape) true true)]

def customers : List String := ["ALFKI", "ANANTR", "BLONP", "ANTON", "BOLID"]

/-- City and country of every order. -/
def destinations : List (String × String) := [
  ("Berlin", "Germany"), ("Madrid", "Spain"), ("Cork", "Ireland"), ("Berlin", "Germany"),
  ("Lyon", "France"), ("Reims", "France"), ("Berlin", "Germany"), ("Graz", "Austria"),
  ("Madrid", "Spain"), ("Lyon", "France")]

/-- The freight of every order, in hundredths. -/
def freights : List Nat := [3250, 1125, 6575, 4150, 5125, 5800, 2300, 14825, 1400, 8250]

/-- A record with values written into it, as far as it takes them. -/
def filled (r : Record) (values : List (String × Value)) : Record :=
  values.foldl (fun r (path, v) => (r.set path v).1) r

/-- The order at a position, counted from zero. -/
def order (i : Nat) : Record :=
  let (city, country) := destinations.getD i ("", "")
  filled orderShape.blank [
    ("OrderID", .int32 (Int32.ofNat (1001 + i))),
    ("CustomerID", .string (customers.getD (i % 5) "")),
    ("Freight", .float64 (.ofRatio .double false (freights.getD i 0) 100)),
    ("OrderDate", match Date.ofParts? 1996 7 (4 + i) with
      | some day => .dateTime (.midnight day)
      | none => .null),
    ("Verified", .bool (i % 3 == 0)),
    ("Quantity", .int16 (Int16.ofNat (i * 7 % 20 + 1))),
    ("Status", .enum orderStatus (Int64.ofNat (i % 3))),
    ("Address.ShipCity", .string city),
    ("Address.ShipCountry", .string country)]

/-- Ten orders. -/
def orders : List Record := (List.range 10).map order

/-- The orders as documents. -/
def orderDocuments : List Json := orders.map Record.toJson

/-- The orders as dynamic records. -/
def dynamicOrders : List Record :=
  orders.map fun r =>
    match r.toValue with
    | .object members => .dynamic members
    | _ => .dynamic []

end RecordQuery.Sample
