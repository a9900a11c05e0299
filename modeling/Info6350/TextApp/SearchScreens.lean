import Info6350.TextApp.Records

/-! # The screens that show orders

A view screen shows all orders and a search screen those that it finds, as one text of their
descriptions.  How Swift writes a date and an array of lines into a string is left open.
-/

namespace Info6350.TextApp
open Library Swift Logistics

/-- The string interpolation of a `Date` and of `[OrderItem]`. -/
structure Interpolation where
  date : Date → String
  items : List OrderItem → String

def Location.getDescription (l : Location) : String :=
  s!"Location ID: {l.id} \nStreet: {l.street} \nCity: {l.city} \nState: {l.state} " ++
    s!"\nCountry: {l.country} \nZip: {l.zip}\n"

def LogisticsOrder.getDescription (I : Interpolation) (o : LogisticsOrder) : String :=
  s!"Order ID: {o.id} \nFrom Location: {o.fromLocation.getDescription} " ++
    s!"\nTo Location: {o.toLocation.getDescription} " ++
    s!"\nEstimated Arrival Date: {I.date o.estimatedArrivalDate} " ++
    s!"\nDeparture Date: {I.date o.departureDate} \nCost: {o.cost} " ++
    s!"\nItems Carried {I.items o.itemsCarried}\n"

/-- `outputStr` after the loop over the orders. -/
def outputStr (I : Interpolation) (orders : List LogisticsOrder) : String :=
  orders.foldl (fun out order => (out.append (order.getDescription I)).append "\n") ""

/-- `ViewOrderViewController`, `viewOrder`. -/
def viewOrder (I : Interpolation) (logisticsOrder : List LogisticsOrder) : String :=
  if (outputStr I logisticsOrder).isEmpty then "No orders exist" else outputStr I logisticsOrder

def searchText (I : Interpolation) (orders : List LogisticsOrder) : String :=
  if orders.length > 0 then outputStr I orders else "No orders found"

/-- `btnSearchTap` of `SearchByDateViewController`: the orders that the text describes. -/
def searchByDate (F : DateFormatter) (logisticsOrder : List LogisticsOrder) (form : Form Field) :
    Handler (List LogisticsOrder) := do
  let orderDate ← enteredDate F (form .tfDate) "Date is empty" "Departure date format invalid"
  return logisticsOrder.filter fun o =>
    o.departureDate = orderDate ∨ o.estimatedArrivalDate = orderDate

/-- `btnSearchTap` of `SearchByLocationViewController`. -/
def searchByLocation (logisticsOrder : List LogisticsOrder) (form : Form Field) :
    Handler (List LogisticsOrder) := do
  let location ← intOf (form .tfLocationId) "Invalid Location Id"
  return logisticsOrder.filter fun o =>
    o.toLocation.id = location ∨ o.fromLocation.id = location

section Texts
variable (I : Interpolation)

theorem outputStr_concat (orders : List LogisticsOrder) (order : LogisticsOrder) :
    outputStr I (orders ++ [order]) = outputStr I orders ++ order.getDescription I ++ "\n" := by
  rw [outputStr, List.foldl_append]
  rfl

/-- Every description ends with a new line, which no message does. -/
theorem outputStr_last {orders : List LogisticsOrder} (h : orders ≠ []) :
    (outputStr I orders).toList.getLast? = some '\n' := by
  obtain ⟨orders, order, rfl⟩ := (List.eq_nil_or_concat orders).resolve_left h
  rw [List.concat_eq_append, outputStr_concat]
  simp

theorem viewOrder_eq_iff (orders : List LogisticsOrder) :
    viewOrder I orders = "No orders exist" ↔ orders = [] := by
  constructor
  · intro h
    by_contra hne
    have hlast := outputStr_last I hne
    unfold viewOrder at h
    split_ifs at h with hempty
    · simp [String.isEmpty_iff.mp hempty] at hlast
    · rw [h] at hlast
      exact absurd hlast (by decide)
  · rintro rfl
    rfl

theorem searchText_eq_iff (orders : List LogisticsOrder) :
    searchText I orders = "No orders found" ↔ orders = [] := by
  constructor
  · intro h
    by_contra hne
    have hlast := outputStr_last I hne
    rw [searchText, if_pos (List.length_pos_iff.mpr hne)] at h
    rw [h] at hlast
    exact absurd hlast (by decide)
  · rintro rfl
    rfl

end Texts
end Info6350.TextApp
