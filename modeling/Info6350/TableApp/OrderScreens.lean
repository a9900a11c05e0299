import Info6350.TableApp.LocationScreens

/-! # The order list and the order details

`LogisticOrderTableViewController`, `LogisticOrderDetailsViewController` and
`OrderItemsTableViewCell`.  The lines of the order being edited are an `OrderItems`
object that the controller shares with the cells of its table: the controller owns
the objects that it allocates, and it and the cells hold references to them.
-/

namespace Info6350.TableApp
open Library Swift Logistics DatabaseManager

/-- The two apps that share these controllers. -/
inductive Edition where
  | assignment9
  | assignment10
deriving DecidableEq, Repr

inductive OrderField where
  | tfOrderId
deriving DecidableEq, Repr

structure OrderItemsTableViewCell where
  item : Option Item
  tempSelectedOrderItems : Option ℕ
  quantity : ℤ
  quantityLabel : String
deriving DecidableEq, Repr

/-- A cell as the storyboard loads it. -/
def OrderItemsTableViewCell.blank : OrderItemsTableViewCell := ⟨none, none, 0, "0"⟩

/-- The state of a `LogisticOrderDetailsViewController`.  `locationRows` and `itemRows`
are the numbers of rows that the pickers and the table asked for when they loaded. -/
structure OrderDetails where
  vcMode : ViewControllerMode
  indexPath : Option ℕ
  form : Form OrderField
  objects : List OrderItems
  tempSelectedOrderItems : ℕ
  locationRows : ℕ
  pickersEnabled : Bool
  fromRow : ℤ
  toRow : ℤ
  arrivalDate : Date
  departureDate : Date
  itemRows : ℕ
  cells : List OrderItemsTableViewCell

/-- What the user, the pickers and the table view do on the details screen besides its button.
A picker asks for the title of a row that it displays; the table view configures a new cell or
one that it used before. -/
inductive OrderEdit where
  | type (f : OrderField) (text : String)
  | pickFrom (row : ℕ)
  | pickTo (row : ℕ)
  | pickArrival (date : Date)
  | pickDeparture (date : Date)
  | titleForRow (row : ℕ)
  | cellForRowAt (reused : Option ℕ) (row : ℕ)
  | btnDecreaseTap (cell : ℕ)
  | btnIncreaseTap (cell : ℕ)

namespace LogisticOrderTableViewController

/-- The test of `updateSearchResults`. -/
def matchesText (P : Platform) (text : String) (o : LogisticsOrder) : Bool :=
  P.contains (P.dateString o.estimatedArrivalDate) (P.lowercased text) ||
    P.contains (P.dateString o.departureDate) (P.lowercased text) ||
    P.contains (toString o.id) text ||
    P.contains (P.lowercased o.fromLocation.street) (P.lowercased text) ||
    P.contains (P.lowercased o.fromLocation.city) (P.lowercased text) ||
    P.contains (P.lowercased o.fromLocation.state) (P.lowercased text) ||
    P.contains (P.lowercased o.fromLocation.country) (P.lowercased text) ||
    P.contains (P.lowercased o.fromLocation.zip) (P.lowercased text) ||
    P.contains (P.lowercased o.toLocation.street) (P.lowercased text) ||
    P.contains (P.lowercased o.toLocation.city) (P.lowercased text) ||
    P.contains (P.lowercased o.toLocation.state) (P.lowercased text) ||
    P.contains (P.lowercased o.toLocation.country) (P.lowercased text) ||
    P.contains (P.lowercased o.toLocation.zip) (P.lowercased text)

/-- `tableView(_:commit:forRowAt:)`; an order is deleted without a check. -/
def commitDelete (written : Bool) (filteredResults : List LogisticsOrder) (row : ℕ) (s : Store) :
    Handler (Store × List LogisticsOrder) := do
  let rest ← trapping
    (deleteRow written s.logisticsOrder filteredResults row s.db.logisticsorder)
  return ({ s with logisticsOrder := rest.1, db := { s.db with logisticsorder := rest.2 } }, rest.1)

theorem commitDelete_frame {written : Bool} {filtered filtered' : List LogisticsOrder} {row : ℕ}
    {s s' : Store} (h : commitDelete written filtered row s = .ok (s', filtered')) :
    s.SameItems s' ∧ s.SameLocations s' := by
  obtain ⟨⟨m, t⟩, -, h⟩ := bind_ok_iff.mp h
  obtain ⟨rfl, -⟩ := Prod.mk.inj (pure_ok_iff.mp h)
  exact ⟨⟨rfl, rfl⟩, ⟨rfl, rfl⟩⟩

theorem commitDelete_ok {written : Bool} {row : ℕ} {s s' : Store}
    {filtered : List LogisticsOrder}
    (h : commitDelete written s.logisticsOrder row s = .ok (s', filtered)) :
    row < s.logisticsOrder.length ∧ s' = (StoreEdit.orders (.delete row)).apply written s ∧
      filtered = s'.logisticsOrder := by
  obtain ⟨⟨m, t⟩, hd, h⟩ := bind_ok_iff.mp h
  obtain ⟨hrow, rfl, rfl⟩ := deleteRow_ok (trapping_ok_iff.mp hd)
  obtain ⟨rfl, rfl⟩ := Prod.mk.inj (pure_ok_iff.mp h)
  exact ⟨hrow, rfl, rfl⟩

theorem commitDelete_of_row {s : Store} {row : ℕ} (hrow : row < s.logisticsOrder.length)
    (written : Bool) : commitDelete written s.logisticsOrder row s =
      .ok ((StoreEdit.orders (.delete row)).apply written s,
        (Edit.delete row).onList s.logisticsOrder) :=
  bind_ok_iff.mpr ⟨_, trapping_ok_iff.mpr (deleteRow_getElem? (List.getElem?_eq_getElem hrow)
    written s.db.logisticsorder), rfl⟩

theorem commitDelete_unsuccessful (written : Bool) (filtered : List LogisticsOrder) (row : ℕ)
    (s : Store) : Stops Exit.Unsuccessful (commitDelete written filtered row s) :=
  (refuses_trapping _).unsuccessful.bind fun _ => stops_pure _

end LogisticOrderTableViewController

namespace LogisticOrderDetailsViewController

/-- The controller as instantiated from the storyboard and set up by the list.  A picker
without rows has no selected row. -/
def instantiate (vcMode : ViewControllerMode) (indexPath : Option ℕ) (now : Date) (s : Store) :
    OrderDetails where
  vcMode := vcMode
  indexPath := indexPath
  form := Form.blank
  objects := [OrderItems.init]
  tempSelectedOrderItems := 0
  locationRows := s.locations.length
  pickersEnabled := true
  fromRow := if s.locations.isEmpty then -1 else 0
  toRow := if s.locations.isEmpty then -1 else 0
  arrivalDate := now
  departureDate := now
  itemRows := s.items.length
  cells := []

/-- The object behind `tempSelectedOrderItems`. -/
def selected (d : OrderDetails) : OrderItems :=
  d.objects[d.tempSelectedOrderItems]?.getD OrderItems.init

/-- The picker row of a location, or the row selected before when it is not listed. -/
def rowOf (s : Store) (location : Location) (row : ℤ) : ℤ :=
  match firstIndex s.locations location.id with
  | some position => position
  | none => row

def viewWillAppear (s : Store) (d : OrderDetails) : Except Trap OrderDetails :=
  match d.vcMode, d.indexPath with
  | .modify, some row => do
    let existingOrder ← subscript s.logisticsOrder row
    let object ← OrderItems.initItems existingOrder.itemsCarried
    return { d with
      form := d.form
        |>.setText .tfOrderId (toString existingOrder.id)
        |>.disable .tfOrderId
      departureDate := existingOrder.departureDate
      arrivalDate := existingOrder.estimatedArrivalDate
      objects := d.objects ++ [object]
      tempSelectedOrderItems := d.objects.length
      pickersEnabled := false
      fromRow := rowOf s existingOrder.fromLocation d.fromRow
      toRow := rowOf s existingOrder.toLocation d.toRow }
  | _, _ => .ok d

/-- A cell shows a new quantity and puts its line into the object that it refers to. -/
def putLine (cell : ℕ) (c : OrderItemsTableViewCell) (item : Item) (quantity : ℤ)
    (d : OrderDetails) : Except Trap OrderDetails := do
  let d := { d with
    cells := d.cells.set cell { c with quantity := quantity, quantityLabel := toString quantity } }
  match c.tempSelectedOrderItems.bind fun r => d.objects[r]?.map fun o => (r, o) with
  | none => return d
  | some (r, o) =>
    let o ← o.put item quantity
    return { d with objects := d.objects.set r o }

def btnDecreaseTap (cell : ℕ) (d : OrderDetails) : Except Trap OrderDetails :=
  match d.cells[cell]? with
  | none => .ok d
  | some c => match c.item with
    | none => .ok d
    | some item =>
      if c.quantity > 0 then do
        let quantity ← addInt c.quantity (-1)
        putLine cell c item quantity d
      else .ok d

def btnIncreaseTap (cell : ℕ) (d : OrderDetails) : Except Trap OrderDetails :=
  match d.cells[cell]? with
  | none => .ok d
  | some c => match c.item with
    | none => .ok d
    | some item => do
      let quantity ← addInt c.quantity 1
      putLine cell c item quantity d

/-- What `tableView(_:cellForRowAt:)` writes to the cell that it dequeued; the quantity of
a reused cell stays when the order has no line of the item. -/
def configureCell (item : Item) (d : OrderDetails) (cell : OrderItemsTableViewCell) :
    OrderItemsTableViewCell :=
  let cell := { cell with
    tempSelectedOrderItems := some d.tempSelectedOrderItems
    item := some item }
  match (selected d).items.find? (fun l => l.item.id = item.id) with
  | some line => { cell with quantity := line.quantity, quantityLabel := toString line.quantity }
  | none => cell

def cellForRowAt (s : Store) (reused : Option ℕ) (row : ℕ) (d : OrderDetails) :
    Except Trap OrderDetails :=
  if row < d.itemRows then do
    let item ← subscript s.items row
    match reused with
    | none => return { d with cells := d.cells ++ [configureCell item d .blank] }
    | some i => return { d with cells := d.cells.modify i (configureCell item d) }
  else .ok d

/-- `pickerView(_:titleForRow:forComponent:)`. -/
def titleForRow (s : Store) (row : ℕ) : Except Trap String := do
  let location ← subscript s.locations row
  return location.street ++ ", " ++ location.city ++ ", " ++ location.state

def edit (s : Store) : OrderEdit → OrderDetails → Except Trap OrderDetails
  | .type f text, d => .ok { d with form := d.form.type f text }
  | .pickFrom row, d =>
    .ok (if d.pickersEnabled ∧ row < d.locationRows then { d with fromRow := row } else d)
  | .pickTo row, d =>
    .ok (if d.pickersEnabled ∧ row < d.locationRows then { d with toRow := row } else d)
  | .pickArrival date, d => .ok { d with arrivalDate := date }
  | .pickDeparture date, d => .ok { d with departureDate := date }
  | .titleForRow row, d =>
    if row < d.locationRows then (titleForRow s row).map fun _ => d else .ok d
  | .cellForRowAt reused row, d => cellForRowAt s reused row d
  | .btnDecreaseTap cell, d => btnDecreaseTap cell d
  | .btnIncreaseTap cell, d => btnIncreaseTap cell d

theorem edit_titleForRow {s : Store} {row : ℕ} {d d' : OrderDetails}
    (h : edit s (.titleForRow row) d = .ok d') : d = d' := by
  change (if _ then _ else _) = _ at h
  split_ifs at h
  · obtain ⟨-, -, rfl⟩ := map_ok_iff.mp h
    rfl
  · exact Except.ok.inj h

/-- The checks of the dates and of the lines, and what they write over an order. -/
def enteredOrder (d : OrderDetails) : Handler (LogisticsOrder → LogisticsOrder) := do
  refuseIf (d.arrivalDate < d.departureDate) "Arrival date cannot be before departure date"
  refuseIf ((selected d).items.length = 0) "Select atleast one item"
  return fun order => { order with
    estimatedArrivalDate := d.arrivalDate
    departureDate := d.departureDate
    cost := (selected d).orderTotal
    itemsCarried := (selected d).items }

/-- Only Assignment 10 checks that there is a location before it subscripts. -/
def createOrder (edition : Edition) (written : Bool) (d : OrderDetails) (s : Store) :
    Handler (Store × Alert) := do
  let orderId ← intOf (d.form .tfOrderId) "Invalid Order Id"
  refuseIf (firstIndex s.logisticsOrder orderId).isSome "Order id already exists"
  refuseIf (edition = .assignment10 ∧ ¬ s.locations.length > 0) "Create locations first"
  let fromLocation ← trapping (subscript s.locations d.fromRow)
  let toLocation ← trapping (subscript s.locations d.toRow)
  let entered ← enteredOrder d
  let order := entered ⟨orderId, fromLocation, toLocation, 0, 0, 0, []⟩
  return ({ s with
    logisticsOrder := s.logisticsOrder ++ [order]
    db := { s.db with logisticsorder := saveRecord written order s.db.logisticsorder } },
    ⟨"Success", "Order created successfully"⟩)

def updateOrder (written : Bool) (d : OrderDetails) (s : Store) : Handler (Store × Alert) :=
  match d.indexPath with
  | none => .error .silent
  | some row => do
    let entered ← enteredOrder d
    let rest ← trapping (updateRow written s.logisticsOrder row entered s.db.logisticsorder)
    return ({ s with logisticsOrder := rest.1, db := { s.db with logisticsorder := rest.2 } },
      ⟨"Success", "Order updated successfully"⟩)

def createButtonTapped (edition : Edition) (written : Bool) (d : OrderDetails) (s : Store) :
    Handler (Store × Alert) :=
  if d.vcMode = .create then createOrder edition written d s else updateOrder written d s

structure Enters (d : OrderDetails) (old new : LogisticsOrder) : Prop where
  id : new.id = old.id
  fromLocation : new.fromLocation = old.fromLocation
  toLocation : new.toLocation = old.toLocation
  departureDate : new.departureDate = d.departureDate
  estimatedArrivalDate : new.estimatedArrivalDate = d.arrivalDate
  dates : d.departureDate ≤ d.arrivalDate
  cost : new.cost = (selected d).orderTotal
  itemsCarried : new.itemsCarried = (selected d).items
  itemsCarried_ne : new.itemsCarried ≠ []

theorem enteredOrder_ok {d : OrderDetails} {entered : LogisticsOrder → LogisticsOrder}
    (h : enteredOrder d = .ok entered) (old : LogisticsOrder) : Enters d old (entered old) := by
  simp only [enteredOrder, bind_ok_iff, refuseIf_ok_iff, pure_ok_iff] at h
  obtain ⟨_, hdates, _, hitems, rfl⟩ := h
  refine ⟨rfl, rfl, rfl, rfl, rfl, not_lt.mp hdates, rfl, rfl, ?_⟩
  exact fun hnil => hitems (List.length_eq_zero_iff.mpr hnil)

theorem enteredOrder_of_enters {d : OrderDetails} {old new : LogisticsOrder}
    (h : Enters d old new) : ∃ entered, enteredOrder d = .ok entered ∧ entered old = new := by
  simp only [enteredOrder, bind_ok_iff, refuseIf_ok_iff, pure_ok_iff]
  refine ⟨_, ⟨(), not_lt.mpr h.dates, (), fun hnil => h.itemsCarried_ne ?_, rfl⟩, ?_⟩
  · rw [h.itemsCarried]
    exact List.length_eq_zero_iff.mp hnil
  · obtain ⟨hid, hfrom, hto, hdep, harr, _, hcost, hitems, _⟩ := h
    cases new
    cases hid
    cases hfrom
    cases hto
    cases hdep
    cases harr
    cases hcost
    cases hitems
    rfl

theorem createOrder_subscripts {edition : Edition} {written : Bool} {d : OrderDetails}
    {s s' : Store} {a : Alert} (h : createOrder edition written d s = .ok (s', a)) :
    ∃ order old, (Edit.create order).Legal s.logisticsOrder ∧ Enters d old order ∧
      subscript s.locations d.fromRow = .ok order.fromLocation ∧
      subscript s.locations d.toRow = .ok order.toLocation ∧
      (d.form .tfOrderId).int? = some order.id ∧
      s' = (StoreEdit.orders (.create order)).apply written s ∧
      a = ⟨"Success", "Order created successfully"⟩ := by
  simp only [createOrder, bind_ok_iff, intOf_ok_iff, refuseIf_ok_iff, trapping_ok_iff,
    pure_ok_iff] at h
  obtain ⟨id, htext, _, hid, _, _, fromL, hfrom, toL, hto, entered, hentered, heq⟩ := h
  obtain ⟨rfl, rfl⟩ := Prod.mk.inj heq
  have henters := enteredOrder_ok hentered ⟨id, fromL, toL, 0, 0, 0, []⟩
  refine ⟨_, _, ?_, henters, ?_, ?_, ?_, rfl, rfl⟩
  · rw [firstIndex_isSome_iff] at hid
    change (entered _).id ∉ keys s.logisticsOrder
    rw [henters.id]
    exact hid
  · rw [henters.fromLocation]
    exact hfrom
  · rw [henters.toLocation]
    exact hto
  · rw [henters.id]
    exact htext

theorem createOrder_ok {edition : Edition} {written : Bool} {d : OrderDetails} {s s' : Store}
    {a : Alert} (h : createOrder edition written d s = .ok (s', a)) :
    ∃ order old, (Edit.create order).Legal s.logisticsOrder ∧ Enters d old order ∧
      order.fromLocation ∈ s.locations ∧ order.toLocation ∈ s.locations ∧
      (d.form .tfOrderId).int? = some order.id ∧
      s' = (StoreEdit.orders (.create order)).apply written s ∧
      a = ⟨"Success", "Order created successfully"⟩ := by
  obtain ⟨order, old, hlegal, henters, hfrom, hto, hrest⟩ := createOrder_subscripts h
  exact ⟨order, old, hlegal, henters, subscript_mem hfrom, subscript_mem hto, hrest⟩

theorem createOrder_of_enters {d : OrderDetails} {s : Store} {old order : LogisticsOrder}
    (htext : (d.form .tfOrderId).int? = some order.id)
    (hnew : order.id ∉ keys s.logisticsOrder)
    (hfrom : subscript s.locations d.fromRow = .ok order.fromLocation)
    (hto : subscript s.locations d.toRow = .ok order.toLocation) (h : Enters d old order)
    (edition : Edition) (written : Bool) :
    createOrder edition written d s = .ok ((StoreEdit.orders (.create order)).apply written s,
      ⟨"Success", "Order created successfully"⟩) := by
  have hblank : Enters d ⟨order.id, order.fromLocation, order.toLocation, 0, 0, 0, []⟩ order :=
    { h with id := rfl, fromLocation := rfl, toLocation := rfl }
  obtain ⟨entered, hentered, horder⟩ := enteredOrder_of_enters hblank
  have hlocations : s.locations.length > 0 := List.length_pos_of_mem (subscript_mem hfrom)
  simp only [createOrder, bind_ok_iff, intOf_ok_iff, refuseIf_ok_iff, trapping_ok_iff,
    pure_ok_iff, firstIndex_isSome_iff]
  refine ⟨order.id, htext, (), hnew, (), fun h => h.2 hlocations, order.fromLocation, hfrom,
    order.toLocation, hto, entered, hentered, ?_⟩
  rw [horder]
  rfl

theorem updateOrder_ok {written : Bool} {d : OrderDetails} {s s' : Store} {a : Alert}
    (h : updateOrder written d s = .ok (s', a)) :
    ∃ row old new, d.indexPath = some row ∧ s.logisticsOrder[row]? = some old ∧
      Enters d old new ∧ s' = (StoreEdit.orders (.update row new)).apply written s ∧
      a = ⟨"Success", "Order updated successfully"⟩ := by
  unfold updateOrder at h
  cases hrow : d.indexPath with
  | none => simp [hrow] at h
  | some row =>
    simp only [hrow, bind_ok_iff, trapping_ok_iff, pure_ok_iff, updateRow_ok_iff] at h
    obtain ⟨entered, hentered, _, ⟨old, hold, rfl⟩, heq⟩ := h
    obtain ⟨rfl, rfl⟩ := Prod.mk.inj heq
    exact ⟨row, old, entered old, rfl, hold, enteredOrder_ok hentered old, rfl, rfl⟩

theorem updateOrder_of_enters {written : Bool} {d : OrderDetails} {s : Store} {row : ℕ}
    {old new : LogisticsOrder} (hrow : d.indexPath = some row)
    (hold : s.logisticsOrder[row]? = some old) (h : Enters d old new) :
    updateOrder written d s = .ok ((StoreEdit.orders (.update row new)).apply written s,
      ⟨"Success", "Order updated successfully"⟩) := by
  obtain ⟨entered, hentered, rfl⟩ := enteredOrder_of_enters h
  simp only [updateOrder, hrow, bind_ok_iff, trapping_ok_iff, pure_ok_iff, updateRow_ok_iff]
  exact ⟨entered, hentered, _, ⟨old, hold, rfl⟩, rfl⟩

theorem stops_enteredOrder {E : Exit → Prop} [FailedChecks E] (d : OrderDetails) :
    Stops E (enteredOrder d) :=
  (stops_refuseIf _ _).bind fun _ => (stops_refuseIf _ _).bind fun _ => stops_pure _

theorem refuses_createButtonTapped (edition : Edition) (written : Bool) (d : OrderDetails)
    (s : Store) : Refuses (createButtonTapped edition written d s) := by
  unfold createButtonTapped
  split_ifs
  · exact (stops_intOf _ _).bind fun _ => (stops_refuseIf _ _).bind fun _ =>
      (stops_refuseIf _ _).bind fun _ => (refuses_trapping _).bind fun _ =>
      (refuses_trapping _).bind fun _ => (stops_enteredOrder d).bind fun _ => stops_pure _
  · unfold updateOrder
    cases d.indexPath with
    | none => exact refuses_silent
    | some row =>
      exact (stops_enteredOrder d).bind fun _ => (refuses_trapping _).bind fun _ =>
        stops_pure _

end LogisticOrderDetailsViewController
end Info6350.TableApp
