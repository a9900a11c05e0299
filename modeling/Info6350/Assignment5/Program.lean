import Info6350.Swift.Console
import Info6350.Assignment5.Records

/-! # The menus as a machine

The functions of the script end by calling a menu, and never return to a caller that has more
to do, with one exception: the loops of the two searches call the order menu once for every
order that they print.  A step of the machine runs one function up to its call of the next, one
attempt of `getDateFromUser()`, or one round of a loop over items; the loops of the searches that
wait for their call to return are on a stack.
-/

namespace Info6350.Assignment5
open Library Swift Logistics Program

/-- The callers of `getDateFromUser()`, with the variables that they need afterwards. -/
inductive DateCaller where
  | createOrderArrival (orderId : ℤ) (fromLocation toLocation : Option Location)
  | createOrderDeparture (orderId : ℤ) (fromLocation toLocation : Option Location)
      (arrivalDate : Date)
  | updateDepartureDate (orderId : ℤ)
  | searchByDate
deriving DecidableEq, Repr

/-- The functions that have a loop over items, with the variables that they need afterwards. -/
inductive ItemsCaller where
  | createOrder (orderId : ℤ) (fromLocation toLocation : Option Location)
      (arrivalDate departureDate : Date)
  | updateItems (orderIndex : ℕ)
deriving DecidableEq, Repr

/-- Where the script is. -/
inductive Control where
  | mainMenu
  | locationMenu
  | createLocation
  | viewAllLocations
  | updateLocation
  | deleteLocation
  | itemMenu
  | createItem
  | viewAllItems
  | updateItem
  | deleteItem
  | logisticsOrderMenu
  | createOrder
  | getDateFromUser (caller : DateCaller)
  | enterItems (caller : ItemsCaller) (orderItems : List OrderItem)
  | viewAllOrders
  | updateDepartureDate
  | updateItems
  | deleteOrder
  | searchByDate
  | searchByLocation
deriving DecidableEq, Repr

/-- What a function does at its end: it goes on in another, starts the loop over the orders that a
search found, or returns. -/
inductive Next where
  | call (c : Control)
  | search (orders : List LogisticsOrder)
  | returned
deriving DecidableEq, Repr

/-! ## Input -/

/-- `Int(readLine() ?? "0") ?? 0` on the lines still to be read. -/
def enteredInt (stdin : List String) : ℤ := (parseInt (stdin.head?.getD "0")).getD 0

def readInt : Program Globals ℤ := do return (parseInt ((← readLine).getD "0")).getD 0

def readText : Program Globals String := do return (← readLine).getD ""

def chosen (stdin : List String) : Option ℤ := parseInt (stdin.head?.getD "")

def readOption : Program Globals (Option ℤ) := do return parseInt ((← readLine).getD "")

section Bind
variable {β : Type} (p : Process Globals)

theorem readInt_bind (f : ℤ → Program Globals β) :
    (readInt >>= f) p = f (enteredInt p.stdin) { p with stdin := p.stdin.tail } := rfl

theorem readText_bind (f : String → Program Globals β) :
    (readText >>= f) p = f (p.stdin.head?.getD "") { p with stdin := p.stdin.tail } := rfl

theorem readOption_bind (f : Option ℤ → Program Globals β) :
    (readOption >>= f) p = f (chosen p.stdin) { p with stdin := p.stdin.tail } := rfl

end Bind

/-! ## The functions -/

def mainMenu : Program Globals Next := do
  print "\nMain Menu"
  print "------------------------"
  print "Please select an option:"
  print "1. Item \n2. Location \n3. Logistic Order \n4. Exit"
  let mainMenuOption ← readOption
  match mainMenuOption with
  | some 1 => return .call .itemMenu
  | some 2 => return .call .locationMenu
  | some 3 => return .call .logisticsOrderMenu
  | some 4 => Program.exit
  | _ => do
    print "Invalid input"
    return .call .mainMenu

def locationMenu : Program Globals Next := do
  print "\nLocation Menu"
  print "------------------"
  print "Select an option: \n1. Create Location \n2. View all Locations \n3. Update Location \n4. Delete Location \n5. Back \n6. Exit"
  let locationMenuOption ← readOption
  match locationMenuOption with
  | some 1 => return .call .createLocation
  | some 2 => return .call .viewAllLocations
  | some 3 => return .call .updateLocation
  | some 4 => return .call .deleteLocation
  | some 5 => return .call .mainMenu
  | some 6 => Program.exit
  | _ => do
    print "Invalid input"
    return .returned

def createLocation : Program Globals Next := do
  print "Enter location id: "
  let locationId ← readInt
  print "Enter street name: "
  let streetName ← readText
  print "Enter city name: "
  let cityName ← readText
  print "Enter state name: "
  let stateName ← readText
  print "Enter country name: "
  let countryName ← readText
  print "Enter zip code: "
  let zipCode ← readText
  let g ← globals
  assign { g with locations :=
    g.locations ++ [⟨locationId, streetName, cityName, stateName, countryName, zipCode⟩] }
  print "Location created successfully"
  return .call .locationMenu

def viewAllLocations : Program Globals Next := do
  printAll ((← globals).locations.map Location.getDescription)
  return .call .locationMenu

/-- Success is printed also when there is no location with the id. -/
def updateLocation : Program Globals Next := do
  print "Enter location id: "
  let locationId ← readInt
  print "Enter new street name: "
  let streetName ← readText
  print "Enter new city name: "
  let cityName ← readText
  print "Enter new state name: "
  let stateName ← readText
  print "Enter new country name: "
  let countryName ← readText
  print "Enter new zip code: "
  let zipCode ← readText
  let g ← globals
  match firstIndex g.locations locationId with
  | some locationIndex =>
    assign { g with locations := g.locations.modify locationIndex fun location =>
      ⟨location.id, streetName, cityName, stateName, countryName, zipCode⟩ }
  | none => pure ()
  print "Location updated successfully"
  return .call .locationMenu

section Delete
variable {α : Type} [Keyed α ℤ]

/-- The delete functions differ in their array, their texts and their menu. -/
def deleteRecord (K : GlobalArray α) (prompt deleted failed : String) (menu : Control) :
    Program Globals Next := do
  print prompt
  let id ← readInt
  let g ← globals
  match firstIndex (K.array g) id with
  | some index => do
    assign (K.assign ((K.array g).eraseIdx index) g)
    print deleted
    return .call menu
  | none => do
    print failed
    return .call menu

end Delete

def deleteLocation : Program Globals Next :=
  deleteRecord locations "Enter location id: " "Location deleted successfully"
    "Location delete failed" .locationMenu

def itemMenu : Program Globals Next := do
  print "\nItem Menu"
  print "------------------"
  print "Select an option: \n1. Create Item \n2. View all Items \n3. Update Item \n4. Delete Item \n5. Back \n6. Exit"
  let itemMenuOption ← readOption
  match itemMenuOption with
  | some 1 => return .call .createItem
  | some 2 => return .call .viewAllItems
  | some 3 => return .call .updateItem
  | some 4 => return .call .deleteItem
  | some 5 => return .call .mainMenu
  | some 6 => Program.exit
  | _ => do
    print "Invalid input"
    return .returned

def createItem : Program Globals Next := do
  print "Enter item id: "
  let itemId ← readInt
  print "Enter item name: "
  let itemName ← readText
  print "Enter item description: "
  let itemDesc ← readText
  print "Enter item weight: "
  let itemWeight ← readInt
  print "Enter item value: "
  let itemValue ← readInt
  let g ← globals
  assign { g with items := g.items ++ [⟨itemId, itemName, itemDesc, itemWeight, itemValue⟩] }
  print "Item created successfully"
  return .call .itemMenu

def viewAllItems : Program Globals Next := do
  printAll ((← globals).items.map Item.getDescription)
  return .call .itemMenu

def updateItem : Program Globals Next := do
  print "Enter item id: "
  let itemId ← readInt
  print "Enter new item name: "
  let itemName ← readText
  print "Enter new item description: "
  let itemDesc ← readText
  print "Enter new item weight: "
  let itemWeight ← readInt
  print "Enter new item value: "
  let itemValue ← readInt
  let g ← globals
  match firstIndex g.items itemId with
  | some itemIndex => do
    assign { g with items := g.items.modify itemIndex fun item =>
      ⟨item.id, itemName, itemDesc, itemWeight, itemValue⟩ }
    print "Item updated successfully"
    return .call .itemMenu
  | none => do
    print "Item updated failed"
    return .call .itemMenu

def deleteItem : Program Globals Next :=
  deleteRecord items "Enter item id: " "Item deleted successfully" "Item delete failed" .itemMenu

def logisticsOrderMenu : Program Globals Next := do
  print "\nLogistics Order Menu"
  print "------------------"
  print "Select an option: \n1. Create order \n2. View all Orders \n3. Update Departure Date \n4. Update Items \n5. Delete Order \n6. Search by Date \n7. Search by location \n8. Back \n9. Exit"
  let logisticOrderMenuOption ← readOption
  match logisticOrderMenuOption with
  | some 1 => return .call .createOrder
  | some 2 => return .call .viewAllOrders
  | some 3 => return .call .updateDepartureDate
  | some 4 => return .call .updateItems
  | some 5 => return .call .deleteOrder
  | some 6 => return .call .searchByDate
  | some 7 => return .call .searchByLocation
  | some 8 => return .call .mainMenu
  | some 9 => Program.exit
  | _ => do
    print "Invalid input"
    return .call .logisticsOrderMenu

section Functions
variable (P : Platform)

/-- The part of `createOrder()` that reads one location and goes on without it if there is none
with the id. -/
def readLocation (prompt : String) : Program Globals (Option Location) := do
  print prompt
  let locationId ← readInt
  match lookup (← globals).locations locationId with
  | some location => do
    print (P.optionalLocationText location)
    return some location
  | none => do
    print "Invalid id"
    return none

/-- `createOrder()` up to its first date. -/
def createOrder : Program Globals Next := do
  print "Enter order id: "
  let orderId ← readInt
  let fromLocation ← readLocation P "Enter from location id: "
  let toLocation ← readLocation P "Enter to location id: "
  print "Enter arrival date:(MM-dd-yyyy) "
  return .call (.getDateFromUser (.createOrderArrival orderId fromLocation toLocation))

/-- The end of `createOrder()`: the locations are unwrapped by force. -/
def appendOrder (orderId : ℤ) (fromLocation toLocation : Option Location)
    (arrivalDate departureDate : Date) (orderItems : List OrderItem) : Program Globals Next := do
  let orderCost ← evaluate (getOrderTotal orderItems)
  let fromLocation ← evaluate (unwrap fromLocation)
  let toLocation ← evaluate (unwrap toLocation)
  let g ← globals
  assign { g with logisticsOrder := g.logisticsOrder ++
    [⟨orderId, fromLocation, toLocation, arrivalDate, departureDate, orderCost, orderItems⟩] }
  return .call .logisticsOrderMenu

/-- The end of `updateItems()`. -/
def replaceItems (orderIndex : ℕ) (orderItems : List OrderItem) : Program Globals Next := do
  let orderCost ← evaluate (getOrderTotal orderItems)
  let g ← globals
  let orders ← evaluate (modifyAt g.logisticsOrder orderIndex fun order =>
    { order with itemsCarried := orderItems, cost := orderCost })
  assign { g with logisticsOrder := orders }
  print "Order updated successfully"
  return .call .logisticsOrderMenu

/-- One round of the loop over items. -/
def enterItems (caller : ItemsCaller) (orderItems : List OrderItem) : Program Globals Next := do
  print "Enter item id: (Enter 99 to exit)"
  let itemId ← readInt
  if itemId = 99 then
    match caller with
    | .createOrder orderId fromLocation toLocation arrivalDate departureDate =>
      appendOrder orderId fromLocation toLocation arrivalDate departureDate orderItems
    | .updateItems orderIndex => replaceItems orderIndex orderItems
  else do
    print "Enter item quantity"
    let quantity ← readInt
    match lookup (← globals).items itemId with
    | some item => return .call (.enterItems caller (orderItems ++ [⟨item, quantity⟩]))
    | none => do
      print "Invalid input"
      return .call (.enterItems caller orderItems)

def viewAllOrders : Program Globals Next := do
  printAll ((← globals).logisticsOrder.map (LogisticsOrder.getDescription P))
  return .call .logisticsOrderMenu

/-- `updateDepartureDate()` up to its date. -/
def updateDepartureDate : Program Globals Next := do
  print "Enter order id: "
  let orderId ← readInt
  print "Enter new departure date: "
  return .call (.getDateFromUser (.updateDepartureDate orderId))

def updateItems : Program Globals Next := do
  print "Enter order id: "
  let orderId ← readInt
  match firstIndex (← globals).logisticsOrder orderId with
  | some orderIndex => do
    print "Enter items: "
    return .call (.enterItems (.updateItems orderIndex) [])
  | none => do
    print "Order update failed"
    return .call .logisticsOrderMenu

def deleteOrder : Program Globals Next :=
  deleteRecord logisticsOrder "Enter order id: " "Order deleted successfully"
    "Order delete failed" .logisticsOrderMenu

/-- The end of both searches. -/
def showFound (orders : List LogisticsOrder) : Program Globals Next := do
  if orders.length > 0 then return .search orders
  else do
    print "Order not found"
    return .call .logisticsOrderMenu

/-- `searchByDate()` up to its date. -/
def searchByDate : Program Globals Next := do
  print "Enter the departure date: "
  return .call (.getDateFromUser .searchByDate)

def searchByLocation : Program Globals Next := do
  print "Enter the location: "
  let location ← readInt
  showFound ((← globals).logisticsOrder.filter fun order =>
    order.toLocation.id = location ∨ order.fromLocation.id = location)

/-- What the callers of `getDateFromUser()` do with the date. -/
def useDate : DateCaller → Date → Program Globals Next
  | .createOrderArrival orderId fromLocation toLocation, arrivalDate => do
    print "Enter departure date:(MM-dd-yyyy) "
    return .call (.getDateFromUser
      (.createOrderDeparture orderId fromLocation toLocation arrivalDate))
  | .createOrderDeparture orderId fromLocation toLocation arrivalDate, departureDate => do
    print "Enter items: "
    return .call (.enterItems
      (.createOrder orderId fromLocation toLocation arrivalDate departureDate) [])
  | .updateDepartureDate orderId, departureDate => do
    let g ← globals
    match firstIndex g.logisticsOrder orderId with
    | some orderIndex => do
      assign { g with logisticsOrder := g.logisticsOrder.modify orderIndex fun order =>
        { order with departureDate := departureDate } }
      print "Departure date updated"
      return .call .logisticsOrderMenu
    | none => do
      print "Departure date failed"
      return .call .logisticsOrderMenu
  | .searchByDate, orderDate => do
    showFound ((← globals).logisticsOrder.filter fun order =>
      order.departureDate = orderDate ∨ order.estimatedArrivalDate = orderDate)

/-- One attempt; after an invalid date the function calls itself. -/
def getDateFromUser (caller : DateCaller) : Program Globals Next := do
  let date ← readText
  match P.date date with
  | some validDate => useDate caller validDate
  | none => do
    print "Invalid date. Enter again"
    return .call (.getDateFromUser caller)

end Functions

/-! ## The machine -/

def Control.run (P : Platform) : Control → Program Globals Next
  | .mainMenu => Assignment5.mainMenu
  | .locationMenu => Assignment5.locationMenu
  | .createLocation => Assignment5.createLocation
  | .viewAllLocations => Assignment5.viewAllLocations
  | .updateLocation => Assignment5.updateLocation
  | .deleteLocation => Assignment5.deleteLocation
  | .itemMenu => Assignment5.itemMenu
  | .createItem => Assignment5.createItem
  | .viewAllItems => Assignment5.viewAllItems
  | .updateItem => Assignment5.updateItem
  | .deleteItem => Assignment5.deleteItem
  | .logisticsOrderMenu => Assignment5.logisticsOrderMenu
  | .createOrder => Assignment5.createOrder P
  | .getDateFromUser caller => Assignment5.getDateFromUser P caller
  | .enterItems caller orderItems => Assignment5.enterItems caller orderItems
  | .viewAllOrders => Assignment5.viewAllOrders P
  | .updateDepartureDate => Assignment5.updateDepartureDate
  | .updateItems => Assignment5.updateItems
  | .deleteOrder => Assignment5.deleteOrder
  | .searchByDate => Assignment5.searchByDate
  | .searchByLocation => Assignment5.searchByLocation

/-- The stack holds, for every search whose loop waits, the orders that it has still to print. -/
structure State where
  process : Process Globals
  control : Control
  stack : List (List LogisticsOrder)

def State.globals (st : State) : Globals := st.process.globals

section Machine
variable (P : Platform)

/-- The script calls `mainMenu()` on an input. -/
def launch (stdin : List String) : State := ⟨⟨.initial P, stdin, []⟩, .mainMenu, []⟩

/-- A return to the topmost loop that has an order left; without one the script is at its end. -/
def resume (process : Process Globals) : List (List LogisticsOrder) → Except Halt State
  | [] => .error .exit
  | [] :: stack => resume process stack
  | (order :: orders) :: stack =>
    .ok ⟨{ process with stdout := process.stdout ++ [P.orderText order] }, .logisticsOrderMenu,
      orders :: stack⟩

/-- Run one function up to what it does at its end. -/
def step : Machine State Unit Halt := fun st _ => do
  let (next, process) ← st.control.run P st.process
  match next with
  | .call c => return ⟨process, c, st.stack⟩
  | .search orders => resume P process (orders :: st.stack)
  | .returned => resume P process st.stack

end Machine
end Info6350.Assignment5
