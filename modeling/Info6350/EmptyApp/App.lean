import Info6350.TextApp.ChangeScreens
import Info6350.TextApp.CreateDelete

/-! # EmptyAppFinal as a machine

The main menu chooses a submenu and empties the output view.  A button of the submenu
replaces what the output view shows by a new screen, whose text fields, buttons and
captured variables live until the next menu tap.  The texts that the view and search
screens display are left out.
-/

namespace Info6350.EmptyApp
open Library Swift Logistics TextApp

structure MainView where
  locations : List Location
  items : List Item
  logisticsOrder : List LogisticsOrder

/-- `now` is the date that `Date()` returns. -/
def generateDummyData (F : DateFormatter) (now : Date) : MainView where
  locations := [location1, location2]
  items := [item1, item2]
  logisticsOrder := [order1 F now]

/-- The submenus `getItemsMenu`, `getLocationMenu` and `getLogisticsOrderMenu`. -/
inductive Menu where
  | item
  | location
  | order
deriving DecidableEq, Repr

inductive Updater where
  | updateItem
  | updateLocation
  | updateDepartureDate
  | updateOrderItems
deriving DecidableEq, Repr

def Updater.menu : Updater → Menu
  | .updateItem => .item
  | .updateLocation => .location
  | _ => .order

/-- What the closures of an update screen capture: its text fields, `itemFoundIndex`,
`locationFoundIndex` or `orderFoundIndex`, and `updateButton.isEnabled`. -/
structure UpdateView where
  form : Form Field
  foundIndex : ℤ
  isEnabled : Bool

def UpdateView.initial : UpdateView := ⟨.blank, -99, false⟩

structure UpdateController where
  Record : Type
  keyed : Keyed Record ℤ
  array : MainView → List Record
  write : List Record → MainView → MainView
  screen : ChangeScreen Record

attribute [instance] UpdateController.keyed

def Updater.controller (F : DateFormatter) : Updater → UpdateController
  | .updateItem => ⟨Item, inferInstance, MainView.items, fun l main => { main with items := l },
      TextApp.updateItem .emptyApp⟩
  | .updateLocation => ⟨Location, inferInstance, MainView.locations,
      fun l main => { main with locations := l }, TextApp.updateLocation⟩
  | .updateDepartureDate => ⟨LogisticsOrder, inferInstance, MainView.logisticsOrder,
      fun l main => { main with logisticsOrder := l }, TextApp.updateDepartureDate F⟩
  | .updateOrderItems => ⟨LogisticsOrder, inferInstance, MainView.logisticsOrder,
      fun l main => { main with logisticsOrder := l }, TextApp.updateOrderItems .emptyApp⟩

namespace UpdateController
variable (C : UpdateController)

/-- The handler of `fetchButton`: the id field is closed and Update is opened. -/
def fetch (view : UpdateView) (main : MainView) : Handler UpdateView := do
  let (index, form) ← C.screen.fetch (C.array main) view.form
  return ⟨form.disable C.screen.tfId, index, true⟩

/-- The handler of `updateButton`. -/
def update (view : UpdateView) (main : MainView) : Handler (MainView × Alert) := do
  let (array, _) ← C.screen.change main.items (C.array main) view.form view.foundIndex
  return (C.write array main, ⟨"Success", C.screen.success⟩)

end UpdateController

def create (F : DateFormatter) (menu : Menu) (form : Form Field) (main : MainView) :
    Handler (MainView × Alert) :=
  match menu with
  | .item => do
    let item ← createItem .emptyApp main.items form
    return ({ main with items := main.items ++ [item] },
      ⟨"Success", "Item created successfully"⟩)
  | .location => do
    let location ← createLocation main.locations form
    return ({ main with locations := main.locations ++ [location] },
      ⟨"Success", "Location created successfully"⟩)
  | .order => do
    let order ← createOrder F .emptyApp main.items main.locations main.logisticsOrder form
    return ({ main with logisticsOrder := main.logisticsOrder ++ [order] },
      ⟨"Success", "Order created successfully"⟩)

def delete (menu : Menu) (form : Form Field) (main : MainView) : Handler (MainView × Alert) :=
  match menu with
  | .item => do
    let (items, _) ← deletion main.items (form .tfItemId) "Invalid Item Id"
    return ({ main with items := items }, ⟨"Success", "Delete successfully"⟩)
  | .location => do
    let (locations, _) ← deletion main.locations (form .tfLocationId) "Invalid Location Id"
    return ({ main with locations := locations }, ⟨"Success", "Deleted successfully"⟩)
  | .order => do
    let (orders, _) ← deletion main.logisticsOrder (form .tfOrderId) "Invalid Order Id"
    return ({ main with logisticsOrder := orders }, ⟨"Success", "Deleted successfully"⟩)

def searchOrderByDate (F : DateFormatter) (form : Form Field) (main : MainView) :
    Handler (List LogisticsOrder) := do
  let orderDate ← enteredDate F (form .tfDate) "Date is empty" "Departure date format invalid"
  return main.logisticsOrder.filter fun o =>
    o.departureDate = orderDate ∨ o.estimatedArrivalDate = orderDate

def searchOrderByLocation (form : Form Field) (main : MainView) :
    Handler (List LogisticsOrder) := do
  let location ← intOf (form .tfLocationId) "Invalid Location Id"
  return main.logisticsOrder.filter fun o =>
    o.toLocation.id = location ∨ o.fromLocation.id = location

/-- What the output view shows; a search screen shows the orders found last. -/
inductive Output where
  | empty
  | create (menu : Menu) (form : Form Field)
  | view (menu : Menu)
  | update (u : Updater) (view : UpdateView)
  | delete (menu : Menu) (form : Form Field)
  | searchByDate (form : Form Field) (found : List LogisticsOrder)
  | searchByLocation (form : Form Field) (found : List LogisticsOrder)

structure AppState where
  main : MainView
  menu : Option Menu
  output : Output
  alerts : List Alert

/-- The buttons of the main menu, the buttons of the submenu, and the controls of the output
view: `button` is the create, update, delete or search button of the screen. -/
inductive Event where
  | getMenu (menu : Menu)
  | createTap
  | viewTap
  | updateTap (u : Updater)
  | deleteTap
  | searchByDateTap
  | searchByLocationTap
  | type (f : Field) (text : String)
  | fetchButton
  | button

namespace AppState

def launch (F : DateFormatter) (now : Date) : AppState :=
  ⟨generateDummyData F now, none, .empty, []⟩

def shows (st : AppState) (output : Output) : AppState := { st with output := output }

def wrote (st : AppState) (r : MainView × Alert) : AppState :=
  { st with main := r.1, alerts := r.2 :: st.alerts }

def alerted (st : AppState) (alerts : List Alert) : AppState :=
  { st with alerts := alerts ++ st.alerts }

end AppState

/-- A tap of a submenu button, if it is on the submenu shown. -/
def submenuStep (st : AppState) (menu : Menu) : Event → AppState
  | .createTap => st.shows (.create menu .blank)
  | .viewTap => st.shows (.view menu)
  | .updateTap u => if u.menu = menu then st.shows (.update u .initial) else st
  | .deleteTap => st.shows (.delete menu .blank)
  | .searchByDateTap => if menu = .order then st.shows (.searchByDate .blank []) else st
  | .searchByLocationTap => if menu = .order then st.shows (.searchByLocation .blank []) else st
  | _ => st

def outputStep (F : DateFormatter) (st : AppState) : Output → Event → Except Trap AppState
  | .create menu form, .type f text => .ok (st.shows (.create menu (form.type f text)))
  | .create menu form, .button => settle st.wrote st.alerted (create F menu form st.main)
  | .update u view, .type f text =>
    .ok (st.shows (.update u { view with form := view.form.type f text }))
  | .update u view, .fetchButton =>
    settle (fun view => st.shows (.update u view)) st.alerted
      ((u.controller F).fetch view st.main)
  | .update u view, .button =>
    if view.isEnabled then
      settle st.wrote st.alerted ((u.controller F).update view st.main)
    else .ok st
  | .delete menu form, .type f text => .ok (st.shows (.delete menu (form.type f text)))
  | .delete menu form, .button => settle st.wrote st.alerted (delete menu form st.main)
  | .searchByDate form found, .type f text =>
    .ok (st.shows (.searchByDate (form.type f text) found))
  | .searchByDate form _, .button =>
    settle (fun found => st.shows (.searchByDate form found)) st.alerted
      (searchOrderByDate F form st.main)
  | .searchByLocation form found, .type f text =>
    .ok (st.shows (.searchByLocation (form.type f text) found))
  | .searchByLocation form _, .button =>
    settle (fun found => st.shows (.searchByLocation form found)) st.alerted
      (searchOrderByLocation form st.main)
  | _, _ => .ok st

def step (F : DateFormatter) : Machine AppState Event Trap := fun st e =>
  match e with
  | .getMenu menu => .ok { st with menu := some menu, output := .empty }
  | .type _ _ | .fetchButton | .button => outputStep F st st.output e
  | _ => .ok (match st.menu with
    | some menu => submenuStep st menu e
    | none => st)

end Info6350.EmptyApp
