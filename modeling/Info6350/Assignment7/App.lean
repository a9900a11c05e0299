import Info6350.Assignment8.App

/-! # Assignment 7 as a machine

The screens are those of Assignment 8.  The controllers keep their records in the arrays of
`MainViewController` alone, and after a successful update the two controllers that change an
item or a location empty text fields.  The screens that only display or search records are left
out here too.
-/

namespace Info6350.Assignment7
open Library Swift Logistics TextApp
open Assignment8 (Menu Changer FetchState Screen Event)

structure MainViewController where
  locations : List Location
  items : List Item
  logisticsOrder : List LogisticsOrder

/-- `now` is the date that `Date()` returns. -/
def generateDummyData (F : DateFormatter) (now : Date) : MainViewController where
  locations := [location1, location2]
  items := [item1, item2]
  logisticsOrder := [order1 F now]

/-- The array that a fetch-then-change controller works on, how, and the text fields that it
empties after a successful change. -/
structure ChangeController where
  Record : Type
  keyed : Keyed Record ℤ
  array : MainViewController → List Record
  write : List Record → MainViewController → MainViewController
  screen : ChangeScreen Record
  emptied : List Field

attribute [instance] ChangeController.keyed

def updateItemController : ChangeController :=
  ⟨Item, inferInstance, MainViewController.items, fun l main => { main with items := l },
    TextApp.updateItem .assignment8,
    [.tfItemId, .tfItemName, .tfItemDescription, .tfItemWeight, .tfItemValue]⟩

/-- The id field keeps its text. -/
def updateLocationController : ChangeController :=
  ⟨Location, inferInstance, MainViewController.locations,
    fun l main => { main with locations := l }, TextApp.updateLocation,
    [.tfStreetName, .tfCityName, .tfStateName, .tfCountryName, .tfZipcode]⟩

def orderController (screen : ChangeScreen LogisticsOrder) : ChangeController :=
  ⟨LogisticsOrder, inferInstance, MainViewController.logisticsOrder,
    fun l main => { main with logisticsOrder := l }, screen, []⟩

def controller (F : DateFormatter) : Changer → ChangeController
  | .updateItem => updateItemController
  | .updateLocation => updateLocationController
  | .updateDepartureDate => orderController (TextApp.updateDepartureDate F)
  | .updateOrderItem => orderController (TextApp.updateOrderItems .assignment8)
  | .addItems => orderController (TextApp.addItems .assignment8)

namespace ChangeController
variable (C : ChangeController)

def btnFetchTap (scr : FetchState) (main : MainViewController) :
    Handler (FetchState × List Alert) := do
  let (index, form) ← C.screen.fetch (C.array main) scr.form
  return (⟨form, index⟩, C.screen.found)

/-- `btnUpdateTap`, `btnAddTap`. -/
def btnUpdateTap (scr : FetchState) (main : MainViewController) :
    Handler (MainViewController × FetchState × Alert) := do
  let (array, _) ← C.screen.change main.items (C.array main) scr.form scr.foundIndex
  return (C.write array main,
    { scr with form := C.emptied.foldl (fun form f => form.setText f "") scr.form },
    ⟨"Success", C.screen.success⟩)

end ChangeController

/-- `btnCreateTap` of the three create controllers. -/
def btnCreateTap (F : DateFormatter) (menu : Menu) (form : Form Field)
    (main : MainViewController) : Handler (MainViewController × Alert) :=
  match menu with
  | .item => do
    let item ← createItem .assignment8 main.items form
    return ({ main with items := main.items ++ [item] },
      ⟨"Success", "Item created successfully"⟩)
  | .location => do
    let location ← createLocation main.locations form
    return ({ main with locations := main.locations ++ [location] },
      ⟨"Success", "Location created successfully"⟩)
  | .order => do
    let order ← createOrder F .assignment8 main.items main.locations main.logisticsOrder form
    return ({ main with logisticsOrder := main.logisticsOrder ++ [order] },
      ⟨"Success", "Order created successfully"⟩)

/-- `btnDeleteTap` of the three delete controllers. -/
def btnDeleteTap (menu : Menu) (form : Form Field) (main : MainViewController) :
    Handler (MainViewController × Alert) :=
  match menu with
  | .item => do
    let (items, _) ← deletion main.items (form .tfItemId) "Invalid Item Id"
    return ({ main with items := items }, ⟨"Success", "Delete successfully"⟩)
  | .location => do
    let (locations, _) ← deletion main.locations (form .tfLocationId) "Invalid Location Id"
    return ({ main with locations := locations }, ⟨"Success", "Deleted successfully"⟩)
  | .order => do
    let (orders, _) ← deletion main.logisticsOrder (form .tfOrderId) "Invalid Order Id"
    return ({ main with logisticsOrder := orders }, ⟨"Success", "Deleted successfully"⟩)

structure AppState where
  main : MainViewController
  screen : Screen
  alerts : List Alert

namespace AppState

def wrote (st : AppState) (r : MainViewController × Alert) : AppState :=
  { st with main := r.1, alerts := r.2 :: st.alerts }

def changed (c : Changer) (st : AppState) (r : MainViewController × FetchState × Alert) :
    AppState :=
  ⟨r.1, .change c r.2.1, r.2.2 :: st.alerts⟩

def alerted (st : AppState) (alerts : List Alert) : AppState :=
  { st with alerts := alerts ++ st.alerts }

def launch (F : DateFormatter) (now : Date) : AppState := ⟨generateDummyData F now, .main, []⟩

end AppState

def step (F : DateFormatter) : Machine AppState Event Trap := fun st e =>
  match st.screen, e with
  | .main, .onButtonClicked m => .ok { st with screen := .menu m }
  | .menu _, .btnCloseTap => .ok { st with screen := .main }
  | .menu m, .presentCreate => .ok { st with screen := .create m .blank }
  | .menu m, .presentDelete => .ok { st with screen := .delete m .blank }
  | .menu m, .presentChange c =>
    if c.menu = m then .ok { st with screen := .change c .presented } else .ok st
  | .create m form, .type f text => .ok { st with screen := .create m (form.type f text) }
  | .create m form, .btnTap => settle st.wrote st.alerted (btnCreateTap F m form st.main)
  | .create m _, .btnCloseTap => .ok { st with screen := .menu m }
  | .delete m form, .type f text => .ok { st with screen := .delete m (form.type f text) }
  | .delete m form, .btnTap => settle st.wrote st.alerted (btnDeleteTap m form st.main)
  | .delete m _, .btnCloseTap => .ok { st with screen := .menu m }
  | .change c scr, .type f text =>
    .ok { st with screen := .change c { scr with form := scr.form.type f text } }
  | .change c scr, .btnFetchTap =>
    settle (fun r => { st with screen := .change c r.1, alerts := r.2 ++ st.alerts }) st.alerted
      ((controller F c).btnFetchTap scr st.main)
  | .change c scr, .btnTap =>
    settle (st.changed c) st.alerted ((controller F c).btnUpdateTap scr st.main)
  | .change c _, .btnCloseTap => .ok { st with screen := .menu c.menu }
  | _, _ => .ok st

end Info6350.Assignment7
