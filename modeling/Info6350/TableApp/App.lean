import Info6350.TableApp.OrderScreens

/-! # The app as a machine

Each kind of record has a list screen and a details screen that the list pushes.
`paneStep` is their common behaviour, over what the three pairs of controllers do
differently; `step` adds the main menu.  Only the top screen receives events, and an
event that the top screen does not offer changes nothing.
-/

namespace Info6350.TableApp
open Library Swift Logistics

/-- A list screen, with the details screen pushed over it if there is one.  `isActive` is
that of the search controller. -/
structure Pane (α δ : Type) where
  filteredResults : List α
  isActive : Bool
  details : Option δ

/-- What can happen on a pane: on the list, `search` types in the search bar, `cancelSearch`
taps Cancel, and the rows are tapped and swiped; on the details screen the controls are
used, and the screen appears again after a transition that was called off. -/
inductive PaneEvent (ω : Type) where
  | search (text : String)
  | cancelSearch
  | addTapped (now : Date)
  | didSelectRow (row : ℕ) (now : Date)
  | swipeDelete (row : ℕ)
  | edit (e : ω)
  | createButtonTap
  | reappear
  | back

/-- What the pairs of controllers do differently. -/
structure Controllers (α δ ω : Type) where
  array : Store → List α
  matchesText : String → α → Bool
  instantiate : ViewControllerMode → Option ℕ → Date → Store → δ
  viewWillAppear : Store → δ → Except Trap δ
  edit : Store → ω → δ → Except Trap δ
  createButtonTap : Bool → δ → Store → Handler (Store × Alert)
  commitDelete : Bool → List α → ℕ → Store → Handler (Store × List α)

/-- What a step on a pane leaves: the store, the pane and the alerts shown. -/
structure PaneResult (α δ : Type) where
  store : Store
  pane : Pane α δ
  alerts : List Alert

section Pane
variable {α δ ω : Type} (C : Controllers α δ ω)

/-- The list as `viewWillAppear` sets it. -/
def Pane.listed (s : Store) (p : Pane α δ) : Pane α δ :=
  { p with filteredResults := C.array s, details := none }

def Pane.opened (s : Store) : Pane α δ := ⟨C.array s, false, none⟩

/-- `updateSearchResults(for:)`. -/
def Pane.searched (text : String) (s : Store) (p : Pane α δ) : Pane α δ :=
  { p with
    isActive := true
    filteredResults :=
      if text.isEmpty then C.array s else (C.array s).filter (C.matchesText text) }

/-- `tableView(_:canEditRowAt:)`. -/
def Pane.canEditRow (p : Pane α δ) : Bool := !p.isActive

theorem Pane.canEditRow_iff {p : Pane α δ} : p.canEditRow = true ↔ p.isActive = false := by
  simp [canEditRow]

def Pane.push (d : δ) (s : Store) (p : Pane α δ) : Except Trap (PaneResult α δ) := do
  let d ← C.viewWillAppear s d
  return ⟨s, { p with details := some d }, []⟩

variable {C} in
theorem Pane.push_ok_iff {d : δ} {s : Store} {p : Pane α δ} {r : PaneResult α δ} :
    p.push C d s = .ok r ↔
      ∃ d', C.viewWillAppear s d = .ok d' ∧ r = ⟨s, { p with details := some d' }, []⟩ := by
  rw [push, bind_ok_iff]
  refine exists_congr fun d' => and_congr_right fun _ => ?_
  rw [pure_ok_iff, eq_comm]

variable {C} in
theorem Pane.push_error_iff {d : δ} {s : Store} {p : Pane α δ} {t : Trap} :
    p.push C d s = .error t ↔ C.viewWillAppear s d = .error t := by
  rw [push, bind_error_iff]
  refine or_iff_left ?_
  rintro ⟨_, _, h⟩
  cases h

def paneStep (written : Bool) (s : Store) (p : Pane α δ) (e : PaneEvent ω) :
    Except Trap (PaneResult α δ) :=
  match p.details, e with
  | none, .search text => .ok ⟨s, p.searched C text s, []⟩
  | none, .cancelSearch => .ok ⟨s, { p with isActive := false, filteredResults := C.array s }, []⟩
  | none, .addTapped now => p.push C (C.instantiate .create none now s) s
  | none, .didSelectRow row now =>
    if row < p.filteredResults.length then p.push C (C.instantiate .modify (some row) now s) s
    else .ok ⟨s, p, []⟩
  | none, .swipeDelete row =>
    if p.canEditRow ∧ row < p.filteredResults.length then
      settle (fun r => ⟨r.1, { p with filteredResults := r.2 }, []⟩) (fun alerts => ⟨s, p, alerts⟩)
        (C.commitDelete written p.filteredResults row s)
    else .ok ⟨s, p, []⟩
  | some d, .edit e => do
    let d ← C.edit s e d
    return ⟨s, { p with details := some d }, []⟩
  | some d, .createButtonTap =>
    settle (fun r => ⟨r.1, p, [r.2]⟩) (fun alerts => ⟨s, p, alerts⟩)
      (C.createButtonTap written d s)
  | some d, .reappear => p.push C d s
  | some _, .back => .ok ⟨s, p.listed C s, []⟩
  | _, _ => .ok ⟨s, p, []⟩

end Pane

section Instances
variable (P : Platform)

def itemControllers : Controllers Item ItemDetails ItemEdit where
  array := Store.items
  matchesText := ItemsTableViewController.matchesText P
  instantiate vcMode indexPath _ _ := ItemDetailsViewController.instantiate vcMode indexPath
  viewWillAppear := ItemDetailsViewController.viewWillAppear P
  edit _ e d := .ok (ItemDetailsViewController.edit e d)
  createButtonTap := ItemDetailsViewController.createButtonTap
  commitDelete := ItemsTableViewController.commitDelete

def locationControllers : Controllers Location LocationDetails LocationEdit where
  array := Store.locations
  matchesText := LocationTableViewController.matchesText P
  instantiate vcMode indexPath _ _ := LocationDetailsViewController.instantiate vcMode indexPath
  viewWillAppear := LocationDetailsViewController.viewWillAppear
  edit _ e d := .ok (LocationDetailsViewController.edit e d)
  createButtonTap := LocationDetailsViewController.createButtonTapped
  commitDelete := LocationTableViewController.commitDelete

def orderControllers (edition : Edition) : Controllers LogisticsOrder OrderDetails OrderEdit where
  array := Store.logisticsOrder
  matchesText := LogisticOrderTableViewController.matchesText P
  instantiate := LogisticOrderDetailsViewController.instantiate
  viewWillAppear := LogisticOrderDetailsViewController.viewWillAppear
  edit := LogisticOrderDetailsViewController.edit
  createButtonTap := LogisticOrderDetailsViewController.createButtonTapped edition
  commitDelete := LogisticOrderTableViewController.commitDelete

end Instances

/-- The navigation stack over the main menu. -/
inductive Screen where
  | main
  | items (p : Pane Item ItemDetails)
  | locations (p : Pane Location LocationDetails)
  | orders (p : Pane LogisticsOrder OrderDetails)

structure AppState where
  store : Store
  screen : Screen
  alerts : List Alert

/-- The buttons of the main menu, the return to it, and the events of the panes. -/
inductive Event where
  | openItems
  | openLocations
  | openOrders
  | leave
  | items (e : PaneEvent ItemEdit)
  | locations (e : PaneEvent LocationEdit)
  | orders (e : PaneEvent OrderEdit)

/-- An event, and whether the database accepts the write that its handler sends. -/
structure Input where
  event : Event
  written : Bool

def AppState.show {α δ : Type} (screen : Pane α δ → Screen) (st : AppState)
    (r : PaneResult α δ) : AppState :=
  ⟨r.store, screen r.pane, r.alerts ++ st.alerts⟩

def step (P : Platform) (edition : Edition) : Machine AppState Input Trap := fun st i =>
  match st.screen, i.event with
  | .main, .openItems =>
    .ok { st with screen := .items (Pane.opened (itemControllers P) st.store) }
  | .main, .openLocations =>
    .ok { st with screen := .locations (Pane.opened (locationControllers P) st.store) }
  | .main, .openOrders =>
    .ok { st with screen := .orders (Pane.opened (orderControllers P edition) st.store) }
  | .items p, .items e =>
    (paneStep (itemControllers P) i.written st.store p e).map (st.show .items)
  | .locations p, .locations e =>
    (paneStep (locationControllers P) i.written st.store p e).map (st.show .locations)
  | .orders p, .orders e =>
    (paneStep (orderControllers P edition) i.written st.store p e).map (st.show .orders)
  | .items ⟨_, _, none⟩, .leave => .ok { st with screen := .main }
  | .locations ⟨_, _, none⟩, .leave => .ok { st with screen := .main }
  | .orders ⟨_, _, none⟩, .leave => .ok { st with screen := .main }
  | _, _ => .ok st

def AppState.atMenu (s : Store) : AppState := ⟨s, .main, []⟩

namespace Sample

/-! A database with two items, two locations and an order that carries the first item, and two
runs on it. -/

def lamp : Item := ⟨none, 1, "Lamp", "Desk lamp", 3, 20⟩
def chair : Item := ⟨none, 2, "Chair", "Office chair", 9, 80⟩
def depot : Location := ⟨1, "Main St", "Boston", "MA", "USA", "2115"⟩
def shop : Location := ⟨2, "Elm St", "Albany", "NY", "USA", "12207"⟩
def shipment : LogisticsOrder := ⟨5, depot, shop, 100, 200, 40, [⟨lamp, 2⟩]⟩

def database : Database where
  item := ⟨[lamp, chair], by decide⟩
  location := ⟨[depot, shop], by decide⟩
  logisticsorder := ⟨[shipment], by decide⟩

/-- Delete the first item, the first order, and the first item again. -/
def deletes : List Input :=
  [⟨.openItems, true⟩, ⟨.items (.swipeDelete 0), true⟩, ⟨.leave, true⟩, ⟨.openOrders, true⟩,
    ⟨.orders (.swipeDelete 0), true⟩, ⟨.leave, true⟩, ⟨.openItems, true⟩,
    ⟨.items (.swipeDelete 0), true⟩]

/-- Open the order, show the lamp and the chair in cells, tap, and update the order. -/
def taps : List Input :=
  [⟨.openOrders, true⟩, ⟨.orders (.didSelectRow 0 0), true⟩,
    ⟨.orders (.edit (.cellForRowAt none 0)), true⟩, ⟨.orders (.edit (.cellForRowAt none 1)), true⟩,
    ⟨.orders (.edit (.btnDecreaseTap 0)), true⟩, ⟨.orders (.edit (.btnIncreaseTap 1)), true⟩,
    ⟨.orders .createButtonTap, true⟩]

end Sample
end Info6350.TableApp
