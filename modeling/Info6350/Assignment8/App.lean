import Info6350.Logistics.Store
import Info6350.TextApp.ChangeScreens
import Info6350.TextApp.CreateDelete

/-! # Assignment 8 as a machine

The three menus present the create, delete and fetch-then-change screens one at a time.  A
screen is a new controller with empty fields whenever it is presented, and a controller
that fetches starts with the index -99.  The screens that only display or search records
write nothing and are left out.
-/

namespace Info6350.Assignment8
open Library Swift Logistics TextApp DatabaseManager

abbrev Database := Logistics.Database Item Location LogisticsOrder
abbrev Store := Logistics.Store Item Location LogisticsOrder
abbrev StoreEdit := Logistics.StoreEdit Item Location LogisticsOrder

structure Slot (α : Type) [Keyed α ℤ] where
  array : Store → List α
  table : Store → Table α
  write : List α → Table α → Store → Store
  edit : Edit α → StoreEdit
  array_write : ∀ l t s, array (write l t s) = l
  table_write : ∀ l t s, table (write l t s) = t
  write_self : ∀ s, write (array s) (table s) s = s
  apply_edit : ∀ e written s, (edit e).apply written s =
    write (e.onList (array s)) (sendEdit written e (array s) (table s)) s
  legal_edit : ∀ e s, (edit e).Legal s ↔ e.Legal (array s)
  distinct : ∀ s, s.DistinctIds → Distinct (array s)

def itemSlot : Slot Item where
  array := Store.items
  table s := s.db.item
  write l t s := { s with items := l, db := { s.db with item := t } }
  edit := .items
  array_write _ _ _ := rfl
  table_write _ _ _ := rfl
  write_self _ := rfl
  apply_edit _ _ _ := rfl
  legal_edit _ _ := Iff.rfl
  distinct _ h := h.items

def locationSlot : Slot Location where
  array := Store.locations
  table s := s.db.location
  write l t s := { s with locations := l, db := { s.db with location := t } }
  edit := .locations
  array_write _ _ _ := rfl
  table_write _ _ _ := rfl
  write_self _ := rfl
  apply_edit _ _ _ := rfl
  legal_edit _ _ := Iff.rfl
  distinct _ h := h.locations

def orderSlot : Slot LogisticsOrder where
  array := Store.logisticsOrder
  table s := s.db.logisticsorder
  write l t s := { s with logisticsOrder := l, db := { s.db with logisticsorder := t } }
  edit := .orders
  array_write _ _ _ := rfl
  table_write _ _ _ := rfl
  write_self _ := rfl
  apply_edit _ _ _ := rfl
  legal_edit _ _ := Iff.rfl
  distinct _ h := h.logisticsOrder

/-- The menus `ItemViewController`, `LocationViewController` and `OrderViewController`. -/
inductive Menu where
  | item
  | location
  | order
deriving DecidableEq, Repr

/-- The screens that fetch a record and change it. -/
inductive Changer where
  | updateItem
  | updateLocation
  | updateDepartureDate
  | updateOrderItem
  | addItems
deriving DecidableEq, Repr

def Changer.menu : Changer → Menu
  | .updateItem => .item
  | .updateLocation => .location
  | _ => .order

/-- The text fields of a fetch-then-change controller and its `itemFoundIndex`,
`locationFoundIndex` or `orderFoundIndex`. -/
structure FetchState where
  form : Form Field
  foundIndex : ℤ

/-- As presented from the nib. -/
def FetchState.presented : FetchState := ⟨.blank, -99⟩

/-- The records that a fetch-then-change controller works on, and how. -/
structure ChangeController where
  Record : Type
  keyed : Keyed Record ℤ
  slot : Slot Record
  screen : ChangeScreen Record

attribute [instance] ChangeController.keyed

def Changer.controller (F : DateFormatter) : Changer → ChangeController
  | .updateItem => ⟨Item, inferInstance, itemSlot, TextApp.updateItem .assignment8⟩
  | .updateLocation => ⟨Location, inferInstance, locationSlot, TextApp.updateLocation⟩
  | .updateDepartureDate =>
    ⟨LogisticsOrder, inferInstance, orderSlot, TextApp.updateDepartureDate F⟩
  | .updateOrderItem =>
    ⟨LogisticsOrder, inferInstance, orderSlot, TextApp.updateOrderItems .assignment8⟩
  | .addItems => ⟨LogisticsOrder, inferInstance, orderSlot, TextApp.addItems .assignment8⟩

namespace ChangeController
variable (C : ChangeController)

def btnFetchTap (scr : FetchState) (s : Store) : Handler (FetchState × List Alert) := do
  let (index, form) ← C.screen.fetch (C.slot.array s) scr.form
  return (⟨form, index⟩, C.screen.found)

/-- `btnUpdateTap`, `btnAddTap`. -/
def btnUpdateTap (written : Bool) (scr : FetchState) (s : Store) : Handler (Store × Alert) := do
  let (array, updated) ← C.screen.change s.items (C.slot.array s) scr.form scr.foundIndex
  return (C.slot.write array (updateRecord written updated (C.slot.table s)) s,
    ⟨"Success", C.screen.success⟩)

end ChangeController

/-- `btnCreateTap` of the three create controllers. -/
def btnCreateTap (F : DateFormatter) (written : Bool) (menu : Menu) (form : Form Field)
    (s : Store) : Handler (Store × Alert) :=
  match menu with
  | .item => do
    let item ← createItem .assignment8 s.items form
    return (itemSlot.write (s.items ++ [item]) (saveRecord written item s.db.item) s,
      ⟨"Success", "Item created successfully"⟩)
  | .location => do
    let location ← createLocation s.locations form
    return (locationSlot.write (s.locations ++ [location])
        (saveRecord written location s.db.location) s,
      ⟨"Success", "Location created successfully"⟩)
  | .order => do
    let order ← createOrder F .assignment8 s.items s.locations s.logisticsOrder form
    return (orderSlot.write (s.logisticsOrder ++ [order])
        (saveRecord written order s.db.logisticsorder) s,
      ⟨"Success", "Order created successfully"⟩)

/-- `btnDeleteTap` of the three delete controllers. -/
def btnDeleteTap (written : Bool) (menu : Menu) (form : Form Field) (s : Store) :
    Handler (Store × Alert) :=
  match menu with
  | .item => do
    let (items, itemId) ← deletion s.items (form .tfItemId) "Invalid Item Id"
    return (itemSlot.write items (deleteRecord written itemId s.db.item) s,
      ⟨"Success", "Delete successfully"⟩)
  | .location => do
    let (locations, itemId) ← deletion s.locations (form .tfLocationId) "Invalid Location Id"
    return (locationSlot.write locations (deleteRecord written itemId s.db.location) s,
      ⟨"Success", "Deleted successfully"⟩)
  | .order => do
    let (orders, itemId) ← deletion s.logisticsOrder (form .tfOrderId) "Invalid Order Id"
    return (orderSlot.write orders (deleteRecord written itemId s.db.logisticsorder) s,
      ⟨"Success", "Deleted successfully"⟩)

inductive Screen where
  | main
  | menu (m : Menu)
  | create (m : Menu) (form : Form Field)
  | delete (m : Menu) (form : Form Field)
  | change (c : Changer) (scr : FetchState)

structure AppState where
  store : Store
  screen : Screen
  alerts : List Alert

/-- `btnTap` is the create, delete, update or add button of the screen. -/
inductive Event where
  | onButtonClicked (m : Menu)
  | presentCreate
  | presentDelete
  | presentChange (c : Changer)
  | type (f : Field) (text : String)
  | btnFetchTap
  | btnTap
  | btnCloseTap

/-- An event, and whether the database accepts the write that its handler sends. -/
structure Input where
  event : Event
  written : Bool

namespace AppState

def wrote (st : AppState) (r : Store × Alert) : AppState :=
  { st with store := r.1, alerts := r.2 :: st.alerts }

def alerted (st : AppState) (alerts : List Alert) : AppState :=
  { st with alerts := alerts ++ st.alerts }

def launch (db : Database) : AppState := ⟨generateDummyData db, .main, []⟩

end AppState

def step (F : DateFormatter) : Machine AppState Input Trap := fun st i =>
  match st.screen, i.event with
  | .main, .onButtonClicked m => .ok { st with screen := .menu m }
  | .menu _, .btnCloseTap => .ok { st with screen := .main }
  | .menu m, .presentCreate => .ok { st with screen := .create m .blank }
  | .menu m, .presentDelete => .ok { st with screen := .delete m .blank }
  | .menu m, .presentChange c =>
    if c.menu = m then .ok { st with screen := .change c .presented } else .ok st
  | .create m form, .type f text => .ok { st with screen := .create m (form.type f text) }
  | .create m form, .btnTap =>
    settle st.wrote st.alerted (btnCreateTap F i.written m form st.store)
  | .create m _, .btnCloseTap => .ok { st with screen := .menu m }
  | .delete m form, .type f text => .ok { st with screen := .delete m (form.type f text) }
  | .delete m form, .btnTap =>
    settle st.wrote st.alerted (btnDeleteTap i.written m form st.store)
  | .delete m _, .btnCloseTap => .ok { st with screen := .menu m }
  | .change c scr, .type f text =>
    .ok { st with screen := .change c { scr with form := scr.form.type f text } }
  | .change c scr, .btnFetchTap =>
    settle (fun r => { st with screen := .change c r.1, alerts := r.2 ++ st.alerts }) st.alerted
      ((c.controller F).btnFetchTap scr st.store)
  | .change c scr, .btnTap =>
    settle st.wrote st.alerted ((c.controller F).btnUpdateTap i.written scr st.store)
  | .change c _, .btnCloseTap => .ok { st with screen := .menu c.menu }
  | _, _ => .ok st

/-! ## The edits of the handlers -/

variable {F : DateFormatter}

/-- The five screens leave the id field and the ids alone. -/
theorem Changer.lawful (c : Changer) : (c.controller F).screen.Lawful := by
  cases c with
  | updateItem => exact updateItem_lawful _
  | updateLocation => exact updateLocation_lawful
  | updateDepartureDate => exact updateDepartureDate_lawful F
  | updateOrderItem => exact updateOrderItems_lawful _
  | addItems => exact addItems_lawful _

/-- A legal edit of one of the arrays, sent to its table, leads to the new store. -/
def Edits (written : Bool) (s s' : Store) : Prop :=
  ∃ e : StoreEdit, e.Legal s ∧ s' = e.apply written s

theorem Edits.refl (written : Bool) (s : Store) : Edits written s s :=
  ⟨.keep, trivial, (StoreEdit.apply_keep written s).symm⟩

namespace Slot
variable {α : Type} [Keyed α ℤ] (K : Slot α) {s : Store}

theorem edits {e : Edit α} (written : Bool) (he : e.Legal (K.array s)) :
    Edits written s ((K.edit e).apply written s) :=
  ⟨K.edit e, (K.legal_edit e s).mpr he, rfl⟩

theorem write_update (written : Bool) (row : ℕ) (x : α) :
    K.write ((K.array s).set row x) (updateRecord written x (K.table s)) s =
      (K.edit (.update row x)).apply written s :=
  (K.apply_edit (.update row x) written s).symm

theorem edits_create (written : Bool) {x : α} (hx : Keyed.key x ∉ keys (K.array s)) :
    Edits written s (K.write (K.array s ++ [x]) (saveRecord written x (K.table s)) s) :=
  K.apply_edit (.create x) written s ▸ K.edits written (e := .create x) hx

theorem edits_delete (written : Bool) {row : ℕ} {x : α} (hx : (K.array s)[row]? = some x) :
    Edits written s (K.write ((K.array s).eraseIdx row)
      (deleteRecord written (Keyed.key x) (K.table s)) s) := by
  have hrow : row < (K.array s).length := (List.getElem?_eq_some_iff.mp hx).choose
  have hedits := K.edits written (e := .delete row) hrow
  rw [K.apply_edit, sendEdit_delete written _ _ hx] at hedits
  exact hedits

end Slot

theorem btnCreateTap_edits {written : Bool} {m : Menu} {form : Form Field} {s s' : Store}
    {a : Alert} (h : btnCreateTap F written m form s = .ok (s', a)) : Edits written s s' := by
  cases m with
  | item =>
    obtain ⟨item, hitem, h⟩ := bind_ok_iff.mp h
    obtain ⟨rfl, -⟩ := Prod.mk.inj (pure_ok_iff.mp h)
    exact itemSlot.edits_create written (createItem_fresh _ hitem)
  | location =>
    obtain ⟨location, hlocation, h⟩ := bind_ok_iff.mp h
    obtain ⟨rfl, -⟩ := Prod.mk.inj (pure_ok_iff.mp h)
    exact locationSlot.edits_create written (createLocation_fresh hlocation)
  | order =>
    obtain ⟨order, horder, h⟩ := bind_ok_iff.mp h
    obtain ⟨rfl, -⟩ := Prod.mk.inj (pure_ok_iff.mp h)
    exact orderSlot.edits_create written (createOrder_ok F _ horder).fresh

theorem btnDeleteTap_edits {written : Bool} {m : Menu} {form : Form Field} {s s' : Store}
    {a : Alert} (h : btnDeleteTap written m form s = .ok (s', a)) : Edits written s s' := by
  cases m with
  | item =>
    obtain ⟨⟨items, id⟩, hdeletion, h⟩ := bind_ok_iff.mp h
    obtain ⟨rfl, -⟩ := Prod.mk.inj (pure_ok_iff.mp h)
    obtain ⟨row, x, hx, rfl, rfl⟩ := deletion_ok hdeletion
    exact itemSlot.edits_delete written hx
  | location =>
    obtain ⟨⟨locations, id⟩, hdeletion, h⟩ := bind_ok_iff.mp h
    obtain ⟨rfl, -⟩ := Prod.mk.inj (pure_ok_iff.mp h)
    obtain ⟨row, x, hx, rfl, rfl⟩ := deletion_ok hdeletion
    exact locationSlot.edits_delete written hx
  | order =>
    obtain ⟨⟨orders, id⟩, hdeletion, h⟩ := bind_ok_iff.mp h
    obtain ⟨rfl, -⟩ := Prod.mk.inj (pure_ok_iff.mp h)
    obtain ⟨row, x, hx, rfl, rfl⟩ := deletion_ok hdeletion
    exact orderSlot.edits_delete written hx

theorem ChangeController.btnUpdateTap_ok_iff {C : ChangeController} {written : Bool}
    {scr : FetchState} {s s' : Store} {a : Alert} :
    C.btnUpdateTap written scr s = .ok (s', a) ↔
      ∃ (entered : C.Record → Except Trap C.Record) (row : ℕ) (x y : C.Record),
        C.screen.entered s.items scr.form = .ok entered ∧ scr.foundIndex = row ∧
        (C.slot.array s)[row]? = some x ∧ entered x = .ok y ∧
        s' = (C.slot.edit (.update row y)).apply written s ∧
        a = ⟨"Success", C.screen.success⟩ := by
  simp only [btnUpdateTap, bind_ok_iff, pure_ok_iff, Prod.exists, Prod.mk.injEq,
    ChangeScreen.change_ok_iff]
  constructor
  · rintro ⟨_, y, ⟨entered, row, x, hentered, hrow, hx, hy, rfl⟩, rfl, rfl⟩
    exact ⟨entered, row, x, y, hentered, hrow, hx, hy, C.slot.write_update written row y, rfl⟩
  · rintro ⟨entered, row, x, y, hentered, hrow, hx, hy, rfl, rfl⟩
    exact ⟨_, y, ⟨entered, row, x, hentered, hrow, hx, hy, rfl⟩,
      C.slot.write_update written row y, rfl⟩

theorem Changer.btnUpdateTap_edits {c : Changer} {written : Bool} {scr : FetchState}
    {s s' : Store} {a : Alert} (h : (c.controller F).btnUpdateTap written scr s = .ok (s', a)) :
    Edits written s s' := by
  obtain ⟨entered, row, x, y, hentered, -, hx, hy, rfl, -⟩ :=
    ChangeController.btnUpdateTap_ok_iff.mp h
  exact (c.controller F).slot.edits written ⟨x, hx, (c.lawful.key_entered hentered hy).symm⟩

/-- Every step edits at most one array, and its table likewise. -/
theorem step_edits {st st' : AppState} {i : Input} (h : step F st i = .ok st') :
    Edits i.written st.store st'.store := by
  unfold step at h
  split at h
  case h_5 =>
    split_ifs at h <;> obtain rfl := Except.ok.inj h <;> exact .refl _ _
  case h_7 m form _ _ =>
    rcases settle_ok h with ⟨r, hr, rfl⟩ | ⟨alerts, rfl⟩
    · exact btnCreateTap_edits hr
    · exact .refl _ _
  case h_10 m form _ _ =>
    rcases settle_ok h with ⟨r, hr, rfl⟩ | ⟨alerts, rfl⟩
    · exact btnDeleteTap_edits hr
    · exact .refl _ _
  case h_13 c scr _ _ =>
    rcases settle_ok h with ⟨r, -, rfl⟩ | ⟨alerts, rfl⟩ <;> exact .refl _ _
  case h_14 c scr _ _ =>
    rcases settle_ok h with ⟨r, hr, rfl⟩ | ⟨alerts, rfl⟩
    · exact Changer.btnUpdateTap_edits hr
    · exact .refl _ _
  all_goals
    obtain rfl := Except.ok.inj h
    exact .refl _ _

theorem step_preserves_distinctIds :
    (step F).Preserves Machine.AnyStep fun st => st.store.DistinctIds := by
  intro st i st' hids _ h
  obtain ⟨e, he, hstore⟩ := step_edits h
  exact hstore ▸ hids.apply he i.written

/-- Whatever the database accepts, the ids of an array stay distinct. -/
theorem run_distinctIds {db : Database} {inputs : List Input} {st : AppState}
    (h : (step F).run (AppState.launch db) inputs = .ok st) : st.store.DistinctIds :=
  step_preserves_distinctIds.run_any (Store.generateDummyData_matches db).distinctIds h

end Info6350.Assignment8
