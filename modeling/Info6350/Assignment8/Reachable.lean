import Info6350.Assignment8.Permissions
import Info6350.Library.Simulation

/-! # What a user can reach

Two taps on Close lead from anywhere to the main view, and from there every operation that the
screens permit can be carried out by typing the record into the fields of a screen.  So runs reach
the registries that permitted operations reach and no others, whatever happened before.
-/

namespace Info6350.Assignment8
open Library Swift Logistics TextApp Keyed

variable {F : DateFormatter}

/-! ## Typing -/

def filled (form : Form Field) (texts : List (Field × String)) : Form Field :=
  texts.foldl (fun form t => form.setText t.1 t.2) form

def typed (texts : List (Field × String)) : List Input :=
  texts.map fun t => ⟨.type t.1 t.2, true⟩

theorem foldl_type {form : Form Field} (h : ∀ f, (form f).isEnabled = true)
    (texts : List (Field × String)) :
    texts.foldl (fun form t => form.type t.1 t.2) form = filled form texts := by
  induction texts generalizing form with
  | nil => rfl
  | cons t texts ih =>
    have htype : form.type t.1 t.2 = form.setText t.1 t.2 := if_pos (h t.1)
    rw [List.foldl_cons, htype]
    exact ih fun f => (Form.setText_isEnabled _ _ _ _).trans (h f)

theorem int?_of_text {form : Form Field} {f : Field} {n : ℤ} (hn : InRange n)
    (h : (form f).text = some (toString n)) : (form f).int? = some n :=
  (UITextField.int?_of_text h).mpr ⟨hn, rfl⟩

/-! ## The way to a screen -/

def toMenu (m : Menu) : List Input :=
  [⟨.btnCloseTap, true⟩, ⟨.btnCloseTap, true⟩, ⟨.onButtonClicked m, true⟩]

theorem run_toMenu (st : AppState) (m : Menu) (inputs : List Input) :
    (step F).run st (toMenu m ++ inputs) = (step F).run { st with screen := .menu m } inputs := by
  obtain ⟨s, screen, alerts⟩ := st
  cases screen <;> rfl

section Screens
variable {st : AppState} {screen : Form Field → Screen}

/-- The text fields of the screen can be typed in. -/
def TypesIn (F : DateFormatter) (st : AppState) (screen : Form Field → Screen) : Prop :=
  ∀ form f text, step F { st with screen := screen form } ⟨.type f text, true⟩ =
    .ok { st with screen := screen (form.type f text) }

theorem TypesIn.run (h : TypesIn F st screen) {form : Form Field}
    (hform : ∀ f, (form f).isEnabled = true) (texts : List (Field × String)) :
    (step F).run { st with screen := screen form } (typed texts) =
      .ok { st with screen := screen (filled form texts) } := by
  rw [← foldl_type hform]
  exact Machine.run_map_eq (fun form (t : Field × String) => h form t.1 t.2) form texts

theorem run_toScreen (screen : Form Field → Screen) {m : Menu} {e : Event}
    (hopen : step F { st with screen := .menu m } ⟨e, true⟩ =
      .ok { st with screen := screen .blank })
    (h : TypesIn F st screen) (texts : List (Field × String)) (inputs : List Input) :
    (step F).run st (toMenu m ++ ⟨e, true⟩ :: (typed texts ++ inputs)) =
      (step F).run { st with screen := screen (filled .blank texts) } inputs := by
  rw [run_toMenu, Machine.run_cons, hopen]
  change (step F).run { st with screen := screen .blank } _ = _
  rw [Machine.run_append, h.run fun _ => rfl]
  rfl

def Reaches (F : DateFormatter) (st : AppState) (r : Registry) : Prop :=
  ∃ inputs st', (step F).run st inputs = .ok st' ∧ st'.registry = r

theorem reaches_create {m : Menu} {texts : List (Field × String)} {r : Store × Alert}
    (h : btnCreateTap F true m (filled .blank texts) st.store = .ok r) :
    Reaches F st r.1.registry := by
  refine ⟨toMenu m ++ ⟨.presentCreate, true⟩ :: (typed texts ++ [⟨.btnTap, true⟩]),
    AppState.wrote { st with screen := .create m (filled .blank texts) } r, ?_, rfl⟩
  rw [run_toScreen (.create m) rfl fun _ _ _ => rfl, Machine.run_singleton]
  change settle _ _ (btnCreateTap F true m (filled .blank texts) st.store) = _
  rw [h]
  rfl

theorem reaches_delete {m : Menu} {texts : List (Field × String)} {r : Store × Alert}
    (h : btnDeleteTap true m (filled .blank texts) st.store = .ok r) :
    Reaches F st r.1.registry := by
  refine ⟨toMenu m ++ ⟨.presentDelete, true⟩ :: (typed texts ++ [⟨.btnTap, true⟩]),
    AppState.wrote { st with screen := .delete m (filled .blank texts) } r, ?_, rfl⟩
  rw [run_toScreen (.delete m) rfl fun _ _ _ => rfl, Machine.run_singleton]
  change settle _ _ (btnDeleteTap true m (filled .blank texts) st.store) = _
  rw [h]
  rfl

/-- A record is fetched and the fields are filled over what Fetch shows. -/
theorem reaches_change (c : Changer) {row : ℕ} {x y : (c.controller F).Record} {form : Form Field}
    {texts : List (Field × String)} {entered : (c.controller F).Record → Except Trap _}
    (hs : st.store.DistinctIds) (hx : ((c.controller F).slot.array st.store)[row]? = some x)
    (hid : InRange (key x))
    (hfill : (c.controller F).screen.fill x
      (filled .blank [((c.controller F).screen.tfId, toString (key x))]) = .ok form)
    (hform : ∀ f, (form f).isEnabled = true)
    (hentered : (c.controller F).screen.entered st.store.items (filled form texts) = .ok entered)
    (hy : entered x = .ok y) :
    Reaches F st (((c.controller F).slot.edit (.update row y)).apply true st.store).registry := by
  let found : AppState :=
    { st with
      screen := .change c ⟨form, row⟩
      alerts := (c.controller F).screen.found ++ st.alerts }
  let r : Store × Alert := (((c.controller F).slot.edit (.update row y)).apply true st.store,
    ⟨"Success", (c.controller F).screen.success⟩)
  refine ⟨toMenu c.menu ++ ⟨.presentChange c, true⟩ ::
      (typed [((c.controller F).screen.tfId, toString (key x))] ++
        ⟨.btnFetchTap, true⟩ :: (typed texts ++ [⟨.btnTap, true⟩])),
    AppState.wrote { found with screen := .change c ⟨filled form texts, row⟩ } r, ?_, rfl⟩
  let named : Form Field := filled .blank [((c.controller F).screen.tfId, toString (key x))]
  have hfetched : step F { st with screen := .change c ⟨named, -99⟩ } ⟨.btnFetchTap, true⟩ =
      .ok found := by
    have hfield : (named (c.controller F).screen.tfId).int? = some (key x) :=
      int?_of_text hid (Form.setText_self _ _ _)
    rw [step_btnFetchTap rfl, ChangeController.btnFetchTap,
      ChangeScreen.fetch_eq ((c.controller F).slot.distinct _ hs) hx hfield, hfill]
    rfl
  have hopened : step F { st with screen := .menu c.menu } ⟨.presentChange c, true⟩ =
      .ok { st with screen := .change c ⟨.blank, -99⟩ } := if_pos rfl
  have htyped : TypesIn F found fun form => .change c ⟨form, row⟩ := fun _ _ _ => rfl
  rw [run_toScreen (fun form => .change c ⟨form, -99⟩) hopened fun _ _ _ => rfl,
    Machine.run_cons, hfetched]
  change (step F).run { found with screen := .change c ⟨form, row⟩ } _ = _
  rw [Machine.run_append, htyped.run hform]
  change (step F).run _ [⟨.btnTap, true⟩] = _
  rw [Machine.run_singleton, step_btnTap rfl, ChangeController.btnUpdateTap_of_entered hx hentered,
    hy]
  rfl

end Screens

/-! ## The texts of the records -/

def itemTexts (item : Item) : List (Field × String) :=
  [(.tfItemName, item.name), (.tfItemDescription, item.desc),
    (.tfItemWeight, toString item.weight), (.tfItemValue, toString item.value)]

def locationTexts (location : Location) : List (Field × String) :=
  [(.tfStreetName, location.street), (.tfCityName, location.city),
    (.tfStateName, location.state), (.tfCountryName, location.country),
    (.tfZipcode, toString location.zip)]

def lineTexts (line : OrderItem) : List (Field × String) :=
  [(.tfItemId, toString line.item.id), (.tfItemQuantity, toString line.quantity)]

/-- The texts of a new order, with the texts of its dates. -/
def orderTexts (order : LogisticsOrder) (arrival departure : String) : List (Field × String) :=
  [(.tfOrderId, toString order.id), (.tfFromLocationId, toString order.fromLocation.id),
    (.tfToLocationId, toString order.toLocation.id), (.tfArrivalDate, arrival),
    (.tfDepartureDate, departure)]

section Texts
variable {s : Store} {form : Form Field}

theorem createItem_typed {item : Item} (hid : InRange item.id) (hfresh : item.id ∉ keys s.items)
    (hitem : ¬ ItemRefused item) :
    createItem .assignment8 s.items
      (filled .blank ((.tfItemId, toString item.id) :: itemTexts item)) = .ok item := by
  have hfield : (filled .blank ((.tfItemId, toString item.id) :: itemTexts item) .tfItemId).text =
      some (toString item.id) := by
    simp [filled, itemTexts, Form.setText_of_ne]
  exact bind_ok_iff.mpr ⟨_, newId_ok_iff.mpr ⟨int?_of_text hid hfield, hfresh⟩,
    bind_ok_iff.mpr ⟨_, enteredItem_shown.mpr ⟨hitem, rfl⟩, rfl⟩⟩

theorem createLocation_typed {location : Location} (hid : InRange location.id)
    (hfresh : location.id ∉ keys s.locations) (hlocation : ¬ LocationRefused location) :
    createLocation s.locations
      (filled .blank ((.tfLocationId, toString location.id) :: locationTexts location)) =
        .ok location := by
  have hfield : (filled .blank ((.tfLocationId, toString location.id) :: locationTexts location)
      .tfLocationId).text = some (toString location.id) := by
    simp [filled, locationTexts, Form.setText_of_ne]
  exact bind_ok_iff.mpr ⟨_, newId_ok_iff.mpr ⟨int?_of_text hid hfield, hfresh⟩,
    bind_ok_iff.mpr ⟨_, enteredLocation_shown.mpr ⟨hlocation, rfl⟩, rfl⟩⟩

structure IdsFit (r : Registry) : Prop where
  items : ∀ id, (r.items id).isSome → InRange id
  locations : ∀ id, (r.locations id).isSome → InRange id
  logisticsOrder : ∀ id, (r.logisticsOrder id).isSome → InRange id

theorem entersLine_typed {line : OrderItem} (hs : IdsFit s.registry)
    (h : LinePermitted s.registry line) :
    EntersLine s (filled form (lineTexts line)) line := by
  have hid : (filled form (lineTexts line) .tfItemId).text = some (toString line.item.id) := by
    simp [filled, lineTexts, Form.setText_of_ne]
  have hquantity : (filled form (lineTexts line) .tfItemQuantity).text =
      some (toString line.quantity) := by
    simp [filled, lineTexts]
  exact ⟨⟨_, int?_of_text (hs.items _ (Option.isSome_of_eq_some h.item)) hid, h.item⟩,
    int?_of_text h.quantity.1 hquantity, h.quantity.2⟩

theorem LinePermitted.total {r : Registry} {line : OrderItem} (h : LinePermitted r line) :
    getOrderTotal [line] = .ok (lineCost line) :=
  getOrderTotal_singleton.mpr ⟨h.cost, rfl⟩

theorem entersNewOrder_typed {order : LogisticsOrder} (hs : IdsFit s.registry)
    (hfresh : order.id ∉ keys s.logisticsOrder) (h : OrderPermitted F s.registry order) :
    ∃ texts, EntersNewOrder F s (filled .blank texts) order := by
  obtain ⟨arrival, harrivalNe, harrival⟩ := h.arrival
  obtain ⟨departure, hdepartureNe, hdeparture⟩ := h.departure
  obtain ⟨line, hline, hcarried, hcost⟩ := h.line
  let texts := orderTexts order arrival departure ++ lineTexts line
  have hid : (filled .blank texts .tfOrderId).text = some (toString order.id) := by
    simp [texts, filled, orderTexts, lineTexts, Form.setText_of_ne]
  have hfrom : (filled .blank texts .tfFromLocationId).text =
      some (toString order.fromLocation.id) := by
    simp [texts, filled, orderTexts, lineTexts, Form.setText_of_ne]
  have hto : (filled .blank texts .tfToLocationId).text = some (toString order.toLocation.id) := by
    simp [texts, filled, orderTexts, lineTexts, Form.setText_of_ne]
  have harrivalText : (filled .blank texts .tfArrivalDate).text = some arrival := by
    simp [texts, filled, orderTexts, lineTexts, Form.setText_of_ne]
  have hdepartureText : (filled .blank texts .tfDepartureDate).text = some departure := by
    simp [texts, filled, orderTexts, lineTexts, Form.setText_of_ne]
  refine ⟨texts, int?_of_text h.id hid, hfresh, ⟨_, int?_of_text ?_ hfrom, h.fromLocation⟩,
    ⟨_, int?_of_text ?_ hto, h.toLocation⟩, ⟨arrival, harrivalText, harrivalNe, harrival⟩,
    ⟨departure, hdepartureText, hdepartureNe, hdeparture⟩, h.dates, line, ?_, hline.total, hcarried,
    hcost⟩
  · exact hs.locations _ (Option.isSome_of_eq_some h.fromLocation)
  · exact hs.locations _ (Option.isSome_of_eq_some h.toLocation)
  · have hfilled : filled .blank texts =
        filled (filled .blank (orderTexts order arrival departure)) (lineTexts line) :=
      List.foldl_append
    rw [hfilled]
    exact entersLine_typed hs hline

theorem deletion_typed {α : Type} [Keyed α ℤ] {l : List α} {id : ℤ} (f : Field) (message : String)
    (hl : Distinct l) (hid : InRange id) (hmem : id ∈ keys l) :
    ∃ l', deletion l (filled .blank [(f, toString id)] f) message = .ok (l', id) := by
  have hint : (filled .blank [(f, toString id)] f).int? = some id :=
    int?_of_text hid (Form.setText_self _ _ _)
  have hread : intOrZero (filled .blank [(f, toString id)] f) = id := by
    rw [intOrZero, hint, Option.getD_some]
  have hdeletion : deletion l (filled .blank [(f, toString id)] f) message = _ :=
    deletion_of_mem hl (hread.symm ▸ hmem)
  rw [hread] at hdeletion
  exact ⟨_, hdeletion⟩

end Texts

/-! ## The handlers that succeed -/

section Taps
variable {s : Store} {form : Form Field}

theorem btnCreateTap_item {item : Item} (h : createItem .assignment8 s.items form = .ok item) :
    ∃ r, btnCreateTap F true .item form s = .ok r ∧
      r.1.registry = .ofArrays (s.items ++ [item]) s.locations s.logisticsOrder :=
  ⟨_, bind_ok_iff.mpr ⟨item, h, rfl⟩, rfl⟩

theorem btnCreateTap_location {location : Location}
    (h : createLocation s.locations form = .ok location) :
    ∃ r, btnCreateTap F true .location form s = .ok r ∧
      r.1.registry = .ofArrays s.items (s.locations ++ [location]) s.logisticsOrder :=
  ⟨_, bind_ok_iff.mpr ⟨location, h, rfl⟩, rfl⟩

theorem btnCreateTap_order {order : LogisticsOrder}
    (h : createOrder F .assignment8 s.items s.locations s.logisticsOrder form = .ok order) :
    ∃ r, btnCreateTap F true .order form s = .ok r ∧
      r.1.registry = .ofArrays s.items s.locations (s.logisticsOrder ++ [order]) :=
  ⟨_, bind_ok_iff.mpr ⟨order, h, rfl⟩, rfl⟩

theorem btnDeleteTap_item {items : List Item} {id : ℤ}
    (h : deletion s.items (form .tfItemId) "Invalid Item Id" = .ok (items, id)) :
    ∃ r, btnDeleteTap true .item form s = .ok r ∧
      r.1.registry = .ofArrays items s.locations s.logisticsOrder :=
  ⟨_, bind_ok_iff.mpr ⟨_, h, rfl⟩, rfl⟩

theorem btnDeleteTap_location {locations : List Location} {id : ℤ}
    (h : deletion s.locations (form .tfLocationId) "Invalid Location Id" = .ok (locations, id)) :
    ∃ r, btnDeleteTap true .location form s = .ok r ∧
      r.1.registry = .ofArrays s.items locations s.logisticsOrder :=
  ⟨_, bind_ok_iff.mpr ⟨_, h, rfl⟩, rfl⟩

theorem btnDeleteTap_order {orders : List LogisticsOrder} {id : ℤ}
    (h : deletion s.logisticsOrder (form .tfOrderId) "Invalid Order Id" = .ok (orders, id)) :
    ∃ r, btnDeleteTap true .order form s = .ok r ∧
      r.1.registry = .ofArrays s.items s.locations orders :=
  ⟨_, bind_ok_iff.mpr ⟨_, h, rfl⟩, rfl⟩

end Taps

/-! ## Permitted operations -/

/-- What the screens keep: distinct ids that fit, and a line in every order. -/
structure Regular (F : DateFormatter) (st : AppState) : Prop where
  distinctIds : st.store.DistinctIds
  idsFit : IdsFit st.registry
  sound : Sound F st

section Realizes
variable {st : AppState} {r v : Registry} {command : Command}

theorem Reaches.of_step (h : Reaches F st r) (hr : Registry.step st.registry command = .ok r)
    (hv : Registry.step st.registry command = .ok v) : Reaches F st v :=
  Except.ok.inj (hr.symm.trans hv) ▸ h

/-- Fetch fills the fields and leaves them enabled. -/
theorem Changer.exists_fill (c : Changer) (hst : Regular F st) {x : (c.controller F).Record}
    (hx : x ∈ (c.controller F).slot.array st.store) {form : Form Field}
    (hform : ∀ f, (form f).isEnabled = true) :
    ∃ form', (c.controller F).screen.fill x form = .ok form' ∧
      ∀ f, (form' f).isEnabled = true := by
  cases c with
  | updateOrderItem =>
    obtain ⟨line, rest, hlines⟩ := List.exists_cons_of_ne_nil (hst.sound.carries x hx)
    have hline : subscript x.itemsCarried 0 = .ok line :=
      (subscript_natCast x.itemsCarried 0).mpr (by rw [hlines]; rfl)
    exact ⟨_, bind_ok_iff.mpr ⟨line, hline, rfl⟩, fun f => by simpa using hform f⟩
  | addItems => exact ⟨form, rfl, hform⟩
  | _ => exact ⟨_, rfl, fun f => by simpa using hform f⟩

theorem Changer.inRange_key (c : Changer) (hst : Regular F st) {x : (c.controller F).Record}
    (hx : x ∈ (c.controller F).slot.array st.store) : InRange (key x) := by
  cases c with
  | updateItem => exact hst.idsFit.items _ (lookup_isSome_iff.mpr (key_mem_keys hx))
  | updateLocation => exact hst.idsFit.locations _ (lookup_isSome_iff.mpr (key_mem_keys hx))
  | _ => exact hst.idsFit.logisticsOrder _ (lookup_isSome_iff.mpr (key_mem_keys hx))

/-- A record is updated with entries that the screen accepts whatever Fetch shows. -/
theorem reaches_update (c : Changer) (hst : Regular F st) {x y : (c.controller F).Record}
    {texts : List (Field × String)} {entered : (c.controller F).Record → Except Trap _}
    (hx : x ∈ (c.controller F).slot.array st.store)
    (hentered : ∀ form,
      (c.controller F).screen.entered st.store.items (filled form texts) = .ok entered)
    (hy : entered x = .ok y) (hv : Registry.step st.registry (c.command y) = .ok v) :
    Reaches F st v := by
  obtain ⟨row, hrow⟩ := List.mem_iff_getElem?.mp hx
  have hkey := c.lawful.key_entered (hentered .blank) hy
  have hnamed : ∀ f,
      (filled .blank [((c.controller F).screen.tfId, toString (key x))] f).isEnabled = true :=
    fun _ => Form.setText_isEnabled _ _ _ _
  obtain ⟨form, hfill, hform⟩ := c.exists_fill hst hx hnamed
  exact (reaches_change c hst.distinctIds hrow (c.inRange_key hst hx) hfill hform (hentered form)
    hy).of_step (c.step_command hst.distinctIds hrow hkey true) hv

theorem exists_of_lookup {α : Type} [Keyed α ℤ] {l : List α} {id : ℤ}
    (h : (lookup l id).isSome) : ∃ x ∈ l, key x = id := by
  obtain ⟨x, hx⟩ := Option.isSome_iff_exists.mp h
  exact ⟨x, lookup_some hx⟩

theorem reaches_items (o : Operation Item ℤ) (hst : Regular F st)
    (hpermitted : Permitted F st.registry (.items o))
    (hv : Registry.step st.registry (.items o) = .ok v) : Reaches F st v := by
  obtain ⟨items, happly, -⟩ := map_ok_iff.mp hv
  have hids := hst.distinctIds.items
  cases o with
  | create item =>
    have hfresh : item.id ∉ keys st.store.items :=
      lookup_isSome_iff.not.mp (Operation.not_isSome_of_create happly)
    obtain ⟨r, hr, hregistry⟩ := btnCreateTap_item (F := F)
      (createItem_typed hpermitted.1 hfresh hpermitted.2)
    exact (hregistry ▸ reaches_create hr).of_step
      (Registry.step_items (create_apply hids hfresh)) hv
  | update item =>
    obtain ⟨x, hx, hkey⟩ := exists_of_lookup (Operation.isSome_of_update happly)
    have hentered : ∀ form, (Changer.updateItem.controller F).screen.entered st.store.items
        (filled form (itemTexts item)) = .ok fun x => .ok { item with id := x.id } := fun form =>
      bind_ok_iff.mpr ⟨_, enteredItem_shown.mpr ⟨hpermitted, rfl⟩, rfl⟩
    exact reaches_update .updateItem hst hx hentered
      (congrArg (fun id => Except.ok { item with id := id }) hkey) hv
  | delete id =>
    have hsome := Operation.isSome_of_delete happly
    obtain ⟨items', hdeletion⟩ := deletion_typed .tfItemId "Invalid Item Id" hids
      (hst.idsFit.items id hsome) (lookup_isSome_iff.mp hsome)
    obtain ⟨r, hr, hregistry⟩ := btnDeleteTap_item hdeletion
    exact (hregistry ▸ reaches_delete hr).of_step
      (Registry.step_items (deletion_apply hids hdeletion)) hv

theorem reaches_locations (o : Operation Location ℤ) (hst : Regular F st)
    (hpermitted : Permitted F st.registry (.locations o))
    (hv : Registry.step st.registry (.locations o) = .ok v) : Reaches F st v := by
  obtain ⟨locations, happly, -⟩ := map_ok_iff.mp hv
  have hids := hst.distinctIds.locations
  cases o with
  | create location =>
    have hfresh : location.id ∉ keys st.store.locations :=
      lookup_isSome_iff.not.mp (Operation.not_isSome_of_create happly)
    obtain ⟨r, hr, hregistry⟩ := btnCreateTap_location (F := F)
      (createLocation_typed hpermitted.1 hfresh hpermitted.2)
    exact (hregistry ▸ reaches_create hr).of_step
      (Registry.step_locations (create_apply hids hfresh)) hv
  | update location =>
    obtain ⟨x, hx, hkey⟩ := exists_of_lookup (Operation.isSome_of_update happly)
    have hentered : ∀ form, (Changer.updateLocation.controller F).screen.entered st.store.items
        (filled form (locationTexts location)) = .ok fun x => .ok { location with id := x.id } :=
      fun form => bind_ok_iff.mpr ⟨_, enteredLocation_shown.mpr ⟨hpermitted, rfl⟩, rfl⟩
    exact reaches_update .updateLocation hst hx hentered
      (congrArg (fun id => Except.ok { location with id := id }) hkey) hv
  | delete id =>
    have hsome := Operation.isSome_of_delete happly
    obtain ⟨locations', hdeletion⟩ := deletion_typed .tfLocationId "Invalid Location Id" hids
      (hst.idsFit.locations id hsome) (lookup_isSome_iff.mp hsome)
    obtain ⟨r, hr, hregistry⟩ := btnDeleteTap_location hdeletion
    exact (hregistry ▸ reaches_delete hr).of_step
      (Registry.step_locations (deletion_apply hids hdeletion)) hv

theorem enteredCost_typed {β : Type} {form : Form Field} {line : OrderItem} (hst : Regular F st)
    (hline : LinePermitted st.registry line) (f : OrderItem → ℤ → β) :
    (do
      let orderItem ← enteredLine .assignment8 st.store.items (filled form (lineTexts line))
      let orderCost ← trapping (getOrderTotal [orderItem])
      return f orderItem orderCost : Handler β) = .ok (f line (lineCost line)) :=
  bind_ok_iff.mpr ⟨line, enteredLine_ok_iff.mpr (entersLine_typed hst.idsFit hline),
    bind_ok_iff.mpr ⟨_, trapping_ok_iff.mpr hline.total, rfl⟩⟩

theorem reaches_orderChange {old order : LogisticsOrder} (hst : Regular F st)
    (hold : st.registry.logisticsOrder order.id = some old)
    (hchange : ChangePermitted F st.registry old order)
    (hv : Registry.step st.registry (.orders (.update order)) = .ok v) : Reaches F st v := by
  have hx : old ∈ st.store.logisticsOrder := (lookup_some hold).1
  cases hchange with
  | @departureDate date hdate =>
    obtain ⟨text, hne, hdate⟩ := hdate
    have hentered : ∀ form, (Changer.updateDepartureDate.controller F).screen.entered st.store.items
        (filled form [(.tfDepartureDate, text)]) =
          .ok fun order => .ok { order with departureDate := date } := fun form =>
      bind_ok_iff.mpr ⟨date, enteredDate_ok_iff.mpr ⟨text, by simp [filled], hne, hdate⟩, rfl⟩
    exact reaches_update .updateDepartureDate hst hx hentered rfl hv
  | @orderItem line hline =>
    exact reaches_update .updateOrderItem hst hx (fun _ => enteredCost_typed hst hline _) rfl hv
  | @addItem line hline hsum =>
    exact reaches_update .addItems hst hx (fun _ => enteredCost_typed hst hline _)
      (bind_ok_iff.mpr ⟨_, addInt_ok_iff.mpr ⟨hsum, rfl⟩, rfl⟩) hv

theorem reaches_orders (o : Operation LogisticsOrder ℤ) (hst : Regular F st)
    (hpermitted : Permitted F st.registry (.orders o))
    (hv : Registry.step st.registry (.orders o) = .ok v) : Reaches F st v := by
  obtain ⟨orders, happly, -⟩ := map_ok_iff.mp hv
  have hids := hst.distinctIds.logisticsOrder
  cases o with
  | create order =>
    have hfresh : order.id ∉ keys st.store.logisticsOrder :=
      lookup_isSome_iff.not.mp (Operation.not_isSome_of_create happly)
    obtain ⟨texts, henters⟩ := entersNewOrder_typed hst.idsFit hfresh hpermitted
    obtain ⟨r, hr, hregistry⟩ := btnCreateTap_order (createOrder_ok_iff.mpr henters)
    exact (hregistry ▸ reaches_create hr).of_step
      (Registry.step_orders (create_apply hids hfresh)) hv
  | update order =>
    obtain ⟨old, hold, hchange⟩ := hpermitted
    exact reaches_orderChange hst hold hchange hv
  | delete id =>
    have hsome := Operation.isSome_of_delete happly
    obtain ⟨orders', hdeletion⟩ := deletion_typed .tfOrderId "Invalid Order Id" hids
      (hst.idsFit.logisticsOrder id hsome) (lookup_isSome_iff.mp hsome)
    obtain ⟨r, hr, hregistry⟩ := btnDeleteTap_order hdeletion
    exact (hregistry ▸ reaches_delete hr).of_step
      (Registry.step_orders (deletion_apply hids hdeletion)) hv

theorem step_realizes :
    (step F).Realizes Registry.step (Regular F) AppState.registry (Permitted F) := by
  intro st command v hst hpermitted hv
  cases command with
  | items o => exact reaches_items o hst hpermitted hv
  | locations o => exact reaches_locations o hst hpermitted hv
  | orders o => exact reaches_orders o hst hpermitted hv

end Realizes

/-! ## Runs -/

theorem PermittedStep.idsFit {r r' : Registry} (hr : IdsFit r) (h : PermittedStep F r r') :
    IdsFit r' := by
  obtain ⟨command, hpermitted, hstep⟩ := h
  cases command with
  | items o =>
    obtain ⟨items, happly, rfl⟩ := map_ok_iff.mp hstep
    refine ⟨fun id => Operation.apply_keys happly hr.items ?_, hr.locations, hr.logisticsOrder⟩
    rintro item rfl
    exact hpermitted.1
  | locations o =>
    obtain ⟨locations, happly, rfl⟩ := map_ok_iff.mp hstep
    refine ⟨hr.items, fun id => Operation.apply_keys happly hr.locations ?_, hr.logisticsOrder⟩
    rintro location rfl
    exact hpermitted.1
  | orders o =>
    obtain ⟨orders, happly, rfl⟩ := map_ok_iff.mp hstep
    refine ⟨hr.items, hr.locations, fun id => Operation.apply_keys happly hr.logisticsOrder ?_⟩
    rintro order rfl
    exact hpermitted.id

theorem step_preserves_regular : (step F).Preserves Machine.AnyStep (Regular F) := by
  intro st i st' hst _ h
  refine ⟨step_preserves_distinctIds st i st' hst.distinctIds trivial h, ?_,
    step_preserves_sound st i st' hst.sound trivial h⟩
  rcases step_permitted hst.distinctIds h with hsame | hstep
  · exact hsame ▸ hst.idsFit
  · exact hstep.idsFit hst.idsFit

/-- The ids of a database fit an `Int`, and its orders have lines. -/
structure FitDatabase (db : Database) : Prop where
  item : ∀ id ∈ keys db.item.rows, InRange id
  location : ∀ id ∈ keys db.location.rows, InRange id
  logisticsorder : ∀ id ∈ keys db.logisticsorder.rows, InRange id
  carries : ∀ o ∈ db.logisticsorder.rows, o.itemsCarried ≠ []

theorem FitDatabase.regular {db : Database} (hdb : FitDatabase db) :
    Regular F (AppState.launch db) where
  distinctIds := (Store.generateDummyData_matches db).distinctIds
  idsFit := ⟨fun id hid => hdb.item id (lookup_isSome_iff.mp hid),
    fun id hid => hdb.location id (lookup_isSome_iff.mp hid),
    fun id hid => hdb.logisticsorder id (lookup_isSome_iff.mp hid)⟩
  sound := ⟨hdb.carries, trivial⟩

/-- After any run, what can still be made of the records is what operations that the screens permit
make of them. -/
theorem run_reaches_iff {db : Database} (hdb : FitDatabase db) {inputs : List Input}
    {st : AppState} (h : (step F).run (AppState.launch db) inputs = .ok st) (r : Registry) :
    Reaches F st r ↔ ∃ commands, Registry.step.Meets (Permitted F) st.registry commands ∧
      Registry.step.run st.registry commands = .ok r :=
  Machine.Performs.reaches_iff (fun _ _ _ hst hstep => step_permitted hst.distinctIds hstep)
    step_realizes step_preserves_regular (step_preserves_regular.run_any hdb.regular h) r

theorem Sample.fitDatabase : FitDatabase Sample.database :=
  ⟨by decide, by decide, by decide, by decide⟩

def Sample.lamp : Item := ⟨12, "Lamp", "", 3, 20⟩

/-- After an item was renamed and another one deleted, a lamp can be stored. -/
theorem run_reaches_iff_lamp : ∃ st,
    (step .utc).run (AppState.launch Sample.database) Sample.renameDelete = .ok st ∧
      Reaches .utc st (.ofArrays (st.store.items ++ [Sample.lamp]) st.store.locations
        st.store.logisticsOrder) := by
  refine ⟨_, rfl, (@run_reaches_iff .utc Sample.database Sample.fitDatabase Sample.renameDelete _
    rfl _).mpr ⟨[.items (.create Sample.lamp)], ⟨⟨by decide, ?_⟩, fun _ _ => trivial⟩, ?_⟩⟩
  · simp [ItemRefused, Sample.lamp, InRange]
  · rw [Machine.run_singleton]
    exact Registry.step_items (create_apply (by decide) (by decide))

end Info6350.Assignment8
