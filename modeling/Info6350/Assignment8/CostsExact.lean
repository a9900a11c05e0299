import Info6350.Assignment8.OrderChanges

/-! # The stored cost is the recomputed cost

Adding a line adds its cost to the cost of the order, and replacing the lines computes the cost
anew.  The lines are copies of the items, so a later edit of an item reaches neither the lines nor
the cost.
-/

namespace Info6350.Assignment8
open Library Swift Logistics TextApp DatabaseManager

variable {F : DateFormatter}

/-- The cost is what `getOrderTotal` computes of the lines, of which there is one, and all
quantities are positive. -/
structure CostExact (o : LogisticsOrder) : Prop where
  cost : getOrderTotal o.itemsCarried = .ok o.cost
  quantity : ∀ line ∈ o.itemsCarried, 0 < line.quantity
  carries : o.itemsCarried ≠ []

theorem CostExact.single {o : LogisticsOrder} {line : OrderItem} (hpos : 0 < line.quantity)
    (hcost : getOrderTotal [line] = .ok (lineCost line)) :
    CostExact { o with itemsCarried := [line], cost := lineCost line } where
  cost := hcost
  quantity := List.forall_mem_singleton.mpr hpos
  carries := List.cons_ne_nil _ _

theorem CostExact.add {o : LogisticsOrder} (h : CostExact o) {line : OrderItem}
    (hpos : 0 < line.quantity) (hcost : getOrderTotal [line] = .ok (lineCost line))
    (hsum : InRange (o.cost + lineCost line)) :
    CostExact { o with
      itemsCarried := o.itemsCarried ++ [line]
      cost := o.cost + lineCost line } where
  cost := by
    change addTotal 0 (o.itemsCarried ++ [line]) = _
    have hcarried : addTotal 0 o.itemsCarried = .ok o.cost := h.cost
    rw [addTotal_append, hcarried]
    exact addTotal_singleton.mpr ⟨(getOrderTotal_singleton.mp hcost).1, hsum, rfl⟩
  quantity := by
    intro l hl
    rcases List.mem_append.mp hl with hl | hl
    · exact h.quantity l hl
    · obtain rfl := List.mem_singleton.mp hl
      exact hpos
  carries := List.append_ne_nil_of_right_ne_nil _ (List.cons_ne_nil _ _)

theorem createOrder_costExact {s : Store} {form : Form Field} {o : LogisticsOrder}
    (h : createOrder F .assignment8 s.items s.locations s.logisticsOrder form = .ok o) :
    CostExact o := by
  obtain ⟨line, hline, hcarried, hcost⟩ := (createOrder_ok F _ h).line
  refine ⟨hcarried ▸ hcost, fun l hl => ?_, hcarried ▸ List.cons_ne_nil _ _⟩
  obtain rfl := List.mem_singleton.mp (hcarried ▸ hl)
  exact (enteredLine_ok_iff.mp hline).quantity_pos

/-! ## Steps -/

/-- The orders of a list with the id `n` are exact. -/
def ExactOrders (n : ℤ) (orders : List LogisticsOrder) : Prop :=
  ∀ o ∈ orders, o.id = n → CostExact o

section Steps
variable {n : ℤ} {st st' : AppState} {i : Input}

theorem OrderChange.exact {e : Edit LogisticsOrder} (h : OrderChange F st i e)
    (hexact : ExactOrders n st.store.logisticsOrder) {o : LogisticsOrder}
    (he : e = .create o ∨ ∃ row, e = .update row o) (hid : o.id = n) : CostExact o := by
  rcases he with rfl | ⟨row, rfl⟩
  · cases h with
    | create _ _ horder => exact createOrder_costExact horder
  · cases h with
    | departureDate _ _ _ hx =>
      have hold := hexact _ (List.mem_of_getElem? hx) hid
      exact ⟨hold.cost, hold.quantity, hold.carries⟩
    | orderItem _ _ _ hx hline hcost => exact .single hline.quantity_pos hcost
    | addItem _ _ _ hx hline hcost hsum =>
      exact (hexact _ (List.mem_of_getElem? hx) hid).add hline.quantity_pos hcost hsum

theorem step_exactArray (h : step F st i = .ok st') (hexact : ExactOrders n st.store.logisticsOrder) :
    ExactOrders n st'.store.logisticsOrder := by
  obtain ⟨e, he, harray, -⟩ := step_orders h
  intro o ho hid
  rw [harray] at ho
  rcases Edit.mem_onList ho with ho | hwrites
  · exact hexact o ho hid
  · exact he.exact hexact hwrites hid

theorem step_exactTable (h : step F st i = .ok st') (hexact : ExactOrders n st.store.logisticsOrder)
    (hrows : ExactOrders n st.store.db.logisticsorder.rows) :
    ExactOrders n st'.store.db.logisticsorder.rows := by
  obtain ⟨e, he, -, htable⟩ := step_orders h
  intro o ho hid
  rw [htable] at ho
  rcases mem_sendEdit _ _ _ ho with ho | hwrites
  · exact hrows o ho hid
  · exact he.exact hexact hwrites hid

theorem step_preserves_exactArray :
    (step F).Preserves Machine.AnyStep fun st => ExactOrders n st.store.logisticsOrder :=
  fun _ _ _ hexact _ h => step_exactArray h hexact

end Steps

/-- What happens to the app: a user's event, or the end of the app and a new launch. -/
inductive SessionInput where
  | user (i : Input)
  | relaunch

def sessionStep (F : DateFormatter) : Machine AppState SessionInput Trap
  | st, .user i => step F st i
  | st, .relaunch => .ok (AppState.launch st.store.db)

theorem sessionStep_preserves_exact (n : ℤ) :
    (sessionStep F).Preserves Machine.AnyStep fun st =>
      ExactOrders n st.store.logisticsOrder ∧ ExactOrders n st.store.db.logisticsorder.rows := by
  rintro st (i | _) st' ⟨harray, htable⟩ - h
  · exact ⟨step_exactArray h harray, step_exactTable h harray htable⟩
  · obtain rfl := Except.ok.inj h
    exact ⟨htable, htable⟩

/-! ## Runs -/

/-- A tap on the create screen of the orders appends the order `o`. -/
structure CreatesOrder (F : DateFormatter) (st : AppState) (written : Bool) (st' : AppState)
    (o : LogisticsOrder) : Prop where
  screen : ∃ form, st.screen = .create .order form
  step : step F st ⟨.btnTap, written⟩ = .ok st'
  array : st'.store.logisticsOrder = st.store.logisticsOrder ++ [o]

namespace CreatesOrder
variable {st st' : AppState} {written : Bool} {o : LogisticsOrder}

theorem created (h : CreatesOrder F st written st' o) :
    CostExact o ∧ o.id ∉ keys st.store.logisticsOrder ∧
      st'.store.db.logisticsorder = saveRecord written o st.store.db.logisticsorder := by
  obtain ⟨⟨form, hscreen⟩, hstep, harray⟩ := h
  obtain ⟨s, screen, alerts⟩ := st
  obtain rfl : screen = .create .order form := hscreen
  change settle _ _ (btnCreateTap F written .order form s) = _ at hstep
  rcases settle_ok hstep with ⟨⟨s', a⟩, hr, rfl⟩ | ⟨alerts, rfl⟩
  · obtain ⟨order, horder, hr⟩ := bind_ok_iff.mp hr
    obtain ⟨rfl, -⟩ := Prod.mk.inj (pure_ok_iff.mp hr)
    obtain rfl : order = o := List.singleton_inj.mp (List.append_cancel_left harray)
    exact ⟨createOrder_costExact horder, (createOrder_ok F _ horder).fresh, rfl⟩
  · have hlength := congrArg List.length harray
    simp [AppState.alerted] at hlength

theorem exactArray (h : CreatesOrder F st written st' o) :
    ExactOrders o.id st'.store.logisticsOrder := by
  obtain ⟨hexact, hfresh, -⟩ := h.created
  intro x hx hid
  rw [h.array] at hx
  rcases List.mem_append.mp hx with hx | hx
  · exact absurd (hid ▸ key_mem_keys hx) hfresh
  · rwa [List.mem_singleton.mp hx]

theorem exactTable (h : CreatesOrder F st written st' o)
    (hstored : written = true ∨ o.id ∉ keys st.store.db.logisticsorder.rows) :
    ExactOrders o.id st'.store.db.logisticsorder.rows := by
  obtain ⟨hexact, -, htable⟩ := h.created
  intro x hx hid
  rw [htable] at hx
  cases written with
  | true =>
    rcases Table.mem_save.mp hx with rfl | ⟨-, hne⟩
    · exact hexact
    · exact absurd hid hne
  | false =>
    have hnone := hstored.resolve_left (by decide)
    exact absurd (hid ▸ key_mem_keys hx) hnone

end CreatesOrder

/-- An order that the create screen appends is exact in every state that later events reach,
whatever the database accepts; and if it replaced a row with its id or there was none, then in the
table too and across relaunches. -/
theorem run_costExact (F : DateFormatter) {st st₁ : AppState} {written : Bool} {o : LogisticsOrder}
    (hcreate : CreatesOrder F st written st₁ o) :
    (∀ inputs st₂, (step F).run st₁ inputs = .ok st₂ →
      ExactOrders o.id st₂.store.logisticsOrder) ∧
    (written = true ∨ o.id ∉ keys st.store.db.logisticsorder.rows →
      ∀ inputs st₂, (sessionStep F).run st₁ inputs = .ok st₂ →
        ExactOrders o.id st₂.store.logisticsOrder ∧
        ExactOrders o.id st₂.store.db.logisticsorder.rows) := by
  constructor
  · exact fun inputs st₂ h => step_preserves_exactArray.run_any hcreate.exactArray h
  · intro hstored inputs st₂ h
    exact (sessionStep_preserves_exact o.id).run_any
      ⟨hcreate.exactArray, hcreate.exactTable hstored⟩ h

namespace Sample

def fillOrder : List Input :=
  [⟨.onButtonClicked .order, true⟩, ⟨.presentCreate, true⟩, ⟨.type .tfOrderId "30", true⟩,
    ⟨.type .tfFromLocationId "1", true⟩, ⟨.type .tfToLocationId "2", true⟩,
    ⟨.type .tfArrivalDate "09-21-2023", true⟩, ⟨.type .tfDepartureDate "07-21-2023", true⟩,
    ⟨.type .tfItemId "10", true⟩, ⟨.type .tfItemQuantity "2", true⟩]

/-- Raise the value of the console, and then add one more console to the order 30. -/
def raiseAdd : List Input :=
  [⟨.btnCloseTap, true⟩, ⟨.btnCloseTap, true⟩] ++ fetched ++
  [⟨.type .tfItemValue "700", true⟩, ⟨.btnTap, true⟩, ⟨.btnCloseTap, true⟩, ⟨.btnCloseTap, true⟩,
    ⟨.onButtonClicked .order, true⟩, ⟨.presentChange .addItems, true⟩,
    ⟨.type .tfOrderId "30", true⟩, ⟨.btnFetchTap, true⟩, ⟨.type .tfItemId "10", true⟩,
    ⟨.type .tfItemQuantity "1", true⟩, ⟨.btnTap, true⟩]

def order30 : LogisticsOrder where
  id := 30
  fromLocation := location1
  toLocation := location2
  estimatedArrivalDate := 716947200
  departureDate := 711590400
  cost := 1000
  itemsCarried := [⟨item1, 2⟩]

end Sample

/-- The order 30 costs two consoles at the old value and one at the new. -/
theorem run_costExact_raiseAdd :
    ∃ st st₁ st₂, (step .utc).run (AppState.launch Sample.database) Sample.fillOrder = .ok st ∧
      CreatesOrder .utc st true st₁ Sample.order30 ∧
      (step .utc).run st₁ Sample.raiseAdd = .ok st₂ ∧
      st₂.store.logisticsOrder.map (fun x => (x.id, x.cost)) = [(21, 15), (30, 1700)] ∧
      ExactOrders 30 st₂.store.logisticsOrder := by
  obtain ⟨st, hfill, st₁, hcreate, st₂, hrun, hcosts⟩ :
      ∃ st, (step .utc).run (AppState.launch Sample.database) Sample.fillOrder = .ok st ∧
        ∃ st₁, CreatesOrder .utc st true st₁ Sample.order30 ∧
        ∃ st₂, (step .utc).run st₁ Sample.raiseAdd = .ok st₂ ∧
          st₂.store.logisticsOrder.map (fun x => (x.id, x.cost)) = [(21, 15), (30, 1700)] :=
    ⟨_, rfl, _, ⟨⟨_, rfl⟩, rfl, rfl⟩, _, rfl, rfl⟩
  exact ⟨st, st₁, st₂, hfill, hcreate, hrun, hcosts,
    (@run_costExact .utc st st₁ true Sample.order30 hcreate).1 Sample.raiseAdd st₂ hrun⟩

end Info6350.Assignment8
