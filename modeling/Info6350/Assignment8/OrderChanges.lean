import Info6350.Assignment8.OrderCosts

/-! # What a step does to the orders

A step of Assignment 8 creates an order, changes one on one of three screens, deletes one, or
leaves the orders as they are.  Each change is stated with the entries that it takes from the text
fields and the record that it starts from.
-/

namespace Info6350.Assignment8
open Library Swift Logistics TextApp DatabaseManager

variable (F : DateFormatter)

/-- The edits of the orders that a step can make, from the state before it. -/
inductive OrderChange (st : AppState) : Input → Edit LogisticsOrder → Prop
  | keep (i : Input) : OrderChange st i .keep
  | create {form : Form Field} {order : LogisticsOrder} (written : Bool)
      (hscreen : st.screen = .create .order form)
      (horder : createOrder F .assignment8 st.store.items st.store.locations
        st.store.logisticsOrder form = .ok order) : OrderChange st ⟨.btnTap, written⟩ (.create order)
  | departureDate {scr : FetchState} {row : ℕ} {x : LogisticsOrder} {date : Date} (written : Bool)
      (hscreen : st.screen = .change .updateDepartureDate scr) (hrow : scr.foundIndex = row)
      (hx : st.store.logisticsOrder[row]? = some x)
      (hdate : HoldsDate F (scr.form .tfDepartureDate) date) :
      OrderChange st ⟨.btnTap, written⟩ (.update row { x with departureDate := date })
  | orderItem {scr : FetchState} {row : ℕ} {x : LogisticsOrder} {line : OrderItem} (written : Bool)
      (hscreen : st.screen = .change .updateOrderItem scr) (hrow : scr.foundIndex = row)
      (hx : st.store.logisticsOrder[row]? = some x) (hline : EntersLine st.store scr.form line)
      (hcost : getOrderTotal [line] = .ok (lineCost line)) :
      OrderChange st ⟨.btnTap, written⟩
        (.update row { x with itemsCarried := [line], cost := lineCost line })
  | addItem {scr : FetchState} {row : ℕ} {x : LogisticsOrder} {line : OrderItem} (written : Bool)
      (hscreen : st.screen = .change .addItems scr) (hrow : scr.foundIndex = row)
      (hx : st.store.logisticsOrder[row]? = some x) (hline : EntersLine st.store scr.form line)
      (hcost : getOrderTotal [line] = .ok (lineCost line))
      (hsum : InRange (x.cost + lineCost line)) :
      OrderChange st ⟨.btnTap, written⟩ (.update row
        { x with itemsCarried := x.itemsCarried ++ [line], cost := x.cost + lineCost line })
  | delete {form : Form Field} {row : ℕ} {x : LogisticsOrder} (written : Bool)
      (hscreen : st.screen = .delete .order form)
      (hx : st.store.logisticsOrder[row]? = some x) : OrderChange st ⟨.btnTap, written⟩ (.delete row)

variable {F} {st st' : AppState} {i : Input}

theorem OrderChange.legal {e : Edit LogisticsOrder} (h : OrderChange F st i e) :
    e.Legal st.store.logisticsOrder := by
  cases h with
  | keep => trivial
  | create _ _ horder => exact (createOrder_ok F _ horder).fresh
  | departureDate _ _ _ hx => exact ⟨_, hx, rfl⟩
  | orderItem _ _ _ hx => exact ⟨_, hx, rfl⟩
  | addItem _ _ _ hx => exact ⟨_, hx, rfl⟩
  | delete _ _ hx => exact (List.getElem?_eq_some_iff.mp hx).choose

def EditsOrders (e : Edit LogisticsOrder) (written : Bool) (s s' : Store) : Prop :=
  s'.logisticsOrder = e.onList s.logisticsOrder ∧
    s'.db.logisticsorder = sendEdit written e s.logisticsOrder s.db.logisticsorder

theorem EditsOrders.keep (written : Bool) {s s' : Store} (h : s.SameOrders s') :
    EditsOrders .keep written s s' :=
  ⟨h.array, h.table.trans (sendEdit_keep written _ _).symm⟩

theorem btnCreateTap_orders {written : Bool} {m : Menu} {form : Form Field} {s' : Store}
    {a : Alert} (hscreen : st.screen = .create m form)
    (h : btnCreateTap F written m form st.store = .ok (s', a)) :
    ∃ e, OrderChange F st ⟨.btnTap, written⟩ e ∧ EditsOrders e written st.store s' := by
  cases m with
  | item =>
    obtain ⟨item, -, h⟩ := bind_ok_iff.mp h
    obtain ⟨rfl, -⟩ := Prod.mk.inj (pure_ok_iff.mp h)
    exact ⟨.keep, .keep _, .keep written ⟨rfl, rfl⟩⟩
  | location =>
    obtain ⟨location, -, h⟩ := bind_ok_iff.mp h
    obtain ⟨rfl, -⟩ := Prod.mk.inj (pure_ok_iff.mp h)
    exact ⟨.keep, .keep _, .keep written ⟨rfl, rfl⟩⟩
  | order =>
    obtain ⟨order, horder, h⟩ := bind_ok_iff.mp h
    obtain ⟨rfl, -⟩ := Prod.mk.inj (pure_ok_iff.mp h)
    exact ⟨.create order, .create written hscreen horder, rfl, rfl⟩

theorem btnDeleteTap_orders {written : Bool} {m : Menu} {form : Form Field} {s' : Store}
    {a : Alert} (hscreen : st.screen = .delete m form)
    (h : btnDeleteTap written m form st.store = .ok (s', a)) :
    ∃ e, OrderChange F st ⟨.btnTap, written⟩ e ∧ EditsOrders e written st.store s' := by
  cases m with
  | item =>
    obtain ⟨⟨items, id⟩, -, h⟩ := bind_ok_iff.mp h
    obtain ⟨rfl, -⟩ := Prod.mk.inj (pure_ok_iff.mp h)
    exact ⟨.keep, .keep _, .keep written ⟨rfl, rfl⟩⟩
  | location =>
    obtain ⟨⟨locations, id⟩, -, h⟩ := bind_ok_iff.mp h
    obtain ⟨rfl, -⟩ := Prod.mk.inj (pure_ok_iff.mp h)
    exact ⟨.keep, .keep _, .keep written ⟨rfl, rfl⟩⟩
  | order =>
    obtain ⟨⟨orders, id⟩, hdeletion, h⟩ := bind_ok_iff.mp h
    obtain ⟨rfl, -⟩ := Prod.mk.inj (pure_ok_iff.mp h)
    obtain ⟨row, x, hx, rfl, rfl⟩ := deletion_ok hdeletion
    exact ⟨.delete row, .delete written hscreen hx, rfl, (sendEdit_delete written _ _ hx).symm⟩

theorem enteredCost_ok {β : Type} {s : Store} {form : Form Field} {f : OrderItem → ℤ → β} {b : β}
    (h : (do
      let orderItem ← enteredLine .assignment8 s.items form
      let orderCost ← trapping (getOrderTotal [orderItem])
      return f orderItem orderCost : Handler β) = .ok b) :
    ∃ line, EntersLine s form line ∧ getOrderTotal [line] = .ok (lineCost line) ∧
      b = f line (lineCost line) := by
  obtain ⟨line, hline, h⟩ := bind_ok_iff.mp h
  obtain ⟨cost, hcost, h⟩ := bind_ok_iff.mp h
  obtain rfl := pure_ok_iff.mp h
  have htotal := trapping_ok_iff.mp hcost
  obtain rfl := getOrderTotal_line htotal
  exact ⟨line, enteredLine_ok_iff.mp hline, htotal, rfl⟩

theorem Changer.btnUpdateTap_orders {c : Changer} {written : Bool} {scr : FetchState} {s' : Store}
    {a : Alert} (hscreen : st.screen = .change c scr)
    (h : (c.controller F).btnUpdateTap written scr st.store = .ok (s', a)) :
    ∃ e, OrderChange F st ⟨.btnTap, written⟩ e ∧ EditsOrders e written st.store s' := by
  obtain ⟨entered, row, x, y, hentered, hrow, hx, hy, rfl, -⟩ :=
    ChangeController.btnUpdateTap_ok_iff.mp h
  cases c with
  | updateItem => exact ⟨.keep, .keep _, .keep written ⟨rfl, rfl⟩⟩
  | updateLocation => exact ⟨.keep, .keep _, .keep written ⟨rfl, rfl⟩⟩
  | updateDepartureDate =>
    obtain ⟨date, hdate, hentered⟩ := bind_ok_iff.mp hentered
    obtain rfl := pure_ok_iff.mp hentered
    obtain rfl := Except.ok.inj hy
    exact ⟨_, .departureDate written hscreen hrow hx (enteredDate_ok_iff.mp hdate), rfl, rfl⟩
  | updateOrderItem =>
    obtain ⟨line, hline, hcost, rfl⟩ := enteredCost_ok hentered
    obtain rfl := Except.ok.inj hy
    exact ⟨_, .orderItem written hscreen hrow hx hline hcost, rfl, rfl⟩
  | addItems =>
    obtain ⟨line, hline, hcost, rfl⟩ := enteredCost_ok hentered
    obtain ⟨cost, hsum, hy⟩ := bind_ok_iff.mp hy
    obtain rfl := pure_ok_iff.mp hy
    obtain ⟨hrange, rfl⟩ := addInt_ok_iff.mp hsum
    exact ⟨_, .addItem written hscreen hrow hx hline hcost hrange, rfl, rfl⟩

/-- Every step makes one of these edits of the orders, in the array and in the table. -/
theorem step_orders (h : step F st i = .ok st') :
    ∃ e, OrderChange F st i e ∧ EditsOrders e i.written st.store st'.store := by
  have hkeep : ∀ {s' : Store}, s' = st.store →
      ∃ e, OrderChange F st i e ∧ EditsOrders e i.written st.store s' := by
    rintro s' rfl
    exact ⟨.keep, .keep i, .keep i.written ⟨rfl, rfl⟩⟩
  obtain ⟨event, written⟩ := i
  unfold step at h
  split at h
  case h_5 =>
    split_ifs at h <;> obtain rfl := Except.ok.inj h <;> exact hkeep rfl
  case h_7 m form hscreen hevent =>
    obtain rfl : event = .btnTap := hevent
    rcases settle_ok h with ⟨r, hr, rfl⟩ | ⟨alerts, rfl⟩
    · exact btnCreateTap_orders hscreen hr
    · exact hkeep rfl
  case h_10 m form hscreen hevent =>
    obtain rfl : event = .btnTap := hevent
    rcases settle_ok h with ⟨r, hr, rfl⟩ | ⟨alerts, rfl⟩
    · exact btnDeleteTap_orders hscreen hr
    · exact hkeep rfl
  case h_13 c scr _ _ =>
    rcases settle_ok h with ⟨r, -, rfl⟩ | ⟨alerts, rfl⟩ <;> exact hkeep rfl
  case h_14 c scr hscreen hevent =>
    obtain rfl : event = .btnTap := hevent
    rcases settle_ok h with ⟨r, hr, rfl⟩ | ⟨alerts, rfl⟩
    · exact Changer.btnUpdateTap_orders hscreen hr
    · exact hkeep rfl
  all_goals
    obtain rfl := Except.ok.inj h
    exact hkeep rfl

end Info6350.Assignment8
