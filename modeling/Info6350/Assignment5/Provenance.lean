import Info6350.Assignment5.ControlFlow
import Info6350.Assignment5.OrderCreation
import Info6350.Library.Provenance

/-! # Where the orders come from

An order copies its locations and items, and what it copies may be changed or deleted at any time
afterwards.  Still no order has a location or an item that was not stored at some moment of the
run, and its cost is the total of its items, but for the initial order.
-/

namespace Info6350.Assignment5
open Library Swift Logistics

/-! ## What a function holds -/

/-- The locations that a call carries, of an order that is being entered. -/
def Control.locations : Control → List Location
  | .getDateFromUser (.createOrderArrival _ fromLocation toLocation)
  | .getDateFromUser (.createOrderDeparture _ fromLocation toLocation _)
  | .enterItems (.createOrder _ fromLocation toLocation _ _) _ =>
    fromLocation.toList ++ toLocation.toList
  | _ => []

def Control.orderItems : Control → List OrderItem
  | .enterItems _ orderItems => orderItems
  | _ => []

/-- An order after a function: its locations were those of an order or were carried, and its items
with their cost were those of an order or were entered. -/
structure OrderFrom (c : Control) (orders : List LogisticsOrder) (o : LogisticsOrder) : Prop where
  locations : (∃ old ∈ orders, old.fromLocation = o.fromLocation ∧ old.toLocation = o.toLocation) ∨
    o.fromLocation ∈ c.locations ∧ o.toLocation ∈ c.locations
  items : (∃ old ∈ orders, old.itemsCarried = o.itemsCarried ∧ old.cost = o.cost) ∨
    o.itemsCarried = c.orderItems ∧ o.cost = orderSum c.orderItems

section Functions
variable {P : Platform} {p q : Process Globals} {c : Control} {next : Next}

theorem OrderFrom.kept {orders : List LogisticsOrder} {o : LogisticsOrder} (h : o ∈ orders) :
    OrderFrom c orders o :=
  ⟨.inl ⟨o, h, rfl, rfl⟩, .inl ⟨o, h, rfl, rfl⟩⟩

theorem ordersFrom_of_subset {g g' : Globals} (h : g'.logisticsOrder ⊆ g.logisticsOrder) :
    ∀ o ∈ g'.logisticsOrder, OrderFrom c g.logisticsOrder o :=
  fun _ ho => .kept (h ho)

theorem mem_modify {orders : List LogisticsOrder} {index : ℕ} {f : LogisticsOrder → LogisticsOrder}
    {o : LogisticsOrder} (h : o ∈ orders.modify index f) :
    o ∈ orders ∨ ∃ old ∈ orders, o = f old := by
  obtain ⟨i, hi, rfl⟩ := List.getElem_of_mem h
  rw [List.getElem_modify]
  split_ifs
  · exact .inr ⟨_, List.getElem_mem _, rfl⟩
  · exact .inl (List.getElem_mem _)

theorem run_orders (h : c.run P p = .ok (next, q)) :
    ∀ o ∈ q.globals.logisticsOrder, OrderFrom c p.globals.logisticsOrder o := by
  have hsame : q.globals.logisticsOrder = p.globals.logisticsOrder →
      ∀ o ∈ q.globals.logisticsOrder, OrderFrom c p.globals.logisticsOrder o :=
    fun heq => ordersFrom_of_subset (heq ▸ List.Subset.refl _)
  cases c with
  | mainMenu => exact hsame (congrArg _ (menu_ok (.inl rfl) h).1)
  | locationMenu => exact hsame (congrArg _ (menu_ok (.inr (.inl rfl)) h).1)
  | itemMenu => exact hsame (congrArg _ (menu_ok (.inr (.inr (.inl rfl))) h).1)
  | logisticsOrderMenu => exact hsame (congrArg _ (menu_ok (.inr (.inr (.inr rfl))) h).1)
  | createOrder => exact hsame (congrArg _ (createOrder_globals h))
  | updateItems => exact hsame (congrArg _ (updateItems_globals h))
  | searchByLocation => exact hsame (congrArg _ (searchByLocation_globals h))
  | updateLocation =>
    rcases updateLocation_ok h with hq | ⟨_, _, _, _, _, _, -, hq⟩ <;> exact hsame (hq ▸ rfl)
  | updateItem =>
    rcases updateItem_ok h with hq | ⟨_, _, _, _, _, -, hq⟩ <;> exact hsame (hq ▸ rfl)
  | deleteLocation =>
    rcases deleteRecord_ok h with ⟨index, -, hq⟩ | ⟨-, hq⟩ <;> exact hsame (hq ▸ rfl)
  | deleteItem =>
    rcases deleteRecord_ok h with ⟨index, -, hq⟩ | ⟨-, hq⟩ <;> exact hsame (hq ▸ rfl)
  | deleteOrder =>
    rcases deleteRecord_ok h with ⟨index, -, hq⟩ | ⟨-, hq⟩
    · refine ordersFrom_of_subset ?_
      rw [hq]
      exact (List.eraseIdx_sublist _ _).subset
    · exact hsame (hq ▸ rfl)
  | getDateFromUser caller =>
    rcases getDateFromUser_ok h with hq | ⟨date, _, orderIndex, -, -, -, hq⟩
    · exact hsame (hq ▸ rfl)
    · intro o ho
      rw [hq] at ho
      rcases mem_modify ho with ho | ⟨old, hold, rfl⟩
      · exact .kept ho
      · exact ⟨.inl ⟨old, hold, rfl, rfl⟩, .inl ⟨old, hold, rfl, rfl⟩⟩
  | enterItems caller orderItems =>
    rcases enterItems_ok h with ⟨-, hq⟩ | ⟨-, hq⟩
    · cases caller with
      | createOrder orderId fromLocation toLocation arrivalDate departureDate =>
        obtain ⟨l, m, rfl, rfl, hq⟩ := hq
        intro o ho
        rw [hq] at ho
        rcases List.mem_append.mp ho with ho | ho
        · exact .kept ho
        · obtain rfl := List.mem_singleton.mp ho
          exact ⟨.inr ⟨by simp [Control.locations], by simp [Control.locations]⟩, .inr ⟨rfl, rfl⟩⟩
      | updateItems orderIndex =>
        have hq : q.globals = _ := hq
        intro o ho
        rw [hq] at ho
        rcases mem_modify ho with ho | ⟨old, hold, rfl⟩
        · exact .kept ho
        · exact ⟨.inl ⟨old, hold, rfl, rfl⟩, .inr ⟨rfl, rfl⟩⟩
    · exact hsame (hq ▸ rfl)
  | _ =>
    obtain ⟨-, rfl⟩ := Prod.mk.inj (Except.ok.inj h)
    exact hsame rfl

/-- What a call carries was carried before it or is stored. -/
structure CarriesFrom (c c' : Control) (g : Globals) : Prop where
  locations : ∀ l ∈ c'.locations, l ∈ c.locations ∨ l ∈ g.locations
  orderItems : ∀ line ∈ c'.orderItems, line ∈ c.orderItems ∨ line.item ∈ g.items

theorem carriesFrom_of_plain {c' : Control} {g : Globals} (h : c'.isLoop = false) :
    CarriesFrom c c' g := by
  cases c' with
  | getDateFromUser => cases h
  | enterItems => cases h
  | _ => exact ⟨fun _ h => absurd h List.not_mem_nil, fun _ h => absurd h List.not_mem_nil⟩

theorem mem_of_mem_lookups {g : Globals} {id id' : ℤ} {l : Location}
    (h : l ∈ (lookup g.locations id).toList ++ (lookup g.locations id').toList) :
    l ∈ g.locations := by
  rcases List.mem_append.mp h with h | h <;>
    exact (lookup_some (Option.mem_toList.mp h)).1

theorem item_of_mem_roundLine {items : List Item} {id quantity : ℤ} {line : OrderItem}
    (h : line ∈ roundLine items id quantity) : line.item ∈ items := by
  obtain ⟨item, hitem, rfl⟩ := Option.map_eq_some_iff.mp (Option.mem_toList.mp h)
  exact (lookup_some hitem).1

theorem run_carriesFrom {c' : Control} (h : c.run P p = .ok (.call c', q)) :
    CarriesFrom c c' p.globals := by
  have hempty : ∀ line ∈ ([] : List OrderItem), line ∈ c.orderItems ∨ line.item ∈ p.globals.items :=
    fun _ h => absurd h List.not_mem_nil
  cases run_follows h with
  | plain hplain => exact carriesFrom_of_plain hplain
  | createOrder fromLocation toLocation =>
    obtain ⟨stdout, hrun⟩ := createOrder_run P p
    cases hrun.symm.trans h
    exact ⟨fun _ hl => .inr (mem_of_mem_lookups hl), hempty⟩
  | round caller orderItems orderItems' =>
    refine ⟨fun _ hl => .inl (by cases caller <;> exact hl), fun line hline => ?_⟩
    by_cases hstop : enteredInt p.stdin = 99
    · cases stopCode_next hstop h
    · obtain ⟨printed, -, hrun⟩ := run_enterItems (P := P) caller orderItems hstop
      cases hrun.symm.trans h
      rcases List.mem_append.mp hline with hline | hline
      · exact .inl hline
      · exact .inr (item_of_mem_roundLine hline)
  | _ => exact ⟨fun _ hl => .inl hl, hempty⟩

end Functions

/-! ## Steps and runs -/

namespace State

def HoldsLocation (l : Location) (st : State) : Prop :=
  l ∈ st.control.locations ∨
    ∃ o ∈ st.globals.logisticsOrder, l = o.fromLocation ∨ l = o.toLocation

def HoldsItem (item : Item) (st : State) : Prop :=
  (∃ line ∈ st.control.orderItems, line.item = item) ∨
    ∃ o ∈ st.globals.logisticsOrder, ∃ line ∈ o.itemsCarried, line.item = item

/-- An order has these items and another cost than their total. -/
def HoldsCost (itemsCarried : List OrderItem) (cost : ℤ) (st : State) : Prop :=
  cost ≠ orderSum itemsCarried ∧
    ∃ o ∈ st.globals.logisticsOrder, o.itemsCarried = itemsCarried ∧ o.cost = cost

end State

section Runs
variable {P : Platform} {st st' : State} {u : Unit}

theorem step_from (h : step P st u = .ok st') :
    (∀ o ∈ st'.globals.logisticsOrder, OrderFrom st.control st.globals.logisticsOrder o) ∧
      CarriesFrom st.control st'.control st.globals := by
  obtain ⟨⟨next, q⟩, hrun, h⟩ := bind_ok_iff.mp h
  have horders := run_orders hrun
  cases next with
  | call c =>
    obtain rfl := Except.ok.inj h
    exact ⟨horders, run_carriesFrom hrun⟩
  | search orders =>
    obtain ⟨hglobals, hcontrol⟩ := resume_ok h
    exact ⟨hglobals ▸ horders, hcontrol ▸ carriesFrom_of_plain rfl⟩
  | returned =>
    obtain ⟨hglobals, hcontrol⟩ := resume_ok h
    exact ⟨hglobals ▸ horders, hcontrol ▸ carriesFrom_of_plain rfl⟩

theorem heldFrom_location (l : Location) :
    (step P).HeldFrom (fun _ => True) (State.HoldsLocation l) fun st => l ∈ st.globals.locations := by
  intro st u st' _ h hst'
  obtain ⟨horders, hcarries⟩ := step_from h
  rcases hst' with hl | ⟨o, ho, hl⟩
  · exact (hcarries.locations l hl).imp .inl id
  · refine .inl ?_
    rcases (horders o ho).locations with ⟨old, hold, hfrom, hto⟩ | ⟨hfrom, hto⟩
    · exact .inr ⟨old, hold, by rwa [hfrom, hto]⟩
    · rcases hl with rfl | rfl
      · exact .inl hfrom
      · exact .inl hto

theorem heldFrom_item (item : Item) :
    (step P).HeldFrom (fun _ => True) (State.HoldsItem item) fun st => item ∈ st.globals.items := by
  intro st u st' _ h hst'
  obtain ⟨horders, hcarries⟩ := step_from h
  rcases hst' with ⟨line, hline, rfl⟩ | ⟨o, ho, line, hline, rfl⟩
  · exact (hcarries.orderItems line hline).imp (fun hline => .inl ⟨line, hline, rfl⟩) id
  · refine .inl ?_
    rcases (horders o ho).items with ⟨old, hold, hitems, -⟩ | ⟨hitems, -⟩
    · exact .inr ⟨old, hold, line, hitems ▸ hline, rfl⟩
    · exact .inl ⟨line, hitems ▸ hline, rfl⟩

theorem heldFrom_cost (itemsCarried : List OrderItem) (cost : ℤ) :
    (step P).HeldFrom (fun _ => True) (State.HoldsCost itemsCarried cost) fun _ => False := by
  intro st u st' _ h ⟨hcost, o, ho, hitems, hocost⟩
  rcases ((step_from h).1 o ho).items with ⟨old, hold, holdItems, holdCost⟩ | ⟨hentered, htotal⟩
  · exact .inl ⟨hcost, old, hold, holdItems.trans hitems, holdCost.trans hocost⟩
  · exact absurd (hocost.symm.trans (htotal.trans (by rw [← hentered, hitems]))) hcost

/-- What an order is made of, when the script has run on an input. -/
structure OrderOrigin (P : Platform) (stdin : List String) (ticks : List Unit)
    (o : LogisticsOrder) : Prop where
  fromLocation : (step P).Once (fun st => o.fromLocation ∈ st.globals.locations)
    (launch P stdin) ticks
  toLocation : (step P).Once (fun st => o.toLocation ∈ st.globals.locations) (launch P stdin) ticks
  items : ∀ line ∈ o.itemsCarried,
    (step P).Once (fun st => line.item ∈ st.globals.items) (launch P stdin) ticks
  cost : o.cost = orderSum o.itemsCarried ∨
    ∃ initial ∈ (Globals.initial P).logisticsOrder,
      o.itemsCarried = initial.itemsCarried ∧ o.cost = initial.cost

theorem launch_holdsLocation {stdin : List String} {l : Location}
    (h : (launch P stdin).HoldsLocation l) : l ∈ (launch P stdin).globals.locations := by
  rcases h with h | ⟨o, ho, hl⟩
  · exact absurd h List.not_mem_nil
  · obtain rfl := List.mem_singleton.mp ho
    rcases hl with rfl | rfl
    · exact List.mem_cons_self
    · exact List.mem_cons_of_mem _ List.mem_cons_self

theorem launch_holdsItem {stdin : List String} {item : Item}
    (h : (launch P stdin).HoldsItem item) : item ∈ (launch P stdin).globals.items := by
  rcases h with ⟨line, hline, -⟩ | ⟨o, ho, line, hline, rfl⟩
  · exact absurd hline List.not_mem_nil
  · obtain rfl := List.mem_singleton.mp ho
    obtain rfl := List.mem_singleton.mp hline
    exact List.mem_cons_self

/-- On every input: an order in the array is between locations that were stored at some moment of
the run, carries items that were stored at some moment, and costs their total, unless it still has
the items and the cost of the initial order. -/
theorem run_orderOrigin {stdin : List String} {ticks : List Unit}
    (h : (step P).run (launch P stdin) ticks = .ok st) {o : LogisticsOrder}
    (ho : o ∈ st.globals.logisticsOrder) : OrderOrigin P stdin ticks o := by
  have htrue : (step P).Preserves Machine.AnyStep fun _ => True := fun _ _ _ _ _ _ => trivial
  refine ⟨?_, ?_, fun line hline => ?_, ?_⟩
  · exact (heldFrom_location o.fromLocation).once htrue trivial h launch_holdsLocation
      (.inr ⟨o, ho, .inl rfl⟩)
  · exact (heldFrom_location o.toLocation).once htrue trivial h launch_holdsLocation
      (.inr ⟨o, ho, .inr rfl⟩)
  · exact (heldFrom_item line.item).once htrue trivial h launch_holdsItem
      (.inr ⟨o, ho, line, hline, rfl⟩)
  · by_cases hcost : o.cost = orderSum o.itemsCarried
    · exact .inl hcost
    · refine .inr ?_
      rcases (heldFrom_cost o.itemsCarried o.cost).run htrue trivial h ⟨hcost, o, ho, rfl, rfl⟩ with
        ⟨-, initial, hinitial, hitems, hinitialCost⟩ | ⟨_, _, _, -, -, hfalse⟩
      · exact ⟨initial, hinitial, hitems.symm, hinitialCost.symm⟩
      · exact hfalse.elim

end Runs

/-- An order of two Xboxes, which are deleted afterwards. -/
def Sample.orderThenDelete : List String :=
  ["3", "1", "5", "1", "2", "07-21-2023", "07-21-2023", "10", "2", "99", "8", "1", "4", "10"]

def Sample.deletedOrder : LogisticsOrder :=
  ⟨5, location1, location2, 711590400, 711590400, 1000,
    [⟨⟨10, "Xbox", "Gaming Console", 2, 500⟩, 2⟩]⟩

theorem run_orderOrigin_deleted :
    ∃ st, (step .utc).run (launch .utc Sample.orderThenDelete) (List.replicate 11 ()) = .ok st ∧
      st.globals.items.map Item.name = ["Sony Headphones"] ∧
      OrderOrigin .utc Sample.orderThenDelete (List.replicate 11 ()) Sample.deletedOrder :=
  ⟨_, rfl, rfl, run_orderOrigin rfl (List.mem_cons_of_mem _ List.mem_cons_self)⟩

end Info6350.Assignment5
