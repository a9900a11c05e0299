import Info6350.Assignment8.Refinement
import Info6350.Assignment8.Survival
import Info6350.Assignment8.UneditedUpdates
import Info6350.Library.Realization

/-! # What the screens permit

The checks of the screens are conditions on the operations on the registry: on the record that is
written, and for an order on the locations and items that are stored.  A handler that succeeds
performs an operation that they permit.
-/

namespace Info6350.Assignment8
open Library Swift Logistics TextApp Keyed

variable (F : DateFormatter)

def CanEnter (date : Date) : Prop := ∃ text, text ≠ "" ∧ F.date text = some date

structure LinePermitted (r : Registry) (line : OrderItem) : Prop where
  item : r.items line.item.id = some line.item
  quantity : InRange line.quantity ∧ 0 < line.quantity
  cost : InRange (lineCost line)

structure OrderPermitted (r : Registry) (order : LogisticsOrder) : Prop where
  id : InRange order.id
  fromLocation : r.locations order.fromLocation.id = some order.fromLocation
  toLocation : r.locations order.toLocation.id = some order.toLocation
  arrival : CanEnter F order.estimatedArrivalDate
  departure : CanEnter F order.departureDate
  dates : order.departureDate ≤ order.estimatedArrivalDate
  line : ∃ line, LinePermitted r line ∧ order.itemsCarried = [line] ∧ order.cost = lineCost line

/-- What the three screens make of an order. -/
inductive ChangePermitted (r : Registry) (old : LogisticsOrder) : LogisticsOrder → Prop
  | departureDate {date : Date} (hdate : CanEnter F date) :
      ChangePermitted r old { old with departureDate := date }
  | orderItem {line : OrderItem} (hline : LinePermitted r line) :
      ChangePermitted r old { old with itemsCarried := [line], cost := lineCost line }
  | addItem {line : OrderItem} (hline : LinePermitted r line)
      (hsum : InRange (old.cost + lineCost line)) :
      ChangePermitted r old
        { old with itemsCarried := old.itemsCarried ++ [line], cost := old.cost + lineCost line }

/-- Everything can be deleted, and the other operations are checked. -/
def Permitted (r : Registry) : Command → Prop
  | .items (.create item) => InRange item.id ∧ ¬ ItemRefused item
  | .items (.update item) => ¬ ItemRefused item
  | .items (.delete _) => True
  | .locations (.create location) => InRange location.id ∧ ¬ LocationRefused location
  | .locations (.update location) => ¬ LocationRefused location
  | .locations (.delete _) => True
  | .orders (.create order) => OrderPermitted F r order
  | .orders (.update order) =>
    ∃ old, r.logisticsOrder order.id = some old ∧ ChangePermitted F r old order
  | .orders (.delete _) => True

variable {F}

/-! ## The checks -/

section Checks
variable {s : Store} {form : Form Field}

theorem inRange_of_parseInt {text : String} {n : ℤ} (h : parseInt text = some n) : InRange n := by
  unfold parseInt at h
  split at h <;>
    obtain ⟨m, -, hm⟩ := Option.bind_eq_some_iff.mp h <;>
    obtain ⟨hrange, rfl⟩ := fits_eq_some_iff.mp hm <;>
    exact hrange

theorem enteredItem_accepted {message : String} {entered : ℤ → Item}
    (h : enteredItem .assignment8 message form = .ok entered) (id : ℤ) :
    ¬ ItemRefused (entered id) := by
  simp only [enteredItem, bind_ok_iff, pure_ok_iff, nonEmptyText_ok_iff, textOf_ok_iff,
    intOf_ok_iff, Edition.refuseNonPositive, refuseIf_ok_iff, not_le] at h
  obtain ⟨name, ⟨-, hname⟩, desc, -, weight, hweight, -, hweightPos, value, hvalue, -, hvaluePos,
    rfl⟩ := h
  rintro (hempty | hnot | hnot)
  · exact hname hempty
  · exact hnot ⟨inRange_of_parseInt hweight, hweightPos⟩
  · exact hnot ⟨inRange_of_parseInt hvalue, hvaluePos⟩

theorem enteredLocation_accepted {entered : ℤ → Location}
    (h : enteredLocation form = .ok entered) (id : ℤ) : ¬ LocationRefused (entered id) := by
  simp only [enteredLocation, bind_ok_iff, pure_ok_iff, nonEmptyText_ok_iff, intOf_ok_iff] at h
  obtain ⟨street, ⟨-, hstreet⟩, city, ⟨-, hcity⟩, state, ⟨-, hstate⟩, country, ⟨-, hcountry⟩, zip,
    hzip, rfl⟩ := h
  rintro (hempty | hempty | hempty | hempty | hnot)
  · exact hstreet hempty
  · exact hcity hempty
  · exact hstate hempty
  · exact hcountry hempty
  · exact hnot (inRange_of_parseInt hzip)

theorem EntersLine.permitted {line : OrderItem} (h : EntersLine s form line)
    (hcost : getOrderTotal [line] = .ok (lineCost line)) : LinePermitted s.registry line where
  item := by
    obtain ⟨id, -, hitem⟩ := h.item
    have hkey : line.item.id = id := (lookup_some hitem).2
    rw [hkey]
    exact hitem
  quantity := ⟨inRange_of_parseInt h.quantity, h.quantity_pos⟩
  cost := (getOrderTotal_singleton.mp hcost).1

theorem HoldsDate.canEnter {tf : UITextField} {date : Date} (h : HoldsDate F tf date) :
    CanEnter F date := by
  obtain ⟨text, -, hne, hdate⟩ := h
  exact ⟨text, hne, hdate⟩

structure EntersNewOrder (F : DateFormatter) (s : Store) (form : Form Field)
    (order : LogisticsOrder) : Prop where
  id : (form .tfOrderId).int? = some order.id
  fresh : order.id ∉ keys s.logisticsOrder
  fromLocation : ∃ id, (form .tfFromLocationId).int? = some id ∧
    lookup s.locations id = some order.fromLocation
  toLocation : ∃ id, (form .tfToLocationId).int? = some id ∧
    lookup s.locations id = some order.toLocation
  arrival : HoldsDate F (form .tfArrivalDate) order.estimatedArrivalDate
  departure : HoldsDate F (form .tfDepartureDate) order.departureDate
  dates : order.departureDate ≤ order.estimatedArrivalDate
  line : ∃ line, EntersLine s form line ∧ getOrderTotal [line] = .ok (lineCost line) ∧
    order.itemsCarried = [line] ∧ order.cost = lineCost line

theorem createOrder_ok_iff {order : LogisticsOrder} :
    createOrder F .assignment8 s.items s.locations s.logisticsOrder form = .ok order ↔
      EntersNewOrder F s form order := by
  simp only [createOrder, bind_ok_iff, pure_ok_iff, newId_ok_iff, intOf_ok_iff, existing_ok_iff,
    enteredDate_ok_iff, refuseIf_ok_iff, not_lt, enteredLine_ok_iff, trapping_ok_iff]
  constructor
  · rintro ⟨id, ⟨hid, hfresh⟩, fromId, hfromId, fromLocation, hfrom, toId, htoId, toLocation, hto,
      arrival, harrival, departure, hdeparture, -, hdates, line, hline, cost, hcost, rfl⟩
    obtain rfl := getOrderTotal_line hcost
    exact ⟨hid, hfresh, ⟨fromId, hfromId, hfrom⟩, ⟨toId, htoId, hto⟩, harrival, hdeparture, hdates,
      line, hline, hcost, rfl, rfl⟩
  · rintro ⟨hid, hfresh, ⟨fromId, hfromId, hfrom⟩, ⟨toId, htoId, hto⟩, harrival, hdeparture, hdates,
      line, hline, hcost, hcarried, htotal⟩
    refine ⟨order.id, ⟨hid, hfresh⟩, fromId, hfromId, _, hfrom, toId, htoId, _, hto, _, harrival, _,
      hdeparture, (), hdates, line, hline, _, hcost, ?_⟩
    rw [← hcarried, ← htotal]

theorem EntersNewOrder.permitted {order : LogisticsOrder} (h : EntersNewOrder F s form order) :
    OrderPermitted F s.registry order where
  id := inRange_of_parseInt h.id
  fromLocation := by
    obtain ⟨id, -, hlocation⟩ := h.fromLocation
    have hkey : order.fromLocation.id = id := (lookup_some hlocation).2
    rw [hkey]
    exact hlocation
  toLocation := by
    obtain ⟨id, -, hlocation⟩ := h.toLocation
    have hkey : order.toLocation.id = id := (lookup_some hlocation).2
    rw [hkey]
    exact hlocation
  arrival := h.arrival.canEnter
  departure := h.departure.canEnter
  dates := h.dates
  line := by
    obtain ⟨line, hline, hcost, hcarried, htotal⟩ := h.line
    exact ⟨line, hline.permitted hcost, hcarried, htotal⟩

end Checks

/-! ## The handlers -/

section Handlers
variable {written : Bool} {s : Store} {r : Store × Alert}

/-- A permitted operation leads from one registry to the other. -/
def PermittedStep (F : DateFormatter) (r r' : Registry) : Prop :=
  ∃ c, Permitted F r c ∧ Registry.step r c = .ok r'

theorem btnCreateTap_permitted {m : Menu} {form : Form Field} (hs : s.DistinctIds)
    (h : btnCreateTap F written m form s = .ok r) :
    PermittedStep F s.registry r.1.registry := by
  cases m with
  | item =>
    obtain ⟨item, hitem, h⟩ := bind_ok_iff.mp h
    obtain rfl := pure_ok_iff.mp h
    have hfresh := createItem_fresh _ hitem
    obtain ⟨id, hid, hitem⟩ := bind_ok_iff.mp hitem
    obtain ⟨entered, hentered, hitem⟩ := bind_ok_iff.mp hitem
    obtain rfl := pure_ok_iff.mp hitem
    refine ⟨.items (.create (entered id)), ⟨?_, enteredItem_accepted hentered id⟩,
      Registry.step_items (create_apply hs.items hfresh)⟩
    rw [enteredItem_id hentered]
    exact inRange_of_parseInt (newId_ok_iff.mp hid).1
  | location =>
    obtain ⟨location, hlocation, h⟩ := bind_ok_iff.mp h
    obtain rfl := pure_ok_iff.mp h
    have hfresh := createLocation_fresh hlocation
    obtain ⟨id, hid, hlocation⟩ := bind_ok_iff.mp hlocation
    obtain ⟨entered, hentered, hlocation⟩ := bind_ok_iff.mp hlocation
    obtain rfl := pure_ok_iff.mp hlocation
    refine ⟨.locations (.create (entered id)), ⟨?_, enteredLocation_accepted hentered id⟩,
      Registry.step_locations (create_apply hs.locations hfresh)⟩
    rw [enteredLocation_id hentered]
    exact inRange_of_parseInt (newId_ok_iff.mp hid).1
  | order =>
    obtain ⟨order, horder, h⟩ := bind_ok_iff.mp h
    obtain rfl := pure_ok_iff.mp h
    have henters := createOrder_ok_iff.mp horder
    exact ⟨.orders (.create order), henters.permitted,
      Registry.step_orders (create_apply hs.logisticsOrder henters.fresh)⟩

theorem btnDeleteTap_permitted {m : Menu} {form : Form Field} (hs : s.DistinctIds)
    (h : btnDeleteTap written m form s = .ok r) :
    PermittedStep F s.registry r.1.registry := by
  cases m with
  | item =>
    obtain ⟨⟨items, id⟩, hdeletion, h⟩ := bind_ok_iff.mp h
    obtain rfl := pure_ok_iff.mp h
    exact ⟨.items (.delete id), trivial, Registry.step_items (deletion_apply hs.items hdeletion)⟩
  | location =>
    obtain ⟨⟨locations, id⟩, hdeletion, h⟩ := bind_ok_iff.mp h
    obtain rfl := pure_ok_iff.mp h
    exact ⟨.locations (.delete id), trivial,
      Registry.step_locations (deletion_apply hs.locations hdeletion)⟩
  | order =>
    obtain ⟨⟨orders, id⟩, hdeletion, h⟩ := bind_ok_iff.mp h
    obtain rfl := pure_ok_iff.mp h
    exact ⟨.orders (.delete id), trivial,
      Registry.step_orders (deletion_apply hs.logisticsOrder hdeletion)⟩

/-- The operation of Update and Add. -/
def Changer.command : (c : Changer) → (c.controller F).Record → Command
  | .updateItem, item => .items (.update item)
  | .updateLocation, location => .locations (.update location)
  | .updateDepartureDate, order => .orders (.update order)
  | .updateOrderItem, order => .orders (.update order)
  | .addItems, order => .orders (.update order)

/-- An update of the record at an index is one operation on the registry. -/
theorem Changer.step_command (c : Changer) (hs : s.DistinctIds) {row : ℕ}
    {x y : (c.controller F).Record} (hx : ((c.controller F).slot.array s)[row]? = some x)
    (hkey : key y = key x) (written : Bool) :
    Registry.step s.registry (c.command y) =
      .ok (((c.controller F).slot.edit (.update row y)).apply written s).registry := by
  have hlegal := ((c.controller F).slot.legal_edit (.update row y) s).mpr ⟨x, hx, hkey.symm⟩
  refine StoreEdit.step_command hs hlegal ?_ written
  cases c <;> rfl

theorem Changer.entered_permitted (c : Changer) (hs : s.DistinctIds) {form : Form Field} {row : ℕ}
    {x y : (c.controller F).Record} {entered : (c.controller F).Record → Except Trap _}
    (hx : ((c.controller F).slot.array s)[row]? = some x)
    (hentered : (c.controller F).screen.entered s.items form = .ok entered)
    (hy : entered x = .ok y) : Permitted F s.registry (c.command y) := by
  cases c with
  | updateItem =>
    obtain ⟨item, hitem, hentered⟩ := bind_ok_iff.mp hentered
    obtain rfl := pure_ok_iff.mp hentered
    obtain rfl := Except.ok.inj hy
    exact enteredItem_accepted hitem _
  | updateLocation =>
    obtain ⟨location, hlocation, hentered⟩ := bind_ok_iff.mp hentered
    obtain rfl := pure_ok_iff.mp hentered
    obtain rfl := Except.ok.inj hy
    exact enteredLocation_accepted hlocation _
  | updateDepartureDate =>
    obtain ⟨date, hdate, hentered⟩ := bind_ok_iff.mp hentered
    obtain rfl := pure_ok_iff.mp hentered
    obtain rfl := Except.ok.inj hy
    exact ⟨x, hs.logisticsOrder.lookup_eq_some_iff.mpr ⟨List.mem_of_getElem? hx, rfl⟩,
      .departureDate (enteredDate_ok_iff.mp hdate).canEnter⟩
  | updateOrderItem =>
    obtain ⟨line, hline, hcost, rfl⟩ := enteredCost_ok hentered
    obtain rfl := Except.ok.inj hy
    exact ⟨x, hs.logisticsOrder.lookup_eq_some_iff.mpr ⟨List.mem_of_getElem? hx, rfl⟩,
      .orderItem (hline.permitted hcost)⟩
  | addItems =>
    obtain ⟨line, hline, hcost, rfl⟩ := enteredCost_ok hentered
    obtain ⟨cost, hsum, hy⟩ := bind_ok_iff.mp hy
    obtain rfl := pure_ok_iff.mp hy
    obtain ⟨hrange, rfl⟩ := addInt_ok_iff.mp hsum
    exact ⟨x, hs.logisticsOrder.lookup_eq_some_iff.mpr ⟨List.mem_of_getElem? hx, rfl⟩,
      .addItem (hline.permitted hcost) hrange⟩

theorem Changer.btnUpdateTap_permitted {c : Changer} {scr : FetchState} (hs : s.DistinctIds)
    (h : (c.controller F).btnUpdateTap written scr s = .ok r) :
    PermittedStep F s.registry r.1.registry := by
  obtain ⟨s', a⟩ := r
  obtain ⟨entered, row, x, y, hentered, -, hx, hy, rfl, -⟩ :=
    ChangeController.btnUpdateTap_ok_iff.mp h
  exact ⟨c.command y, c.entered_permitted hs hx hentered hy,
    c.step_command hs hx (c.lawful.key_entered hentered hy) written⟩

/-- A step changes nothing of the registry or performs an operation that the screens permit. -/
theorem step_permitted {st st' : AppState} {i : Input} (hst : st.store.DistinctIds)
    (h : step F st i = .ok st') :
    st'.registry = st.registry ∨ PermittedStep F st.registry st'.registry := by
  unfold step at h
  split at h
  case h_5 => split_ifs at h <;> obtain rfl := Except.ok.inj h <;> exact .inl rfl
  case h_7 =>
    rcases settle_ok h with ⟨r, hr, rfl⟩ | ⟨alerts, rfl⟩
    · exact .inr (btnCreateTap_permitted hst hr)
    · exact .inl rfl
  case h_10 =>
    rcases settle_ok h with ⟨r, hr, rfl⟩ | ⟨alerts, rfl⟩
    · exact .inr (btnDeleteTap_permitted hst hr)
    · exact .inl rfl
  case h_13 => rcases settle_ok h with ⟨r, -, rfl⟩ | ⟨alerts, rfl⟩ <;> exact .inl rfl
  case h_14 =>
    rcases settle_ok h with ⟨r, hr, rfl⟩ | ⟨alerts, rfl⟩
    · exact .inr (Changer.btnUpdateTap_permitted hst hr)
    · exact .inl rfl
  all_goals
    obtain rfl := Except.ok.inj h
    exact .inl rfl

end Handlers
end Info6350.Assignment8
