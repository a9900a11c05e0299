import Info6350.Assignment8.Permissions
import Info6350.TextApp.SearchScreens

/-! # What the searches find

A user keeps a log of the orders: what was typed into the fields of a tap that the app confirmed.
The searches find what the log says, whatever happened to the items, the locations and the lines.
-/

namespace Info6350.Assignment8
open Library Swift Logistics TextApp

variable (F : DateFormatter)

/-! ## The log -/

/-- What is noted of an order. -/
structure Booking where
  id : ℤ
  fromLocationId : ℤ
  toLocationId : ℤ
  estimatedArrivalDate : Date
  departureDate : Date
deriving DecidableEq, Repr

def booking (order : LogisticsOrder) : Booking :=
  ⟨order.id, order.fromLocation.id, order.toLocation.id, order.estimatedArrivalDate,
    order.departureDate⟩

def dateIn (tf : UITextField) : Option Date := tf.text.bind F.date

/-- The order that the fields of the create screen describe. -/
def bookingIn (form : Form Field) : Option Booking := do
  let id ← (form .tfOrderId).int?
  let fromLocationId ← (form .tfFromLocationId).int?
  let toLocationId ← (form .tfToLocationId).int?
  let estimatedArrivalDate ← dateIn F (form .tfArrivalDate)
  let departureDate ← dateIn F (form .tfDepartureDate)
  return ⟨id, fromLocationId, toLocationId, estimatedArrivalDate, departureDate⟩

/-- The app shows a confirmation in this step. -/
def Confirms (st st' : AppState) : Prop := st.confirmed.length < st'.confirmed.length

instance (st st' : AppState) : Decidable (Confirms st st') := inferInstanceAs (Decidable (_ < _))

/-- The log after a step.  A departure date is noted for the order that was fetched last. -/
def note (st : AppState) (i : Input) (st' : AppState) (log : List Booking) : List Booking :=
  if Confirms st st' then
    match st.screen, i.event with
    | .create .order form, .btnTap => log ++ (bookingIn F form).toList
    | .delete .order form, .btnTap => log.filter fun b => b.id ≠ intOrZero (form .tfOrderId)
    | .change .updateDepartureDate scr, .btnTap =>
      match dateIn F (scr.form .tfDepartureDate) with
      | some date => log.modify scr.foundIndex.toNat fun b => { b with departureDate := date }
      | none => log
    | _, _ => log
  else log

variable {F}

theorem note_of_not_confirms {st st' : AppState} (h : ¬ Confirms st st') (i : Input)
    (log : List Booking) : note F st i st' log = log :=
  if_neg h

theorem note_of_ne {i : Input} (h : i.event ≠ .btnTap) (st st' : AppState) (log : List Booking) :
    note F st i st' log = log := by
  unfold note
  split_ifs
  · split
    · exact absurd ‹_› h
    · exact absurd ‹_› h
    · exact absurd ‹_› h
    · rfl
  · rfl

/-! ## The entries -/

section Entries
variable {s : Store} {form : Form Field}

theorem HoldsDate.dateIn {tf : UITextField} {date : Date} (h : HoldsDate F tf date) :
    dateIn F tf = some date := by
  obtain ⟨text, htext, -, hdate⟩ := h
  simp [Assignment8.dateIn, htext, hdate]

theorem EntersNewOrder.bookingIn {order : LogisticsOrder} (h : EntersNewOrder F s form order) :
    bookingIn F form = some (booking order) := by
  obtain ⟨fromId, hfromId, hfrom⟩ := h.fromLocation
  obtain ⟨toId, htoId, hto⟩ := h.toLocation
  have hfromKey : order.fromLocation.id = fromId := (lookup_some hfrom).2
  have htoKey : order.toLocation.id = toId := (lookup_some hto).2
  simp [Assignment8.bookingIn, booking, h.id, hfromId, htoId, h.arrival.dateIn, h.departure.dateIn,
    hfromKey, htoKey]

end Entries

/-! ## Steps -/

section Handlers
variable {written : Bool} {form : Form Field} {s : Store} {r : Store × Alert}

theorem btnCreateTap_bookings {m : Menu} (h : btnCreateTap F written m form s = .ok r) :
    r.1.logisticsOrder.map booking = match m with
      | .order => s.logisticsOrder.map booking ++ (bookingIn F form).toList
      | _ => s.logisticsOrder.map booking := by
  cases m with
  | item =>
    obtain ⟨item, -, h⟩ := bind_ok_iff.mp h
    obtain rfl := pure_ok_iff.mp h
    rfl
  | location =>
    obtain ⟨location, -, h⟩ := bind_ok_iff.mp h
    obtain rfl := pure_ok_iff.mp h
    rfl
  | order =>
    obtain ⟨order, horder, h⟩ := bind_ok_iff.mp h
    obtain rfl := pure_ok_iff.mp h
    rw [(createOrder_ok_iff.mp horder).bookingIn]
    exact List.map_append

theorem deletion_eq {α : Type} [Keyed α ℤ] {l l' : List α} {tf : UITextField} {message : String}
    {id : ℤ} (hd : Distinct l) (h : deletion l tf message = .ok (l', id)) :
    l' = l.filter fun x => Keyed.key x ≠ intOrZero tf := by
  by_cases hmem : intOrZero tf ∈ keys l
  · rw [deletion_of_mem hd hmem] at h
    exact (Prod.mk.inj (Except.ok.inj h)).1.symm
  · rw [deletion_of_not_mem hmem] at h
    cases h

theorem btnDeleteTap_bookings {m : Menu} (hs : s.DistinctIds)
    (h : btnDeleteTap written m form s = .ok r) :
    r.1.logisticsOrder.map booking = match m with
      | .order => (s.logisticsOrder.map booking).filter fun b =>
          b.id ≠ intOrZero (form .tfOrderId)
      | _ => s.logisticsOrder.map booking := by
  cases m with
  | item =>
    obtain ⟨⟨items, id⟩, -, h⟩ := bind_ok_iff.mp h
    obtain rfl := pure_ok_iff.mp h
    rfl
  | location =>
    obtain ⟨⟨locations, id⟩, -, h⟩ := bind_ok_iff.mp h
    obtain rfl := pure_ok_iff.mp h
    rfl
  | order =>
    obtain ⟨⟨orders, id⟩, hdeletion, h⟩ := bind_ok_iff.mp h
    obtain rfl := pure_ok_iff.mp h
    have horders := deletion_eq hs.logisticsOrder hdeletion
    subst horders
    exact (List.filter_map (p := fun b : Booking => b.id ≠ intOrZero (form .tfOrderId))).symm

theorem map_booking_set {orders : List LogisticsOrder} {row : ℕ} {x y : LogisticsOrder}
    (hx : orders[row]? = some x) (hy : booking y = booking x) :
    (orders.set row y).map booking = orders.map booking := by
  obtain ⟨hlt, rfl⟩ := List.getElem?_eq_some_iff.mp hx
  refine List.ext_getElem? fun j => ?_
  by_cases hj : row = j
  · subst hj
    simp [hlt, hy]
  · simp [hj]

theorem map_booking_modify {orders : List LogisticsOrder} {row : ℕ} {x : LogisticsOrder}
    (hx : orders[row]? = some x) (date : Date) :
    (orders.set row { x with departureDate := date }).map booking =
      (orders.map booking).modify row fun b => { b with departureDate := date } := by
  obtain ⟨hlt, rfl⟩ := List.getElem?_eq_some_iff.mp hx
  refine List.ext_getElem? fun j => ?_
  by_cases hj : row = j
  · subst hj
    simp [hlt, booking]
  · simp [hj]

theorem Changer.btnUpdateTap_bookings {c : Changer} {scr : FetchState}
    (h : (c.controller F).btnUpdateTap written scr s = .ok r) :
    r.1.logisticsOrder.map booking = match c with
      | .updateDepartureDate =>
        match dateIn F (scr.form .tfDepartureDate) with
        | some date => (s.logisticsOrder.map booking).modify scr.foundIndex.toNat
            fun b => { b with departureDate := date }
        | none => s.logisticsOrder.map booking
      | _ => s.logisticsOrder.map booking := by
  obtain ⟨s', a⟩ := r
  obtain ⟨entered, row, x, y, hentered, hrow, hx, hy, rfl, -⟩ :=
    ChangeController.btnUpdateTap_ok_iff.mp h
  cases c with
  | updateItem => rfl
  | updateLocation => rfl
  | updateDepartureDate =>
    obtain ⟨date, hdate, hentered⟩ := bind_ok_iff.mp hentered
    obtain rfl := pure_ok_iff.mp hentered
    obtain rfl := Except.ok.inj hy
    simp only [(enteredDate_ok_iff.mp hdate).dateIn, hrow, Int.toNat_natCast]
    exact map_booking_modify hx date
  | updateOrderItem =>
    obtain ⟨line, -, -, rfl⟩ := enteredCost_ok hentered
    obtain rfl := Except.ok.inj hy
    exact map_booking_set hx rfl
  | addItems =>
    obtain ⟨line, -, -, rfl⟩ := enteredCost_ok hentered
    obtain ⟨cost, -, hy⟩ := bind_ok_iff.mp hy
    obtain rfl := pure_ok_iff.mp hy
    exact map_booking_set hx rfl

end Handlers

/-- A handler that writes confirms it, and one that is refused leaves the store alone. -/
theorem settle_confirms {st st' : AppState} {h : Handler (Store × Alert)} (hrefuses : Refuses h)
    (hperforms : ∀ r, h = .ok r → st.registry.Performs r.1.registry r.2)
    (hsettle : settle st.wrote st.alerted h = .ok st') :
    (∃ r, h = .ok r ∧ st'.store = r.1 ∧ Confirms st st') ∨
      (st'.store = st.store ∧ ¬ Confirms st st') := by
  rcases settle_unsuccessful hrefuses.unsuccessful hsettle with ⟨r, hr, rfl⟩ | ⟨alerts, ha, rfl⟩
  · obtain ⟨c, -, hconfirmed⟩ := hperforms r hr
    refine .inl ⟨r, hr, rfl, ?_⟩
    simp [Confirms, AppState.confirmed, AppState.wrote, confirmations_cons hconfirmed.confirms]
  · refine .inr ⟨rfl, ?_⟩
    simp [Confirms, AppState.confirmed, AppState.alerted, confirmations_unsuccessful ha]

theorem step_store_of_ne {st st' : AppState} {i : Input} (hevent : i.event ≠ .btnTap)
    (h : step F st i = .ok st') : st'.store = st.store := by
  unfold step at h
  split at h
  case h_5 => split_ifs at h <;> obtain rfl := Except.ok.inj h <;> rfl
  case h_7 => exact absurd ‹_› hevent
  case h_10 => exact absurd ‹_› hevent
  case h_13 => rcases settle_ok h with ⟨r, -, rfl⟩ | ⟨alerts, rfl⟩ <;> rfl
  case h_14 => exact absurd ‹_› hevent
  all_goals
    obtain rfl := Except.ok.inj h
    rfl

theorem step_note {st st' : AppState} {i : Input} (hst : st.store.DistinctIds)
    (h : step F st i = .ok st') : st'.store.logisticsOrder.map booking =
      note F st i st' (st.store.logisticsOrder.map booking) := by
  obtain ⟨event, written⟩ := i
  by_cases hevent : event = .btnTap
  · subst hevent
    obtain ⟨s, screen, alerts⟩ := st
    cases screen with
    | main =>
      obtain rfl := Except.ok.inj h
      exact (note_of_not_confirms (lt_irrefl _) _ _).symm
    | menu m =>
      obtain rfl := Except.ok.inj h
      exact (note_of_not_confirms (lt_irrefl _) _ _).symm
    | create m form =>
      rcases settle_confirms (refuses_btnCreateTap _ _ _ _)
        (fun r hr => btnCreateTap_performs hst hr) h with ⟨r, hr, hstore, hconf⟩ | ⟨hstore, hconf⟩
      · rw [hstore, btnCreateTap_bookings hr, note, if_pos hconf]
        cases m <;> rfl
      · rw [hstore, note_of_not_confirms hconf]
    | delete m form =>
      rcases settle_confirms (refuses_btnDeleteTap _ _ _ _)
        (fun r hr => btnDeleteTap_performs hst hr) h with ⟨r, hr, hstore, hconf⟩ | ⟨hstore, hconf⟩
      · rw [hstore, btnDeleteTap_bookings hst hr, note, if_pos hconf]
        cases m <;> rfl
      · rw [hstore, note_of_not_confirms hconf]
    | change c scr =>
      rcases settle_confirms (c.refuses_btnUpdateTap _ _ _)
        (fun r hr => c.btnUpdateTap_performs hst hr) h with ⟨r, hr, hstore, hconf⟩ | ⟨hstore, hconf⟩
      · rw [hstore, Changer.btnUpdateTap_bookings hr, note, if_pos hconf]
        cases c <;> rfl
      · rw [hstore, note_of_not_confirms hconf]
  · rw [step_store_of_ne hevent h, note_of_ne hevent]

/-! ## Searches -/

variable (F)

def logByDate (log : List Booking) (form : Form Field) : Handler (List Booking) := do
  let date ← enteredDate F (form .tfDate) "Date is empty" "Departure date format invalid"
  return log.filter fun b => b.departureDate = date ∨ b.estimatedArrivalDate = date

def logByLocation (log : List Booking) (form : Form Field) : Handler (List Booking) := do
  let location ← intOf (form .tfLocationId) "Invalid Location Id"
  return log.filter fun b => b.toLocationId = location ∨ b.fromLocationId = location

/-- The screens that show orders show what the log says. -/
structure ShowsLog (orders : List LogisticsOrder) (log : List Booking) : Prop where
  byDate : ∀ form, (searchByDate F orders form).map (List.map booking) = logByDate F log form
  byLocation : ∀ form, (searchByLocation orders form).map (List.map booking) =
    logByLocation log form
  noneByDate : ∀ I form, (searchByDate F orders form).map (searchText I) =
    .ok "No orders found" ↔ logByDate F log form = .ok []
  noneByLocation : ∀ I form, (searchByLocation orders form).map (searchText I) =
    .ok "No orders found" ↔ logByLocation log form = .ok []
  view : ∀ I, viewOrder I orders = "No orders exist" ↔ log = []

variable {F}

theorem searchByDate_bookings (orders : List LogisticsOrder) (form : Form Field) :
    (searchByDate F orders form).map (List.map booking) =
      logByDate F (orders.map booking) form := by
  unfold searchByDate logByDate
  cases enteredDate F (form .tfDate) "Date is empty" "Departure date format invalid" with
  | error e => rfl
  | ok date =>
    exact congrArg Except.ok (List.filter_map (p := fun b : Booking =>
      b.departureDate = date ∨ b.estimatedArrivalDate = date)).symm

theorem searchByLocation_bookings (orders : List LogisticsOrder) (form : Form Field) :
    (searchByLocation orders form).map (List.map booking) =
      logByLocation (orders.map booking) form := by
  unfold searchByLocation logByLocation
  cases intOf (form .tfLocationId) "Invalid Location Id" with
  | error e => rfl
  | ok location =>
    exact congrArg Except.ok (List.filter_map (p := fun b : Booking =>
      b.toLocationId = location ∨ b.fromLocationId = location)).symm

theorem noneFound_iff {found : Handler (List LogisticsOrder)} {noted : Handler (List Booking)}
    (h : found.map (List.map booking) = noted) (I : Interpolation) :
    found.map (searchText I) = .ok "No orders found" ↔ noted = .ok [] := by
  subst h
  simp only [map_ok_iff, searchText_eq_iff, List.map_eq_nil_iff]

theorem showsLog_bookings (orders : List LogisticsOrder) :
    ShowsLog F orders (orders.map booking) where
  byDate := searchByDate_bookings orders
  byLocation := searchByLocation_bookings orders
  noneByDate I form := noneFound_iff (searchByDate_bookings orders form) I
  noneByLocation I form := noneFound_iff (searchByLocation_bookings orders form) I
  view I := (viewOrder_eq_iff I orders).trans List.map_eq_nil_iff.symm

/-! ## Runs -/

def Noted (st : AppState × List Booking) : Prop :=
  st.1.store.DistinctIds ∧ st.1.store.logisticsOrder.map booking = st.2

theorem step_preserves_noted : ((step F).withHistory (note F)).Preserves Machine.AnyStep Noted := by
  rintro ⟨st, log⟩ i ⟨st', log'⟩ ⟨hids, hlog⟩ - h
  obtain ⟨hstep, hnote⟩ := ((step F).withHistory_ok_iff _).mp h
  dsimp only at hids hlog hstep hnote
  subst hlog hnote
  exact ⟨step_preserves_distinctIds st i st' hids trivial hstep, step_note hids hstep⟩

/-- In every run the screens that show orders show what the log says. -/
theorem run_showsLog {db : Database} {inputs : List Input} {st : AppState} {log : List Booking}
    (h : ((step F).withHistory (note F)).run (AppState.launch db,
      (AppState.launch db).store.logisticsOrder.map booking) inputs = .ok (st, log)) :
    ShowsLog F st.store.logisticsOrder log := by
  have hnoted := step_preserves_noted.run_any
    ⟨(Store.generateDummyData_matches db).distinctIds, rfl⟩ h
  have hlog : st.store.logisticsOrder.map booking = log := hnoted.2
  exact hlog ▸ showsLog_bookings _

/-- Delete the location that the order 21 leaves from, and let the order depart on 07-21-2023. -/
def Sample.departOnArrival : List Input :=
  [⟨.onButtonClicked .location, true⟩, ⟨.presentDelete, true⟩, ⟨.type .tfLocationId "1", true⟩,
    ⟨.btnTap, true⟩, ⟨.btnCloseTap, true⟩, ⟨.btnCloseTap, true⟩, ⟨.onButtonClicked .order, true⟩,
    ⟨.presentChange .updateDepartureDate, true⟩, ⟨.type .tfOrderId "21", true⟩,
    ⟨.btnFetchTap, true⟩, ⟨.type .tfDepartureDate "07-21-2023", true⟩, ⟨.btnTap, true⟩]

/-- A search for the location 1 still finds the order. -/
theorem run_showsLog_departOnArrival : ∃ st log,
    ((step .utc).withHistory (note .utc)).run (AppState.launch Sample.database,
        (AppState.launch Sample.database).store.logisticsOrder.map booking)
      Sample.departOnArrival = .ok (st, log) ∧ log = [⟨21, 1, 2, 711590400, 711590400⟩] ∧
      st.store.locations = [location2] ∧ ShowsLog .utc st.store.logisticsOrder log :=
  ⟨_, _, rfl, rfl, rfl, @run_showsLog .utc Sample.database Sample.departOnArrival _ _ rfl⟩

end Info6350.Assignment8
