import Info6350.Assignment8.DepartureDates
import Info6350.EmptyApp.FetchedIndex

/-! # Departure dates in EmptyAppFinal

The orders of EmptyAppFinal change as in Assignment 8, on the screens of the output view.  A run of
either app that starts with the dates in order keeps them so exactly when no update of a departure
date enters a later date than the arrival.
-/

namespace Info6350.EmptyApp
open Library Swift Logistics TextApp
open Assignment8 (DatesInOrder DepartsInTime HoldsDate enteredDate_ok_iff)

variable (F : DateFormatter)

/-- The edits of the orders that an event can make, from the state before it. -/
inductive OrderChange (st : AppState) : Event → Edit LogisticsOrder → Prop
  | keep (e : Event) : OrderChange st e .keep
  | create {form : Form Field} {order : LogisticsOrder} (houtput : st.output = .create .order form)
      (horder : createOrder F .emptyApp st.main.items st.main.locations st.main.logisticsOrder form =
        .ok order) : OrderChange st .button (.create order)
  | departureDate {view : UpdateView} {row : ℕ} {x : LogisticsOrder} {date : Date}
      (houtput : st.output = .update .updateDepartureDate view) (henabled : view.isEnabled = true)
      (hrow : view.foundIndex = row) (hx : st.main.logisticsOrder[row]? = some x)
      (hdate : HoldsDate F (view.form .tfDepartureDate) date) :
      OrderChange st .button (.update row { x with departureDate := date })
  | orderItems {view : UpdateView} {row : ℕ} {x : LogisticsOrder} {line : OrderItem} {cost : ℤ}
      (houtput : st.output = .update .updateOrderItems view) (henabled : view.isEnabled = true)
      (hrow : view.foundIndex = row) (hx : st.main.logisticsOrder[row]? = some x)
      (hline : enteredLine .emptyApp st.main.items view.form = .ok line)
      (hcost : getOrderTotal [line] = .ok cost) :
      OrderChange st .button (.update row { x with itemsCarried := [line], cost := cost })
  | delete {form : Form Field} {row : ℕ} {x : LogisticsOrder}
      (houtput : st.output = .delete .order form) (hx : st.main.logisticsOrder[row]? = some x) :
      OrderChange st .button (.delete row)

variable {F}

section Steps
variable {st st' : AppState} {e : Event}

theorem create_orders {menu : Menu} {form : Form Field} {main' : MainView} {a : Alert}
    (houtput : st.output = .create menu form) (h : create F menu form st.main = .ok (main', a)) :
    ∃ edit, OrderChange F st .button edit ∧
      main'.logisticsOrder = edit.onList st.main.logisticsOrder := by
  cases menu with
  | item =>
    obtain ⟨item, -, h⟩ := bind_ok_iff.mp h
    obtain ⟨rfl, -⟩ := Prod.mk.inj (pure_ok_iff.mp h)
    exact ⟨.keep, .keep _, rfl⟩
  | location =>
    obtain ⟨location, -, h⟩ := bind_ok_iff.mp h
    obtain ⟨rfl, -⟩ := Prod.mk.inj (pure_ok_iff.mp h)
    exact ⟨.keep, .keep _, rfl⟩
  | order =>
    obtain ⟨order, horder, h⟩ := bind_ok_iff.mp h
    obtain ⟨rfl, -⟩ := Prod.mk.inj (pure_ok_iff.mp h)
    exact ⟨.create order, .create houtput horder, rfl⟩

theorem delete_orders {menu : Menu} {form : Form Field} {main' : MainView} {a : Alert}
    (houtput : st.output = .delete menu form) (h : delete menu form st.main = .ok (main', a)) :
    ∃ edit, OrderChange F st .button edit ∧
      main'.logisticsOrder = edit.onList st.main.logisticsOrder := by
  cases menu with
  | item =>
    obtain ⟨⟨items, id⟩, -, h⟩ := bind_ok_iff.mp h
    obtain ⟨rfl, -⟩ := Prod.mk.inj (pure_ok_iff.mp h)
    exact ⟨.keep, .keep _, rfl⟩
  | location =>
    obtain ⟨⟨locations, id⟩, -, h⟩ := bind_ok_iff.mp h
    obtain ⟨rfl, -⟩ := Prod.mk.inj (pure_ok_iff.mp h)
    exact ⟨.keep, .keep _, rfl⟩
  | order =>
    obtain ⟨⟨orders, id⟩, hdeletion, h⟩ := bind_ok_iff.mp h
    obtain ⟨rfl, -⟩ := Prod.mk.inj (pure_ok_iff.mp h)
    obtain ⟨row, x, hx, -, rfl⟩ := deletion_ok hdeletion
    exact ⟨.delete row, .delete houtput hx, rfl⟩

theorem Updater.update_orders {u : Updater} {view : UpdateView} {main' : MainView} {a : Alert}
    (houtput : st.output = .update u view) (henabled : view.isEnabled = true)
    (h : (u.controller F).update view st.main = .ok (main', a)) :
    ∃ edit, OrderChange F st .button edit ∧
      main'.logisticsOrder = edit.onList st.main.logisticsOrder := by
  obtain ⟨entered, row, x, y, hentered, hrow, hx, hy, rfl⟩ := Updater.update_ok h
  cases u with
  | updateItem => exact ⟨.keep, .keep _, rfl⟩
  | updateLocation => exact ⟨.keep, .keep _, rfl⟩
  | updateDepartureDate =>
    obtain ⟨date, hdate, hentered⟩ := bind_ok_iff.mp hentered
    obtain rfl := pure_ok_iff.mp hentered
    obtain rfl := Except.ok.inj hy
    exact ⟨_, .departureDate houtput henabled hrow hx (enteredDate_ok_iff.mp hdate), rfl⟩
  | updateOrderItems =>
    obtain ⟨line, hline, hentered⟩ := bind_ok_iff.mp hentered
    obtain ⟨cost, hcost, hentered⟩ := bind_ok_iff.mp hentered
    obtain rfl := pure_ok_iff.mp hentered
    obtain rfl := Except.ok.inj hy
    exact ⟨_, .orderItems houtput henabled hrow hx hline (trapping_ok_iff.mp hcost), rfl⟩

theorem submenuStep_main (st : AppState) (menu : Menu) (e : Event) :
    (submenuStep st menu e).main = st.main := by
  unfold submenuStep
  split
  case h_3 | h_5 | h_6 => split_ifs <;> rfl
  all_goals rfl

theorem outputStep_orders (h : outputStep F st st.output e = .ok st') :
    ∃ edit, OrderChange F st e edit ∧
      st'.main.logisticsOrder = edit.onList st.main.logisticsOrder := by
  have hkeep : ∀ {main' : MainView}, main' = st.main → ∃ edit, OrderChange F st e edit ∧
      main'.logisticsOrder = edit.onList st.main.logisticsOrder := by
    rintro main' rfl
    exact ⟨.keep, .keep e, rfl⟩
  generalize houtput : st.output = output at h
  unfold outputStep at h
  split at h
  case h_2 =>
    rcases settle_ok h with ⟨r, hr, rfl⟩ | ⟨alerts, rfl⟩
    · exact create_orders houtput hr
    · exact hkeep rfl
  case h_4 | h_9 | h_11 =>
    rcases settle_ok h with ⟨r, -, rfl⟩ | ⟨alerts, rfl⟩ <;> exact hkeep rfl
  case h_5 =>
    split_ifs at h with henabled
    · rcases settle_ok h with ⟨r, hr, rfl⟩ | ⟨alerts, rfl⟩
      · exact Updater.update_orders houtput henabled hr
      · exact hkeep rfl
    · obtain rfl := Except.ok.inj h
      exact hkeep rfl
  case h_7 =>
    rcases settle_ok h with ⟨r, hr, rfl⟩ | ⟨alerts, rfl⟩
    · exact delete_orders houtput hr
    · exact hkeep rfl
  all_goals
    obtain rfl := Except.ok.inj h
    exact hkeep rfl

theorem step_orders (h : step F st e = .ok st') :
    ∃ edit, OrderChange F st e edit ∧
      st'.main.logisticsOrder = edit.onList st.main.logisticsOrder := by
  unfold step at h
  split at h
  case h_1 =>
    obtain rfl := Except.ok.inj h
    exact ⟨.keep, .keep _, rfl⟩
  case h_2 | h_3 | h_4 => exact outputStep_orders h
  case h_5 =>
    obtain rfl := Except.ok.inj h
    refine ⟨.keep, .keep _, ?_⟩
    cases st.menu with
    | none => rfl
    | some menu => exact congrArg MainView.logisticsOrder (submenuStep_main st menu e)

end Steps

variable (F)

/-- A tap that updates a departure date finds a date that is in time. -/
def UpdatesInTime (st : AppState) (e : Event) : Prop :=
  match st.output, e with
  | .update .updateDepartureDate view, .button => view.isEnabled = true →
    DepartsInTime F (view.form .tfDepartureDate) st.main.logisticsOrder view.foundIndex
  | _, _ => True

variable {F}

section Dates
variable {st : AppState} {e : Event}

theorem OrderChange.datesInOrder {edit : Edit LogisticsOrder} (h : OrderChange F st e edit)
    (hst : DatesInOrder st.main.logisticsOrder) (hc : UpdatesInTime F st e) :
    DatesInOrder (edit.onList st.main.logisticsOrder) := by
  refine hst.onList ?_
  rintro o (rfl | ⟨row, rfl⟩)
  · cases h with
    | create _ horder => exact (createOrder_ok F _ horder).dates
  · cases h with
    | departureDate houtput henabled hrow hx hdate =>
      have horder := (subscript_natCast _ _).mpr hx
      rw [← hrow] at horder
      unfold UpdatesInTime at hc
      rw [houtput] at hc
      have hle := hc henabled _ _ hdate horder
      exact hle
    | orderItems _ _ _ hx =>
      have hold := hst _ (List.mem_of_getElem? hx)
      exact hold

theorem step_departureDate {view : UpdateView}
    (houtput : st.output = .update .updateDepartureDate view) (henabled : view.isEnabled = true)
    {date : Date} (hdate : HoldsDate F (view.form .tfDepartureDate) date) {order : LogisticsOrder}
    (horder : subscript st.main.logisticsOrder view.foundIndex = .ok order) :
    ∃ st', step F st .button = .ok st' ∧
      { order with departureDate := date } ∈ st'.main.logisticsOrder := by
  obtain ⟨main, menu, _, alerts⟩ := st
  obtain rfl := houtput
  obtain ⟨row, hrow, hx⟩ := subscript_ok_iff.mp horder
  have hentered : (updateDepartureDate F).entered main.items view.form =
      .ok fun o => .ok { o with departureDate := date } :=
    bind_ok_iff.mpr ⟨date, enteredDate_ok_iff.mpr hdate, rfl⟩
  have hchange : (updateDepartureDate F).change main.items main.logisticsOrder view.form
      view.foundIndex = .ok (_, _) :=
    ChangeScreen.change_ok_iff.mpr ⟨_, row, order, hentered, hrow, hx, rfl, rfl⟩
  have hupdate : (Updater.controller F .updateDepartureDate).update view main = .ok (_, _) :=
    bind_ok_iff.mpr ⟨_, hchange, rfl⟩
  refine ⟨_, (if_pos henabled).trans (congrArg _ hupdate), ?_⟩
  exact List.mem_set (List.getElem?_eq_some_iff.mp hx).choose _

theorem step_datesInOrder_iff (hst : DatesInOrder st.main.logisticsOrder) :
    (∀ st', step F st e = .ok st' → DatesInOrder st'.main.logisticsOrder) ↔
      UpdatesInTime F st e := by
  constructor
  · intro h
    unfold UpdatesInTime
    split
    case h_1 view houtput =>
      intro henabled date order hdate horder
      obtain ⟨st', hstep, hmem⟩ := step_departureDate houtput henabled hdate horder
      exact h st' hstep _ hmem
    case h_2 => trivial
  · intro hc st' hstep
    obtain ⟨edit, hedit, harray⟩ := step_orders hstep
    rw [harray]
    exact hedit.datesInOrder hst hc

end Dates

/-- In both apps, a run that starts with no order arriving before it departs passes only through
such states if and only if every update of a departure date, with the button open and a date in the
field, enters a date that is not after the arrival of the order at the remembered index. -/
theorem run_datesInOrder_iff (F : DateFormatter) :
    (∀ (st : Assignment8.AppState) (inputs : List Assignment8.Input),
      DatesInOrder st.store.logisticsOrder →
      ((Assignment8.step F).Always (fun st => DatesInOrder st.store.logisticsOrder) st inputs ↔
        (Assignment8.step F).Meets (Assignment8.UpdatesInTime F) st inputs)) ∧
    ∀ (st : AppState) (events : List Event), DatesInOrder st.main.logisticsOrder →
      ((step F).Always (fun st => DatesInOrder st.main.logisticsOrder) st events ↔
        (step F).Meets (UpdatesInTime F) st events) := by
  constructor
  · exact fun st inputs hst =>
      Machine.always_iff_meets_of_step (fun _ _ => Assignment8.step_datesInOrder_iff) hst
  · exact fun st events hst =>
      Machine.always_iff_meets_of_step (fun _ _ => step_datesInOrder_iff) hst

namespace Sample

def departOnArrival : List Event :=
  [.getMenu .order, .updateTap .updateDepartureDate, .type .tfOrderId "21", .fetchButton,
    .type .tfDepartureDate "07-21-2023", .button]

def departOnArrival8 : List Assignment8.Input :=
  [⟨.onButtonClicked .order, true⟩, ⟨.presentChange .updateDepartureDate, true⟩,
    ⟨.type .tfOrderId "21", true⟩, ⟨.btnFetchTap, true⟩,
    ⟨.type .tfDepartureDate "07-21-2023", true⟩, ⟨.btnTap, true⟩]

def departLate : List Event := [.type .tfDepartureDate "09-21-2023", .button]

def departLate8 : List Assignment8.Input :=
  [⟨.type .tfDepartureDate "09-21-2023", true⟩, ⟨.btnTap, true⟩]

end Sample

/-- Both apps accept the later date. -/
theorem run_departLate :
    (∃ st st', (Assignment8.step .utc).run (Assignment8.AppState.launch Assignment8.Sample.database)
        Sample.departOnArrival8 = .ok st ∧
      DatesInOrder st.store.logisticsOrder ∧
      (Assignment8.step .utc).run st Sample.departLate8 = .ok st' ∧
      ¬ DatesInOrder st'.store.logisticsOrder) ∧
    ∃ st st', (step .utc).run (AppState.launch .utc 0) Sample.departOnArrival = .ok st ∧
      DatesInOrder st.main.logisticsOrder ∧ (step .utc).run st Sample.departLate = .ok st' ∧
      ¬ DatesInOrder st'.main.logisticsOrder :=
  ⟨⟨_, _, rfl, by decide, rfl, by decide⟩, _, _, rfl, by decide, rfl, by decide⟩

/-- A tap that enters the day of the arrival again. -/
theorem run_datesInOrder_iff_onArrival :
    (∃ st, (Assignment8.step .utc).run (Assignment8.AppState.launch Assignment8.Sample.database)
        Sample.departOnArrival8 = .ok st ∧
      (Assignment8.step .utc).Always (fun st => DatesInOrder st.store.logisticsOrder) st
        [⟨.btnTap, true⟩]) ∧
    ∃ st, (step .utc).run (AppState.launch .utc 0) Sample.departOnArrival = .ok st ∧
      (step .utc).Always (fun st => DatesInOrder st.main.logisticsOrder) st [.button] := by
  refine ⟨⟨_, rfl, ((run_datesInOrder_iff .utc).1 _ _ (by decide)).mpr (.cons ?_ rfl trivial)⟩,
    _, rfl, ((run_datesInOrder_iff .utc).2 _ _ (by decide)).mpr (.cons ?_ rfl trivial)⟩
  · rintro date order ⟨text, htext, -, hdate⟩ horder
    obtain rfl := Option.some.inj htext
    obtain rfl := Option.some.inj hdate
    obtain rfl := Except.ok.inj horder
    decide
  · rintro - date order ⟨text, htext, -, hdate⟩ horder
    obtain rfl := Option.some.inj htext
    obtain rfl := Option.some.inj hdate
    obtain rfl := Except.ok.inj horder
    decide

end Info6350.EmptyApp
