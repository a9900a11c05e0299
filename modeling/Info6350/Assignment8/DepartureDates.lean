import Info6350.Assignment8.OrderChanges

/-! # Orders that arrive before they depart

The create screen compares the two dates of an order.  The screen that updates the departure date
does not, and the arrival date has no screen of its own.
-/

namespace Info6350.Assignment8
open Library Swift Logistics TextApp

variable (F : DateFormatter)

/-- No order arrives before it departs. -/
def DatesInOrder (orders : List LogisticsOrder) : Prop :=
  ∀ o ∈ orders, o.departureDate ≤ o.estimatedArrivalDate

instance : DecidablePred DatesInOrder :=
  fun orders => inferInstanceAs (Decidable (∀ o ∈ orders, o.departureDate ≤ o.estimatedArrivalDate))

/-- The date in a field, if it is one, is not after the arrival of the order at an index. -/
def DepartsInTime (tf : UITextField) (orders : List LogisticsOrder) (foundIndex : ℤ) : Prop :=
  ∀ date order, HoldsDate F tf date → subscript orders foundIndex = .ok order →
    date ≤ order.estimatedArrivalDate

/-- A tap that updates a departure date finds a date that is in time. -/
def UpdatesInTime (st : AppState) (i : Input) : Prop :=
  match st.screen, i.event with
  | .change .updateDepartureDate scr, .btnTap =>
    DepartsInTime F (scr.form .tfDepartureDate) st.store.logisticsOrder scr.foundIndex
  | _, _ => True

variable {F}

theorem DatesInOrder.onList {orders : List LogisticsOrder} (h : DatesInOrder orders)
    {e : Edit LogisticsOrder}
    (he : ∀ o, e = .create o ∨ (∃ row, e = .update row o) →
      o.departureDate ≤ o.estimatedArrivalDate) : DatesInOrder (e.onList orders) := by
  intro o ho
  rcases Edit.mem_onList ho with ho | hwrites
  · exact h o ho
  · exact he o hwrites

section Steps
variable {st st' : AppState} {i : Input}

theorem OrderChange.datesInOrder {e : Edit LogisticsOrder} (h : OrderChange F st i e)
    (hst : DatesInOrder st.store.logisticsOrder) (hc : UpdatesInTime F st i) :
    DatesInOrder (e.onList st.store.logisticsOrder) := by
  refine hst.onList ?_
  rintro o (rfl | ⟨row, rfl⟩)
  · cases h with
    | create _ _ horder => exact (createOrder_ok F _ horder).dates
  · cases h with
    | departureDate _ hscreen hrow hx hdate =>
      have horder := (subscript_natCast _ _).mpr hx
      rw [← hrow] at horder
      unfold UpdatesInTime at hc
      rw [hscreen] at hc
      have hle := hc _ _ hdate horder
      exact hle
    | orderItem _ _ _ hx =>
      have hold := hst _ (List.mem_of_getElem? hx)
      exact hold
    | addItem _ _ _ hx =>
      have hold := hst _ (List.mem_of_getElem? hx)
      exact hold

theorem step_departureDate {scr : FetchState} (hscreen : st.screen = .change .updateDepartureDate scr)
    (written : Bool) {date : Date} (hdate : HoldsDate F (scr.form .tfDepartureDate) date)
    {order : LogisticsOrder} (horder : subscript st.store.logisticsOrder scr.foundIndex = .ok order) :
    ∃ st', step F st ⟨.btnTap, written⟩ = .ok st' ∧
      { order with departureDate := date } ∈ st'.store.logisticsOrder := by
  obtain ⟨row, hrow, hx⟩ := subscript_ok_iff.mp horder
  have hentered : (Changer.controller F .updateDepartureDate).screen.entered st.store.items
      scr.form = .ok fun o => .ok { o with departureDate := date } :=
    bind_ok_iff.mpr ⟨date, enteredDate_ok_iff.mpr hdate, rfl⟩
  have htap : (Changer.controller F .updateDepartureDate).btnUpdateTap written scr st.store =
      .ok (_, _) :=
    ChangeController.btnUpdateTap_ok_iff.mpr ⟨_, row, order, _, hentered, hrow, hx, rfl, rfl, rfl⟩
  refine ⟨_, (step_btnTap hscreen written).trans (congrArg _ htap), ?_⟩
  exact List.mem_set (List.getElem?_eq_some_iff.mp hx).choose _

theorem step_datesInOrder_iff (hst : DatesInOrder st.store.logisticsOrder) :
    (∀ st', step F st i = .ok st' → DatesInOrder st'.store.logisticsOrder) ↔
      UpdatesInTime F st i := by
  constructor
  · intro h
    unfold UpdatesInTime
    split
    case h_1 scr hscreen hevent =>
      obtain ⟨event, written⟩ := i
      obtain rfl : event = .btnTap := hevent
      intro date order hdate horder
      obtain ⟨st', hstep, hmem⟩ := step_departureDate hscreen written hdate horder
      exact h st' hstep _ hmem
    case h_2 => trivial
  · intro hc st' hstep
    obtain ⟨e, he, harray, -⟩ := step_orders hstep
    rw [harray]
    exact he.datesInOrder hst hc

end Steps

end Info6350.Assignment8
