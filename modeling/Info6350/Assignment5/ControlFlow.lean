import Info6350.Assignment5.InputLoops

/-! # What a function goes on with

A function ends in a call, in the loop over the results of a search, or in a return.  Most calls
carry nothing; those of the loops carry what has been entered so far, and where it comes from is
read off here once for all functions.
-/

namespace Info6350.Assignment5
open Library Swift

/-- What a function can go on with, from the process that it starts with. -/
inductive Follows (P : Platform) (p : Process Globals) : Control → Next → Prop
  | plain {c c' : Control} (hplain : c'.isLoop = false) : Follows P p c (.call c')
  | returned {c : Control} : Follows P p c .returned
  | createOrder (fromLocation toLocation : Option Location) :
      Follows P p .createOrder (.call (.getDateFromUser
        (.createOrderArrival (enteredInt p.stdin) fromLocation toLocation)))
  | updateDepartureDate (orderId : ℤ) :
      Follows P p .updateDepartureDate (.call (.getDateFromUser (.updateDepartureDate orderId)))
  | searchByDate : Follows P p .searchByDate (.call (.getDateFromUser .searchByDate))
  | updateItems (orderIndex : ℕ) :
      Follows P p .updateItems (.call (.enterItems (.updateItems orderIndex) []))
  | invalidDate (caller : DateCaller) :
      Follows P p (.getDateFromUser caller) (.call (.getDateFromUser caller))
  | arrival (orderId : ℤ) (fromLocation toLocation : Option Location) (arrivalDate : Date) :
      Follows P p (.getDateFromUser (.createOrderArrival orderId fromLocation toLocation))
        (.call (.getDateFromUser
          (.createOrderDeparture orderId fromLocation toLocation arrivalDate)))
  | departure (orderId : ℤ) (fromLocation toLocation : Option Location)
      (arrivalDate departureDate : Date) :
      Follows P p
        (.getDateFromUser (.createOrderDeparture orderId fromLocation toLocation arrivalDate))
        (.call (.enterItems
          (.createOrder orderId fromLocation toLocation arrivalDate departureDate) []))
  | round (caller : ItemsCaller) (orderItems orderItems' : List OrderItem) :
      Follows P p (.enterItems caller orderItems) (.call (.enterItems caller orderItems'))
  | foundByLocation : Follows P p .searchByLocation (.search
      (p.globals.logisticsOrder.filter fun order =>
        order.toLocation.id = enteredInt p.stdin ∨ order.fromLocation.id = enteredInt p.stdin))
  | foundByDate {date : Date} (hdate : P.date (p.stdin.head?.getD "") = some date) :
      Follows P p (.getDateFromUser .searchByDate) (.search
        (p.globals.logisticsOrder.filter fun order =>
          order.departureDate = date ∨ order.estimatedArrivalDate = date))

section Runs
variable {P : Platform} {p q : Process Globals} {c : Control} {next : Next}

theorem follows_of_ok {next' : Next} {q' : Process Globals}
    (h : (Except.ok (next', q') : Except Halt (Next × Process Globals)) = .ok (next, q))
    (hfollows : Follows P p c next') : Follows P p c next := by
  obtain ⟨rfl, -⟩ := Prod.mk.inj (Except.ok.inj h)
  exact hfollows

theorem menu_follows
    (hc : c = .mainMenu ∨ c = .locationMenu ∨ c = .itemMenu ∨ c = .logisticsOrderMenu)
    (h : c.run P p = .ok (next, q)) : Follows P p c next := by
  obtain ⟨-, rfl | ⟨c', rfl, hplain⟩⟩ := menu_ok hc h
  · exact .returned
  · exact .plain hplain

theorem deleteRecord_follows {α : Type} [Keyed α ℤ] {K : GlobalArray α}
    {prompt deleted failed : String} {menu : Control} (hmenu : menu.isLoop = false)
    (h : deleteRecord K prompt deleted failed menu p = .ok (next, q)) : Follows P p c next := by
  simp only [deleteRecord, Program.print_bind, readInt_bind, Program.globals_bind] at h
  generalize firstIndex (K.array p.globals) (enteredInt p.stdin) = index at h
  cases index <;> exact follows_of_ok h (.plain hmenu)

theorem showFound_follows {p' : Process Globals} {orders : List LogisticsOrder}
    (h : showFound orders p' = .ok (next, q)) (hfound : Follows P p c (.search orders)) :
    Follows P p c next := by
  unfold showFound at h
  split_ifs at h
  · exact follows_of_ok h hfound
  · exact follows_of_ok h (.plain rfl)

theorem useDate_follows {caller : DateCaller} {date : Date} {p' : Process Globals}
    (hdate : P.date (p.stdin.head?.getD "") = some date)
    (h : useDate caller date p' = .ok (next, q)) (hp' : p'.globals = p.globals) :
    Follows P p (.getDateFromUser caller) next := by
  cases caller with
  | createOrderArrival => exact follows_of_ok h (.arrival _ _ _ _)
  | createOrderDeparture => exact follows_of_ok h (.departure _ _ _ _ _)
  | updateDepartureDate orderId =>
    simp only [useDate, Program.globals_bind] at h
    generalize firstIndex p'.globals.logisticsOrder orderId = index at h
    cases index <;> exact follows_of_ok h (.plain rfl)
  | searchByDate =>
    simp only [useDate, Program.globals_bind, hp'] at h
    exact showFound_follows h (.foundByDate hdate)

theorem run_follows (h : c.run P p = .ok (next, q)) : Follows P p c next := by
  cases c with
  | mainMenu => exact menu_follows (.inl rfl) h
  | locationMenu => exact menu_follows (.inr (.inl rfl)) h
  | itemMenu => exact menu_follows (.inr (.inr (.inl rfl))) h
  | logisticsOrderMenu => exact menu_follows (.inr (.inr (.inr rfl))) h
  | createOrder =>
    simp only [Control.run, createOrder, Program.print_bind, readInt_bind] at h
    obtain ⟨_, _, -, h⟩ := Program.bind_ok_iff.mp h
    obtain ⟨_, _, -, h⟩ := Program.bind_ok_iff.mp h
    exact follows_of_ok h (.createOrder _ _)
  | getDateFromUser caller =>
    cases hdate : P.date (p.stdin.head?.getD "") with
    | none => exact follows_of_ok ((run_invalidDate hdate).symm.trans h) (.invalidDate caller)
    | some date => exact useDate_follows hdate ((run_validDate caller hdate).symm.trans h) rfl
  | enterItems caller orderItems =>
    by_cases hstop : enteredInt p.stdin = 99
    · obtain rfl := stopCode_next hstop h
      exact .plain rfl
    · obtain ⟨printed, -, hrun⟩ := run_enterItems (P := P) caller orderItems hstop
      exact follows_of_ok (hrun.symm.trans h) (.round _ _ _)
  | updateDepartureDate => exact follows_of_ok h (.updateDepartureDate _)
  | updateItems =>
    simp only [Control.run, updateItems, Program.print_bind, readInt_bind,
      Program.globals_bind] at h
    generalize firstIndex p.globals.logisticsOrder (enteredInt p.stdin) = index at h
    cases index with
    | none => exact follows_of_ok h (.plain rfl)
    | some orderIndex => exact follows_of_ok h (.updateItems orderIndex)
  | updateLocation =>
    simp only [Control.run, updateLocation, Program.print_bind, readInt_bind, readText_bind,
      Program.globals_bind] at h
    generalize firstIndex p.globals.locations (enteredInt p.stdin) = index at h
    cases index <;> exact follows_of_ok h (.plain rfl)
  | updateItem =>
    simp only [Control.run, updateItem, Program.print_bind, readInt_bind, readText_bind,
      Program.globals_bind] at h
    generalize firstIndex p.globals.items (enteredInt p.stdin) = index at h
    cases index <;> exact follows_of_ok h (.plain rfl)
  | deleteLocation => exact deleteRecord_follows rfl h
  | deleteItem => exact deleteRecord_follows rfl h
  | deleteOrder => exact deleteRecord_follows rfl h
  | searchByDate => exact follows_of_ok h .searchByDate
  | searchByLocation =>
    simp only [Control.run, searchByLocation, Program.print_bind, readInt_bind,
      Program.globals_bind] at h
    exact showFound_follows h .foundByLocation
  | _ => exact follows_of_ok h (.plain rfl)

end Runs
end Info6350.Assignment5
