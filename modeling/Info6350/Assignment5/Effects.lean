import Info6350.Assignment5.Program

/-! # What the functions do to the arrays

Each function creates, changes or removes at most one record of one array; the menus, the
prompts and the searches only read.
-/

namespace Info6350.Assignment5
open Library Swift Logistics

/-- The attempts at a date and the rounds over items carry entries with them. -/
def Control.isLoop : Control → Bool
  | .getDateFromUser _ | .enterItems _ _ => true
  | _ => false

section Functions
variable {P : Platform} {p q : Process Globals} {next : Next}

theorem menu_ok {c : Control}
    (hc : c = .mainMenu ∨ c = .locationMenu ∨ c = .itemMenu ∨ c = .logisticsOrderMenu)
    (h : c.run P p = .ok (next, q)) :
    q.globals = p.globals ∧ (next = .returned ∨ ∃ c', next = .call c' ∧ c'.isLoop = false) := by
  rcases hc with rfl | rfl | rfl | rfl
  all_goals
    simp only [Control.run, mainMenu, locationMenu, itemMenu, logisticsOrderMenu,
      Program.print_bind, readOption_bind] at h
    generalize chosen p.stdin = option at h
    split at h <;> cases h
  all_goals first
    | exact ⟨rfl, .inl rfl⟩
    | exact ⟨rfl, .inr ⟨_, rfl, rfl⟩⟩

/-- A delete removes the first record with the id that is read. -/
theorem deleteRecord_ok {α : Type} [Keyed α ℤ] {K : GlobalArray α}
    {prompt deleted failed : String} {menu : Control}
    (h : deleteRecord K prompt deleted failed menu p = .ok (next, q)) :
    (∃ index, firstIndex (K.array p.globals) (enteredInt p.stdin) = some index ∧
      q.globals = K.assign ((K.array p.globals).eraseIdx index) p.globals) ∨
    firstIndex (K.array p.globals) (enteredInt p.stdin) = none ∧ q.globals = p.globals := by
  simp only [deleteRecord, Program.print_bind, readInt_bind, Program.globals_bind] at h
  cases hindex : firstIndex (K.array p.globals) (enteredInt p.stdin) with
  | some index =>
    rw [hindex] at h
    obtain ⟨-, rfl⟩ := Prod.mk.inj (Except.ok.inj h)
    exact .inl ⟨index, rfl, rfl⟩
  | none =>
    rw [hindex] at h
    obtain ⟨-, rfl⟩ := Prod.mk.inj (Except.ok.inj h)
    exact .inr ⟨rfl, rfl⟩

theorem readLocation_ok {prompt : String} {location : Option Location}
    (h : readLocation P prompt p = .ok (location, q)) :
    location = lookup p.globals.locations (enteredInt p.stdin) ∧ q.globals = p.globals ∧
      q.stdin = p.stdin.tail := by
  simp only [readLocation, Program.print_bind, readInt_bind, Program.globals_bind] at h
  cases hlocation : lookup p.globals.locations (enteredInt p.stdin) with
  | some _ =>
    rw [hlocation] at h
    obtain ⟨rfl, rfl⟩ := Prod.mk.inj (Except.ok.inj h)
    exact ⟨rfl, rfl, rfl⟩
  | none =>
    rw [hlocation] at h
    obtain ⟨rfl, rfl⟩ := Prod.mk.inj (Except.ok.inj h)
    exact ⟨rfl, rfl, rfl⟩

theorem createOrder_globals (h : createOrder P p = .ok (next, q)) : q.globals = p.globals := by
  simp only [createOrder, Program.print_bind, readInt_bind] at h
  obtain ⟨fromLocation, p₁, hfrom, h⟩ := Program.bind_ok_iff.mp h
  obtain ⟨toLocation, p₂, hto, h⟩ := Program.bind_ok_iff.mp h
  obtain ⟨-, rfl⟩ := Prod.mk.inj (Except.ok.inj h)
  exact (readLocation_ok hto).2.1.trans (readLocation_ok hfrom).2.1

theorem showFound_globals {orders : List LogisticsOrder}
    (h : showFound orders p = .ok (next, q)) : q.globals = p.globals := by
  unfold showFound at h
  split_ifs at h
  all_goals
    obtain ⟨-, rfl⟩ := Prod.mk.inj (Except.ok.inj h)
    rfl

theorem searchByLocation_globals (h : searchByLocation p = .ok (next, q)) :
    q.globals = p.globals := by
  simp only [searchByLocation, Program.print_bind, readInt_bind, Program.globals_bind] at h
  exact (showFound_globals h).trans rfl

theorem appendOrder_ok {orderId : ℤ} {fromLocation toLocation : Option Location}
    {arrivalDate departureDate : Date} {orderItems : List OrderItem}
    (h : appendOrder orderId fromLocation toLocation arrivalDate departureDate orderItems p =
      .ok (next, q)) :
    ∃ l m, fromLocation = some l ∧ toLocation = some m ∧
      q.globals = { p.globals with logisticsOrder := p.globals.logisticsOrder ++
        [⟨orderId, l, m, arrivalDate, departureDate, orderSum orderItems, orderItems⟩] } := by
  obtain ⟨orderCost, hcost, h⟩ := Program.evaluate_bind_ok_iff.mp h
  obtain ⟨l, hl, h⟩ := Program.evaluate_bind_ok_iff.mp h
  obtain ⟨m, hm, h⟩ := Program.evaluate_bind_ok_iff.mp h
  obtain ⟨-, rfl⟩ := Prod.mk.inj (Except.ok.inj h)
  obtain rfl := getOrderTotal_ok hcost
  exact ⟨l, m, unwrap_ok_iff.mp hl, unwrap_ok_iff.mp hm, rfl⟩

theorem replaceItems_ok {orderIndex : ℕ} {orderItems : List OrderItem}
    (h : replaceItems orderIndex orderItems p = .ok (next, q)) :
    q.globals = { p.globals with logisticsOrder :=
      p.globals.logisticsOrder.modify orderIndex fun order =>
        { order with itemsCarried := orderItems, cost := orderSum orderItems } } := by
  obtain ⟨orderCost, hcost, h⟩ := Program.evaluate_bind_ok_iff.mp h
  rw [Program.globals_bind] at h
  obtain ⟨orders, horders, h⟩ := Program.evaluate_bind_ok_iff.mp h
  obtain ⟨-, rfl⟩ := Prod.mk.inj (Except.ok.inj h)
  obtain rfl := getOrderTotal_ok hcost
  obtain ⟨-, rfl⟩ := modifyAt_natCast.mp horders
  rfl

theorem enterItems_ok {caller : ItemsCaller} {orderItems : List OrderItem}
    (h : enterItems caller orderItems p = .ok (next, q)) :
    (enteredInt p.stdin = 99 ∧ match caller with
      | .createOrder orderId fromLocation toLocation arrivalDate departureDate =>
        ∃ l m, fromLocation = some l ∧ toLocation = some m ∧
          q.globals = { p.globals with logisticsOrder := p.globals.logisticsOrder ++
            [⟨orderId, l, m, arrivalDate, departureDate, orderSum orderItems, orderItems⟩] }
      | .updateItems orderIndex =>
        q.globals = { p.globals with logisticsOrder :=
          p.globals.logisticsOrder.modify orderIndex fun order =>
            { order with itemsCarried := orderItems, cost := orderSum orderItems } }) ∨
    enteredInt p.stdin ≠ 99 ∧ q.globals = p.globals := by
  simp only [enterItems, Program.print_bind, readInt_bind] at h
  split_ifs at h with hstop
  · refine .inl ⟨hstop, ?_⟩
    cases caller with
    | createOrder =>
      have happend := appendOrder_ok h
      exact happend
    | updateItems =>
      have hreplace := replaceItems_ok h
      exact hreplace
  · refine .inr ⟨hstop, ?_⟩
    simp only [Program.print_bind, readInt_bind, Program.globals_bind] at h
    generalize lookup p.globals.items (enteredInt p.stdin) = item at h
    cases item <;> obtain ⟨-, rfl⟩ := Prod.mk.inj (Except.ok.inj h) <;> rfl

theorem updateItems_globals (h : updateItems p = .ok (next, q)) : q.globals = p.globals := by
  simp only [updateItems, Program.print_bind, readInt_bind, Program.globals_bind] at h
  generalize firstIndex p.globals.logisticsOrder (enteredInt p.stdin) = orderIndex at h
  cases orderIndex <;> obtain ⟨-, rfl⟩ := Prod.mk.inj (Except.ok.inj h) <;> rfl

theorem updateLocation_ok (h : updateLocation p = .ok (next, q)) :
    q.globals = p.globals ∨ ∃ locationIndex street city state country zip,
      firstIndex p.globals.locations (enteredInt p.stdin) = some locationIndex ∧
      q.globals = { p.globals with
        locations := p.globals.locations.modify locationIndex fun location =>
          ⟨location.id, street, city, state, country, zip⟩ } := by
  simp only [updateLocation, Program.print_bind, readInt_bind, readText_bind,
    Program.globals_bind] at h
  cases hindex : firstIndex p.globals.locations (enteredInt p.stdin) with
  | some locationIndex =>
    rw [hindex] at h
    obtain ⟨-, rfl⟩ := Prod.mk.inj (Except.ok.inj h)
    exact .inr ⟨locationIndex, _, _, _, _, _, rfl, rfl⟩
  | none =>
    rw [hindex] at h
    obtain ⟨-, rfl⟩ := Prod.mk.inj (Except.ok.inj h)
    exact .inl rfl

theorem updateItem_ok (h : updateItem p = .ok (next, q)) :
    q.globals = p.globals ∨ ∃ itemIndex name desc weight value,
      firstIndex p.globals.items (enteredInt p.stdin) = some itemIndex ∧
      q.globals = { p.globals with
        items := p.globals.items.modify itemIndex fun item =>
          ⟨item.id, name, desc, weight, value⟩ } := by
  simp only [updateItem, Program.print_bind, readInt_bind, readText_bind,
    Program.globals_bind] at h
  cases hindex : firstIndex p.globals.items (enteredInt p.stdin) with
  | some itemIndex =>
    rw [hindex] at h
    obtain ⟨-, rfl⟩ := Prod.mk.inj (Except.ok.inj h)
    exact .inr ⟨itemIndex, _, _, _, _, rfl, rfl⟩
  | none =>
    rw [hindex] at h
    obtain ⟨-, rfl⟩ := Prod.mk.inj (Except.ok.inj h)
    exact .inl rfl

/-- Of the callers of `getDateFromUser()` only `updateDepartureDate()` writes. -/
theorem useDate_ok {caller : DateCaller} {date : Date}
    (h : useDate caller date p = .ok (next, q)) :
    q.globals = p.globals ∨ ∃ orderId orderIndex, caller = .updateDepartureDate orderId ∧
      firstIndex p.globals.logisticsOrder orderId = some orderIndex ∧
      q.globals = { p.globals with logisticsOrder :=
        p.globals.logisticsOrder.modify orderIndex fun order =>
          { order with departureDate := date } } := by
  cases caller with
  | createOrderArrival =>
    obtain ⟨-, rfl⟩ := Prod.mk.inj (Except.ok.inj h)
    exact .inl rfl
  | createOrderDeparture =>
    obtain ⟨-, rfl⟩ := Prod.mk.inj (Except.ok.inj h)
    exact .inl rfl
  | updateDepartureDate orderId =>
    simp only [useDate, Program.globals_bind] at h
    cases hindex : firstIndex p.globals.logisticsOrder orderId with
    | some orderIndex =>
      rw [hindex] at h
      obtain ⟨-, rfl⟩ := Prod.mk.inj (Except.ok.inj h)
      exact .inr ⟨orderId, orderIndex, rfl, hindex, rfl⟩
    | none =>
      rw [hindex] at h
      obtain ⟨-, rfl⟩ := Prod.mk.inj (Except.ok.inj h)
      exact .inl rfl
  | searchByDate => exact .inl (showFound_globals h)

theorem getDateFromUser_ok {caller : DateCaller}
    (h : getDateFromUser P caller p = .ok (next, q)) :
    q.globals = p.globals ∨ ∃ date orderId orderIndex, caller = .updateDepartureDate orderId ∧
      P.date (p.stdin.head?.getD "") = some date ∧
      firstIndex p.globals.logisticsOrder orderId = some orderIndex ∧
      q.globals = { p.globals with logisticsOrder :=
        p.globals.logisticsOrder.modify orderIndex fun order =>
          { order with departureDate := date } } := by
  simp only [getDateFromUser, readText_bind] at h
  cases hdate : P.date (p.stdin.head?.getD "") with
  | some date =>
    rw [hdate] at h
    rcases useDate_ok h with h | ⟨orderId, orderIndex, hcaller, hindex, h⟩
    · exact .inl h
    · exact .inr ⟨date, orderId, orderIndex, hcaller, rfl, hindex, h⟩
  | none =>
    rw [hdate] at h
    obtain ⟨-, rfl⟩ := Prod.mk.inj (Except.ok.inj h)
    exact .inl rfl

end Functions

/-! ## Steps -/

section Steps
variable {P : Platform} {st st' : State} {u : Unit}

theorem resume_ok {process : Process Globals} {stack : List (List LogisticsOrder)}
    (h : resume P process stack = .ok st') :
    st'.globals = process.globals ∧ st'.control = .logisticsOrderMenu := by
  induction stack with
  | nil => cases h
  | cons orders stack ih =>
    cases orders with
    | nil => exact ih h
    | cons order orders =>
      obtain rfl := Except.ok.inj h
      exact ⟨rfl, rfl⟩

theorem step_run (h : step P st u = .ok st') :
    ∃ next q, st.control.run P st.process = .ok (next, q) ∧ st'.globals = q.globals := by
  obtain ⟨⟨next, q⟩, hrun, h⟩ := bind_ok_iff.mp h
  refine ⟨next, q, hrun, ?_⟩
  cases next with
  | call c =>
    obtain rfl := Except.ok.inj h
    rfl
  | search orders => exact (resume_ok h).1
  | returned => exact (resume_ok h).1

end Steps
end Info6350.Assignment5
