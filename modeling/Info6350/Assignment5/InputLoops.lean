import Info6350.Library.Activation
import Info6350.Assignment5.Effects

/-! # Loops that read the input

`getDateFromUser()` calls itself until a line is a date, and the loops over items go on until the
stop code stands where an id is read.  At the end of the input every read returns a default, which
is not the stop code and, for a `DateFormatter`, not a date; the loops do not notice the end.
-/

namespace Info6350.Assignment5
open Library Swift Logistics

section Functions
variable {P : Platform} {p q : Process Globals} {c : Control} {stack : List (List LogisticsOrder)}

/-! ## Steps -/

theorem step_of_call (stack : List (List LogisticsOrder)) {c' : Control}
    (h : c.run P p = .ok (.call c', q)) :
    step P ⟨p, c, stack⟩ () = .ok ⟨q, c', stack⟩ :=
  bind_ok_iff.mpr ⟨_, h, rfl⟩

theorem step_of_error {x : Halt} (h : c.run P p = .error x) :
    step P ⟨p, c, stack⟩ () = .error x := bind_error_iff.mpr (.inl h)

/-! ## Dates -/

/-- The date that `getDateFromUser()` returns on an input, and the lines after it. -/
def enteredDate (P : Platform) : List String → Option (Date × List String)
  | [] => (P.date "").map fun date => (date, [])
  | text :: stdin =>
    match P.date text with
    | some date => some (date, stdin)
    | none => enteredDate P stdin

theorem enteredDate_of_date {stdin : List String} {date : Date}
    (h : P.date (stdin.head?.getD "") = some date) :
    enteredDate P stdin = some (date, stdin.tail) := by
  cases stdin with
  | nil => exact Option.map_eq_some_iff.mpr ⟨date, h, rfl⟩
  | cons text stdin =>
    rw [enteredDate]
    change P.date text = some date at h
    rw [h]
    rfl

theorem enteredDate_of_none {stdin : List String} (h : P.date (stdin.head?.getD "") = none) :
    enteredDate P stdin = enteredDate P stdin.tail := by
  cases stdin with
  | nil => rfl
  | cons text stdin =>
    rw [enteredDate]
    change P.date text = none at h
    rw [h]
    rfl

theorem run_invalidDate {caller : DateCaller} (h : P.date (p.stdin.head?.getD "") = none) :
    (Control.getDateFromUser caller).run P p = .ok (.call (.getDateFromUser caller),
      ⟨p.globals, p.stdin.tail, p.stdout ++ ["Invalid date. Enter again"]⟩) := by
  change getDateFromUser P caller p = _
  simp only [getDateFromUser, readText_bind]
  rw [h]
  rfl

theorem step_invalidDate {caller : DateCaller} (h : P.date (p.stdin.head?.getD "") = none) :
    step P ⟨p, .getDateFromUser caller, stack⟩ () =
      .ok ⟨⟨p.globals, p.stdin.tail, p.stdout ++ ["Invalid date. Enter again"]⟩,
        .getDateFromUser caller, stack⟩ :=
  step_of_call stack (run_invalidDate h)

theorem run_validDate (caller : DateCaller) {date : Date}
    (h : P.date (p.stdin.head?.getD "") = some date) :
    (Control.getDateFromUser caller).run P p =
      useDate caller date { p with stdin := p.stdin.tail } := by
  change getDateFromUser P caller p = _
  simp only [getDateFromUser, readText_bind]
  rw [h]

theorem passes_date {Inside : State → Prop} {caller : DateCaller} {date : Date}
    {rest : List String} (hin : ∀ p, Inside ⟨p, .getDateFromUser caller, stack⟩)
    (h : enteredDate P p.stdin = some (date, rest)) :
    ∃ q, (step P).Passes Inside ⟨p, .getDateFromUser caller, stack⟩
        ⟨q, .getDateFromUser caller, stack⟩ ∧
      q.globals = p.globals ∧ P.date (q.stdin.head?.getD "") = some date ∧
      q.stdin.tail = rest := by
  obtain ⟨g, stdin, stdout⟩ := p
  induction stdin generalizing stdout with
  | nil =>
    obtain ⟨d, hd, heq⟩ := Option.map_eq_some_iff.mp h
    obtain ⟨rfl, rfl⟩ := Prod.mk.inj heq
    exact ⟨_, .refl, rfl, hd, rfl⟩
  | cons text stdin ih =>
    rw [enteredDate] at h
    cases htext : P.date text with
    | some d =>
      rw [htext] at h
      obtain ⟨rfl, rfl⟩ := Prod.mk.inj (Option.some.inj h)
      exact ⟨_, .refl, rfl, htext, rfl⟩
    | none =>
      rw [htext] at h
      obtain ⟨q, hpass, hq⟩ := ih (stdout ++ ["Invalid date. Enter again"]) h
      exact ⟨q, .head (hin _) (step_invalidDate htext) hpass, hq⟩

theorem not_ends_date {Inside : State → Prop} {caller : DateCaller}
    (hin : ∀ p, Inside ⟨p, .getDateFromUser caller, stack⟩)
    (h : enteredDate P p.stdin = none) :
    ¬ (step P).Ends Inside ⟨p, .getDateFromUser caller, stack⟩ := by
  let I : State → Prop := fun st => ∃ p : Process Globals, enteredDate P p.stdin = none ∧
    st = ⟨p, .getDateFromUser caller, stack⟩
  refine Machine.not_ends_of_stays (I := I) ?_ ⟨p, h, rfl⟩
  rintro _ ⟨p, hnone, rfl⟩
  have hinvalid : P.date (p.stdin.head?.getD "") = none := by
    cases hdate : P.date (p.stdin.head?.getD "") with
    | none => rfl
    | some date => cases (enteredDate_of_date hdate).symm.trans hnone
  have hrest := (enteredDate_of_none hinvalid).symm.trans hnone
  exact ⟨hin p, _, step_invalidDate hinvalid, _, hrest, rfl⟩

theorem enteredDate_isSome_iff {stdin : List String} :
    (enteredDate P stdin).isSome ↔
      (∃ text ∈ stdin, (P.date text).isSome) ∨ (P.date "").isSome := by
  induction stdin with
  | nil => simp [enteredDate]
  | cons text stdin ih =>
    rw [enteredDate]
    cases htext : P.date text with
    | some date => simp [htext]
    | none => simp [htext, ih]

/-! ## Items -/

/-- The line that a round of a loop over items adds, if there is an item with the id. -/
def roundLine (items : List Item) (id quantity : ℤ) : List OrderItem :=
  ((lookup items id).map fun item => ⟨item, quantity⟩).toList

/-- The lines of an order that a loop over items collects on an input, after those it has. -/
def enteredItems (items : List Item) :
    List OrderItem → List String → Option (List OrderItem)
  | _, [] => none
  | orderItems, [id] => if enteredInt [id] = 99 then some orderItems else none
  | orderItems, id :: quantity :: stdin =>
    if enteredInt [id] = 99 then some orderItems
    else enteredItems items
      (orderItems ++ roundLine items (enteredInt [id]) (enteredInt [quantity])) stdin

theorem enteredItems_of_stop {items : List Item} {orderItems : List OrderItem}
    {stdin : List String} (h : enteredInt stdin = 99) :
    enteredItems items orderItems stdin = some orderItems := by
  rcases stdin with _ | ⟨id, _ | ⟨quantity, stdin⟩⟩
  · exact absurd h (by decide)
  · rw [enteredItems]
    exact if_pos h
  · rw [enteredItems]
    exact if_pos h

theorem enteredItems_of_ne {items : List Item} {orderItems : List OrderItem}
    {stdin : List String} (h : enteredInt stdin ≠ 99) :
    enteredItems items orderItems stdin = enteredItems items
      (orderItems ++ roundLine items (enteredInt stdin) (enteredInt stdin.tail))
      stdin.tail.tail := by
  rcases stdin with _ | ⟨id, _ | ⟨quantity, stdin⟩⟩
  · rfl
  · rw [enteredItems]
    exact if_neg h
  · rw [enteredItems]
    exact if_neg h

/-- A round that reads another number than the stop code leads to the next round; it prints its
prompts. -/
theorem run_enterItems (caller : ItemsCaller) (orderItems : List OrderItem)
    (h : enteredInt p.stdin ≠ 99) :
    ∃ printed, "Order updated successfully" ∉ printed ∧
      (Control.enterItems caller orderItems).run P p = .ok (.call (.enterItems caller (orderItems ++
        roundLine p.globals.items (enteredInt p.stdin) (enteredInt p.stdin.tail))),
        ⟨p.globals, p.stdin.tail.tail, p.stdout ++ printed⟩) := by
  change ∃ printed, _ ∧ enterItems caller orderItems p = _
  simp only [enterItems, Program.print_bind, readInt_bind]
  rw [if_neg h]
  simp only [Program.print_bind, readInt_bind, Program.globals_bind, roundLine]
  cases lookup p.globals.items (enteredInt p.stdin) with
  | some item =>
    refine ⟨["Enter item id: (Enter 99 to exit)", "Enter item quantity"], by decide, ?_⟩
    rw [List.append_assoc]
    rfl
  | none =>
    simp only [Option.map_none, Option.toList_none, List.append_nil]
    refine ⟨["Enter item id: (Enter 99 to exit)", "Enter item quantity", "Invalid input"],
      by decide, ?_⟩
    simp only [Program.print_bind, List.append_assoc]
    rfl

theorem step_enterItems (stack : List (List LogisticsOrder)) (caller : ItemsCaller)
    (orderItems : List OrderItem) (h : enteredInt p.stdin ≠ 99) :
    ∃ printed, "Order updated successfully" ∉ printed ∧
      step P ⟨p, .enterItems caller orderItems, stack⟩ () =
        .ok ⟨⟨p.globals, p.stdin.tail.tail, p.stdout ++ printed⟩, .enterItems caller (orderItems ++
          roundLine p.globals.items (enteredInt p.stdin) (enteredInt p.stdin.tail)), stack⟩ := by
  obtain ⟨printed, hprinted, hrun⟩ := run_enterItems (P := P) caller orderItems h
  exact ⟨printed, hprinted, step_of_call stack hrun⟩

theorem passes_items {Inside : State → Prop} {caller : ItemsCaller}
    {orderItems lines : List OrderItem}
    (hin : ∀ p orderItems, Inside ⟨p, .enterItems caller orderItems, stack⟩)
    (h : enteredItems p.globals.items orderItems p.stdin = some lines) :
    ∃ q, (step P).Passes Inside ⟨p, .enterItems caller orderItems, stack⟩
        ⟨q, .enterItems caller lines, stack⟩ ∧
      q.globals = p.globals ∧ enteredInt q.stdin = 99 := by
  obtain ⟨g, stdin, stdout⟩ := p
  induction stdin using List.twoStepInduction generalizing stdout orderItems with
  | nil => cases h
  | singleton id =>
    rw [enteredItems] at h
    split_ifs at h with hid
    obtain rfl := Option.some.inj h
    exact ⟨_, .refl, rfl, hid⟩
  | cons_cons id quantity stdin ih _ =>
    rw [enteredItems] at h
    split_ifs at h with hid
    · obtain rfl := Option.some.inj h
      exact ⟨_, .refl, rfl, hid⟩
    · obtain ⟨printed, -, hstep⟩ := step_enterItems (P := P)
        (p := ⟨g, id :: quantity :: stdin, stdout⟩) stack caller orderItems hid
      obtain ⟨q, hpass, hq⟩ := ih (stdout ++ printed) h
      exact ⟨q, .head (hin _ _) hstep hpass, hq⟩

theorem not_ends_items {Inside : State → Prop} {caller : ItemsCaller}
    {orderItems : List OrderItem}
    (hin : ∀ p orderItems, Inside ⟨p, .enterItems caller orderItems, stack⟩)
    (h : enteredItems p.globals.items orderItems p.stdin = none) :
    ¬ (step P).Ends Inside ⟨p, .enterItems caller orderItems, stack⟩ := by
  let I : State → Prop := fun st => ∃ (p : Process Globals) (orderItems : List OrderItem),
    enteredItems p.globals.items orderItems p.stdin = none ∧
    st = ⟨p, .enterItems caller orderItems, stack⟩
  refine Machine.not_ends_of_stays (I := I) ?_ ⟨p, orderItems, h, rfl⟩
  rintro _ ⟨p, orderItems, hnone, rfl⟩
  have hgoes : enteredInt p.stdin ≠ 99 :=
    fun hstop => by cases (enteredItems_of_stop hstop).symm.trans hnone
  obtain ⟨printed, -, hstep⟩ := step_enterItems (P := P) stack caller orderItems hgoes
  have hrest := (enteredItems_of_ne hgoes).symm.trans hnone
  exact ⟨hin p orderItems, _, hstep, _, _, hrest, rfl⟩

/-- The stop code stands where an id is read. -/
def HasStopCode (stdin : List String) : Prop :=
  ∃ n text, stdin[2 * n]? = some text ∧ parseInt text = some 99

theorem enteredInt_cons_eq_iff {text : String} {stdin : List String} :
    enteredInt (text :: stdin) = 99 ↔ parseInt text = some 99 := by
  change (parseInt text).getD 0 = 99 ↔ _
  cases parseInt text with
  | none => decide
  | some n => simp

theorem hasStopCode_cons_cons_iff {id quantity : String} {stdin : List String} :
    HasStopCode (id :: quantity :: stdin) ↔ parseInt id = some 99 ∨ HasStopCode stdin := by
  constructor
  · rintro ⟨n, text, hline, hstop⟩
    cases n with
    | zero =>
      obtain rfl := Option.some.inj hline
      exact .inl hstop
    | succ n => exact .inr ⟨n, text, hline, hstop⟩
  · rintro (hstop | ⟨n, text, hline, hstop⟩)
    · exact ⟨0, id, rfl, hstop⟩
    · exact ⟨n + 1, text, hline, hstop⟩

theorem enteredItems_isSome_iff (items : List Item) (orderItems : List OrderItem)
    {stdin : List String} :
    (enteredItems items orderItems stdin).isSome ↔ HasStopCode stdin := by
  induction stdin using List.twoStepInduction generalizing orderItems with
  | nil =>
    refine iff_of_false (fun h => by cases h) ?_
    rintro ⟨n, text, hline, -⟩
    cases hline
  | singleton id =>
    simp only [enteredItems, enteredInt_cons_eq_iff]
    constructor
    · intro h
      split_ifs at h with hid
      · exact ⟨0, id, rfl, hid⟩
      · cases h
    · rintro ⟨n, text, hline, hstop⟩
      cases n with
      | zero =>
        obtain rfl := Option.some.inj hline
        rw [if_pos hstop]
        rfl
      | succ n => cases hline
  | cons_cons id quantity stdin ih _ =>
    simp only [enteredItems, enteredInt_cons_eq_iff, hasStopCode_cons_cons_iff]
    split_ifs with hid
    · exact iff_of_true rfl (.inl hid)
    · rw [ih, or_iff_right hid]

/-! ## After the loops -/

/-- What a function does behind its loop. -/
def ItemsCaller.finish (orderItems : List OrderItem) : ItemsCaller → Program Globals Next
  | .createOrder orderId fromLocation toLocation arrivalDate departureDate =>
    appendOrder orderId fromLocation toLocation arrivalDate departureDate orderItems
  | .updateItems orderIndex => replaceItems orderIndex orderItems

theorem run_stopCode {caller : ItemsCaller} {orderItems : List OrderItem}
    (h : enteredInt p.stdin = 99) :
    (Control.enterItems caller orderItems).run P p = caller.finish orderItems { p with
      stdin := p.stdin.tail
      stdout := p.stdout ++ ["Enter item id: (Enter 99 to exit)"] } := by
  change enterItems caller orderItems p = _
  simp only [enterItems, Program.print_bind, readInt_bind]
  rw [if_pos h]
  cases caller <;> rfl

theorem appendOrder_of_total {orderId cost : ℤ} {l m : Location} {arrivalDate departureDate : Date}
    {orderItems : List OrderItem} (h : getOrderTotal orderItems = .ok cost) :
    appendOrder orderId (some l) (some m) arrivalDate departureDate orderItems p =
      .ok (.call .logisticsOrderMenu, { p with
        globals := { p.globals with logisticsOrder := p.globals.logisticsOrder ++
          [⟨orderId, l, m, arrivalDate, departureDate, cost, orderItems⟩] } }) := by
  unfold appendOrder
  rw [h]
  rfl

/-- A location that was not found traps when it is unwrapped. -/
theorem appendOrder_of_none {orderId cost : ℤ} {fromLocation toLocation : Option Location}
    {arrivalDate departureDate : Date} {orderItems : List OrderItem}
    (h : getOrderTotal orderItems = .ok cost) (hnone : fromLocation = none ∨ toLocation = none) :
    appendOrder orderId fromLocation toLocation arrivalDate departureDate orderItems p =
      .error (.trap .unwrappedNil) := by
  unfold appendOrder
  rw [h]
  cases fromLocation with
  | none => rfl
  | some l =>
    obtain rfl := hnone.resolve_left (Option.some_ne_none l)
    rfl

theorem appendOrder_of_error {orderId : ℤ} {fromLocation toLocation : Option Location}
    {arrivalDate departureDate : Date} {orderItems : List OrderItem} {t : Trap}
    (h : getOrderTotal orderItems = .error t) :
    appendOrder orderId fromLocation toLocation arrivalDate departureDate orderItems p =
      .error (.trap t) := by
  unfold appendOrder
  rw [h]
  rfl

theorem replaceItems_of_total {orderIndex : ℕ} {cost : ℤ} {orderItems : List OrderItem}
    (h : getOrderTotal orderItems = .ok cost)
    (hindex : orderIndex < p.globals.logisticsOrder.length) :
    replaceItems orderIndex orderItems p =
      .ok (.call .logisticsOrderMenu, { p with
        globals := { p.globals with logisticsOrder :=
          p.globals.logisticsOrder.modify orderIndex fun order =>
            { order with itemsCarried := orderItems, cost := cost } }
        stdout := p.stdout ++ ["Order updated successfully"] }) := by
  have hmodify := (modifyAt_natCast (l := p.globals.logisticsOrder) (n := orderIndex)
    (f := fun order => { order with itemsCarried := orderItems, cost := cost })).mpr ⟨hindex, rfl⟩
  refine Program.evaluate_bind_ok_iff.mpr ⟨cost, h, ?_⟩
  rw [Program.globals_bind]
  exact Program.evaluate_bind_ok_iff.mpr ⟨_, hmodify, rfl⟩

theorem replaceItems_of_error {orderIndex : ℕ} {orderItems : List OrderItem} {t : Trap}
    (h : getOrderTotal orderItems = .error t) :
    replaceItems orderIndex orderItems p = .error (.trap t) := by
  unfold replaceItems
  rw [h]
  rfl

theorem stopCode_next {caller : ItemsCaller} {orderItems : List OrderItem} {next : Next}
    (h : enteredInt p.stdin = 99)
    (hrun : (Control.enterItems caller orderItems).run P p = .ok (next, q)) :
    next = .call .logisticsOrderMenu := by
  rw [run_stopCode h] at hrun
  cases caller with
  | createOrder =>
    obtain ⟨_, -, hrun⟩ := Program.evaluate_bind_ok_iff.mp hrun
    obtain ⟨_, -, hrun⟩ := Program.evaluate_bind_ok_iff.mp hrun
    obtain ⟨_, -, hrun⟩ := Program.evaluate_bind_ok_iff.mp hrun
    exact (Prod.mk.inj (Except.ok.inj hrun)).1.symm
  | updateItems =>
    obtain ⟨_, -, hrun⟩ := Program.evaluate_bind_ok_iff.mp hrun
    rw [Program.globals_bind] at hrun
    obtain ⟨_, -, hrun⟩ := Program.evaluate_bind_ok_iff.mp hrun
    exact (Prod.mk.inj (Except.ok.inj hrun)).1.symm

theorem step_stopCode {caller : ItemsCaller} {orderItems : List OrderItem} {st : State}
    (h : enteredInt p.stdin = 99)
    (hstep : step P ⟨p, .enterItems caller orderItems, stack⟩ () = .ok st) :
    st.control = .logisticsOrderMenu := by
  obtain ⟨⟨next, q⟩, hrun, hstep⟩ := bind_ok_iff.mp hstep
  obtain rfl := stopCode_next h hrun
  obtain rfl := Except.ok.inj hstep
  rfl

/-- What follows a date is not another attempt for the same call. -/
theorem step_validDate {caller : DateCaller} {st : State}
    (h : (P.date (p.stdin.head?.getD "")).isSome)
    (hstep : step P ⟨p, .getDateFromUser caller, stack⟩ () = .ok st) :
    st.control ≠ .getDateFromUser caller := by
  obtain ⟨date, hdate⟩ := Option.isSome_iff_exists.mp h
  obtain ⟨⟨next, q⟩, hrun, hstep⟩ := bind_ok_iff.mp hstep
  rw [run_validDate _ hdate] at hrun
  cases caller with
  | createOrderArrival =>
    obtain ⟨rfl, rfl⟩ := Prod.mk.inj (Except.ok.inj hrun)
    obtain rfl := Except.ok.inj hstep
    exact fun heq => by cases heq
  | createOrderDeparture =>
    obtain ⟨rfl, rfl⟩ := Prod.mk.inj (Except.ok.inj hrun)
    obtain rfl := Except.ok.inj hstep
    exact fun heq => by cases heq
  | updateDepartureDate orderId =>
    simp only [useDate, Program.globals_bind] at hrun
    generalize firstIndex p.globals.logisticsOrder orderId = orderIndex at hrun
    cases orderIndex <;> obtain ⟨rfl, rfl⟩ := Prod.mk.inj (Except.ok.inj hrun) <;>
      obtain rfl := Except.ok.inj hstep <;> exact fun heq => by cases heq
  | searchByDate =>
    simp only [useDate, Program.globals_bind, showFound] at hrun
    split_ifs at hrun
    · obtain ⟨rfl, rfl⟩ := Prod.mk.inj (Except.ok.inj hrun)
      rw [(resume_ok hstep).2]
      exact fun heq => by cases heq
    · obtain ⟨rfl, rfl⟩ := Prod.mk.inj (Except.ok.inj hrun)
      obtain rfl := Except.ok.inj hstep
      exact fun heq => by cases heq

end Functions

/-! ## Termination -/

section Termination
variable {P : Platform} {p : Process Globals} {stack : List (List LogisticsOrder)}

/-- The loop over items of a call. -/
def State.InItems (caller : ItemsCaller) (st : State) : Prop :=
  ∃ orderItems, st.control = .enterItems caller orderItems

/-- The recursion of `getDateFromUser()` for a call. -/
def State.InDate (caller : DateCaller) (st : State) : Prop := st.control = .getDateFromUser caller

theorem ends_items_iff {caller : ItemsCaller} {orderItems : List OrderItem} :
    (step P).Ends (State.InItems caller) ⟨p, .enterItems caller orderItems, stack⟩ ↔
      HasStopCode p.stdin := by
  have hin : ∀ (p : Process Globals) (orderItems : List OrderItem),
      State.InItems caller ⟨p, .enterItems caller orderItems, stack⟩ :=
    fun _ orderItems => ⟨orderItems, rfl⟩
  rw [← enteredItems_isSome_iff p.globals.items orderItems]
  cases hlines : enteredItems p.globals.items orderItems p.stdin with
  | none => exact iff_of_false (not_ends_items hin hlines) (by decide)
  | some lines =>
    obtain ⟨q, hpass, -, hstop⟩ := passes_items (P := P) hin hlines
    refine iff_of_true (hpass.ends_iff.mpr (Machine.ends_of_step (hin q lines) ?_)) rfl
    rintro t hstep ⟨orderItems', ht⟩
    cases (step_stopCode hstop hstep).symm.trans ht

theorem ends_date_iff {caller : DateCaller} :
    (step P).Ends (State.InDate caller) ⟨p, .getDateFromUser caller, stack⟩ ↔
      (∃ text ∈ p.stdin, (P.date text).isSome) ∨ (P.date "").isSome := by
  have hin : ∀ p : Process Globals, State.InDate caller ⟨p, .getDateFromUser caller, stack⟩ :=
    fun _ => rfl
  rw [← enteredDate_isSome_iff]
  cases hdate : enteredDate P p.stdin with
  | none => exact iff_of_false (not_ends_date hin hdate) (by decide)
  | some entered =>
    obtain ⟨q, hpass, -, hvalid, -⟩ := passes_date hin hdate
    refine iff_of_true (hpass.ends_iff.mpr (Machine.ends_of_step (hin q) fun t hstep ht => ?_)) rfl
    exact step_validDate (hvalid ▸ rfl) hstep ht

/-- The loops over items end exactly on the inputs that have the stop code where an id is read,
and the recursion for a date exactly on those that have a date. -/
theorem inputLoops_end_iff :
    (∀ caller orderItems,
      (step P).Ends (State.InItems caller) ⟨p, .enterItems caller orderItems, stack⟩ ↔
        HasStopCode p.stdin) ∧
    ∀ caller, (step P).Ends (State.InDate caller) ⟨p, .getDateFromUser caller, stack⟩ ↔
      (∃ text ∈ p.stdin, (P.date text).isSome) ∨ (P.date "").isSome :=
  ⟨fun _ _ => ends_items_iff, fun _ => ends_date_iff⟩

/-- The user chooses to update the items of the initial order, and the input is at its end. -/
def Sample.endOfInput : List String := ["3", "4", "21"]

/-- The script waits for items for ever; where the input ends before a date, it does so for the
date. -/
theorem run_endOfInput :
    (∃ st, (step .utc).run (launch .utc Sample.endOfInput) (List.replicate 3 ()) = .ok st ∧
      st.control = .enterItems (.updateItems 0) [] ∧
      ¬ (step .utc).Ends (State.InItems (.updateItems 0)) st) ∧
    ∃ st, (step .utc).run (launch .utc ["3", "6"]) (List.replicate 3 ()) = .ok st ∧
      st.control = .getDateFromUser .searchByDate ∧
      ¬ (step .utc).Ends (State.InDate .searchByDate) st := by
  refine ⟨⟨_, rfl, rfl, fun h => ?_⟩, _, rfl, rfl, fun h => ?_⟩
  · obtain ⟨n, text, hline, -⟩ := ends_items_iff.mp h
    cases hline
  · rcases ends_date_iff.mp h with ⟨text, hmem, -⟩ | hdate
    · cases hmem
    · exact absurd hdate (by decide)

end Termination
end Info6350.Assignment5
