import Info6350.Assignment5.InputLoops

/-! # The creation of an order

`createOrder()` asks on after an id that no location has, reads two dates and the items, and
unwraps the locations by force at its end.
-/

namespace Info6350.Assignment5
open Library Swift Logistics

/-- The function of the source whose body a control is in; `getDateFromUser()` and the loops over
items are in their callers. -/
def Control.function : Control → Control
  | .getDateFromUser (.createOrderArrival _ _ _) => .createOrder
  | .getDateFromUser (.createOrderDeparture _ _ _ _) => .createOrder
  | .getDateFromUser (.updateDepartureDate _) => .updateDepartureDate
  | .getDateFromUser .searchByDate => .searchByDate
  | .enterItems (.createOrder _ _ _ _ _) _ => .createOrder
  | .enterItems (.updateItems _) _ => .updateItems
  | c => c

/-- The body of a function. -/
def State.Within (c : Control) (st : State) : Prop := st.control.function = c

/-- After two dates there is a stop code where an id is read. -/
def CompletesOrder (P : Platform) (stdin : List String) : Prop :=
  ∃ arrival departure rest rest', enteredDate P stdin = some (arrival, rest) ∧
    enteredDate P rest = some (departure, rest') ∧ HasStopCode rest'

section CreateOrder
variable {P : Platform} {p : Process Globals} {stack : List (List LogisticsOrder)}

theorem readLocation_run (prompt : String) : ∃ stdout, readLocation P prompt p =
    .ok (lookup p.globals.locations (enteredInt p.stdin), ⟨p.globals, p.stdin.tail, stdout⟩) := by
  simp only [readLocation, Program.print_bind, readInt_bind, Program.globals_bind]
  cases lookup p.globals.locations (enteredInt p.stdin) with
  | some location => exact ⟨_, rfl⟩
  | none => exact ⟨_, rfl⟩

/-! The calls from the body of `createOrder()`, after its three ids are read. -/

def arrivalCaller (p : Process Globals) : DateCaller :=
  .createOrderArrival (enteredInt p.stdin)
    (lookup p.globals.locations (enteredInt p.stdin.tail))
    (lookup p.globals.locations (enteredInt p.stdin.tail.tail))

def departureCaller (p : Process Globals) (arrival : Date) : DateCaller :=
  .createOrderDeparture (enteredInt p.stdin)
    (lookup p.globals.locations (enteredInt p.stdin.tail))
    (lookup p.globals.locations (enteredInt p.stdin.tail.tail)) arrival

def orderCaller (p : Process Globals) (arrival departure : Date) : ItemsCaller :=
  .createOrder (enteredInt p.stdin)
    (lookup p.globals.locations (enteredInt p.stdin.tail))
    (lookup p.globals.locations (enteredInt p.stdin.tail.tail)) arrival departure

theorem createOrder_run (P : Platform) (p : Process Globals) :
    ∃ stdout, createOrder P p = .ok (.call (.getDateFromUser (arrivalCaller p)),
      ⟨p.globals, p.stdin.tail.tail.tail, stdout⟩) := by
  obtain ⟨stdout, hfrom⟩ := readLocation_run (P := P)
    (p := ⟨p.globals, p.stdin.tail, p.stdout ++ ["Enter order id: "] ⟩) "Enter from location id: "
  obtain ⟨stdout', hto⟩ := readLocation_run (P := P)
    (p := ⟨p.globals, p.stdin.tail.tail, stdout⟩) "Enter to location id: "
  refine ⟨stdout' ++ ["Enter arrival date:(MM-dd-yyyy) "], ?_⟩
  simp only [createOrder, Program.print_bind, readInt_bind]
  exact Program.bind_ok_iff.mpr ⟨_, _, hfrom, Program.bind_ok_iff.mpr ⟨_, _, hto, rfl⟩⟩

theorem step_createOrder (P : Platform) (p : Process Globals)
    (stack : List (List LogisticsOrder)) : ∃ stdout, step P ⟨p, .createOrder, stack⟩ () =
      .ok ⟨⟨p.globals, p.stdin.tail.tail.tail, stdout⟩, .getDateFromUser (arrivalCaller p),
        stack⟩ := by
  obtain ⟨stdout, hrun⟩ := createOrder_run P p
  exact ⟨stdout, step_of_call stack hrun⟩

variable (stack)

theorem passes_arrival {arrival : Date} {rest : List String}
    (h : enteredDate P p.stdin.tail.tail.tail = some (arrival, rest)) :
    ∃ stdout, (step P).Passes (State.Within .createOrder) ⟨p, .createOrder, stack⟩
      ⟨⟨p.globals, rest, stdout⟩, .getDateFromUser (departureCaller p arrival), stack⟩ := by
  obtain ⟨stdout, hfirst⟩ := step_createOrder P p stack
  have hin : ∀ q, State.Within .createOrder ⟨q, .getDateFromUser (arrivalCaller p), stack⟩ :=
    fun _ => rfl
  obtain ⟨⟨_, stdin, stdout'⟩, hpass, rfl, hdate, rfl⟩ := passes_date
    (p := ⟨p.globals, p.stdin.tail.tail.tail, stdout⟩) hin h
  have hnext := step_of_call stack (run_validDate (arrivalCaller p) hdate)
  exact ⟨_, .head rfl hfirst (hpass.trans (.single rfl hnext))⟩

theorem passes_departure {arrival departure : Date} {rest rest' : List String}
    (harrival : enteredDate P p.stdin.tail.tail.tail = some (arrival, rest))
    (h : enteredDate P rest = some (departure, rest')) :
    ∃ stdout, (step P).Passes (State.Within .createOrder) ⟨p, .createOrder, stack⟩
      ⟨⟨p.globals, rest', stdout⟩, .enterItems (orderCaller p arrival departure) [], stack⟩ := by
  obtain ⟨stdout, hfirst⟩ := passes_arrival stack harrival
  have hin : ∀ q, State.Within .createOrder
      ⟨q, .getDateFromUser (departureCaller p arrival), stack⟩ := fun _ => rfl
  obtain ⟨⟨_, stdin, stdout'⟩, hpass, rfl, hdate, rfl⟩ := passes_date
    (p := ⟨p.globals, rest, stdout⟩) hin h
  have hnext := step_of_call stack (run_validDate (departureCaller p arrival) hdate)
  exact ⟨_, hfirst.trans (hpass.trans (.single rfl hnext))⟩

theorem passes_orderItems {arrival departure : Date} {rest rest' : List String}
    {lines : List OrderItem}
    (harrival : enteredDate P p.stdin.tail.tail.tail = some (arrival, rest))
    (hdeparture : enteredDate P rest = some (departure, rest'))
    (h : enteredItems p.globals.items [] rest' = some lines) :
    ∃ q, (step P).Passes (State.Within .createOrder) ⟨p, .createOrder, stack⟩
        ⟨q, .enterItems (orderCaller p arrival departure) lines, stack⟩ ∧
      q.globals = p.globals ∧ enteredInt q.stdin = 99 := by
  obtain ⟨stdout, hfirst⟩ := passes_departure stack harrival hdeparture
  have hin : ∀ q orderItems, State.Within .createOrder
      ⟨q, .enterItems (orderCaller p arrival departure) orderItems, stack⟩ := fun _ _ => rfl
  obtain ⟨q, hpass, hq⟩ := passes_items (P := P) (p := ⟨p.globals, rest', stdout⟩) hin h
  exact ⟨q, hfirst.trans hpass, hq⟩

/-- Without two dates or the stop code the function goes on for ever. -/
theorem createOrder_not_ends (h : ¬ CompletesOrder P p.stdin.tail.tail.tail) :
    ¬ (step P).Ends (State.Within .createOrder) ⟨p, .createOrder, stack⟩ := by
  cases harrival : enteredDate P p.stdin.tail.tail.tail with
  | none =>
    obtain ⟨stdout, hfirst⟩ := step_createOrder P p stack
    have hin : ∀ q, State.Within .createOrder ⟨q, .getDateFromUser (arrivalCaller p), stack⟩ :=
      fun _ => rfl
    have hpass : (step P).Passes (State.Within .createOrder) ⟨p, .createOrder, stack⟩ _ :=
      .single rfl hfirst
    rw [hpass.ends_iff]
    exact not_ends_date (p := ⟨p.globals, p.stdin.tail.tail.tail, stdout⟩) hin harrival
  | some entered =>
    obtain ⟨arrival, rest⟩ := entered
    cases hdeparture : enteredDate P rest with
    | none =>
      obtain ⟨stdout, hpass⟩ := passes_arrival stack harrival
      have hin : ∀ q, State.Within .createOrder
          ⟨q, .getDateFromUser (departureCaller p arrival), stack⟩ := fun _ => rfl
      rw [hpass.ends_iff]
      exact not_ends_date (p := ⟨p.globals, rest, stdout⟩) hin hdeparture
    | some entered =>
      obtain ⟨departure, rest'⟩ := entered
      obtain ⟨stdout, hpass⟩ := passes_departure stack harrival hdeparture
      have hin : ∀ q orderItems, State.Within .createOrder
          ⟨q, .enterItems (orderCaller p arrival departure) orderItems, stack⟩ := fun _ _ => rfl
      have hnone : enteredItems p.globals.items [] rest' = none := by
        rw [← Option.not_isSome_iff_eq_none, enteredItems_isSome_iff]
        exact fun hstop => h ⟨arrival, departure, rest, rest', harrival, hdeparture, hstop⟩
      rw [hpass.ends_iff]
      exact not_ends_items (p := ⟨p.globals, rest', stdout⟩) hin hnone

/-- The function ends by appending the order, -/
theorem createOrder_leaves {arrival departure : Date} {rest rest' : List String}
    {lines : List OrderItem} {cost : ℤ} {l m : Location}
    (harrival : enteredDate P p.stdin.tail.tail.tail = some (arrival, rest))
    (hdeparture : enteredDate P rest = some (departure, rest'))
    (hlines : enteredItems p.globals.items [] rest' = some lines)
    (hcost : getOrderTotal lines = .ok cost)
    (hl : lookup p.globals.locations (enteredInt p.stdin.tail) = some l)
    (hm : lookup p.globals.locations (enteredInt p.stdin.tail.tail) = some m) :
    ∃ st, (step P).Leaves (State.Within .createOrder) ⟨p, .createOrder, stack⟩ st ∧
      st.control = .logisticsOrderMenu ∧ st.stack = stack ∧
      st.globals = { p.globals with logisticsOrder := p.globals.logisticsOrder ++
        [⟨enteredInt p.stdin, l, m, arrival, departure, cost, lines⟩] } := by
  obtain ⟨q, hpass, hglobals, hstop⟩ := passes_orderItems stack harrival hdeparture hlines
  obtain ⟨q', hrun, hq'⟩ : ∃ q', (Control.enterItems (orderCaller p arrival departure) lines).run
        P q = .ok (.call .logisticsOrderMenu, q') ∧
      q'.globals = { q.globals with logisticsOrder := q.globals.logisticsOrder ++
        [⟨enteredInt p.stdin, l, m, arrival, departure, cost, lines⟩] } := by
    rw [run_stopCode hstop, orderCaller, hl, hm]
    exact ⟨_, appendOrder_of_total hcost, rfl⟩
  rw [hglobals] at hq'
  refine ⟨_, ⟨hpass.trans (.single rfl (step_of_call stack hrun)), ?_⟩, rfl, rfl, hq'⟩
  exact fun hin => by cases hin

/-- or stops where the total overflows or a location is unwrapped. -/
theorem createOrder_stops {arrival departure : Date} {rest rest' : List String}
    {lines : List OrderItem} {x : Halt}
    (harrival : enteredDate P p.stdin.tail.tail.tail = some (arrival, rest))
    (hdeparture : enteredDate P rest = some (departure, rest'))
    (hlines : enteredItems p.globals.items [] rest' = some lines)
    (hx : ∀ q, appendOrder (enteredInt p.stdin)
      (lookup p.globals.locations (enteredInt p.stdin.tail))
      (lookup p.globals.locations (enteredInt p.stdin.tail.tail)) arrival departure lines q =
        .error x) :
    (step P).StopsInside (State.Within .createOrder) ⟨p, .createOrder, stack⟩ x := by
  obtain ⟨q, hpass, -, hstop⟩ := passes_orderItems stack harrival hdeparture hlines
  rw [hpass.stopsInside_iff]
  refine Machine.stopsInside_of_error rfl (step_of_error ?_)
  rw [run_stopCode hstop]
  exact hx _

theorem createOrder_leaves_inv {st : State}
    (h : (step P).Leaves (State.Within .createOrder) ⟨p, .createOrder, stack⟩ st) :
    ∃ arrival departure rest rest' lines cost l m,
      enteredDate P p.stdin.tail.tail.tail = some (arrival, rest) ∧
      enteredDate P rest = some (departure, rest') ∧
      enteredItems p.globals.items [] rest' = some lines ∧ getOrderTotal lines = .ok cost ∧
      lookup p.globals.locations (enteredInt p.stdin.tail) = some l ∧
      lookup p.globals.locations (enteredInt p.stdin.tail.tail) = some m ∧
      st.globals = { p.globals with logisticsOrder := p.globals.logisticsOrder ++
        [⟨enteredInt p.stdin, l, m, arrival, departure, cost, lines⟩] } := by
  by_cases hcompletes : CompletesOrder P p.stdin.tail.tail.tail
  · obtain ⟨arrival, departure, rest, rest', harrival, hdeparture, hstop⟩ := hcompletes
    obtain ⟨lines, hlines⟩ := Option.isSome_iff_exists.mp
      ((enteredItems_isSome_iff p.globals.items []).mpr hstop)
    cases hcost : getOrderTotal lines with
    | error t =>
      have hstops := createOrder_stops stack harrival hdeparture hlines
        fun q => appendOrder_of_error hcost
      exact absurd hstops h.not_stopsInside
    | ok cost =>
      have hfound : ¬ (lookup p.globals.locations (enteredInt p.stdin.tail) = none ∨
          lookup p.globals.locations (enteredInt p.stdin.tail.tail) = none) := by
        intro hnone
        have hstops := createOrder_stops stack harrival hdeparture hlines
          fun q => appendOrder_of_none hcost hnone
        exact h.not_stopsInside hstops
      obtain ⟨hfrom, hto⟩ := not_or.mp hfound
      obtain ⟨l, hl⟩ := Option.ne_none_iff_exists'.mp hfrom
      obtain ⟨m, hm⟩ := Option.ne_none_iff_exists'.mp hto
      obtain ⟨st', hleaves, -, -, hglobals⟩ :=
        createOrder_leaves stack harrival hdeparture hlines hcost hl hm
      obtain rfl := h.unique hleaves
      exact ⟨arrival, departure, rest, rest', lines, cost, l, m, harrival, hdeparture, hlines,
        hcost, hl, hm, hglobals⟩
  · exact absurd (.inl ⟨st, h⟩) (createOrder_not_ends stack hcompletes)

/-- `createOrder()` returns to the order menu, with the arrays as they were or with one order more,
between two locations of the store and with the total of its items as its cost. -/
def CreateOrderReturns (P : Platform) (p : Process Globals) (stack : List (List LogisticsOrder)) :
    Prop :=
  ∃ st, (step P).Leaves (State.Within .createOrder) ⟨p, .createOrder, stack⟩ st ∧
    st.control = .logisticsOrderMenu ∧ st.stack = stack ∧
    (st.globals = p.globals ∨ ∃ order,
      st.globals = { p.globals with logisticsOrder := p.globals.logisticsOrder ++ [order] } ∧
      order.fromLocation ∈ p.globals.locations ∧ order.toLocation ∈ p.globals.locations ∧
      getOrderTotal order.itemsCarried = .ok order.cost)

/-- Barring overflow, `createOrder()` returns exactly on the inputs that complete an order between
two locations that exist. -/
theorem createOrder_returns_iff
    (hoverflow : ¬ (step P).StopsInside (State.Within .createOrder) ⟨p, .createOrder, stack⟩
      (.trap .overflow)) :
    CreateOrderReturns P p stack ↔ CompletesOrder P p.stdin.tail.tail.tail ∧
      enteredInt p.stdin.tail ∈ Library.keys p.globals.locations ∧
      enteredInt p.stdin.tail.tail ∈ Library.keys p.globals.locations := by
  constructor
  · rintro ⟨st, hleaves, -⟩
    obtain ⟨arrival, departure, rest, rest', lines, cost, l, m, harrival, hdeparture, hlines, -,
      hl, hm, -⟩ := createOrder_leaves_inv stack hleaves
    have hstop := (enteredItems_isSome_iff p.globals.items []).mp
      (Option.isSome_iff_exists.mpr ⟨lines, hlines⟩)
    obtain ⟨hl, hlkey⟩ := lookup_some hl
    obtain ⟨hm, hmkey⟩ := lookup_some hm
    exact ⟨⟨arrival, departure, rest, rest', harrival, hdeparture, hstop⟩,
      hlkey ▸ key_mem_keys hl, hmkey ▸ key_mem_keys hm⟩
  · rintro ⟨⟨arrival, departure, rest, rest', harrival, hdeparture, hstop⟩, hfrom, hto⟩
    obtain ⟨lines, hlines⟩ := Option.isSome_iff_exists.mp
      ((enteredItems_isSome_iff p.globals.items []).mpr hstop)
    obtain ⟨l, hl⟩ := Option.ne_none_iff_exists'.mp
      fun hnone => lookup_eq_none_iff.mp hnone hfrom
    obtain ⟨m, hm⟩ := Option.ne_none_iff_exists'.mp
      fun hnone => lookup_eq_none_iff.mp hnone hto
    cases hcost : getOrderTotal lines with
    | error t =>
      obtain rfl := addTotal_error hcost
      have hstops := createOrder_stops stack harrival hdeparture hlines
        fun q => appendOrder_of_error hcost
      exact absurd hstops hoverflow
    | ok cost =>
      obtain ⟨st, hleaves, hmenu, hstack, hglobals⟩ :=
        createOrder_leaves stack harrival hdeparture hlines hcost hl hm
      exact ⟨st, hleaves, hmenu, hstack,
        .inr ⟨_, hglobals, (lookup_some hl).1, (lookup_some hm).1, hcost⟩⟩

end CreateOrder

def Sample.unknownLocation : List String :=
  ["3", "1", "22", "7", "2", "07-21-2023", "09-21-2023", "99"]

theorem createOrder_stops_unknownLocation (stdout : List String) :
    (step .utc).StopsInside (State.Within .createOrder)
      ⟨⟨.initial .utc, Sample.unknownLocation.drop 2, stdout⟩, .createOrder, []⟩
      (.trap .unwrappedNil) := by
  have harrival : enteredDate .utc ["07-21-2023", "09-21-2023", "99"] =
      some (711590400, ["09-21-2023", "99"]) := by decide
  have hdeparture : enteredDate .utc ["09-21-2023", "99"] = some (716947200, ["99"]) := by decide
  have hlines : enteredItems (Globals.initial .utc).items [] ["99"] = some [] := by decide
  have hlocation : lookup (Globals.initial .utc).locations
      (enteredInt (Sample.unknownLocation.drop 2).tail) = none := by decide
  exact createOrder_stops [] harrival hdeparture hlines
    fun q => appendOrder_of_none rfl (.inl hlocation)

/-- The script goes on to the end of the order and traps there. -/
theorem run_unknownLocation :
    ∃ p, (step .utc).run (launch .utc Sample.unknownLocation) (List.replicate 2 ()) =
        .ok ⟨p, .createOrder, []⟩ ∧
      (step .utc).StopsInside (State.Within .createOrder) ⟨p, .createOrder, []⟩
        (.trap .unwrappedNil) ∧
      ¬ CreateOrderReturns .utc p [] := by
  refine ⟨_, rfl, createOrder_stops_unknownLocation _, ?_⟩
  rintro ⟨st, hleaves, -⟩
  exact hleaves.not_stopsInside (createOrder_stops_unknownLocation _)

theorem createOrder_returns_iff_unknownLocation :
    CreateOrderReturns .utc ⟨.initial .utc, Sample.unknownLocation.drop 2, []⟩ [] ↔
      CompletesOrder .utc ["07-21-2023", "09-21-2023", "99"] ∧
      7 ∈ Library.keys (Globals.initial .utc).locations ∧
      2 ∈ Library.keys (Globals.initial .utc).locations :=
  @createOrder_returns_iff .utc ⟨.initial .utc, Sample.unknownLocation.drop 2, []⟩ []
    fun h => by cases (createOrder_stops_unknownLocation []).unique h

end Info6350.Assignment5
