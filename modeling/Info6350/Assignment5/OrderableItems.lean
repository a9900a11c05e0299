import Info6350.Assignment5.Reports
import Info6350.Assignment5.ControlFlow

/-! # Items that can be ordered

The loops over items take the stop code from the same line as the ids, so an item with the stop
code as its id cannot be named there.  Every id that is stored was read as an `Int`, so its text
is read back.
-/

namespace Info6350.Assignment5
open Library Swift Logistics Keyed

/-! ## Ids are integers of 64 bits -/

theorem parseInt_inRange {text : String} {n : ℤ} (h : parseInt text = some n) : InRange n := by
  have hfits : ∀ {digits : List Char} {f : ℕ → ℤ},
      ((parseNat digits).bind fun n => fits (f n)) = some n → InRange n := by
    intro digits f h
    obtain ⟨m, -, hm⟩ := Option.bind_eq_some_iff.mp h
    obtain ⟨hrange, rfl⟩ := fits_eq_some_iff.mp hm
    exact hrange
  unfold parseInt at h
  split at h
  · exact hfits h
  · exact hfits h
  · exact hfits h

theorem enteredInt_inRange (stdin : List String) : InRange (enteredInt stdin) := by
  unfold enteredInt
  cases h : parseInt (stdin.head?.getD "0") with
  | none => decide
  | some n => exact parseInt_inRange h

/-- The id of the order that a call is about to create. -/
def Control.pendingOrder : Control → Option ℤ
  | .getDateFromUser (.createOrderArrival orderId _ _) => some orderId
  | .getDateFromUser (.createOrderDeparture orderId _ _ _) => some orderId
  | .enterItems (.createOrder orderId _ _ _ _) _ => some orderId
  | _ => none

theorem pendingOrder_of_plain {c : Control} (h : c.isLoop = false) : c.pendingOrder = none := by
  cases c with
  | getDateFromUser => cases h
  | enterItems => cases h
  | _ => rfl

/-- All ids are in range, those of orders that are not stored yet among them. -/
structure State.IdsInRange (st : State) : Prop where
  locations : ∀ id ∈ keys st.globals.locations, InRange id
  items : ∀ id ∈ keys st.globals.items, InRange id
  orders : ∀ id ∈ keys st.globals.logisticsOrder, InRange id
  pending : ∀ id ∈ st.control.pendingOrder, InRange id

theorem Grows.inRange {α : Type} [Keyed α ℤ] {created : Option ℤ} {l m : List α}
    (h : Grows created l m) (hl : ∀ id ∈ keys l, InRange id)
    (hcreated : ∀ id ∈ created, InRange id) : ∀ id ∈ keys m, InRange id := by
  cases created with
  | none =>
    have hsub : (keys m).Sublist (keys l) := h
    exact fun id hid => hl id (hsub.subset hid)
  | some new =>
    have hkeys : keys m = keys l ++ [new] := h
    intro id hid
    rw [hkeys, List.mem_append, List.mem_singleton] at hid
    rcases hid with hid | rfl
    · exact hl id hid
    · exact hcreated id rfl

/-- The id of a pending order comes from the call before it, or was read. -/
theorem run_pending {P : Platform} {p q : Process Globals} {c c' : Control}
    (h : c.run P p = .ok (.call c', q)) :
    ∀ id ∈ c'.pendingOrder, id ∈ c.pendingOrder ∨ id = enteredInt p.stdin := by
  intro id hid
  cases run_follows h with
  | plain hplain =>
    rw [pendingOrder_of_plain hplain] at hid
    cases hid
  | createOrder => exact .inr (Option.some.inj hid).symm
  | arrival => exact .inl hid
  | departure => exact .inl hid
  | invalidDate caller => exact .inl hid
  | round caller => cases caller <;> exact .inl hid
  | _ => cases hid

section Invariant
variable {P : Platform}

theorem step_preserves_idsInRange : (step P).Preserves Machine.AnyStep State.IdsInRange := by
  intro st u st' hst _ hstep
  obtain ⟨hlocations, hitems, horders⟩ := step_grows hstep
  refine ⟨hlocations.inRange hst.locations ?_, hitems.inRange hst.items ?_,
    horders.inRange hst.orders ?_, ?_⟩
  · intro id hid
    unfold Control.createdLocation at hid
    split at hid
    · exact Option.some.inj hid ▸ enteredInt_inRange _
    · cases hid
  · intro id hid
    unfold Control.createdItem at hid
    split at hid
    · exact Option.some.inj hid ▸ enteredInt_inRange _
    · cases hid
  · -- the order that is stored now was pending before
    intro id hid
    unfold Control.createdOrder at hid
    split at hid
    · rename_i hc
      split_ifs at hid
      · exact hst.pending id (hc ▸ hid)
      · cases hid
    · cases hid
  · obtain ⟨⟨next, q⟩, hrun, hstep⟩ := bind_ok_iff.mp hstep
    cases next with
    | call c' =>
      obtain rfl := Except.ok.inj hstep
      intro id hid
      rcases run_pending hrun id hid with hid | rfl
      · exact hst.pending id hid
      · exact enteredInt_inRange _
    | search orders =>
      rw [(resume_ok hstep).2]
      exact fun id hid => by cases hid
    | returned =>
      rw [(resume_ok hstep).2]
      exact fun id hid => by cases hid

theorem idsInRange_launch (stdin : List String) : (launch P stdin).IdsInRange where
  locations := by
    change ∀ id ∈ ([1, 2] : List ℤ), InRange id
    decide
  items := by
    change ∀ id ∈ ([10, 11] : List ℤ), InRange id
    decide
  orders := by
    change ∀ id ∈ ([21] : List ℤ), InRange id
    decide
  pending := fun id hid => by cases hid

theorem run_idsInRange {stdin : List String} {ticks : List Unit} {st : State}
    (h : (step P).run (launch P stdin) ticks = .ok st) : st.IdsInRange :=
  step_preserves_idsInRange.run_any (idsInRange_launch stdin) h

end Invariant

/-! ## Entering one item -/

theorem enteredInt_toString {n : ℤ} (h : InRange n) (stdin : List String) :
    enteredInt (toString n :: stdin) = n := by
  change (parseInt (toString n)).getD 0 = n
  rw [parseInt_toString, fits_eq_some_iff.mpr ⟨h, rfl⟩, Option.getD_some]

theorem enteredItems_single {items : List Item} {item : Item} {quantity : ℤ}
    (hitem : lookup items item.id = some item) (hid : InRange item.id) (hne : item.id ≠ 99)
    (hquantity : InRange quantity) :
    enteredItems items [] [toString item.id, toString quantity, "99"] =
      some [⟨item, quantity⟩] := by
  have hfirst : enteredInt [toString item.id, toString quantity, "99"] = item.id :=
    enteredInt_toString hid _
  have hsecond : enteredInt [toString quantity, "99"] = quantity :=
    enteredInt_toString hquantity _
  have hgoes : enteredInt [toString item.id, toString quantity, "99"] ≠ 99 :=
    fun hstop => hne (hfirst.symm.trans hstop)
  rw [enteredItems_of_ne hgoes, hfirst]
  change enteredItems items ([] ++ roundLine items item.id
    (enteredInt [toString quantity, "99"])) ["99"] = _
  rw [hsecond, roundLine, hitem, enteredItems_of_stop (by decide)]
  rfl

theorem enteredItems_ne {items : List Item} {orderItems lines : List OrderItem}
    {stdin : List String} (h : enteredItems items orderItems stdin = some lines)
    (hne : ∀ line ∈ orderItems, line.item.id ≠ 99) : ∀ line ∈ lines, line.item.id ≠ 99 := by
  induction stdin using List.twoStepInduction generalizing orderItems with
  | nil => cases h
  | singleton id =>
    rw [enteredItems] at h
    split_ifs at h
    exact Option.some.inj h ▸ hne
  | cons_cons id quantity stdin ih _ =>
    rw [enteredItems] at h
    split_ifs at h with hid
    · exact Option.some.inj h ▸ hne
    · refine ih h fun line hline => ?_
      rcases List.mem_append.mp hline with hline | hline
      · exact hne line hline
      · obtain ⟨item, hitem, rfl⟩ := Option.map_eq_some_iff.mp (Option.mem_toList.mp hline)
        exact fun heq => hid ((lookup_some hitem).2.symm.trans heq)

/-- There is an input for `createOrder()`, and one for `updateItems()` on every order, that leads to
an order of just the item in the quantity. -/
structure Orderable (P : Platform) (st : State) (item : Item) (quantity : ℤ) : Prop where
  created : ∃ stdin st' order,
    (step P).Leaves (State.Within .createOrder)
      ⟨{ st.process with stdin := stdin }, .createOrder, st.stack⟩ st' ∧
    st'.globals = { st.globals with logisticsOrder := st.globals.logisticsOrder ++ [order] } ∧
    order.itemsCarried = [⟨item, quantity⟩]
  updated : ∀ id index, firstIndex st.globals.logisticsOrder id = some index →
    ∃ stdin st' order,
      (step P).Leaves (State.Within .updateItems)
        ⟨{ st.process with stdin := stdin }, .updateItems, st.stack⟩ st' ∧
      st'.globals.logisticsOrder[index]? = some order ∧ order.id = id ∧
      order.itemsCarried = [⟨item, quantity⟩]

section Orderable
variable {P : Platform} {st : State} {item : Item} {quantity : ℤ}

theorem orderable_created (hst : st.IdsInRange) {text : String} {date : Date}
    (hdate : P.date text = some date) (hitem : lookup st.globals.items item.id = some item)
    (hquantity : InRange quantity) (hne : item.id ≠ 99)
    (hcost : InRange (quantity * item.value)) (hlocations : st.globals.locations ≠ []) :
    ∃ stdin st' order,
      (step P).Leaves (State.Within .createOrder)
        ⟨{ st.process with stdin := stdin }, .createOrder, st.stack⟩ st' ∧
      st'.globals = { st.globals with logisticsOrder := st.globals.logisticsOrder ++ [order] } ∧
      order.itemsCarried = [⟨item, quantity⟩] := by
  obtain ⟨l, locations, hl⟩ := List.exists_cons_of_ne_nil hlocations
  have hlrange : InRange l.id := hst.locations l.id (hl ▸ List.mem_cons_self)
  have hlookup : lookup st.globals.locations l.id = some l := by
    rw [hl]
    exact List.find?_cons_of_pos (by simp)
  have hid : InRange item.id := hst.items item.id (key_mem_keys (lookup_some hitem).1)
  let lines : List String := [toString item.id, toString quantity, "99"]
  let stdin : List String := "0" :: toString l.id :: toString l.id :: text :: text :: lines
  have hentered : ∀ rest, enteredDate P (text :: rest) = some (date, rest) :=
    fun rest => enteredDate_of_date hdate
  have hfrom : lookup st.globals.locations (enteredInt stdin.tail) = some l := by
    rw [← hlookup]
    exact congrArg _ (enteredInt_toString hlrange _)
  have hto : lookup st.globals.locations (enteredInt stdin.tail.tail) = some l := by
    rw [← hlookup]
    exact congrArg _ (enteredInt_toString hlrange _)
  obtain ⟨st', hleaves, -, -, hglobals⟩ :=
    createOrder_leaves (p := { st.process with stdin := stdin }) st.stack (hentered _)
      (hentered lines) (enteredItems_single hitem hid hne hquantity)
      (getOrderTotal_singleton.mpr ⟨hcost, rfl⟩) hfrom hto
  exact ⟨stdin, st', _, hleaves, hglobals, rfl⟩

theorem orderable_updated (hst : st.IdsInRange)
    (hitem : lookup st.globals.items item.id = some item)
    (hquantity : InRange quantity) (hne : item.id ≠ 99)
    (hcost : InRange (quantity * item.value)) {id : ℤ} {index : ℕ}
    (hindex : firstIndex st.globals.logisticsOrder id = some index) :
    ∃ stdin st' order,
      (step P).Leaves (State.Within .updateItems)
        ⟨{ st.process with stdin := stdin }, .updateItems, st.stack⟩ st' ∧
      st'.globals.logisticsOrder[index]? = some order ∧ order.id = id ∧
      order.itemsCarried = [⟨item, quantity⟩] := by
  have hid : InRange item.id := hst.items item.id (key_mem_keys (lookup_some hitem).1)
  have horder : InRange id :=
    hst.orders id (firstIndex_isSome_iff.mp (Option.isSome_iff_exists.mpr ⟨index, hindex⟩))
  let stdin : List String := toString id :: [toString item.id, toString quantity, "99"]
  have hfound : firstIndex st.globals.logisticsOrder (enteredInt stdin) = some index := by
    rw [← hindex]
    exact congrArg _ (enteredInt_toString horder _)
  obtain ⟨st', hleaves, hglobals⟩ :=
    updateItems_leaves (P := P) (p := { st.process with stdin := stdin }) st.stack hfound
      (enteredItems_single hitem hid hne hquantity) (getOrderTotal_singleton.mpr ⟨hcost, rfl⟩)
  obtain ⟨order, horder, hkey⟩ := firstIndex_some hindex
  refine ⟨stdin, st',
    { order with itemsCarried := [⟨item, quantity⟩], cost := quantity * item.value },
    hleaves, ?_, hkey, rfl⟩
  rw [hglobals]
  change (st.globals.logisticsOrder.modify index _)[index]? = _
  rw [List.getElem?_modify_eq, horder]
  rfl

theorem created_inv {stdin : List String} {st' : State} {order : LogisticsOrder}
    (hleaves : (step P).Leaves (State.Within .createOrder)
      ⟨{ st.process with stdin := stdin }, .createOrder, st.stack⟩ st')
    (hglobals : st'.globals =
      { st.globals with logisticsOrder := st.globals.logisticsOrder ++ [order] })
    (hline : order.itemsCarried = [⟨item, quantity⟩]) :
    item.id ≠ 99 ∧ InRange (quantity * item.value) ∧ st.globals.locations ≠ [] := by
  obtain ⟨_, _, _, _, lines, cost, l, _, -, -, hlines, hcost, hl, -, hglobals'⟩ :=
    createOrder_leaves_inv st.stack hleaves
  have happend := congrArg Globals.logisticsOrder (hglobals.symm.trans hglobals')
  obtain rfl : order = _ := List.singleton_inj.mp (List.append_cancel_left happend)
  obtain rfl : lines = _ := hline
  refine ⟨?_, (getOrderTotal_singleton.mp hcost).1, ?_⟩
  · exact enteredItems_ne hlines (fun _ h => by cases h) _ (List.mem_singleton_self _)
  · exact List.ne_nil_of_mem (lookup_some hl).1

end Orderable

/-- In every store that a run reaches, an item that is the first with its id can be ordered exactly
if its id is not the stop code, its price fits an `Int` and there is a location; the formatter
reads the date of the initial order. -/
theorem run_orderable_iff {P : Platform} {stdin : List String} {ticks : List Unit} {st : State}
    (hrun : (step P).run (launch P stdin) ticks = .ok st)
    (hdate : (P.date "07-21-2023").isSome) {item : Item} {quantity : ℤ}
    (hitem : lookup st.globals.items item.id = some item) (hquantity : InRange quantity) :
    Orderable P st item quantity ↔
      item.id ≠ 99 ∧ InRange (quantity * item.value) ∧ st.globals.locations ≠ [] := by
  have hst := run_idsInRange hrun
  obtain ⟨date, hdate⟩ := Option.isSome_iff_exists.mp hdate
  constructor
  · rintro ⟨⟨stdin, st', order, hleaves, hglobals, hline⟩, -⟩
    exact created_inv hleaves hglobals hline
  · rintro ⟨hne, hcost, hlocations⟩
    exact ⟨orderable_created hst hdate hitem hquantity hne hcost hlocations,
      fun id index hindex => orderable_updated hst hitem hquantity hne hcost hindex⟩

/-- The user creates an item with the stop code as its id. -/
def Sample.stopCodeItem : List String := ["1", "1", "99", "Lamp", "", "1", "5"]

/-- The item is stored and is the first with its id, and no input orders it. -/
theorem run_stopCodeItem :
    ∃ st, (step .utc).run (launch .utc Sample.stopCodeItem) (List.replicate 3 ()) = .ok st ∧
      lookup st.globals.items 99 = some ⟨99, "Lamp", "", 1, 5⟩ ∧
      ¬ Orderable .utc st ⟨99, "Lamp", "", 1, 5⟩ 1 := by
  refine ⟨_, rfl, by decide, fun h => ?_⟩
  obtain ⟨stdin, st', order, hleaves, hglobals, hline⟩ := h.created
  exact (created_inv hleaves hglobals hline).1 rfl

theorem run_orderable_iff_stopCodeItem :
    ∃ st, (step .utc).run (launch .utc Sample.stopCodeItem) (List.replicate 3 ()) = .ok st ∧
      (Orderable .utc st ⟨99, "Lamp", "", 1, 5⟩ 1 ↔
        (99 : ℤ) ≠ 99 ∧ InRange (1 * 5) ∧ st.globals.locations ≠ []) :=
  ⟨_, rfl, @run_orderable_iff .utc Sample.stopCodeItem (List.replicate 3 ()) _ rfl (by decide)
    ⟨99, "Lamp", "", 1, 5⟩ 1 (by decide) (by decide)⟩

end Info6350.Assignment5
