import Info6350.Assignment5.MenuEnds
import Info6350.Assignment5.ControlFlow

/-! # Search results

Both searches call the order menu inside the loop that prints their results: after every order
the menu is shown, and the next order is printed when, and if, a menu that was called from there
returns.
-/

namespace Info6350.Assignment5
open Library Swift

namespace State
variable (P : Platform) (st : State)

/-- The orders that match, if the next function is a search that has what it searches for. -/
def searchResults : Option (List LogisticsOrder) :=
  match st.control with
  | .searchByLocation => some (st.globals.logisticsOrder.filter fun order =>
      order.toLocation.id = enteredInt st.process.stdin ∨
      order.fromLocation.id = enteredInt st.process.stdin)
  | .getDateFromUser .searchByDate =>
    (P.date (st.process.stdin.head?.getD "")).map fun date =>
      st.globals.logisticsOrder.filter fun order =>
        order.departureDate = date ∨ order.estimatedArrivalDate = date
  | _ => none

def searchPrompt : List String :=
  match st.control with
  | .searchByLocation => ["Enter the location: "]
  | _ => []

/-- A search prints the orders that match, in the order of the store, and then comes the order
menu; without a match it says so. -/
def PrintsResults : Prop :=
  ∀ orders, st.searchResults P = some orders → ∃ st', step P st () = .ok st' ∧
    st'.control = .logisticsOrderMenu ∧
    st'.process.stdout = st.process.stdout ++ st.searchPrompt ++
      if orders = [] then ["Order not found"] else orders.map P.orderText

/-- A menu that returns is not followed by results of a search before it. -/
def PrintsNoneLater : Prop :=
  ∀ q st', st.control.run P st.process = .ok (.returned, q) → step P st () = .ok st' →
    st'.process.stdout = q.stdout

def FindsOneAtMost : Prop := ∀ orders, st.searchResults P = some orders → orders.length ≤ 1

end State

section Functions
variable {P : Platform} {p q : Process Globals} {c : Control} {orders : List LogisticsOrder}

theorem search_run {stack : List (List LogisticsOrder)}
    (h : State.searchResults P ⟨p, c, stack⟩ = some orders) :
    c.run P p = showFound orders
      ⟨p.globals, p.stdin.tail, p.stdout ++ State.searchPrompt ⟨p, c, stack⟩⟩ := by
  unfold State.searchResults at h
  split at h
  · rename_i hc
    obtain rfl : c = .searchByLocation := hc
    obtain rfl := Option.some.inj h
    rfl
  · rename_i hc
    obtain rfl : c = .getDateFromUser .searchByDate := hc
    obtain ⟨date, hdate, rfl⟩ := Option.map_eq_some_iff.mp h
    rw [run_validDate _ hdate]
    change showFound _ _ = showFound _ ⟨_, _, p.stdout ++ []⟩
    rw [List.append_nil]
    rfl
  · cases h

theorem searchResults_of_run {stack : List (List LogisticsOrder)}
    (h : c.run P p = .ok (.search orders, q)) :
    State.searchResults P ⟨p, c, stack⟩ = some orders := by
  cases run_follows h with
  | foundByLocation => rfl
  | foundByDate hdate => exact Option.map_eq_some_iff.mpr ⟨_, hdate, rfl⟩

end Functions

section Runs
variable {P : Platform} {p : Process Globals}

/-- No loop of a search waits with an order left. -/
def State.NoneWaiting (st : State) : Prop := ∀ orders ∈ st.stack, orders = []

theorem step_found {st : State} {order : LogisticsOrder} {orders : List LogisticsOrder}
    (h : st.searchResults P = some (order :: orders)) :
    step P st () = .ok ⟨⟨st.globals, st.process.stdin.tail,
      st.process.stdout ++ st.searchPrompt ++ [P.orderText order]⟩, .logisticsOrderMenu,
      orders :: st.stack⟩ :=
  bind_ok_iff.mpr ⟨(.search (order :: orders), ⟨st.globals, st.process.stdin.tail,
    st.process.stdout ++ st.searchPrompt⟩), search_run h, rfl⟩

theorem step_notFound {st : State} (h : st.searchResults P = some []) :
    step P st () = .ok ⟨⟨st.globals, st.process.stdin.tail,
      st.process.stdout ++ st.searchPrompt ++ ["Order not found"]⟩, .logisticsOrderMenu,
      st.stack⟩ :=
  step_of_call st.stack (search_run h)

theorem printsResults_iff {st : State} : st.PrintsResults P ↔ st.FindsOneAtMost P := by
  refine forall_congr' fun orders => forall_congr' fun h => ?_
  match orders with
  | [] => exact iff_of_true ⟨_, step_notFound h, rfl, rfl⟩ (Nat.zero_le 1)
  | [order] => exact iff_of_true ⟨_, step_found h, rfl, rfl⟩ le_rfl
  | order :: order' :: orders =>
    refine iff_of_false ?_ (by simp)
    rintro ⟨st', hstep, -, hout⟩
    obtain rfl := Except.ok.inj ((step_found h).symm.trans hstep)
    have hlength := congrArg List.length (List.append_cancel_left hout)
    simp at hlength

theorem not_resumes {st : State} {process : Process Globals} (hst : st.NoneWaiting)
    {st' : State} : resume P process st.stack ≠ .ok st' := by
  intro h
  obtain ⟨orders, hmem, hne⟩ := resume_ok_iff.mp ⟨st', h⟩
  exact hne (hst orders hmem)

theorem printsNoneLater {st : State} (hst : st.NoneWaiting) : st.PrintsNoneLater P := by
  intro q st' hrun hstep
  obtain ⟨r, hrun', hstep⟩ := bind_ok_iff.mp hstep
  obtain rfl := Except.ok.inj (hrun.symm.trans hrun')
  exact absurd hstep (not_resumes hst)

theorem step_preserves_noneWaiting :
    (step P).Preserves (fun st _ => Machine.AnyStep st () ∧ st.FindsOneAtMost P)
      State.NoneWaiting := by
  intro st u st' hst hone hstep
  obtain ⟨⟨next, q⟩, hrun, hnext⟩ := bind_ok_iff.mp hstep
  cases next with
  | call c =>
    obtain rfl := Except.ok.inj hnext
    exact hst
  | returned => exact absurd hnext (not_resumes hst)
  | search orders =>
    have hfound : st.searchResults P = some orders := searchResults_of_run hrun
    match orders with
    | [] =>
      obtain rfl := Except.ok.inj ((step_notFound hfound).symm.trans hstep)
      exact hst
    | [order] =>
      obtain rfl := Except.ok.inj ((step_found hfound).symm.trans hstep)
      exact List.forall_mem_cons.mpr ⟨rfl, hst⟩
    | order :: order' :: orders =>
      have hlength := hone.2 _ hfound
      simp at hlength

/-- In every run over any arrays, each search prints all its results before the next menu and none
after it exactly if each search finds one order at most. -/
theorem run_printsResults_iff {c : Control} {ticks : List Unit} :
    (step P).Meets (fun st _ => st.PrintsResults P ∧ st.PrintsNoneLater P) ⟨p, c, []⟩ ticks ↔
      (step P).Meets (fun st _ => st.FindsOneAtMost P) ⟨p, c, []⟩ ticks := by
  symm
  refine Machine.meets_congr_of_meets (A := Machine.AnyStep) (I := State.NoneWaiting)
    step_preserves_noneWaiting (fun st _ hst _ => ?_) (fun _ h => by cases h)
    (Machine.meets_anyStep _ _)
  exact ⟨fun h => ⟨printsResults_iff.mpr h, printsNoneLater hst⟩,
    fun h => printsResults_iff.mp h.1⟩

end Runs

/-- The user creates a second order between the locations 1 and 2, searches for location 1, and
leaves the item menu, to which the order menu leads over the main menu, by a wrong option. -/
def Sample.twoOrders : List String :=
  ["3", "1", "22", "1", "2", "07-21-2023", "09-21-2023", "99", "7", "1", "8", "1", "x"]

/-- The search prints one of its two orders, and the other after three menus. -/
theorem run_twoOrders :
    ∃ st found missed, (step .utc).run (launch .utc Sample.twoOrders) (List.replicate 7 ()) =
        .ok st ∧
      st.searchResults .utc = some [found, missed] ∧ ¬ st.PrintsResults .utc ∧
      ∃ later q st', (step .utc).run st (List.replicate 3 ()) = .ok later ∧
        later.control.run .utc later.process = .ok (.returned, q) ∧
        step .utc later () = .ok st' ∧
        st'.process.stdout = q.stdout ++ [Platform.utc.orderText missed] := by
  refine ⟨_, _, _, rfl, rfl, fun h => ?_, _, _, _, rfl, rfl, rfl, rfl⟩
  exact absurd (printsResults_iff.mp h _ rfl) (by decide)

end Info6350.Assignment5
