import Info6350.Assignment5.Effects

/-! # Where the script ends

The main menu and the order menu call themselves again after a wrong option.  The location
menu and the item menu return, and so does every call below them, up to the loop of a search
that has an order left to print; without one the script ends.
-/

namespace Info6350.Assignment5
open Library Swift

/-! ## Menus and prompts -/

namespace Control

/-- The menu or the prompt that a function prints before anything else. -/
def prompt : Control → Option String
  | .mainMenu => some "\nMain Menu"
  | .locationMenu => some "\nLocation Menu"
  | .itemMenu => some "\nItem Menu"
  | .logisticsOrderMenu => some "\nLogistics Order Menu"
  | .createLocation | .updateLocation | .deleteLocation => some "Enter location id: "
  | .createItem | .updateItem | .deleteItem => some "Enter item id: "
  | .createOrder | .updateDepartureDate | .updateItems | .deleteOrder => some "Enter order id: "
  | .enterItems _ _ => some "Enter item id: (Enter 99 to exit)"
  | .searchByDate => some "Enter the departure date: "
  | .searchByLocation => some "Enter the location: "
  | .viewAllLocations | .viewAllItems | .viewAllOrders | .getDateFromUser _ => none

/-- The option of a menu that ends the program. -/
def exitOption : Control → Option ℤ
  | .mainMenu => some 4
  | .locationMenu | .itemMenu => some 6
  | .logisticsOrderMenu => some 9
  | _ => none

theorem run_prompt (P : Platform) {c : Control} {text : String} (h : c.prompt = some text) :
    ∃ rest, c.run P = (do Program.print text; rest) := by
  cases c <;> cases h <;> exact ⟨_, rfl⟩

end Control

/-- The location menu and the item menu have the options 1 to 6. -/
def ValidOption (option : Option ℤ) : Prop := ∃ n, option = some n ∧ 1 ≤ n ∧ n ≤ 6

/-- A function that prompts, or that prints a list and then calls one that prompts. -/
def Control.LeadsToPrompt (P : Platform) (c : Control) : Prop :=
  c.prompt.isSome ∨ ∀ p, ∃ c' q, c.run P p = .ok (.call c', q) ∧ c'.prompt.isSome

section Menus
variable {P : Platform} {p : Process Globals}

theorem viewAll_leadsToPrompt {c : Control}
    (h : c = .viewAllLocations ∨ c = .viewAllItems ∨ c = .viewAllOrders) : c.LeadsToPrompt P := by
  refine .inr fun p => ?_
  rcases h with rfl | rfl | rfl
  · exact ⟨.locationMenu, _, rfl, rfl⟩
  · exact ⟨.itemMenu, _, rfl, rfl⟩
  · exact ⟨.logisticsOrderMenu, _, rfl, rfl⟩

theorem mainMenu_call (h : chosen p.stdin ≠ some 4) :
    ∃ c q, mainMenu p = .ok (.call c, q) ∧ c.LeadsToPrompt P := by
  simp only [mainMenu, Program.print_bind, readOption_bind]
  generalize chosen p.stdin = option at h
  split
  case h_4 => exact absurd rfl h
  all_goals exact ⟨_, _, rfl, .inl rfl⟩

theorem logisticsOrderMenu_call (h : chosen p.stdin ≠ some 9) :
    ∃ c q, logisticsOrderMenu p = .ok (.call c, q) ∧ c.LeadsToPrompt P := by
  simp only [logisticsOrderMenu, Program.print_bind, readOption_bind]
  generalize chosen p.stdin = option at h
  split
  case h_2 => exact ⟨_, _, rfl, viewAll_leadsToPrompt (.inr (.inr rfl))⟩
  case h_9 => exact absurd rfl h
  all_goals exact ⟨_, _, rfl, .inl rfl⟩

theorem locationMenu_next (h : chosen p.stdin ≠ some 6) :
    ValidOption (chosen p.stdin) ∧
      (∃ c q, locationMenu p = .ok (.call c, q) ∧ c.LeadsToPrompt P) ∨
    ¬ ValidOption (chosen p.stdin) ∧ ∃ q, locationMenu p = .ok (.returned, q) := by
  simp only [locationMenu, Program.print_bind, readOption_bind]
  generalize chosen p.stdin = option at h ⊢
  split
  case h_2 =>
    exact .inl ⟨⟨_, rfl, by decide⟩, _, _, rfl, viewAll_leadsToPrompt (.inl rfl)⟩
  case h_6 => exact absurd rfl h
  case h_7 =>
    refine .inr ⟨?_, _, rfl⟩
    rintro ⟨n, rfl, hle, hge⟩
    interval_cases n <;> contradiction
  all_goals exact .inl ⟨⟨_, rfl, by decide⟩, _, _, rfl, .inl rfl⟩

theorem itemMenu_next (h : chosen p.stdin ≠ some 6) :
    ValidOption (chosen p.stdin) ∧
      (∃ c q, itemMenu p = .ok (.call c, q) ∧ c.LeadsToPrompt P) ∨
    ¬ ValidOption (chosen p.stdin) ∧ ∃ q, itemMenu p = .ok (.returned, q) := by
  simp only [itemMenu, Program.print_bind, readOption_bind]
  generalize chosen p.stdin = option at h ⊢
  split
  case h_2 =>
    exact .inl ⟨⟨_, rfl, by decide⟩, _, _, rfl, viewAll_leadsToPrompt (.inr (.inl rfl))⟩
  case h_6 => exact absurd rfl h
  case h_7 =>
    refine .inr ⟨?_, _, rfl⟩
    rintro ⟨n, rfl, hle, hge⟩
    interval_cases n <;> contradiction
  all_goals exact .inl ⟨⟨_, rfl, by decide⟩, _, _, rfl, .inl rfl⟩

theorem resume_ok_iff {stack : List (List LogisticsOrder)} :
    (∃ st, resume P p stack = .ok st) ↔ ∃ orders ∈ stack, orders ≠ [] := by
  induction stack with
  | nil =>
    refine iff_of_false (fun ⟨_, h⟩ => by cases h) ?_
    rintro ⟨orders, h, -⟩
    cases h
  | cons orders stack ih =>
    cases orders with
    | nil =>
      rw [resume, ih]
      simp
    | cons order orders => exact iff_of_true ⟨_, rfl⟩ ⟨_, List.mem_cons_self, List.cons_ne_nil _ _⟩

end Menus

/-! ## States -/

namespace State
variable (P : Platform) (st : State)

/-- After some steps the script calls a function whose first statement prints a menu or a
prompt. -/
def PromptsAgain : Prop :=
  ∃ n st' text, (step P).run st (List.replicate (n + 1) ()) = .ok st' ∧
    st'.control.prompt = some text ∧
    ∃ rest, st'.control.run P = (do Program.print text; rest)

/-- In a menu, every line but the one that chooses Exit leads to a menu or a prompt. -/
def GoesOn : Prop :=
  ∀ option, st.control.exitOption = some option → st.process.stdin ≠ [] →
    chosen st.process.stdin ≠ some option → st.PromptsAgain P

/-- In the location menu and in the item menu, the line chooses an option, or some search has an
order left to print. -/
def ChoosesOption : Prop :=
  st.control = .locationMenu ∨ st.control = .itemMenu → st.process.stdin ≠ [] →
    ValidOption (chosen st.process.stdin) ∨ ∃ orders ∈ st.stack, orders ≠ []

variable {P st}

theorem promptsAgain_of_run {n : ℕ} {st' : State}
    (h : (step P).run st (List.replicate (n + 1) ()) = .ok st')
    (hprompt : st'.control.prompt.isSome) : st.PromptsAgain P := by
  obtain ⟨text, htext⟩ := Option.isSome_iff_exists.mp hprompt
  exact ⟨n, st', text, h, htext, Control.run_prompt P htext⟩

theorem promptsAgain_of_call {c : Control} {q : Process Globals}
    (h : st.control.run P st.process = .ok (.call c, q)) (hc : c.LeadsToPrompt P) :
    st.PromptsAgain P := by
  have hstep : step P st () = .ok ⟨q, c, st.stack⟩ := bind_ok_iff.mpr ⟨_, h, rfl⟩
  rcases hc with hc | hc
  · have hrun : (step P).run st (List.replicate (0 + 1) ()) = .ok ⟨q, c, st.stack⟩ :=
      (step P).run_cons_eq_ok.mpr ⟨_, hstep, rfl⟩
    exact promptsAgain_of_run hrun hc
  · obtain ⟨c', q', hrun, hprompt⟩ := hc q
    have hnext : step P ⟨q, c, st.stack⟩ () = .ok ⟨q', c', st.stack⟩ :=
      bind_ok_iff.mpr ⟨_, hrun, rfl⟩
    have htwo : (step P).run st (List.replicate (1 + 1) ()) = .ok ⟨q', c', st.stack⟩ :=
      (step P).run_cons_eq_ok.mpr ⟨_, hstep, (step P).run_cons_eq_ok.mpr ⟨_, hnext, rfl⟩⟩
    exact promptsAgain_of_run htwo hprompt

theorem promptsAgain_of_returned {q : Process Globals}
    (h : st.control.run P st.process = .ok (.returned, q)) :
    st.PromptsAgain P ↔ ∃ orders ∈ st.stack, orders ≠ [] := by
  have hstep : step P st () = resume P q st.stack := by
    rw [step, h]
    rfl
  rw [← resume_ok_iff (P := P) (p := q)]
  constructor
  · rintro ⟨n, st', -, hrun, -⟩
    obtain ⟨m, hm, -⟩ := (step P).run_cons_eq_ok.mp hrun
    exact ⟨m, hstep ▸ hm⟩
  · rintro ⟨m, hm⟩
    have hone : (step P).run st (List.replicate (0 + 1) ()) = .ok m :=
      (step P).run_cons_eq_ok.mpr ⟨m, hstep.trans hm, rfl⟩
    refine promptsAgain_of_run hone ?_
    rw [(resume_ok hm).2]
    rfl

theorem goesOn_iff_of_returns (hmenu : st.control = .locationMenu ∨ st.control = .itemMenu)
    (hnext : chosen st.process.stdin ≠ some 6 →
      ValidOption (chosen st.process.stdin) ∧
        (∃ c q, st.control.run P st.process = .ok (.call c, q) ∧ c.LeadsToPrompt P) ∨
      ¬ ValidOption (chosen st.process.stdin) ∧
        ∃ q, st.control.run P st.process = .ok (.returned, q)) :
    st.GoesOn P ↔ st.ChoosesOption := by
  have hexit : st.control.exitOption = some 6 := by rcases hmenu with h | h <;> rw [h] <;> rfl
  constructor
  · intro h _ hstdin
    by_cases hsix : chosen st.process.stdin = some 6
    · exact .inl ⟨6, hsix, by decide⟩
    · rcases hnext hsix with ⟨hvalid, -⟩ | ⟨-, q, hrun⟩
      · exact .inl hvalid
      · exact .inr ((promptsAgain_of_returned hrun).mp (h 6 hexit hstdin hsix))
  · intro h option hoption hstdin hne
    obtain rfl : 6 = option := Option.some.inj (hexit.symm.trans hoption)
    rcases hnext hne with ⟨-, c, q, hrun, hc⟩ | ⟨hinvalid, q, hrun⟩
    · exact promptsAgain_of_call hrun hc
    · have horders := (h hmenu hstdin).resolve_left hinvalid
      exact (promptsAgain_of_returned hrun).mpr horders

theorem goesOn_iff_choosesOption : st.GoesOn P ↔ st.ChoosesOption := by
  obtain ⟨p, control, stack⟩ := st
  cases control with
  | mainMenu =>
    refine iff_of_true (fun option hoption _ hne => ?_) (fun h => by simp at h)
    obtain rfl := Option.some.inj hoption
    obtain ⟨c, q, hrun, hc⟩ := mainMenu_call (P := P) hne
    exact promptsAgain_of_call hrun hc
  | logisticsOrderMenu =>
    refine iff_of_true (fun option hoption _ hne => ?_) (fun h => by simp at h)
    obtain rfl := Option.some.inj hoption
    obtain ⟨c, q, hrun, hc⟩ := logisticsOrderMenu_call (P := P) hne
    exact promptsAgain_of_call hrun hc
  | locationMenu => exact goesOn_iff_of_returns (.inl rfl) locationMenu_next
  | itemMenu => exact goesOn_iff_of_returns (.inr rfl) itemMenu_next
  | _ => exact iff_of_true (fun option hoption => by cases hoption) (fun h => by simp at h)

end State

/-- In every run, each line that a menu reads and that does not choose Exit leads to a menu or a
prompt exactly if the location menu and the item menu read only options, except while a search
has orders left. -/
theorem run_goesOn_iff {P : Platform} {stdin : List String} {ticks : List Unit} :
    (step P).Meets (fun st _ => st.GoesOn P) (launch P stdin) ticks ↔
      (step P).Meets (fun st _ => st.ChoosesOption) (launch P stdin) ticks :=
  Machine.meets_congr_of_meets (A := Machine.AnyStep) (I := fun _ => True)
    (fun _ _ _ _ _ _ => trivial) (fun _ _ _ _ => State.goesOn_iff_choosesOption) trivial
    (Machine.meets_anyStep _ _)

def Sample.mistyped : List String := ["1", "abc"]

/-- The script ends there, but the main menu goes on after the same line. -/
theorem run_mistyped :
    (∃ st, (step .utc).run (launch .utc Sample.mistyped) [()] = .ok st ∧
      st.control = .itemMenu ∧ st.process.stdin = ["abc"] ∧ step .utc st () = .error .exit ∧
      ¬ st.GoesOn .utc) ∧
    ∃ st, step .utc (launch .utc ["abc"]) () = .ok st ∧ st.control = .mainMenu := by
  refine ⟨⟨_, rfl, rfl, rfl, rfl, fun h => ?_⟩, _, rfl, rfl⟩
  obtain ⟨n, st', -, hrun, -⟩ := h 6 rfl (by decide) (by decide)
  obtain ⟨m, hm, -⟩ := (step .utc).run_cons_eq_ok.mp hrun
  cases hm

end Info6350.Assignment5
