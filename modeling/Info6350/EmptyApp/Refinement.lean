import Info6350.EmptyApp.FetchedIndex
import Info6350.TextApp.Registry

/-! # EmptyAppFinal keeps the registry

As in Assignment 8, with three arrays and no database behind them: the confirmed operations, and no
others, make the records of the main screen.
-/

namespace Info6350.EmptyApp
open Library Swift Logistics TextApp

variable {F : DateFormatter}

def MainView.registry (main : MainView) : Registry :=
  .ofArrays main.items main.locations main.logisticsOrder

def AppState.registry (st : AppState) : Registry := st.main.registry

def AppState.confirmed (st : AppState) : List Alert := confirmations st.alerts

theorem create_performs {menu : Menu} {form : Form Field} {main : MainView} {r : MainView × Alert}
    (hmain : main.WellFormed) (h : create F menu form main = .ok r) :
    main.registry.Performs r.1.registry r.2 := by
  cases menu with
  | item =>
    obtain ⟨item, hitem, h⟩ := bind_ok_iff.mp h
    obtain rfl := pure_ok_iff.mp h
    exact Registry.performs_items (.create item)
      (create_apply hmain.items (createItem_fresh _ hitem)) rfl
  | location =>
    obtain ⟨location, hlocation, h⟩ := bind_ok_iff.mp h
    obtain rfl := pure_ok_iff.mp h
    exact Registry.performs_locations (.create location)
      (create_apply hmain.locations (createLocation_fresh hlocation)) rfl
  | order =>
    obtain ⟨order, horder, h⟩ := bind_ok_iff.mp h
    obtain rfl := pure_ok_iff.mp h
    exact Registry.performs_orders (.create order)
      (create_apply hmain.logisticsOrder (createOrder_ok F _ horder).fresh) rfl

theorem delete_performs {menu : Menu} {form : Form Field} {main : MainView} {r : MainView × Alert}
    (hmain : main.WellFormed) (h : delete menu form main = .ok r) :
    main.registry.Performs r.1.registry r.2 := by
  cases menu with
  | item =>
    obtain ⟨⟨items, id⟩, hdeletion, h⟩ := bind_ok_iff.mp h
    obtain rfl := pure_ok_iff.mp h
    exact Registry.performs_items (.delete id) (deletion_apply hmain.items hdeletion) rfl
  | location =>
    obtain ⟨⟨locations, id⟩, hdeletion, h⟩ := bind_ok_iff.mp h
    obtain rfl := pure_ok_iff.mp h
    exact Registry.performs_locations (.delete id) (deletion_apply hmain.locations hdeletion) rfl
  | order =>
    obtain ⟨⟨orders, id⟩, hdeletion, h⟩ := bind_ok_iff.mp h
    obtain rfl := pure_ok_iff.mp h
    exact Registry.performs_orders (.delete id) (deletion_apply hmain.logisticsOrder hdeletion) rfl

theorem Updater.update_performs {u : Updater} {view : UpdateView} {main : MainView}
    {r : MainView × Alert} (hmain : main.WellFormed)
    (h : (u.controller F).update view main = .ok r) : main.registry.Performs r.1.registry r.2 := by
  obtain ⟨⟨array, updated⟩, hchange, h⟩ := bind_ok_iff.mp h
  obtain rfl := pure_ok_iff.mp h
  have hlawful := u.lawful (F := F)
  cases u with
  | updateItem =>
    exact Registry.performs_items (.update updated) (hlawful.change_apply hmain.items hchange) rfl
  | updateLocation =>
    exact Registry.performs_locations (.update updated)
      (hlawful.change_apply hmain.locations hchange) rfl
  | updateDepartureDate =>
    exact Registry.performs_orders (.update updated)
      (hlawful.change_apply hmain.logisticsOrder hchange) (.inl rfl)
  | updateOrderItems =>
    exact Registry.performs_orders (.update updated)
      (hlawful.change_apply hmain.logisticsOrder hchange) (.inr rfl)

/-! ## The handlers that stop -/

theorem refuses_create (menu : Menu) (form : Form Field) (main : MainView) :
    Refuses (create F menu form main) := by
  cases menu with
  | item => exact (stops_createItem _ _ _).bind fun _ => stops_pure _
  | location => exact (stops_createLocation _ _).bind fun _ => stops_pure _
  | order => exact (refuses_createOrder _ _ _ _ _ _).bind fun _ => stops_pure _

theorem refuses_delete (menu : Menu) (form : Form Field) (main : MainView) :
    Refuses (delete menu form main) := by
  cases menu <;> exact (stops_deletion _ _ _).bind fun _ => stops_pure _

theorem Updater.refuses_update (u : Updater) (view : UpdateView) (main : MainView) :
    Refuses ((u.controller F).update view main) := by
  refine (ChangeScreen.refuses_change (fun items form => ?_) _ _ _ _).bind fun _ => stops_pure _
  cases u with
  | updateItem => exact (stops_enteredItem _ _ _).bind fun _ => stops_pure _
  | updateLocation => exact (stops_enteredLocation _).bind fun _ => stops_pure _
  | updateDepartureDate => exact (stops_enteredDate _ _ _ _).bind fun _ => stops_pure _
  | updateOrderItems => exact refuses_lineCost _ _ _

theorem Updater.refuses_fetch (u : Updater) (view : UpdateView) (main : MainView) :
    Refuses ((u.controller F).fetch view main) :=
  (ChangeScreen.refuses_fetch _ _ _).bind fun _ => stops_pure _

theorem refuses_searchOrderByDate (form : Form Field) (main : MainView) :
    Refuses (searchOrderByDate F form main) :=
  (stops_enteredDate _ _ _ _).bind fun _ => stops_pure _

theorem refuses_searchOrderByLocation (form : Form Field) (main : MainView) :
    Refuses (searchOrderByLocation form main) :=
  (stops_intOf _ _).bind fun _ => stops_pure _

/-! ## Steps and runs -/

abbrev Reports (st st' : AppState) : Prop :=
  Registry.step.Reports AppState.registry AppState.confirmed Command.ConfirmedBy st st'

theorem settle_reports {st st' : AppState} {h : Handler (MainView × Alert)} (hrefuses : Refuses h)
    (hperforms : ∀ r, h = .ok r → st.registry.Performs r.1.registry r.2)
    (hsettle : settle st.wrote st.alerted h = .ok st') : Reports st st' := by
  rcases settle_unsuccessful hrefuses.unsuccessful hsettle with ⟨r, hr, rfl⟩ | ⟨alerts, ha, rfl⟩
  · obtain ⟨c, hc, hconfirmed⟩ := hperforms r hr
    exact .inr ⟨c, r.2, hc, confirmations_cons hconfirmed.confirms _, hconfirmed⟩
  · exact .inl ⟨rfl, confirmations_unsuccessful ha _⟩

/-- A handler that shows something changes no record. -/
theorem settle_shows {α : Type} {st st' : AppState} {h : Handler α} {output : α → Output}
    (hrefuses : Refuses h)
    (hsettle : settle (fun a => st.shows (output a)) st.alerted h = .ok st') : Reports st st' := by
  rcases settle_unsuccessful hrefuses.unsuccessful hsettle with ⟨r, hr, rfl⟩ | ⟨alerts, ha, rfl⟩
  · exact .inl ⟨rfl, rfl⟩
  · exact .inl ⟨rfl, confirmations_unsuccessful ha _⟩

theorem outputStep_reports {st st' : AppState} {output : Output} {e : Event}
    (hst : st.main.WellFormed) (h : outputStep F st output e = .ok st') : Reports st st' := by
  unfold outputStep at h
  split at h
  case h_2 =>
    exact settle_reports (refuses_create _ _ _) (fun r hr => create_performs hst hr) h
  case h_4 u view => exact settle_shows (u.refuses_fetch view _) h
  case h_5 u view =>
    split_ifs at h
    · exact settle_reports (u.refuses_update view _) (fun r hr => u.update_performs hst hr) h
    · obtain rfl := Except.ok.inj h
      exact .inl ⟨rfl, rfl⟩
  case h_7 =>
    exact settle_reports (refuses_delete _ _ _) (fun r hr => delete_performs hst hr) h
  case h_9 => exact settle_shows (refuses_searchOrderByDate _ _) h
  case h_11 => exact settle_shows (refuses_searchOrderByLocation _ _) h
  all_goals
    obtain rfl := Except.ok.inj h
    exact .inl ⟨rfl, rfl⟩

theorem submenuStep_records (st : AppState) (menu : Menu) (e : Event) :
    (submenuStep st menu e).main = st.main ∧ (submenuStep st menu e).alerts = st.alerts := by
  unfold submenuStep
  split <;> try split_ifs
  all_goals exact ⟨rfl, rfl⟩

theorem step_reports {st st' : AppState} {e : Event} (hst : st.main.WellFormed)
    (h : step F st e = .ok st') : Reports st st' := by
  unfold step at h
  split at h
  case h_1 =>
    obtain rfl := Except.ok.inj h
    exact .inl ⟨rfl, rfl⟩
  case h_2 | h_3 | h_4 => exact outputStep_reports hst h
  case h_5 =>
    obtain rfl := Except.ok.inj h
    split
    · obtain ⟨hmain, halerts⟩ := submenuStep_records st ‹_› e
      exact .inl ⟨congrArg MainView.registry hmain, congrArg confirmations halerts⟩
    · exact .inl ⟨rfl, rfl⟩

/-- The records at the end of a run are those that operations on the dummy data make, each allowed
when it is performed, and the app confirmed these operations and no others. -/
theorem run_keepsRegistry (F : DateFormatter) (now : Date) {events : List Event} {st : AppState}
    (h : (step F).run (AppState.launch F now) events = .ok st) :
    ∃ commands, Registry.step.run (AppState.launch F now).registry commands = .ok st.registry ∧
      List.Forall₂ Command.ConfirmedBy commands st.confirmed := by
  obtain ⟨commands, confirmed, hrun, hlog, hconfirmed⟩ :=
    Machine.Reports.run (step_preserves_inv F) (fun st e st' hst h => step_reports hst.wellFormed h)
      (AppState.Inv.launch F now) h
  refine ⟨commands, hrun, ?_⟩
  rw [hlog]
  exact hconfirmed

/-- An item is renamed. -/
theorem run_keepsRegistry_rename : ∃ st commands,
    (step .utc).run (AppState.launch .utc 0) (Sample.rename ++ [.button]) = .ok st ∧
      st.confirmed = [⟨"Success", "Item updated successfully"⟩] ∧
      Registry.step.run (AppState.launch .utc 0).registry commands = .ok st.registry ∧
      List.Forall₂ Command.ConfirmedBy commands st.confirmed := by
  obtain ⟨commands, hcommands⟩ :=
    @run_keepsRegistry .utc 0 (Sample.rename ++ [.button]) _ rfl
  exact ⟨_, commands, rfl, rfl, hcommands⟩

end Info6350.EmptyApp
