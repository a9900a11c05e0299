import Info6350.Assignment8.Persistence
import Info6350.TextApp.Registry

/-! # Assignment 8 keeps the registry

A handler that succeeds performs one operation on the maps that the arrays represent and shows the
alert that confirms it; nothing else changes a record or confirms an operation.  What the database
answers makes no difference.
-/

namespace Info6350.Assignment8
open Library Swift Logistics TextApp

variable {F : DateFormatter}

def AppState.registry (st : AppState) : Registry := st.store.registry

def AppState.confirmed (st : AppState) : List Alert := confirmations st.alerts

theorem btnCreateTap_performs {written : Bool} {m : Menu} {form : Form Field} {s : Store}
    {r : Store × Alert} (hs : s.DistinctIds) (h : btnCreateTap F written m form s = .ok r) :
    Registry.Performs s.registry r.1.registry r.2 := by
  cases m with
  | item =>
    obtain ⟨item, hitem, h⟩ := bind_ok_iff.mp h
    obtain rfl := pure_ok_iff.mp h
    exact Registry.performs_items (.create item)
      (create_apply hs.items (createItem_fresh _ hitem)) rfl
  | location =>
    obtain ⟨location, hlocation, h⟩ := bind_ok_iff.mp h
    obtain rfl := pure_ok_iff.mp h
    exact Registry.performs_locations (.create location)
      (create_apply hs.locations (createLocation_fresh hlocation)) rfl
  | order =>
    obtain ⟨order, horder, h⟩ := bind_ok_iff.mp h
    obtain rfl := pure_ok_iff.mp h
    exact Registry.performs_orders (.create order)
      (create_apply hs.logisticsOrder (createOrder_ok F _ horder).fresh) rfl

theorem btnDeleteTap_performs {written : Bool} {m : Menu} {form : Form Field} {s : Store}
    {r : Store × Alert} (hs : s.DistinctIds) (h : btnDeleteTap written m form s = .ok r) :
    Registry.Performs s.registry r.1.registry r.2 := by
  cases m with
  | item =>
    obtain ⟨⟨items, id⟩, hdeletion, h⟩ := bind_ok_iff.mp h
    obtain rfl := pure_ok_iff.mp h
    exact Registry.performs_items (.delete id) (deletion_apply hs.items hdeletion) rfl
  | location =>
    obtain ⟨⟨locations, id⟩, hdeletion, h⟩ := bind_ok_iff.mp h
    obtain rfl := pure_ok_iff.mp h
    exact Registry.performs_locations (.delete id) (deletion_apply hs.locations hdeletion) rfl
  | order =>
    obtain ⟨⟨orders, id⟩, hdeletion, h⟩ := bind_ok_iff.mp h
    obtain rfl := pure_ok_iff.mp h
    exact Registry.performs_orders (.delete id) (deletion_apply hs.logisticsOrder hdeletion) rfl

theorem Changer.btnUpdateTap_performs {c : Changer} {written : Bool} {scr : FetchState} {s : Store}
    {r : Store × Alert} (hs : s.DistinctIds)
    (h : (c.controller F).btnUpdateTap written scr s = .ok r) :
    Registry.Performs s.registry r.1.registry r.2 := by
  obtain ⟨⟨array, updated⟩, hchange, h⟩ := bind_ok_iff.mp h
  obtain rfl := pure_ok_iff.mp h
  have hlawful := c.lawful (F := F)
  cases c with
  | updateItem =>
    exact Registry.performs_items (.update updated) (hlawful.change_apply hs.items hchange) rfl
  | updateLocation =>
    exact Registry.performs_locations (.update updated)
      (hlawful.change_apply hs.locations hchange) rfl
  | updateDepartureDate =>
    exact Registry.performs_orders (.update updated)
      (hlawful.change_apply hs.logisticsOrder hchange) (.inl rfl)
  | updateOrderItem =>
    exact Registry.performs_orders (.update updated)
      (hlawful.change_apply hs.logisticsOrder hchange) (.inr rfl)
  | addItems =>
    exact Registry.performs_orders (.update updated)
      (hlawful.change_apply hs.logisticsOrder hchange) (.inr rfl)

/-! ## The handlers that stop -/

theorem refuses_btnCreateTap (written : Bool) (m : Menu) (form : Form Field) (s : Store) :
    Refuses (btnCreateTap F written m form s) := by
  cases m with
  | item => exact (stops_createItem _ _ _).bind fun _ => stops_pure _
  | location => exact (stops_createLocation _ _).bind fun _ => stops_pure _
  | order => exact (refuses_createOrder _ _ _ _ _ _).bind fun _ => stops_pure _

theorem refuses_btnDeleteTap (written : Bool) (m : Menu) (form : Form Field) (s : Store) :
    Refuses (btnDeleteTap written m form s) := by
  cases m <;> exact (stops_deletion _ _ _).bind fun _ => stops_pure _

theorem Changer.refuses_entered (c : Changer) (items : List Item) (form : Form Field) :
    Refuses ((c.controller F).screen.entered items form) := by
  cases c with
  | updateItem => exact (stops_enteredItem _ _ _).bind fun _ => stops_pure _
  | updateLocation => exact (stops_enteredLocation _).bind fun _ => stops_pure _
  | updateDepartureDate => exact (stops_enteredDate _ _ _ _).bind fun _ => stops_pure _
  | updateOrderItem => exact refuses_lineCost _ _ _
  | addItems => exact refuses_lineCost _ _ _

theorem Changer.refuses_btnUpdateTap (c : Changer) (written : Bool) (scr : FetchState) (s : Store) :
    Refuses ((c.controller F).btnUpdateTap written scr s) :=
  (ChangeScreen.refuses_change c.refuses_entered _ _ _ _).bind fun _ => stops_pure _

theorem Changer.refuses_btnFetchTap (c : Changer) (scr : FetchState) (s : Store) :
    Refuses ((c.controller F).btnFetchTap scr s) :=
  (ChangeScreen.refuses_fetch _ _ _).bind fun _ => stops_pure _

theorem Changer.found_confirms (c : Changer) :
    ∀ a ∈ (c.controller F).screen.found, ¬ confirms a := by
  cases c with
  | addItems => exact List.forall_mem_singleton.mpr (by decide)
  | _ => exact List.forall_mem_nil _

/-! ## Steps and runs -/

theorem settle_reports {st st' : AppState} {h : Handler (Store × Alert)} (hrefuses : Refuses h)
    (hperforms : ∀ r, h = .ok r → st.registry.Performs r.1.registry r.2)
    (hsettle : settle st.wrote st.alerted h = .ok st') :
    Registry.step.Reports AppState.registry AppState.confirmed Command.ConfirmedBy st st' := by
  rcases settle_unsuccessful hrefuses.unsuccessful hsettle with ⟨r, hr, rfl⟩ | ⟨alerts, ha, rfl⟩
  · obtain ⟨c, hc, hconfirmed⟩ := hperforms r hr
    exact .inr ⟨c, r.2, hc, confirmations_cons hconfirmed.confirms _, hconfirmed⟩
  · exact .inl ⟨rfl, confirmations_unsuccessful ha _⟩

theorem step_reports {st st' : AppState} {i : Input} (hst : st.store.DistinctIds)
    (h : step F st i = .ok st') :
    Registry.step.Reports AppState.registry AppState.confirmed Command.ConfirmedBy st st' := by
  unfold step at h
  split at h
  case h_5 => split_ifs at h <;> obtain rfl := Except.ok.inj h <;> exact .inl ⟨rfl, rfl⟩
  case h_7 =>
    exact settle_reports (refuses_btnCreateTap _ _ _ _)
      (fun r hr => btnCreateTap_performs hst hr) h
  case h_10 =>
    exact settle_reports (refuses_btnDeleteTap _ _ _ _)
      (fun r hr => btnDeleteTap_performs hst hr) h
  case h_13 c scr _ _ =>
    rcases settle_unsuccessful (c.refuses_btnFetchTap scr _).unsuccessful h with
      ⟨r, hr, rfl⟩ | ⟨alerts, ha, rfl⟩
    · obtain ⟨⟨index, form⟩, -, hr⟩ := bind_ok_iff.mp hr
      obtain rfl := pure_ok_iff.mp hr
      exact .inl ⟨rfl, confirmations_append c.found_confirms _⟩
    · exact .inl ⟨rfl, confirmations_unsuccessful ha _⟩
  case h_14 c scr _ _ =>
    exact settle_reports (c.refuses_btnUpdateTap _ _ _)
      (fun r hr => c.btnUpdateTap_performs hst hr) h
  all_goals
    obtain rfl := Except.ok.inj h
    exact .inl ⟨rfl, rfl⟩

/-- The records at the end of a run are those that operations on the records of the database make,
each allowed when it is performed, and the app confirmed these operations and no others. -/
theorem run_refinesRegistry {db : Database} {inputs : List Input} {st : AppState}
    (h : (step F).run (AppState.launch db) inputs = .ok st) :
    ∃ commands, Registry.step.run (AppState.launch db).registry commands = .ok st.registry ∧
      List.Forall₂ Command.ConfirmedBy commands st.confirmed := by
  obtain ⟨commands, confirmed, hrun, hlog, hconfirmed⟩ :=
    Machine.Reports.run step_preserves_distinctIds (fun st i st' hst h => step_reports hst h)
      (Store.generateDummyData_matches db).distinctIds h
  refine ⟨commands, hrun, ?_⟩
  rw [hlog]
  exact hconfirmed

/-- An item is renamed and another one deleted. -/
theorem run_refinesRegistry_renameDelete : ∃ st commands,
    (step .utc).run (AppState.launch Sample.database) Sample.renameDelete = .ok st ∧
      st.confirmed.map Alert.message = ["Item updated successfully", "Delete successfully"] ∧
      Registry.step.run (AppState.launch Sample.database).registry commands = .ok st.registry ∧
      List.Forall₂ Command.ConfirmedBy commands st.confirmed := by
  obtain ⟨commands, hcommands⟩ :=
    @run_refinesRegistry .utc Sample.database Sample.renameDelete _ rfl
  exact ⟨_, commands, rfl, rfl, hcommands⟩

end Info6350.Assignment8
