import Info6350.EmptyApp.App

/-! # The remembered index is the fetched record

A Fetch that succeeds closes the id field and opens Update, and while the screen is shown
only Update writes to the arrays.  So an open Update finds the fetched record at the
remembered index.  Every order carries a line, and no step indexes an array out of range.
-/

namespace Info6350.EmptyApp
open Library Swift Logistics TextApp

variable {F : DateFormatter}

structure MainView.WellFormed (main : MainView) : Prop where
  items : Distinct main.items
  locations : Distinct main.locations
  logisticsOrder : Distinct main.logisticsOrder
  carried : ∀ o ∈ main.logisticsOrder, o.itemsCarried ≠ []

/-- Only the editable fields of the record at `row` change. -/
def Updater.Changes (u : Updater) (row : ℕ) (main main' : MainView) : Prop :=
  match u with
  | .updateItem => ∃ item name desc weight value, main.items[row]? = some item ∧ main' =
      { main with
        items := main.items.set row
          { item with name := name, desc := desc, weight := weight, value := value } }
  | .updateLocation => ∃ location street city state country zip,
      main.locations[row]? = some location ∧ main' =
      { main with
        locations := main.locations.set row
          { location with
            street := street, city := city, state := state, country := country, zip := zip } }
  | .updateDepartureDate => ∃ order departureDate, main.logisticsOrder[row]? = some order ∧ main' =
      { main with
        logisticsOrder := main.logisticsOrder.set row
          { order with departureDate := departureDate } }
  | .updateOrderItems => ∃ order line cost, main.logisticsOrder[row]? = some order ∧ main' =
      { main with
        logisticsOrder := main.logisticsOrder.set row
          { order with itemsCarried := [line], cost := cost } }

/-- If Update is open, the record whose id is in the closed id field is at the remembered
index. -/
def UpdateView.Fetched (C : UpdateController) (main : MainView) (view : UpdateView) : Prop :=
  view.isEnabled = true → ∃ (row : ℕ) (x : C.Record), view.foundIndex = row ∧
    (C.array main)[row]? = some x ∧ (view.form C.screen.tfId).isEnabled = false ∧
    (view.form C.screen.tfId).int? = some (Keyed.key x)

def Output.Fetched (F : DateFormatter) (main : MainView) : Output → Prop
  | .update u v => v.Fetched (u.controller F) main
  | _ => True

structure AppState.Inv (F : DateFormatter) (st : AppState) : Prop where
  wellFormed : st.main.WellFormed
  fetched : st.output.Fetched F st.main

/-! ## The update screens -/

namespace Updater
variable {u : Updater} {view : UpdateView} {main : MainView}

theorem lawful (u : Updater) : (u.controller F).screen.Lawful := by
  cases u with
  | updateItem => exact updateItem_lawful _
  | updateLocation => exact updateLocation_lawful
  | updateDepartureDate => exact updateDepartureDate_lawful F
  | updateOrderItems => exact updateOrderItems_lawful _

theorem array_write (u : Updater) (l : List (u.controller F).Record) (main : MainView) :
    (u.controller F).array ((u.controller F).write l main) = l := by
  cases u <;> rfl

theorem fetch_fetched {view' : UpdateView} (h : (u.controller F).fetch view main = .ok view') :
    view'.Fetched (u.controller F) main := by
  obtain ⟨⟨index, form⟩, hfetch, h⟩ := bind_ok_iff.mp h
  obtain rfl := pure_ok_iff.mp h
  obtain ⟨record, hid, hrecord, hfill⟩ := ChangeScreen.fetch_ok hfetch
  rw [← u.lawful.fill_tfId hfill] at hid
  intro _
  refine ⟨index, record, rfl, hrecord, ?_, ?_⟩
  · simp
  · simpa [UITextField.int?] using hid

/-- The fields can be filled from every record, from an order because it carries a line. -/
theorem fill_inRange (hmain : main.WellFormed) {record : (u.controller F).Record}
    (hrecord : record ∈ (u.controller F).array main) {form : Form Field} {t : Trap}
    (h : (u.controller F).screen.fill record form = .error t) : t = .overflow := by
  cases u with
  | updateOrderItems =>
    rcases bind_error_iff.mp h with h | ⟨line, -, h⟩
    · obtain ⟨line, lines, hlines⟩ := List.exists_cons_of_ne_nil (hmain.carried record hrecord)
      have hline : subscript record.itemsCarried 0 = .ok line :=
        (subscript_natCast _ 0).mpr (by rw [hlines]; rfl)
      rw [hline] at h
      cases h
    · cases h
  | _ => cases h

theorem fetch_inRange (hmain : main.WellFormed) :
    Stops Exit.OverflowOnly ((u.controller F).fetch view main) :=
  (ChangeScreen.fetch_stops fun _ hrecord _ ht => fill_inRange hmain hrecord ht).bind
    fun _ => stops_pure _

theorem update_inRange (hview : view.Fetched (u.controller F) main)
    (henabled : view.isEnabled = true) :
    Stops Exit.OverflowOnly ((u.controller F).update view main) := by
  obtain ⟨row, x, hrow, hx, -⟩ := hview henabled
  refine (u.lawful.change_stops (x := x) ?_).bind fun _ => stops_pure _
  rw [hrow]
  exact (subscript_natCast _ row).mpr hx

theorem update_ok {main' : MainView} {a : Alert}
    (h : (u.controller F).update view main = .ok (main', a)) :
    ∃ (entered : (u.controller F).Record → Except Trap (u.controller F).Record) (row : ℕ)
      (x y : (u.controller F).Record),
      (u.controller F).screen.entered main.items view.form = .ok entered ∧
      view.foundIndex = row ∧ ((u.controller F).array main)[row]? = some x ∧ entered x = .ok y ∧
      main' = (u.controller F).write (((u.controller F).array main).set row y) main := by
  obtain ⟨⟨array, y⟩, hchange, h⟩ := bind_ok_iff.mp h
  obtain ⟨rfl, -⟩ := Prod.mk.inj (pure_ok_iff.mp h)
  obtain ⟨entered, row, x, hentered, hrow, hx, hy, rfl⟩ := ChangeScreen.change_ok_iff.mp hchange
  exact ⟨entered, row, x, y, hentered, hrow, hx, hy, rfl⟩

theorem update_changes {main' : MainView} {a : Alert}
    (h : (u.controller F).update view main = .ok (main', a)) :
    ∃ row : ℕ, view.foundIndex = row ∧ u.Changes row main main' := by
  obtain ⟨entered, row, x, y, hentered, hrow, hx, hy, rfl⟩ := update_ok h
  refine ⟨row, hrow, ?_⟩
  cases u with
  | updateItem =>
    obtain ⟨name, desc, weight, value, rfl⟩ := updateItem_entered hentered hy
    exact ⟨x, name, desc, weight, value, hx, rfl⟩
  | updateLocation =>
    obtain ⟨street, city, state, country, zip, rfl⟩ := updateLocation_entered hentered hy
    exact ⟨x, street, city, state, country, zip, hx, rfl⟩
  | updateDepartureDate =>
    obtain ⟨date, rfl⟩ := updateDepartureDate_entered hentered hy
    exact ⟨x, date, hx, rfl⟩
  | updateOrderItems =>
    obtain ⟨line, cost, rfl⟩ := updateOrderItems_entered hentered hy
    exact ⟨x, line, cost, hx, rfl⟩

end Updater

namespace UpdateView.Fetched
variable {view : UpdateView} {main : MainView}

/-- Typing does not reach the id field once it is closed. -/
theorem type {C : UpdateController} (h : view.Fetched C main) (f : Field) (text : String) :
    UpdateView.Fetched C main { view with form := view.form.type f text } := by
  intro henabled
  obtain ⟨row, x, hrow, hx, hclosed, hid⟩ := h henabled
  refine ⟨row, x, hrow, hx, ?_, ?_⟩
  · simpa using hclosed
  · by_cases hf : C.screen.tfId = f
    · subst hf
      rwa [Form.type_of_disabled hclosed]
    · change (view.form.type f text C.screen.tfId).int? = _
      rw [Form.type_of_ne hf]
      exact hid

theorem update {u : Updater} (h : view.Fetched (u.controller F) main) {main' : MainView} {a : Alert}
    (hupdate : (u.controller F).update view main = .ok (main', a)) :
    view.Fetched (u.controller F) main' := by
  intro henabled
  obtain ⟨row, x, hrow, hx, hclosed, hid⟩ := h henabled
  obtain ⟨entered, row', x', y, hentered, hrow', hx', hy, rfl⟩ := Updater.update_ok hupdate
  obtain rfl : row' = row := by exact_mod_cast hrow'.symm.trans hrow
  obtain rfl : x' = x := Option.some.inj (hx'.symm.trans hx)
  refine ⟨row', y, hrow, ?_, hclosed, ?_⟩
  · rw [u.array_write]
    exact List.getElem?_set_self (List.getElem?_eq_some_iff.mp hx).choose
  · rw [u.lawful.key_entered hentered hy]
    exact hid

end UpdateView.Fetched

/-! ## The arrays -/

namespace MainView.WellFormed
variable {main main' : MainView} {a : Alert}

theorem generateDummyData (F : DateFormatter) (now : Date) :
    (EmptyApp.generateDummyData F now).WellFormed where
  items := (by decide : Distinct [item1, item2])
  locations := (by decide : Distinct [location1, location2])
  logisticsOrder := List.nodup_singleton _
  carried o ho := by
    obtain rfl := List.mem_singleton.mp ho
    exact List.cons_ne_nil _ _

theorem changes (h : main.WellFormed) {u : Updater} {row : ℕ} (hu : u.Changes row main main') :
    main'.WellFormed := by
  cases u with
  | updateItem =>
    obtain ⟨item, name, desc, weight, value, hitem, rfl⟩ := hu
    exact { h with
      items := Edit.distinct_onList (e := .update row _) h.items ⟨item, hitem, rfl⟩ }
  | updateLocation =>
    obtain ⟨location, street, city, state, country, zip, hlocation, rfl⟩ := hu
    exact { h with
      locations := Edit.distinct_onList (e := .update row _) h.locations ⟨location, hlocation, rfl⟩ }
  | updateDepartureDate =>
    obtain ⟨order, date, horder, rfl⟩ := hu
    refine { h with
      logisticsOrder :=
        Edit.distinct_onList (e := .update row _) h.logisticsOrder ⟨order, horder, rfl⟩
      carried := fun o ho => ?_ }
    rcases List.mem_or_eq_of_mem_set ho with ho | rfl
    · exact h.carried o ho
    · exact h.carried order (List.mem_of_getElem? horder)
  | updateOrderItems =>
    obtain ⟨order, line, cost, horder, rfl⟩ := hu
    refine { h with
      logisticsOrder :=
        Edit.distinct_onList (e := .update row _) h.logisticsOrder ⟨order, horder, rfl⟩
      carried := fun o ho => ?_ }
    rcases List.mem_or_eq_of_mem_set ho with ho | rfl
    · exact h.carried o ho
    · exact List.cons_ne_nil _ _

theorem create (h : main.WellFormed) {menu : Menu} {form : Form Field}
    (hcreate : EmptyApp.create F menu form main = .ok (main', a)) : main'.WellFormed := by
  cases menu with
  | item =>
    obtain ⟨item, hitem, hcreate⟩ := bind_ok_iff.mp hcreate
    obtain ⟨rfl, -⟩ := Prod.mk.inj (pure_ok_iff.mp hcreate)
    exact { h with
      items := Edit.distinct_onList (e := .create item) h.items (createItem_fresh _ hitem) }
  | location =>
    obtain ⟨location, hlocation, hcreate⟩ := bind_ok_iff.mp hcreate
    obtain ⟨rfl, -⟩ := Prod.mk.inj (pure_ok_iff.mp hcreate)
    exact { h with
      locations := Edit.distinct_onList (e := .create location) h.locations
        (createLocation_fresh hlocation) }
  | order =>
    obtain ⟨order, horder, hcreate⟩ := bind_ok_iff.mp hcreate
    obtain ⟨rfl, -⟩ := Prod.mk.inj (pure_ok_iff.mp hcreate)
    obtain ⟨hfresh, -, line, -, hline, -⟩ := createOrder_ok F _ horder
    refine { h with
      logisticsOrder := Edit.distinct_onList (e := .create order) h.logisticsOrder hfresh
      carried := fun o ho => ?_ }
    rcases List.mem_append.mp ho with ho | ho
    · exact h.carried o ho
    · rw [List.mem_singleton.mp ho, hline]
      exact List.cons_ne_nil _ _

theorem delete (h : main.WellFormed) {menu : Menu} {form : Form Field}
    (hdelete : EmptyApp.delete menu form main = .ok (main', a)) : main'.WellFormed := by
  cases menu with
  | item =>
    obtain ⟨⟨items, _⟩, hdeletion, hdelete⟩ := bind_ok_iff.mp hdelete
    obtain ⟨rfl, -⟩ := Prod.mk.inj (pure_ok_iff.mp hdelete)
    obtain ⟨row, _, _, _, rfl⟩ := deletion_ok hdeletion
    exact { h with items := h.items.sublist (List.eraseIdx_sublist _ row) }
  | location =>
    obtain ⟨⟨locations, _⟩, hdeletion, hdelete⟩ := bind_ok_iff.mp hdelete
    obtain ⟨rfl, -⟩ := Prod.mk.inj (pure_ok_iff.mp hdelete)
    obtain ⟨row, _, _, _, rfl⟩ := deletion_ok hdeletion
    exact { h with locations := h.locations.sublist (List.eraseIdx_sublist _ row) }
  | order =>
    obtain ⟨⟨orders, _⟩, hdeletion, hdelete⟩ := bind_ok_iff.mp hdelete
    obtain ⟨rfl, -⟩ := Prod.mk.inj (pure_ok_iff.mp hdelete)
    obtain ⟨row, _, _, _, rfl⟩ := deletion_ok hdeletion
    exact { h with
      logisticsOrder := h.logisticsOrder.sublist (List.eraseIdx_sublist _ row)
      carried := fun o ho => h.carried o (List.mem_of_mem_eraseIdx ho) }

end MainView.WellFormed

/-! ## Runs -/

section Steps
variable {st st' : AppState}

theorem create_inRange (menu : Menu) (form : Form Field) (main : MainView) :
    Stops Exit.OverflowOnly (create F menu form main) := by
  cases menu with
  | item => exact (stops_createItem _ _ _).bind fun _ => stops_pure _
  | location => exact (stops_createLocation _ _).bind fun _ => stops_pure _
  | order => exact (stops_createOrder F _ _ _ _ _).bind fun _ => stops_pure _

theorem delete_inRange (menu : Menu) (form : Form Field) (main : MainView) :
    Stops Exit.OverflowOnly (delete menu form main) := by
  cases menu <;> exact (stops_deletion _ _ _).bind fun _ => stops_pure _

theorem AppState.Inv.launch (F : DateFormatter) (now : Date) : (AppState.launch F now).Inv F :=
  ⟨MainView.WellFormed.generateDummyData F now, trivial⟩

theorem AppState.Inv.submenuStep (h : st.Inv F) (menu : Menu) (e : Event) :
    (submenuStep st menu e).Inv F := by
  unfold EmptyApp.submenuStep
  split
  case h_3 u =>
    split_ifs
    · exact ⟨h.wellFormed, fun henabled => by cases henabled⟩
    · exact h
  case h_5 | h_6 =>
    split_ifs
    · exact ⟨h.wellFormed, trivial⟩
    · exact h
  case h_7 => exact h
  all_goals exact ⟨h.wellFormed, trivial⟩

theorem AppState.Inv.outputStep (h : st.Inv F) {e : Event}
    (hstep : outputStep F st st.output e = .ok st') : st'.Inv F := by
  obtain ⟨hmain, hfetched⟩ := h
  obtain ⟨main, menu, output, alerts⟩ := st
  change EmptyApp.outputStep F _ output e = _ at hstep
  unfold EmptyApp.outputStep at hstep
  split at hstep
  case h_2 =>
    rcases settle_ok hstep with ⟨r, hr, rfl⟩ | ⟨alerts, rfl⟩
    · exact ⟨hmain.create hr, trivial⟩
    · exact ⟨hmain, trivial⟩
  case h_3 u view f text =>
    obtain rfl := Except.ok.inj hstep
    exact ⟨hmain, UpdateView.Fetched.type hfetched f text⟩
  case h_4 u view =>
    rcases settle_ok hstep with ⟨view', hview, rfl⟩ | ⟨alerts, rfl⟩
    · exact ⟨hmain, Updater.fetch_fetched hview⟩
    · exact ⟨hmain, hfetched⟩
  case h_5 u view =>
    split_ifs at hstep with henabled
    · rcases settle_ok hstep with ⟨r, hr, rfl⟩ | ⟨alerts, rfl⟩
      · obtain ⟨row, -, hu⟩ := Updater.update_changes hr
        exact ⟨hmain.changes hu, UpdateView.Fetched.update hfetched hr⟩
      · exact ⟨hmain, hfetched⟩
    · obtain rfl := Except.ok.inj hstep
      exact ⟨hmain, hfetched⟩
  case h_7 =>
    rcases settle_ok hstep with ⟨r, hr, rfl⟩ | ⟨alerts, rfl⟩
    · exact ⟨hmain.delete hr, trivial⟩
    · exact ⟨hmain, trivial⟩
  case h_9 | h_11 =>
    rcases settle_ok hstep with ⟨found, -, rfl⟩ | ⟨alerts, rfl⟩ <;> exact ⟨hmain, trivial⟩
  case h_12 =>
    obtain rfl := Except.ok.inj hstep
    exact ⟨hmain, hfetched⟩
  all_goals
    obtain rfl := Except.ok.inj hstep
    exact ⟨hmain, trivial⟩

theorem AppState.Inv.outputStep_inRange (h : st.Inv F) (e : Event) :
    EmptyApp.outputStep F st st.output e ≠ .error .indexOutOfRange := by
  obtain ⟨hmain, hfetched⟩ := h
  obtain ⟨main, menu, output, alerts⟩ := st
  change EmptyApp.outputStep F _ output e ≠ _
  unfold EmptyApp.outputStep
  split
  case h_2 menu form => exact settle_inRange (create_inRange menu form main)
  case h_4 u view => exact settle_inRange (Updater.fetch_inRange hmain)
  case h_5 u view =>
    split_ifs with henabled
    · exact settle_inRange (Updater.update_inRange hfetched henabled)
    · exact fun hstep => by cases hstep
  case h_7 menu form => exact settle_inRange (delete_inRange menu form main)
  case h_9 =>
    exact settle_inRange ((stops_enteredDate F _ _ _).bind fun _ => stops_pure _)
  case h_11 => exact settle_inRange ((stops_intOf _ _).bind fun _ => stops_pure _)
  all_goals exact fun hstep => by cases hstep

theorem step_inRange (h : st.Inv F) (e : Event) : step F st e ≠ .error .indexOutOfRange := by
  unfold step
  split
  case h_2 | h_3 | h_4 => exact h.outputStep_inRange _
  all_goals exact fun hstep => by cases hstep

theorem step_preserves_inv (F : DateFormatter) :
    (step F).Preserves Machine.AnyStep (AppState.Inv F) := by
  intro st e st' h _ hstep
  unfold step at hstep
  split at hstep
  case h_1 =>
    obtain rfl := Except.ok.inj hstep
    exact ⟨h.wellFormed, trivial⟩
  case h_2 | h_3 | h_4 => exact h.outputStep hstep
  case h_5 =>
    obtain rfl := Except.ok.inj hstep
    cases st.menu with
    | none => exact h
    | some menu => exact h.submenuStep menu e

end Steps

/-- In every state that a run from the dummy data reaches no event indexes an array out of range.
Where Update is open, the remembered index is in the array and the record there has the id in
the id field, and a tap leaves the arrays alone or changes the editable fields of this record. -/
theorem run_indexIsFetched (F : DateFormatter) (now : Date) {events : List Event} {st : AppState}
    (h : (step F).run (AppState.launch F now) events = .ok st) :
    (∀ e, step F st e ≠ .error .indexOutOfRange) ∧
    ∀ u view, st.output = .update u view → view.isEnabled = true →
      ∃ (row : ℕ) (x : (u.controller F).Record), view.foundIndex = row ∧
        ((u.controller F).array st.main)[row]? = some x ∧
        (view.form (u.controller F).screen.tfId).int? = some (Keyed.key x) ∧
        ∀ st', step F st .button = .ok st' → st'.main = st.main ∨ u.Changes row st.main st'.main := by
  have hinv := (step_preserves_inv F).run_any (AppState.Inv.launch F now) h
  refine ⟨step_inRange hinv, fun u view houtput henabled => ?_⟩
  obtain ⟨main, menu, _, alerts⟩ := st
  obtain rfl := houtput
  obtain ⟨row, x, hrow, hx, -, hid⟩ := hinv.fetched henabled
  refine ⟨row, x, hrow, hx, hid, fun st' hstep => ?_⟩
  change (if view.isEnabled then _ else _) = _ at hstep
  rw [if_pos henabled] at hstep
  rcases settle_ok hstep with ⟨⟨main', a⟩, hupdate, rfl⟩ | ⟨_, rfl⟩
  · obtain ⟨row', hrow', hchanges⟩ := Updater.update_changes hupdate
    obtain rfl : row' = row := by exact_mod_cast hrow'.symm.trans hrow
    exact .inr hchanges
  · exact .inl rfl

/-- Fetch the second item of the dummy data, try to edit its id, and rename it. -/
def Sample.rename : List Event :=
  [.getMenu .item, .updateTap .updateItem, .type .tfItemId "11", .fetchButton,
    .type .tfItemId "10", .type .tfItemName "Earbuds"]

/-- Update renames the second item, whatever was typed in the closed id field. -/
theorem run_indexIsFetched_rename :
    ∃ st view st', (step .utc).run (AppState.launch .utc 0) Sample.rename = .ok st ∧
      st.output = .update .updateItem view ∧ view.isEnabled = true ∧
      step .utc st .button = .ok st' ∧ st'.main.items.map Item.name = ["Xbox", "Earbuds"] ∧
      (st'.main = st.main ∨ Updater.updateItem.Changes 1 st.main st'.main) := by
  refine ⟨_, _, _, rfl, rfl, rfl, rfl, rfl, ?_⟩
  obtain ⟨row, x, hrow, -, -, htap⟩ :=
    (@run_indexIsFetched .utc 0 Sample.rename _ rfl).2 .updateItem _ rfl rfl
  obtain rfl : 1 = row := Nat.cast_injective (R := ℤ) hrow
  exact htap _ rfl

end Info6350.EmptyApp
