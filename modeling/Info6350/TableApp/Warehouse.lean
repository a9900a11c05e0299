import Info6350.Logistics.Registry
import Info6350.TableApp.ReferentialIntegrity
import Info6350.TableApp.WriteFailures

/-! # The warehouse behind the lists

What the apps with lists are for: a registry in which nothing is deleted that an order refers to,
and no order is written that refers to what is not stored.  Every run of the screens is a run of the
warehouse, and the successes that it shows are those of the commands that create or update.
-/

namespace Info6350.TableApp
open Library Swift Logistics LogisticOrderDetailsViewController

abbrev Warehouse := Registry Item Location LogisticsOrder
abbrev Command := Logistics.Command Item Location LogisticsOrder

namespace Warehouse
variable {w w' : Warehouse} {c : Command}

structure Holds (w : Warehouse) (o : LogisticsOrder) : Prop where
  fromLocation : (w.locations o.fromLocation.id).isSome
  toLocation : (w.locations o.toLocation.id).isSome
  items : ∀ l ∈ o.itemsCarried, (w.items l.item.id).isSome

def Allows (w : Warehouse) : Command → Prop
  | .items (.delete id) =>
    ∀ k o, w.logisticsOrder k = some o → ∀ l ∈ o.itemsCarried, l.item.id ≠ id
  | .locations (.delete id) =>
    ∀ k o, w.logisticsOrder k = some o → o.toLocation.id ≠ id ∧ o.fromLocation.id ≠ id
  | .orders (.create o) => Holds w o
  | .orders (.update o) => Holds w o
  | _ => True

inductive NotCarriedOut where
  | notPerformed (why : NotPerformed)
  | dangling

open Classical in
noncomputable def step : Machine Warehouse Command NotCarriedOut := fun w c =>
  if Allows w c then (Registry.step w c).mapError .notPerformed else .error .dangling

theorem step_ok_iff : step w c = .ok w' ↔ Allows w c ∧ Registry.step w c = .ok w' := by
  unfold step
  split_ifs with h
  · rw [mapError_ok_iff, and_iff_right h]
  · exact iff_of_false nofun fun hc => h hc.1

/-- Every order refers to what is stored. -/
def Sound (w : Warehouse) : Prop := ∀ k o, w.logisticsOrder k = some o → Holds w o

/-- The commands that are allowed leave no order with a dangling reference. -/
theorem step_preserves_sound : step.Preserves Machine.AnyStep Sound := by
  intro w c w' hw _ h
  obtain ⟨hallows, hstep⟩ := step_ok_iff.mp h
  cases c with
  | items o =>
    obtain ⟨items, hitems, rfl⟩ := map_ok_iff.mp hstep
    intro k order horder
    have hholds := hw k order horder
    refine ⟨hholds.fromLocation, hholds.toLocation, fun l hl => ?_⟩
    refine Operation.apply_isSome hitems (hholds.items l hl) ?_
    rintro rfl
    exact hallows k order horder l hl rfl
  | locations o =>
    obtain ⟨locations, hlocations, rfl⟩ := map_ok_iff.mp hstep
    intro k order horder
    have hholds := hw k order horder
    refine ⟨Operation.apply_isSome hlocations hholds.fromLocation ?_,
      Operation.apply_isSome hlocations hholds.toLocation ?_, hholds.items⟩
    · rintro rfl
      exact (hallows k order horder).2 rfl
    · rintro rfl
      exact (hallows k order horder).1 rfl
  | orders o =>
    obtain ⟨orders, horders, rfl⟩ := map_ok_iff.mp hstep
    intro k order horder
    have hholds : Holds w order := by
      rcases Operation.apply_some horders horder with hold | rfl | rfl
      · exact hw k order hold
      · exact hallows
      · exact hallows
    exact ⟨hholds.fromLocation, hholds.toLocation, hholds.items⟩

end Warehouse

/-! ## The commands of the screens -/

/-- What the app shows when it has carried out a command.  A delete is not reported. -/
def report : Command → List Alert
  | .items (.create _) => [⟨"Success", "Item created successfully"⟩]
  | .locations (.create _) => [⟨"Success", "Location created successfully"⟩]
  | .orders (.create _) => [⟨"Success", "Order created successfully"⟩]
  | .items (.update _) => [⟨"Success", "Item updated successfully"⟩]
  | .locations (.update _) => [⟨"Success", "Item updated successfully"⟩]
  | .orders (.update _) => [⟨"Success", "Order updated successfully"⟩]
  | _ => []

/-- One command, which the alerts report, leads from a store to another. -/
def Store.CarriesOut (s s' : Store) (alerts : List Alert) : Prop :=
  ∃ c, Warehouse.step s.registry c = .ok s'.registry ∧ report c = alerts

namespace Store
variable {s : Store} {d : OrderDetails} {o : LogisticsOrder}

theorem carriesOut_edit (hs : s.DistinctIds) {e : StoreEdit} (he : e.Legal s) {c : Command}
    (hc : e.command s = some c) (hallows : Warehouse.Allows s.registry c) (written : Bool) :
    CarriesOut s (e.apply written s) (report c) :=
  ⟨c, Warehouse.step_ok_iff.mpr ⟨hallows, StoreEdit.step_command hs he hc written⟩, rfl⟩

/-- A consistent store holds what its orders refer to, and an order made of stored records. -/
theorem holds_of_lines (hlines : LinesStored s.items (selected d))
    (hitems : o.itemsCarried = (selected d).items) (hfrom : o.fromLocation.id ∈ keys s.locations)
    (hto : o.toLocation.id ∈ keys s.locations) : Warehouse.Holds s.registry o where
  fromLocation := lookup_isSome_iff.mpr hfrom
  toLocation := lookup_isSome_iff.mpr hto
  items l hl := lookup_isSome_iff.mpr (hlines l (hitems ▸ hl))

theorem Consistent.sound (hs : s.Consistent) : Warehouse.Sound s.registry := by
  intro k o ho
  have hmem := (lookup_some ho).1
  exact ⟨lookup_isSome_iff.mpr (hs.fromLocation o hmem),
    lookup_isSome_iff.mpr (hs.toLocation o hmem),
    fun l hl => lookup_isSome_iff.mpr (hs.items o hmem l hl)⟩

end Store

section Screens
variable {P : Platform} {edition : Edition} {written : Bool} {s s' : Store} {a : Alert} {row : ℕ}

theorem itemButton_carriesOut (hs : s.Consistent) {d : ItemDetails}
    (h : ItemDetailsViewController.createButtonTap written d s = .ok (s', a)) :
    s.CarriesOut s' [a] := by
  unfold ItemDetailsViewController.createButtonTap at h
  split_ifs at h
  · obtain ⟨row, old, new, -, hold, henters, rfl, rfl⟩ := ItemDetailsViewController.updateItem_ok h
    exact Store.carriesOut_edit (e := .items (.update row new)) hs.distinct
      ⟨old, hold, henters.id.symm⟩ rfl trivial written
  · obtain ⟨item, -, hnew, -, -, rfl, rfl⟩ := ItemDetailsViewController.createItem_ok h
    exact Store.carriesOut_edit (e := .items (.create item)) hs.distinct hnew rfl trivial written

theorem locationButton_carriesOut (hs : s.Consistent) {d : LocationDetails}
    (h : LocationDetailsViewController.createButtonTapped written d s = .ok (s', a)) :
    s.CarriesOut s' [a] := by
  unfold LocationDetailsViewController.createButtonTapped at h
  split_ifs at h
  · obtain ⟨row, old, new, -, hold, henters, rfl, rfl⟩ :=
      LocationDetailsViewController.updateLocation_ok h
    exact Store.carriesOut_edit (e := .locations (.update row new)) hs.distinct
      ⟨old, hold, henters.id.symm⟩ rfl trivial written
  · obtain ⟨location, -, hnew, -, -, rfl, rfl⟩ :=
      LocationDetailsViewController.createLocation_ok h
    exact Store.carriesOut_edit (e := .locations (.create location)) hs.distinct hnew rfl trivial
      written

theorem orderButton_carriesOut (hs : s.Consistent) {d : OrderDetails}
    (hd : LinesStored s.items (selected d))
    (h : createButtonTapped edition written d s = .ok (s', a)) : s.CarriesOut s' [a] := by
  unfold createButtonTapped at h
  split_ifs at h
  · obtain ⟨order, old, hnew, henters, hfrom, hto, -, rfl, rfl⟩ := createOrder_ok h
    exact Store.carriesOut_edit (e := .orders (.create order)) hs.distinct hnew rfl
      (Store.holds_of_lines hd henters.itemsCarried (key_mem_keys hfrom) (key_mem_keys hto)) written
  · obtain ⟨row, old, new, -, hold, henters, rfl, rfl⟩ := updateOrder_ok h
    have hmem := List.mem_of_getElem? hold
    have hfrom : new.fromLocation.id ∈ keys s.locations :=
      henters.fromLocation ▸ hs.fromLocation old hmem
    have hto : new.toLocation.id ∈ keys s.locations := henters.toLocation ▸ hs.toLocation old hmem
    exact Store.carriesOut_edit (e := .orders (.update row new)) hs.distinct
      ⟨old, hold, henters.id.symm⟩ rfl (Store.holds_of_lines hd henters.itemsCarried hfrom hto)
      written

theorem itemSwipe_carriesOut (hs : s.Consistent) {items : List Item}
    (h : (itemControllers P).commitDelete written s.items row s = .ok (s', items)) :
    s.CarriesOut s' [] := by
  obtain ⟨⟨item, hitem, hunused⟩, rfl, -⟩ := (itemControllers_carryOut P).delete_ok h
  have hrow : row < s.items.length := (List.getElem?_eq_some_iff.mp hitem).choose
  refine Store.carriesOut_edit (e := .items (.delete row)) (c := .items (.delete item.id))
    hs.distinct hrow ?_ ?_ written
  · simp [StoreEdit.command, Edit.operation, hitem]
  · exact fun k o ho l hl => hunused o (lookup_some ho).1 l hl

theorem locationSwipe_carriesOut (hs : s.Consistent) {locations : List Location}
    (h : (locationControllers P).commitDelete written s.locations row s = .ok (s', locations)) :
    s.CarriesOut s' [] := by
  obtain ⟨⟨location, hlocation, hunused⟩, rfl, -⟩ := (locationControllers_carryOut P).delete_ok h
  have hrow : row < s.locations.length := (List.getElem?_eq_some_iff.mp hlocation).choose
  refine Store.carriesOut_edit (e := .locations (.delete row))
    (c := .locations (.delete location.id)) hs.distinct hrow ?_ ?_ written
  · simp [StoreEdit.command, Edit.operation, hlocation]
  · exact fun k o ho => hunused o (lookup_some ho).1

theorem orderSwipe_carriesOut (hs : s.Consistent) {orders : List LogisticsOrder}
    (h : (orderControllers P edition).commitDelete written s.logisticsOrder row s =
      .ok (s', orders)) : s.CarriesOut s' [] := by
  obtain ⟨hrow, rfl, -⟩ := (orderControllers_carryOut P edition).delete_ok h
  have hrow : row < s.logisticsOrder.length := hrow
  refine Store.carriesOut_edit (e := .orders (.delete row))
    (c := .orders (.delete s.logisticsOrder[row].id)) hs.distinct hrow ?_ trivial written
  simp [StoreEdit.command, Edit.operation, hrow]

end Screens

/-! ## Steps and runs -/

def successes (alerts : List Alert) : List Alert := alerts.filter fun a => a.title = "Success"

theorem successes_eq_nil {alerts : List Alert} (h : ∀ a ∈ alerts, a.title ≠ "Success") :
    successes alerts = [] :=
  List.filter_eq_nil_iff.mpr fun a ha => by simpa using h a ha

theorem successes_report (c : Command) : successes (report c) = report c := by
  rcases c with (x | x | k) | (x | x | k) | (x | x | k) <;> rfl

/-- A step leaves the store alone and shows no success, or it carries out one command and shows
what reports it. -/
def Store.Advances (s s' : Store) (alerts : List Alert) : Prop :=
  (s' = s ∧ successes alerts = []) ∨ s.CarriesOut s' (successes alerts)

theorem Store.CarriesOut.advances {s s' : Store} {alerts : List Alert}
    (h : s.CarriesOut s' alerts) : s.Advances s' alerts := by
  obtain ⟨c, hc, rfl⟩ := h
  exact .inr ⟨c, hc, (successes_report c).symm⟩

theorem paneStep_advances {α δ ω : Type} {C : Controllers α δ ω} {R : Changes α δ}
    (K : C.CarryOut R) {D : Store → δ → Prop} {written : Bool} {s : Store} {p : Pane α δ}
    {e : PaneEvent ω} {r : PaneResult α δ} (hp : p.Coherent C D s)
    (htap : ∀ d s' a, D s d → C.createButtonTap written d s = .ok (s', a) → s.CarriesOut s' [a])
    (hswipe : ∀ row s' rest, C.commitDelete written (C.array s) row s = .ok (s', rest) →
      s.CarriesOut s' [])
    (h : paneStep C written s p e = .ok r) : s.Advances r.store r.alerts := by
  have hstay : s.Advances s [] := .inl ⟨rfl, rfl⟩
  by_cases hbutton : e = .createButtonTap
  · subst hbutton
    obtain ⟨filtered, isActive, details⟩ := p
    cases details with
    | none => exact Except.ok.inj h ▸ hstay
    | some d =>
      rcases settle_unsuccessful (K.button_stops written d s) h with
        ⟨⟨s', a⟩, hok, rfl⟩ | ⟨alerts, halerts, rfl⟩
      · exact (htap d s' a hp hok).advances
      · exact .inl ⟨rfl, successes_eq_nil halerts⟩
  · by_cases hdelete : ∃ row, e = .swipeDelete row
    · obtain ⟨row, rfl⟩ := hdelete
      obtain ⟨filtered, isActive, details⟩ := p
      cases details with
      | some d => exact Except.ok.inj h ▸ hstay
      | none =>
        simp only [paneStep] at h
        split_ifs at h with hrow
        · have hactive : isActive = false := Pane.canEditRow_iff.mp hrow.1
          obtain rfl : filtered = C.array s := hp.filteredResults rfl hactive
          rcases settle_unsuccessful (K.swipe_stops written _ row s) h with
            ⟨⟨s', rest⟩, hok, rfl⟩ | ⟨alerts, halerts, rfl⟩
          · exact (hswipe row s' rest hok).advances
          · exact .inl ⟨rfl, successes_eq_nil halerts⟩
        · exact Except.ok.inj h ▸ hstay
    · obtain ⟨hstore, halerts⟩ := paneStep_quiet hbutton (not_exists.mp hdelete) h
      rw [hstore, halerts]
      exact hstay

section Runs
variable {P : Platform} {edition : Edition} {st st' : AppState} {i : Input}

theorem step_advances
    (hst : st.Inv P edition Store.Consistent (SelectedAndCells LinesStored ItemStored))
    (h : step P edition st i = .ok st') :
    ∃ alerts, st'.alerts = alerts ++ st.alerts ∧ st.store.Advances st'.store alerts := by
  obtain ⟨s, screen, alerts⟩ := st
  obtain ⟨event, written⟩ := i
  have hs : s.Consistent := hst.1
  have hstay : ∃ shown, alerts = shown ++ alerts ∧ s.Advances s shown := ⟨[], rfl, .inl ⟨rfl, rfl⟩⟩
  cases step_move h with
  | openItems => exact hstay
  | openLocations => exact hstay
  | openOrders => exact hstay
  | items p e r hr =>
    exact ⟨r.alerts, rfl, paneStep_advances (itemControllers_carryOut P) hst.2
      (fun _ _ _ _ htap => itemButton_carriesOut hs htap)
      (fun _ _ _ hswipe => itemSwipe_carriesOut hs hswipe) hr⟩
  | locations p e r hr =>
    exact ⟨r.alerts, rfl, paneStep_advances (locationControllers_carryOut P) hst.2
      (fun _ _ _ _ htap => locationButton_carriesOut hs htap)
      (fun _ _ _ hswipe => locationSwipe_carriesOut hs hswipe) hr⟩
  | orders p e r hr =>
    exact ⟨r.alerts, rfl, paneStep_advances (orderControllers_carryOut P edition) hst.2
      (fun _ _ _ hd htap => orderButton_carriesOut hs hd.1 htap)
      (fun _ _ _ hswipe => orderSwipe_carriesOut hs hswipe) hr⟩
  | leave => exact hstay
  | stay => exact hstay

/-- The store is what the commands of a list make of another one, and they are reported, the last
first. -/
def AppState.CarriedOut (s : Store) (st : AppState) : Prop :=
  ∃ commands, Warehouse.step.run s.registry commands = .ok st.store.registry ∧
    (successes st.alerts).reverse = commands.flatMap report

theorem AppState.CarriedOut.advances {s : Store} (hst : st.CarriedOut s) {alerts : List Alert}
    (halerts : st'.alerts = alerts ++ st.alerts) (h : st.store.Advances st'.store alerts) :
    st'.CarriedOut s := by
  obtain ⟨commands, hrun, hreport⟩ := hst
  have hshown : successes st'.alerts = successes alerts ++ successes st.alerts := by
    rw [halerts, successes, List.filter_append]
    rfl
  rcases h with ⟨hstore, hnone⟩ | ⟨c, hc, hone⟩
  · refine ⟨commands, by rw [hrun, hstore], ?_⟩
    rw [hshown, hnone, List.nil_append, hreport]
  · refine ⟨commands ++ [c], ?_, ?_⟩
    · rw [Machine.run_append, hrun]
      exact (Machine.run_singleton _ _ _).trans hc
    · rw [hshown, ← hone, List.reverse_append, hreport, List.flatMap_append]
      rcases c with (x | x | k) | (x | x | k) | (x | x | k) <;> rfl

theorem AppState.CarriedOut.sound {s : Store} (h : st.CarriedOut s) (hs : s.Consistent) :
    Warehouse.Sound st.store.registry := by
  obtain ⟨commands, hrun, -⟩ := h
  exact Warehouse.step_preserves_sound.run_any hs.sound hrun

/-- From a store without dangling references, every run does to the maps what a list of commands
does that the warehouse allows one after the other, whatever the database answers; the successes
shown are those of the commands, in order. -/
theorem run_refinesWarehouse {s : Store} (hs : s.Consistent) {inputs : List Input}
    (h : (step P edition).run (AppState.atMenu s) inputs = .ok st) : st.CarriedOut s := by
  have hkeep := step_preserves_consistent P edition
  have hstep : (step P edition).Preserves (Input.Meets (fun _ => True) AnyEdit) fun st =>
      st.Inv P edition Store.Consistent (SelectedAndCells LinesStored ItemStored) ∧
        st.CarriedOut s := by
    intro st i st' hst hi h
    obtain ⟨alerts, halerts, hadvances⟩ := step_advances hst.1 h
    exact ⟨hkeep st i st' hst.1 hi h, hst.2.advances halerts hadvances⟩
  refine (hstep.run ⟨AppState.inv_atMenu P edition hs, [], rfl, rfl⟩ ?_ h).2
  exact Input.meets_anyEdit P edition fun _ _ => trivial

end Runs

/-- The lamp is carried, so it is not deleted before its order is. -/
theorem run_refinesWarehouse_deletes :
    ∃ st, (step Platform.ascii .assignment9).run
        (AppState.atMenu (generateDummyData Sample.database)) Sample.deletes = .ok st ∧
      st.store.registry.items 1 = none ∧ st.CarriedOut (generateDummyData Sample.database) :=
  ⟨_, rfl, rfl, @run_refinesWarehouse Platform.ascii .assignment9 _ _ Sample.consistent
    Sample.deletes rfl⟩

end Info6350.TableApp
