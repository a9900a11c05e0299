import Info6350.Logistics.Arrays
import Info6350.TableApp.App

/-! # What the table-view apps never read

After the launch the screens work on the three arrays alone.  Two sessions whose arrays agree
show the same and stop alike on the same events, whatever the tables hold and whichever writes
the databases accept.
-/

namespace Info6350.TableApp
open Library Swift Logistics DatabaseManager

theorem deleteRow_matched {α : Type} [Keyed α ℤ] (written written' : Bool)
    (array filteredResults : List α) (row : ℕ) (t t' : Table α) :
    Matched (fun p q => p.1 = q.1) (deleteRow written array filteredResults row t)
      (deleteRow written' array filteredResults row t') :=
  .bind_left _ fun _ => .bind_left _ fun _ => .ok rfl

def SameDeletion {α : Type} (r r' : Store × List α) : Prop :=
  r.1.SameArrays r'.1 ∧ r.2 = r'.2

/-- The controllers of a pane do the same on stores with the same arrays. -/
structure Controllers.IgnoresDatabase {α δ ω : Type} (C : Controllers α δ ω) : Prop where
  array : ∀ {s t : Store}, s.SameArrays t → C.array s = C.array t
  instantiate : ∀ vcMode indexPath now {s t : Store}, s.SameArrays t →
    C.instantiate vcMode indexPath now s = C.instantiate vcMode indexPath now t
  viewWillAppear : ∀ d {s t : Store}, s.SameArrays t → C.viewWillAppear s d = C.viewWillAppear t d
  edit : ∀ e d {s t : Store}, s.SameArrays t → C.edit s e d = C.edit t e d
  createButtonTap : ∀ written written' d {s t : Store}, s.SameArrays t →
    Matched SameOutcome (C.createButtonTap written d s) (C.createButtonTap written' d t)
  commitDelete : ∀ written written' filteredResults row {s t : Store}, s.SameArrays t →
    Matched SameDeletion (C.commitDelete written filteredResults row s)
      (C.commitDelete written' filteredResults row t)

/-! ## The three pairs of controllers -/

theorem itemControllers_ignoresDatabase (P : Platform) : (itemControllers P).IgnoresDatabase where
  array h := h.items
  instantiate _ _ _ _ _ _ := rfl
  viewWillAppear d s t h := by
    change ItemDetailsViewController.viewWillAppear P s d = _
    rw [ItemDetailsViewController.viewWillAppear, h.items]
    rfl
  edit _ _ _ _ _ := rfl
  createButtonTap written written' d s t h := by
    obtain ⟨items, locations, orders, db⟩ := s
    obtain ⟨rfl, rfl, rfl⟩ := h
    change Matched _ (ItemDetailsViewController.createButtonTap _ _ _)
      (ItemDetailsViewController.createButtonTap _ _ _)
    unfold ItemDetailsViewController.createButtonTap
    split_ifs
    · unfold ItemDetailsViewController.updateItem
      cases d.indexPath with
      | none => exact .error _
      | some row =>
        exact .bind_left _ fun entered => ((updateRow_matched _ _ _ row entered _ _).mapError
          Exit.trap).bind fun _ _ hrest => .ok ⟨⟨hrest, rfl, rfl⟩, rfl⟩
    · exact .bind_left _ fun _ => .bind_left _ fun _ => .bind_left _ fun _ =>
        .ok ⟨⟨rfl, rfl, rfl⟩, rfl⟩
  commitDelete written written' filtered row s t h := by
    obtain ⟨items, locations, orders, db⟩ := s
    obtain ⟨rfl, rfl, rfl⟩ := h
    exact .bind_left _ fun _ => .bind_left _ fun _ => ((deleteRow_matched _ _ _ _ _ _ _).mapError
      Exit.trap).bind fun _ _ hrest => .ok ⟨⟨hrest, rfl, rfl⟩, hrest⟩

theorem locationControllers_ignoresDatabase (P : Platform) :
    (locationControllers P).IgnoresDatabase where
  array h := h.locations
  instantiate _ _ _ _ _ _ := rfl
  viewWillAppear d s t h := by
    change LocationDetailsViewController.viewWillAppear s d = _
    rw [LocationDetailsViewController.viewWillAppear, h.locations]
    rfl
  edit _ _ _ _ _ := rfl
  createButtonTap written written' d s t h := by
    obtain ⟨items, locations, orders, db⟩ := s
    obtain ⟨rfl, rfl, rfl⟩ := h
    change Matched _ (LocationDetailsViewController.createButtonTapped _ _ _)
      (LocationDetailsViewController.createButtonTapped _ _ _)
    unfold LocationDetailsViewController.createButtonTapped
    split_ifs
    · unfold LocationDetailsViewController.updateLocation
      cases d.indexPath with
      | none => exact .error _
      | some row =>
        exact .bind_left _ fun entered => ((updateRow_matched _ _ _ row entered _ _).mapError
          Exit.trap).bind fun _ _ hrest => .ok ⟨⟨rfl, hrest, rfl⟩, rfl⟩
    · exact .bind_left _ fun _ => .bind_left _ fun _ => .bind_left _ fun _ =>
        .ok ⟨⟨rfl, rfl, rfl⟩, rfl⟩
  commitDelete written written' filtered row s t h := by
    obtain ⟨items, locations, orders, db⟩ := s
    obtain ⟨rfl, rfl, rfl⟩ := h
    exact .bind_left _ fun _ => .bind_left _ fun _ => ((deleteRow_matched _ _ _ _ _ _ _).mapError
      Exit.trap).bind fun _ _ hrest => .ok ⟨⟨rfl, hrest, rfl⟩, hrest⟩

theorem orderControllers_ignoresDatabase (P : Platform) (edition : Edition) :
    (orderControllers P edition).IgnoresDatabase where
  array h := h.logisticsOrder
  instantiate _ _ _ s t h := by
    obtain ⟨items, locations, orders, db⟩ := s
    obtain ⟨rfl, rfl, rfl⟩ := h
    rfl
  viewWillAppear d s t h := by
    obtain ⟨items, locations, orders, db⟩ := s
    obtain ⟨rfl, rfl, rfl⟩ := h
    rfl
  edit e d s t h := by
    obtain ⟨items, locations, orders, db⟩ := s
    obtain ⟨rfl, rfl, rfl⟩ := h
    cases e <;> rfl
  createButtonTap written written' d s t h := by
    obtain ⟨items, locations, orders, db⟩ := s
    obtain ⟨rfl, rfl, rfl⟩ := h
    change Matched _ (LogisticOrderDetailsViewController.createButtonTapped _ _ _ _)
      (LogisticOrderDetailsViewController.createButtonTapped _ _ _ _)
    unfold LogisticOrderDetailsViewController.createButtonTapped
    split_ifs
    · exact .bind_left _ fun _ => .bind_left _ fun _ => .bind_left _ fun _ => .bind_left _ fun _ =>
        .bind_left _ fun _ => .bind_left _ fun _ => .ok ⟨⟨rfl, rfl, rfl⟩, rfl⟩
    · unfold LogisticOrderDetailsViewController.updateOrder
      cases d.indexPath with
      | none => exact .error _
      | some row =>
        exact .bind_left _ fun entered => ((updateRow_matched _ _ _ row entered _ _).mapError
          Exit.trap).bind fun _ _ hrest => .ok ⟨⟨rfl, rfl, hrest⟩, rfl⟩
  commitDelete written written' filtered row s t h := by
    obtain ⟨items, locations, orders, db⟩ := s
    obtain ⟨rfl, rfl, rfl⟩ := h
    exact ((deleteRow_matched _ _ _ _ _ _ _).mapError Exit.trap).bind fun _ _ hrest =>
      .ok ⟨⟨rfl, rfl, hrest⟩, hrest⟩

/-! ## Runs -/

/-- What a step on a pane leaves, up to the database. -/
structure PaneResult.Alike {α δ : Type} (r r' : PaneResult α δ) : Prop where
  store : r.store.SameArrays r'.store
  pane : r.pane = r'.pane
  alerts : r.alerts = r'.alerts

theorem Controllers.IgnoresDatabase.paneStep {α δ ω : Type} {C : Controllers α δ ω}
    (hC : C.IgnoresDatabase) (written written' : Bool) {s t : Store} (h : s.SameArrays t)
    (p : Pane α δ) (e : PaneEvent ω) : Matched PaneResult.Alike
      (paneStep C written s p e) (paneStep C written' t p e) := by
  have hstay : ∀ p alerts, PaneResult.Alike (δ := δ) (⟨s, p, alerts⟩ : PaneResult α δ)
      ⟨t, p, alerts⟩ := fun _ _ => ⟨h, rfl, rfl⟩
  have hpush : ∀ d, Matched PaneResult.Alike (p.push C d s) (p.push C d t) := by
    intro d
    unfold Pane.push
    rw [hC.viewWillAppear d h]
    exact .bind_left _ fun d => .ok (hstay _ _)
  unfold TableApp.paneStep
  cases hd : p.details with
  | none =>
    cases e with
    | search text =>
      refine .ok ⟨h, ?_, rfl⟩
      unfold Pane.searched
      rw [hC.array h]
    | cancelSearch =>
      refine .ok ⟨h, ?_, rfl⟩
      rw [hC.array h]
    | addTapped now =>
      change Matched _ (p.push C _ s) (p.push C _ t)
      rw [hC.instantiate _ _ _ h]
      exact hpush _
    | didSelectRow row now =>
      dsimp only
      split_ifs
      · rw [hC.instantiate _ _ _ h]
        exact hpush _
      · exact .ok (hstay _ _)
    | swipeDelete row =>
      dsimp only
      split_ifs
      · exact settle_matched (hC.commitDelete written written' _ row h)
          (fun r r' hr => ⟨hr.1, by rw [hr.2], rfl⟩) fun _ => hstay _ _
      · exact .ok (hstay _ _)
    | _ => exact .ok (hstay _ _)
  | some d =>
    cases e with
    | edit e =>
      dsimp only
      rw [hC.edit e d h]
      exact .bind_left _ fun _ => .ok (hstay _ _)
    | createButtonTap =>
      exact settle_matched (hC.createButtonTap written written' d h)
        (fun r r' hr => ⟨hr.1, rfl, by rw [hr.2]⟩) fun _ => hstay _ _
    | reappear => exact hpush d
    | back =>
      refine .ok ⟨h, ?_, rfl⟩
      unfold Pane.listed
      rw [hC.array h]
    | _ => exact .ok (hstay _ _)

/-- Two states that the user cannot tell apart: only their databases differ. -/
structure AppState.Alike (st st' : AppState) : Prop where
  store : st.store.SameArrays st'.store
  screen : st.screen = st'.screen
  alerts : st.alerts = st'.alerts

theorem AppState.Alike.show {α δ : Type} {screen : Pane α δ → Screen} {st st' : AppState}
    (h : st.Alike st') {r r' : PaneResult α δ} (hr : r.Alike r') :
    (st.show screen r).Alike (st'.show screen r') :=
  ⟨hr.store, congrArg screen hr.pane, congrArg₂ _ hr.alerts h.alerts⟩

theorem step_lockstep (P : Platform) (edition : Edition) :
    (step P edition).Lockstep (step P edition) AppState.Alike fun i j => i.event = j.event := by
  rintro ⟨s, screen, alerts⟩ ⟨t, _, _⟩ ⟨e, written⟩ ⟨_, written'⟩ ⟨hs, rfl, rfl⟩ rfl
  dsimp only at hs
  have hst : AppState.Alike ⟨s, screen, alerts⟩ ⟨t, screen, alerts⟩ := ⟨hs, rfl, rfl⟩
  have hshows : ∀ screen', AppState.Alike ⟨s, screen', alerts⟩ ⟨t, screen', alerts⟩ :=
    fun _ => ⟨hs, rfl, rfl⟩
  have hopened : ∀ {α δ ω : Type} {C : Controllers α δ ω}, C.IgnoresDatabase →
      Pane.opened C s = Pane.opened C t := fun hC => by
    unfold Pane.opened
    rw [hC.array hs]
  unfold step
  cases screen with
  | main =>
    cases e with
    | openItems =>
      change Matched _ (.ok _) (.ok _)
      rw [hopened (itemControllers_ignoresDatabase P)]
      exact .ok (hshows _)
    | openLocations =>
      change Matched _ (.ok _) (.ok _)
      rw [hopened (locationControllers_ignoresDatabase P)]
      exact .ok (hshows _)
    | openOrders =>
      change Matched _ (.ok _) (.ok _)
      rw [hopened (orderControllers_ignoresDatabase P edition)]
      exact .ok (hshows _)
    | _ => exact .ok hst
  | items p =>
    cases e with
    | items e =>
      exact ((itemControllers_ignoresDatabase P).paneStep _ _ hs p e).map fun _ _ => hst.show
    | leave =>
      obtain ⟨_, _, _ | d⟩ := p
      · exact .ok (hshows _)
      · exact .ok hst
    | _ => exact .ok hst
  | locations p =>
    cases e with
    | locations e =>
      exact ((locationControllers_ignoresDatabase P).paneStep _ _ hs p e).map fun _ _ => hst.show
    | leave =>
      obtain ⟨_, _, _ | d⟩ := p
      · exact .ok (hshows _)
      · exact .ok hst
    | _ => exact .ok hst
  | orders p =>
    cases e with
    | orders e =>
      exact ((orderControllers_ignoresDatabase P edition).paneStep _ _ hs p e).map
        fun _ _ => hst.show
    | leave =>
      obtain ⟨_, _, _ | d⟩ := p
      · exact .ok (hshows _)
      · exact .ok hst
    | _ => exact .ok hst

/-- Two sessions with the same arrays on the same events are alike at the end, and stop at the
same event if one stops, whatever the databases hold and refuse. -/
theorem run_ignoresDatabase (P : Platform) (edition : Edition) {st st' : AppState} (h : st.Alike st')
    {inputs inputs' : List Input} (hevents : inputs.map Input.event = inputs'.map Input.event) :
    Matched AppState.Alike ((step P edition).run st inputs) ((step P edition).run st' inputs') := by
  refine (step_lockstep P edition).run h ?_
  rw [← List.forall₂_eq_eq_eq, List.forall₂_map_left_iff, List.forall₂_map_right_iff] at hevents
  exact hevents

/-- The arrays of the sample over a database that lost its rows. -/
def Sample.emptied : Store := { generateDummyData Sample.database with db := emptyDatabase }

/-- The second session refuses every write. -/
theorem run_ignoresDatabase_taps :
    Matched AppState.Alike
      ((step Platform.ascii .assignment9).run (AppState.atMenu (generateDummyData Sample.database))
        Sample.taps)
      ((step Platform.ascii .assignment9).run (AppState.atMenu Sample.emptied)
        (Sample.taps.map fun i => { i with written := false })) :=
  @run_ignoresDatabase Platform.ascii .assignment9 (AppState.atMenu (generateDummyData Sample.database))
    (AppState.atMenu Sample.emptied) ⟨⟨rfl, rfl, rfl⟩, rfl, rfl⟩ Sample.taps
    (Sample.taps.map fun i => { i with written := false }) rfl

end Info6350.TableApp
