import Info6350.TableApp.Changes

/-! # Invariants of the app

The list of a pane shows the whole array unless a search is active, and a part of it
otherwise; since rows can be deleted only while no search is active, a delete replaces
the array by itself without the row.  `Keeps` collects what a pair of controllers has to
preserve, and `step_preserves` carries an invariant of the store, with one of the order
details, over every step of the app.
-/

namespace Info6350.TableApp
open Library Swift Logistics

def AnyEdit {ω δ : Type} : Store → ω → δ → Prop := fun _ _ _ => True

def AnyDetails {δ : Type} : Store → δ → Prop := fun _ _ => True

section Pane
variable {α δ ω : Type} (C : Controllers α δ ω)

inductive PaneMove (written : Bool) (s : Store) : Pane α δ → PaneEvent ω → PaneResult α δ → Prop where
  | stay (p e) : PaneMove written s p e ⟨s, p, []⟩
  | refuse (p e a) : (∀ d, p.details = some d →
      C.createButtonTap written d s = .error (.alert a)) → PaneMove written s p e ⟨s, p, [a]⟩
  | search (p text) : p.details = none →
      PaneMove written s p (.search text) ⟨s, p.searched C text s, []⟩
  | cancel (p) : p.details = none → PaneMove written s p .cancelSearch
      ⟨s, { p with isActive := false, filteredResults := C.array s }, []⟩
  | load (p e vcMode indexPath now d) : p.details = none →
      C.viewWillAppear s (C.instantiate vcMode indexPath now s) = .ok d →
      PaneMove written s p e ⟨s, { p with details := some d }, []⟩
  | appear (p d d') : p.details = some d → C.viewWillAppear s d = .ok d' →
      PaneMove written s p .reappear ⟨s, { p with details := some d' }, []⟩
  | edit (p d d' e) : p.details = some d → C.edit s e d = .ok d' →
      PaneMove written s p (.edit e) ⟨s, { p with details := some d' }, []⟩
  | tap (p d s' a) : p.details = some d → C.createButtonTap written d s = .ok (s', a) →
      PaneMove written s p .createButtonTap ⟨s', p, [a]⟩
  | delete (p row s' filtered) : p.details = none → p.isActive = false →
      row < p.filteredResults.length →
      C.commitDelete written p.filteredResults row s = .ok (s', filtered) →
      PaneMove written s p (.swipeDelete row) ⟨s', { p with filteredResults := filtered }, []⟩
  | back (p d) : p.details = some d → PaneMove written s p .back ⟨s, p.listed C s, []⟩

variable {C} in
theorem paneStep_move {written : Bool} {s : Store} {p : Pane α δ} {e : PaneEvent ω}
    {r : PaneResult α δ} (h : paneStep C written s p e = .ok r) : PaneMove C written s p e r := by
  obtain ⟨filtered, isActive, details⟩ := p
  cases details with
  | none =>
    cases e with
    | search text => exact Except.ok.inj h ▸ .search _ text rfl
    | cancelSearch => exact Except.ok.inj h ▸ .cancel _ rfl
    | addTapped now =>
      obtain ⟨d, hd, rfl⟩ := Pane.push_ok_iff.mp h
      exact .load _ _ _ _ _ d rfl hd
    | didSelectRow row now =>
      simp only [paneStep] at h
      split_ifs at h
      · obtain ⟨d, hd, rfl⟩ := Pane.push_ok_iff.mp h
        exact .load _ _ _ _ _ d rfl hd
      · exact Except.ok.inj h ▸ .stay _ _
    | swipeDelete row =>
      simp only [paneStep] at h
      split_ifs at h with hrow
      · have hactive : isActive = false := Pane.canEditRow_iff.mp hrow.1
        rcases hd : C.commitDelete written filtered row s with (a | _ | t) | ⟨s', rest⟩ <;>
          rw [hd] at h
        · exact Except.ok.inj h ▸ .refuse _ _ a fun d hd => by cases hd
        · exact Except.ok.inj h ▸ .stay _ _
        · cases h
        · exact Except.ok.inj h ▸ .delete _ row s' rest rfl hactive hrow.2 hd
      · exact Except.ok.inj h ▸ .stay _ _
    | edit x => exact Except.ok.inj h ▸ .stay _ _
    | createButtonTap => exact Except.ok.inj h ▸ .stay _ _
    | reappear => exact Except.ok.inj h ▸ .stay _ _
    | back => exact Except.ok.inj h ▸ .stay _ _
  | some d =>
    cases e with
    | edit x =>
      obtain ⟨d', hd', h⟩ := bind_ok_iff.mp h
      exact pure_ok_iff.mp h ▸ .edit _ d d' x rfl hd'
    | createButtonTap =>
      simp only [paneStep] at h
      rcases ht : C.createButtonTap written d s with (a | _ | t) | ⟨s', a⟩ <;> rw [ht] at h
      · exact Except.ok.inj h ▸ .refuse _ _ a fun d' hd' => Option.some.inj hd' ▸ ht
      · exact Except.ok.inj h ▸ .stay _ _
      · cases h
      · exact Except.ok.inj h ▸ .tap _ d s' a rfl ht
    | reappear =>
      obtain ⟨d', hd', rfl⟩ := Pane.push_ok_iff.mp h
      exact .appear _ d d' rfl hd'
    | back => exact Except.ok.inj h ▸ .back _ d rfl
    | search text => exact Except.ok.inj h ▸ .stay _ _
    | cancelSearch => exact Except.ok.inj h ▸ .stay _ _
    | addTapped now => exact Except.ok.inj h ▸ .stay _ _
    | didSelectRow row now => exact Except.ok.inj h ▸ .stay _ _
    | swipeDelete row => exact Except.ok.inj h ▸ .stay _ _

/-- What an event does to the details screen: it is opened for a new record or for a row, edited,
loaded again, left, or nothing happens to it. -/
inductive DetailsMove (s : Store) : Option δ → PaneEvent ω → Option δ → Prop where
  | closed (e) : DetailsMove s none e none
  | create (now d) : C.viewWillAppear s (C.instantiate .create none now s) = .ok d →
      DetailsMove s none (.addTapped now) (some d)
  | modify (row now d) : C.viewWillAppear s (C.instantiate .modify (some row) now s) = .ok d →
      DetailsMove s none (.didSelectRow row now) (some d)
  | edit (x d d') : C.edit s x d = .ok d' → DetailsMove s (some d) (.edit x) (some d')
  | appear (d d') : C.viewWillAppear s d = .ok d' → DetailsMove s (some d) .reappear (some d')
  | back (d) : DetailsMove s (some d) .back none
  | idle (d e) : (∀ x, e ≠ .edit x) → e ≠ .reappear → DetailsMove s (some d) e (some d)

variable {C} in
theorem paneStep_details {written : Bool} {s : Store} {p : Pane α δ} {e : PaneEvent ω}
    {r : PaneResult α δ} (h : paneStep C written s p e = .ok r) :
    DetailsMove C s p.details e r.pane.details := by
  obtain ⟨filtered, isActive, details⟩ := p
  cases details with
  | none =>
    cases e with
    | addTapped now =>
      obtain ⟨d, hd, rfl⟩ := Pane.push_ok_iff.mp h
      exact .create now d hd
    | didSelectRow row now =>
      simp only [paneStep] at h
      split_ifs at h
      · obtain ⟨d, hd, rfl⟩ := Pane.push_ok_iff.mp h
        exact .modify row now d hd
      · exact Except.ok.inj h ▸ .closed _
    | swipeDelete row =>
      simp only [paneStep] at h
      split_ifs at h
      · rcases settle_ok h with ⟨a, -, rfl⟩ | ⟨alerts, rfl⟩ <;> exact .closed _
      · exact Except.ok.inj h ▸ .closed _
    | _ => exact Except.ok.inj h ▸ .closed _
  | some d =>
    cases e with
    | edit x =>
      obtain ⟨d', hd', h⟩ := bind_ok_iff.mp h
      exact pure_ok_iff.mp h ▸ .edit x d d' hd'
    | reappear =>
      obtain ⟨d', hd', rfl⟩ := Pane.push_ok_iff.mp h
      exact .appear d d' hd'
    | createButtonTap =>
      rcases settle_ok h with ⟨a, -, rfl⟩ | ⟨alerts, rfl⟩ <;>
        exact .idle d _ (fun x => nofun) nofun
    | back => exact Except.ok.inj h ▸ .back d
    | _ => exact Except.ok.inj h ▸ .idle d _ (fun x => nofun) nofun

/-- On the list: without a search the array is shown, with one a part of it.  On a
details screen: `D`. -/
def Pane.Coherent (D : Store → δ → Prop) (s : Store) (p : Pane α δ) : Prop :=
  match p.details with
  | none => (p.isActive = false → p.filteredResults = C.array s) ∧
      List.Sublist p.filteredResults (C.array s)
  | some d => D s d

/-- The controllers preserve `S` of the store and `D` of the details screen, when the
writes are among `W` and the edits of the details screen meet `E`. -/
structure Controllers.Keeps (W : Bool → Prop) (E : Store → ω → δ → Prop) (S : Store → Prop)
    (D : Store → δ → Prop) : Prop where
  load : ∀ {s vcMode indexPath now d}, S s →
    C.viewWillAppear s (C.instantiate vcMode indexPath now s) = .ok d → D s d
  appear : ∀ {s d d'}, S s → D s d → C.viewWillAppear s d = .ok d' → D s d'
  edit : ∀ {s e d d'}, S s → D s d → E s e d → C.edit s e d = .ok d' → D s d'
  tap : ∀ {w s s' d a}, W w → S s → D s d → C.createButtonTap w d s = .ok (s', a) → S s' ∧ D s' d
  delete : ∀ {w s s' row filtered}, W w → S s →
    C.commitDelete w (C.array s) row s = .ok (s', filtered) → S s' ∧ filtered = C.array s'

variable {C} {W : Bool → Prop} {E : Store → ω → δ → Prop} {S : Store → Prop}
  {D : Store → δ → Prop}

theorem Pane.Coherent.sublist {s : Store} {p : Pane α δ} (h : p.Coherent C D s)
    (hp : p.details = none) : List.Sublist p.filteredResults (C.array s) := by
  unfold Pane.Coherent at h
  rw [hp] at h
  exact h.2

theorem Pane.Coherent.filteredResults {s : Store} {p : Pane α δ} (h : p.Coherent C D s)
    (hp : p.details = none) (hactive : p.isActive = false) : p.filteredResults = C.array s := by
  unfold Pane.Coherent at h
  rw [hp] at h
  exact h.1 hactive

theorem Pane.Coherent.of_details {s : Store} {p : Pane α δ} (h : p.Coherent C D s) {d : δ}
    (hd : p.details = some d) : D s d := by
  unfold Pane.Coherent at h
  rwa [hd] at h

theorem Pane.Coherent.congr {s s' : Store} {p : Pane α δ} (h : p.Coherent C AnyDetails s)
    (harray : C.array s' = C.array s) : p.Coherent C AnyDetails s' := by
  unfold Pane.Coherent at h ⊢
  rw [harray]
  cases hp : p.details with
  | none =>
    rw [hp] at h
    exact h
  | some d => trivial

theorem Pane.coherent_opened (s : Store) : (Pane.opened C s).Coherent C D s :=
  ⟨fun _ => rfl, List.Sublist.refl _⟩

theorem Pane.coherent_searched (text : String) {s : Store} {p : Pane α δ} (hp : p.details = none) :
    (p.searched C text s).Coherent C D s := by
  have hlist : List.Sublist (if text.isEmpty then C.array s else
      (C.array s).filter (C.matchesText text)) (C.array s) := by
    split_ifs
    · exact List.Sublist.refl _
    · exact List.filter_sublist
  unfold Pane.Coherent Pane.searched
  rw [hp]
  exact ⟨fun h => Bool.noConfusion h, hlist⟩

/-- A step on a coherent pane keeps the invariants and leaves the pane coherent. -/
theorem Controllers.Keeps.paneStep (K : C.Keeps W E S D) {written : Bool} {s : Store}
    {p : Pane α δ} {e : PaneEvent ω} {r : PaneResult α δ} (hs : S s) (hp : p.Coherent C D s)
    (hw : W written) (he : ∀ d x, p.details = some d → e = .edit x → E s x d)
    (h : paneStep C written s p e = .ok r) : S r.store ∧ r.pane.Coherent C D r.store := by
  obtain ⟨filtered, isActive, details⟩ := p
  cases paneStep_move h with
  | stay => exact ⟨hs, hp⟩
  | refuse => exact ⟨hs, hp⟩
  | search text hd => exact ⟨hs, Pane.coherent_searched text hd⟩
  | cancel hd =>
    cases hd
    exact ⟨hs, fun _ => rfl, List.Sublist.refl _⟩
  | load _ vcMode indexPath now d hd hload => exact ⟨hs, K.load hs hload⟩
  | appear d d' hd happear =>
    cases hd
    exact ⟨hs, K.appear hs hp happear⟩
  | edit d d' x hd hedit =>
    cases hd
    exact ⟨hs, K.edit hs hp (he d x rfl rfl) hedit⟩
  | tap d s' a hd htap =>
    cases hd
    exact K.tap hw hs hp htap
  | delete row s' rest hd hactive hrow hdelete =>
    -- the search is inactive, so the filtered list is the array
    cases hd
    obtain rfl : filtered = C.array s := hp.1 hactive
    obtain ⟨hs', rfl⟩ := K.delete hw hs hdelete
    exact ⟨hs', fun _ => rfl, List.Sublist.refl _⟩
  | back d hd => exact ⟨hs, fun _ => rfl, List.Sublist.refl _⟩

end Pane

/-- A legal edit that removes no item that an order carries and no location that an order
uses. -/
def StoreEdit.Permitted (e : StoreEdit) (s : Store) : Prop :=
  e.Legal s ∧ match e with
    | .items (.delete row) => ∀ item, s.items[row]? = some item →
        ∀ o ∈ s.logisticsOrder, ∀ l ∈ o.itemsCarried, l.item.id ≠ item.id
    | .locations (.delete row) => ∀ location, s.locations[row]? = some location →
        ∀ o ∈ s.logisticsOrder, o.toLocation.id ≠ location.id ∧ o.fromLocation.id ≠ location.id
    | _ => True

section Keeps
variable {α δ ω : Type} {C : Controllers α δ ω} {R : Changes α δ} {W : Bool → Prop}
  {S : Store → Prop}

/-- Controllers keep what the edits that they carry out keep. -/
theorem Controllers.CarryOut.keeps (K : C.CarryOut R)
    (hS : ∀ {w s e}, W w → S s → R.Asks s e → S ((R.edit e).apply w s)) :
    C.Keeps W AnyEdit S AnyDetails where
  load _ _ := trivial
  appear _ _ _ := trivial
  edit _ _ _ _ := trivial
  tap {w s s' d a} hw hs _ h := by
    obtain ⟨e, he, rfl⟩ := K.tap_ok h
    exact ⟨hS hw hs (.button d e he), trivial⟩
  delete {w s s' row filtered} hw hs h := by
    obtain ⟨hrow, rfl, hfiltered⟩ := K.delete_ok h
    exact ⟨hS hw hs (.swipe row hrow), hfiltered⟩

variable (P : Platform)

theorem itemControllers_keeps
    (hS : ∀ {w s e}, W w → S s → StoreEdit.Permitted (.items e) s →
      S ((StoreEdit.items e).apply w s)) :
    (itemControllers P).Keeps W AnyEdit S AnyDetails :=
  (itemControllers_carryOut P).keeps fun {w s e} hw hs he => by
    have hlegal := he.legal (itemControllers_carryOut P)
    refine hS hw hs ⟨hlegal, ?_⟩
    cases he with
    | button d e he => cases he <;> trivial
    | swipe row hrow =>
      obtain ⟨item, hitem, hunused⟩ := hrow
      intro i hi
      obtain rfl : item = i := Option.some.inj (hitem.symm.trans hi)
      exact hunused

theorem locationControllers_keeps
    (hS : ∀ {w s e}, W w → S s → StoreEdit.Permitted (.locations e) s →
      S ((StoreEdit.locations e).apply w s)) :
    (locationControllers P).Keeps W AnyEdit S AnyDetails :=
  (locationControllers_carryOut P).keeps fun {w s e} hw hs he => by
    have hlegal := he.legal (locationControllers_carryOut P)
    refine hS hw hs ⟨hlegal, ?_⟩
    cases he with
    | button d e he => cases he <;> trivial
    | swipe row hrow =>
      obtain ⟨location, hlocation, hunused⟩ := hrow
      intro l hl
      obtain rfl : location = l := Option.some.inj (hlocation.symm.trans hl)
      exact hunused

theorem orderControllers_keeps_legal (edition : Edition)
    (hS : ∀ {w s e}, W w → S s → (StoreEdit.orders e).Legal s →
      S ((StoreEdit.orders e).apply w s)) :
    (orderControllers P edition).Keeps W AnyEdit S AnyDetails :=
  (orderControllers_carryOut P edition).keeps fun hw hs he =>
    hS hw hs (he.legal (orderControllers_carryOut P edition))

end Keeps

section App
variable (P : Platform) (edition : Edition)

inductive AppMove (written : Bool) (s : Store) (alerts : List Alert) :
    Screen → Event → AppState → Prop where
  | openItems : AppMove written s alerts .main .openItems
      ⟨s, .items (Pane.opened (itemControllers P) s), alerts⟩
  | openLocations : AppMove written s alerts .main .openLocations
      ⟨s, .locations (Pane.opened (locationControllers P) s), alerts⟩
  | openOrders : AppMove written s alerts .main .openOrders
      ⟨s, .orders (Pane.opened (orderControllers P edition) s), alerts⟩
  | items (p e r) : paneStep (itemControllers P) written s p e = .ok r →
      AppMove written s alerts (.items p) (.items e) ⟨r.store, .items r.pane, r.alerts ++ alerts⟩
  | locations (p e r) : paneStep (locationControllers P) written s p e = .ok r →
      AppMove written s alerts (.locations p) (.locations e)
        ⟨r.store, .locations r.pane, r.alerts ++ alerts⟩
  | orders (p e r) : paneStep (orderControllers P edition) written s p e = .ok r →
      AppMove written s alerts (.orders p) (.orders e)
        ⟨r.store, .orders r.pane, r.alerts ++ alerts⟩
  | leave (screen) : AppMove written s alerts screen .leave ⟨s, .main, alerts⟩
  | stay (screen e) : (∀ p x, screen = .items p → e ≠ .items x) →
      (∀ p x, screen = .locations p → e ≠ .locations x) →
      (∀ p x, screen = .orders p → e ≠ .orders x) →
      AppMove written s alerts screen e ⟨s, screen, alerts⟩

variable {P edition} in
theorem step_move {s : Store} {screen : Screen} {alerts : List Alert} {e : Event} {written : Bool}
    {st' : AppState} (h : step P edition ⟨s, screen, alerts⟩ ⟨e, written⟩ = .ok st') :
    AppMove P edition written s alerts screen e st' := by
  unfold step at h
  split at h
  · rename_i hscreen hevent
    cases hscreen
    cases hevent
    exact Except.ok.inj h ▸ .openItems
  · rename_i hscreen hevent
    cases hscreen
    cases hevent
    exact Except.ok.inj h ▸ .openLocations
  · rename_i hscreen hevent
    cases hscreen
    cases hevent
    exact Except.ok.inj h ▸ .openOrders
  · rename_i p e hscreen hevent
    cases hscreen
    cases hevent
    obtain ⟨r, hr, rfl⟩ := map_ok_iff.mp h
    exact .items p e r hr
  · rename_i p e hscreen hevent
    cases hscreen
    cases hevent
    obtain ⟨r, hr, rfl⟩ := map_ok_iff.mp h
    exact .locations p e r hr
  · rename_i p e hscreen hevent
    cases hscreen
    cases hevent
    obtain ⟨r, hr, rfl⟩ := map_ok_iff.mp h
    exact .orders p e r hr
  · rename_i hscreen hevent
    cases hevent
    exact Except.ok.inj h ▸ .leave _
  · rename_i hscreen hevent
    cases hevent
    exact Except.ok.inj h ▸ .leave _
  · rename_i hscreen hevent
    cases hevent
    exact Except.ok.inj h ▸ .leave _
  · rename_i hi hl ho _ _ _
    exact Except.ok.inj h ▸ .stay _ _ hi hl ho

/-- An invariant of the store with a coherent top screen. -/
def AppState.Inv (S : Store → Prop) (D : Store → OrderDetails → Prop) (st : AppState) : Prop :=
  S st.store ∧ match st.screen with
    | .main => True
    | .items p => p.Coherent (itemControllers P) AnyDetails st.store
    | .locations p => p.Coherent (locationControllers P) AnyDetails st.store
    | .orders p => p.Coherent (orderControllers P edition) D st.store

/-- The write is among `W`, and an edit of the order details meets `E`. -/
def Input.Meets (W : Bool → Prop) (E : Store → OrderEdit → OrderDetails → Prop) (st : AppState)
    (i : Input) : Prop :=
  W i.written ∧ ∀ p d x, st.screen = .orders p → p.details = some d → i.event = .orders (.edit x) →
    E st.store x d

theorem Input.meets_anyEdit {W : Bool → Prop} {st : AppState} {inputs : List Input}
    (h : ∀ i ∈ inputs, W i.written) :
    (step P edition).Meets (Input.Meets W AnyEdit) st inputs :=
  Machine.meets_of_forall st fun i hi _ => ⟨h i hi, fun _ _ _ _ _ _ => trivial⟩

theorem AppState.inv_atMenu {S : Store → Prop} {D : Store → OrderDetails → Prop} {s : Store}
    (h : S s) : (AppState.atMenu s).Inv P edition S D :=
  ⟨h, trivial⟩

variable {P edition} {W : Bool → Prop} {E : Store → OrderEdit → OrderDetails → Prop}
  {S : Store → Prop} {D : Store → OrderDetails → Prop}

/-- What the three pairs of controllers keep is an invariant of the app. -/
theorem step_preserves (KI : (itemControllers P).Keeps W AnyEdit S AnyDetails)
    (KL : (locationControllers P).Keeps W AnyEdit S AnyDetails)
    (KO : (orderControllers P edition).Keeps W E S D) :
    (step P edition).Preserves (Input.Meets W E) (AppState.Inv P edition S D) := by
  rintro ⟨s, screen, alerts⟩ ⟨e, written⟩ st' ⟨hs, hscreen⟩ ⟨hw, hE⟩ h
  cases step_move h with
  | openItems => exact ⟨hs, Pane.coherent_opened s⟩
  | openLocations => exact ⟨hs, Pane.coherent_opened s⟩
  | openOrders => exact ⟨hs, Pane.coherent_opened s⟩
  | items p e r hr => exact KI.paneStep hs hscreen hw (fun _ _ _ _ => trivial) hr
  | locations p e r hr => exact KL.paneStep hs hscreen hw (fun _ _ _ _ => trivial) hr
  | orders p e r hr =>
    exact KO.paneStep hs hscreen hw (fun d x hd hx => hE p d x rfl hd (congrArg Event.orders hx)) hr
  | leave => exact ⟨hs, trivial⟩
  | stay => exact ⟨hs, hscreen⟩

variable (P edition)

/-- What all legal edits of the store preserve is an invariant of the app. -/
theorem step_preserves_legal
    (hS : ∀ {w s} {e : StoreEdit}, W w → S s → e.Legal s → S (e.apply w s)) :
    (step P edition).Preserves (Input.Meets W AnyEdit) (AppState.Inv P edition S AnyDetails) :=
  step_preserves (itemControllers_keeps P fun hw hs he => hS hw hs he.1)
    (locationControllers_keeps P fun hw hs he => hS hw hs he.1)
    (orderControllers_keeps_legal P edition fun hw hs he => hS hw hs he)

theorem step_preserves_legal_any
    (hS : ∀ {w s} {e : StoreEdit}, S s → e.Legal s → S (e.apply w s)) :
    (step P edition).Preserves Machine.AnyStep (AppState.Inv P edition S AnyDetails) := by
  have hkeep : (step P edition).Preserves (Input.Meets (fun _ => True) AnyEdit)
      (AppState.Inv P edition S AnyDetails) :=
    step_preserves_legal P edition fun _ hs he => hS hs he
  exact fun st i st' hst _ h => hkeep st i st' hst ⟨trivial, fun _ _ _ _ _ _ => trivial⟩ h

theorem run_distinctIds {s : Store} (hs : s.DistinctIds) {inputs : List Input} {st : AppState}
    (h : (step P edition).run (AppState.atMenu s) inputs = .ok st) :
    st.Inv P edition Store.DistinctIds AnyDetails :=
  (step_preserves_legal_any P edition fun {w _ _} hs he => hs.apply he w).run_any
    (AppState.inv_atMenu P edition hs) h

end App
end Info6350.TableApp
