import Info6350.TableApp.Invariants

/-! # Writes that the database refuses

`DatabaseManager` catches the errors of its writes and prints them, so a handler changes its
array and reports a success whatever becomes of the statement that it sends.  `Requests`
says which change an event asks for once the checks of its handler let it through; a step
is all or nothing when it makes this change in memory and in the table, or changes nothing
and reports no success.
-/

namespace Info6350.TableApp
open Library Swift Logistics

section Pane
variable {α δ ω : Type}

inductive PaneRequests (R : Changes α δ) (s : Store) (p : Pane α δ) :
    PaneEvent ω → StoreEdit → Prop where
  | button (d e) : p.details = some d → R.byButton s d e →
      PaneRequests R s p .createButtonTap (R.edit e)
  | swipe (row) : p.details = none → p.isActive = false → R.bySwipe s row →
      PaneRequests R s p (.swipeDelete row) (R.edit (.delete row))

variable {C : Controllers α δ ω} {R : Changes α δ}

theorem paneStep_of_requests (K : C.CarryOut R) {s : Store} {p : Pane α δ} {e : PaneEvent ω}
    {change : StoreEdit} (hp : p.Coherent C AnyDetails s) (h : PaneRequests R s p e change) :
    change.Legal s ∧ ∀ written, ∃ r, paneStep C written s p e = .ok r ∧
      r.store = change.apply written s := by
  obtain ⟨filtered, isActive, details⟩ := p
  cases h with
  | button d e hd he =>
    obtain rfl : details = some d := hd
    obtain ⟨hlegal, message, htap⟩ := K.button he
    refine ⟨hlegal, fun written => ⟨⟨(R.edit e).apply written s, ⟨filtered, isActive, some d⟩,
      [⟨"Success", message⟩]⟩, ?_, rfl⟩⟩
    change settle _ _ (C.createButtonTap written d s) = _
    rw [htap]
    rfl
  | swipe row hd hactive hrow =>
    obtain rfl : filtered = C.array s := hp.filteredResults hd hactive
    cases hd
    cases hactive
    obtain ⟨hrange, hlegal, hdelete⟩ := K.swipe hrow
    refine ⟨hlegal, fun written => ⟨⟨(R.edit (.delete row)).apply written s,
      ⟨(Edit.delete row).onList (C.array s), false, none⟩, []⟩, ?_, rfl⟩⟩
    change (if _ then settle _ _ (C.commitDelete written (C.array s) row s) else _) = _
    rw [if_pos ⟨rfl, hrange⟩, hdelete]
    rfl

theorem paneStep_quiet {written : Bool} {s : Store} {p : Pane α δ} {e : PaneEvent ω}
    {r : PaneResult α δ} (hbutton : e ≠ .createButtonTap) (hswipe : ∀ row, e ≠ .swipeDelete row)
    (h : paneStep C written s p e = .ok r) : r.store = s ∧ r.alerts = [] := by
  have hpush : ∀ {q : Pane α δ} {d : δ}, q.push C d s = .ok r → r.store = s ∧ r.alerts = [] := by
    intro q d hq
    obtain ⟨d', -, rfl⟩ := Pane.push_ok_iff.mp hq
    exact ⟨rfl, rfl⟩
  unfold paneStep at h
  split at h
  · exact Except.ok.inj h ▸ ⟨rfl, rfl⟩
  · exact Except.ok.inj h ▸ ⟨rfl, rfl⟩
  · exact hpush h
  · split_ifs at h
    · exact hpush h
    · exact Except.ok.inj h ▸ ⟨rfl, rfl⟩
  · exact absurd rfl (hswipe _)
  · obtain ⟨d', -, h⟩ := bind_ok_iff.mp h
    obtain rfl := pure_ok_iff.mp h
    exact ⟨rfl, rfl⟩
  · exact absurd rfl hbutton
  · exact hpush h
  · exact Except.ok.inj h ▸ ⟨rfl, rfl⟩
  · exact Except.ok.inj h ▸ ⟨rfl, rfl⟩

/-- When no change is asked for nothing changes, and no success is reported. -/
theorem paneStep_of_not_requests (K : C.CarryOut R) {written : Bool} {s : Store} {p : Pane α δ}
    {e : PaneEvent ω} {r : PaneResult α δ} (hp : p.Coherent C AnyDetails s)
    (hnone : ∀ change, ¬ PaneRequests R s p e change) (h : paneStep C written s p e = .ok r) :
    r.store = s ∧ ∀ a ∈ r.alerts, a.title ≠ "Success" := by
  by_cases hbutton : e = .createButtonTap
  · subst hbutton
    obtain ⟨filtered, isActive, details⟩ := p
    cases details with
    | none => exact Except.ok.inj h ▸ ⟨rfl, List.forall_mem_nil _⟩
    | some d =>
      rcases settle_unsuccessful (K.button_stops written d s) h with
        ⟨a, htap, -⟩ | ⟨alerts, halerts, rfl⟩
      · obtain ⟨e, he⟩ := K.button_ok htap
        exact absurd (.button d e rfl he) (hnone _)
      · exact ⟨rfl, halerts⟩
  · by_cases hswipe : ∃ row, e = .swipeDelete row
    · obtain ⟨row, rfl⟩ := hswipe
      obtain ⟨filtered, isActive, details⟩ := p
      cases details with
      | some d => exact Except.ok.inj h ▸ ⟨rfl, List.forall_mem_nil _⟩
      | none =>
        simp only [paneStep] at h
        split_ifs at h with hrow
        · have hactive : isActive = false := Pane.canEditRow_iff.mp hrow.1
          obtain rfl : filtered = C.array s := hp.filteredResults rfl hactive
          rcases settle_unsuccessful (K.swipe_stops written _ row s) h with
            ⟨a, hdelete, -⟩ | ⟨alerts, halerts, rfl⟩
          · exact absurd (.swipe row rfl hactive (K.swipe_ok hdelete)) (hnone _)
          · exact ⟨rfl, halerts⟩
        · exact Except.ok.inj h ▸ ⟨rfl, List.forall_mem_nil _⟩
    · obtain ⟨hstore, halerts⟩ := paneStep_quiet hbutton (not_exists.mp hswipe) h
      exact ⟨hstore, halerts ▸ List.forall_mem_nil _⟩

end Pane

/-! ## The app -/

/-- The change that an event asks for, when the top screen has the handler and its checks pass. -/
inductive Requests (st : AppState) : Event → StoreEdit → Prop where
  | items (p e change) : st.screen = .items p → PaneRequests itemChanges st.store p e change →
      Requests st (.items e) change
  | locations (p e change) : st.screen = .locations p →
      PaneRequests locationChanges st.store p e change → Requests st (.locations e) change
  | orders (p e change) : st.screen = .orders p →
      PaneRequests orderChanges st.store p e change → Requests st (.orders e) change

/-- Memory and table both take the change that is asked for, or both stay as they are and
no success is reported. -/
def AllOrNothing (P : Platform) (st : AppState) (i : Input) : Prop :=
  ∀ st', step P .assignment9 st i = .ok st' →
    (∃ change, Requests st i.event change ∧ st'.store = change.apply true st.store) ∨
      (st'.store = st.store ∧ ∀ message, st'.alerts ≠ ⟨"Success", message⟩ :: st.alerts)

/-- The database accepts what is sent, unless it leaves the record as it is. -/
def WriteAccepted (st : AppState) (i : Input) : Prop :=
  ∀ change, Requests st i.event change → i.written = true ∨ change.Idle st.store

section App
variable {P : Platform} {S : Store → Prop} {st st' : AppState} {i : Input}

theorem step_of_requests (hst : st.Inv P .assignment9 S AnyDetails) {change : StoreEdit}
    (h : Requests st i.event change) : change.Legal st.store ∧
      ∃ st', step P .assignment9 st i = .ok st' ∧
        st'.store = change.apply i.written st.store := by
  obtain ⟨s, screen, alerts⟩ := st
  obtain ⟨event, written⟩ := i
  cases h with
  | items p e change hscreen h =>
    cases hscreen
    obtain ⟨hlegal, hstep⟩ := paneStep_of_requests (itemControllers_carryOut P) hst.2 h
    obtain ⟨r, hr, hstore⟩ := hstep written
    exact ⟨hlegal, _, map_ok_iff.mpr ⟨r, hr, rfl⟩, hstore⟩
  | locations p e change hscreen h =>
    cases hscreen
    obtain ⟨hlegal, hstep⟩ := paneStep_of_requests (locationControllers_carryOut P) hst.2 h
    obtain ⟨r, hr, hstore⟩ := hstep written
    exact ⟨hlegal, _, map_ok_iff.mpr ⟨r, hr, rfl⟩, hstore⟩
  | orders p e change hscreen h =>
    cases hscreen
    obtain ⟨hlegal, hstep⟩ :=
      paneStep_of_requests (orderControllers_carryOut P .assignment9) hst.2 h
    obtain ⟨r, hr, hstore⟩ := hstep written
    exact ⟨hlegal, _, map_ok_iff.mpr ⟨r, hr, rfl⟩, hstore⟩

theorem append_ne_success {shown alerts : List Alert} (h : ∀ a ∈ shown, a.title ≠ "Success")
    (message : String) : shown ++ alerts ≠ ⟨"Success", message⟩ :: alerts := by
  intro heq
  have hshown : shown = [⟨"Success", message⟩] := List.append_cancel_right heq
  exact h ⟨"Success", message⟩ (hshown ▸ List.mem_singleton_self _) rfl

theorem step_of_not_requests (hst : st.Inv P .assignment9 S AnyDetails)
    (hnone : ∀ change, ¬ Requests st i.event change)
    (h : step P .assignment9 st i = .ok st') :
    st'.store = st.store ∧ ∀ message, st'.alerts ≠ ⟨"Success", message⟩ :: st.alerts := by
  obtain ⟨s, screen, alerts⟩ := st
  obtain ⟨event, written⟩ := i
  have hquiet : ∀ message, alerts ≠ ⟨"Success", message⟩ :: alerts :=
    append_ne_success (List.forall_mem_nil _)
  cases step_move h with
  | openItems => exact ⟨rfl, hquiet⟩
  | openLocations => exact ⟨rfl, hquiet⟩
  | openOrders => exact ⟨rfl, hquiet⟩
  | items p e r hr =>
    obtain ⟨hstore, hshown⟩ := paneStep_of_not_requests (itemControllers_carryOut P) hst.2
      (fun change hchange => hnone change (.items p e change rfl hchange)) hr
    exact ⟨hstore, append_ne_success hshown⟩
  | locations p e r hr =>
    obtain ⟨hstore, hshown⟩ := paneStep_of_not_requests (locationControllers_carryOut P) hst.2
      (fun change hchange => hnone change (.locations p e change rfl hchange)) hr
    exact ⟨hstore, append_ne_success hshown⟩
  | orders p e r hr =>
    obtain ⟨hstore, hshown⟩ := paneStep_of_not_requests (orderControllers_carryOut P .assignment9)
      hst.2 (fun change hchange => hnone change (.orders p e change rfl hchange)) hr
    exact ⟨hstore, append_ne_success hshown⟩
  | leave => exact ⟨rfl, hquiet⟩
  | stay => exact ⟨rfl, hquiet⟩

/-- While memory matches the database, the handlers are all or nothing exactly when their
writes are accepted. -/
theorem allOrNothing_iff (hst : st.Inv P .assignment9 Store.MemoryMatchesDatabase AnyDetails)
    (i : Input) : AllOrNothing P st i ↔ WriteAccepted st i := by
  constructor
  · intro h change hchange
    obtain ⟨hlegal, st', hstep, hstore⟩ := step_of_requests hst hchange
    cases hw : i.written with
    | true => exact .inl rfl
    | false =>
      -- either way of being all or nothing leaves memory and database equal
      have hmatches : st'.store.MemoryMatchesDatabase := by
        rcases h st' hstep with ⟨made, hmade, hst'⟩ | ⟨hst', -⟩
        · rw [hst']
          exact hst.1.apply (step_of_requests hst hmade).1
        · rw [hst']
          exact hst.1
      rw [hstore, hw] at hmatches
      exact .inr (hst.1.idle_of_refused hlegal hmatches)
  · intro h st' hstep
    by_cases hchange : ∃ change, Requests st i.event change
    · obtain ⟨change, hchange⟩ := hchange
      obtain ⟨-, reached, hreached, hstore⟩ := step_of_requests hst hchange
      obtain rfl : reached = st' := Except.ok.inj (hreached.symm.trans hstep)
      refine .inl ⟨change, hchange, ?_⟩
      rcases h change hchange with hw | hidle
      · rw [hstore, hw]
      · rw [hstore, hst.1.apply_of_idle hidle, hst.1.apply_of_idle hidle]
    · exact .inr (step_of_not_requests hst (not_exists.mp hchange) hstep)

theorem step_preserves_allOrNothing (P : Platform) :
    (step P .assignment9).Preserves (fun st i => Machine.AnyStep st i ∧ AllOrNothing P st i)
      (AppState.Inv P .assignment9 Store.MemoryMatchesDatabase AnyDetails) := by
  intro st i st' hst hi hstep
  have hscreen : st'.Inv P .assignment9 Store.DistinctIds AnyDetails :=
    step_preserves_legal_any P .assignment9 (fun {w _ _} hs he => hs.apply he w) st i st'
      ⟨hst.1.distinctIds, hst.2⟩ trivial hstep
  refine ⟨?_, hscreen.2⟩
  rcases hi.2 st' hstep with ⟨change, hchange, hstore⟩ | ⟨hstore, -⟩
  · rw [hstore]
    exact hst.1.apply (step_of_requests hst hchange).1
  · rw [hstore]
    exact hst.1

end App

/-- For every database at launch and every run, whichever writes the database refuses: the
handlers are all or nothing if and only if it accepts every write that they send, but for
updates that leave their record as it is. -/
theorem run_allOrNothing_iff (P : Platform) (db : Database) (inputs : List Input) :
    (step P .assignment9).Meets (AllOrNothing P) (AppState.atMenu (generateDummyData db)) inputs ↔
      (step P .assignment9).Meets WriteAccepted (AppState.atMenu (generateDummyData db)) inputs :=
  Machine.meets_congr_of_meets (step_preserves_allOrNothing P)
    (fun _ i hst _ => allOrNothing_iff hst i)
    (AppState.inv_atMenu P .assignment9 (Store.generateDummyData_matches db))
    (Machine.meets_anyStep _ inputs)

namespace Sample

def desk : Item := ⟨none, 3, "Desk", "", 1, 1⟩

def refusedCreate : List Input :=
  [⟨.openItems, true⟩, ⟨.items (.addTapped 0), true⟩,
    ⟨.items (.edit (.type .tfItemId "3")), true⟩, ⟨.items (.edit (.type .tfItemName "Desk")), true⟩,
    ⟨.items (.edit (.type .tfItemWeight "1")), true⟩,
    ⟨.items (.edit (.type .tfItemValue "1")), true⟩, ⟨.items .createButtonTap, false⟩]

end Sample

/-- The success is reported and the desk is in memory, but not in the table. -/
theorem run_refusedCreate :
    (∃ st, (step Platform.ascii .assignment9).run
        (AppState.atMenu (generateDummyData Sample.database)) Sample.refusedCreate = .ok st ∧
      st.alerts = [⟨"Success", "Item created successfully"⟩] ∧
      st.store.items = [Sample.lamp, Sample.chair, Sample.desk] ∧
      st.store.db.item.rows = [Sample.lamp, Sample.chair]) ∧
    ¬ (step Platform.ascii .assignment9).Meets (AllOrNothing Platform.ascii)
      (AppState.atMenu (generateDummyData Sample.database)) Sample.refusedCreate := by
  refine ⟨⟨_, rfl, rfl, rfl, rfl⟩, fun h => ?_⟩
  obtain ⟨-, h⟩ := h
  obtain ⟨-, h⟩ := h _ rfl
  obtain ⟨-, h⟩ := h _ rfl
  obtain ⟨-, h⟩ := h _ rfl
  obtain ⟨-, h⟩ := h _ rfl
  obtain ⟨-, h⟩ := h _ rfl
  have htap := (allOrNothing_iff ⟨Store.generateDummyData_matches Sample.database, trivial⟩ _).mp
    (h _ rfl).1
  have hsent := htap (.items (.create Sample.desk)) <| .items _ _ _ rfl <|
    .button _ (.create Sample.desk) rfl <|
      .create Sample.desk rfl (by decide) ⟨by decide, Sample.desk,
        ⟨rfl, rfl, rfl, by decide, rfl, by decide, by decide, by decide, by decide⟩⟩
  rcases hsent with hw | hidle
  · cases hw
  · exact hidle

end Info6350.TableApp
