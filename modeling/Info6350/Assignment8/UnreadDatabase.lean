import Info6350.Assignment8.NamedRecord
import Info6350.Logistics.Arrays

/-! # What Assignment 8 never reads

The three menus and their screens work on the arrays of the main controller.  Only the launch
reads the tables.
-/

namespace Info6350.Assignment8
open Library Swift Logistics TextApp DatabaseManager

variable {F : DateFormatter} {s t : Store}

theorem btnCreateTap_matched (written written' : Bool) (m : Menu) (form : Form Field)
    (h : s.SameArrays t) :
    Matched SameOutcome (btnCreateTap F written m form s) (btnCreateTap F written' m form t) := by
  obtain ⟨items, locations, orders, db⟩ := s
  obtain ⟨rfl, rfl, rfl⟩ := h
  cases m <;> exact .bind_left _ fun _ => .ok ⟨⟨rfl, rfl, rfl⟩, rfl⟩

theorem btnDeleteTap_matched (written written' : Bool) (m : Menu) (form : Form Field)
    (h : s.SameArrays t) :
    Matched SameOutcome (btnDeleteTap written m form s) (btnDeleteTap written' m form t) := by
  obtain ⟨items, locations, orders, db⟩ := s
  obtain ⟨rfl, rfl, rfl⟩ := h
  cases m <;> exact .bind_left _ fun _ => .ok ⟨⟨rfl, rfl, rfl⟩, rfl⟩

theorem Changer.btnFetchTap_congr (c : Changer) (scr : FetchState) (h : s.SameArrays t) :
    (c.controller F).btnFetchTap scr s = (c.controller F).btnFetchTap scr t := by
  obtain ⟨items, locations, orders, db⟩ := s
  obtain ⟨rfl, rfl, rfl⟩ := h
  cases c <;> rfl

theorem Changer.btnUpdateTap_matched (c : Changer) (written written' : Bool) (scr : FetchState)
    (h : s.SameArrays t) : Matched SameOutcome ((c.controller F).btnUpdateTap written scr s)
      ((c.controller F).btnUpdateTap written' scr t) := by
  obtain ⟨items, locations, orders, db⟩ := s
  obtain ⟨rfl, rfl, rfl⟩ := h
  cases c <;> exact .bind_left _ fun _ => .ok ⟨⟨rfl, rfl, rfl⟩, rfl⟩

/-- Two states that the user cannot tell apart: only their databases differ. -/
structure AppState.Alike (st st' : AppState) : Prop where
  store : st.store.SameArrays st'.store
  screen : st.screen = st'.screen
  alerts : st.alerts = st'.alerts

theorem step_lockstep (F : DateFormatter) :
    (step F).Lockstep (step F) AppState.Alike fun i j => i.event = j.event := by
  rintro ⟨s, screen, alerts⟩ ⟨t, _, _⟩ ⟨e, written⟩ ⟨_, written'⟩ ⟨hs, rfl, rfl⟩ rfl
  dsimp only at hs
  have hshows : ∀ screen' alerts', AppState.Alike ⟨s, screen', alerts'⟩ ⟨t, screen', alerts'⟩ :=
    fun _ _ => ⟨hs, rfl, rfl⟩
  have hwrote : ∀ {h h' : Handler (Store × Alert)}, Matched SameOutcome h h' →
      Matched AppState.Alike
        (settle (AppState.wrote ⟨s, screen, alerts⟩) (AppState.alerted ⟨s, screen, alerts⟩) h)
        (settle (AppState.wrote ⟨t, screen, alerts⟩) (AppState.alerted ⟨t, screen, alerts⟩) h') :=
    fun h => settle_matched h (fun r r' hr => ⟨hr.1, rfl, congrArg (· :: alerts) hr.2⟩)
      fun _ => hshows _ _
  cases screen with
  | main => cases e <;> exact .ok (hshows _ _)
  | menu m =>
    cases e with
    | presentChange c =>
      unfold step
      dsimp only
      split_ifs <;> exact .ok (hshows _ _)
    | _ => exact .ok (hshows _ _)
  | create m form =>
    cases e with
    | btnTap => exact hwrote (btnCreateTap_matched written written' m form hs)
    | _ => exact .ok (hshows _ _)
  | delete m form =>
    cases e with
    | btnTap => exact hwrote (btnDeleteTap_matched written written' m form hs)
    | _ => exact .ok (hshows _ _)
  | change c scr =>
    cases e with
    | btnFetchTap =>
      unfold step
      dsimp only
      rw [c.btnFetchTap_congr scr hs]
      exact settle_matched (.of_eq rfl) (fun r r' hr => hr ▸ hshows _ _) fun _ => hshows _ _
    | btnTap => exact hwrote (c.btnUpdateTap_matched written written' scr hs)
    | _ => exact .ok (hshows _ _)

/-- Two sessions with the same arrays on the same events are alike at the end, and stop at the
same event if one stops, whatever the databases hold and refuse. -/
theorem run_ignoresTables (F : DateFormatter) {st st' : AppState} (h : st.Alike st')
    {inputs inputs' : List Input} (hevents : inputs.map Input.event = inputs'.map Input.event) :
    Matched AppState.Alike ((step F).run st inputs) ((step F).run st' inputs') := by
  refine (step_lockstep F).run h ?_
  rw [← List.forall₂_eq_eq_eq, List.forall₂_map_left_iff, List.forall₂_map_right_iff] at hevents
  exact hevents

/-- The arrays of the sample over a database that lost its rows. -/
def Sample.emptied : Store :=
  { generateDummyData Sample.database with db := ⟨.empty, .empty, .empty⟩ }

/-- The second session refuses every write. -/
theorem run_ignoresTables_fetched :
    Matched AppState.Alike ((step .utc).run (AppState.launch Sample.database) Sample.fetched)
      ((step .utc).run ⟨Sample.emptied, .main, []⟩
        (Sample.fetched.map fun i => { i with written := false })) :=
  @run_ignoresTables .utc (AppState.launch Sample.database) ⟨Sample.emptied, .main, []⟩
    ⟨⟨rfl, rfl, rfl⟩, rfl, rfl⟩ Sample.fetched
    (Sample.fetched.map fun i => { i with written := false }) rfl

end Info6350.Assignment8
