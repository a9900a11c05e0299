import Info6350.Assignment7.App
import Info6350.Assignment8.NamedRecord
import Info6350.Logistics.Arrays

/-! # Assignment 7 and Assignment 8 simulate one another

The two apps differ in the database and in the text fields after an update.  The user can make
up for the second difference: in Assignment 8 by emptying the fields that Assignment 7 empties,
and in Assignment 7 by typing their texts again.  Up to this typing every run of one app is a
run of the other with the same taps.
-/

namespace Info6350.Assignment7
open Library Swift Logistics TextApp
open Assignment8 (Menu Changer FetchState Screen Event Input)

/-! ## Forms in which everything can be typed -/

/-- All fields are enabled and hold a text. -/
def Editable (form : Form Field) : Prop := ∀ f, ∃ text, form f = ⟨some text, true⟩

namespace Editable
variable {form : Form Field}

theorem blank : Editable Form.blank := fun _ => ⟨"", rfl⟩

theorem setText (h : Editable form) (f : Field) (text : String) :
    Editable (form.setText f text) := by
  intro g
  by_cases hg : g = f
  · subst hg
    obtain ⟨old, hold⟩ := h g
    exact ⟨text, by simp [Form.setText, hold]⟩
  · rw [Form.setText_of_ne hg]
    exact h g

/-- Typing in an enabled field is assigning its text. -/
theorem type_eq (h : Editable form) (f : Field) (text : String) :
    form.type f text = form.setText f text := by
  obtain ⟨old, hold⟩ := h f
  simp [Form.type, Form.setText, hold]

theorem type (h : Editable form) (f : Field) (text : String) : Editable (form.type f text) :=
  h.type_eq f text ▸ h.setText f text

theorem foldl_type_eq (h : Editable form) (fields : List Field) (text : Field → String) :
    fields.foldl (fun form f => form.type f (text f)) form =
      fields.foldl (fun form f => form.setText f (text f)) form := by
  induction fields generalizing form with
  | nil => rfl
  | cons f fields ih =>
    rw [List.foldl_cons, List.foldl_cons, h.type_eq]
    exact ih (h.setText f _)

theorem foldl_setText (h : Editable form) (fields : List Field) (text : Field → String) :
    Editable (fields.foldl (fun form f => form.setText f (text f)) form) := by
  induction fields generalizing form with
  | nil => exact h
  | cons f fields ih => exact ih (h.setText f _)

end Editable

theorem foldl_setText_of_not_mem {fields : List Field} {g : Field} (hg : g ∉ fields)
    (text : Field → String) (form : Form Field) :
    fields.foldl (fun form f => form.setText f (text f)) form g = form g := by
  induction fields generalizing form with
  | nil => rfl
  | cons f fields ih =>
    rw [List.foldl_cons, ih fun hmem => hg (List.mem_cons_of_mem _ hmem)]
    have hne : g ≠ f := fun h => hg (List.mem_cons.mpr (.inl h))
    exact Form.setText_of_ne hne _ _

theorem foldl_type_restores {form form' : Form Field} (h : Editable form) (h' : Editable form')
    {fields : List Field} (hsame : ∀ g, g ∉ fields → form' g = form g) :
    fields.foldl (fun form' f => form'.type f ((form f).text.getD "")) form' = form := by
  induction fields generalizing form' with
  | nil => exact funext fun g => hsame g List.not_mem_nil
  | cons f fields ih =>
    refine ih (h'.type f _) fun g hg => ?_
    obtain ⟨text, htext⟩ := h g
    obtain ⟨old, hold⟩ := h' g
    by_cases hgf : g = f
    · subst hgf
      simp [Form.type, htext, hold]
    · exact (Form.type_of_ne hgf _ _).trans
        (hsame g (List.not_mem_cons_of_ne_of_not_mem hgf hg))

theorem fill_editable {F : DateFormatter} (c : Changer) {record : (c.controller F).Record}
    {form form' : Form Field} (h : Editable form)
    (hfill : (c.controller F).screen.fill record form = .ok form') : Editable form' := by
  cases c with
  | updateItem =>
    obtain rfl := Except.ok.inj hfill
    exact (((h.setText _ _).setText _ _).setText _ _).setText _ _
  | updateLocation =>
    obtain rfl := Except.ok.inj hfill
    exact ((((h.setText _ _).setText _ _).setText _ _).setText _ _).setText _ _
  | updateDepartureDate =>
    obtain rfl := Except.ok.inj hfill
    exact h.setText _ _
  | updateOrderItem =>
    obtain ⟨line, -, hfill⟩ := bind_ok_iff.mp hfill
    obtain rfl := pure_ok_iff.mp hfill
    exact (h.setText _ _).setText _ _
  | addItems =>
    obtain rfl := Except.ok.inj hfill
    exact h

/-! ## Corresponding states -/

structure SameArrays (main : MainViewController) (s : Assignment8.Store) : Prop where
  items : main.items = s.items
  locations : main.locations = s.locations
  logisticsOrder : main.logisticsOrder = s.logisticsOrder

def ScreenEditable : Screen → Prop
  | .create _ form | .delete _ form => Editable form
  | .change _ scr => Editable scr.form
  | _ => True

/-- The two apps show the same. -/
structure Corresponds (st : AppState) (st' : Assignment8.AppState) : Prop where
  arrays : SameArrays st.main st'.store
  screen : st.screen = st'.screen
  alerts : st.alerts = st'.alerts
  editable : ScreenEditable st.screen

section Handlers
variable {F : DateFormatter} {main : MainViewController} {s : Assignment8.Store}

theorem btnCreateTap_matched (h : SameArrays main s) (written : Bool) (m : Menu)
    (form : Form Field) : Matched (fun r r' => SameArrays r.1 r'.1 ∧ r.2 = r'.2)
      (btnCreateTap F m form main) (Assignment8.btnCreateTap F written m form s) := by
  obtain ⟨locations, items, orders⟩ := main
  obtain ⟨_, _, _, db⟩ := s
  obtain ⟨rfl, rfl, rfl⟩ := h
  cases m <;> exact .bind_left _ fun _ => .ok ⟨⟨rfl, rfl, rfl⟩, rfl⟩

theorem btnDeleteTap_matched (h : SameArrays main s) (written : Bool) (m : Menu)
    (form : Form Field) : Matched (fun r r' => SameArrays r.1 r'.1 ∧ r.2 = r'.2)
      (btnDeleteTap m form main) (Assignment8.btnDeleteTap written m form s) := by
  obtain ⟨locations, items, orders⟩ := main
  obtain ⟨_, _, _, db⟩ := s
  obtain ⟨rfl, rfl, rfl⟩ := h
  cases m <;> exact .bind_left _ fun _ => .ok ⟨⟨rfl, rfl, rfl⟩, rfl⟩

theorem btnFetchTap_eq (h : SameArrays main s) (c : Changer) (scr : FetchState) :
    (controller F c).btnFetchTap scr main = (c.controller F).btnFetchTap scr s := by
  obtain ⟨locations, items, orders⟩ := main
  obtain ⟨_, _, _, db⟩ := s
  obtain ⟨rfl, rfl, rfl⟩ := h
  cases c <;> rfl

theorem btnFetchTap_editable {c : Changer} {scr : FetchState} {r : FetchState × List Alert}
    (hscr : Editable scr.form) (h : (c.controller F).btnFetchTap scr s = .ok r) :
    Editable r.1.form := by
  obtain ⟨⟨index, form⟩, hfetch, h⟩ := bind_ok_iff.mp h
  obtain rfl := pure_ok_iff.mp h
  obtain ⟨record, -, -, hfill⟩ := ChangeScreen.fetch_ok hfetch
  exact fill_editable c hscr hfill

def emptied (F : DateFormatter) (c : Changer) (scr : FetchState) : FetchState :=
  { scr with form := (controller F c).emptied.foldl (fun form f => form.setText f "") scr.form }

theorem btnUpdateTap_matched (h : SameArrays main s) (written : Bool) (c : Changer)
    (scr : FetchState) :
    Matched (fun r r' => SameArrays r.1 r'.1 ∧ r.2.1 = emptied F c scr ∧ r.2.2 = r'.2)
      ((controller F c).btnUpdateTap scr main) ((c.controller F).btnUpdateTap written scr s) := by
  obtain ⟨locations, items, orders⟩ := main
  obtain ⟨_, _, _, db⟩ := s
  obtain ⟨rfl, rfl, rfl⟩ := h
  cases c <;> exact .bind_left _ fun _ => .ok ⟨⟨rfl, rfl, rfl⟩, rfl, rfl⟩

end Handlers

/-! ## Making up for the emptied fields -/

/-- The taps; typing is not observed. -/
def tap? : Event → Option Event
  | .type _ _ => none
  | e => some e

section Typing
variable {F : DateFormatter} {c : Changer}

theorem filterMap_typing {ι : Type} {obs : ι → Option Event} {typing : Field → ι}
    (h : ∀ f, obs (typing f) = none) (fields : List Field) :
    (fields.map typing).filterMap obs = [] := by
  rw [List.filterMap_eq_nil_iff]
  intro e he
  obtain ⟨f, -, rfl⟩ := List.mem_map.mp he
  exact h f

theorem run_type (main : MainViewController) (scr : FetchState) (alerts : List Alert)
    (fields : List Field) (text : Field → String) :
    (step F).run ⟨main, .change c scr, alerts⟩ (fields.map fun f => .type f (text f)) =
      .ok ⟨main, .change c { scr with
        form := fields.foldl (fun form f => form.type f (text f)) scr.form }, alerts⟩ :=
  Machine.run_map_eq (v := fun form => AppState.mk main (.change c { scr with form }) alerts)
    (fun _ _ => rfl) scr.form fields

theorem run_type₈ (s : Assignment8.Store) (scr : FetchState) (alerts : List Alert)
    (fields : List Field) (text : Field → String) :
    (Assignment8.step F).run ⟨s, .change c scr, alerts⟩
        (fields.map fun f => ⟨.type f (text f), true⟩) =
      .ok ⟨s, .change c { scr with
        form := fields.foldl (fun form f => form.type f (text f)) scr.form }, alerts⟩ :=
  Machine.run_map_eq
    (v := fun form => Assignment8.AppState.mk s (.change c { scr with form }) alerts)
    (fun _ _ => rfl) scr.form fields

end Typing

/-! ## The simulations -/

section Steps
variable {F : DateFormatter}

/-- A change in the two apps: both trap, both show an error, or both write the same and only
Assignment 7 empties its fields. -/
inductive ChangeStep (F : DateFormatter) (c : Changer) (scr : FetchState) (main : MainViewController)
    (s : Assignment8.Store) : Except Trap AppState → Except Trap Assignment8.AppState → Prop
  | trap (t : Trap) : ChangeStep F c scr main s (.error t) (.error t)
  | refuse (alerts : List Alert) : ChangeStep F c scr main s (.ok ⟨main, .change c scr, alerts⟩)
      (.ok ⟨s, .change c scr, alerts⟩)
  | change (main' : MainViewController) (s' : Assignment8.Store) (alerts : List Alert) :
      SameArrays main' s' → ChangeStep F c scr main s
        (.ok ⟨main', .change c (emptied F c scr), alerts⟩) (.ok ⟨s', .change c scr, alerts⟩)

theorem changeStep {main : MainViewController} {s : Assignment8.Store} (h : SameArrays main s)
    (c : Changer) (scr : FetchState) (alerts : List Alert) (written : Bool) :
    ChangeStep F c scr main s (step F ⟨main, .change c scr, alerts⟩ .btnTap)
      (Assignment8.step F ⟨s, .change c scr, alerts⟩ ⟨.btnTap, written⟩) := by
  have hmatched := btnUpdateTap_matched (F := F) h written c scr
  unfold step Assignment8.step
  dsimp only
  generalize (controller F c).btnUpdateTap scr main = x at hmatched
  generalize (c.controller F).btnUpdateTap written scr s = y at hmatched
  cases hmatched with
  | @ok r r' hr =>
    obtain ⟨main', scr', a⟩ := r
    obtain ⟨s', a'⟩ := r'
    obtain ⟨harrays, rfl, rfl⟩ := hr
    exact .change main' s' _ harrays
  | error e =>
    cases e with
    | alert a => exact .refuse _
    | silent => exact .refuse _
    | trap t => exact .trap t

theorem step_matched {st : AppState} {st' : Assignment8.AppState} (h : Corresponds st st')
    {e : Event} (he : e = .btnTap → ∀ c scr, st.screen ≠ .change c scr) (written : Bool) :
    Matched Corresponds (step F st e) (Assignment8.step F st' ⟨e, written⟩) := by
  obtain ⟨main, screen, alerts⟩ := st
  obtain ⟨s, _, _⟩ := st'
  obtain ⟨harrays, rfl, rfl, hedit⟩ := h
  dsimp only at harrays hedit
  have hshows : ∀ screen' alerts', ScreenEditable screen' →
      Corresponds ⟨main, screen', alerts'⟩ ⟨s, screen', alerts'⟩ :=
    fun _ _ hscreen => ⟨harrays, rfl, rfl, hscreen⟩
  have hwrote : ∀ {x : Handler (MainViewController × Alert)}
      {y : Handler (Assignment8.Store × Alert)},
      Matched (fun r r' => SameArrays r.1 r'.1 ∧ r.2 = r'.2) x y → Matched Corresponds
        (settle (AppState.wrote ⟨main, screen, alerts⟩) (AppState.alerted ⟨main, screen, alerts⟩) x)
        (settle (Assignment8.AppState.wrote ⟨s, screen, alerts⟩)
          (Assignment8.AppState.alerted ⟨s, screen, alerts⟩) y) :=
    fun hxy => settle_matched hxy (fun r r' hr => ⟨hr.1, rfl, congrArg (· :: alerts) hr.2, hedit⟩)
      fun _ => hshows _ _ hedit
  cases screen with
  | main => cases e <;> exact .ok (hshows _ _ trivial)
  | menu m =>
    cases e with
    | presentCreate => exact .ok (hshows _ _ Editable.blank)
    | presentDelete => exact .ok (hshows _ _ Editable.blank)
    | presentChange c =>
      unfold step Assignment8.step
      dsimp only
      split_ifs
      · exact .ok (hshows _ _ Editable.blank)
      · exact .ok (hshows _ _ trivial)
    | _ => exact .ok (hshows _ _ trivial)
  | create m form =>
    cases e with
    | type f text => exact .ok (hshows _ _ (Editable.type hedit f text))
    | btnTap => exact hwrote (btnCreateTap_matched harrays written m form)
    | btnCloseTap => exact .ok (hshows _ _ trivial)
    | _ => exact .ok (hshows _ _ hedit)
  | delete m form =>
    cases e with
    | type f text => exact .ok (hshows _ _ (Editable.type hedit f text))
    | btnTap => exact hwrote (btnDeleteTap_matched harrays written m form)
    | btnCloseTap => exact .ok (hshows _ _ trivial)
    | _ => exact .ok (hshows _ _ hedit)
  | change c scr =>
    cases e with
    | type f text => exact .ok (hshows _ _ (Editable.type hedit f text))
    | btnFetchTap =>
      unfold step Assignment8.step
      dsimp only
      rw [btnFetchTap_eq harrays]
      cases hfetch : (c.controller F).btnFetchTap scr s with
      | ok r => exact .ok (hshows _ _ (btnFetchTap_editable hedit hfetch))
      | error e =>
        exact settle_matched (R := fun _ _ => False) (.error e) (fun _ _ hr => hr.elim)
          fun _ => hshows _ _ hedit
    | btnTap => exact absurd rfl (he rfl c scr)
    | btnCloseTap => exact .ok (hshows _ _ trivial)
    | _ => exact .ok (hshows _ _ hedit)

/-- After a change Assignment 8 matches the empty fields by emptying them. -/
theorem simulates (F : DateFormatter) :
    (step F).Simulates (Assignment8.step F) tap? (fun i => tap? i.event) Corresponds := by
  intro st st' e h
  by_cases he : e = .btnTap → ∀ c scr, st.screen ≠ .change c scr
  · refine ⟨[⟨e, true⟩], by cases e <;> rfl, ?_⟩
    rw [Machine.run_singleton]
    exact step_matched h he true
  · push Not at he
    obtain ⟨rfl, c, scr, hscreen⟩ := he
    obtain ⟨main, screen, alerts⟩ := st
    obtain ⟨s, _, _⟩ := st'
    obtain ⟨harrays, rfl, rfl, hedit⟩ := h
    obtain rfl : screen = .change c scr := hscreen
    have hstep := changeStep (F := F) harrays c scr alerts true
    generalize step F _ _ = x at hstep
    generalize hy : Assignment8.step F _ _ = y at hstep
    cases hstep with
    | trap t =>
      refine ⟨[⟨.btnTap, true⟩], rfl, ?_⟩
      rw [Machine.run_singleton, hy]
      exact .error t
    | refuse alerts' =>
      refine ⟨[⟨.btnTap, true⟩], rfl, ?_⟩
      rw [Machine.run_singleton, hy]
      exact .ok ⟨harrays, rfl, rfl, hedit⟩
    | change main' s' alerts' harrays' =>
      refine ⟨⟨.btnTap, true⟩ ::
        (controller F c).emptied.map (fun f => ⟨.type f "", true⟩), ?_, ?_⟩
      · exact congrArg (Event.btnTap :: ·) (filterMap_typing (fun _ => rfl) _)
      · rw [Machine.run_cons, hy]
        change Matched _ _ ((Assignment8.step F).run _ _)
        rw [run_type₈ s' scr alerts' _ fun _ => "", Editable.foldl_type_eq hedit _ fun _ => ""]
        exact .ok ⟨harrays', rfl, rfl, Editable.foldl_setText hedit _ fun _ => ""⟩

/-- After a change Assignment 7 matches the filled fields by typing their texts again. -/
theorem simulated (F : DateFormatter) :
    (Assignment8.step F).Simulates (step F) (fun i => tap? i.event) tap?
      fun st' st => Corresponds st st' := by
  intro st' st i h
  obtain ⟨e, written⟩ := i
  by_cases he : e = .btnTap → ∀ c scr, st.screen ≠ .change c scr
  · refine ⟨[e], by cases e <;> rfl, ?_⟩
    rw [Machine.run_singleton]
    exact (step_matched h he written).symm
  · push Not at he
    obtain ⟨rfl, c, scr, hscreen⟩ := he
    obtain ⟨main, screen, alerts⟩ := st
    obtain ⟨s, _, _⟩ := st'
    obtain ⟨harrays, rfl, rfl, hedit⟩ := h
    obtain rfl : screen = .change c scr := hscreen
    have hstep := changeStep (F := F) harrays c scr alerts written
    generalize hx : step F _ _ = x at hstep
    generalize Assignment8.step F _ _ = y at hstep
    cases hstep with
    | trap t =>
      refine ⟨[.btnTap], rfl, ?_⟩
      rw [Machine.run_singleton, hx]
      exact .error t
    | refuse alerts' =>
      refine ⟨[.btnTap], rfl, ?_⟩
      rw [Machine.run_singleton, hx]
      exact .ok ⟨harrays, rfl, rfl, hedit⟩
    | change main' s' alerts' harrays' =>
      refine ⟨.btnTap :: (controller F c).emptied.map
        (fun f => .type f ((scr.form f).text.getD "")), ?_, ?_⟩
      · exact congrArg (Event.btnTap :: ·) (filterMap_typing (fun _ => rfl) _)
      · have hempty : Editable (emptied F c scr).form :=
          Editable.foldl_setText hedit _ fun _ => ""
        have hrestored := foldl_type_restores hedit hempty
          fun g hg => foldl_setText_of_not_mem hg (fun _ => "") scr.form
        rw [Machine.run_cons, hx]
        change Matched _ _ ((step F).run _ _)
        rw [run_type, hrestored]
        exact .ok ⟨harrays', rfl, rfl, hedit⟩

end Steps

/-- Every run of Assignment 7 from a main menu is one of Assignment 8 over any database, and the
other way round, with the same taps in the same order: the arrays and the screens agree at the
end, the same alerts were shown, and one traps if and only if the other does. -/
theorem run_corresponds (F : DateFormatter) {main : MainViewController} {s : Assignment8.Store}
    (h : SameArrays main s) :
    (∀ events, ∃ inputs : List Input,
      (inputs.filterMap fun i => tap? i.event) = events.filterMap tap? ∧
        Matched Corresponds ((step F).run ⟨main, .main, []⟩ events)
          ((Assignment8.step F).run ⟨s, .main, []⟩ inputs)) ∧
    ∀ inputs : List Input, ∃ events,
      events.filterMap tap? = (inputs.filterMap fun i => tap? i.event) ∧
        Matched Corresponds ((step F).run ⟨main, .main, []⟩ events)
          ((Assignment8.step F).run ⟨s, .main, []⟩ inputs) := by
  have hst : Corresponds ⟨main, .main, []⟩ ⟨s, .main, []⟩ := ⟨h, rfl, rfl, trivial⟩
  refine ⟨fun events => (simulates F).run hst events, fun inputs => ?_⟩
  obtain ⟨events, htaps, hmatched⟩ := (simulated F).run (s := ⟨s, .main, []⟩) hst inputs
  exact ⟨events, htaps, hmatched.symm⟩

structure MainViewController.DistinctIds (main : MainViewController) : Prop where
  items : Distinct main.items
  locations : Distinct main.locations
  logisticsOrder : Distinct main.logisticsOrder

theorem generateDummyData_distinctIds (F : DateFormatter) (now : Date) :
    (generateDummyData F now).DistinctIds where
  items := (by decide : Distinct [item1, item2])
  locations := (by decide : Distinct [location1, location2])
  logisticsOrder := List.nodup_singleton _

/-- Since Assignment 8 keeps the ids distinct, so does Assignment 7. -/
theorem run_idsStayDistinct (F : DateFormatter) (now : Date) {events : List Event} {st : AppState}
    (h : (step F).run (AppState.launch F now) events = .ok st) : st.main.DistinctIds := by
  let main := generateDummyData F now
  let s : Assignment8.Store :=
    ⟨main.items, main.locations, main.logisticsOrder, ⟨.empty, .empty, .empty⟩⟩
  have hst : Corresponds ⟨main, .main, []⟩ ⟨s, .main, []⟩ := ⟨⟨rfl, rfl, rfl⟩, rfl, rfl, trivial⟩
  obtain ⟨inputs, -, hmatched⟩ := (simulates F).run hst events
  obtain ⟨st', hrun, harrays, -⟩ := hmatched.exists_of_ok h
  have hmain : main.DistinctIds := generateDummyData_distinctIds F now
  have hids : st'.store.DistinctIds := Assignment8.step_preserves_distinctIds.run_any
    (s := (⟨s, .main, []⟩ : Assignment8.AppState)) ⟨hmain.items, hmain.locations,
      hmain.logisticsOrder⟩ hrun
  obtain ⟨hitems, hlocations, horders⟩ := harrays
  exact ⟨hitems ▸ hids.items, hlocations ▸ hids.locations, horders ▸ hids.logisticsOrder⟩

/-- Enter the item 12 and tap Create twice, which is refused the second time. -/
def Sample.createTwice : List Event :=
  [.onButtonClicked .item, .presentCreate, .type .tfItemId "12", .type .tfItemName "Lamp",
    .type .tfItemWeight "3", .type .tfItemValue "20", .btnTap, .btnTap]

theorem run_idsStayDistinct_createTwice :
    ∃ st, (step .utc).run (AppState.launch .utc 0) Sample.createTwice = .ok st ∧
      st.alerts = [⟨"Error", "Item id already exists"⟩,
        ⟨"Success", "Item created successfully"⟩] ∧
      keys st.main.items = [10, 11, 12] ∧ st.main.DistinctIds :=
  ⟨_, rfl, rfl, rfl, @run_idsStayDistinct .utc 0 Sample.createTwice _ rfl⟩

/-- Fetch the item 10, rename it, and tap Update twice. -/
def Sample.renameTwice : List Event :=
  [.onButtonClicked .item, .presentChange .updateItem, .type .tfItemId "10", .btnFetchTap,
    .type .tfItemName "Lamp", .btnTap, .btnTap]

/-- What Assignment 8 does for these taps over the database of the dummy data. -/
theorem run_corresponds_renameTwice : ∃ inputs : List Input,
    (inputs.filterMap fun i => tap? i.event) = Sample.renameTwice.filterMap tap? ∧
      Matched Corresponds
        ((step .utc).run ⟨generateDummyData .utc 0, .main, []⟩ Sample.renameTwice)
        ((Assignment8.step .utc).run
          ⟨Logistics.generateDummyData Assignment8.Sample.database, .main, []⟩ inputs) :=
  (run_corresponds .utc ⟨rfl, rfl, rfl⟩).1 Sample.renameTwice

end Info6350.Assignment7
