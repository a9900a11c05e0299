import Info6350.Assignment8.OrderChanges

/-! # When Assignment 8 survives a run

The app traps on the index -99, which every change screen starts with, on the first line of an
order without lines, and on costs.  A screen covers the others as long as it is presented, so an
index that Fetch remembered stays one of a record, and the screens leave no order without lines.
-/

namespace Info6350.Assignment8
open Library Swift Logistics TextApp

variable (F : DateFormatter)

/-- Fetch has not succeeded yet, or the index that it left is one of a record. -/
def Remembered (c : Changer) (scr : FetchState) (s : Store) : Prop :=
  scr.foundIndex = -99 ∨
    ∃ row : ℕ, scr.foundIndex = row ∧ row < ((c.controller F).slot.array s).length

def ScreenRemembers : Screen → Store → Prop
  | .change c scr, s => Remembered F c scr s
  | _, _ => True

/-- Every order has a line, and the change screen remembers a record or nothing. -/
structure Sound (st : AppState) : Prop where
  carries : ∀ o ∈ st.store.logisticsOrder, o.itemsCarried ≠ []
  remembers : ScreenRemembers F st.screen st.store

/-- Update and Add are tapped after a successful Fetch, or the checks refuse the fields. -/
def FetchedFirst (st : AppState) (i : Input) : Prop :=
  match st.screen, i.event with
  | .change c scr, .btnTap => scr.foundIndex = -99 →
      ∀ entered, (c.controller F).screen.entered st.store.items scr.form ≠ .ok entered
  | _, _ => True

variable {F}

/-! ## The invariant -/

theorem btnFetchTap_remembers {c : Changer} {scr : FetchState} {s : Store}
    {r : FetchState × List Alert} (h : (c.controller F).btnFetchTap scr s = .ok r) :
    Remembered F c r.1 s := by
  obtain ⟨⟨index, form⟩, hfetch, h⟩ := bind_ok_iff.mp h
  obtain rfl := pure_ok_iff.mp h
  obtain ⟨record, -, hrecord, -⟩ := ChangeScreen.fetch_ok hfetch
  exact .inr ⟨index, rfl, (List.getElem?_eq_some_iff.mp hrecord).choose⟩

theorem btnUpdateTap_remembers {c : Changer} {written : Bool} {scr : FetchState} {s s' : Store}
    {a : Alert} (hscr : Remembered F c scr s)
    (h : (c.controller F).btnUpdateTap written scr s = .ok (s', a)) : Remembered F c scr s' := by
  obtain ⟨entered, row, x, y, -, -, -, -, rfl, -⟩ := ChangeController.btnUpdateTap_ok_iff.mp h
  refine hscr.imp_right fun ⟨n, hn, hlt⟩ => ⟨n, hn, ?_⟩
  rw [Slot.array_update, List.length_set]
  exact hlt

theorem step_preserves_remembers {st st' : AppState} {i : Input}
    (hst : ScreenRemembers F st.screen st.store) (h : step F st i = .ok st') :
    ScreenRemembers F st'.screen st'.store := by
  obtain ⟨s, screen, alerts⟩ := st
  obtain ⟨event, written⟩ := i
  cases screen with
  | main => cases event <;> obtain rfl := Except.ok.inj h <;> trivial
  | menu m =>
    cases event with
    | presentChange c =>
      change (if _ then _ else _) = _ at h
      split_ifs at h
      · obtain rfl := Except.ok.inj h
        exact .inl rfl
      · obtain rfl := Except.ok.inj h
        trivial
    | _ => obtain rfl := Except.ok.inj h; trivial
  | create m form =>
    cases event with
    | btnTap => rcases settle_ok h with ⟨r, -, rfl⟩ | ⟨alerts', rfl⟩ <;> trivial
    | _ => obtain rfl := Except.ok.inj h; trivial
  | delete m form =>
    cases event with
    | btnTap => rcases settle_ok h with ⟨r, -, rfl⟩ | ⟨alerts', rfl⟩ <;> trivial
    | _ => obtain rfl := Except.ok.inj h; trivial
  | change c scr =>
    cases event with
    | btnFetchTap =>
      rcases settle_ok h with ⟨r, hr, rfl⟩ | ⟨alerts', rfl⟩
      · exact btnFetchTap_remembers hr
      · exact hst
    | btnTap =>
      rcases settle_ok h with ⟨⟨s', a⟩, hr, rfl⟩ | ⟨alerts', rfl⟩
      · exact btnUpdateTap_remembers hst hr
      · exact hst
    | btnCloseTap => obtain rfl := Except.ok.inj h; trivial
    | _ => obtain rfl := Except.ok.inj h; exact hst

/-- An order is created with a line, and the changes leave it one. -/
theorem OrderChange.carries {st : AppState} {i : Input} {e : Edit LogisticsOrder}
    (h : OrderChange F st i e) (hst : ∀ o ∈ st.store.logisticsOrder, o.itemsCarried ≠ [])
    {o : LogisticsOrder} (ho : o ∈ e.onList st.store.logisticsOrder) : o.itemsCarried ≠ [] := by
  rcases Edit.mem_onList ho with ho | rfl | ⟨row, rfl⟩
  · exact hst o ho
  · cases h with
    | create _ _ horder =>
      obtain ⟨line, -, hcarried, -⟩ := (createOrder_ok F _ horder).line
      exact hcarried ▸ List.cons_ne_nil _ _
  · cases h with
    | @departureDate _ _ x _ _ _ _ hx => exact hst x (List.mem_of_getElem? hx)
    | orderItem => exact List.cons_ne_nil _ _
    | addItem => exact List.append_ne_nil_of_right_ne_nil _ (List.cons_ne_nil _ _)

theorem step_preserves_sound : (step F).Preserves Machine.AnyStep (Sound F) := by
  intro st i st' hst _ h
  refine ⟨fun o ho => ?_, step_preserves_remembers hst.remembers h⟩
  obtain ⟨e, he, harray, -⟩ := step_orders h
  rw [harray] at ho
  exact he.carries hst.carries ho

/-! ## The traps -/

theorem btnFetchTap_trapless (c : Changer) {scr : FetchState} {s : Store}
    (hs : ∀ o ∈ s.logisticsOrder, o.itemsCarried ≠ []) :
    Stops Exit.Trapless ((c.controller F).btnFetchTap scr s) := by
  refine (ChangeScreen.fetch_stops fun record hrecord t ht => ?_).bind fun _ => stops_pure _
  cases c with
  | updateOrderItem =>
    rcases bind_error_iff.mp ht with ht | ⟨line, -, ht⟩
    · have hlines : 0 < record.itemsCarried.length := List.length_pos_iff.mpr (hs record hrecord)
      obtain ⟨-, hnot⟩ := subscript_natCast_error_iff (n := 0).mp ht
      exact absurd hlines hnot
    · cases ht
  | _ => cases ht

def NilFree : Exit → Prop
  | .trap t => t ≠ .unwrappedNil
  | _ => True

theorem nilFree_of_overflow (e : Exit) (h : e.OverflowOnly) : NilFree e := by
  cases e with
  | trap t =>
    obtain rfl : t = .overflow := h
    exact fun h => by cases h
  | _ => trivial

theorem nilFree_subscript {α : Type} (l : List α) (i : ℤ) :
    Stops NilFree (trapping (subscript l i)) :=
  stops_trapping fun t ht => by
    obtain rfl := subscript_error ht
    exact fun h => by cases h

theorem btnUpdateTap_nilFree (c : Changer) (written : Bool) (scr : FetchState) (s : Store) :
    Stops NilFree ((c.controller F).btnUpdateTap written scr s) := by
  refine Stops.bind (fun e he => ?_) fun _ => stops_pure _
  rcases bind_error_iff.mp he with he | ⟨entered, hentered, he⟩
  · exact nilFree_of_overflow e (c.lawful.entered_stops _ _ e he)
  rcases bind_error_iff.mp he with he | ⟨x, -, he⟩
  · exact nilFree_subscript _ _ e he
  rcases bind_error_iff.mp he with he | ⟨y, -, he⟩
  · obtain ⟨t, ht, rfl⟩ := trapping_error_iff.mp he
    obtain rfl := c.lawful.entered_overflow hentered ht
    exact fun h => by cases h
  · cases he

theorem btnCreateTap_overflowOnly (written : Bool) (m : Menu) (form : Form Field) (s : Store) :
    Stops Exit.OverflowOnly (btnCreateTap F written m form s) := by
  cases m with
  | item => exact (stops_createItem _ _ _).bind fun _ => stops_pure _
  | location => exact (stops_createLocation _ _).bind fun _ => stops_pure _
  | order => exact (stops_createOrder _ _ _ _ _ _).bind fun _ => stops_pure _

theorem btnDeleteTap_overflowOnly (written : Bool) (m : Menu) (form : Form Field) (s : Store) :
    Stops Exit.OverflowOnly (btnDeleteTap written m form s) := by
  cases m <;> exact (stops_deletion _ _ _).bind fun _ => stops_pure _

inductive Traps (F : DateFormatter) (st : AppState) (t : Trap) : Input → Prop
  | create {m : Menu} {form : Form Field} {written : Bool} (hscreen : st.screen = .create m form)
      (h : btnCreateTap F written m form st.store = .error (.trap t)) : Traps F st t ⟨.btnTap, written⟩
  | delete {m : Menu} {form : Form Field} {written : Bool} (hscreen : st.screen = .delete m form)
      (h : btnDeleteTap written m form st.store = .error (.trap t)) : Traps F st t ⟨.btnTap, written⟩
  | fetch {c : Changer} {scr : FetchState} {written : Bool} (hscreen : st.screen = .change c scr)
      (h : (c.controller F).btnFetchTap scr st.store = .error (.trap t)) :
      Traps F st t ⟨.btnFetchTap, written⟩
  | change {c : Changer} {scr : FetchState} {written : Bool} (hscreen : st.screen = .change c scr)
      (h : (c.controller F).btnUpdateTap written scr st.store = .error (.trap t)) :
      Traps F st t ⟨.btnTap, written⟩

theorem step_error {st : AppState} {i : Input} {t : Trap} (h : step F st i = .error t) :
    Traps F st t i := by
  obtain ⟨event, written⟩ := i
  unfold step at h
  split at h
  case h_5 => split_ifs at h
  case h_7 m form hscreen hevent =>
    obtain rfl : event = .btnTap := hevent
    exact .create hscreen (settle_error_iff.mp h)
  case h_10 m form hscreen hevent =>
    obtain rfl : event = .btnTap := hevent
    exact .delete hscreen (settle_error_iff.mp h)
  case h_13 c scr hscreen hevent =>
    obtain rfl : event = .btnFetchTap := hevent
    exact .fetch hscreen (settle_error_iff.mp h)
  case h_14 c scr hscreen hevent =>
    obtain rfl : event = .btnTap := hevent
    exact .change hscreen (settle_error_iff.mp h)
  all_goals cases h

theorem step_nilFree {st : AppState} (hst : Sound F st) (i : Input) :
    step F st i ≠ .error .unwrappedNil := by
  intro hstep
  cases step_error hstep with
  | create _ h => cases btnCreateTap_overflowOnly _ _ _ _ _ h
  | delete _ h => cases btnDeleteTap_overflowOnly _ _ _ _ _ h
  | fetch _ h => exact btnFetchTap_trapless _ hst.carries _ h
  | change _ h => exact btnUpdateTap_nilFree _ _ _ _ _ h rfl

theorem step_inRange_iff {st : AppState} (hst : Sound F st) (i : Input) :
    step F st i ≠ .error .indexOutOfRange ↔ FetchedFirst F st i := by
  constructor
  · intro h
    unfold FetchedFirst
    split
    · rename_i c scr hscreen hevent
      intro hindex entered hentered
      obtain ⟨event, written⟩ := i
      obtain rfl : event = .btnTap := hevent
      obtain ⟨x, hx⟩ := (btnTap_inRange_iff hscreen written).mp h entered hentered
      obtain ⟨n, hn, -⟩ := subscript_ok_iff.mp hx
      omega
    · trivial
  · intro hfirst hstep
    cases step_error hstep with
    | create _ h => cases btnCreateTap_overflowOnly _ _ _ _ _ h
    | delete _ h => cases btnDeleteTap_overflowOnly _ _ _ _ _ h
    | fetch _ h => exact btnFetchTap_trapless _ hst.carries _ h
    | @change c scr written hscreen =>
      refine (btnTap_inRange_iff hscreen written).mpr (fun entered hentered => ?_) hstep
      have hremembers := hst.remembers
      unfold FetchedFirst at hfirst
      rw [hscreen] at hremembers hfirst
      rcases hremembers with hindex | ⟨row, hrow, hlt⟩
      · exact absurd hentered (hfirst hindex entered)
      · rw [hrow]
        exact ⟨_, (subscript_natCast _ row).mpr (List.getElem?_eq_getElem hlt)⟩

theorem step_survives_iff {st : AppState} (hst : Sound F st) (i : Input) :
    (∃ st', step F st i = .ok st') ↔ CostFits F st i ∧ FetchedFirst F st i := by
  rw [← step_overflow_iff, ← step_inRange_iff hst]
  cases h : step F st i with
  | ok st' => simp
  | error t =>
    cases t with
    | unwrappedNil => exact absurd h (step_nilFree hst i)
    | _ => simp

/-! ## Runs -/

/-- From a database whose orders have lines, a run survives if and only if every cost that it
computes fits and Update and Add are never tapped before a Fetch with fields that they accept. -/
theorem run_survives_iff (F : DateFormatter) {db : Database}
    (hdb : ∀ o ∈ db.logisticsorder.rows, o.itemsCarried ≠ []) (inputs : List Input) :
    (∃ st, (step F).run (AppState.launch db) inputs = .ok st) ↔
      (step F).Meets (fun st i => CostFits F st i ∧ FetchedFirst F st i) (AppState.launch db)
        inputs := by
  rw [Machine.exists_run_iff_meets]
  exact Machine.meets_congr_of_meets (A := Machine.AnyStep)
    (fun st i st' hst _ h => step_preserves_sound st i st' hst trivial h)
    (fun st i hst _ => step_survives_iff hst i) ⟨hdb, trivial⟩ (Machine.meets_anyStep _ inputs)

/-- On the dummy data. -/
theorem run_survives_iff_notFetched :
    (∃ st, (step .utc).run (AppState.launch Sample.database)
        (Sample.notFetched ++ [⟨.btnTap, true⟩]) = .ok st) ↔
      (step .utc).Meets (fun st i => CostFits .utc st i ∧ FetchedFirst .utc st i)
        (AppState.launch Sample.database) (Sample.notFetched ++ [⟨.btnTap, true⟩]) :=
  @run_survives_iff .utc Sample.database (by decide) _

end Info6350.Assignment8
