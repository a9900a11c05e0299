import Info6350.Assignment10.UnreadDatabase
import Info6350.TableApp.IndexSafety

/-! # Assignment 10 as Assignment 9

Once its download is finished, Assignment 10 is Assignment 9 launched from a database that holds
what the API returned and no orders.  The two part at one point only: where Assignment 9 stops
because it creates an order without a location, Assignment 10 asks for locations.
-/

namespace Info6350.Assignment10
open Library Swift Logistics TableApp Session Keyed

/-! ## The two editions -/

section Editions
variable {P : Platform} {st : AppState} {i : Input}

def NewId (s : Store) (d : OrderDetails) (id : ℤ) : Prop :=
  (d.form .tfOrderId).int? = some id ∧ id ∉ keys s.logisticsOrder

open LogisticOrderDetailsViewController in
theorem createOrder_editions {written : Bool} {d : OrderDetails} {s : Store}
    (h : ∀ id, NewId s d id → s.locations ≠ []) :
    createOrder .assignment9 written d s = createOrder .assignment10 written d s := by
  unfold createOrder
  cases hid : intOf (d.form .tfOrderId) "Invalid Order Id" with
  | error e => rfl
  | ok id =>
    change (refuseIf _ _ >>= _ : Handler _) = (refuseIf _ _ >>= _ : Handler _)
    cases hnew : refuseIf (firstIndex s.logisticsOrder id).isSome "Order id already exists" with
    | error e => rfl
    | ok u =>
      have hkey : id ∉ keys s.logisticsOrder :=
        firstIndex_isSome_iff.not.mp (refuseIf_ok_iff.mp hnew)
      have hne := h id ⟨intOf_ok_iff.mp hid, hkey⟩
      have hpos : s.locations.length > 0 := List.length_pos_iff.mpr hne
      simp [refuseIf, alertIf, hpos]

/-- Without a location one edition stops and the other asks for locations. -/
theorem createOrder_withoutLocations (written : Bool) {d : OrderDetails} {s : Store} {id : ℤ}
    (hid : NewId s d id) (hlocations : s.locations = []) :
    LogisticOrderDetailsViewController.createOrder .assignment9 written d s =
        .error (.trap .indexOutOfRange) ∧
      LogisticOrderDetailsViewController.createOrder .assignment10 written d s =
        .error (.alert ⟨"Error", "Create locations first"⟩) := by
  have hint : intOf (d.form .tfOrderId) "Invalid Order Id" = .ok id := intOf_ok_iff.mpr hid.1
  have hnew : refuseIf (firstIndex s.logisticsOrder id).isSome "Order id already exists" = .ok () :=
    refuseIf_ok_iff.mpr (firstIndex_isSome_iff.not.mpr hid.2)
  have hrow : subscript s.locations d.fromRow = .error .indexOutOfRange := by
    refine subscript_error_iff.mpr ⟨rfl, ?_⟩
    rw [hlocations, List.length_nil]
    omega
  unfold LogisticOrderDetailsViewController.createOrder
  rw [hint]
  constructor
  · refine bind_error_iff.mpr (.inr ⟨id, rfl, bind_error_iff.mpr (.inr ⟨(), hnew, ?_⟩)⟩)
    refine bind_error_iff.mpr (.inr ⟨(), refuseIf_ok_iff.mpr (fun h => nomatch h.1), ?_⟩)
    rw [hrow]
    rfl
  · refine bind_error_iff.mpr (.inr ⟨id, rfl, bind_error_iff.mpr (.inr ⟨(), hnew, ?_⟩)⟩)
    refine bind_error_iff.mpr (.inl ?_)
    rw [hlocations]
    rfl

/-- While the locations that are needed exist, the editions do the same. -/
theorem step_editions (h : LocationsExist st i) :
    step P .assignment9 st i = step P .assignment10 st i := by
  obtain ⟨s, screen, alerts⟩ := st
  obtain ⟨event, written⟩ := i
  cases screen with
  | main => cases event <;> rfl
  | items p => obtain ⟨_, _, _ | d⟩ := p <;> cases event <;> rfl
  | locations p => obtain ⟨_, _, _ | d⟩ := p <;> cases event <;> rfl
  | orders p =>
    obtain ⟨filtered, isActive, _ | d⟩ := p
    · cases event with
      | orders e => cases e <;> rfl
      | _ => rfl
    · cases event with
      | orders e =>
        refine congrArg (Except.map _) ?_
        cases e with
        | createButtonTap =>
          refine congrArg (settle _ _) ?_
          change LogisticOrderDetailsViewController.createButtonTapped _ _ _ _ =
            LogisticOrderDetailsViewController.createButtonTapped _ _ _ _
          unfold LogisticOrderDetailsViewController.createButtonTapped
          split_ifs with hmode
          · exact createOrder_editions fun id hid => h _ d id rfl rfl rfl hmode hid.1 hid.2
          · rfl
        | _ => rfl
      | _ => rfl

theorem step_withoutLocations (h : ¬ LocationsExist st i) :
    step P .assignment9 st i = .error .indexOutOfRange ∧
      step P .assignment10 st i =
        .ok { st with alerts := ⟨"Error", "Create locations first"⟩ :: st.alerts } := by
  unfold LocationsExist at h
  push Not at h
  obtain ⟨p, d, id, hp, hd, hevent, hmode, hid, hnew, hlocations⟩ := h
  obtain ⟨s, screen, alerts⟩ := st
  obtain ⟨event, written⟩ := i
  obtain ⟨filtered, isActive, details⟩ := p
  cases hp
  cases hd
  cases hevent
  obtain ⟨htraps, hasks⟩ := createOrder_withoutLocations written ⟨hid, hnew⟩ hlocations
  have hbutton : ∀ edition, (orderControllers P edition).createButtonTap written d s =
      LogisticOrderDetailsViewController.createOrder edition written d s :=
    fun edition => if_pos hmode
  constructor
  · refine map_error_iff.mpr ?_
    change settle _ _ ((orderControllers P .assignment9).createButtonTap written d s) = _
    rw [hbutton, htraps]
    rfl
  · refine map_ok_iff.mpr ⟨⟨s, ⟨filtered, isActive, some d⟩,
      [⟨"Error", "Create locations first"⟩]⟩, ?_, rfl⟩
    change settle _ _ ((orderControllers P .assignment10).createButtonTap written d s) = _
    rw [hbutton, hasks]
    rfl

end Editions

/-! ## The download -/

/-- What happens before the user does anything, when the API returns the records of a database. -/
def Action.Downloads (served : Database) : Action → Prop
  | .statement _ _ => True
  | .itemsCompletion items => items = served.item.rows
  | .locationsCompletion locations => locations = served.location.rows
  | .user _ => False

/-- A launch on its way: each request is still to be sent, or sent, or answered. -/
structure Session.Launching (served : Database) (st : Session) : Prop where
  screen : st.app.screen = .main
  alerts : st.app.alerts = []
  items : .getAllItems ∈ st.remaining ∨ st.itemsTask = true ∨ st.app.store.items = served.item.rows
  locations : .getAllLocations ∈ st.remaining ∨ st.locationsTask = true ∨
    st.app.store.locations = served.location.rows
  logisticsOrder : st.app.store.logisticsOrder = []

section Download
variable {P : Platform} {served : Database}

theorem launching_launch (db : Database) : (launch db).Launching served :=
  ⟨rfl, rfl, .inl List.mem_cons_self, .inl (List.mem_cons_of_mem _ List.mem_cons_self), rfl⟩

theorem step_preserves_launching :
    (Session.step P).Preserves (fun _ a => a.Downloads served) (Session.Launching served) := by
  rintro ⟨⟨s, screen, alerts⟩, remaining, itemsTask, locationsTask⟩ a st' hst ha h
  cases a with
  | statement writtenItem writtenLocation =>
    cases remaining with
    | nil => exact Except.ok.inj h ▸ hst
    | cons statement remaining =>
      obtain rfl := Except.ok.inj h
      obtain ⟨hscreen, halerts, hitems, hlocations, horders⟩ := hst
      rw [List.mem_cons, or_assoc] at hitems hlocations
      cases statement with
      | getAllItems =>
        exact ⟨hscreen, halerts, .inr (.inl rfl), hlocations.resolve_left nofun, horders⟩
      | getAllLocations =>
        exact ⟨hscreen, halerts, hitems.resolve_left nofun, .inr (.inl rfl), horders⟩
      | _ =>
        exact ⟨hscreen, halerts, hitems.resolve_left nofun, hlocations.resolve_left nofun, horders⟩
  | itemsCompletion items =>
    obtain rfl : items = served.item.rows := ha
    obtain rfl := Except.ok.inj h
    cases itemsTask with
    | false => exact hst
    | true => exact ⟨hst.screen, hst.alerts, .inr (.inr rfl), hst.locations, hst.logisticsOrder⟩
  | locationsCompletion locations =>
    obtain rfl : locations = served.location.rows := ha
    obtain rfl := Except.ok.inj h
    cases locationsTask with
    | false => exact hst
    | true => exact ⟨hst.screen, hst.alerts, hst.items, .inr (.inr rfl), hst.logisticsOrder⟩
  | user i => exact ha.elim

/-- A finished launch shows what Assignment 9 shows when it is launched from the records. -/
theorem Session.Launching.alike {st : Session} (h : st.Launching served) (hfinished : st.Finished)
    (horders : served.logisticsorder.rows = []) :
    (AppState.atMenu (generateDummyData served)).Alike st.app := by
  obtain ⟨hremaining, hitemsTask, hlocationsTask⟩ := hfinished
  obtain ⟨hscreen, halerts, hitems, hlocations, hlogisticsOrder⟩ := h
  simp only [hremaining, hitemsTask, hlocationsTask, List.not_mem_nil, Bool.false_eq_true,
    false_or] at hitems hlocations
  exact ⟨⟨hitems.symm, hlocations.symm, horders.trans hlogisticsOrder.symm⟩, hscreen.symm,
    halerts.symm⟩

end Download

/-! ## Runs -/

/-- The user sees the same in the two apps, and the launch is over. -/
structure SeesSame (st : AppState) (st' : Session) : Prop where
  app : st.Alike st'.app
  remaining : st'.remaining = []

theorem session_step_user {P : Platform} {st : Session} (h : st.remaining = []) (i : Input) :
    Session.step P st (.user i) =
      (step P .assignment10 st.app i).map fun app => { st with app := app } := by
  simp only [Session.step, h]

theorem seesSame_step {P : Platform} {st : AppState} {st' : Session} (h : SeesSame st st')
    {i : Input} (hexist : LocationsExist st i) :
    Matched SeesSame (step P .assignment9 st i) (Session.step P st' (.user i)) := by
  rw [session_step_user h.remaining, step_editions hexist]
  have hstep := step_lockstep P .assignment10 st st'.app i i h.app rfl
  cases hst : step P .assignment10 st i with
  | error t =>
    rw [(hstep.error_iff t).mp hst]
    exact .error t
  | ok t =>
    obtain ⟨t', ht', halike⟩ := hstep.exists_of_ok hst
    rw [ht']
    exact .ok ⟨halike, h.remaining⟩

/-- Where Assignment 9 creates an order without a location, it stops, and Assignment 10 asks for
locations. -/
structure Parts (P : Platform) (st : AppState) (st' : Session) (i : Input) : Prop where
  same : SeesSame st st'
  withoutLocations : ¬ LocationsExist st i
  stops : step P .assignment9 st i = .error .indexOutOfRange
  asks : Session.step P st' (.user i) = .ok { st' with app := { st'.app with
    alerts := ⟨"Error", "Create locations first"⟩ :: st'.app.alerts } }

theorem SeesSame.parts {P : Platform} {st : AppState} {st' : Session} (h : SeesSame st st')
    {i : Input} (hnone : ¬ LocationsExist st i) : Parts P st st' i := by
  have hnone' : ¬ LocationsExist st'.app i := by
    intro hexist
    refine hnone fun p d id hp hd hevent hmode hid hnew => ?_
    rw [h.app.store.locations]
    exact hexist p d id (h.app.screen ▸ hp) hd hevent hmode hid (h.app.store.logisticsOrder ▸ hnew)
  refine ⟨h, hnone, (step_withoutLocations hnone).1, ?_⟩
  rw [session_step_user h.remaining, (step_withoutLocations hnone').2]
  rfl

/-- Let the API return the records of a database without orders, and let the download finish before
the user does anything.  Then Assignment 10 and Assignment 9, launched from the same records, show
the same in every run and stop alike, unless Assignment 9 creates an order without a location:
there it stops, and Assignment 10 asks for locations. -/
theorem run_asAssignment9 (P : Platform) (db : Database) {served : Database}
    (horders : served.logisticsorder.rows = []) {schedule : List Action}
    (hschedule : ∀ a ∈ schedule, a.Downloads served) {st₀ : Session}
    (hlaunch : (Session.step P).run (launch db) schedule = .ok st₀) (hfinished : st₀.Finished)
    (inputs : List Input) :
    Matched SeesSame
        ((step P .assignment9).run (AppState.atMenu (generateDummyData served)) inputs)
        ((Session.step P).run st₀ (inputs.map .user)) ∨
      ∃ before i after st st', inputs = before ++ i :: after ∧
        (step P .assignment9).run (AppState.atMenu (generateDummyData served)) before = .ok st ∧
        (Session.step P).run st₀ (before.map .user) = .ok st' ∧ Parts P st st' i := by
  have hlaunching : st₀.Launching served :=
    step_preserves_launching.run (launching_launch db)
      (Machine.meets_of_forall _ fun a ha _ => hschedule a ha) hlaunch
  have hsame : SeesSame (AppState.atMenu (generateDummyData served)) st₀ :=
    ⟨hlaunching.alike hfinished horders, hfinished.1⟩
  rcases Machine.matched_or_parts (M := step P .assignment9) (N := Session.step P) (f := .user)
      (fun _ _ _ h hexist => seesSame_step h hexist) hsame inputs with
    hmatched | ⟨before, i, after, st, st', hinputs, hrun, hrun', hst, hnone⟩
  · exact .inl hmatched
  · exact .inr ⟨before, i, after, st, st', hinputs, hrun, hrun', hst.parts hnone⟩

/-- The records of the sample without its order. -/
def Sample.served : Database := { TableApp.Sample.database with logisticsorder := ⟨[], by decide⟩ }

def Sample.downloadServed : List Action :=
  [Sample.statement, Sample.statement, .locationsCompletion Sample.served.location.rows,
    .itemsCompletion Sample.served.item.rows, Sample.statement, Sample.statement]

theorem Sample.downloadServed_downloads :
    ∀ a ∈ Sample.downloadServed, a.Downloads Sample.served := by
  simp [Sample.downloadServed, Sample.statement, Action.Downloads]

theorem run_asAssignment9_taps :
    ∃ st₀, (Session.step Platform.ascii).run (launch emptyDatabase)
        Sample.downloadServed = .ok st₀ ∧
      (Matched SeesSame
          ((step Platform.ascii .assignment9).run
            (AppState.atMenu (generateDummyData Sample.served)) TableApp.Sample.taps)
          ((Session.step Platform.ascii).run st₀ (TableApp.Sample.taps.map .user)) ∨
        ∃ before i after st st', TableApp.Sample.taps = before ++ i :: after ∧
          (step Platform.ascii .assignment9).run
            (AppState.atMenu (generateDummyData Sample.served)) before = .ok st ∧
          (Session.step Platform.ascii).run st₀ (before.map .user) = .ok st' ∧
          Parts Platform.ascii st st' i) :=
  ⟨_, rfl, run_asAssignment9 Platform.ascii emptyDatabase rfl
    Sample.downloadServed_downloads rfl ⟨rfl, rfl, rfl⟩ _⟩

end Info6350.Assignment10
