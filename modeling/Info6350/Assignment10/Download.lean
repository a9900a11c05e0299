import Info6350.Assignment10.Session

/-! # What the download leaves in the database

For one kind of record the launch goes through six phases: the request is not sent, sent,
answered, or the array is saved before the answer, after it, or answered after the save.
The save statement saves the array as it is when it runs, so only an answer that comes
before it reaches the table.
-/

namespace Info6350.Assignment10
open Library Swift Logistics TableApp DatabaseManager

/-- One kind of record during the launch. -/
structure Progress (α : Type) [Keyed α ℤ] where
  toRequest : Bool
  toSave : Bool
  task : Bool
  array : List α
  table : Table α

inductive Phase where
  | notRequested
  | requested
  | answered
  | savedEmpty
  | savedInTime
  | answeredLate
deriving DecidableEq

section Kind
variable {α : Type} [Keyed α ℤ] (l : List α) (t₀ : Table α)

def Phase.progress : Phase → Progress α
  | notRequested => ⟨true, true, false, [], t₀⟩
  | requested => ⟨false, true, true, [], t₀⟩
  | answered => ⟨false, true, false, l, t₀⟩
  | savedEmpty => ⟨false, false, true, [], t₀⟩
  | savedInTime => ⟨false, false, false, l, saveRecords (fun _ => true) l t₀⟩
  | answeredLate => ⟨false, false, false, l, t₀⟩

/-- One step of a kind; the proposition says that a completion comes before the save. -/
inductive Progress.Step : Progress α → Progress α → Prop → Prop where
  | skip (v) : Step v v True
  | request (v) : v.toRequest = true → Step v { v with toRequest := false, task := true } True
  | save (v) : v.toRequest = false → v.toSave = true →
      Step v { v with
        toSave := false
        table := saveRecords (fun _ => true) v.array v.table } True
  | completion (v) : v.task = true →
      Step v { v with task := false, array := l } (v.toSave = true)

/-- What a phase says of the rest of a complete run: the phase in which it ends, and whether
the completion, if it is still to come, comes before the save. -/
def Phase.Ends (inTime : Prop) (v : Progress α) : Phase → Prop
  | answeredLate => v = answeredLate.progress l t₀
  | savedEmpty => ¬ inTime ∧ v = answeredLate.progress l t₀
  | savedInTime => inTime ∧ v = savedInTime.progress l t₀
  | _ => (inTime ∧ v = savedInTime.progress l t₀) ∨ (¬ inTime ∧ v = answeredLate.progress l t₀)

variable {l t₀}

theorem Phase.step {phase : Phase} {v : Progress α} {inTime : Prop}
    (h : Progress.Step l (phase.progress l t₀) v inTime) :
    ∃ next : Phase, v = next.progress l t₀ ∧
      ∀ rest w, next.Ends l t₀ rest w → phase.Ends l t₀ (inTime ∧ rest) w := by
  cases h with
  | skip => exact ⟨phase, rfl, fun rest w h => by simpa using h⟩
  | request hrequest =>
    cases phase <;> simp [progress] at hrequest
    exact ⟨requested, rfl, fun rest w h => by simpa [Ends] using h⟩
  | save hrequest hsave =>
    cases phase <;> simp [progress] at hrequest hsave
    · exact ⟨savedEmpty, rfl, fun rest w h => by simpa [Ends] using Or.inr h⟩
    · exact ⟨savedInTime, rfl, fun rest w h => by simpa [Ends] using Or.inl h⟩
  | completion htask =>
    cases phase <;> simp [progress] at htask
    · exact ⟨answered, rfl, fun rest w h => by simpa [Ends, progress] using h⟩
    · exact ⟨answeredLate, rfl, fun rest w h => by simpa [Ends, progress] using h⟩

/-- A run that ends with the request answered and the array saved ends as its phase has to. -/
theorem run_ends {σ ι τ : Type} {M : Machine σ ι τ} {view : σ → Progress α} {A : ι → Prop}
    {J : σ → Prop} {C : σ → ι → Prop} (hJ : M.Preserves (fun _ => A) J)
    (hview : ∀ s a t, J s → A a → M s a = .ok t →
      ∃ inTime, (C s a ↔ inTime) ∧ Progress.Step l (view s) (view t) inTime)
    {s t : σ} {actions : List ι} (hs : J s) (hA : ∀ a ∈ actions, A a)
    (hrun : M.run s actions = .ok t) {phase : Phase} (hphase : view s = phase.progress l t₀)
    (hsave : (view t).toSave = false) (htask : (view t).task = false) :
    phase.Ends l t₀ (M.Meets C s actions) (view t) := by
  induction actions generalizing s phase with
  | nil =>
    obtain rfl := Except.ok.inj hrun
    rw [hphase] at hsave htask ⊢
    cases phase <;> simp_all [Phase.progress, Phase.Ends, Machine.Meets]
  | cons a actions ih =>
    obtain ⟨m, ha, hrun⟩ := M.run_cons_eq_ok.mp hrun
    have hAa : A a := hA a List.mem_cons_self
    obtain ⟨inTime, hC, hstep⟩ := hview s a m hs hAa ha
    rw [hphase] at hstep
    obtain ⟨next, hnext, hends⟩ := Phase.step hstep
    have hrest := ih (hJ s a m hs hAa ha) (fun b hb => hA b (List.mem_cons_of_mem _ hb)) hrun hnext
    have hmeets : (inTime ∧ M.Meets C m actions) = M.Meets C s (a :: actions) := by
      rw [← hC]
      exact propext ⟨fun h => ⟨h.1, fun n hn => Except.ok.inj (ha.symm.trans hn) ▸ h.2⟩,
        fun h => ⟨h.1, h.2 m ha⟩⟩
    rw [← hmeets]
    exact hends _ _ hrest

/-- The answer is in the table when it came before the save, or when it was there before. -/
theorem persisted_iff (hl : Distinct l) {inTime : Prop} {v : Progress α}
    (h : Phase.notRequested.Ends l t₀ inTime v) :
    (∀ x ∈ l, x ∈ v.table.rows) ↔ inTime ∨ ∀ x ∈ l, x ∈ t₀.rows := by
  rcases h with ⟨hin, rfl⟩ | ⟨hlate, rfl⟩
  · simp only [hin, true_or, iff_true]
    exact fun x hx => mem_saveRecords hl hx
  · simp only [hlate, false_or]
    exact Iff.rfl

end Kind

namespace Session

/-- What remains of `fetchDataFromAPI`. -/
def Remaining (st : Session) : Prop := st.remaining <:+ fetchDataFromAPI

theorem remaining_launch (db : Database) : (launch db).Remaining := List.suffix_refl _

theorem Remaining.cases {st : Session} (h : st.Remaining) :
    st.remaining = [.getAllItems, .getAllLocations, .saveItems, .saveLocations] ∨
      st.remaining = [.getAllLocations, .saveItems, .saveLocations] ∨
      st.remaining = [.saveItems, .saveLocations] ∨ st.remaining = [.saveLocations] ∨
      st.remaining = [] := by
  simpa [Remaining, fetchDataFromAPI, List.suffix_cons_iff] using h

def itemsProgress (st : Session) : Progress Item where
  toRequest := decide (.getAllItems ∈ st.remaining)
  toSave := decide (.saveItems ∈ st.remaining)
  task := st.itemsTask
  array := st.app.store.items
  table := st.app.store.db.item

def locationsProgress (st : Session) : Progress Location where
  toRequest := decide (.getAllLocations ∈ st.remaining)
  toSave := decide (.saveLocations ∈ st.remaining)
  task := st.locationsTask
  array := st.app.store.locations
  table := st.app.store.db.location

end Session

open Session

/-- The actions of a schedule in which the API returns two lists and every write succeeds. -/
def Action.Schedules (items : List Item) (locations : List Location) : Action → Prop
  | .statement writtenItem writtenLocation =>
    writtenItem = (fun _ => true) ∧ writtenLocation = fun _ => true
  | .itemsCompletion l => l = items
  | .locationsCompletion l => l = locations
  | .user _ => False

/-- The completion of the items, if it runs, comes before they are saved. -/
def ItemsInTime (st : Session) (a : Action) : Prop :=
  ∀ l, a = .itemsCompletion l → st.itemsTask = true → .saveItems ∈ st.remaining

/-- The completion of the locations, if it runs, comes before they are saved. -/
def LocationsInTime (st : Session) (a : Action) : Prop :=
  ∀ l, a = .locationsCompletion l → st.locationsTask = true → .saveLocations ∈ st.remaining

section Schedule
variable {P : Platform} {items : List Item} {locations : List Location} {st st' : Session}
  {a : Action}

theorem remaining_step (h : st.Remaining) (hstep : Session.step P st a = .ok st') : st'.Remaining := by
  obtain ⟨app, remaining, itemsTask, locationsTask⟩ := st
  cases a with
  | statement writtenItem writtenLocation =>
    cases remaining with
    | nil => exact Except.ok.inj hstep ▸ h
    | cons statement remaining =>
      obtain rfl := Except.ok.inj hstep
      cases statement <;> exact (List.suffix_cons _ _).trans h
  | itemsCompletion l =>
    obtain rfl := Except.ok.inj hstep
    cases itemsTask <;> exact h
  | locationsCompletion l =>
    obtain rfl := Except.ok.inj hstep
    cases locationsTask <;> exact h
  | user i =>
    cases remaining with
    | nil =>
      obtain ⟨app', -, rfl⟩ := map_ok_iff.mp hstep
      exact h
    | cons statement remaining => exact Except.ok.inj hstep ▸ h

theorem itemsProgress_step (h : st.Remaining) (ha : a.Schedules items locations)
    (hstep : Session.step P st a = .ok st') : ∃ inTime, (ItemsInTime st a ↔ inTime) ∧
      Progress.Step items st.itemsProgress st'.itemsProgress inTime := by
  have hcases := h.cases
  obtain ⟨app, remaining, itemsTask, locationsTask⟩ := st
  cases a with
  | statement writtenItem writtenLocation =>
    obtain ⟨rfl, rfl⟩ := ha
    refine ⟨True, by simp [ItemsInTime], ?_⟩
    rcases hcases with rfl | rfl | rfl | rfl | rfl <;> obtain rfl := Except.ok.inj hstep
    · exact .request _ rfl
    · exact .skip _
    · exact .save _ rfl rfl
    · exact .skip _
    · exact .skip _
  | itemsCompletion l =>
    obtain rfl : l = items := ha
    obtain rfl := Except.ok.inj hstep
    cases itemsTask with
    | false => exact ⟨True, by simp [ItemsInTime], .skip _⟩
    | true => exact ⟨_, by simp [ItemsInTime, itemsProgress], .completion _ rfl⟩
  | locationsCompletion l =>
    obtain rfl := Except.ok.inj hstep
    refine ⟨True, by simp [ItemsInTime], ?_⟩
    cases locationsTask <;> exact .skip _
  | user i => exact ha.elim

theorem locationsProgress_step (h : st.Remaining) (ha : a.Schedules items locations)
    (hstep : Session.step P st a = .ok st') : ∃ inTime, (LocationsInTime st a ↔ inTime) ∧
      Progress.Step locations st.locationsProgress st'.locationsProgress inTime := by
  have hcases := h.cases
  obtain ⟨app, remaining, itemsTask, locationsTask⟩ := st
  cases a with
  | statement writtenItem writtenLocation =>
    obtain ⟨rfl, rfl⟩ := ha
    refine ⟨True, by simp [LocationsInTime], ?_⟩
    rcases hcases with rfl | rfl | rfl | rfl | rfl <;> obtain rfl := Except.ok.inj hstep
    · exact .skip _
    · exact .request _ rfl
    · exact .skip _
    · exact .save _ rfl rfl
    · exact .skip _
  | itemsCompletion l =>
    obtain rfl := Except.ok.inj hstep
    refine ⟨True, by simp [LocationsInTime], ?_⟩
    cases itemsTask <;> exact .skip _
  | locationsCompletion l =>
    obtain rfl : l = locations := ha
    obtain rfl := Except.ok.inj hstep
    cases locationsTask with
    | false => exact ⟨True, by simp [LocationsInTime], .skip _⟩
    | true => exact ⟨_, by simp [LocationsInTime, locationsProgress], .completion _ rfl⟩
  | user i => exact ha.elim

end Schedule

/-- At the end of a schedule the downloaded records are in the two tables if and only if, for
each kind, the completion ran before the save or the records were in the table at launch. -/
theorem run_persisted_iff (P : Platform) (db : Database) {items : List Item}
    {locations : List Location} (hitems : Distinct items) (hlocations : Distinct locations)
    {actions : List Action} (hactions : ∀ a ∈ actions, a.Schedules items locations)
    {st : Session} (h : (Session.step P).run (launch db) actions = .ok st) (hfinished : st.Finished) :
    ((∀ x ∈ items, x ∈ st.app.store.db.item.rows) ∧
      ∀ x ∈ locations, x ∈ st.app.store.db.location.rows) ↔
    (((Session.step P).Meets ItemsInTime (launch db) actions ∨ ∀ x ∈ items, x ∈ db.item.rows) ∧
      ((Session.step P).Meets LocationsInTime (launch db) actions ∨
        ∀ x ∈ locations, x ∈ db.location.rows)) := by
  have hJ : (Session.step P).Preserves (fun _ a => a.Schedules items locations) Remaining :=
    fun _ _ _ hs _ h => remaining_step hs h
  obtain ⟨hremaining, htask, htask'⟩ := hfinished
  have hends : Phase.notRequested.Ends items db.item
      ((Session.step P).Meets ItemsInTime (launch db) actions) st.itemsProgress := by
    refine run_ends hJ (fun _ _ _ => itemsProgress_step) (remaining_launch db) hactions h rfl
      ?_ htask
    simp [itemsProgress, hremaining]
  have hends' : Phase.notRequested.Ends locations db.location
      ((Session.step P).Meets LocationsInTime (launch db) actions) st.locationsProgress := by
    refine run_ends hJ (fun _ _ _ => locationsProgress_step) (remaining_launch db) hactions h
      rfl ?_ htask'
    simp [locationsProgress, hremaining]
  exact and_congr (persisted_iff hitems hends) (persisted_iff hlocations hends')

def Sample.lateAnswers : List Action :=
  List.replicate 4 Sample.statement ++
    [.itemsCompletion [TableApp.Sample.lamp], .locationsCompletion [TableApp.Sample.depot]]

/-- Both tables are empty at the end of this schedule. -/
theorem run_lateAnswers :
    ∃ st, (Session.step Platform.ascii).run (launch emptyDatabase) Sample.lateAnswers = .ok st ∧
      st.Finished ∧ st.app.store.items = [TableApp.Sample.lamp] ∧
      ¬ ((∀ x ∈ [TableApp.Sample.lamp], x ∈ st.app.store.db.item.rows) ∧
        ∀ x ∈ [TableApp.Sample.depot], x ∈ st.app.store.db.location.rows) :=
  ⟨_, rfl, ⟨rfl, rfl, rfl⟩, rfl, by decide⟩

def Sample.earlyAnswers : List Action :=
  [Sample.statement, .itemsCompletion [TableApp.Sample.lamp], Sample.statement,
    .locationsCompletion [TableApp.Sample.depot], Sample.statement, Sample.statement]

theorem Sample.earlyAnswers_schedules : ∀ a ∈ Sample.earlyAnswers,
    a.Schedules [TableApp.Sample.lamp] [TableApp.Sample.depot] := by
  simp [Sample.earlyAnswers, Sample.statement, Action.Schedules]

theorem run_persisted_iff_earlyAnswers :
    ∃ st, (Session.step Platform.ascii).run (launch emptyDatabase) Sample.earlyAnswers = .ok st ∧
      (((∀ x ∈ [TableApp.Sample.lamp], x ∈ st.app.store.db.item.rows) ∧
        ∀ x ∈ [TableApp.Sample.depot], x ∈ st.app.store.db.location.rows) ↔
      (((Session.step Platform.ascii).Meets ItemsInTime (launch emptyDatabase)
          Sample.earlyAnswers ∨ ∀ x ∈ [TableApp.Sample.lamp], x ∈ emptyDatabase.item.rows) ∧
        ((Session.step Platform.ascii).Meets LocationsInTime (launch emptyDatabase)
          Sample.earlyAnswers ∨
          ∀ x ∈ [TableApp.Sample.depot], x ∈ emptyDatabase.location.rows))) :=
  ⟨_, rfl, run_persisted_iff Platform.ascii emptyDatabase (by decide) (by decide)
    Sample.earlyAnswers_schedules rfl ⟨rfl, rfl, rfl⟩⟩

end Info6350.Assignment10
