import Info6350.Assignment10.Session
import Info6350.TableApp.IndexSafety

/-! # Rows that a download made out of date

The lists, the details screens, the pickers and the table of items hold rows of the arrays of
the main screen, and a completion replaces these arrays at any moment.  A flag goes along with
the app: a completion has replaced an array under the screen that is open.  Until then all
rows are those of the arrays.
-/

namespace Info6350.Assignment10
open Library Swift Logistics TableApp Session

def usesItems : Screen → Bool
  | .items _ | .orders _ => true
  | _ => false

def usesLocations : Screen → Bool
  | .locations _ | .orders _ => true
  | _ => false

/-- The flag; it is lowered when the user returns to the main menu. -/
def recordOutdated (st : Session) (a : Action) (st' : Session) (outdated : Bool) : Bool :=
  match a with
  | .itemsCompletion _ => outdated || (st.itemsTask && usesItems st.app.screen)
  | .locationsCompletion _ => outdated || (st.locationsTask && usesLocations st.app.screen)
  | .user _ => match st'.app.screen with
    | .main => false
    | _ => outdated
  | .statement _ _ => outdated

/-- Under a raised flag, the event uses only rows that the arrays still have. -/
def RowsRemain (P : Platform) (st : Session × Bool) (a : Action) : Prop :=
  st.2 = true → st.1.remaining = [] → ∀ i, a = .user i → st.1.app.InRange P .assignment10 i

section
variable (P : Platform)

/-- A trap on an index is one of an event of the user. -/
theorem session_index_iff {st : Session} {a : Action} :
    Session.step P st a = .error .indexOutOfRange ↔
      st.remaining = [] ∧ ∃ i, a = .user i ∧ ¬ st.app.InRange P .assignment10 i := by
  have hok : ∀ {st' : Session} {q : Prop}, ¬ q →
      ((Except.ok st' : Except Trap _) = .error .indexOutOfRange ↔ q) :=
    fun hq => iff_of_false (fun h => by cases h) hq
  obtain ⟨app, remaining, itemsTask, locationsTask⟩ := st
  cases a with
  | statement writtenItem writtenLocation =>
    cases remaining <;> exact hok fun ⟨_, i, hi, _⟩ => by cases hi
  | itemsCompletion items => exact hok fun ⟨_, i, hi, _⟩ => by cases hi
  | locationsCompletion locations => exact hok fun ⟨_, i, hi, _⟩ => by cases hi
  | user i =>
    cases remaining with
    | cons statement remaining => exact hok fun h => by cases h.1
    | nil =>
      refine map_error_iff.trans ((step_index_iff P .assignment10).trans ?_)
      simp

/-- The rows of a screen do not depend on the database. -/
theorem within_database {app : AppState} (h : app.Within P) (db : Database) :
    AppState.Within P { app with store := { app.store with db := db } } := by
  obtain ⟨s, screen, alerts⟩ := app
  cases screen with
  | main => trivial
  | items p => exact h
  | locations p => exact h
  | orders p =>
    obtain ⟨filtered, isActive, details⟩ := p
    cases details with
    | none => exact h
    | some d =>
      obtain ⟨hrow, hitems, hlocations, hfrom, hto⟩ : OrderWithin s d := h
      exact OrderWithin.mk hrow hitems hlocations hfrom hto

/-- Until a completion replaces an array under it, the screen is within the arrays. -/
def UpToDate (st : Session × Bool) : Prop := st.2 = false → st.1.app.Within P

theorem step_preserves_upToDate :
    ((Session.step P).withHistory recordOutdated).Preserves Machine.AnyStep (UpToDate P) := by
  rintro ⟨⟨app, remaining, itemsTask, locationsTask⟩, outdated⟩ a ⟨st', outdated'⟩ hst - h
  obtain ⟨hstep, hflag⟩ := ((Session.step P).withHistory_ok_iff _).mp h
  dsimp only at hstep hflag
  subst hflag
  unfold UpToDate
  dsimp only
  cases a with
  | statement writtenItem writtenLocation =>
    intro hout
    have hwithin := hst hout
    cases remaining with
    | nil =>
      obtain rfl := Except.ok.inj hstep
      exact hwithin
    | cons statement remaining =>
      obtain rfl := Except.ok.inj hstep
      cases statement with
      | saveItems => exact within_database P hwithin _
      | saveLocations => exact within_database P hwithin _
      | _ => exact hwithin
  | itemsCompletion items =>
    intro hout
    obtain ⟨hold, hscreen⟩ := Bool.or_eq_false_iff.mp hout
    have hwithin := hst hold
    obtain rfl := Except.ok.inj hstep
    cases itemsTask with
    | false => exact hwithin
    | true =>
      obtain ⟨s, screen, alerts⟩ := app
      cases screen with
      | main => trivial
      | locations p => exact hwithin
      | _ => cases hscreen
  | locationsCompletion locations =>
    intro hout
    obtain ⟨hold, hscreen⟩ := Bool.or_eq_false_iff.mp hout
    have hwithin := hst hold
    obtain rfl := Except.ok.inj hstep
    cases locationsTask with
    | false => exact hwithin
    | true =>
      obtain ⟨s, screen, alerts⟩ := app
      cases screen with
      | main => trivial
      | items p => exact hwithin
      | _ => cases hscreen
  | user i =>
    intro hout
    cases remaining with
    | cons statement remaining =>
      obtain rfl := Except.ok.inj hstep
      obtain ⟨s, screen, alerts⟩ := app
      cases screen with
      | main => trivial
      | _ => exact hst hout
    | nil =>
      obtain ⟨app', happ, rfl⟩ := map_ok_iff.mp hstep
      obtain ⟨s', screen', alerts'⟩ := app'
      cases screen' with
      | main => trivial
      | _ => exact step_preserves_within P .assignment10 app i _ (hst hout) trivial happ

/-- For every interleaving: no handler indexes an array out of range if and only if every event
that comes after a completion has replaced an array under the open screen uses rows that the
arrays still have. -/
theorem run_rowsRemain_iff (db : Database) (actions : List Action) :
    ((Session.step P).withHistory recordOutdated).Meets
        (fun st a => Session.step P st.1 a ≠ .error .indexOutOfRange) (launch db, false) actions ↔
      ((Session.step P).withHistory recordOutdated).Meets (RowsRemain P) (launch db, false)
        actions := by
  refine Machine.meets_congr_of_meets
    (fun st a st' hst _ h => step_preserves_upToDate P st a st' hst trivial h) ?_
    (fun _ => trivial) (Machine.meets_anyStep _ actions)
  rintro ⟨st, outdated⟩ a hst -
  refine (not_congr (session_index_iff P)).trans ?_
  cases outdated with
  | true =>
    constructor
    · intro h _ hremaining i hi
      by_contra hout
      exact h ⟨hremaining, i, hi, hout⟩
    · rintro h ⟨hremaining, i, hi, hout⟩
      exact hout (h rfl hremaining i hi)
  | false =>
    refine iff_of_true ?_ fun h => by cases h
    rintro ⟨-, i, -, hout⟩
    exact hout (inRange_of_within P (hst rfl) (.inl rfl))

/-- A completion replaces no array of which the open screen holds rows. -/
def ReplacesUnused (st : Session) (a : Action) : Prop :=
  match a with
  | .itemsCompletion _ => st.itemsTask = true → usesItems st.app.screen = false
  | .locationsCompletion _ => st.locationsTask = true → usesLocations st.app.screen = false
  | _ => True

theorem step_preserves_within_of_unused :
    (Session.step P).Preserves ReplacesUnused fun st => st.app.Within P := by
  intro st a st' hst hunused h
  refine step_preserves_upToDate P (st, false) a (st', recordOutdated st a st' false)
    (fun _ => hst) trivial (((Session.step P).withHistory_ok_iff _).mpr ⟨h, rfl⟩) ?_
  -- the flag stays down
  cases a with
  | itemsCompletion items => simpa [recordOutdated, ReplacesUnused] using hunused
  | locationsCompletion locations => simpa [recordOutdated, ReplacesUnused] using hunused
  | user i =>
    change (match st'.app.screen with | .main => false | _ => false) = false
    split <;> rfl
  | statement writtenItem writtenLocation => rfl

/-- If the completions replace only arrays that the open screen does not use, then no handler
indexes an array out of range. -/
theorem index_of_replacesUnused {db : Database} {actions : List Action}
    (hm : (Session.step P).Meets ReplacesUnused (launch db) actions) :
    (Session.step P).Meets (fun st a => Session.step P st a ≠ .error .indexOutOfRange) (launch db)
      actions := by
  have hiff : ∀ st a, st.app.Within P → ReplacesUnused st a →
      (Machine.AnyStep st a ↔ Session.step P st a ≠ .error .indexOutOfRange) := by
    refine fun st a hst _ => iff_of_true trivial fun h => ?_
    obtain ⟨-, i, -, hout⟩ := (session_index_iff P).mp h
    exact hout (inRange_of_within P hst (.inl rfl))
  have hwithin : (launch db).app.Within P := trivial
  exact (Machine.meets_congr_of_meets
    (fun st a st' hst hc h => step_preserves_within_of_unused P st a st' hst hc.1 h) hiff hwithin
    hm).mp (Machine.meets_anyStep _ actions)

/-- Load the pickers of a new order while there are no locations; they arrive, and the order is
created. -/
def Sample.pickersLoadedEmpty : List Action :=
  List.replicate 4 statement ++
    [.user ⟨.openOrders, true⟩, .user ⟨.orders (.addTapped 0), true⟩,
      .user ⟨.orders (.edit (.type .tfOrderId "1")), true⟩,
      .locationsCompletion [TableApp.Sample.depot], .user ⟨.orders .createButtonTap, true⟩]

/-- The check for locations passes and the row of the picker is -1. -/
theorem run_pickersLoadedEmpty :
    (Session.step Platform.ascii).run (launch emptyDatabase) Sample.pickersLoadedEmpty =
      .error .indexOutOfRange ∧
    ¬ ((Session.step Platform.ascii).withHistory recordOutdated).Meets
      (fun st a => Session.step Platform.ascii st.1 a ≠ .error .indexOutOfRange)
      (launch emptyDatabase, false) Sample.pickersLoadedEmpty := by
  refine ⟨rfl, fun h => ?_⟩
  iterate 8 replace h := h.2 _ rfl
  exact h.1 rfl

end
end Info6350.Assignment10
