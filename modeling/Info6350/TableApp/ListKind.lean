import Info6350.TableApp.Invariants

/-! # Updates of a tapped row

A list screen hands the row that was tapped to the details screen, which reads it in the
array of the main screen and not in the filtered list.  A `ListKind` gathers what this
argument needs of the items, the locations and the orders; `updatesDisplayed_iff` says
when an update writes the record that the row displays.
-/

namespace Info6350.TableApp
open Library Swift Logistics Keyed

/-- A kind of record: its controllers, its screen, events and table, what its details screen
enters over a record, when the record in a row can be updated, and that a step leaves the
other arrays and tables alone. -/
structure ListKind (α δ ω : Type) [Keyed α ℤ] where
  controllers : Controllers α δ ω
  screen : Pane α δ → Screen
  event : PaneEvent ω → Event
  table : Database → Table α
  Enters : δ → α → α → Prop
  CanUpdate : Store → ℕ → Prop
  SameOthers : Store → Store → Prop

namespace ListKind
variable {α δ ω : Type} [Keyed α ℤ] (K : ListKind α δ ω) (P : Platform)

/-- The list is on screen and displays a record at a row. -/
def Shows (st : AppState) (row : ℕ) (x : α) : Prop :=
  ∃ p, st.screen = K.screen p ∧ p.details = none ∧ p.filteredResults[row]? = some x

def tapEditUpdate (row : ℕ) (now : Date) (edits : List ω) (written : Bool) : List Input :=
  ⟨K.event (.didSelectRow row now), written⟩ ::
    (edits.map (fun e => ⟨K.event (.edit e), written⟩) ++ [⟨K.event .createButtonTap, written⟩])

/-- These inputs end with the message of a success. -/
def Updates (st : AppState) (row : ℕ) (now : Date) (edits : List ω) (written : Bool)
    (st' : AppState) : Prop :=
  (step P .assignment9).run st (K.tapEditUpdate row now edits written) = .ok st' ∧
    ∃ message, st'.alerts = ⟨"Success", message⟩ :: st.alerts

/-- In memory and in the database only the record `x` is changed, to what is entered over it. -/
def ChangesExactly (x : α) (st st' : AppState) : Prop :=
  ∃ p d new, st'.screen = K.screen p ∧ p.details = some d ∧ K.Enters d x new ∧
    lookup (K.controllers.array st'.store) =
      Function.update (lookup (K.controllers.array st.store)) (key x) (some new) ∧
    lookup (K.table st'.store.db).rows =
      Function.update (lookup (K.table st.store.db).rows) (key x) (some new) ∧
    K.SameOthers st.store st'.store

/-- The array has the displayed record at the row that was tapped, the database accepts the
write and has a row to update. -/
structure SameRow (st : AppState) (row : ℕ) (x : α) (written : Bool) : Prop where
  row : ((K.controllers.array st.store)[row]?.map key) = some (key x)
  written : written = true
  stored : key x ∈ keys (K.table st.store.db).rows

/-- What the three kinds have in common.  `At row d` says that a details screen in modify mode
holds the row; `canUpdate_iff` that some entry on it is accepted; `vary` that any accepted entry
can be changed to avoid two records. -/
structure Lawful (At : ℕ → δ → Prop) : Prop where
  screen_injective : Function.Injective K.screen
  step_eq : ∀ s p alerts e written,
    step P .assignment9 ⟨s, K.screen p, alerts⟩ ⟨K.event e, written⟩ =
      (paneStep K.controllers written s p e).map (AppState.show K.screen ⟨s, K.screen p, alerts⟩)
  load : ∀ {row now s d}, K.controllers.viewWillAppear s
    (K.controllers.instantiate .modify (some row) now s) = .ok d → At row d
  edit : ∀ {row s e d d'}, At row d → K.controllers.edit s e d = .ok d' → At row d'
  refuses : ∀ {row w d s}, At row d → Refuses (K.controllers.createButtonTap w d s)
  tap_ok : ∀ {row w d s s' a}, At row d → K.controllers.createButtonTap w d s = .ok (s', a) →
    a.title = "Success" ∧ ∃ old new, (K.controllers.array s)[row]? = some old ∧
      K.Enters d old new ∧
      K.controllers.array s' = (Edit.update row new).onList (K.controllers.array s) ∧
      K.table s'.db = sendEdit w (.update row new) (K.controllers.array s) (K.table s.db) ∧
      K.SameOthers s s'
  tap_of_enters : ∀ {row w d s old new}, At row d → (K.controllers.array s)[row]? = some old →
    K.Enters d old new → ∃ s' a, K.controllers.createButtonTap w d s = .ok (s', a)
  key_enters : ∀ {d old new}, K.Enters d old new → key new = key old
  canUpdate_iff : ∀ {s row now}, row < (K.controllers.array s).length →
    ((∃ d₀ edits d old new, K.controllers.viewWillAppear s
        (K.controllers.instantiate .modify (some row) now s) = .ok d₀ ∧
      Machine.run (fun d e => K.controllers.edit s e d) d₀ edits = .ok d ∧
      (K.controllers.array s)[row]? = some old ∧ K.Enters d old new) ↔ K.CanUpdate s row)
  vary : ∀ {row s d old new}, At row d → K.Enters d old new → ∀ y z, ∃ edits d',
    Machine.run (fun d e => K.controllers.edit s e d) d edits = .ok d' ∧
      (∃ new', K.Enters d' old new') ∧ ∀ o n, K.Enters d' o n → n ≠ y ∧ n ≠ z

variable {K P} {At : ℕ → δ → Prop}

theorem Lawful.edits (L : K.Lawful P At) {row : ℕ} {s : Store} {d d' : δ} {edits : List ω}
    (hd : At row d) (h : Machine.run (fun d e => K.controllers.edit s e d) d edits = .ok d') :
    At row d' :=
  Machine.Preserves.run_any (M := fun d e => K.controllers.edit s e d)
    (fun _ _ _ hd _ h => L.edit hd h) hd h

theorem Lawful.run_edits (L : K.Lawful P At) {s : Store} {p : Pane α δ} {alerts : List Alert}
    {d : δ} (edits : List ω) (written : Bool) :
    (step P .assignment9).run ⟨s, K.screen { p with details := some d }, alerts⟩
        (edits.map fun e => ⟨K.event (.edit e), written⟩) =
      (Machine.run (fun d e => K.controllers.edit s e d) d edits).map fun d =>
        ⟨s, K.screen { p with details := some d }, alerts⟩ := by
  induction edits generalizing d with
  | nil => rfl
  | cons e edits ih =>
    rw [List.map_cons, Machine.run_cons, Machine.run_cons, L.step_eq]
    cases h : K.controllers.edit s e d with
    | error t => simp [paneStep, h, Except.map, Bind.bind, Except.bind]
    | ok d' =>
      simp only [paneStep, h]
      exact ih

theorem Lawful.step_didSelectRow (L : K.Lawful P At) {s : Store} {p : Pane α δ}
    {alerts : List Alert} {row : ℕ} {now : Date} {written : Bool} (hp : p.details = none)
    (hrow : row < p.filteredResults.length) :
    step P .assignment9 ⟨s, K.screen p, alerts⟩ ⟨K.event (.didSelectRow row now), written⟩ =
      (K.controllers.viewWillAppear s
        (K.controllers.instantiate .modify (some row) now s)).map fun d =>
          ⟨s, K.screen { p with details := some d }, alerts⟩ := by
  rw [L.step_eq]
  simp only [paneStep, hp, if_pos hrow, Pane.push]
  cases K.controllers.viewWillAppear s
    (K.controllers.instantiate .modify (some row) now s) <;> rfl

theorem Lawful.run_tapEditUpdate_iff (L : K.Lawful P At) {s : Store} {p : Pane α δ}
    {alerts : List Alert} {row : ℕ} {now : Date} {edits : List ω} {written : Bool} {st' : AppState}
    (hp : p.details = none) (hrow : row < p.filteredResults.length) :
    (step P .assignment9).run ⟨s, K.screen p, alerts⟩ (K.tapEditUpdate row now edits written) =
        .ok st' ↔
      ∃ d₀ d, K.controllers.viewWillAppear s
          (K.controllers.instantiate .modify (some row) now s) = .ok d₀ ∧
        Machine.run (fun d e => K.controllers.edit s e d) d₀ edits = .ok d ∧
        step P .assignment9 ⟨s, K.screen { p with details := some d }, alerts⟩
          ⟨K.event .createButtonTap, written⟩ = .ok st' := by
  unfold tapEditUpdate
  rw [Machine.run_cons_eq_ok, L.step_didSelectRow hp hrow]
  constructor
  · rintro ⟨st₀, h₀, hrun⟩
    obtain ⟨d₀, hd₀, rfl⟩ := map_ok_iff.mp h₀
    rw [Machine.run_append, L.run_edits] at hrun
    obtain ⟨st₁, h₁, hrun⟩ := bind_ok_iff.mp hrun
    obtain ⟨d, hd, rfl⟩ := map_ok_iff.mp h₁
    obtain ⟨st₂, h₂, hrun⟩ := (Machine.run_cons_eq_ok _).mp hrun
    obtain rfl := Except.ok.inj hrun
    exact ⟨d₀, d, hd₀, hd, h₂⟩
  · rintro ⟨d₀, d, hd₀, hd, h₂⟩
    refine ⟨_, map_ok_iff.mpr ⟨d₀, hd₀, rfl⟩, ?_⟩
    rw [Machine.run_append, L.run_edits, hd]
    exact (Machine.run_cons_eq_ok _).mpr ⟨_, h₂, rfl⟩

theorem Lawful.step_createButtonTap_iff (L : K.Lawful P At) {s : Store} (p : Pane α δ)
    (alerts : List Alert) {row : ℕ} {d : δ} {written : Bool} {st' : AppState} (hd : At row d) :
    (step P .assignment9 ⟨s, K.screen { p with details := some d }, alerts⟩
        ⟨K.event .createButtonTap, written⟩ = .ok st' ∧
      ∃ message, st'.alerts = ⟨"Success", message⟩ :: alerts) ↔
    ∃ s' a, K.controllers.createButtonTap written d s = .ok (s', a) ∧
      st' = ⟨s', K.screen { p with details := some d }, a :: alerts⟩ := by
  rw [L.step_eq, map_ok_iff]
  simp only [paneStep]
  constructor
  · rintro ⟨⟨r, hr, rfl⟩, message, halert⟩
    rcases h : K.controllers.createButtonTap written d s with (a | _ | t) | ⟨s', a⟩
    · rw [h] at hr
      obtain rfl := Except.ok.inj hr
      have hsuccess : a = ⟨"Success", message⟩ := (List.cons.inj halert).1
      have herror : a.title = "Error" := L.refuses hd _ h
      rw [hsuccess] at herror
      exact absurd (show "Success" = "Error" from herror) (by decide)
    · rw [h] at hr
      obtain rfl := Except.ok.inj hr
      exact absurd halert.symm (List.cons_ne_self _ _)
    · rw [h] at hr
      cases hr
    · rw [h] at hr
      obtain rfl := Except.ok.inj hr
      exact ⟨s', a, rfl, rfl⟩
  · rintro ⟨s', a, h, rfl⟩
    obtain ⟨title, message⟩ := a
    obtain rfl : title = "Success" := (L.tap_ok hd h).1
    exact ⟨⟨_, by rw [h]; rfl, rfl⟩, message, rfl⟩

theorem Lawful.updates_iff (L : K.Lawful P At) {s : Store} {p : Pane α δ} {alerts : List Alert}
    {row : ℕ} {now : Date} {edits : List ω} {written : Bool} {st' : AppState}
    (hp : p.details = none) (hrow : row < p.filteredResults.length) :
    K.Updates P ⟨s, K.screen p, alerts⟩ row now edits written st' ↔ ∃ d₀ d s' a,
      K.controllers.viewWillAppear s
        (K.controllers.instantiate .modify (some row) now s) = .ok d₀ ∧
      Machine.run (fun d e => K.controllers.edit s e d) d₀ edits = .ok d ∧
      K.controllers.createButtonTap written d s = .ok (s', a) ∧
      st' = ⟨s', K.screen { p with details := some d }, a :: alerts⟩ := by
  unfold Updates
  rw [L.run_tapEditUpdate_iff hp hrow]
  constructor
  · rintro ⟨⟨d₀, d, hd₀, hd, h₂⟩, hsuccess⟩
    have hAt := L.edits (L.load hd₀) hd
    obtain ⟨s', a, htap, rfl⟩ := (L.step_createButtonTap_iff _ _ hAt).mp ⟨h₂, hsuccess⟩
    exact ⟨d₀, d, s', a, hd₀, hd, htap, rfl⟩
  · rintro ⟨d₀, d, s', a, hd₀, hd, htap, rfl⟩
    have hAt := L.edits (L.load hd₀) hd
    obtain ⟨h₂, hsuccess⟩ :=
      (L.step_createButtonTap_iff p alerts hAt).mpr ⟨s', a, htap, rfl⟩
    exact ⟨⟨d₀, d, hd₀, hd, h₂⟩, hsuccess⟩

theorem Lawful.exists_updates_iff (L : K.Lawful P At) {s : Store} {p : Pane α δ}
    {alerts : List Alert} {row : ℕ} {now : Date} {written : Bool} (hp : p.details = none)
    (hrow : row < p.filteredResults.length) (harray : row < (K.controllers.array s).length) :
    (∃ edits st', K.Updates P ⟨s, K.screen p, alerts⟩ row now edits written st') ↔
      K.CanUpdate s row := by
  rw [← L.canUpdate_iff harray]
  constructor
  · rintro ⟨edits, st', h⟩
    obtain ⟨d₀, d, s', a, hd₀, hd, htap, -⟩ := (L.updates_iff hp hrow).mp h
    obtain ⟨-, old, new, hold, henters, -⟩ := L.tap_ok (L.edits (L.load hd₀) hd) htap
    exact ⟨d₀, edits, d, old, new, hd₀, hd, hold, henters⟩
  · rintro ⟨d₀, edits, d, old, new, hd₀, hd, hold, henters⟩
    obtain ⟨s', a, htap⟩ :=
      L.tap_of_enters (w := written) (L.edits (L.load hd₀) hd) hold henters
    exact ⟨edits, _, (L.updates_iff hp hrow).mpr ⟨d₀, d, s', a, hd₀, hd, htap, rfl⟩⟩

section Displayed
variable {s : Store} {p : Pane α δ} {alerts : List Alert} {row : ℕ} {now : Date} {x : α}
  {written : Bool}

/-- An update of the row that holds the displayed record changes exactly this record. -/
theorem Lawful.changesExactly (L : K.Lawful P At) (hs : Distinct (K.controllers.array s))
    (hp : p.details = none) (hrow : row < p.filteredResults.length)
    (hx : x ∈ K.controllers.array s) (h : K.SameRow ⟨s, K.screen p, alerts⟩ row x written)
    {edits : List ω} {st' : AppState}
    (hupdates : K.Updates P ⟨s, K.screen p, alerts⟩ row now edits written st') :
    K.ChangesExactly x ⟨s, K.screen p, alerts⟩ st' := by
  obtain ⟨d₀, d, s', a, hd₀, hd, htap, rfl⟩ := (L.updates_iff hp hrow).mp hupdates
  obtain ⟨-, old, new, hold, henters, harray, htable, hothers⟩ :=
    L.tap_ok (L.edits (L.load hd₀) hd) htap
  obtain ⟨hkey, rfl, hstored⟩ := h
  have hkey : key old = key x := by simpa [hold] using hkey
  obtain rfl : old = x := hs.eq_of_key_eq (List.mem_of_getElem? hold) hx hkey
  have hnew : key new = key old := L.key_enters henters
  have hlegal : (Edit.update row new).Legal (K.controllers.array s) := ⟨old, hold, hnew.symm⟩
  refine ⟨_, d, new, rfl, rfl, henters, ?_, ?_, hothers⟩
  · change lookup (K.controllers.array s') = _
    rw [harray, Edit.lookup_onList hs hlegal, Edit.onView, hnew]
  · change lookup (K.table s'.db).rows = _
    rw [htable, lookup_sendEdit_update _ _ _ (hnew ▸ hstored), hnew]

/-- When some entry is accepted and all accepted entries change exactly the displayed record,
the row holds this record and the update reaches the database. -/
theorem Lawful.sameRow (L : K.Lawful P At) (hs : Distinct (K.controllers.array s))
    (hp : p.details = none) (hrow : row < p.filteredResults.length)
    (hall : ∀ edits st', K.Updates P ⟨s, K.screen p, alerts⟩ row now edits written st' →
      K.ChangesExactly x ⟨s, K.screen p, alerts⟩ st')
    {edits : List ω} {st' : AppState}
    (hupdates : K.Updates P ⟨s, K.screen p, alerts⟩ row now edits written st') :
    K.SameRow ⟨s, K.screen p, alerts⟩ row x written := by
  obtain ⟨d₀, d, s₁, a₁, hd₀, hd, htap, -⟩ := (L.updates_iff hp hrow).mp hupdates
  have hAt := L.edits (L.load hd₀) hd
  obtain ⟨-, old, new, hold, henters, -⟩ := L.tap_ok hAt htap
  -- edit further, so that the record entered is neither the old one nor the one in the table
  obtain ⟨more, d', hmore, ⟨new', henters'⟩, havoid⟩ :=
    L.vary (s := s) hAt henters old ((lookup (K.table s.db).rows (key x)).getD old)
  have hAt' := L.edits hAt hmore
  obtain ⟨s', a, htap'⟩ := L.tap_of_enters (w := written) hAt' hold henters'
  have hrun : Machine.run (fun d e => K.controllers.edit s e d) d₀ (edits ++ more) = .ok d' := by
    rw [Machine.run_append, hd]
    exact hmore
  obtain ⟨p₁, d₁, x', hscreen, hdetails, hentersx, hmemory, htable, -⟩ :=
    hall _ _ ((L.updates_iff hp hrow).mpr ⟨d₀, d', s', a, hd₀, hrun, htap', rfl⟩)
  obtain rfl := L.screen_injective hscreen
  obtain rfl : d' = d₁ := Option.some.inj hdetails
  obtain ⟨-, old', new, hold', hnew, harray', htable', -⟩ := L.tap_ok hAt' htap'
  obtain rfl : old = old' := Option.some.inj (hold.symm.trans hold')
  have hkeynew : key new = key old := L.key_enters hnew
  have hlegal : (Edit.update row new).Legal (K.controllers.array s) :=
    ⟨old, hold, hkeynew.symm⟩
  have hkey : key old = key x := by
    by_contra hne
    have hwritten : lookup (K.controllers.array s') (key old) = some new := by
      rw [harray', Edit.lookup_onList hs hlegal, Edit.onView, hkeynew, Function.update_self]
    have hkept : lookup (K.controllers.array s') (key old) = some old := by
      rw [hmemory, Function.update_of_ne hne]
      exact hs.lookup_eq_some_iff.mpr ⟨List.mem_of_getElem? hold, rfl⟩
    exact (havoid old new hnew).1 (Option.some.inj (hwritten.symm.trans hkept))
  have hdatabase : written = true ∧ key x ∈ keys (K.table s.db).rows := by
    by_contra hnot
    rw [← hkey, ← hkeynew] at hnot
    have hentered : lookup (K.table s.db).rows (key x) = some x' := by
      have h := congrFun htable (key x)
      rw [Function.update_self] at h
      change lookup (K.table s'.db).rows (key x) = _ at h
      rwa [htable', sendEdit_update_of_not _ _ _ _ hnot] at h
    exact (havoid x x' hentersx).2 (by rw [hentered]; rfl)
  exact ⟨by simp [hold, hkey], hdatabase.1, hdatabase.2⟩

end Displayed

/-- Every accepted entry on a tapped row changes exactly the displayed record, if and only if
the row of the array holds this record and the update reaches the database, unless the record
in the row cannot be updated at all. -/
theorem Lawful.updatesDisplayed_iff (L : K.Lawful P At) {st : AppState} {row : ℕ} {x : α}
    (hs : Distinct (K.controllers.array st.store))
    (hlist : ∀ p, st.screen = K.screen p → p.details = none →
      List.Sublist p.filteredResults (K.controllers.array st.store))
    (hx : K.Shows st row x) (now : Date) (written : Bool) :
    (∀ edits st', K.Updates P st row now edits written st' → K.ChangesExactly x st st') ↔
      (K.CanUpdate st.store row → K.SameRow st row x written) := by
  obtain ⟨s, screen, alerts⟩ := st
  obtain ⟨p, rfl, hp, hrow⟩ := hx
  have hlt : row < p.filteredResults.length := (List.getElem?_eq_some_iff.mp hrow).choose
  have hmem : x ∈ K.controllers.array s := (hlist p rfl hp).mem (List.mem_of_getElem? hrow)
  have harray : row < (K.controllers.array s).length := hlt.trans_le (hlist p rfl hp).length_le
  have hexists : (∃ edits st', K.Updates P ⟨s, K.screen p, alerts⟩ row now edits written st') ↔
      K.CanUpdate s row := L.exists_updates_iff hp hlt harray
  constructor
  · intro hall hcan
    obtain ⟨edits, st', hupdates⟩ := hexists.mpr hcan
    exact L.sameRow hs hp hlt hall hupdates
  · intro hsame edits st' hupdates
    exact L.changesExactly hs hp hlt hmem (hsame (hexists.mp ⟨edits, st', hupdates⟩)) hupdates

end ListKind
end Info6350.TableApp
