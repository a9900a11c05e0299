import Info6350.Assignment10.LateDownload
import Info6350.Assignment10.OutdatedRows
import Info6350.TableApp.SwipeDeletes

/-! # Deletes from a list that a download made out of date

A swipe deletes the id that the array has at the row from the database, and replaces the array
by the list on screen without the row.  The two agree until a completion replaces the array under
the list.
-/

namespace Info6350.Assignment10
open Library Swift Logistics TableApp Session DatabaseManager Keyed

section Lists
variable {α : Type} [DecidableEq α]

/-- One record `x` is removed from an array, and every other record is still there. -/
structure RemovesOne (x : α) (array array' : List α) : Prop where
  removed : array.count x = array'.count x + 1
  others : ∀ z, z ≠ x → array.count z ≤ array'.count z

/-- A list has every record of an array, and the record `x` as often. -/
structure StillLists (x : α) (filtered array : List α) : Prop where
  shown : array.count x = filtered.count x
  others : ∀ z, z ≠ x → array.count z ≤ filtered.count z

theorem removesOne_eraseIdx_iff {filtered array : List α} {row : ℕ} {x : α}
    (hx : filtered[row]? = some x) :
    RemovesOne x array (filtered.eraseIdx row) ↔ StillLists x filtered array := by
  obtain ⟨hrow, hget⟩ := List.getElem?_eq_some_iff.mp hx
  have hperm : (x :: filtered.eraseIdx row).Perm filtered :=
    hget ▸ List.getElem_cons_eraseIdx_perm hrow
  have hshown : filtered.count x = (filtered.eraseIdx row).count x + 1 := by
    rw [← hperm.count_eq x, List.count_cons_self]
  have hother : ∀ z, z ≠ x → filtered.count z = (filtered.eraseIdx row).count z := by
    intro z hz
    rw [← hperm.count_eq z, List.count_cons_of_ne hz.symm]
  constructor
  · exact fun ⟨hremoved, hothers⟩ =>
      ⟨hremoved.trans hshown.symm, fun z hz => (hothers z hz).trans (hother z hz).ge⟩
  · exact fun ⟨hlisted, hothers⟩ =>
      ⟨hlisted.trans hshown, fun z hz => (hothers z hz).trans (hother z hz).le⟩

end Lists

section Tables
variable {α : Type} [Keyed α ℤ]

/-- The delete of the id `stored` removes the record with the id `shown` and no other. -/
def DeletesShown (t : Table α) (shown stored : ℤ) (written : Bool) : Prop :=
  if stored = shown then written = true ∨ shown ∉ keys t.rows
  else shown ∉ keys t.rows ∧ (written = true → stored ∉ keys t.rows)

theorem deleteRecord_shown_iff {t : Table α} {shown stored : ℤ} {written : Bool} :
    (deleteRecord written stored t).rows = t.rows.filter (fun z => key z ≠ shown) ↔
      DeletesShown t shown stored written := by
  unfold DeletesShown
  split_ifs with heq
  · rw [heq]
    exact deleteRecord_rows_iff
  · have hmem : ∀ k, k ∉ keys t.rows ↔ ∀ z ∈ t.rows, key z ≠ k := by
      intro k
      rw [mem_keys]
      simp
    rw [hmem shown, hmem stored]
    cases written with
    | false =>
      rw [eq_comm]
      change t.rows.filter _ = t.rows ↔ _
      simp [List.filter_eq_self]
    | true =>
      change t.rows.filter _ = t.rows.filter _ ↔ _
      constructor
      · intro h
        have hiff : ∀ z ∈ t.rows, key z ≠ stored ↔ key z ≠ shown := by
          intro z hz
          have := congrArg (fun rows => z ∈ rows) h
          simpa [hz] using this
        refine ⟨fun z hz hkey => ?_, fun _ z hz hkey => ?_⟩
        · exact (hiff z hz).mp (fun h => heq (h.symm.trans hkey)) hkey
        · exact (hiff z hz).mpr (fun h => heq (hkey.symm.trans h)) hkey
      · rintro ⟨hshown, hstored⟩
        rw [List.filter_eq_self.mpr fun z hz => decide_eq_true (hstored rfl z hz),
          List.filter_eq_self.mpr fun z hz => decide_eq_true (hshown z hz)]

end Tables

section Kind
variable {α δ ω : Type} [Keyed α ℤ] [DecidableEq α] (K : ListKind α δ ω) (P : Platform)
  (InUse : Store → α → Prop)

/-- A swipe that is carried out, so that the list gets shorter, removes the record displayed at
the row from memory and from the database, and no other. -/
def RemovesShown (st : Session) (row : ℕ) (written : Bool) : Prop :=
  ∀ p p' x st', st.app.screen = K.screen p → p.details = none → p.filteredResults[row]? = some x →
    Session.step P st (.user ⟨K.event (.swipeDelete row), written⟩) = .ok st' →
    st'.app.screen = K.screen p' → p'.filteredResults.length < p.filteredResults.length →
    RemovesOne x (K.controllers.array st.app.store) (K.controllers.array st'.app.store) ∧
      (K.table st'.app.store.db).rows =
        (K.table st.app.store.db).rows.filter fun z => key z ≠ key x

/-- Let a swipe be allowed on a row that displays `x`, and let the array have there the record
`y`, which is not in use.  Then the list, if it is out of date, still has all records of the array
and `x` as often, and the delete of the id of `y` is one of `x` in the database. -/
def RowAgrees (st : Session) (outdated : Bool) (row : ℕ) (written : Bool) : Prop :=
  ∀ p x y, st.app.screen = K.screen p → p.details = none → p.canEditRow = true →
    st.remaining = [] → p.filteredResults[row]? = some x →
    (K.controllers.array st.app.store)[row]? = some y → ¬ InUse st.app.store y →
    (outdated = true → StillLists x p.filteredResults (K.controllers.array st.app.store)) ∧
      DeletesShown (K.table st.app.store.db) (key x) (key y) written

/-- What the two handlers have in common. -/
structure DeletesRow : Prop where
  screen_injective : Function.Injective K.screen
  step_eq : ∀ s p alerts e written,
    TableApp.step P .assignment10 ⟨s, K.screen p, alerts⟩ ⟨K.event e, written⟩ =
      (paneStep K.controllers written s p e).map (AppState.show K.screen ⟨s, K.screen p, alerts⟩)
  refused : ∀ {s filtered row}, (∀ y, (K.controllers.array s)[row]? = some y → InUse s y) →
    ∀ written r, K.controllers.commitDelete written filtered row s ≠ .ok r
  deleted : ∀ {s filtered row y}, (K.controllers.array s)[row]? = some y → ¬ InUse s y →
    row < filtered.length → ∀ written, ∃ s',
      K.controllers.commitDelete written filtered row s = .ok (s', filtered.eraseIdx row) ∧
      K.controllers.array s' = filtered.eraseIdx row ∧
      K.table s'.db = deleteRecord written (key y) (K.table s.db)

variable {K P InUse}

/-- A swipe that is let through removes what it displays only if it agrees with the array. -/
theorem DeletesRow.agrees_of_removesShown (D : DeletesRow K P InUse) {st : Session}
    {outdated : Bool} {row : ℕ} {written : Bool} (h : RemovesShown K P st row written) :
    RowAgrees K InUse st outdated row written := by
  obtain ⟨⟨s, screen, alerts⟩, remaining, itemsTask, locationsTask⟩ := st
  intro p x y hp hd hedit hremaining hx hy hunused
  obtain rfl : screen = K.screen p := hp
  obtain rfl : remaining = [] := hremaining
  have hrow : row < p.filteredResults.length := (List.getElem?_eq_some_iff.mp hx).choose
  obtain ⟨s', hdelete, harray, htable⟩ := D.deleted hy hunused hrow written
  have hpane : paneStep K.controllers written s p (.swipeDelete row) =
      .ok ⟨s', { p with filteredResults := p.filteredResults.eraseIdx row }, []⟩ := by
    simp only [paneStep, hd, if_pos (And.intro hedit hrow), hdelete]
    rfl
  have hstep : Session.step P ⟨⟨s, K.screen p, alerts⟩, [], itemsTask, locationsTask⟩
      (.user ⟨K.event (.swipeDelete row), written⟩) = .ok ⟨⟨s', K.screen
        { p with filteredResults := p.filteredResults.eraseIdx row }, alerts⟩, [], itemsTask,
        locationsTask⟩ := by
    refine map_ok_iff.mpr ⟨_, ?_, rfl⟩
    rw [D.step_eq, hpane]
    rfl
  obtain ⟨hmemory, hdatabase⟩ := h p _ x _ rfl hd hx hstep rfl (by
    change (p.filteredResults.eraseIdx row).length < _
    rw [List.length_eraseIdx_of_lt hrow]
    omega)
  dsimp only at hmemory hdatabase
  rw [harray, removesOne_eraseIdx_iff hx] at hmemory
  rw [htable, deleteRecord_shown_iff] at hdatabase
  exact ⟨fun _ => hmemory, hdatabase⟩

/-- And it does if it agrees; an up-to-date list displays the array. -/
theorem DeletesRow.removesShown_of_agrees (D : DeletesRow K P InUse) {st : Session}
    {outdated : Bool}
    (hlist : ∀ p, st.app.screen = K.screen p → p.details = none → p.isActive = false →
      outdated = false → p.filteredResults = K.controllers.array st.app.store)
    {row : ℕ} {written : Bool} (h : RowAgrees K InUse st outdated row written) :
    RemovesShown K P st row written := by
  obtain ⟨⟨s, screen, alerts⟩, remaining, itemsTask, locationsTask⟩ := st
  dsimp only at hlist
  intro p p' x st' hp hd hx hstep hp' hshorter
  obtain rfl : screen = K.screen p := hp
  cases remaining with
  | cons statement remaining =>
    obtain rfl := Except.ok.inj hstep
    obtain rfl := D.screen_injective hp'
    exact absurd hshorter (lt_irrefl _)
  | nil =>
    obtain ⟨app', happ, rfl⟩ := map_ok_iff.mp hstep
    rw [D.step_eq] at happ
    obtain ⟨r, hr, rfl⟩ := map_ok_iff.mp happ
    obtain rfl := D.screen_injective hp'
    cases paneStep_move hr with
    | stay => exact absurd hshorter (lt_irrefl _)
    | refuse => exact absurd hshorter (lt_irrefl _)
    | load => exact absurd hshorter (lt_irrefl _)
    | delete _ s' rest _ hactive hrow hdelete =>
      obtain ⟨y, hy, hunused⟩ : ∃ y, (K.controllers.array s)[row]? = some y ∧ ¬ InUse s y := by
        by_contra hnone
        push Not at hnone
        exact D.refused hnone written _ hdelete
      obtain ⟨s'', hdelete', harray, htable⟩ := D.deleted hy hunused hrow written
      obtain ⟨rfl, rfl⟩ := Prod.mk.inj (Except.ok.inj (hdelete.symm.trans hdelete'))
      have hedit : p.canEditRow = true := Pane.canEditRow_iff.mpr hactive
      obtain ⟨hstill, hdatabase⟩ := h p x y rfl hd hedit rfl hx hy hunused
      refine ⟨?_, ?_⟩
      · change RemovesOne x _ (K.controllers.array s')
        rw [harray, removesOne_eraseIdx_iff hx]
        cases outdated with
        | true => exact hstill rfl
        | false =>
          have heq := hlist p rfl hd hactive rfl
          exact ⟨by rw [heq], fun z _ => by rw [heq]⟩
      · change (K.table s'.db).rows = _
        rw [htable]
        exact deleteRecord_shown_iff.mpr hdatabase

theorem DeletesRow.removesShown_iff (D : DeletesRow K P InUse) {st : Session} {outdated : Bool}
    (hlist : ∀ p, st.app.screen = K.screen p → p.details = none → p.isActive = false →
      outdated = false → p.filteredResults = K.controllers.array st.app.store)
    (row : ℕ) (written : Bool) :
    RemovesShown K P st row written ↔ RowAgrees K InUse st outdated row written :=
  ⟨D.agrees_of_removesShown, D.removesShown_of_agrees hlist⟩

end Kind

section Kinds
variable (P : Platform)

open ItemsTableViewController in
theorem itemKind_deletesRow : DeletesRow (itemKind P) P Item.InUse where
  screen_injective _ _ h := Screen.items.inj h
  step_eq _ _ _ _ _ := rfl
  refused {s filtered row} hused written r h := by
    obtain ⟨item, hitem, -⟩ := bind_ok_iff.mp h
    have hat := (subscript_natCast _ _).mp (trapping_ok_iff.mp hitem)
    cases (commitDelete_of_used hat (hused item hat) written filtered).symm.trans h
  deleted {s filtered row item} hitem hunused hrow written := by
    refine ⟨_, commitDelete_of_row hitem (fun o ho l hl hid => hunused ⟨o, ho, l, hl, hid⟩) hrow
      written, rfl, rfl⟩

open LocationTableViewController in
theorem locationKind_deletesRow : DeletesRow (locationKind P) P Location.InUse where
  screen_injective _ _ h := Screen.locations.inj h
  step_eq _ _ _ _ _ := rfl
  refused {s filtered row} hused written r h := by
    obtain ⟨location, hlocation, -⟩ := bind_ok_iff.mp h
    have hat := (subscript_natCast _ _).mp (trapping_ok_iff.mp hlocation)
    cases (commitDelete_of_used hat (hused location hat) written filtered).symm.trans h
  deleted {s filtered row location} hlocation hunused hrow written := by
    refine ⟨_, commitDelete_of_row hlocation (fun o ho => ?_) hrow written, rfl, rfl⟩
    exact ⟨fun hto => hunused ⟨o, ho, .inl hto⟩, fun hfrom => hunused ⟨o, ho, .inr hfrom⟩⟩

/-- The swipes on the lists of the items and the locations remove exactly what they display. -/
def SwipesExact (st : Session) (a : Action) : Prop :=
  (∀ row written, a = .user ⟨.items (.swipeDelete row), written⟩ →
    RemovesShown (itemKind P) P st row written) ∧
  ∀ row written, a = .user ⟨.locations (.swipeDelete row), written⟩ →
    RemovesShown (locationKind P) P st row written

/-- At such a swipe the list, the array and the database agree on the row. -/
def SwipeAgrees (st : Session × Bool) (a : Action) : Prop :=
  (∀ row written, a = .user ⟨.items (.swipeDelete row), written⟩ →
    RowAgrees (itemKind P) Item.InUse st.1 st.2 row written) ∧
  ∀ row written, a = .user ⟨.locations (.swipeDelete row), written⟩ →
    RowAgrees (locationKind P) Location.InUse st.1 st.2 row written

theorem swipesExact_iff {st : Session × Bool} (hst : UpToDate P st) (a : Action) :
    SwipesExact P st.1 a ↔ SwipeAgrees P st a := by
  obtain ⟨⟨⟨s, screen, alerts⟩, remaining, itemsTask, locationsTask⟩, outdated⟩ := st
  refine and_congr ?_ ?_
  · refine forall_congr' fun row => forall_congr' fun written => forall_congr' fun _ => ?_
    refine (itemKind_deletesRow P).removesShown_iff (fun p hp hd hactive hout => ?_) row written
    obtain rfl : screen = .items p := hp
    exact Pane.Coherent.filteredResults (hst hout) hd hactive
  · refine forall_congr' fun row => forall_congr' fun written => forall_congr' fun _ => ?_
    refine (locationKind_deletesRow P).removesShown_iff (fun p hp hd hactive hout => ?_) row written
    obtain rfl : screen = .locations p := hp
    exact Pane.Coherent.filteredResults (hst hout) hd hactive

/-- For every interleaving: every swipe that is carried out removes exactly the displayed record
from memory and from the database if and only if, at every swipe that is let through, a list
under which a completion replaced the array still has the records of the array, and the
database deletes the displayed id and no other. -/
theorem run_swipesExact_iff (db : Database) (actions : List Action) :
    ((Session.step P).withHistory recordOutdated).Meets (fun st a => SwipesExact P st.1 a)
        (launch db, false) actions ↔
      ((Session.step P).withHistory recordOutdated).Meets (SwipeAgrees P) (launch db, false)
        actions :=
  Machine.meets_congr_of_meets
    (fun st a st' hst _ h => step_preserves_upToDate P st a st' hst trivial h)
    (fun _ a hst _ => swipesExact_iff P hst a) (fun _ => trivial)
    (Machine.meets_anyStep _ actions)

/-- The items arrive while the list shows the desk, which is then deleted. -/
def Sample.itemsUnderList : List Action :=
  List.replicate 4 statement ++ createDesk ++ [.user ⟨.items .back, true⟩,
    .itemsCompletion [TableApp.Sample.lamp, TableApp.Sample.chair],
    .user ⟨.items (.swipeDelete 0), true⟩]

/-- All items are gone from memory, and the desk stays in the database. -/
theorem run_itemsUnderList :
    (∃ st, (Session.step Platform.ascii).run (launch emptyDatabase) Sample.itemsUnderList = .ok st ∧
      st.app.store.items = [] ∧ st.app.store.db.item.rows = [Sample.desk]) ∧
    ¬ ((Session.step Platform.ascii).withHistory recordOutdated).Meets
      (fun st a => SwipesExact Platform.ascii st.1 a) (launch emptyDatabase, false)
      Sample.itemsUnderList := by
  refine ⟨⟨_, rfl, rfl, rfl⟩, fun h => ?_⟩
  iterate 13 replace h := h.2 _ rfl
  obtain ⟨hmemory, -⟩ := h.1.1 0 true rfl _ _ Sample.desk _ rfl rfl rfl rfl rfl (by decide)
  exact absurd (hmemory.others TableApp.Sample.lamp (by decide)) (by decide)

end Kinds
end Info6350.Assignment10
