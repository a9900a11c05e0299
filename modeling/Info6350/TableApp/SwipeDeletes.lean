import Info6350.TableApp.EditedRow

/-! # Deletes of a displayed row

A swipe takes the id of its record from the array of the main screen and what remains from
the list on screen, so it is exact because the two are equal whenever a row can be edited.
The record goes from the table when the database accepts the statement.
-/

namespace Info6350.TableApp
open Library Swift Logistics DatabaseManager Keyed

namespace ListKind
variable {α δ ω : Type} [Keyed α ℤ] (K : ListKind α δ ω) (P : Platform) (InUse : Store → α → Prop)

/-- The list is on screen, displays a record at a row, and lets its rows be edited. -/
def Editable (st : AppState) (row : ℕ) (x : α) : Prop :=
  ∃ p, st.screen = K.screen p ∧ p.details = none ∧ p.canEditRow = true ∧
    p.filteredResults[row]? = some x

/-- Nothing changes in memory, in the database or on the list, and an alert is shown. -/
def Refuses (st st' : AppState) : Prop :=
  st'.store = st.store ∧ st'.screen = st.screen ∧
    ∃ message, st'.alerts = ⟨"Cannot Delete", message⟩ :: st.alerts

/-- The record `x` at a row of the list and of the array is removed from the list, from the
array and from the table; the others stay in their order, and so does everything else. -/
structure Removes (row : ℕ) (x : α) (st st' : AppState) : Prop where
  stored : (K.controllers.array st.store)[row]? = some x
  array : K.controllers.array st'.store = (K.controllers.array st.store).eraseIdx row
  list : ∃ p, st.screen = K.screen p ∧
    st'.screen = K.screen { p with filteredResults := p.filteredResults.eraseIdx row }
  table : (K.table st'.store.db).rows = (K.table st.store.db).rows.filter fun y => key y ≠ key x
  others : K.SameOthers st.store st'.store

/-- The swipe is refused because the record is in use, or it removes exactly the record. -/
def DeletesExactly (st : AppState) (row : ℕ) (x : α) (written : Bool) : Prop :=
  ∃ st', step P .assignment9 st ⟨K.event (.swipeDelete row), written⟩ = .ok st' ∧
    ((InUse st.store x ∧ Refuses st st') ∨ K.Removes row x st st')

/-- The record is in use, or the database accepts the delete or has no row with this id. -/
def DeleteAccepted (st : AppState) (x : α) (written : Bool) : Prop :=
  InUse st.store x ∨ written = true ∨ key x ∉ keys (K.table st.store.db).rows

/-- What the three handlers have in common. -/
structure Deletes : Prop where
  step_eq : ∀ s p alerts e written,
    step P .assignment9 ⟨s, K.screen p, alerts⟩ ⟨K.event e, written⟩ =
      (paneStep K.controllers written s p e).map (AppState.show K.screen ⟨s, K.screen p, alerts⟩)
  refused : ∀ {s row x}, (K.controllers.array s)[row]? = some x → InUse s x → ∃ message,
    ∀ written, K.controllers.commitDelete written (K.controllers.array s) row s =
      .error (.alert ⟨"Cannot Delete", message⟩)
  deleted : ∀ {s row x}, (K.controllers.array s)[row]? = some x → ¬ InUse s x →
    ∀ written, ∃ s', K.controllers.commitDelete written (K.controllers.array s) row s =
        .ok (s', (K.controllers.array s).eraseIdx row) ∧
      K.controllers.array s' = (K.controllers.array s).eraseIdx row ∧
      K.table s'.db = deleteRecord written (key x) (K.table s.db) ∧ K.SameOthers s s'

variable {K P InUse}

theorem Deletes.deletesExactly_iff (D : K.Deletes P InUse) {s : Store} {p : Pane α δ}
    {alerts : List Alert} {row : ℕ} {x : α} (hp : p.details = none) (hedit : p.canEditRow = true)
    (hlist : p.filteredResults = K.controllers.array s) (hx : p.filteredResults[row]? = some x)
    (written : Bool) :
    K.DeletesExactly P InUse ⟨s, K.screen p, alerts⟩ row x written ↔
      K.DeleteAccepted InUse ⟨s, K.screen p, alerts⟩ x written := by
  have hrow : row < p.filteredResults.length := (List.getElem?_eq_some_iff.mp hx).choose
  have hstep : paneStep K.controllers written s p (.swipeDelete row) =
      settle (fun r => ⟨r.1, { p with filteredResults := r.2 }, []⟩) (fun alerts => ⟨s, p, alerts⟩)
        (K.controllers.commitDelete written (K.controllers.array s) row s) := by
    simp only [paneStep, hp, hedit, true_and, if_pos hrow, ← hlist]
  have harray : (K.controllers.array s)[row]? = some x := hlist ▸ hx
  unfold DeletesExactly DeleteAccepted
  rw [D.step_eq, hstep]
  by_cases hused : InUse s x
  · obtain ⟨message, hrefused⟩ := D.refused harray hused
    rw [hrefused]
    exact iff_of_true ⟨_, rfl, .inl ⟨hused, rfl, rfl, message, rfl⟩⟩ (.inl hused)
  · obtain ⟨s', hdelete, hs', htable, hothers⟩ := D.deleted harray hused written
    rw [hdelete, or_iff_right hused, ← deleteRecord_rows_iff, ← htable]
    constructor
    · rintro ⟨st', hst', ⟨hin, -⟩ | hremoves⟩
      · exact absurd hin hused
      · obtain rfl := Except.ok.inj hst'
        exact hremoves.table
    · intro hrows
      exact ⟨_, rfl, .inr ⟨harray, hs', ⟨p, rfl, by rw [hlist]; rfl⟩, hrows, hothers⟩⟩

end ListKind

/-! ## The three lists -/

/-- Some order carries the item. -/
def Item.InUse (s : Store) (item : Item) : Prop :=
  ∃ o ∈ s.logisticsOrder, ∃ l ∈ o.itemsCarried, l.item.id = item.id

/-- Some order uses the location. -/
def Location.InUse (s : Store) (location : Location) : Prop :=
  ∃ o ∈ s.logisticsOrder, o.toLocation.id = location.id ∨ o.fromLocation.id = location.id

section Kinds
variable (P : Platform)

open ItemsTableViewController in
theorem itemKind_deletes : (itemKind P).Deletes P Item.InUse where
  step_eq _ _ _ _ _ := rfl
  refused {s row item} hitem hused :=
    ⟨_, fun written => commitDelete_of_used hitem hused written s.items⟩
  deleted {s row item} hitem hunused written := by
    refine ⟨_, commitDelete_of_unused hitem (fun o ho l hl hid => hunused ⟨o, ho, l, hl, hid⟩)
      written, rfl, ?_, ⟨rfl, rfl⟩, ⟨rfl, rfl⟩⟩
    exact sendEdit_delete written s.items s.db.item hitem

open LocationTableViewController in
theorem locationKind_deletes : (locationKind P).Deletes P Location.InUse where
  step_eq _ _ _ _ _ := rfl
  refused {s row location} hlocation hused :=
    ⟨_, fun written => commitDelete_of_used hlocation hused written s.locations⟩
  deleted {s row location} hlocation hunused written := by
    refine ⟨_, commitDelete_of_unused hlocation (fun o ho => ?_) written, rfl, ?_, ⟨rfl, rfl⟩,
      ⟨rfl, rfl⟩⟩
    · exact ⟨fun hto => hunused ⟨o, ho, .inl hto⟩, fun hfrom => hunused ⟨o, ho, .inr hfrom⟩⟩
    · exact sendEdit_delete written s.locations s.db.location hlocation

open LogisticOrderTableViewController in
theorem orderKind_deletes : (orderKind P).Deletes P (fun _ _ => False) where
  step_eq _ _ _ _ _ := rfl
  refused _ hused := hused.elim
  deleted {s row order} horder _ written := by
    refine ⟨_, commitDelete_of_row (List.getElem?_eq_some_iff.mp horder).choose written, rfl, ?_,
      ⟨rfl, rfl⟩, ⟨rfl, rfl⟩⟩
    exact sendEdit_delete written s.logisticsOrder s.db.logisticsorder horder

end Kinds

/-- In every state that a launch reaches and for every row that can be edited on the three
lists: the swipe is refused because the record is in use, or removes exactly the record, if and
only if the record is in use, or the database accepts the delete or has no row with its id. -/
theorem run_deletesExactly_iff (P : Platform) (db : Database) {inputs : List Input} {st : AppState}
    (h : (step P .assignment9).run (AppState.atMenu (generateDummyData db)) inputs = .ok st)
    (row : ℕ) (written : Bool) :
    (∀ x, (itemKind P).Editable st row x →
      ((itemKind P).DeletesExactly P Item.InUse st row x written ↔
        (itemKind P).DeleteAccepted Item.InUse st x written)) ∧
    (∀ x, (locationKind P).Editable st row x →
      ((locationKind P).DeletesExactly P Location.InUse st row x written ↔
        (locationKind P).DeleteAccepted Location.InUse st x written)) ∧
    (∀ x, (orderKind P).Editable st row x →
      ((orderKind P).DeletesExactly P (fun _ _ => False) st row x written ↔
        (orderKind P).DeleteAccepted (fun _ _ => False) st x written)) := by
  obtain ⟨-, hscreen⟩ :=
    run_distinctIds P .assignment9 (Store.generateDummyData_matches db).distinctIds h
  obtain ⟨s, screen, alerts⟩ := st
  refine ⟨?_, ?_, ?_⟩
  · rintro x ⟨p, hp, hd, hedit, hx⟩
    cases hp
    exact (itemKind_deletes P).deletesExactly_iff hd hedit
      (Pane.Coherent.filteredResults hscreen hd (Pane.canEditRow_iff.mp hedit)) hx written
  · rintro x ⟨p, hp, hd, hedit, hx⟩
    cases hp
    exact (locationKind_deletes P).deletesExactly_iff hd hedit
      (Pane.Coherent.filteredResults hscreen hd (Pane.canEditRow_iff.mp hedit)) hx written
  · rintro x ⟨p, hp, hd, hedit, hx⟩
    cases hp
    exact (orderKind_deletes P).deletesExactly_iff hd hedit
      (Pane.Coherent.filteredResults hscreen hd (Pane.canEditRow_iff.mp hedit)) hx written

/-- The chair, which no order carries, is deleted while the database accepts the statement. -/
theorem run_deletesExactly_iff_chair :
    ∃ st, (step Platform.ascii .assignment9).run
        (AppState.atMenu (generateDummyData Sample.database)) [⟨.openItems, true⟩] = .ok st ∧
      (itemKind Platform.ascii).DeletesExactly Platform.ascii Item.InUse st 1 Sample.chair true :=
  ⟨_, rfl, ((@run_deletesExactly_iff Platform.ascii Sample.database [⟨.openItems, true⟩] _ rfl
    1 true).1 Sample.chair ⟨_, rfl, rfl, rfl, rfl⟩).mpr (.inr (.inl rfl))⟩

/-- The same swipe, refused by the database: the chair leaves the array and stays in the table. -/
theorem run_refusedDelete :
    ∃ st st', (step Platform.ascii .assignment9).run
        (AppState.atMenu (generateDummyData Sample.database)) [⟨.openItems, true⟩] = .ok st ∧
      (itemKind Platform.ascii).Editable st 1 Sample.chair ∧
      step Platform.ascii .assignment9 st ⟨.items (.swipeDelete 1), false⟩ = .ok st' ∧
      st'.store.items = [Sample.lamp] ∧ st'.store.db.item.rows = [Sample.lamp, Sample.chair] ∧
      ¬ (itemKind Platform.ascii).DeletesExactly Platform.ascii Item.InUse st 1 Sample.chair
        false := by
  refine ⟨_, _, rfl, ⟨_, rfl, rfl, rfl, rfl⟩, rfl, rfl, rfl, ?_⟩
  rintro ⟨st', hst', ⟨hused, -⟩ | hremoves⟩
  · obtain ⟨o, ho, l, hl, hid⟩ := hused
    revert o l
    decide
  · obtain rfl := Except.ok.inj hst'
    exact absurd hremoves.table (by decide)

end Info6350.TableApp
