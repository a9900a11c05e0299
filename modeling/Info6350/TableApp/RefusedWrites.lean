import Info6350.Logistics.Journal
import Info6350.TableApp.Invariants

/-! # What a refused write damages

A refused write is printed and forgotten, and the app goes on with the arrays.  The database then
differs from memory in the record of this write, and in no other one.
-/

namespace Info6350.TableApp
open Library Swift Logistics

theorem paneStep_edits {α δ ω : Type} {C : Controllers α δ ω} {R : Changes α δ}
    (K : C.CarryOut R) {written : Bool} {s : Store} {p : Pane α δ} {e : PaneEvent ω}
    {r : PaneResult α δ} (hp : p.Coherent C AnyDetails s)
    (h : paneStep C written s p e = .ok r) :
    ∃ e : StoreEdit, e.Legal s ∧ r.store = e.apply written s := by
  cases paneStep_move h with
  | tap d s' a _ htap =>
    obtain ⟨e, he, rfl⟩ := K.tap_ok htap
    exact ⟨R.edit e, (K.button he).1, rfl⟩
  | delete row s' rest hd hactive _ hdelete =>
    rw [hp.filteredResults hd hactive] at hdelete
    obtain ⟨hrow, rfl, -⟩ := K.delete_ok hdelete
    exact ⟨R.edit (.delete row), (K.swipe hrow).2.1, rfl⟩
  | _ => exact ⟨.keep, trivial, (Logistics.StoreEdit.apply_keep written s).symm⟩

variable (P : Platform) (edition : Edition)

theorem step_edits {st st' : AppState} {i : Input}
    (hst : st.Inv P edition Store.DistinctIds AnyDetails) (h : step P edition st i = .ok st') :
    ∃ e : StoreEdit, e.Legal st.store ∧ st'.store = e.apply i.written st.store := by
  obtain ⟨s, screen, alerts⟩ := st
  obtain ⟨event, written⟩ := i
  have hkeep : ∃ e : StoreEdit, e.Legal s ∧ s = e.apply written s :=
    ⟨.keep, trivial, (Logistics.StoreEdit.apply_keep written s).symm⟩
  cases step_move h with
  | items p e r hr => exact paneStep_edits (itemControllers_carryOut P) hst.2 hr
  | locations p e r hr => exact paneStep_edits (locationControllers_carryOut P) hst.2 hr
  | orders p e r hr => exact paneStep_edits (orderControllers_carryOut P edition) hst.2 hr
  | _ => exact hkeep

theorem journaled : Journaled (step P edition) AppState.store Input.written
    (AppState.Inv P edition Store.DistinctIds AnyDetails) where
  preserves := step_preserves_legal_any P edition fun {w _ _} hs he => hs.apply he w
  distinct _ h := h.1
  edits _ _ _ hst h := step_edits P edition hst h

/-- After every run a relaunch shows a record as it was shown before, if the database accepted the
writes of the steps that changed this record. -/
theorem run_relaunchesSameAt {db : Database} {inputs : List Input} {st : AppState} {k : RecordId}
    (haccepts : (step P edition).Meets (AcceptsAt (step P edition) AppState.store Input.written k)
      (AppState.atMenu (generateDummyData db)) inputs)
    (h : (step P edition).run (AppState.atMenu (generateDummyData db)) inputs = .ok st) :
    (generateDummyData st.store.db).registry.SameAt st.store.registry k :=
  (journaled P edition).run_sameAt
    (AppState.inv_atMenu P edition (Store.generateDummyData_matches db).distinctIds)
    (Registry.SameAt.refl _ k) haccepts h

/-- Delete the order, which the database refuses, and then the lamp. -/
def Sample.refusedDelete : List Input :=
  [⟨.openOrders, true⟩, ⟨.orders (.swipeDelete 0), false⟩, ⟨.leave, true⟩, ⟨.openItems, true⟩,
    ⟨.items (.swipeDelete 0), true⟩]

/-- After a relaunch the order is back, and the lamp that it carries is not. -/
theorem run_relaunchesSameAt_refusedDelete : ∃ st,
    (step Platform.ascii .assignment9).run (AppState.atMenu (generateDummyData Sample.database))
        Sample.refusedDelete = .ok st ∧
      (generateDummyData st.store.db).logisticsOrder = [Sample.shipment] ∧
      (generateDummyData st.store.db).items = [Sample.chair] ∧
      (generateDummyData st.store.db).registry.SameAt st.store.registry (.item 1) := by
  refine ⟨_, rfl, rfl, rfl, @run_relaunchesSameAt Platform.ascii .assignment9 Sample.database
    Sample.refusedDelete _ (.item 1) ⟨.inl rfl, fun t ht => ?_⟩ rfl⟩
  obtain rfl := Except.ok.inj ht
  refine ⟨.inr fun t ht => ?_, fun t ht => ?_⟩
  · obtain rfl := Except.ok.inj ht
    rfl
  · exact Machine.meets_of_forall t fun i hi _ => .inl (by revert i; decide)

end Info6350.TableApp
