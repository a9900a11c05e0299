import Info6350.Assignment8.Refinement
import Info6350.Logistics.Journal

/-! # What a relaunch shows

The steps of Assignment 8 are legal edits of its store.  So a run leaves a journal of operations:
memory has performed all of them, and a relaunch shows what those make that the database accepted.
-/

namespace Info6350.Assignment8
open Library Swift Logistics TextApp

variable {F : DateFormatter}

theorem journaled : Journaled (step F) AppState.store Input.written
    fun st => st.store.DistinctIds where
  preserves := step_preserves_distinctIds
  distinct _ h := h
  edits _ _ _ _ h := step_edits h

/-- The registry in memory and the one that a relaunch shows are what a journal makes of the
database that was launched; it has at most one entry for each input, with the answer to its
write. -/
theorem run_relaunchesJournal {db : Database} {inputs : List Input} {st : AppState}
    (h : (step F).run (AppState.launch db) inputs = .ok st) :
    ∃ journal, Registry.copies.run ((AppState.launch db).registry, (AppState.launch db).registry)
        journal = .ok (st.registry, (AppState.launch st.store.db).registry) ∧
      (journal.map Prod.snd).Sublist (inputs.map Input.written) :=
  journaled.run (Store.generateDummyData_matches db).distinctIds h

/-- Rename the item 10, which the database refuses, and delete the item 11. -/
def Sample.refusedRename : List Input := Sample.fetched ++
  [⟨.btnTap, false⟩, ⟨.btnCloseTap, true⟩, ⟨.presentDelete, true⟩, ⟨.type .tfItemId "11", true⟩,
    ⟨.btnTap, true⟩]

theorem run_relaunchesJournal_refusedRename : ∃ st,
    (step .utc).run (AppState.launch Sample.database) Sample.refusedRename = .ok st ∧
      st.store.items = [{ item1 with name := "Lamp" }] ∧
      (AppState.launch st.store.db).store.items = [item1] ∧
      ∃ journal, Registry.copies.run ((AppState.launch Sample.database).registry,
          (AppState.launch Sample.database).registry) journal =
            .ok (st.registry, (AppState.launch st.store.db).registry) ∧
        (journal.map Prod.snd).Sublist (Sample.refusedRename.map Input.written) :=
  ⟨_, rfl, rfl, rfl, @run_relaunchesJournal .utc Sample.database Sample.refusedRename _ rfl⟩

end Info6350.Assignment8
