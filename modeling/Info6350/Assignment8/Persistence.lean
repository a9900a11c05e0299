import Info6350.Assignment8.NamedRecord

/-! # Memory and database stay in step

Each of the eleven handlers that change records edits one array and sends the statement
for the same record to its table.  This holds of the screens in any state, whatever index
they remember from an earlier fetch.
-/

namespace Info6350.Assignment8
open Library Swift Logistics TextApp

variable {F : DateFormatter}

theorem Edits.memoryMatchesDatabase {s s' : Store} (h : Edits true s s')
    (hs : s.MemoryMatchesDatabase) : s'.MemoryMatchesDatabase := by
  obtain ⟨e, he, rfl⟩ := h
  exact hs.apply he

theorem step_preserves_memoryMatchesDatabase :
    (step F).Preserves (fun _ i => i.written = true) fun st => st.store.MemoryMatchesDatabase := by
  intro st i st' hst hwritten h
  exact (hwritten ▸ step_edits h).memoryMatchesDatabase hst

/-- From any screen, with the arrays in step with their tables, a run whose writes succeed leaves
them in step, and a relaunch loads the records that are in memory. -/
theorem run_relaunchSame (F : DateFormatter) {st st' : AppState}
    (hst : st.store.MemoryMatchesDatabase) {inputs : List Input}
    (hinputs : ∀ i ∈ inputs, i.written = true) (h : (step F).run st inputs = .ok st') :
    st'.store.MemoryMatchesDatabase ∧
      Store.SameRecords (AppState.launch st'.store.db).store st'.store := by
  have hst' := step_preserves_memoryMatchesDatabase.run hst
    (Machine.meets_of_forall st fun i hi _ => hinputs i hi) h
  exact ⟨hst', hst'.sameRecords⟩

def Sample.renameDelete : List Input := Sample.fetched ++
  [⟨.btnTap, true⟩, ⟨.btnCloseTap, true⟩, ⟨.presentDelete, true⟩, ⟨.type .tfItemId "11", true⟩,
    ⟨.btnTap, true⟩]

theorem run_relaunchSame_renameDelete :
    ∃ st, (step .utc).run (AppState.launch Sample.database) Sample.renameDelete = .ok st ∧
      st.store.items = [{ item1 with name := "Lamp" }] ∧
      st.store.MemoryMatchesDatabase ∧
      Store.SameRecords (AppState.launch st.store.db).store st.store :=
  ⟨_, rfl, rfl, @run_relaunchSame .utc (AppState.launch Sample.database) _
    (Store.generateDummyData_matches Sample.database) Sample.renameDelete (by decide) rfl⟩

end Info6350.Assignment8
