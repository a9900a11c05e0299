import Info6350.TableApp.Invariants

/-! # Memory and database

Every mutating handler edits one array and sends one statement.  As long as the database
accepts what is sent, the three arrays hold the records of their tables, so a relaunch
shows the same records.
-/

namespace Info6350.TableApp
open Library Swift Logistics

/-- The database accepts every write. -/
def Accepted (written : Bool) : Prop := written = true

theorem step_preserves_memoryMatchesDatabase (P : Platform) (edition : Edition) :
    (step P edition).Preserves (Input.Meets Accepted AnyEdit)
      (AppState.Inv P edition Store.MemoryMatchesDatabase AnyDetails) := by
  refine step_preserves_legal P edition fun {written s e} hw hs he => ?_
  obtain rfl : written = true := hw
  exact hs.apply he

/-- After every run whose writes succeed each array equals its table, with distinct ids, and
a relaunch shows the records that are in memory. -/
theorem run_memoryMatchesDatabase (P : Platform) {s : Store} (hs : s.MemoryMatchesDatabase)
    {inputs : List Input} (hinputs : ∀ i ∈ inputs, i.written = true) {st : AppState}
    (h : (step P .assignment9).run (AppState.atMenu s) inputs = .ok st) :
    st.store.MemoryMatchesDatabase ∧ Store.SameRecords (generateDummyData st.store.db) st.store := by
  have hinv := (step_preserves_memoryMatchesDatabase P .assignment9).run
    (AppState.inv_atMenu P .assignment9 hs) (Input.meets_anyEdit P .assignment9 hinputs) h
  exact ⟨hinv.1, hinv.1.sameRecords⟩

/-- The three deletes of the sample, of which the first is refused. -/
theorem run_memoryMatchesDatabase_deletes :
    ∃ st, (step Platform.ascii .assignment9).run (AppState.atMenu (generateDummyData Sample.database))
        Sample.deletes = .ok st ∧ st.store.logisticsOrder = [] ∧
      st.store.db.item.rows = [Sample.chair] ∧ st.store.MemoryMatchesDatabase ∧
      Store.SameRecords (generateDummyData st.store.db) st.store :=
  ⟨_, rfl, rfl, rfl, @run_memoryMatchesDatabase Platform.ascii _
    (Store.generateDummyData_matches Sample.database) Sample.deletes (by decide) _ rfl⟩

end Info6350.TableApp
