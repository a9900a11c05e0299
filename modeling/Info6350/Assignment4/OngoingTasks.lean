import Info6350.Assignment4.Program

/-! # The counter of ongoing tasks

`onGoingTaskCount` stands for the number of the account's tasks that are being done.  Only
`updateTaskStatus` writes it, by one up or down, whatever the owner and the old status of
the task are.
-/

namespace Info6350.Assignment4
open Library Swift Keyed

def Task.DoingFor (k : ℤ) (t : Task) : Prop := t.assignedMember = k ∧ t.status = .doing

instance (k : ℤ) (t : Task) : Decidable (t.DoingFor k) := inferInstanceAs (Decidable (_ ∧ _))

def Globals.doingCount (k : ℤ) (g : Globals) : ℕ := g.tasks.countP fun t => t.DoingFor k

/-- The counter of every member is the number of tasks that it stands for. -/
def Globals.CounterExact (g : Globals) : Prop :=
  ∀ m ∈ g.accounts, m.role = .teamMember → m.onGoingTaskCount = g.doingCount m.id

instance (g : Globals) : Decidable g.CounterExact :=
  inferInstanceAs (Decidable (∀ m ∈ g.accounts, _ → _))

section Count
variable {g g' : Globals} {i : ℕ} {t : Task} {k : ℤ}

theorem doingCount_eraseIdx (ht : g.tasks[i]? = some t) :
    g.doingCount k = { g with tasks := g.tasks.eraseIdx i }.doingCount k +
      (if t.DoingFor k then 1 else 0) := by
  obtain ⟨hi, rfl⟩ := List.getElem?_eq_some_iff.mp ht
  simpa [Globals.doingCount, List.countP_cons] using
    ((List.getElem_cons_eraseIdx_perm hi).countP_eq fun t => decide (t.DoingFor k)).symm

/-- Writing a task in place takes the old one out of the count and puts the new one in. -/
theorem doingCount_setTask (ht : g.tasks[i]? = some t) (t' : Task) (k : ℤ) :
    (g.setTask i t').doingCount k + (if t.DoingFor k then 1 else 0) =
      g.doingCount k + (if t'.DoingFor k then 1 else 0) := by
  have hrest : (g.setTask i t').doingCount k =
      { g with tasks := g.tasks.eraseIdx i }.doingCount k +
        (if t'.DoingFor k then 1 else 0) := by
    obtain ⟨hi, rfl⟩ := List.getElem?_eq_some_iff.mp ht
    simpa [Globals.doingCount, Globals.setTask, List.countP_cons] using
      (List.set_perm_cons_eraseIdx hi t').countP_eq fun t => decide (t.DoingFor k)
  rw [hrest, doingCount_eraseIdx ht]
  exact Nat.add_right_comm _ _ _

theorem doingCount_setTask_same (ht : g.tasks[i]? = some t) {t' : Task}
    (hsame : t'.DoingFor k ↔ t.DoingFor k) : (g.setTask i t').doingCount k = g.doingCount k := by
  have hset := doingCount_setTask ht t' k
  simp only [hsame] at hset
  exact Nat.add_right_cancel hset

/-- Only an update of a status changes the accounts or a count. -/
theorem Effect.counts {c : Command} (h : Effect g c g')
    (hc : ∀ self taskID status, c ≠ .updateTaskStatus self taskID status) :
    g'.accounts = g.accounts ∧ ∀ k, g'.doingCount k = g.doingCount k := by
  cases h with
  | stay => exact ⟨rfl, fun _ => rfl⟩
  | create accountID desc _ =>
    refine ⟨rfl, fun k => ?_⟩
    simp [Globals.doingCount, Task.DoingFor]
  | describe taskID desc i t hfound =>
    exact ⟨rfl, fun _ => doingCount_setTask_same (Globals.found_some hfound).2 Iff.rfl⟩
  | assign taskID i t account _ _ hfound hstatus =>
    refine ⟨rfl, fun k => doingCount_setTask_same (Globals.found_some hfound).2 ?_⟩
    simp [Task.DoingFor, hstatus]
  | delete taskID i t hfound hstatus =>
    refine ⟨rfl, fun k => ?_⟩
    rw [doingCount_eraseIdx (Globals.found_some hfound).2, if_neg fun hdoing => hstatus hdoing.2]
    rfl
  | setStatus self taskID status => exact absurd rfl (hc self taskID status)

end Count

/-- An update of a status begins or ends the work on a task of the member. -/
def State.BeginsOrEnds (st : State) : Prop :=
  ∀ self taskID status, st.command = .updateTaskStatus self taskID status →
    ∀ m i t, st.globals.accounts[self]? = some m → st.globals.found taskID = some (i, t) →
      t.assignedMember = m.id ∧
        (t.status = .doing ↔ (TaskStatus.ofRawValue status).getD .todo ≠ .doing)

theorem setStatus_counterExact_iff {g : Globals} (hg : g.WellFormed) (hexact : g.CounterExact)
    {self i : ℕ} {m : Account} {t : Task} {n : TaskStatus} (hm : g.accounts[self]? = some m)
    (hrole : m.role = .teamMember) (ht : g.tasks[i]? = some t) :
    Globals.CounterExact
        ⟨g.accounts.set self { m with
            onGoingTaskCount := m.onGoingTaskCount + (if n = .doing then 1 else -1) },
          g.tasks.set i { t with status := n }, g.taskCount⟩ ↔
      t.assignedMember = m.id ∧ (t.status = .doing ↔ n ≠ .doing) := by
  have hmem : m ∈ g.accounts := List.mem_of_getElem? hm
  have hset : ∀ k, ((g.setTask i { t with status := n }).doingCount k : ℤ) +
      (if t.DoingFor k then 1 else 0) =
      g.doingCount k + (if t.assignedMember = k ∧ n = .doing then 1 else 0) := fun k => by
    exact_mod_cast doingCount_setTask ht { t with status := n } k
  have hcount : m.onGoingTaskCount = g.doingCount m.id := hexact m hmem hrole
  constructor
  · intro h
    have hself : m.onGoingTaskCount + (if n = .doing then 1 else -1) =
        ((g.setTask i { t with status := n }).doingCount m.id : ℤ) :=
      h _ (List.mem_set (List.getElem?_eq_some_iff.mp hm).choose _) hrole
    have hset := hset m.id
    rw [← hself, hcount] at hset
    by_cases howner : t.assignedMember = m.id <;> by_cases hn : n = .doing <;>
      by_cases hstatus : t.status = .doing <;>
      simp [Task.DoingFor, howner, hn, hstatus] at hset ⊢
  · rintro ⟨howner, hwork⟩ x hx hx'
    obtain ⟨j, hj, rfl⟩ := List.getElem_of_mem hx
    change _ = ((g.setTask i { t with status := n }).doingCount _ : ℤ)
    by_cases hself : self = j
    · subst hself
      have hset := hset m.id
      rw [List.getElem_set_self]
      change m.onGoingTaskCount + _ = ((g.setTask i { t with status := n }).doingCount m.id : ℤ)
      rw [hcount]
      by_cases hn : n = .doing <;> simp [Task.DoingFor, howner, hn, hwork] at hset ⊢ <;> omega
    · have hlt : j < g.accounts.length := by simpa using hj
      rw [List.getElem_set_of_ne hself] at hx' ⊢
      have hne : t.assignedMember ≠ (g.accounts[j]).id := fun hid => hself <|
        hg.distinct_accounts.row_inj hm (List.getElem?_eq_getElem hlt) (howner.symm.trans hid)
      have hset := hset (g.accounts[j]).id
      simp only [Task.DoingFor, hne, false_and, if_false] at hset
      rw [hexact _ (List.getElem_mem hlt) hx']
      omega

/-! ## Runs -/

def State.Counts (st : State) : Prop := st.globals.WellFormed ∧ st.globals.CounterExact

theorem launch_counts (stdin : List String) : (launch stdin).Counts :=
  ⟨Globals.wellFormed_initial, show Globals.initial.CounterExact by decide⟩

theorem step_counterExact_iff {st st' : State} {u : Unit} (hst : st.Counts)
    (h : step st u = .ok st') : st'.globals.CounterExact ↔ st.BeginsOrEnds := by
  have happly := step_apply h
  by_cases hc : ∃ self taskID status, st.command = .updateTaskStatus self taskID status
  · obtain ⟨self, taskID, status, hc⟩ := hc
    obtain ⟨-, m, hm, hrole⟩ := State.command_updateTaskStatus hc
    rw [hc] at happly
    rcases updateTaskStatus_ok happly with ⟨hnone, hsame⟩ | ⟨i, t, m', hfound, hm', hglobals⟩
    · rw [hsame]
      refine iff_of_true hst.2 fun self' taskID' status' hc' m i t _ hfound => ?_
      obtain ⟨-, rfl, -⟩ := Command.updateTaskStatus.inj (hc.symm.trans hc')
      exact absurd (hnone.symm.trans hfound) (by simp)
    · obtain rfl : m = m' := Option.some.inj (hm.symm.trans hm')
      rw [hglobals, setStatus_counterExact_iff hst.1 hst.2 hm hrole (Globals.found_some hfound).2]
      constructor
      · intro hwork self' taskID' status' hc' m' i' t' hm' hfound'
        obtain ⟨rfl, rfl, rfl⟩ := Command.updateTaskStatus.inj (hc.symm.trans hc')
        obtain rfl : m = m' := Option.some.inj (hm.symm.trans hm')
        obtain ⟨rfl, rfl⟩ := Prod.mk.inj (Option.some.inj (hfound.symm.trans hfound'))
        exact hwork
      · exact fun hwork => hwork self taskID status hc m i t hm hfound
  · push Not at hc
    obtain ⟨haccounts, hcounts⟩ := (step_effect h).counts hc
    refine iff_of_true (fun m hm hrole => ?_) fun self taskID status h' => absurd h' (hc _ _ _)
    rw [haccounts] at hm
    rw [hcounts]
    exact hst.2 m hm hrole

/-- The counters are exact in every state of a run if and only if every update of a status that
finds a task begins or ends the work on a task of the member. -/
theorem run_counterExact_iff {stdin : List String} {ticks : List Unit} {st : State}
    (h : step.run (launch stdin) ticks = .ok st) :
    step.Always (fun st => st.globals.CounterExact) (launch stdin) ticks ↔
      step.Meets (fun st _ => st.BeginsOrEnds) (launch stdin) ticks := by
  refine Machine.always_iff_meets (A := fun _ => True) (I := State.Counts) (fun st hst => hst.2)
    ?_ ?_ (launch_counts stdin) (fun _ _ => trivial) h
  · rintro st u st' hst ⟨-, hwork⟩ h
    exact ⟨(step_effect h).wellFormed hst.1, (step_counterExact_iff hst h).mpr hwork⟩
  · intro st u st' hst _ h hexact
    exact (step_counterExact_iff hst h).mp hexact

/-- A leader assigns a task to the account 20, whose member sets it to the status that is
entered. -/
def Sample.session (status : String) : List String :=
  ["gaurav", "gaurav", "1", "20", "Write the report", "6", "raj", "raj", "2", "1", status]

/-- Setting a task to done that was never begun takes the counter below zero. -/
theorem run_doneAtOnce :
    ∃ st, step.run (launch (Sample.session "3")) (List.replicate 6 ()) = .ok st ∧
      (st.globals.accounts.map Account.onGoingTaskCount) = [0, 0, -1, 0] ∧
      ¬ st.globals.CounterExact :=
  ⟨_, rfl, rfl, by decide⟩

theorem run_counterExact_iff_begun :
    step.Always (fun st => st.globals.CounterExact) (launch (Sample.session "2"))
        (List.replicate 6 ()) ↔
      step.Meets (fun st _ => st.BeginsOrEnds) (launch (Sample.session "2"))
        (List.replicate 6 ()) :=
  @run_counterExact_iff (Sample.session "2") (List.replicate 6 ()) _ rfl

end Info6350.Assignment4
