import Info6350.Assignment4.Program

/-! # What a member's update leaves alone

`viewTask` shows a member the tasks that are assigned to that member; `updateTaskStatus`
takes the first task with the entered id, whoever it is assigned to.
-/

namespace Info6350.Assignment4
open Library Swift Keyed

/-- The tasks of others and the other accounts are as they were, and what changes was shown to
the member `m`, the account at `row`. -/
structure OthersKept (row : ℕ) (m : Account) (g g' : Globals) : Prop where
  tasks : ∀ (i : ℕ) (t : Task), g.tasks[i]? = some t → t.assignedMember ≠ m.id →
    g'.tasks[i]? = some t
  accounts : ∀ (j : ℕ) (a : Account), g.accounts[j]? = some a → a.id ≠ m.id →
    g'.accounts[j]? = some a
  shown : ∀ (i : ℕ) (t : Task), g.tasks[i]? = some t → g'.tasks[i]? ≠ some t → t ∈ g.viewTask row

section Update
variable {g : Globals} {self : ℕ} {m : Account}

theorem mem_viewTask (hm : g.accounts[self]? = some m) {t : Task} :
    t ∈ g.viewTask self ↔ t ∈ g.tasks ∧ t.assignedMember = m.id := by
  simp [Globals.viewTask, hm]

theorem OthersKept.refl (self : ℕ) (m : Account) (g : Globals) : OthersKept self m g g :=
  ⟨fun _ _ h _ => h, fun _ _ h _ => h, fun _ _ h hne => absurd h hne⟩

/-- Writing a status keeps what belongs to others when the task was shown to the member or has
this status already, and only then. -/
theorem othersKept_setStatus_iff (hm : g.accounts[self]? = some m) {i : ℕ} {t : Task}
    (ht : g.tasks[i]? = some t) (n : TaskStatus) (count taskCount : ℤ) :
    OthersKept self m g ⟨g.accounts.set self { m with onGoingTaskCount := count },
        g.tasks.set i { t with status := n }, taskCount⟩ ↔
      t ∈ g.viewTask self ∨ t.status = n := by
  obtain ⟨hi, -⟩ := List.getElem?_eq_some_iff.mp ht
  have hwritten : (g.tasks.set i { t with status := n })[i]? = some { t with status := n } := by
    simp [hi]
  constructor
  · intro h
    by_cases hstatus : t.status = n
    · exact .inr hstatus
    · refine .inl (h.shown i t ht fun hsame => hstatus ?_)
      exact congrArg Task.status (Option.some.inj (hsame.symm.trans hwritten))
  · intro h
    -- a row of the tasks changes only at `i`, where the task is shown or its status is the same
    have hrow : ∀ (j : ℕ) (x : Task), g.tasks[j]? = some x → x ∈ g.viewTask self ∨
        (g.tasks.set i { t with status := n })[j]? = some x := by
      intro j x hx
      by_cases hij : i = j
      · subst hij
        obtain rfl : t = x := Option.some.inj (ht.symm.trans hx)
        exact h.imp_right fun hstatus => by rw [hwritten, ← hstatus]
      · exact .inr ((List.getElem?_set_ne hij).trans hx)
    refine ⟨fun j x hx howner => ?_, fun row a ha hid => ?_, fun j x hx hne => ?_⟩
    · exact (hrow j x hx).resolve_left fun hshown => howner ((mem_viewTask hm).mp hshown).2
    · have hne : self ≠ row := by
        rintro rfl
        exact hid (congrArg Account.id (Option.some.inj (ha.symm.trans hm)))
      exact (List.getElem?_set_ne hne).trans ha
    · exact (hrow j x hx).resolve_right hne

end Update

/-! ## Steps and runs -/

/-- A member's update keeps what belongs to others. -/
def State.KeepsOthers (st : State) : Prop :=
  ∀ self taskID status, st.command = .updateTaskStatus self taskID status →
    ∀ m, st.globals.accounts[self]? = some m →
    ∀ st', step st () = .ok st' → OthersKept self m st.globals st'.globals

/-- The task that an update finds is shown to the member or has the entered status already. -/
def State.UpdatesShown (st : State) : Prop :=
  ∀ self taskID status, st.command = .updateTaskStatus self taskID status →
    ∀ i t, st.globals.found taskID = some (i, t) →
      t ∈ st.globals.viewTask self ∨ t.status = (TaskStatus.ofRawValue status).getD .todo

theorem step_keepsOthers_iff {st st' : State} {u : Unit} (h : step st u = .ok st') :
    st.KeepsOthers ↔ st.UpdatesShown := by
  refine forall_congr' fun self => forall_congr' fun taskID => forall_congr' fun status =>
    forall_congr' fun hc => ?_
  have happly := step_apply h
  rw [hc] at happly
  obtain ⟨-, m, hm, -⟩ := State.command_updateTaskStatus hc
  have hstep : (∀ m, st.globals.accounts[self]? = some m → ∀ st', step st () = .ok st' →
      OthersKept self m st.globals st'.globals) ↔ OthersKept self m st.globals st'.globals := by
    refine ⟨fun hst => hst m hm st' h, fun hst m' hm' s hs => ?_⟩
    rw [← Option.some.inj (hm.symm.trans hm'), ← Except.ok.inj (h.symm.trans hs)]
    exact hst
  rw [hstep]
  rcases updateTaskStatus_ok happly with ⟨hnone, hsame⟩ | ⟨i, t, m', hfound, hm', hglobals⟩
  · rw [hsame, hnone]
    exact iff_of_true (.refl self m _) fun i t hfound => by cases hfound
  · obtain rfl : m = m' := Option.some.inj (hm.symm.trans hm')
    rw [hglobals, othersKept_setStatus_iff hm (Globals.found_some hfound).2]
    constructor
    · intro hshown i' t' hfound'
      obtain ⟨rfl, rfl⟩ := Prod.mk.inj (Option.some.inj (hfound.symm.trans hfound'))
      exact hshown
    · exact fun hshown => hshown i t hfound

/-- The updates of a run keep what belongs to others if and only if each finds a task that is
shown to the member, or one that has the entered status already. -/
theorem run_keepsOthers_iff {stdin : List String} {ticks : List Unit} {st : State}
    (h : step.run (launch stdin) ticks = .ok st) :
    step.Meets (fun st _ => st.KeepsOthers) (launch stdin) ticks ↔
      step.Meets (fun st _ => st.UpdatesShown) (launch stdin) ticks :=
  Machine.meets_congr (A := fun _ => True) (I := fun _ => True) (fun _ _ _ _ _ _ => trivial)
    (fun _ _ _ _ _ h => step_keepsOthers_iff h) trivial (fun _ _ => trivial) h

/-- A leader assigns a task to the account 20; a member logs in and sets it to done. -/
def Sample.visit (member : String) : List String :=
  ["gaurav", "gaurav", "1", "20", "Write the report", "6", member, member, "2", "1", "3"]

/-- Andy, whose account is 21, sets a task of Raj to done. -/
theorem run_othersTask :
    ∃ st st', step.run (launch (Sample.visit "andy")) (List.replicate 5 ()) = .ok st ∧
      st.command = .updateTaskStatus 3 (some 1) 3 ∧ step st () = .ok st' ∧
      st.globals.viewTask 3 = [] ∧
      st.globals.tasks = [⟨"Write the report", .todo, 1, 20⟩] ∧
      st'.globals.tasks = [⟨"Write the report", .done, 1, 20⟩] ∧ ¬ st.KeepsOthers := by
  refine ⟨_, _, rfl, by decide +kernel, rfl, by decide, rfl, rfl, fun h => ?_⟩
  have hkept := (h 3 (some 1) 3 (by decide +kernel) _ rfl _ rfl).tasks 0 _ rfl (by decide)
  exact absurd (congrArg (Option.map Task.status) hkept) (by decide)

theorem run_keepsOthers_iff_owner :
    step.Meets (fun st _ => st.KeepsOthers) (launch (Sample.visit "raj"))
        (List.replicate 6 ()) ↔
      step.Meets (fun st _ => st.UpdatesShown) (launch (Sample.visit "raj"))
        (List.replicate 6 ()) :=
  @run_keepsOthers_iff (Sample.visit "raj") (List.replicate 6 ()) _ rfl

end Info6350.Assignment4
