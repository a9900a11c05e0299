import Info6350.Assignment4.OngoingTasks

/-! # To whom tasks are assigned

`updateMemberTask` looks the member up and refuses one whose counter is 2 or more;
`createTask` takes any number.  So a run assigns tasks only to free members when the numbers
entered for new tasks are those of free members, and the counters say of the others what
they should.
-/

namespace Info6350.Assignment4
open Library Swift Keyed

/-- Some task is assigned to `k` that is new or was not assigned to `k`. -/
def NewlyAssigned (g g' : Globals) (k : ℤ) : Prop :=
  ∃ t' ∈ g'.tasks, t'.assignedMember = k ∧ ∀ t ∈ g.tasks, t.id = t'.id → t.assignedMember ≠ k

instance (g g' : Globals) (k : ℤ) : Decidable (NewlyAssigned g g' k) :=
  inferInstanceAs (Decidable (∃ t' ∈ g'.tasks, _ ∧ ∀ t ∈ g.tasks, _ → _))

/-- An account with this id that has fewer than two tasks in work. -/
def Globals.Free (k : ℤ) (g : Globals) : Prop := k ∈ keys g.accounts ∧ g.doingCount k < 2

instance (k : ℤ) (g : Globals) : Decidable (g.Free k) := inferInstanceAs (Decidable (_ ∧ _))

section NewlyAssigned
variable {g g' : Globals} {k : ℤ}

theorem not_newlyAssigned (h : ∀ t' ∈ g'.tasks, ∃ t ∈ g.tasks, t.id = t'.id ∧
    t.assignedMember = t'.assignedMember) : ¬ NewlyAssigned g g' k := by
  rintro ⟨t', ht', rfl, hnew⟩
  obtain ⟨t, ht, hid, howner⟩ := h t' ht'
  exact hnew t ht hid howner

theorem newlyAssigned_setTask_iff (hg : g.WellFormed) {i : ℕ} {t : Task}
    (ht : g.tasks[i]? = some t) (t' : Task) (hid : t'.id = t.id) :
    NewlyAssigned g (g.setTask i t') k ↔ t'.assignedMember = k ∧ t.assignedMember ≠ k := by
  have hmem := List.mem_of_getElem? ht
  constructor
  · rintro ⟨x, hx, rfl, hnew⟩
    rcases List.mem_or_eq_of_mem_set hx with hx | rfl
    · exact absurd rfl (hnew x hx rfl)
    · exact ⟨rfl, hnew t hmem hid.symm⟩
  · rintro ⟨rfl, hne⟩
    refine ⟨t', List.mem_set (List.getElem?_eq_some_iff.mp ht).choose _, rfl, fun x hx hxid => ?_⟩
    obtain rfl : x = t := hg.tasks.eq_of_key_eq hx hmem (hxid.trans hid)
    exact hne

theorem newlyAssigned_createTask_iff (hg : g.WellFormed) {accountID : ℤ} {desc : String}
    (h : g.createTask accountID desc = .ok g') : NewlyAssigned g g' k ↔ accountID = k := by
  obtain ⟨-, rfl⟩ := createTask_ok h
  constructor
  · rintro ⟨x, hx, rfl, hnew⟩
    rcases List.mem_append.mp hx with hx | hx
    · exact absurd rfl (hnew x hx rfl)
    · rw [List.mem_singleton.mp hx]
  · rintro rfl
    refine ⟨_, List.mem_append_right _ (List.mem_singleton_self _), rfl, fun x hx hid => ?_⟩
    have hle : x.id ≤ g.taskCount := hg.generated x hx
    have hid : x.id = g.taskCount + 1 := hid
    omega

theorem Effect.not_newlyAssigned {c : Command} (h : Effect g c g') (hg : g.WellFormed)
    (hcreate : ∀ accountID desc, c ≠ .createTask accountID desc)
    (hupdate : ∀ taskID memberId, c ≠ .updateMemberTask taskID memberId) :
    ¬ NewlyAssigned g g' k := by
  cases h with
  | stay => exact Assignment4.not_newlyAssigned fun t ht => ⟨t, ht, rfl, rfl⟩
  | create accountID desc => exact absurd rfl (hcreate accountID desc)
  | assign taskID i t account => exact absurd rfl (hupdate taskID _)
  | describe taskID desc i t hfound =>
    rw [newlyAssigned_setTask_iff hg (Globals.found_some hfound).2 { t with desc := desc } rfl]
    exact fun h => h.2 h.1
  | delete taskID i t =>
    exact Assignment4.not_newlyAssigned fun t ht => ⟨t, List.mem_of_mem_eraseIdx ht, rfl, rfl⟩
  | setStatus self taskID status i t statusEnum account count hfound =>
    have hset : NewlyAssigned g (g.setTask i { t with status := statusEnum }) k ↔ _ :=
      newlyAssigned_setTask_iff hg (Globals.found_some hfound).2 _ rfl
    exact fun h => (hset.mp h).2 (hset.mp h).1

/-- Passing a task on assigns it to the member if it is not begun and not already his, and the
counter allows it. -/
theorem newlyAssigned_updateMemberTask_iff {g : Globals} {k : ℤ} (hg : g.WellFormed)
    (taskID memberId : Option ℤ) :
    NewlyAssigned g (g.updateMemberTask taskID memberId).1 k ↔
      ∃ m ∈ g.accounts, memberId = some m.id ∧ m.id = k ∧ m.onGoingTaskCount < 2 ∧
        ∃ i t, g.found taskID = some (i, t) ∧ t.status = .todo ∧ t.assignedMember ≠ k := by
  constructor
  · intro hnew
    have heffect := updateMemberTask_effect (g := g) taskID memberId
    generalize (g.updateMemberTask taskID memberId).1 = g' at hnew heffect
    cases heffect with
    | stay => exact absurd hnew (not_newlyAssigned fun t ht => ⟨t, ht, rfl, rfl⟩)
    | assign _ i t m hm hcount hfound hstatus =>
      rw [newlyAssigned_setTask_iff hg (Globals.found_some hfound).2
        { t with assignedMember := m.id } rfl] at hnew
      exact ⟨m, hm, rfl, hnew.1, hcount, i, t, hfound, hstatus, hnew.2⟩
  · rintro ⟨m, hm, rfl, rfl, hcount, i, t, hfound, hstatus, howner⟩
    have hlookup : lookup g.accounts m.id = some m :=
      hg.distinct_accounts.lookup_eq_some_iff.mpr ⟨hm, rfl⟩
    rw [updateMemberTask_of_todo hlookup hcount hfound hstatus,
      newlyAssigned_setTask_iff hg (Globals.found_some hfound).2
        { t with assignedMember := m.id } rfl]
    exact ⟨rfl, howner⟩

end NewlyAssigned

/-! ## Steps -/

/-- Every assignment that the step makes is to a free account. -/
def State.AssignsToFree (st : State) : Prop :=
  ∀ st', step st () = .ok st' → ∀ k, NewlyAssigned st.globals st'.globals k → st.globals.Free k

/-- The account of a new task is free; and so is the member to whom a task passes that is not
begun, if the counter allows it. -/
def State.ChecksMember (st : State) : Prop :=
  match st.command with
  | .createTask accountID _ => st.globals.Free accountID
  | .updateMemberTask taskID memberId => ∀ m ∈ st.globals.accounts, memberId = some m.id →
      m.onGoingTaskCount < 2 → ∀ i t, st.globals.found taskID = some (i, t) → t.status = .todo →
      t.assignedMember ≠ m.id → st.globals.doingCount m.id < 2
  | _ => True

theorem step_assignsToFree_iff {st st' : State} {u : Unit} (hg : st.globals.WellFormed)
    (h : step st u = .ok st') : st.AssignsToFree ↔ st.ChecksMember := by
  have happly := step_apply h
  have hassigns : st.AssignsToFree ↔
      ∀ k, NewlyAssigned st.globals st'.globals k → st.globals.Free k :=
    ⟨fun hst => hst st' h, fun hst s hs => Except.ok.inj (h.symm.trans hs) ▸ hst⟩
  rw [hassigns]
  unfold State.ChecksMember
  cases hc : st.command with
  | createTask accountID desc =>
    rw [hc] at happly
    simp only [newlyAssigned_createTask_iff hg happly]
    exact ⟨fun hst => hst accountID rfl, fun hfree k hk => hk ▸ hfree⟩
  | updateMemberTask taskID memberId =>
    rw [hc] at happly
    rw [← Except.ok.inj happly]
    simp only [newlyAssigned_updateMemberTask_iff hg]
    constructor
    · intro hst m hm hid hcount i t hfound hstatus howner
      exact (hst m.id ⟨m, hm, hid, rfl, hcount, i, t, hfound, hstatus, howner⟩).2
    · rintro hst k ⟨m, hm, hid, rfl, hcount, i, t, hfound, hstatus, howner⟩
      exact ⟨key_mem_keys hm, hst m hm hid hcount i t hfound hstatus howner⟩
  | _ =>
    refine iff_of_true (fun k hk => absurd hk ?_) trivial
    exact (step_effect h).not_newlyAssigned hg (by simp [hc]) (by simp [hc])

/-- With exact counters `updateMemberTask` passes no task to a busy member. -/
theorem State.checksMember_updateMemberTask {st : State} (hexact : st.globals.CounterExact)
    {taskID memberId : Option ℤ} (hc : st.command = .updateMemberTask taskID memberId)
    (hrole : ∀ m ∈ st.globals.accounts, memberId = some m.id → m.role = .teamMember) :
    st.ChecksMember := by
  unfold State.ChecksMember
  rw [hc]
  intro m hm hid hcount i t _ _ _
  have hexact := hexact m hm (hrole m hm hid)
  omega

/-- Every assignment of a run is to a free account if and only if the members that its commands
name are free where the commands do not look. -/
theorem run_assignsToFree_iff {stdin : List String} {ticks : List Unit} {st : State}
    (h : step.run (launch stdin) ticks = .ok st) :
    step.Meets (fun st _ => st.AssignsToFree) (launch stdin) ticks ↔
      step.Meets (fun st _ => st.ChecksMember) (launch stdin) ticks := by
  refine Machine.meets_congr (A := fun _ => True) (I := fun st => st.globals.WellFormed) ?_ ?_
    Globals.wellFormed_initial (fun _ _ => trivial) h
  · exact fun st u st' hg _ h => step_preserves_wellFormed st u st' hg trivial h
  · exact fun st u st' hg _ h => step_assignsToFree_iff hg h

/-- A leader assigns a task to an account, then another to the account 20, whose member has begun
the first two of them. -/
def Sample.assignments (accountID : String) : List String :=
  ["gaurav", "gaurav", "1", accountID, "Plan", "1", "20", "Draft", "6",
    "raj", "raj", "2", "1", "2", "2", "2", "2", "3", "gaurav", "gaurav", "1", "20", "Print"]

/-- A new task goes to the account 99, which does not exist, and to a member with two tasks in
work. -/
theorem run_createTask_unchecked :
    (∃ st st', step.run (launch (Sample.assignments "99")) [()] = .ok st ∧
      step st () = .ok st' ∧ NewlyAssigned st.globals st'.globals 99 ∧
      99 ∉ keys st.globals.accounts ∧ ¬ st.AssignsToFree) ∧
    ∃ st st', step.run (launch (Sample.assignments "20")) (List.replicate 13 ()) = .ok st ∧
      step st () = .ok st' ∧ NewlyAssigned st.globals st'.globals 20 ∧
      st.globals.doingCount 20 = 2 ∧ ¬ st.AssignsToFree := by
  refine ⟨⟨_, _, rfl, rfl, by decide, by decide, fun h => ?_⟩,
    ⟨_, _, rfl, rfl, by decide, by decide, fun h => ?_⟩⟩
  · exact absurd (h _ rfl 99 (by decide)) (by decide)
  · exact absurd (h _ rfl 20 (by decide)) (by decide)

theorem run_assignsToFree_iff_first :
    step.Meets (fun st _ => st.AssignsToFree) (launch (Sample.assignments "20"))
        (List.replicate 4 ()) ↔
      step.Meets (fun st _ => st.ChecksMember) (launch (Sample.assignments "20"))
        (List.replicate 4 ()) :=
  @run_assignsToFree_iff (Sample.assignments "20") (List.replicate 4 ()) _ rfl

end Info6350.Assignment4
