import Info6350.Assignment4.Logins

/-! # What a member sees

A member can change the tasks of others, but the member's screen shows nothing of them: in two
runs of a session on the same input, from states in which the member has the same tasks, the
same is printed, whatever the other tasks and the counters of the accounts are.
-/

namespace Info6350.Assignment4
open Library Swift Program Keyed

/-! ## A status update on the list that is shown -/

def restatus (id : Option ℤ) (status : TaskStatus) (tasks : List Task) : List Task :=
  tasks.map fun t => if some t.id = id then { t with status := status } else t

theorem restatus_of_not_mem {id : Option ℤ} {status : TaskStatus} {tasks : List Task}
    (h : ∀ t ∈ tasks, some t.id ≠ id) : restatus id status tasks = tasks :=
  (List.map_congr_left fun t ht => if_neg (h t ht)).trans (List.map_id tasks)

theorem restatus_filter (id : Option ℤ) (status : TaskStatus) (tasks : List Task) (owner : ℤ) :
    (restatus id status tasks).filter (fun t => t.assignedMember = owner) =
      restatus id status (tasks.filter fun t => t.assignedMember = owner) := by
  have howner : ∀ t : Task, (if some t.id = id then { t with status := status } else t).assignedMember
      = t.assignedMember := by
    intro t
    split_ifs <;> rfl
  rw [restatus, restatus, List.filter_map]
  congr 1
  exact List.filter_congr fun t _ => by simp [howner]

variable {g g' : Globals} {self : ℕ}

theorem updateTaskStatus_tasks (hg : g.WellFormed) {taskID : Option ℤ} {status : ℤ}
    (h : g.updateTaskStatus self taskID status = .ok g') :
    g'.tasks = restatus taskID ((TaskStatus.ofRawValue status).getD .todo) g.tasks := by
  rcases updateTaskStatus_ok h with ⟨hnone, rfl⟩ | ⟨i, t, account, hfound, -, rfl⟩
  · refine (restatus_of_not_mem fun t ht hid => ?_).symm
    obtain ⟨i, hi⟩ := List.getElem?_of_mem ht
    have hindex : firstIndex g'.tasks t.id = some i := hg.tasks.firstIndex_eq hi
    rw [← hid] at hnone
    simp [Globals.found, hindex, hi] at hnone
  · obtain ⟨rfl, ht⟩ := Globals.found_some hfound
    have hmap := hg.tasks.modify_eq_map ht
      (fun t => { t with status := (TaskStatus.ofRawValue status).getD .todo })
    have hset : g.tasks.set i { t with status := (TaskStatus.ofRawValue status).getD .todo } =
        g.tasks.modify i fun t => { t with status := (TaskStatus.ofRawValue status).getD .todo } := by
      rw [List.modify_eq_set_getElem?, ht]
      rfl
    change g.tasks.set i _ = _
    rw [hset, hmap]
    exact List.map_congr_left fun x _ => by simp

/-- The list that is shown after an update is the one shown before with the entered status. -/
theorem updateTaskStatus_viewTask (hg : g.WellFormed) {taskID : Option ℤ} {status : ℤ}
    (h : g.updateTaskStatus self taskID status = .ok g') {row : ℕ} {m : Account}
    (hm : g.accounts[row]? = some m) : g'.viewTask row =
      restatus taskID ((TaskStatus.ofRawValue status).getD .todo) (g.viewTask row) := by
  have hid : ∃ m', g'.accounts[row]? = some m' ∧ m'.id = m.id := by
    rcases updateTaskStatus_ok h with ⟨-, rfl⟩ | ⟨i, t, account, -, haccount, rfl⟩
    · exact ⟨m, hm, rfl⟩
    · by_cases hrow : self = row
      · subst hrow
        obtain rfl : m = account := Option.some.inj (hm.symm.trans haccount)
        obtain ⟨hlt, -⟩ := List.getElem?_eq_some_iff.mp hm
        exact ⟨_, List.getElem?_set_self hlt, rfl⟩
      · exact ⟨m, (List.getElem?_set_ne hrow).trans hm, rfl⟩
  obtain ⟨m', hm', hid⟩ := hid
  simp only [Globals.viewTask, hm, hm', updateTaskStatus_tasks hg h, hid]
  exact restatus_filter _ _ _ _

/-! ## The session of a member -/

/-- What the menu prints for the lines typed and the list of the member. -/
def TeamMember.texts (lines : List String) (tasks : List Task) : List String :=
  ["\nTeam Menu Account", "---------------------",
    "\nSelect an option: \n1. View Task \n2. Update Task Status \n3. Logout \n4. Exit\n"] ++
  match parseInt (lines.head?.getD "") with
  | some 1 => [descriptions tasks]
  | some 2 => ["\nEnter the task ID:",
      "\nEnter the status of the task: \n1. Todo \n2. Doing \n3. Done\n"]
  | some 3 => []
  | _ => ["Invalid input\n"]

/-- What the menu leaves of the lines typed, and what happens next. -/
def TeamMember.rest (lines : List String) : List String × Control :=
  match parseInt (lines.head?.getD "") with
  | some 2 => (lines.tail.tail.tail, .returned)
  | some 3 => (lines.tail, .loginMenu)
  | _ => (lines.tail, .returned)

theorem TeamMember.printMenu_texts {p p' : Process Globals} {c : Control}
    (h : printMenu self p = .ok (c, p')) :
    p'.stdout = p.stdout ++ texts p.stdin (p.globals.viewTask self) ∧
      (p'.stdin, c) = rest p.stdin := by
  simp only [printMenu, print_bind, readLine_bind] at h
  unfold texts rest
  generalize parseInt (p.stdin.head?.getD "") = printOption at h ⊢
  split at h
  case h_1 =>
    obtain ⟨rfl, rfl⟩ := Prod.mk.inj (Except.ok.inj h)
    simp
  case h_2 =>
    obtain ⟨_, q, hq, h⟩ := Program.bind_ok_iff.mp h
    obtain ⟨rfl, rfl⟩ := Program.pure_ok_iff.mp h
    obtain ⟨g, hg, hq⟩ := evaluate_bind_ok_iff.mp hq
    obtain ⟨-, rfl⟩ := Prod.mk.inj (Except.ok.inj hq)
    simp
  case h_3 =>
    obtain ⟨rfl, rfl⟩ := Prod.mk.inj (Except.ok.inj h)
    simp
  case h_4 => cases h
  case h_5 hne1 hne2 hne3 hne4 =>
    obtain ⟨rfl, rfl⟩ := Prod.mk.inj (Except.ok.inj h)
    refine ⟨?_, ?_⟩ <;> split <;> first | contradiction | simp

/-- Two sessions of the member at `row` that look the same to the member. -/
structure SameView (row : ℕ) (st st' : State) : Prop where
  control : st.control = st'.control
  frame : st.stack.head? = st'.stack.head?
  stdin : st.process.stdin = st'.process.stdin
  viewTask : st.globals.viewTask row = st'.globals.viewTask row
  wellFormed : st.globals.WellFormed
  wellFormed' : st'.globals.WellFormed
  member : ∃ m, st.globals.accounts[row]? = some m ∧ m.role = .teamMember

/-- The loop over the account at `row` is running and the next call is not another login. -/
def InSession (row : ℕ) (st : State) : Prop :=
  st.stack.head? = some (.whileTrue row) ∧ (st.control = .printMenu row ∨ st.control = .returned)

/-- The accounts of two well-formed states differ in their counters alone. -/
theorem Globals.WellFormed.exists_account (hg : g.WellFormed) (hg' : g'.WellFormed) {row : ℕ}
    {m : Account} (hm : g.accounts[row]? = some m) :
    ∃ m', g'.accounts[row]? = some m' ∧ m'.role = m.role := by
  have hmap : g'.accounts.map Account.identity = g.accounts.map Account.identity :=
    hg'.accounts.trans hg.accounts.symm
  have hrow := congrArg (·[row]?) hmap
  simp only [List.getElem?_map, hm, Option.map_some] at hrow
  obtain ⟨m', hm', hidentity⟩ := Option.map_eq_some_iff.mp hrow
  have hrole : m'.identity.role = m.identity.role := congrArg Account.role hidentity
  exact ⟨m', hm', hrole⟩

theorem step_printMenu {st st' : State} {u : Unit} {row : ℕ} {m : Account}
    (hcontrol : st.control = .printMenu row) (hm : st.globals.accounts[row]? = some m)
    (hrole : m.role = .teamMember) (h : step st u = .ok st') :
    TeamMember.printMenu row st.process = .ok (st'.control, st'.process) ∧
      st'.stack.head? = if st'.control = .loginMenu then some .printMenu else st.stack.head? := by
  obtain ⟨p, control, stack⟩ := st
  obtain rfl : control = .printMenu row := hcontrol
  obtain ⟨account, haccount, h⟩ := bind_ok_iff.mp h
  have hrow : p.globals.accounts[row]? = some account :=
    (subscript_natCast _ _).mp (mapError_ok_iff.mp haccount)
  obtain rfl : m = account := Option.some.inj (hm.symm.trans hrow)
  rw [hrole] at h
  obtain ⟨⟨control, q⟩, hq, h⟩ := bind_ok_iff.mp h
  have hmenu : TeamMember.printMenu row p = .ok (control, q) := hq
  cases control <;> obtain rfl := Except.ok.inj h <;> exact ⟨hmenu, rfl⟩

def TeamMember.shown (lines : List String) (tasks : List Task) : List Task :=
  match parseInt (lines.head?.getD "") with
  | some 2 => restatus (parseInt (lines.tail.head?.getD "0"))
      ((TaskStatus.ofRawValue ((parseInt (lines.tail.tail.head?.getD "0")).getD 1)).getD .todo) tasks
  | _ => tasks

theorem TeamMember.command_of_ne {lines : List String}
    (h : parseInt (lines.head?.getD "") ≠ some 2) : command self lines = .other := by
  unfold command
  split
  · contradiction
  · rfl

theorem TeamMember.shown_of_ne {lines : List String} {tasks : List Task}
    (h : parseInt (lines.head?.getD "") ≠ some 2) : shown lines tasks = tasks := by
  unfold shown
  split
  · contradiction
  · rfl

theorem TeamMember.command_viewTask (hg : g.WellFormed) {lines : List String} {m : Account}
    (hm : g.accounts[self]? = some m) (h : (command self lines).apply g = .ok g') :
    g'.viewTask self = shown lines (g.viewTask self) := by
  by_cases htwo : parseInt (lines.head?.getD "") = some 2
  · simp only [command, htwo] at h
    simp only [shown, htwo]
    exact updateTaskStatus_viewTask hg h hm
  · rw [command_of_ne htwo] at h
    rw [shown_of_ne htwo, Except.ok.inj h]

theorem SameView.step {row : ℕ} {st st' t t' : State} {u : Unit} (h : SameView row st st')
    (hsession : InSession row st) (ht : step st u = .ok t) (ht' : step st' u = .ok t') :
    SameView row t t' ∧ ∃ texts, t.process.stdout = st.process.stdout ++ texts ∧
      t'.process.stdout = st'.process.stdout ++ texts := by
  obtain ⟨hcontrol, hframe, hstdin, hview, hg, hg', m, hm, hrole⟩ := h
  obtain ⟨hhead, hprint | hreturned⟩ := hsession
  · obtain ⟨m', hm', hrole'⟩ := hg.exists_account hg' hm
    obtain ⟨hmenu, hstack⟩ := step_printMenu hprint hm hrole ht
    obtain ⟨hmenu', hstack'⟩ :=
      step_printMenu (hcontrol ▸ hprint) hm' (hrole'.trans hrole) ht'
    obtain ⟨hout, hrest⟩ := TeamMember.printMenu_texts hmenu
    obtain ⟨hout', hrest'⟩ := TeamMember.printMenu_texts hmenu'
    rw [← hstdin] at hout' hrest'
    obtain ⟨hin, hnext⟩ := Prod.mk.inj (hrest.trans hrest'.symm)
    have hshown := TeamMember.command_viewTask hg hm (TeamMember.printMenu_ok hmenu).1
    have hshown' := TeamMember.command_viewTask hg' hm' (TeamMember.printMenu_ok hmenu').1
    have hkept := (step_effect ht).wellFormed hg
    have hkept' := (step_effect ht').wellFormed hg'
    obtain ⟨n, hn, hnrole⟩ := hg.exists_account hkept hm
    refine ⟨⟨hnext, ?_, hin, ?_, hkept, hkept', n, hn, hnrole.trans hrole⟩, _, hout, ?_⟩
    · rw [hstack, hstack', hnext, hframe]
    · change t.process.globals.viewTask row = t'.process.globals.viewTask row
      rw [hshown, hshown', ← hstdin]
      exact congrArg _ hview
    · rw [hout']
      exact congrArg (fun tasks => _ ++ TeamMember.texts _ tasks) hview.symm
  · obtain ⟨p, control, stack⟩ := st
    obtain ⟨p', control', stack'⟩ := st'
    obtain rfl : control = .returned := hreturned
    obtain rfl : Control.returned = control' := hcontrol
    obtain ⟨stack, rfl⟩ := List.head?_eq_some_iff.mp hhead
    obtain ⟨stack', rfl⟩ := List.head?_eq_some_iff.mp (hframe.symm.trans hhead)
    obtain rfl := Except.ok.inj ht
    obtain rfl := Except.ok.inj ht'
    exact ⟨⟨rfl, rfl, hstdin, hview, hg, hg', m, hm, hrole⟩, [], by simp, by simp⟩

theorem SameView.run {row : ℕ} {st st' t t' : State} {ticks : List Unit}
    (h : SameView row st st')
    (hsession : Assignment4.step.Meets (fun st _ => InSession row st) st ticks)
    (ht : Assignment4.step.run st ticks = .ok t) (ht' : Assignment4.step.run st' ticks = .ok t') :
    ∃ texts, t.process.stdout = st.process.stdout ++ texts ∧
      t'.process.stdout = st'.process.stdout ++ texts := by
  induction ticks generalizing st st' with
  | nil =>
    obtain rfl := Except.ok.inj ht
    obtain rfl := Except.ok.inj ht'
    exact ⟨[], by simp, by simp⟩
  | cons u ticks ih =>
    obtain ⟨n, hn, ht⟩ := Assignment4.step.run_cons_eq_ok.mp ht
    obtain ⟨n', hn', ht'⟩ := Assignment4.step.run_cons_eq_ok.mp ht'
    obtain ⟨hview, texts, hout, hout'⟩ := h.step hsession.1 hn hn'
    obtain ⟨more, hmore, hmore'⟩ := ih hview (hsession.2 n hn) ht ht'
    refine ⟨texts ++ more, ?_, ?_⟩
    · rw [hmore, hout, List.append_assoc]
    · rw [hmore', hout', List.append_assoc]

/-- In any two runs of the script that lead to the menu of a member, with the same tasks of this
member and the same lines to read, what is printed until the member logs out is the same. -/
theorem run_confidential {stdin stdin' : List String} {ticks ticks' session : List Unit}
    {row : ℕ} {m : Account} {st st' t t' : State}
    (h : step.run (launch stdin) ticks = .ok st) (h' : step.run (launch stdin') ticks' = .ok st')
    (hm : st.globals.accounts[row]? = some m) (hrole : m.role = .teamMember)
    (hcontrol : st.control = .printMenu row) (hcontrol' : st'.control = .printMenu row)
    (hview : st.globals.viewTask row = st'.globals.viewTask row)
    (hstdin : st.process.stdin = st'.process.stdin)
    (hsession : step.Meets (fun st _ => InSession row st) st session)
    (ht : step.run st session = .ok t) (ht' : step.run st' session = .ok t') :
    ∃ texts, t.process.stdout = st.process.stdout ++ texts ∧
      t'.process.stdout = st'.process.stdout ++ texts :=
  have hframe : st.stack.head? = st'.stack.head? :=
    (run_whileTrue h hcontrol).trans (run_whileTrue h' hcontrol').symm
  SameView.run ⟨hcontrol.trans hcontrol'.symm, hframe, hstdin, hview, run_wellFormed h,
    run_wellFormed h', m, hm, hrole⟩ hsession ht ht'

/-- A leader assigns a task to Raj, and another to Andy or not; Raj looks at his tasks. -/
def Sample.looks (others : List String) : List String :=
  ["gaurav", "gaurav", "1", "20", "Write the report"] ++ others ++
    ["6", "raj", "raj", "1", "2", "1", "3", "1"]

theorem run_confidential_looks : ∃ st st' t t',
    step.run (launch (Sample.looks [])) (List.replicate 5 ()) = .ok st ∧
    step.run (launch (Sample.looks ["1", "21", "Order paper"])) (List.replicate 7 ()) = .ok st' ∧
    st.globals.tasks ≠ st'.globals.tasks ∧
    step.run st (List.replicate 5 ()) = .ok t ∧ step.run st' (List.replicate 5 ()) = .ok t' ∧
    ∃ texts, t.process.stdout = st.process.stdout ++ texts ∧
      t'.process.stdout = st'.process.stdout ++ texts := by
  refine ⟨_, _, _, _, rfl, rfl, by decide, rfl, rfl, ?_⟩
  refine @run_confidential (Sample.looks []) (Sample.looks ["1", "21", "Order paper"])
    (List.replicate 5 ()) (List.replicate 7 ()) (List.replicate 5 ()) 2 _ _ _ _ _ rfl rfl rfl rfl
    rfl rfl rfl rfl ?_ rfl rfl
  exact .cons ⟨rfl, .inl rfl⟩ rfl <| .cons ⟨rfl, .inr rfl⟩ rfl <| .cons ⟨rfl, .inl rfl⟩ rfl <|
    .cons ⟨rfl, .inr rfl⟩ rfl <| .cons ⟨rfl, .inl rfl⟩ rfl trivial

end Info6350.Assignment4
