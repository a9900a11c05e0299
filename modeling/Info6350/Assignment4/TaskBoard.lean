import Info6350.Assignment4.Logins

/-! # The script as a task board

A board maps ids to tasks and the ids of the accounts to their counts.  Only leaders create,
describe, assign and delete, and only members set a status, each at the cost of the own count.  The
commands that the script executes, logged with the login that they follow, make its board.
-/

namespace Info6350.Assignment4
open Library Swift Keyed

/-! ## The board -/

structure Board where
  tasks : ℤ → Option Task
  onGoing : ℤ → Option ℤ
  taskCount : ℤ

inductive Denied where
  | notLoggedIn
  | notATeamLeader
  | notATeamMember
deriving DecidableEq, Repr

/-- A command, and the username and the password of the login that it follows. -/
abbrev Entry := Option (String × String) × Command

namespace Board

/-- Change or remove the task with an id, if there is one. -/
def onTask (taskID : Option ℤ) (f : Task → Option Task) (b : Board) : Board :=
  { b with tasks := fun id => if taskID = some id then (b.tasks id).bind f else b.tasks id }

def Free (memberId : Option ℤ) (b : Board) : Prop := (memberId.bind b.onGoing).any (· < 2)

instance (memberId : Option ℤ) (b : Board) : Decidable (b.Free memberId) :=
  inferInstanceAs (Decidable (_ = true))

def lead : Command → Board → Except Denied Board
  | .createTask member desc, b => .ok { b with
      tasks := Function.update b.tasks (b.taskCount + 1)
        (some ⟨desc, .todo, b.taskCount + 1, member⟩)
      taskCount := b.taskCount + 1 }
  | .updateDescTask taskID desc, b => .ok (b.onTask taskID fun t => some { t with desc := desc })
  | .updateMemberTask taskID memberId, b => .ok (b.onTask taskID fun t =>
      if b.Free memberId ∧ t.status = .todo then some { t with assignedMember := memberId.getD 0 }
      else some t)
  | .deleteTask taskID, b => .ok (b.onTask taskID fun t =>
      if t.status = .doing then some t else none)
  | .updateTaskStatus _ _ _, _ => .error .notATeamMember
  | .other, b => .ok b

def addCount (member n : ℤ) (b : Board) : Board :=
  { b with onGoing := Function.update b.onGoing member ((b.onGoing member).map (· + n)) }

def work (member : ℤ) : Command → Board → Except Denied Board
  | .updateTaskStatus _ taskID status, b =>
    let statusEnum := (TaskStatus.ofRawValue status).getD .todo
    .ok (if (taskID.bind b.tasks).isSome then
        (b.onTask taskID fun t => some { t with status := statusEnum }).addCount member
          (if statusEnum = .doing then 1 else -1)
      else b)
  | .other, b => .ok b
  | _, _ => .error .notATeamLeader

/-- A command after a login with a username and a password. -/
def act : Machine Board Entry Denied := fun b (login, c) =>
  match Globals.initial.accounts.find? fun a => some (a.username, a.password) = login with
  | some account => match account.role with
    | .teamLeader => lead c b
    | .teamMember => work account.id c b
  | none => .error .notLoggedIn

theorem onTask_none {taskID : Option ℤ} {b : Board} (h : taskID.bind b.tasks = none)
    (f : Task → Option Task) : b.onTask taskID f = b := by
  cases taskID with
  | none => rfl
  | some k =>
    have hk : b.tasks k = none := h
    have htasks : (fun id => if some k = some id then (b.tasks id).bind f else b.tasks id) =
        b.tasks := by
      ext1 id
      split_ifs with hid
      · obtain rfl := Option.some.inj hid
        rw [hk]
        rfl
      · rfl
    rw [onTask, htasks]

theorem onTask_some {k : ℤ} {t : Task} {b : Board} (h : b.tasks k = some t)
    (f : Task → Option Task) :
    b.onTask (some k) f = { b with tasks := Function.update b.tasks k (f t) } := by
  have htasks : (fun id => if some k = some id then (b.tasks id).bind f else b.tasks id) =
      Function.update b.tasks k (f t) := by
    ext1 id
    by_cases hid : id = k
    · subst hid
      simp [h]
    · simp [hid, Ne.symm hid]
  rw [onTask, htasks]

theorem onTask_self {k : ℤ} {t : Task} {b : Board} (h : b.tasks k = some t)
    {f : Task → Option Task} (hf : f t = some t) : b.onTask (some k) f = b := by
  rw [onTask_some h, hf, ← h, Function.update_eq_self]

end Board

/-! ## The globals as a board -/

namespace Globals
variable {g : Globals} {taskID : Option ℤ} {i : ℕ} {t : Task}

/-- The maps that the arrays represent. -/
def board (g : Globals) : Board where
  tasks := lookup g.tasks
  onGoing id := (lookup g.accounts id).map Account.onGoingTaskCount
  taskCount := g.taskCount

theorem WellFormed.lookup_found (hg : g.WellFormed) (h : g.found taskID = some (i, t)) :
    taskID = some t.id ∧ g.board.tasks t.id = some t := by
  obtain ⟨rfl, ht⟩ := found_some h
  exact ⟨rfl, hg.tasks.lookup_eq_some_iff.mpr ⟨List.mem_of_getElem? ht, rfl⟩⟩

theorem lookup_of_not_found (h : g.found taskID = none) : taskID.bind g.board.tasks = none := by
  cases taskID with
  | none => rfl
  | some id =>
    refine lookup_eq_none_iff.mpr fun hid => ?_
    obtain ⟨j, hj⟩ := Option.isSome_iff_exists.mp (firstIndex_isSome_iff.mpr hid)
    obtain ⟨x, hx, -⟩ := firstIndex_some hj
    simp [found, hj, hx] at h

theorem WellFormed.board_setTask (hg : g.WellFormed) (h : g.found taskID = some (i, t))
    {f : Task → Option Task} {t' : Task} (hf : f t = some t') (hid : t'.id = t.id) :
    (g.setTask i t').board = g.board.onTask taskID f := by
  obtain ⟨rfl, ht⟩ := hg.lookup_found h
  have hlegal : (Edit.update i t').Legal g.tasks := ⟨t, (found_some h).2, hid.symm⟩
  have hlookup : lookup (g.tasks.set i t') = Function.update (lookup g.tasks) t.id (some t') :=
    hid ▸ Edit.lookup_onList hg.tasks hlegal
  rw [Board.onTask_some ht, hf]
  exact congrArg (fun tasks => { g.board with tasks := tasks }) hlookup

theorem WellFormed.board_eraseIdx (hg : g.WellFormed) (h : g.found taskID = some (i, t))
    {f : Task → Option Task} (hf : f t = none) :
    Globals.board { g with tasks := g.tasks.eraseIdx i } = g.board.onTask taskID f := by
  obtain ⟨rfl, ht⟩ := hg.lookup_found h
  have hrow := (found_some h).2
  have hlegal : (Edit.delete i).Legal g.tasks := (List.getElem?_eq_some_iff.mp hrow).1
  have hlookup := Edit.lookup_onList hg.tasks hlegal
  simp only [Edit.onList, Edit.onView, hrow, key_task] at hlookup
  rw [Board.onTask_some ht, hf]
  exact congrArg (fun tasks => { g.board with tasks := tasks }) hlookup

theorem WellFormed.board_createTask (hg : g.WellFormed) (accountID : ℤ) (desc : String) :
    Board.lead (.createTask accountID desc) g.board = .ok (Globals.board
      ⟨g.accounts, g.tasks ++ [⟨desc, .todo, g.taskCount + 1, accountID⟩], g.taskCount + 1⟩) := by
  let task : Task := ⟨desc, .todo, g.taskCount + 1, accountID⟩
  have hfresh : (Edit.create task).Legal g.tasks := by
    intro hmem
    obtain ⟨t, ht, hid⟩ := mem_keys.mp hmem
    have hle : t.id ≤ g.taskCount := hg.generated t ht
    have hid : t.id = g.taskCount + 1 := hid
    omega
  have hlookup := Edit.lookup_onList hg.tasks hfresh
  exact congrArg (fun tasks => Except.ok (Board.mk tasks g.board.onGoing (g.taskCount + 1)))
    hlookup.symm

theorem WellFormed.board_updateDescTask (hg : g.WellFormed) (taskID : Option ℤ) (desc : String) :
    Board.lead (.updateDescTask taskID desc) g.board =
      .ok (g.updateDescTask taskID desc).board := by
  unfold updateDescTask
  split
  case h_1 i t hfound =>
    exact congrArg Except.ok
      (hg.board_setTask (f := fun t => some { t with desc := desc }) hfound rfl rfl).symm
  case h_2 hfound => exact congrArg Except.ok (Board.onTask_none (lookup_of_not_found hfound) _)

theorem board_onTask_of_not_free {memberId : Option ℤ} (hfree : ¬ g.board.Free memberId)
    (hg : g.WellFormed) : Board.lead (.updateMemberTask taskID memberId) g.board = .ok g.board := by
  refine congrArg Except.ok ?_
  cases hfound : g.found taskID with
  | none => exact Board.onTask_none (lookup_of_not_found hfound) _
  | some found =>
    obtain ⟨rfl, ht⟩ := hg.lookup_found hfound
    exact Board.onTask_self ht (if_neg fun h => hfree h.1)

theorem WellFormed.board_updateMemberTask (hg : g.WellFormed) (taskID memberId : Option ℤ) :
    Board.lead (.updateMemberTask taskID memberId) g.board =
      .ok (g.updateMemberTask taskID memberId).1.board := by
  unfold updateMemberTask
  split
  case h_2 hmember =>
    refine board_onTask_of_not_free ?_ hg
    cases memberId with
    | none => simp [Board.Free]
    | some id => simp [Board.Free, board, show lookup g.accounts id = none from hmember]
  case h_1 account hmember =>
    obtain ⟨id, rfl, hid⟩ := Option.bind_eq_some_iff.mp hmember
    have hfree : g.board.Free (some id) ↔ account.onGoingTaskCount < 2 := by
      simp [Board.Free, board, hid]
    split_ifs with hcount
    · exact board_onTask_of_not_free (hfree.not.mpr (not_lt.mpr hcount)) hg
    split
    case h_2 hfound => exact congrArg Except.ok (Board.onTask_none (lookup_of_not_found hfound) _)
    case h_1 i t hfound =>
      refine congrArg Except.ok ?_
      split_ifs with hstatus
      · have hassign : g.board.Free (some id) ∧ t.status = .todo :=
          ⟨hfree.mpr (not_le.mp hcount), hstatus⟩
        have hassigned : (if g.board.Free (some id) ∧ t.status = .todo then
            some { t with assignedMember := id } else some t) =
              some { t with assignedMember := id } := if_pos hassign
        refine (hg.board_setTask hfound hassigned ?_).symm
        rfl
      · obtain ⟨rfl, ht⟩ := hg.lookup_found hfound
        exact Board.onTask_self ht (if_neg fun h => hstatus h.2)

theorem WellFormed.board_deleteTask (hg : g.WellFormed) (taskID : Option ℤ) :
    Board.lead (.deleteTask taskID) g.board = .ok (g.deleteTask taskID).1.board := by
  refine congrArg Except.ok ?_
  unfold deleteTask
  split
  case h_2 hfound => exact Board.onTask_none (lookup_of_not_found hfound) _
  case h_1 i t hfound =>
    split_ifs with hstatus
    · exact (hg.board_eraseIdx hfound (if_neg hstatus)).symm
    · obtain ⟨rfl, ht⟩ := hg.lookup_found hfound
      exact Board.onTask_self ht (if_pos (not_not.mp hstatus))

theorem WellFormed.board_setAccount (hg : g.WellFormed) {self : ℕ} {a : Account}
    (ha : g.accounts[self]? = some a) (n : ℤ) :
    Globals.board { g with
      accounts := g.accounts.set self { a with onGoingTaskCount := a.onGoingTaskCount + n } } =
        g.board.addCount a.id n := by
  let account : Account := { a with onGoingTaskCount := a.onGoingTaskCount + n }
  have hlegal : (Edit.update self account).Legal g.accounts := ⟨a, ha, rfl⟩
  have hlookup := Edit.lookup_onList hg.distinct_accounts hlegal
  have hself : lookup g.accounts a.id = some a :=
    hg.distinct_accounts.lookup_eq_some_iff.mpr ⟨List.mem_of_getElem? ha, rfl⟩
  have honGoing : (fun id => (lookup (g.accounts.set self account) id).map
      Account.onGoingTaskCount) = (g.board.addCount a.id n).onGoing := by
    ext1 id
    change Option.map _ (lookup ((Edit.update self account).onList g.accounts) id) = _
    rw [hlookup]
    by_cases hid : id = a.id
    · subst hid
      simp [Edit.onView, Board.addCount, board, hself, account]
    · simp [Edit.onView, Board.addCount, board, hid, account]
  exact congrArg (fun onGoing => Board.mk (lookup g.tasks) onGoing g.taskCount) honGoing

theorem WellFormed.board_updateTaskStatus (hg : g.WellFormed) {g' : Globals} {self : ℕ}
    {a : Account} (ha : g.accounts[self]? = some a) {status : ℤ}
    (h : g.updateTaskStatus self taskID status = .ok g') :
    Board.work a.id (.updateTaskStatus self taskID status) g.board = .ok g'.board := by
  refine congrArg Except.ok ?_
  rcases updateTaskStatus_ok h with ⟨hfound, rfl⟩ | ⟨i, t, account, hfound, haccount, rfl⟩
  · rw [lookup_of_not_found hfound]
    rfl
  · obtain rfl : a = account := Option.some.inj (ha.symm.trans haccount)
    obtain ⟨rfl, ht⟩ := hg.lookup_found hfound
    have hisSome : ((some t.id).bind g.board.tasks).isSome := Option.isSome_of_eq_some ht
    let task : Task := { t with status := (TaskStatus.ofRawValue status).getD .todo }
    have hset : (g.setTask i task).WellFormed := hg.setTask (found_some hfound).2 task rfl
    have hboard : (g.setTask i task).board = g.board.onTask (some t.id) fun t =>
        some { t with status := (TaskStatus.ofRawValue status).getD .todo } := by
      refine hg.board_setTask hfound ?_ ?_ <;> rfl
    rw [if_pos hisSome, ← hboard]
    exact (hset.board_setAccount ha _).symm

end Globals

/-! ## The log -/

def Command.OfferedTo (role : AccountType) (row : ℕ) : Command → Prop
  | .updateTaskStatus self _ _ => role = .teamMember ∧ self = row
  | .other => True
  | _ => role = .teamLeader

theorem TeamLeader.command_offered (lines : List String) (row : ℕ) :
    (TeamLeader.command lines).OfferedTo .teamLeader row := by
  unfold TeamLeader.command
  split <;> first | exact rfl | trivial

theorem TeamMember.command_offered (self : ℕ) (lines : List String) :
    (TeamMember.command self lines).OfferedTo .teamMember self := by
  unfold TeamMember.command
  split
  · exact ⟨rfl, rfl⟩
  · trivial

theorem State.command_offered {st : State} {row : ℕ} {a : Account}
    (hcontrol : st.control = .printMenu row) (ha : st.globals.accounts[row]? = some a) :
    st.command.OfferedTo a.role row := by
  simp only [command, hcontrol, ha]
  cases hrole : a.role with
  | teamLeader => exact TeamLeader.command_offered _ row
  | teamMember => exact TeamMember.command_offered row _

theorem Globals.WellFormed.find_login {g : Globals} (hg : g.WellFormed) {row : ℕ} {a : Account}
    (ha : g.accounts[row]? = some a) :
    (Globals.initial.accounts.find? fun b =>
      some (b.username, b.password) = some (a.username, a.password)) = some a.identity := by
  have hmem : a.identity ∈ Globals.initial.accounts.map Account.identity :=
    hg.accounts ▸ List.mem_map_of_mem (List.mem_of_getElem? ha)
  have hfind : ∀ a ∈ Globals.initial.accounts.map Account.identity,
      (Globals.initial.accounts.find? fun b =>
        some (b.username, b.password) = some (a.username, a.password)) = some a := by decide
  exact hfind a.identity hmem

/-- A command that the menu of an account offers does to the board what it does to the globals. -/
theorem Board.act_command {g g' : Globals} (hg : g.WellFormed) {row : ℕ} {a : Account}
    (ha : g.accounts[row]? = some a) {c : Command} (hc : c.OfferedTo a.role row)
    (h : c.apply g = .ok g') :
    Board.act g.board (some (a.username, a.password), c) = .ok g'.board := by
  simp only [act, hg.find_login ha]
  change (match a.role with
    | .teamLeader => lead c g.board
    | .teamMember => work a.id c g.board) = .ok g'.board
  cases c with
  | createTask accountID desc =>
    obtain ⟨-, rfl⟩ := createTask_ok h
    rw [show a.role = .teamLeader from hc]
    exact hg.board_createTask accountID desc
  | updateDescTask taskID desc =>
    obtain rfl := Except.ok.inj h
    rw [show a.role = .teamLeader from hc]
    exact hg.board_updateDescTask taskID desc
  | updateMemberTask taskID memberId =>
    obtain rfl := Except.ok.inj h
    rw [show a.role = .teamLeader from hc]
    exact hg.board_updateMemberTask taskID memberId
  | deleteTask taskID =>
    obtain rfl := Except.ok.inj h
    rw [show a.role = .teamLeader from hc]
    exact hg.board_deleteTask taskID
  | updateTaskStatus self taskID status =>
    obtain ⟨hrole, rfl⟩ := hc
    rw [hrole]
    exact hg.board_updateTaskStatus ha h
  | other =>
    obtain rfl := Except.ok.inj h
    cases a.role <;> rfl

/-- Log the command that a step executes, with the last login. -/
def recordCommand (s : State × Option (String × String)) (_ : Unit)
    (_ : State × Option (String × String)) (log : List Entry) : List Entry :=
  if s.1.command = .other then log else log ++ [(s.2, s.1.command)]

def auditStep : Machine ((State × Option (String × String)) × List Entry) Unit Halt :=
  loginStep.withHistory recordCommand

theorem auditStep_preserves_replayed : auditStep.Preserves Machine.AnyStep fun s =>
    Attributed s.1 ∧ Board.act.run Globals.initial.board s.2 = .ok s.1.1.globals.board := by
  rintro ⟨⟨st, last⟩, log⟩ u ⟨⟨st', last'⟩, log'⟩ ⟨hst, hlog⟩ - h
  obtain ⟨hlogin, hrecord⟩ := (Machine.withHistory_ok_iff _ _).mp h
  obtain rfl : log' = recordCommand (st, last) u (st', last') log := hrecord
  refine ⟨loginStep_preserves_attributed _ u _ hst trivial hlogin, ?_⟩
  have happly := step_apply ((Machine.withHistory_ok_iff _ _).mp hlogin).1
  unfold recordCommand
  split_ifs with hother
  · rw [show st.command = .other from hother] at happly
    exact Except.ok.inj happly ▸ hlog
  · -- a command is executed from the menu of the account of the last login
    obtain ⟨row, hcontrol⟩ := State.control_of_command hother
    obtain ⟨row', stack, -, hrow, a, ha, rfl, -⟩ := hst.2.resolve_left
      fun hlogin => by cases hcontrol.symm.trans hlogin
    obtain rfl := hrow row hcontrol
    rw [Machine.run_append, hlog]
    exact (Machine.run_singleton ..).trans
      (Board.act_command hst.1 ha (State.command_offered hcontrol ha) happly)

/-- The log of every run can be replayed on the board without a denial, and makes the board of the
script. -/
theorem run_replaysLog {stdin : List String} {ticks : List Unit} {st : State}
    {last : Option (String × String)} {log : List Entry}
    (h : auditStep.run ((launch stdin, none), []) ticks = .ok ((st, last), log)) :
    Board.act.run Globals.initial.board log = .ok st.globals.board :=
  (auditStep_preserves_replayed.run_any (s := ((launch stdin, none), []))
    ⟨⟨Globals.wellFormed_initial, .inl rfl⟩, rfl⟩ h).2

/-- Gaurav creates a task for Andy, which Raj begins, so that it cannot be deleted. -/
def Sample.deleteOngoing : List String :=
  ["gaurav", "gaurav", "1", "21", "Plan", "6", "raj", "raj", "2", "1", "2", "3",
    "gaurav", "gaurav", "5", "1"]

theorem run_replaysLog_deleteOngoing : ∃ st last log,
    auditStep.run ((launch Sample.deleteOngoing, none), []) (List.replicate 10 ()) =
        .ok ((st, last), log) ∧
      log = [(some ("gaurav", "gaurav"), .createTask 21 "Plan"),
        (some ("raj", "raj"), .updateTaskStatus 2 (some 1) 2),
        (some ("gaurav", "gaurav"), .deleteTask (some 1))] ∧
      st.globals.board.tasks 1 = some ⟨"Plan", .doing, 1, 21⟩ ∧
      Board.act.run Globals.initial.board log = .ok st.globals.board :=
  ⟨_, _, _, rfl, by decide +kernel, by decide +kernel,
    @run_replaysLog Sample.deleteOngoing (List.replicate 10 ()) _ _ _ rfl⟩

end Info6350.Assignment4
