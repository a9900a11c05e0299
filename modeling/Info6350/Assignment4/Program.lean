import Info6350.Library.Machine
import Info6350.Swift.Console
import Info6350.Assignment4.Tasks

/-! # The script as a machine

`loginMenu()` runs `account.printMenu()` in a loop that never ends, and Logout calls
`loginMenu()` from inside that loop.  A step of the machine runs one activation up to its
next call or return; the calls that are suspended are frames on a stack.
-/

namespace Info6350.Assignment4
open Library Swift Program

/-- What happens next: `loginMenu()` is called, `printMenu()` of the account at a row is called,
or the call on top has returned. -/
inductive Control where
  | loginMenu
  | printMenu (account : ℕ)
  | returned
deriving DecidableEq, Repr

/-- A suspended activation: `loginMenu()` in a call of itself after a failed login, `printMenu()`
in the call of `loginMenu()` for Logout, and `loginMenu()` in its loop over an account. -/
inductive Frame where
  | loginMenu
  | printMenu
  | whileTrue (account : ℕ)
deriving DecidableEq, Repr

/-! ## The menus -/

namespace TeamLeader

def createTask : Program Globals Unit := do
  print "\nEnter the account ID:"
  let accountID := (parseInt ((← readLine).getD "0")).getD 0
  print "\nEnter the task description:"
  let taskDescription := (← readLine).getD ""
  let g ← evaluate ((← globals).createTask accountID taskDescription)
  assign g

def updateDescTask : Program Globals Unit := do
  print "\nEnter the task ID:"
  let taskID := parseInt ((← readLine).getD "0")
  print "\nEnter the new description: "
  let updateDescription ← readLine
  assign ((← globals).updateDescTask taskID (updateDescription.getD ""))

def updateMemberTask : Program Globals Unit := do
  print "\nEnter the task ID:"
  let taskID := parseInt ((← readLine).getD "0")
  print "\nEnter the new member ID:"
  let memberId := parseInt ((← readLine).getD "0")
  let (g, texts) := (← globals).updateMemberTask taskID memberId
  assign g
  printAll texts

def viewTasks : Program Globals Unit := do
  print (descriptions (← globals).tasks)

def deleteTask : Program Globals Unit := do
  print "\nEnter the task ID:"
  let taskID := parseInt ((← readLine).getD "0")
  let (g, texts) := (← globals).deleteTask taskID
  assign g
  printAll texts

/-- The menu ends by returning or, for Logout, by a call of `loginMenu()`. -/
def printMenu : Program Globals Control := do
  print "\nTeam Leader Account"
  print "---------------------"
  print "Select an option: \n1. Create Task \n2. Update Description \n3. Update Assigned Member \n4. View Tasks \n5. Delete Task \n6. Logout \n7. Exit\n"
  let printOption := parseInt ((← readLine).getD "")
  match printOption with
  | some 1 => do createTask; return .returned
  | some 2 => do updateDescTask; return .returned
  | some 3 => do updateMemberTask; return .returned
  | some 4 => do viewTasks; return .returned
  | some 5 => do deleteTask; return .returned
  | some 6 => return .loginMenu
  | some 7 => Program.exit
  | _ => do
    print "Invalid input"
    print "Please select an option between 1 and 7\n"
    return .returned

end TeamLeader

namespace TeamMember

def viewTask (self : ℕ) : Program Globals Unit := do
  print (descriptions ((← globals).viewTask self))

def updateTaskStatus (self : ℕ) : Program Globals Unit := do
  print "\nEnter the task ID:"
  let taskID := parseInt ((← readLine).getD "0")
  print "\nEnter the status of the task: \n1. Todo \n2. Doing \n3. Done\n"
  let status := (parseInt ((← readLine).getD "0")).getD 1
  let g ← evaluate ((← globals).updateTaskStatus self taskID status)
  assign g

def printMenu (self : ℕ) : Program Globals Control := do
  print "\nTeam Menu Account"
  print "---------------------"
  print "\nSelect an option: \n1. View Task \n2. Update Task Status \n3. Logout \n4. Exit\n"
  let printOption := parseInt ((← readLine).getD "")
  match printOption with
  | some 1 => do viewTask self; return .returned
  | some 2 => do updateTaskStatus self; return .returned
  | some 3 => return .loginMenu
  | some 4 => Program.exit
  | _ => do
    print "Invalid input\n"
    return .returned

end TeamMember

/-- `printMenu()` of the class of an account. -/
def printMenu (role : AccountType) (self : ℕ) : Program Globals Control :=
  match role with
  | .teamLeader => TeamLeader.printMenu
  | .teamMember => TeamMember.printMenu self

/-- The start of `loginMenu()`: the row of the account whose loop it enters, or nothing when it
calls itself again. -/
def loginMenu : Program Globals (Option ℕ) := do
  print "Enter username:"
  let userName ← readLine
  print "Enter password:"
  let password ← readLine
  let accounts := (← globals).accounts
  match accounts.findIdx? fun a => some a.username = userName with
  | some row =>
    if (accounts[row]?.map Account.password) = password then return some row
    else do
      print "Invalid Password\n"
      return none
  | none => do
    print "Username does not exist\n"
    return none

/-! ## The machine -/

structure State where
  process : Process Globals
  control : Control
  stack : List Frame

/-- The script calls `loginMenu()` on an input. -/
def launch (stdin : List String) : State := ⟨⟨.initial, stdin, []⟩, .loginMenu, []⟩

/-- Run up to the next call or return. -/
def step : Machine State Unit Halt := fun st _ =>
  match st.control, st.stack with
  | .loginMenu, stack => do
    let (account, process) ← loginMenu st.process
    match account with
    | some row => return ⟨process, .printMenu row, .whileTrue row :: stack⟩
    | none => return ⟨process, .loginMenu, .loginMenu :: stack⟩
  | .printMenu row, stack => do
    let account ← (subscript st.process.globals.accounts row).mapError .trap
    let (control, process) ← printMenu account.role row st.process
    match control with
    | .loginMenu => return ⟨process, .loginMenu, .printMenu :: stack⟩
    | control => return ⟨process, control, stack⟩
  | .returned, .whileTrue row :: stack =>
    .ok { st with control := .printMenu row, stack := .whileTrue row :: stack }
  | .returned, _ :: stack => .ok { st with stack := stack }
  | .returned, [] => .error .exit

/-! ## The command that the next step executes -/

namespace TeamLeader

/-- The command that the lines typed at the menu make. -/
def command (lines : List String) : Command :=
  let first := lines.tail.head?
  let second := lines.tail.tail.head?
  match parseInt (lines.head?.getD "") with
  | some 1 => .createTask ((parseInt (first.getD "0")).getD 0) (second.getD "")
  | some 2 => .updateDescTask (parseInt (first.getD "0")) (second.getD "")
  | some 3 => .updateMemberTask (parseInt (first.getD "0")) (parseInt (second.getD "0"))
  | some 5 => .deleteTask (parseInt (first.getD "0"))
  | _ => .other

theorem printMenu_ok {p p' : Process Globals} {c : Control} (h : printMenu p = .ok (c, p')) :
    (command p.stdin).apply p.globals = .ok p'.globals ∧ (c = .loginMenu ∨ c = .returned) := by
  simp only [printMenu, print_bind, readLine_bind] at h
  unfold command
  generalize parseInt (p.stdin.head?.getD "") = printOption at h ⊢
  split at h
  case h_1 =>
    obtain ⟨_, q, hq, h⟩ := Program.bind_ok_iff.mp h
    obtain ⟨rfl, rfl⟩ := Program.pure_ok_iff.mp h
    obtain ⟨g, hg, hq⟩ := evaluate_bind_ok_iff.mp hq
    obtain ⟨-, rfl⟩ := Prod.mk.inj (Except.ok.inj hq)
    exact ⟨hg, .inr rfl⟩
  case h_7 => cases h
  case h_8 =>
    obtain ⟨rfl, rfl⟩ := Prod.mk.inj (Except.ok.inj h)
    refine ⟨?_, .inr rfl⟩
    split <;> first | contradiction | rfl
  all_goals
    obtain ⟨rfl, rfl⟩ := Prod.mk.inj (Except.ok.inj h)
    exact ⟨rfl, by simp⟩

end TeamLeader

namespace TeamMember

def command (self : ℕ) (lines : List String) : Command :=
  let first := lines.tail.head?
  let second := lines.tail.tail.head?
  match parseInt (lines.head?.getD "") with
  | some 2 =>
    .updateTaskStatus self (parseInt (first.getD "0")) ((parseInt (second.getD "0")).getD 1)
  | _ => .other

theorem printMenu_ok {self : ℕ} {p p' : Process Globals} {c : Control}
    (h : printMenu self p = .ok (c, p')) :
    (command self p.stdin).apply p.globals = .ok p'.globals ∧
      (c = .loginMenu ∨ c = .returned) := by
  simp only [printMenu, print_bind, readLine_bind] at h
  unfold command
  generalize parseInt (p.stdin.head?.getD "") = printOption at h ⊢
  split at h
  case h_2 =>
    obtain ⟨_, q, hq, h⟩ := Program.bind_ok_iff.mp h
    obtain ⟨rfl, rfl⟩ := Program.pure_ok_iff.mp h
    obtain ⟨g, hg, hq⟩ := evaluate_bind_ok_iff.mp hq
    obtain ⟨-, rfl⟩ := Prod.mk.inj (Except.ok.inj hq)
    exact ⟨hg, .inr rfl⟩
  case h_4 => cases h
  case h_5 =>
    obtain ⟨rfl, rfl⟩ := Prod.mk.inj (Except.ok.inj h)
    refine ⟨?_, .inr rfl⟩
    split <;> first | contradiction | rfl
  all_goals
    obtain ⟨rfl, rfl⟩ := Prod.mk.inj (Except.ok.inj h)
    exact ⟨rfl, by simp⟩

end TeamMember

namespace State

def globals (st : State) : Globals := st.process.globals

/-- The command that the next step executes, `other` if it executes none. -/
def command (st : State) : Command :=
  match st.control with
  | .printMenu row => match st.globals.accounts[row]? with
    | some account => match account.role with
      | .teamLeader => TeamLeader.command st.process.stdin
      | .teamMember => TeamMember.command row st.process.stdin
    | none => .other
  | _ => .other

/-- Only members update a status, each in the menu of its own account. -/
theorem command_updateTaskStatus {st : State} {self : ℕ} {taskID : Option ℤ} {status : ℤ}
    (h : st.command = .updateTaskStatus self taskID status) :
    st.control = .printMenu self ∧
      ∃ m, st.globals.accounts[self]? = some m ∧ m.role = .teamMember := by
  obtain ⟨p, control, stack⟩ := st
  cases control with
  | loginMenu => cases h
  | returned => cases h
  | printMenu row =>
    simp only [command] at h
    split at h
    case h_1 account haccount =>
      cases hrole : account.role with
      | teamLeader =>
        rw [hrole] at h
        simp only [TeamLeader.command] at h
        generalize parseInt _ = printOption at h
        split at h <;> cases h
      | teamMember =>
        rw [hrole] at h
        simp only [TeamMember.command] at h
        generalize parseInt (p.stdin.head?.getD "") = printOption at h
        split at h
        · obtain ⟨rfl, -, -⟩ := Command.updateTaskStatus.inj h
          exact ⟨rfl, account, haccount, hrole⟩
        · cases h
    case h_2 => cases h

end State

theorem loginMenu_ok {p p' : Process Globals} {account : Option ℕ}
    (h : loginMenu p = .ok (account, p')) :
    p'.globals = p.globals ∧ ∀ row, account = some row → ∃ a, p.globals.accounts[row]? = some a ∧
      p.stdin.head? = some a.username ∧ p.stdin.tail.head? = some a.password := by
  simp only [loginMenu, print_bind, readLine_bind, globals_bind] at h
  cases hfind : p.globals.accounts.findIdx? fun a => some a.username = p.stdin.head? with
  | none =>
    rw [hfind] at h
    obtain ⟨rfl, rfl⟩ := Prod.mk.inj (Except.ok.inj h)
    exact ⟨rfl, fun row hrow => by cases hrow⟩
  | some row =>
    obtain ⟨hlt, hname, -⟩ := List.findIdx?_eq_some_iff_getElem.mp hfind
    have hget := List.getElem?_eq_getElem hlt
    rw [hfind] at h
    simp only [hget, Option.map_some] at h
    split_ifs at h with hpassword
    · obtain ⟨rfl, rfl⟩ := Program.pure_ok_iff.mp h
      refine ⟨rfl, fun row' hrow' => ⟨_, Option.some.inj hrow' ▸ hget, ?_, hpassword.symm⟩⟩
      simpa [eq_comm] using hname
    · obtain ⟨rfl, rfl⟩ := Prod.mk.inj (Except.ok.inj h)
      exact ⟨rfl, fun row' hrow' => by cases hrow'⟩

theorem step_apply {st st' : State} {u : Unit} (h : step st u = .ok st') :
    st.command.apply st.globals = .ok st'.globals := by
  obtain ⟨p, control, stack⟩ := st
  cases control with
  | loginMenu =>
    obtain ⟨⟨account, q⟩, hq, h⟩ := bind_ok_iff.mp h
    obtain ⟨hglobals, -⟩ := loginMenu_ok hq
    cases account <;> obtain rfl := Except.ok.inj h <;> exact congrArg Except.ok hglobals.symm
  | printMenu row =>
    obtain ⟨account, haccount, h⟩ := bind_ok_iff.mp h
    obtain ⟨⟨control, q⟩, hq, h⟩ := bind_ok_iff.mp h
    have hrow : p.globals.accounts[row]? = some account :=
      (subscript_natCast _ _).mp (mapError_ok_iff.mp haccount)
    have hglobals : st'.globals = q.globals := by
      cases control <;> obtain rfl := Except.ok.inj h <;> rfl
    rw [hglobals]
    simp only [State.command, State.globals, hrow]
    cases hrole : account.role with
    | teamLeader =>
      rw [hrole] at hq
      exact (TeamLeader.printMenu_ok hq).1
    | teamMember =>
      rw [hrole] at hq
      exact (TeamMember.printMenu_ok hq).1
  | returned =>
    cases stack with
    | nil => cases h
    | cons frame stack => cases frame <;> obtain rfl := Except.ok.inj h <;> rfl

theorem step_effect {st st' : State} {u : Unit} (h : step st u = .ok st') :
    Effect st.globals st.command st'.globals :=
  Command.apply_effect (step_apply h)

theorem step_preserves_wellFormed :
    step.Preserves Machine.AnyStep fun st => st.globals.WellFormed :=
  fun _ _ _ hg _ h => (step_effect h).wellFormed hg

theorem run_wellFormed {stdin : List String} {ticks : List Unit} {st : State}
    (h : step.run (launch stdin) ticks = .ok st) : st.globals.WellFormed :=
  step_preserves_wellFormed.run_any (s := launch stdin) Globals.wellFormed_initial h

end Info6350.Assignment4
