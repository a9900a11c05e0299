import Info6350.Library.Keyed
import Info6350.Swift.Basic

/-! # Accounts and tasks

The classes of the task manager, its global variables, and what each command does to
them once its inputs are read.  An account is an object that the array `accounts` holds
from the start; it is referred to by its row there.
-/

namespace Info6350.Assignment4
open Library Swift Keyed

inductive AccountType where
  | teamLeader
  | teamMember
deriving DecidableEq, Repr

structure Account where
  role : AccountType
  id : ℤ
  username : String
  password : String
  displayName : String
  onGoingTaskCount : ℤ := 0
deriving DecidableEq, Repr

inductive TaskStatus where
  | todo
  | doing
  | done
deriving DecidableEq, Repr

/-- `Task.taskStatus(rawValue:)`. -/
def TaskStatus.ofRawValue (rawValue : ℤ) : Option TaskStatus :=
  if rawValue = 1 then some .todo
  else if rawValue = 2 then some .doing
  else if rawValue = 3 then some .done
  else none

def TaskStatus.name : TaskStatus → String
  | todo => "todo"
  | doing => "doing"
  | done => "done"

structure Task where
  desc : String
  status : TaskStatus
  id : ℤ
  assignedMember : ℤ
deriving DecidableEq, Repr

def Task.description (t : Task) : String :=
  "Task ID: " ++ toString t.id ++ " \nDescription: " ++ t.desc ++ " \nMember: " ++
    toString t.assignedMember ++ " \nStatus: " ++ t.status.name

/-- What `print` shows of an array of tasks. -/
def descriptions (tasks : List Task) : String :=
  "[" ++ ", ".intercalate (tasks.map Task.description) ++ "]"

instance : Keyed Account ℤ := ⟨Account.id⟩
instance : Keyed Task ℤ := ⟨Task.id⟩

@[simp] theorem key_task (t : Task) : key t = t.id := rfl
@[simp] theorem key_account (a : Account) : key a = a.id := rfl

structure Globals where
  accounts : List Account
  tasks : List Task
  taskCount : ℤ
deriving DecidableEq, Repr

/-- The globals when the script first calls `loginMenu()`. -/
def Globals.initial : Globals where
  accounts := [
    { role := .teamLeader, id := 10, username := "gaurav", password := "gaurav",
      displayName := "Gaurav" },
    { role := .teamLeader, id := 11, username := "kanishk", password := "kanishk",
      displayName := "Kanishk" },
    { role := .teamMember, id := 20, username := "raj", password := "raj",
      displayName := "Raj" },
    { role := .teamMember, id := 21, username := "andy", password := "andy",
      displayName := "Andy" }]
  tasks := []
  taskCount := 0

/-! ## The commands -/

namespace Globals

/-- `tasks.firstIndex(where: {$0.id == taskID})`, with the task at this index. -/
def found (taskID : Option ℤ) (g : Globals) : Option (ℕ × Task) :=
  (taskID.bind (firstIndex g.tasks)).bind fun i => g.tasks[i]?.map fun t => (i, t)

theorem found_some {taskID : Option ℤ} {g : Globals} {i : ℕ} {t : Task}
    (h : g.found taskID = some (i, t)) : taskID = some t.id ∧ g.tasks[i]? = some t := by
  obtain ⟨j, hj, ht⟩ := Option.bind_eq_some_iff.mp h
  obtain ⟨id, rfl, hid⟩ := Option.bind_eq_some_iff.mp hj
  obtain ⟨t', ht', heq⟩ := Option.map_eq_some_iff.mp ht
  obtain ⟨rfl, rfl⟩ := Prod.mk.inj heq
  obtain ⟨x, hx, rfl⟩ := firstIndex_some hid
  obtain rfl : x = t' := Option.some.inj (hx.symm.trans ht')
  exact ⟨rfl, hx⟩

def setTask (i : ℕ) (t : Task) (g : Globals) : Globals := { g with tasks := g.tasks.set i t }

def generateTaskId (g : Globals) : Except Trap (ℤ × Globals) := do
  let taskCount ← addInt g.taskCount 1
  return (taskCount, { g with taskCount := taskCount })

/-- `createTask` does not look at `accounts`. -/
def createTask (accountID : ℤ) (taskDescription : String) (g : Globals) : Except Trap Globals := do
  let (id, g) ← g.generateTaskId
  return { g with tasks := g.tasks ++ [⟨taskDescription, .todo, id, accountID⟩] }

def updateDescTask (taskID : Option ℤ) (updateDescription : String) (g : Globals) : Globals :=
  match g.found taskID with
  | some (taskIndex, task) => g.setTask taskIndex { task with desc := updateDescription }
  | none => g

def updateMemberTask (taskID memberId : Option ℤ) (g : Globals) : Globals × List String :=
  match memberId.bind (lookup g.accounts) with
  | some account =>
    if account.onGoingTaskCount ≥ 2 then (g, ["Cannot assign a new task\n"])
    else match g.found taskID with
      | some (taskIndex, task) =>
        if task.status = .todo then
          (g.setTask taskIndex { task with assignedMember := memberId.getD 0 }, [])
        else (g, ["Cannot change status of the on-going or done task\n"])
      | none => (g, ["Invalid account ID\n"])
  | none => (g, [])

def deleteTask (taskID : Option ℤ) (g : Globals) : Globals × List String :=
  match g.found taskID with
  | some (taskIndex, task) =>
    if task.status ≠ .doing then
      ({ g with tasks := g.tasks.eraseIdx taskIndex }, ["Delete Successful\n"])
    else (g, ["Cannot delete on-going task\n"])
  | none => (g, ["Enter a valid task id\n"])

/-- `viewTask` of the account at the row `self`. -/
def viewTask (self : ℕ) (g : Globals) : List Task :=
  match g.accounts[self]? with
  | some account => g.tasks.filter fun t => t.assignedMember = account.id
  | none => []

/-- `updateTaskStatus` of the account at the row `self`, which neither compares the owner of
the task nor its old status. -/
def updateTaskStatus (self : ℕ) (taskID : Option ℤ) (status : ℤ) (g : Globals) :
    Except Trap Globals :=
  match g.found taskID with
  | some (taskIndex, task) => do
    let statusEnum := (TaskStatus.ofRawValue status).getD .todo
    let g := g.setTask taskIndex { task with status := statusEnum }
    let account ← subscript g.accounts self
    let count ← addInt account.onGoingTaskCount (if statusEnum = .doing then 1 else -1)
    return { g with accounts := g.accounts.set self { account with onGoingTaskCount := count } }
  | none => .ok g

end Globals

/-- A command with its inputs.  `other` stands for what leaves the globals alone: viewing tasks,
logging out, an option that is not on the menu. -/
inductive Command where
  | createTask (accountID : ℤ) (taskDescription : String)
  | updateDescTask (taskID : Option ℤ) (updateDescription : String)
  | updateMemberTask (taskID memberId : Option ℤ)
  | deleteTask (taskID : Option ℤ)
  | updateTaskStatus (self : ℕ) (taskID : Option ℤ) (status : ℤ)
  | other
deriving DecidableEq, Repr

def Command.apply : Command → Globals → Except Trap Globals
  | createTask accountID taskDescription, g => g.createTask accountID taskDescription
  | updateDescTask taskID updateDescription, g => .ok (g.updateDescTask taskID updateDescription)
  | updateMemberTask taskID memberId, g => .ok (g.updateMemberTask taskID memberId).1
  | deleteTask taskID, g => .ok (g.deleteTask taskID).1
  | updateTaskStatus self taskID status, g => g.updateTaskStatus self taskID status
  | other, g => .ok g

/-! ## Their effects -/

inductive Effect (g : Globals) : Command → Globals → Prop where
  | stay (c) : Effect g c g
  | create (accountID desc) : InRange (g.taskCount + 1) →
      Effect g (.createTask accountID desc)
        ⟨g.accounts, g.tasks ++ [⟨desc, .todo, g.taskCount + 1, accountID⟩], g.taskCount + 1⟩
  | describe (taskID desc i t) : g.found taskID = some (i, t) →
      Effect g (.updateDescTask taskID desc) (g.setTask i { t with desc := desc })
  | assign (taskID i t account) : account ∈ g.accounts → account.onGoingTaskCount < 2 →
      g.found taskID = some (i, t) → t.status = .todo →
      Effect g (.updateMemberTask taskID (some account.id))
        (g.setTask i { t with assignedMember := account.id })
  | delete (taskID i t) : g.found taskID = some (i, t) → t.status ≠ .doing →
      Effect g (.deleteTask taskID) { g with tasks := g.tasks.eraseIdx i }
  | setStatus (self taskID status i t statusEnum account count) : g.found taskID = some (i, t) →
      statusEnum = (TaskStatus.ofRawValue status).getD .todo →
      g.accounts[self]? = some account →
      count = account.onGoingTaskCount + (if statusEnum = .doing then 1 else -1) →
      Effect g (.updateTaskStatus self taskID status)
        ⟨g.accounts.set self { account with onGoingTaskCount := count },
          g.tasks.set i { t with status := statusEnum }, g.taskCount⟩

variable {g g' : Globals}

theorem createTask_ok {accountID : ℤ} {desc : String} (h : g.createTask accountID desc = .ok g') :
    InRange (g.taskCount + 1) ∧
      g' = ⟨g.accounts, g.tasks ++ [⟨desc, .todo, g.taskCount + 1, accountID⟩],
        g.taskCount + 1⟩ := by
  obtain ⟨⟨id, g₁⟩, hid, h⟩ := bind_ok_iff.mp h
  obtain ⟨n, hn, hid⟩ := bind_ok_iff.mp hid
  obtain ⟨hrange, rfl⟩ := addInt_ok_iff.mp hn
  obtain ⟨rfl, rfl⟩ := Prod.mk.inj (pure_ok_iff.mp hid)
  exact ⟨hrange, (pure_ok_iff.mp h).symm⟩

/-- The update goes through when the counter allows it and the task is not begun. -/
theorem updateMemberTask_of_todo {taskID : Option ℤ} {m : Account} {i : ℕ} {t : Task}
    (hm : lookup g.accounts m.id = some m) (hcount : m.onGoingTaskCount < 2)
    (hfound : g.found taskID = some (i, t)) (hstatus : t.status = .todo) :
    (g.updateMemberTask taskID (some m.id)).1 = g.setTask i { t with assignedMember := m.id } := by
  simp [Globals.updateMemberTask, hm, not_le.mpr hcount, hfound, hstatus]

theorem updateMemberTask_effect (taskID memberId : Option ℤ) :
    Effect g (.updateMemberTask taskID memberId) (g.updateMemberTask taskID memberId).1 := by
  unfold Globals.updateMemberTask
  split
  case h_1 account haccount =>
    obtain ⟨id, rfl, hid⟩ := Option.bind_eq_some_iff.mp haccount
    obtain ⟨hmem, rfl⟩ := lookup_some hid
    split_ifs with hcount
    · exact .stay _
    · split
      case h_1 i t hfound =>
        split_ifs with hstatus
        · exact .assign taskID i t account hmem (not_le.mp hcount) hfound hstatus
        · exact .stay _
      case h_2 => exact .stay _
  case h_2 => exact .stay _

theorem updateTaskStatus_ok {self : ℕ} {taskID : Option ℤ} {status : ℤ}
    (h : g.updateTaskStatus self taskID status = .ok g') :
    g.found taskID = none ∧ g' = g ∨ ∃ i t account, g.found taskID = some (i, t) ∧
      g.accounts[self]? = some account ∧
      g' = ⟨g.accounts.set self { account with
          onGoingTaskCount := account.onGoingTaskCount +
            (if (TaskStatus.ofRawValue status).getD .todo = .doing then 1 else -1) },
        g.tasks.set i { t with status := (TaskStatus.ofRawValue status).getD .todo },
        g.taskCount⟩ := by
  unfold Globals.updateTaskStatus at h
  split at h
  case h_1 i t hfound =>
    obtain ⟨account, haccount, h⟩ := bind_ok_iff.mp h
    obtain ⟨count, hcount, h⟩ := bind_ok_iff.mp h
    obtain ⟨-, rfl⟩ := addInt_ok_iff.mp hcount
    obtain rfl := pure_ok_iff.mp h
    exact .inr ⟨i, t, account, hfound, (subscript_natCast _ _).mp haccount, rfl⟩
  case h_2 hfound => exact .inl ⟨hfound, (Except.ok.inj h).symm⟩

theorem Command.apply_effect {c : Command} (h : c.apply g = .ok g') : Effect g c g' := by
  cases c with
  | createTask accountID desc =>
    obtain ⟨hrange, rfl⟩ := createTask_ok h
    exact .create accountID desc hrange
  | updateDescTask taskID desc =>
    obtain rfl := Except.ok.inj h
    unfold Globals.updateDescTask
    split
    case h_1 i t hfound => exact .describe taskID desc i t hfound
    case h_2 => exact .stay _
  | updateMemberTask taskID memberId =>
    obtain rfl := Except.ok.inj h
    exact updateMemberTask_effect taskID memberId
  | deleteTask taskID =>
    obtain rfl := Except.ok.inj h
    unfold Globals.deleteTask
    split
    case h_1 i t hfound =>
      split_ifs with hstatus
      · exact .delete taskID i t hfound hstatus
      · exact .stay _
    case h_2 => exact .stay _
  | updateTaskStatus self taskID status =>
    rcases updateTaskStatus_ok h with ⟨-, rfl⟩ | ⟨i, t, account, hfound, haccount, rfl⟩
    · exact .stay _
    · exact .setStatus self taskID status i t _ account _ hfound rfl haccount rfl
  | other => exact Except.ok.inj h ▸ .stay _

/-! ## What every command keeps -/

/-- An account without its counter. -/
def Account.identity (a : Account) : Account := { a with onGoingTaskCount := 0 }

/-- The accounts are the initial ones but for their counters, and the task ids are distinct and
were all generated. -/
structure Globals.WellFormed (g : Globals) : Prop where
  accounts : g.accounts.map Account.identity = Globals.initial.accounts.map Account.identity
  tasks : Distinct g.tasks
  generated : ∀ t ∈ g.tasks, t.id ≤ g.taskCount

namespace Globals

theorem wellFormed_initial : Globals.initial.WellFormed :=
  ⟨rfl, Distinct.nil, fun _ ht => absurd ht List.not_mem_nil⟩

theorem WellFormed.keys_accounts (h : g.WellFormed) : keys g.accounts = [10, 11, 20, 21] := by
  have hids : keys g.accounts = (g.accounts.map Account.identity).map Account.id := by
    rw [List.map_map]
    rfl
  rw [hids, h.accounts]
  rfl

theorem WellFormed.distinct_accounts (h : g.WellFormed) : Distinct g.accounts := by
  unfold Distinct
  rw [h.keys_accounts]
  decide

theorem WellFormed.setTask (h : g.WellFormed) {i : ℕ} {t : Task} (ht : g.tasks[i]? = some t)
    (t' : Task) (hid : t'.id = t.id) : (g.setTask i t').WellFormed := by
  have hlegal : (Edit.update i t').Legal g.tasks := ⟨t, ht, hid.symm⟩
  refine ⟨h.accounts, Edit.distinct_onList (e := .update i t') h.tasks hlegal, fun x hx => ?_⟩
  rcases Edit.mem_onList (e := .update i t') hx with hx | hx | ⟨row, hx⟩
  · exact h.generated x hx
  · cases hx
  · obtain ⟨rfl, rfl⟩ := Edit.update.inj hx
    exact hid.trans_le (h.generated t (List.mem_of_getElem? ht))

end Globals

theorem Effect.wellFormed {c : Command} (h : Effect g c g') (hg : g.WellFormed) :
    g'.WellFormed := by
  cases h with
  | stay => exact hg
  | create accountID desc hrange =>
    have hfresh : (Edit.create (Task.mk desc .todo (g.taskCount + 1) accountID)).Legal g.tasks := by
      intro hmem
      obtain ⟨t, ht, hid⟩ := mem_keys.mp hmem
      have hle : t.id ≤ g.taskCount := hg.generated t ht
      have hid : t.id = g.taskCount + 1 := hid
      omega
    refine ⟨hg.accounts, Edit.distinct_onList hg.tasks hfresh, fun t ht => ?_⟩
    rcases List.mem_append.mp ht with ht | ht
    · exact (hg.generated t ht).trans (by simp)
    · rw [List.mem_singleton.mp ht]
  | describe taskID desc i t hfound => exact hg.setTask (Globals.found_some hfound).2 _ rfl
  | assign taskID i t account _ _ hfound => exact hg.setTask (Globals.found_some hfound).2 _ rfl
  | delete taskID i t hfound =>
    refine ⟨hg.accounts, hg.tasks.sublist (List.eraseIdx_sublist g.tasks i), fun x hx => ?_⟩
    exact hg.generated x (List.mem_of_mem_eraseIdx hx)
  | setStatus self taskID status i t statusEnum account count hfound _ haccount =>
    have hset := hg.setTask (Globals.found_some hfound).2 { t with status := statusEnum } rfl
    refine ⟨?_, hset.tasks, hset.generated⟩
    have hidentity : (g.accounts.map Account.identity)[self]? =
        some (Account.identity { account with onGoingTaskCount := count }) := by
      rw [List.getElem?_map, haccount]
      rfl
    obtain ⟨hself, heq⟩ := List.getElem?_eq_some_iff.mp hidentity
    rw [← hg.accounts, List.map_set, ← heq]
    exact List.set_getElem_self hself

end Info6350.Assignment4
