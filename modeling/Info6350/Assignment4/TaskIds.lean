import Info6350.Assignment4.Program

/-! # Task ids are never reused

`generateTaskId` counts up, and nothing counts down.  A task is an object, and a history of the
objects that `createTask` made says which of them had an id, which is still in `tasks` and at which
index.
-/

namespace Info6350.Assignment4
open Library Swift Keyed

def execute : Machine Globals Command Trap := fun g c => c.apply g

/-- The ids of the tasks in the order of their creation, the creations of the objects that are in
`tasks`, and the ids that were deleted. -/
structure TaskHistory where
  created : List ℤ
  objects : List ℕ
  deleted : List ℤ
deriving DecidableEq, Repr

namespace TaskHistory

def empty : TaskHistory := ⟨[], [], []⟩

/-- `createTask` appends the object that it makes, and `deleteTask` removes the object at the index
that it finds.  No other command assigns to `tasks` or moves an object. -/
def record (g : Globals) (c : Command) (g' : Globals) (h : TaskHistory) : TaskHistory :=
  match c with
  | .createTask _ _ =>
    { h with
      created := h.created ++ (keys g'.tasks).drop g.tasks.length
      objects := h.objects ++ [h.created.length] }
  | .deleteTask taskID => match g.found taskID with
    | some (taskIndex, task) =>
      if task.status ≠ .doing then
        { h with
          objects := h.objects.eraseIdx taskIndex
          deleted := h.deleted ++ [task.id] }
      else h
    | none => h
  | _ => h

end TaskHistory

def executeWithHistory : Machine (Globals × TaskHistory) Command Trap :=
  execute.withHistory TaskHistory.record

/-- The ids increase and are at most `taskCount`, none that was deleted is there, and a lookup finds
the object that was created with the id, which is the only one. -/
structure TaskIds (g : Globals) (h : TaskHistory) : Prop where
  increasing : (keys g.tasks).Pairwise (· < ·)
  le_taskCount : ∀ id ∈ keys g.tasks, id ≤ g.taskCount
  gone : ∀ id ∈ h.deleted, id ∉ keys g.tasks
  only : ∀ id i, firstIndex g.tasks id = some i ↔
    ∃ k, h.objects[i]? = some k ∧ h.created[k]? = some id ∧
      ∀ k', h.created[k']? = some id → k' = k

/-! ## What a command does to the ids -/

theorem keys_setTask {g : Globals} {taskID : Option ℤ} {i : ℕ} {t : Task}
    (hfound : g.found taskID = some (i, t)) (t' : Task) (hid : t'.id = t.id) :
    keys (g.tasks.set i t') = keys g.tasks := by
  have hlegal : (Edit.update i t').Legal g.tasks := ⟨t, (Globals.found_some hfound).2, hid.symm⟩
  exact Edit.keys_update hlegal

theorem keys_eraseIdx (l : List Task) (i : ℕ) : keys (l.eraseIdx i) = (keys l).eraseIdx i :=
  (List.eraseIdx_map ..).symm

theorem updateDescTask_keys (taskID : Option ℤ) (desc : String) (g : Globals) :
    keys (g.updateDescTask taskID desc).tasks = keys g.tasks ∧
      (g.updateDescTask taskID desc).taskCount = g.taskCount := by
  unfold Globals.updateDescTask
  split
  case h_1 i t hfound => exact ⟨keys_setTask hfound _ rfl, rfl⟩
  case h_2 => exact ⟨rfl, rfl⟩

theorem updateMemberTask_keys (taskID memberId : Option ℤ) (g : Globals) :
    keys (g.updateMemberTask taskID memberId).1.tasks = keys g.tasks ∧
      (g.updateMemberTask taskID memberId).1.taskCount = g.taskCount := by
  have heffect := updateMemberTask_effect (g := g) taskID memberId
  generalize (g.updateMemberTask taskID memberId).1 = g' at heffect ⊢
  cases heffect with
  | stay => exact ⟨rfl, rfl⟩
  | assign _ i t account _ _ hfound => exact ⟨keys_setTask hfound _ rfl, rfl⟩

/-- A command generates an id, deletes the object that it finds, or keeps the ids and the
objects. -/
theorem apply_cases {c : Command} {g g' : Globals} (h : c.apply g = .ok g')
    (history : TaskHistory) :
    (keys g'.tasks = keys g.tasks ++ [g.taskCount + 1] ∧ g'.taskCount = g.taskCount + 1 ∧
      history.record g c g' = ⟨history.created ++ [g.taskCount + 1],
        history.objects ++ [history.created.length], history.deleted⟩) ∨
    (∃ i t, g.tasks[i]? = some t ∧ keys g'.tasks = (keys g.tasks).eraseIdx i ∧
      g'.taskCount = g.taskCount ∧
      history.record g c g' = ⟨history.created, history.objects.eraseIdx i,
        history.deleted ++ [t.id]⟩) ∨
    (keys g'.tasks = keys g.tasks ∧ g'.taskCount = g.taskCount ∧
      history.record g c g' = history) := by
  cases c with
  | createTask accountID desc =>
    obtain ⟨-, rfl⟩ := createTask_ok h
    refine .inl ⟨keys_append _ _, rfl, ?_⟩
    simp [TaskHistory.record, keys]
  | updateDescTask taskID desc =>
    obtain rfl := Except.ok.inj h
    obtain ⟨hkeys, hcount⟩ := updateDescTask_keys taskID desc g
    exact .inr (.inr ⟨hkeys, hcount, rfl⟩)
  | updateMemberTask taskID memberId =>
    obtain rfl := Except.ok.inj h
    obtain ⟨hkeys, hcount⟩ := updateMemberTask_keys taskID memberId g
    exact .inr (.inr ⟨hkeys, hcount, rfl⟩)
  | deleteTask taskID =>
    obtain rfl := Except.ok.inj h
    cases hfound : g.found taskID with
    | none =>
      exact .inr (.inr (by simp [Globals.deleteTask, TaskHistory.record, hfound]))
    | some found =>
      obtain ⟨i, t⟩ := found
      simp only [Globals.deleteTask, TaskHistory.record, hfound]
      split_ifs with hstatus
      · exact .inr (.inl ⟨i, t, (Globals.found_some hfound).2, keys_eraseIdx g.tasks i, rfl, rfl⟩)
      · exact .inr (.inr ⟨rfl, rfl, rfl⟩)
  | updateTaskStatus self taskID status =>
    rcases updateTaskStatus_ok h with ⟨-, rfl⟩ | ⟨i, t, account, hfound, -, rfl⟩
    · exact .inr (.inr ⟨rfl, rfl, rfl⟩)
    · exact .inr (.inr ⟨keys_setTask hfound _ rfl, rfl, rfl⟩)
  | other =>
    obtain rfl := Except.ok.inj h
    exact .inr (.inr ⟨rfl, rfl, rfl⟩)

/-! ## The invariant -/

/-- Every row of `tasks` has the id of the creation of its object, and the ids of all creations
increase up to `taskCount`. -/
structure Numbered (s : Globals × TaskHistory) : Prop where
  increasing : (keys s.1.tasks).Pairwise (· < ·)
  objects : (keys s.1.tasks).map some = s.2.objects.map fun k => s.2.created[k]?
  created : s.2.created.Pairwise (· < ·)
  le_taskCount : ∀ id ∈ s.2.created, id ≤ s.1.taskCount
  deleted : ∀ id ∈ s.2.deleted, id ∈ s.2.created ∧ id ∉ keys s.1.tasks

namespace Numbered
variable {g : Globals} {h : TaskHistory}

theorem mem_created (hs : Numbered (g, h)) {id : ℤ} (hid : id ∈ keys g.tasks) : id ∈ h.created := by
  have hmem : some id ∈ h.objects.map fun k => h.created[k]? :=
    hs.objects ▸ List.mem_map_of_mem hid
  obtain ⟨k, -, hk⟩ := List.mem_map.mp hmem
  exact List.mem_of_getElem? hk

theorem lt_length (hs : Numbered (g, h)) {k : ℕ} (hk : k ∈ h.objects) : k < h.created.length := by
  have hmem : h.created[k]? ∈ (keys g.tasks).map some :=
    hs.objects ▸ List.mem_map_of_mem (f := fun k => h.created[k]?) hk
  obtain ⟨id, -, hid⟩ := List.mem_map.mp hmem
  exact (List.getElem?_eq_some_iff.mp hid.symm).1

theorem distinct (hs : Numbered (g, h)) : Distinct g.tasks := hs.increasing.imp fun hlt => hlt.ne

theorem create (hs : Numbered (g, h)) {g' : Globals}
    (hkeys : keys g'.tasks = keys g.tasks ++ [g.taskCount + 1])
    (hcount : g'.taskCount = g.taskCount + 1) :
    Numbered (g',
      ⟨h.created ++ [g.taskCount + 1], h.objects ++ [h.created.length], h.deleted⟩) := by
  have hnew : ∀ id ∈ h.created, id < g.taskCount + 1 := fun id hid =>
    Int.lt_add_one_of_le (hs.le_taskCount id hid)
  have hfresh : g.taskCount + 1 ∉ keys g.tasks := fun hmem =>
    lt_irrefl _ (hnew _ (hs.mem_created hmem))
  constructor
  case increasing =>
    change (keys g'.tasks).Pairwise (· < ·)
    rw [hkeys, List.pairwise_append]
    refine ⟨hs.increasing, List.pairwise_singleton .., fun id hid => ?_⟩
    exact List.forall_mem_singleton.mpr (hnew id (hs.mem_created hid))
  case objects =>
    have hold : h.objects.map (fun k => (h.created ++ [g.taskCount + 1])[k]?) =
        h.objects.map fun k => h.created[k]? :=
      List.map_congr_left fun k hk => List.getElem?_append_left (hs.lt_length hk)
    change (keys g'.tasks).map some =
      (h.objects ++ [h.created.length]).map fun k => (h.created ++ [g.taskCount + 1])[k]?
    rw [hkeys, List.map_append, List.map_append, hold, ← hs.objects]
    simp
  case created =>
    refine List.pairwise_append.mpr ⟨hs.created, List.pairwise_singleton .., fun id hid => ?_⟩
    exact List.forall_mem_singleton.mpr (hnew id hid)
  case le_taskCount =>
    change ∀ id ∈ h.created ++ [g.taskCount + 1], id ≤ g'.taskCount
    rw [hcount]
    exact List.forall_mem_append.mpr
      ⟨fun id hid => (hnew id hid).le, List.forall_mem_singleton.mpr le_rfl⟩
  case deleted =>
    intro id hid
    obtain ⟨hcreated, hgone⟩ := hs.deleted id hid
    refine ⟨List.mem_append_left _ hcreated, fun hmem => ?_⟩
    rcases List.mem_append.mp (hkeys ▸ hmem) with hmem | hmem
    · exact hgone hmem
    · exact (hnew id hcreated).ne (List.mem_singleton.mp hmem)

theorem delete (hs : Numbered (g, h)) {g' : Globals} {i : ℕ} {t : Task}
    (ht : g.tasks[i]? = some t) (hkeys : keys g'.tasks = (keys g.tasks).eraseIdx i)
    (hcount : g'.taskCount = g.taskCount) :
    Numbered (g', ⟨h.created, h.objects.eraseIdx i, h.deleted ++ [t.id]⟩) := by
  have hrest : ∀ id ∈ keys g'.tasks, id ∈ keys g.tasks ∧ id ≠ t.id := by
    rw [hkeys, ← keys_eraseIdx, hs.distinct.eraseIdx_eq_filter ht]
    intro id hid
    obtain ⟨x, hx, rfl⟩ := mem_keys.mp hid
    obtain ⟨hx, hne⟩ := List.mem_filter.mp hx
    exact ⟨key_mem_keys hx, of_decide_eq_true hne⟩
  constructor
  case increasing =>
    change (keys g'.tasks).Pairwise (· < ·)
    rw [hkeys]
    exact hs.increasing.sublist (List.eraseIdx_sublist ..)
  case objects =>
    change (keys g'.tasks).map some = (h.objects.eraseIdx i).map fun k => h.created[k]?
    rw [hkeys, ← List.eraseIdx_map, ← List.eraseIdx_map, ← hs.objects]
  case created => exact hs.created
  case le_taskCount => exact fun id hid => hcount ▸ hs.le_taskCount id hid
  case deleted =>
    refine List.forall_mem_append.mpr ⟨fun id hid => ?_, List.forall_mem_singleton.mpr ?_⟩
    · exact (hs.deleted id hid).imp_right fun hgone hmem => hgone (hrest id hmem).1
    · exact ⟨hs.mem_created (key_mem_keys (List.mem_of_getElem? ht)),
        fun hmem => (hrest t.id hmem).2 rfl⟩

theorem keep (hs : Numbered (g, h)) {g' : Globals} (hkeys : keys g'.tasks = keys g.tasks)
    (hcount : g'.taskCount = g.taskCount) : Numbered (g', h) := by
  obtain ⟨hincreasing, hobjects, hcreated, hle, hdeleted⟩ := hs
  refine ⟨?_, ?_, hcreated, hcount ▸ hle, ?_⟩
  · exact hkeys ▸ hincreasing
  · exact hkeys ▸ hobjects
  · exact fun id hid => hkeys ▸ hdeleted id hid

theorem taskIds (hs : Numbered (g, h)) : TaskIds g h := by
  refine ⟨hs.increasing, fun id hid => hs.le_taskCount id (hs.mem_created hid),
    fun id hid => (hs.deleted id hid).2, fun id i => ?_⟩
  have hrow : (keys g.tasks)[i]? = some id ↔
      ∃ k, h.objects[i]? = some k ∧ h.created[k]? = some id := by
    have hget := congrArg (fun l => l[i]?) hs.objects
    simp only [List.getElem?_map] at hget
    cases hk : h.objects[i]? with
    | none =>
      rw [hk, Option.map_none, Option.map_eq_none_iff] at hget
      simp [hget]
    | some k =>
      rw [hk, Option.map_some] at hget
      cases hid : (keys g.tasks)[i]? with
      | none => simp [hid] at hget
      | some id' =>
        rw [hid, Option.map_some, Option.some.injEq] at hget
        simp [← hget]
  have honly : ∀ k k' : ℕ, h.created[k]? = some id → h.created[k']? = some id → k' = k := by
    intro k k' hk hk'
    have hnodup : h.created.Nodup := hs.created.imp fun hlt => hlt.ne
    exact (List.getElem?_inj (List.getElem?_eq_some_iff.mp hk').1 hnodup).mp (hk'.trans hk.symm)
  constructor
  · intro hfound
    obtain ⟨t, ht, rfl⟩ := firstIndex_some hfound
    obtain ⟨k, hk, hid⟩ := hrow.mp (by rw [keys, List.getElem?_map, ht]; rfl)
    exact ⟨k, hk, hid, fun k' hk' => honly k k' hid hk'⟩
  · rintro ⟨k, hk, hid, -⟩
    have hkey := hrow.mpr ⟨k, hk, hid⟩
    rw [keys, List.getElem?_map] at hkey
    obtain ⟨t, ht, rfl⟩ := Option.map_eq_some_iff.mp hkey
    exact hs.distinct.firstIndex_eq ht

end Numbered

theorem execute_preserves_numbered :
    executeWithHistory.Preserves Machine.AnyStep Numbered := by
  rintro ⟨g, h⟩ c ⟨g', h'⟩ hs - hstep
  obtain ⟨happly, hh⟩ := (execute.withHistory_ok_iff _).mp hstep
  obtain rfl : h' = h.record g c g' := hh
  rcases apply_cases happly h with ⟨hkeys, hcount, hrecord⟩ |
    ⟨i, t, ht, hkeys, hcount, hrecord⟩ | ⟨hkeys, hcount, hrecord⟩
  · rw [hrecord]
    exact hs.create hkeys hcount
  · rw [hrecord]
    exact hs.delete ht hkeys hcount
  · rw [hrecord]
    exact hs.keep hkeys hcount

theorem numbered_initial : Numbered (.initial, .empty) where
  increasing := List.Pairwise.nil
  objects := rfl
  created := List.Pairwise.nil
  le_taskCount _ h := absurd h List.not_mem_nil
  deleted _ h := absurd h List.not_mem_nil

theorem run_not_mem_keys {g g' : Globals} {commands : List Command}
    (h : execute.run g commands = .ok g') {id : ℤ} (hle : id ≤ g.taskCount)
    (hid : id ∉ keys g.tasks) : id ∉ keys g'.tasks := by
  have hstep : execute.Preserves Machine.AnyStep
      fun g => id ≤ g.taskCount ∧ id ∉ keys g.tasks := by
    rintro g c g' ⟨hle, hid⟩ - hstep
    rcases apply_cases hstep .empty with ⟨hkeys, hcount, -⟩ | ⟨i, t, -, hkeys, hcount, -⟩ |
      ⟨hkeys, hcount, -⟩
    · refine ⟨by omega, fun hmem => ?_⟩
      rw [hkeys] at hmem
      rcases List.mem_append.mp hmem with hmem | hmem
      · exact hid hmem
      · have heq := List.mem_singleton.mp hmem
        omega
    · exact ⟨hcount ▸ hle, fun hmem => hid (List.mem_of_mem_eraseIdx (hkeys ▸ hmem))⟩
    · exact ⟨hcount ▸ hle, hkeys ▸ hid⟩
  exact (hstep.run_any ⟨hle, hid⟩ h).2

/-- After any commands the ids are in order and up to `taskCount`, an id that was deleted is not
there and does not come back whatever follows, and a lookup finds the only task that had the id. -/
theorem run_taskIds {commands : List Command} {s : Globals × TaskHistory}
    (h : executeWithHistory.run (.initial, .empty) commands = .ok s) :
    TaskIds s.1 s.2 ∧ ∀ (later : List Command) (g : Globals), execute.run s.1 later = .ok g →
      ∀ id ∈ s.2.deleted, id ∉ keys g.tasks := by
  have hs := execute_preserves_numbered.run_any numbered_initial h
  refine ⟨hs.taskIds, fun later g hlater id hid => ?_⟩
  obtain ⟨hcreated, hgone⟩ := hs.deleted id hid
  exact run_not_mem_keys hlater (hs.le_taskCount id hcreated) hgone

def Sample.threeTasks : List Command :=
  [.createTask 20 "write", .createTask 21 "test", .deleteTask (some 1), .createTask 20 "ship"]

theorem run_taskIds_three :
    ∃ s, executeWithHistory.run (.initial, .empty) Sample.threeTasks = .ok s ∧
      keys s.1.tasks = [2, 3] ∧ s.2 = ⟨[1, 2, 3], [1, 2], [1]⟩ ∧ TaskIds s.1 s.2 :=
  ⟨_, rfl, rfl, rfl, (@run_taskIds Sample.threeTasks _ rfl).1⟩

/-! ## The script -/

/-- A run of the script executes commands one after another. -/
theorem run_commands {st st' : State} {ticks : List Unit} (h : step.run st ticks = .ok st') :
    ∃ commands, execute.run st.globals commands = .ok st'.globals := by
  induction ticks generalizing st with
  | nil =>
    obtain rfl := Except.ok.inj h
    exact ⟨[], rfl⟩
  | cons u ticks ih =>
    obtain ⟨m, hm, hrest⟩ := step.run_cons_eq_ok.mp h
    obtain ⟨commands, hcommands⟩ := ih hrest
    exact ⟨st.command :: commands, execute.run_cons_eq_ok.mpr ⟨_, step_apply hm, hcommands⟩⟩

/-- In every state of the script the ids of the tasks are in order and up to `taskCount`. -/
theorem run_script_increasing {stdin : List String} {ticks : List Unit} {st : State}
    (h : step.run (launch stdin) ticks = .ok st) :
    (keys st.globals.tasks).Pairwise (· < ·) ∧
      ∀ id ∈ keys st.globals.tasks, id ≤ st.globals.taskCount := by
  obtain ⟨commands, hcommands⟩ := run_commands h
  obtain ⟨history, hrun⟩ := execute.exists_run_withHistory TaskHistory.record hcommands .empty
  have hs := (execute_preserves_numbered.run_any numbered_initial hrun).taskIds
  exact ⟨hs.increasing, hs.le_taskCount⟩

end Info6350.Assignment4
