import Info6350.Assignment4.Program

/-! # Work in progress is protected

The commands of the leaders select a task by its id and look at its status before they
delete it or pass it to another member.
-/

namespace Info6350.Assignment4
open Library Swift Keyed

/-- Tasks that are being done stay with their members; a task that goes was not being done, and
one that passes to another member was not begun. -/
structure Protects (g g' : Globals) : Prop where
  doing : ∀ t ∈ g.tasks, t.status = .doing →
    ∃ t' ∈ g'.tasks, t'.id = t.id ∧ t'.assignedMember = t.assignedMember
  deleted : ∀ t ∈ g.tasks, t.id ∉ keys g'.tasks → t.status ≠ .doing
  reassigned : ∀ t ∈ g.tasks, ∀ t' ∈ g'.tasks, t'.id = t.id →
    t'.assignedMember ≠ t.assignedMember → t.status = .todo

section Effects
variable {g g' : Globals}

theorem Protects.of (hdeleted : ∀ t ∈ g.tasks, t.id ∉ keys g'.tasks → t.status ≠ .doing)
    (hreassigned : ∀ t ∈ g.tasks, ∀ t' ∈ g'.tasks, t'.id = t.id →
      t'.assignedMember ≠ t.assignedMember → t.status = .todo) : Protects g g' := by
  refine ⟨fun t ht hdoing => ?_, hdeleted, hreassigned⟩
  have hkept : t.id ∈ keys g'.tasks := by
    by_contra hgone
    exact hdeleted t ht hgone hdoing
  obtain ⟨t', ht', hid⟩ := mem_keys.mp hkept
  refine ⟨t', ht', hid, ?_⟩
  by_contra howner
  have htodo := hreassigned t ht t' ht' hid howner
  rw [hdoing] at htodo
  cases htodo

theorem protects_of_subset (hg : g.WellFormed) (hsub : ∀ t' ∈ g'.tasks, t' ∈ g.tasks)
    (hdeleted : ∀ t ∈ g.tasks, t ∉ g'.tasks → t.status ≠ .doing) : Protects g g' := by
  refine .of (fun t ht hgone => hdeleted t ht fun ht' => hgone (key_mem_keys ht')) ?_
  intro t ht t' ht' hid howner
  obtain rfl : t' = t := hg.tasks.eq_of_key_eq (hsub t' ht') ht hid
  exact absurd rfl howner

theorem protects_setTask (hg : g.WellFormed) {i : ℕ} {t : Task} (ht : g.tasks[i]? = some t)
    (t' : Task) (hid : t'.id = t.id)
    (howner : t'.assignedMember ≠ t.assignedMember → t.status = .todo) :
    Protects g (g.setTask i t') := by
  have hkeys : keys (g.setTask i t').tasks = keys g.tasks :=
    Edit.keys_update ⟨t, ht, hid.symm⟩
  refine .of (fun x hx hgone => ?_) fun x hx x' hx' hxid hne => ?_
  · rw [hkeys] at hgone
    exact absurd (key_mem_keys hx) hgone
  · rcases List.mem_or_eq_of_mem_set hx' with hx' | rfl
    · obtain rfl : x' = x := hg.tasks.eq_of_key_eq hx' hx hxid
      exact absurd rfl hne
    · obtain rfl : t = x :=
        hg.tasks.eq_of_key_eq (List.mem_of_getElem? ht) hx (hid.symm.trans hxid)
      exact howner hne

theorem Effect.protects {c : Command} (h : Effect g c g') (hg : g.WellFormed) : Protects g g' := by
  cases h with
  | stay => exact protects_of_subset hg (fun _ h => h) fun _ h hgone => absurd h hgone
  | create accountID desc =>
    refine .of (fun t ht hgone => absurd ?_ hgone) fun t ht t' ht' hid howner => ?_
    · exact key_mem_keys (List.mem_append_left _ ht)
    · rcases List.mem_append.mp ht' with ht' | ht'
      · obtain rfl : t' = t := hg.tasks.eq_of_key_eq ht' ht hid
        exact absurd rfl howner
      · have hle : t.id ≤ g.taskCount := hg.generated t ht
        rw [List.mem_singleton.mp ht'] at hid
        have hid : g.taskCount + 1 = t.id := hid
        omega
  | describe taskID desc i t hfound =>
    exact protects_setTask hg (Globals.found_some hfound).2 _ rfl fun hne => absurd rfl hne
  | assign taskID i t account _ _ hfound hstatus =>
    exact protects_setTask hg (Globals.found_some hfound).2 _ rfl fun _ => hstatus
  | delete taskID i t hfound hstatus =>
    have ht := (Globals.found_some hfound).2
    refine protects_of_subset hg (fun x hx => List.mem_of_mem_eraseIdx hx) fun x hx hgone => ?_
    obtain ⟨j, hj⟩ := List.mem_iff_getElem?.mp hx
    obtain rfl : j = i := by
      by_contra hne
      exact hgone (List.mem_eraseIdx_iff_getElem?.mpr ⟨j, hne, hj⟩)
    obtain rfl : t = x := Option.some.inj (ht.symm.trans hj)
    exact hstatus
  | setStatus self taskID status i t statusEnum account count hfound =>
    have hset : Protects g (g.setTask i { t with status := statusEnum }) :=
      protects_setTask hg (Globals.found_some hfound).2 _ rfl fun hne => absurd rfl hne
    exact ⟨hset.doing, hset.deleted, hset.reassigned⟩

end Effects

/-- Every step that a run reaches protects the work in progress. -/
theorem run_protects {stdin : List String} {ticks : List Unit} {st st' : State} {u : Unit}
    (h : step.run (launch stdin) ticks = .ok st) (h' : step st u = .ok st') :
    Protects st.globals st'.globals :=
  (step_effect h').protects (run_wellFormed h)

def Sample.deletion : List String :=
  ["gaurav", "gaurav", "1", "20", "Plan", "6", "raj", "raj", "2", "1", "2", "3",
    "gaurav", "gaurav", "5", "1"]

theorem run_protects_deletion :
    ∃ st st', step.run (launch Sample.deletion) (List.replicate 9 ()) = .ok st ∧
      step st () = .ok st' ∧ st.globals.tasks = [⟨"Plan", .doing, 1, 20⟩] ∧
      Protects st.globals st'.globals :=
  ⟨_, _, rfl, rfl, by decide +kernel,
    @run_protects Sample.deletion (List.replicate 9 ()) _ _ () rfl rfl⟩

end Info6350.Assignment4
