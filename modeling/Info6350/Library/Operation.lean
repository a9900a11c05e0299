import Info6350.Library.Keyed
import Info6350.Library.Machine

/-! # Operations on a keyed map

Creating, updating and deleting a record are partial operations on the map from keys to records,
and an edit of a list is one of them on the map that the list represents.  A machine may report
each operation that it performs.
-/

namespace Info6350.Library
open Keyed

/-- An operation on a map from keys to records. -/
inductive Operation (α κ : Type*) where
  | create (x : α)
  | update (x : α)
  | delete (k : κ)
deriving DecidableEq

/-- Why an operation is not performed. -/
inductive NotPerformed where
  | keyTaken
  | keyMissing
deriving DecidableEq, Repr

section Operation
variable {α κ : Type*} [Keyed α κ] [DecidableEq κ]

namespace Operation

/-- A record is created at a free key, and updated or deleted at its own. -/
def apply (v : κ → Option α) : Operation α κ → Except NotPerformed (κ → Option α)
  | create x => if (v (key x)).isSome then .error .keyTaken
      else .ok (Function.update v (key x) (some x))
  | update x => if (v (key x)).isSome then .ok (Function.update v (key x) (some x))
      else .error .keyMissing
  | delete k => if (v k).isSome then .ok (Function.update v k none) else .error .keyMissing

/-- The key that an operation writes, and what it holds afterwards. -/
def written : Operation α κ → κ × Option α
  | create x => (key x, some x)
  | update x => (key x, some x)
  | delete k => (k, none)

theorem apply_ok {o : Operation α κ} {v v' : κ → Option α} (h : o.apply v = .ok v') :
    v' = Function.update v o.written.1 o.written.2 := by
  cases o with
  | create x =>
    simp only [apply] at h
    split_ifs at h
    exact (Except.ok.inj h).symm
  | update x =>
    simp only [apply] at h
    split_ifs at h
    exact (Except.ok.inj h).symm
  | delete k =>
    simp only [apply] at h
    split_ifs at h
    exact (Except.ok.inj h).symm

theorem apply_some {o : Operation α κ} {v v' : κ → Option α} (h : o.apply v = .ok v') {k : κ}
    {x : α} (hx : v' k = some x) : v k = some x ∨ o = .create x ∨ o = .update x := by
  rw [apply_ok h, Function.update_apply] at hx
  split_ifs at hx
  · cases o with
    | create y => exact .inr (.inl (congrArg create (Option.some.inj hx)))
    | update y => exact .inr (.inr (congrArg update (Option.some.inj hx)))
    | delete j => cases hx
  · exact .inl hx

theorem apply_isSome {o : Operation α κ} {v v' : κ → Option α} (h : o.apply v = .ok v') {k : κ}
    (hk : (v k).isSome) (hdelete : o ≠ .delete k) : (v' k).isSome := by
  rw [apply_ok h, Function.update_apply]
  split_ifs with hkey
  · cases o with
    | create y => rfl
    | update y => rfl
    | delete j => exact absurd (congrArg delete hkey.symm) hdelete
  · exact hk

theorem not_isSome_of_create {x : α} {v v' : κ → Option α}
    (h : (create x : Operation α κ).apply v = .ok v') : ¬ (v (key x)).isSome := by
  simp only [apply] at h
  split_ifs at h with hx
  exact hx

theorem isSome_of_update {x : α} {v v' : κ → Option α}
    (h : (update x : Operation α κ).apply v = .ok v') : (v (key x)).isSome := by
  simp only [apply] at h
  split_ifs at h with hx
  exact hx

theorem isSome_of_delete {k : κ} {v v' : κ → Option α}
    (h : (delete k : Operation α κ).apply v = .ok v') : (v k).isSome := by
  simp only [apply] at h
  split_ifs at h with hk
  exact hk

/-- A key comes to hold a record only when a record is created there. -/
theorem apply_keys {o : Operation α κ} {v v' : κ → Option α} (h : o.apply v = .ok v')
    {P : κ → Prop} (hv : ∀ k, (v k).isSome → P k) (hcreate : ∀ x, o = .create x → P (key x)) {k : κ}
    (hk : (v' k).isSome) : P k := by
  obtain ⟨x, hx⟩ := Option.isSome_iff_exists.mp hk
  rw [apply_ok h, Function.update_apply] at hx
  split_ifs at hx with hkey
  · subst hkey
    cases o with
    | create y => exact hcreate y rfl
    | update y => exact hv _ (isSome_of_update h)
    | delete j => cases hx
  · exact hv k (Option.isSome_of_eq_some hx)

end Operation

/-- The operation that an edit of a list is, unless it keeps the list. -/
def Edit.operation (l : List α) : Edit α → Option (Operation α κ)
  | keep => none
  | create x => some (.create x)
  | update _ x => some (.update x)
  | delete row => l[row]?.map fun x => .delete (key x)

omit [DecidableEq κ] in
theorem Edit.eq_keep_of_operation_none {l : List α} {e : Edit α} (he : e.Legal l)
    (ho : (e.operation l : Option (Operation α κ)) = none) : e = keep := by
  cases e with
  | keep => rfl
  | delete row =>
    have hrow : l.length ≤ row := List.getElem?_eq_none_iff.mp (Option.map_eq_none_iff.mp ho)
    exact absurd he hrow.not_gt
  | _ => cases ho

theorem lookup_isSome_iff {l : List α} {k : κ} : (lookup l k).isSome ↔ k ∈ keys l := by
  rw [← not_iff_not, Option.not_isSome_iff_eq_none, lookup_eq_none_iff]

/-- A legal edit performs its operation. -/
theorem Edit.operation_apply {l : List α} {e : Edit α} (hl : Distinct l) (he : e.Legal l)
    {o : Operation α κ} (ho : e.operation l = some o) :
    o.apply (lookup l) = .ok (lookup (e.onList l)) := by
  rw [lookup_onList hl he]
  cases e with
  | keep => cases ho
  | create x =>
    obtain rfl := Option.some.inj ho
    have hx : ¬ (lookup l (key x)).isSome := lookup_isSome_iff.not.mpr he
    rw [Operation.apply, if_neg hx]
    rfl
  | update row x =>
    obtain rfl := Option.some.inj ho
    obtain ⟨y, hy, hkey⟩ := he
    have hx : (lookup l (key x)).isSome :=
      lookup_isSome_iff.mpr (hkey ▸ key_mem_keys (List.mem_of_getElem? hy))
    rw [Operation.apply, if_pos hx]
    rfl
  | delete row =>
    obtain ⟨x, hx, rfl⟩ := Option.map_eq_some_iff.mp ho
    have hkey : (lookup l (key x)).isSome :=
      lookup_isSome_iff.mpr (key_mem_keys (List.mem_of_getElem? hx))
    rw [Operation.apply, if_pos hkey]
    simp only [onView, hx]

end Operation

/-! ## Reports -/

namespace Machine
variable {σ ι τ σ' ι' τ' ω : Type*} (M : Machine σ ι τ) (N : Machine σ' ι' τ')

/-- What a step of `M` does to a view of the state and to a log: nothing, or a step of `N` and one
report of it. -/
def Reports (view : σ → σ') (log : σ → List ω) (R : ι' → ω → Prop) (s t : σ) : Prop :=
  (view t = view s ∧ log t = log s) ∨
    ∃ e a, N (view s) e = .ok (view t) ∧ log t = log s ++ [a] ∧ R e a

variable {M N}

/-- The reports of a run are those of a run of `N`, in order. -/
theorem Reports.run {view : σ → σ'} {log : σ → List ω} {R : ι' → ω → Prop} {I : σ → Prop}
    (hI : M.Preserves AnyStep I)
    (hstep : ∀ s e t, I s → M s e = .ok t → N.Reports view log R s t) {s t : σ} {es : List ι}
    (hs : I s) (h : M.run s es = .ok t) :
    ∃ fs as, N.run (view s) fs = .ok (view t) ∧ log t = log s ++ as ∧ List.Forall₂ R fs as := by
  induction es generalizing s with
  | nil =>
    obtain rfl := Except.ok.inj h
    exact ⟨[], [], rfl, (List.append_nil _).symm, .nil⟩
  | cons e es ih =>
    obtain ⟨m, hm, h⟩ := M.run_cons_eq_ok.mp h
    obtain ⟨fs, as, hrun, hlog, hreports⟩ := ih (hI s e m hs trivial hm) h
    rcases hstep s e m hs hm with ⟨hview, hsame⟩ | ⟨f, a, hf, hreport, hfa⟩
    · exact ⟨fs, as, hview ▸ hrun, hsame ▸ hlog, hreports⟩
    · refine ⟨f :: fs, a :: as, N.run_cons_eq_ok.mpr ⟨_, hf, hrun⟩, ?_, .cons hfa hreports⟩
      rw [hlog, hreport, List.append_assoc]
      rfl

end Machine
end Info6350.Library
