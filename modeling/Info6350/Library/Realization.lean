import Info6350.Library.Machine

/-! # What a machine can reach

A machine performs what another one permits when each of its steps is seen as nothing or as a
permitted step of the other, and it realizes the other when every permitted step is what one of its
runs is seen as.  A machine that does both reaches exactly what permitted steps reach.
-/

namespace Info6350.Library.Machine

variable {σ ι τ σ' ι' τ' : Type*} (M : Machine σ ι τ) (N : Machine σ' ι' τ')

/-- From states with `I`, a step is seen as nothing or as a permitted step of `N`. -/
def Performs (I : σ → Prop) (view : σ → σ') (permitted : σ' → ι' → Prop) : Prop :=
  ∀ s e t, I s → M s e = .ok t →
    view t = view s ∨ ∃ f, permitted (view s) f ∧ N (view s) f = .ok (view t)

/-- From states with `I`, a permitted step of `N` is what some run is seen as. -/
def Realizes (I : σ → Prop) (view : σ → σ') (permitted : σ' → ι' → Prop) : Prop :=
  ∀ s f v, I s → permitted (view s) f → N (view s) f = .ok v →
    ∃ es t, M.run s es = .ok t ∧ view t = v

variable {M N} {I : σ → Prop} {view : σ → σ'} {permitted : σ' → ι' → Prop} {s : σ}

theorem Performs.run (h : M.Performs N I view permitted) (hI : M.Preserves AnyStep I) {t : σ}
    {es : List ι} (hs : I s) (hr : M.run s es = .ok t) :
    ∃ fs, N.Meets permitted (view s) fs ∧ N.run (view s) fs = .ok (view t) := by
  induction es generalizing s with
  | nil =>
    obtain rfl := Except.ok.inj hr
    exact ⟨[], trivial, rfl⟩
  | cons e es ih =>
    obtain ⟨m, hm, hr⟩ := M.run_cons_eq_ok.mp hr
    obtain ⟨fs, hmeets, hrun⟩ := ih (hI s e m hs trivial hm) hr
    rcases h s e m hs hm with hview | ⟨f, hf, hstep⟩
    · exact ⟨fs, hview ▸ hmeets, hview ▸ hrun⟩
    · exact ⟨f :: fs, .cons hf hstep hmeets, N.run_cons_eq_ok.mpr ⟨_, hstep, hrun⟩⟩

theorem Realizes.run (h : M.Realizes N I view permitted) (hI : M.Preserves AnyStep I) {v : σ'}
    {fs : List ι'} (hs : I s) (hm : N.Meets permitted (view s) fs)
    (hr : N.run (view s) fs = .ok v) : ∃ es t, M.run s es = .ok t ∧ view t = v := by
  induction fs generalizing s with
  | nil => exact ⟨[], s, rfl, Except.ok.inj hr⟩
  | cons f fs ih =>
    obtain ⟨w, hw, hr⟩ := N.run_cons_eq_ok.mp hr
    obtain ⟨es, m, hes, rfl⟩ := h s f w hs hm.1 hw
    obtain ⟨es', t, hes', rfl⟩ := ih (hI.run_any hs hes) (hm.2 _ hw) hr
    refine ⟨es ++ es', t, ?_, rfl⟩
    rw [run_append, hes]
    exact hes'

/-- What runs of the machine reach is what permitted steps reach. -/
theorem Performs.reaches_iff (hp : M.Performs N I view permitted)
    (hr : M.Realizes N I view permitted) (hI : M.Preserves AnyStep I) (hs : I s) (v : σ') :
    (∃ es t, M.run s es = .ok t ∧ view t = v) ↔
      ∃ fs, N.Meets permitted (view s) fs ∧ N.run (view s) fs = .ok v := by
  constructor
  · rintro ⟨es, t, hrun, rfl⟩
    exact hp.run hI hs hrun
  · rintro ⟨fs, hmeets, hrun⟩
    exact hr.run hI hs hmeets hrun

end Info6350.Library.Machine
