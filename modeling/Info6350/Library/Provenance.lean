import Info6350.Library.Machine

/-! # Where what a state holds comes from

A machine may go on holding what a state had when the state itself has lost it.  If a step holds
only what was held or available before it, then what a run holds at its end was held at its
beginning, or was available at some state that the run passed through.
-/

namespace Info6350.Library.Machine

variable {σ ι τ : Type*} (M : Machine σ ι τ)

/-- A state that the run passes through, the first included, has the property. -/
def Once (P : σ → Prop) (s : σ) (es : List ι) : Prop :=
  ∃ before after t, es = before ++ after ∧ M.run s before = .ok t ∧ P t

/-- From states with `I`, a step comes to hold something only if it was available. -/
def HeldFrom (I held available : σ → Prop) : Prop :=
  ∀ s e t, I s → M s e = .ok t → held t → held s ∨ available s

variable {M} {P : σ → Prop} {s t : σ} {e : ι} {es : List ι}

theorem Once.here (h : P s) (es : List ι) : M.Once P s es := ⟨[], es, s, rfl, rfl, h⟩

theorem Once.after (he : M s e = .ok t) (h : M.Once P t es) : M.Once P s (e :: es) := by
  obtain ⟨before, after, u, rfl, hrun, hu⟩ := h
  exact ⟨e :: before, after, u, rfl, M.run_cons_eq_ok.mpr ⟨t, he, hrun⟩, hu⟩

theorem HeldFrom.run {I held available : σ → Prop} (h : M.HeldFrom I held available)
    (hI : M.Preserves AnyStep I) (hs : I s) (hr : M.run s es = .ok t) (ht : held t) :
    held s ∨ M.Once available s es := by
  induction es generalizing s with
  | nil =>
    obtain rfl := Except.ok.inj hr
    exact .inl ht
  | cons e es ih =>
    obtain ⟨m, he, hr⟩ := M.run_cons_eq_ok.mp hr
    rcases ih (hI s e m hs trivial he) hr with hm | honce
    · rcases h s e m hs he hm with hheld | havailable
      · exact .inl hheld
      · exact .inr (.here havailable _)
    · exact .inr (honce.after he)

/-- When everything that is held at the beginning is available there. -/
theorem HeldFrom.once {I held available : σ → Prop} (h : M.HeldFrom I held available)
    (hI : M.Preserves AnyStep I) (hs : I s) (hr : M.run s es = .ok t)
    (hstart : held s → available s) (ht : held t) : M.Once available s es := by
  rcases h.run hI hs hr ht with hheld | honce
  · exact .here (hstart hheld) es
  · exact honce

end Info6350.Library.Machine
