import Info6350.Library.Machine

/-! # Machines that simulate one another

Two outcomes are matched when both are states that a relation relates, or both stop for the
same reason.  A relation that corresponding steps keep relates whole runs, and a machine may
also answer one step of another with a run.
-/

namespace Info6350.Library

universe u v

/-- Two computations that end alike: with related results, or with the same error. -/
inductive Matched {τ : Type*} {α β : Type*} (R : α → β → Prop) : Except τ α → Except τ β → Prop
  | ok {a : α} {b : β} (h : R a b) : Matched R (.ok a) (.ok b)
  | error (t : τ) : Matched R (.error t) (.error t)

namespace Matched
variable {τ : Type*} {α β : Type*} {R : α → β → Prop} {x : Except τ α} {y : Except τ β}

theorem refl {R : α → α → Prop} (hR : ∀ a, R a a) (x : Except τ α) : Matched R x x := by
  cases x with
  | ok a => exact .ok (hR a)
  | error t => exact .error t

theorem of_eq {x y : Except τ α} (h : x = y) : Matched (fun a b => a = b) x y := by
  subst h
  exact .refl (fun _ => rfl) x

theorem symm (h : Matched R x y) : Matched (fun b a => R a b) y x := by
  cases h with
  | ok h => exact .ok h
  | error t => exact .error t

theorem exists_of_ok {a : α} (h : Matched R x y) (hx : x = .ok a) : ∃ b, y = .ok b ∧ R a b := by
  subst hx
  cases h with
  | ok h => exact ⟨_, rfl, h⟩

theorem error_iff (h : Matched R x y) (t : τ) : x = .error t ↔ y = .error t := by
  cases h <;> simp

theorem map {γ δ : Type*} {S : γ → δ → Prop} {f : α → γ} {g : β → δ} (h : Matched R x y)
    (hfg : ∀ a b, R a b → S (f a) (g b)) : Matched S (x.map f) (y.map g) := by
  cases h with
  | ok h => exact .ok (hfg _ _ h)
  | error t => exact .error t

theorem mapError {τ' : Type*} (f : τ → τ') (h : Matched R x y) :
    Matched R (x.mapError f) (y.mapError f) := by
  cases h with
  | ok h => exact .ok h
  | error t => exact .error (f t)

theorem bind {τ : Type*} {α γ : Type u} {β δ : Type v} {R : α → β → Prop} {S : γ → δ → Prop}
    {x : Except τ α} {y : Except τ β} {f : α → Except τ γ} {g : β → Except τ δ}
    (h : Matched R x y) (hfg : ∀ a b, R a b → Matched S (f a) (g b)) :
    Matched S (x >>= f) (y >>= g) := by
  cases h with
  | ok h => exact hfg _ _ h
  | error t => exact .error t

/-- The same check before two computations. -/
theorem bind_left {τ : Type*} {α : Type u} {γ : Type u} {δ : Type u} {S : γ → δ → Prop}
    (x : Except τ α) {f : α → Except τ γ} {g : α → Except τ δ}
    (hfg : ∀ a, Matched S (f a) (g a)) : Matched S (x >>= f) (x >>= g) :=
  (of_eq rfl).bind fun a _ h => h ▸ hfg a

end Matched

namespace Machine
variable {σ ι τ σ' ι' : Type*} (M : Machine σ ι τ) (N : Machine σ' ι' τ)

/-- From related states, steps with related labels have matched outcomes. -/
def Lockstep (R : σ → σ' → Prop) (Q : ι → ι' → Prop) : Prop :=
  ∀ s s' e e', R s s' → Q e e' → Matched R (M s e) (N s' e')

/-- From related states, one step of `M` is matched by a run of `N` in which the same is
observed. -/
def Simulates {ω : Type*} (obs : ι → Option ω) (obs' : ι' → Option ω) (R : σ → σ' → Prop) : Prop :=
  ∀ s s' e, R s s' → ∃ es, es.filterMap obs' = (obs e).toList ∧ Matched R (M s e) (N.run s' es)

variable {M N}

theorem run_map_eq {α β : Type*} {v : α → σ} {label : β → ι} {f : α → β → α}
    (h : ∀ a b, M (v a) (label b) = .ok (v (f a b))) (a : α) (bs : List β) :
    M.run (v a) (bs.map label) = .ok (v (bs.foldl f a)) := by
  induction bs generalizing a with
  | nil => rfl
  | cons b bs ih =>
    rw [List.map_cons, run_cons, h]
    exact ih (f a b)

theorem Lockstep.run {R : σ → σ' → Prop} {Q : ι → ι' → Prop} (h : M.Lockstep N R Q) {s : σ}
    {s' : σ'} (hs : R s s') {es : List ι} {es' : List ι'} (hes : List.Forall₂ Q es es') :
    Matched R (M.run s es) (N.run s' es') := by
  induction hes generalizing s s' with
  | nil => exact .ok hs
  | cons he _ ih =>
    rw [run_cons, run_cons]
    exact (h s s' _ _ hs he).bind fun t t' ht => ih ht

/-- Let steps from related states be matched when they meet `C`.  Then runs from related states are
matched, or they reach related states from which the next step does not meet `C`. -/
theorem matched_or_parts {R : σ → σ' → Prop} {C : σ → ι → Prop} {f : ι → ι'}
    (h : ∀ s s' e, R s s' → C s e → Matched R (M s e) (N s' (f e))) {s : σ} {s' : σ'} (hs : R s s')
    (es : List ι) :
    Matched R (M.run s es) (N.run s' (es.map f)) ∨ ∃ before e after t t',
      es = before ++ e :: after ∧ M.run s before = .ok t ∧ N.run s' (before.map f) = .ok t' ∧
        R t t' ∧ ¬ C t e := by
  induction es generalizing s s' with
  | nil => exact .inl (.ok hs)
  | cons e es ih =>
    by_cases hc : C s e
    · have hstep := h s s' e hs hc
      rw [List.map_cons, run_cons, run_cons]
      cases hm : M s e with
      | error t =>
        rw [hm] at hstep
        rw [(hstep.error_iff t).mp rfl]
        exact .inl (.error t)
      | ok m =>
        obtain ⟨m', hm', hrel⟩ := hstep.exists_of_ok hm
        rw [hm']
        rcases ih hrel with hmatched | ⟨before, e', after, t, t', rfl, hrun, hrun', ht, hc'⟩
        · exact .inl hmatched
        · refine .inr ⟨e :: before, e', after, t, t', rfl, ?_, ?_, ht, hc'⟩
          · exact run_cons_eq_ok _ |>.mpr ⟨m, hm, hrun⟩
          · exact run_cons_eq_ok _ |>.mpr ⟨m', hm', hrun'⟩
    · exact .inr ⟨[], e, es, s, s', rfl, rfl, rfl, hs, hc⟩

variable {ω : Type*} {obs : ι → Option ω} {obs' : ι' → Option ω} {R : σ → σ' → Prop}

theorem Simulates.exists_observed (h : M.Simulates N obs obs' R) {s : σ} {s' : σ'} (hs : R s s')
    (es : List ι) : ∃ es' : List ι', es'.filterMap obs' = es.filterMap obs := by
  induction es with
  | nil => exact ⟨[], rfl⟩
  | cons e es ih =>
    obtain ⟨fs, hfs, -⟩ := h s s' e hs
    obtain ⟨gs, hgs⟩ := ih
    refine ⟨fs ++ gs, ?_⟩
    rw [List.filterMap_append, hfs, hgs]
    cases hobs : obs e <;> simp [hobs]

theorem Simulates.run (h : M.Simulates N obs obs' R) {s : σ} {s' : σ'} (hs : R s s')
    (es : List ι) :
    ∃ es' : List ι', es'.filterMap obs' = es.filterMap obs ∧
      Matched R (M.run s es) (N.run s' es') := by
  induction es generalizing s s' with
  | nil => exact ⟨[], rfl, .ok hs⟩
  | cons e es ih =>
    obtain ⟨fs, hobs, hfs⟩ := h s s' e hs
    have hcons : ∀ gs, gs.filterMap obs' = es.filterMap obs →
        (fs ++ gs).filterMap obs' = (e :: es).filterMap obs := by
      intro gs hgs
      rw [List.filterMap_append, hobs, hgs]
      cases he : obs e <;> simp [he]
    cases hm : M s e with
    | error t =>
      obtain ⟨gs, hgs⟩ := h.exists_observed hs es
      rw [hm] at hfs
      refine ⟨fs ++ gs, hcons gs hgs, ?_⟩
      rw [run_cons, run_append, hm, (hfs.error_iff t).mp rfl]
      exact .error t
    | ok m =>
      obtain ⟨m', hm', hrel⟩ := hfs.exists_of_ok hm
      obtain ⟨gs, hgs, hmatched⟩ := ih hrel
      refine ⟨fs ++ gs, hcons gs hgs, ?_⟩
      rw [run_cons, run_append, hm, hm']
      exact hmatched

end Machine
end Info6350.Library
