import Mathlib.Logic.Basic
import Mathlib.Tactic

/-! # Machines that run until they stop

A machine takes one labelled step at a time, and a step reaches the next state
or stops with a reason.  Invariants are proved of one step and carried to whole
runs; a run may be restricted to steps that meet a condition on the state before
the step, and a machine may carry a history variable that it never reads.
-/

namespace Info6350.Library

universe u

section Outcome
variable {ε : Type*} {α β : Type u} {x : Except ε α} {f : α → Except ε β}

theorem bind_ok_iff {b : β} : (x >>= f) = .ok b ↔ ∃ a, x = .ok a ∧ f a = .ok b := by
  rcases x with e | a <;> simp [Bind.bind, Except.bind]

theorem bind_error_iff {e : ε} :
    (x >>= f) = .error e ↔ x = .error e ∨ ∃ a, x = .ok a ∧ f a = .error e := by
  rcases x with e' | a <;> simp [Bind.bind, Except.bind]

theorem pure_ok_iff {a b : α} : (pure a : Except ε α) = .ok b ↔ a = b :=
  ⟨Except.ok.inj, congrArg Except.ok⟩

theorem map_ok_iff {γ : Type*} {x : Except ε α} {f : α → γ} {c : γ} :
    x.map f = .ok c ↔ ∃ a, x = .ok a ∧ f a = c := by
  rcases x with e | a <;> simp [Except.map]

theorem map_error_iff {γ : Type*} {x : Except ε α} {f : α → γ} {e : ε} :
    x.map f = .error e ↔ x = .error e := by
  rcases x with e' | a <;> simp [Except.map]

theorem mapError_ok_iff {ε' : Type*} {x : Except ε α} {f : ε → ε'} {a : α} :
    x.mapError f = .ok a ↔ x = .ok a := by
  rcases x with e | b <;> simp [Except.mapError]

end Outcome

/-- One labelled step reaches a state or stops the machine. -/
abbrev Machine (σ ι τ : Type*) := σ → ι → Except τ σ

namespace Machine
variable {σ ι τ : Type*} (M : Machine σ ι τ)

/-- Take the steps of a list in order, up to the first that stops. -/
def run : σ → List ι → Except τ σ
  | s, [] => .ok s
  | s, e :: es => M s e >>= fun t => run t es

@[simp] theorem run_nil (s : σ) : M.run s [] = .ok s := rfl

theorem run_cons (s : σ) (e : ι) (es : List ι) :
    M.run s (e :: es) = M s e >>= fun t => M.run t es := rfl

theorem run_cons_eq_ok {s t : σ} {e : ι} {es : List ι} :
    M.run s (e :: es) = .ok t ↔ ∃ m, M s e = .ok m ∧ M.run m es = .ok t := by
  rw [run_cons, bind_ok_iff]

theorem run_singleton (s : σ) (e : ι) : M.run s [e] = M s e := by
  rw [run_cons]
  cases M s e <;> rfl

theorem run_append (s : σ) (es fs : List ι) :
    M.run s (es ++ fs) = M.run s es >>= fun t => M.run t fs := by
  induction es generalizing s with
  | nil => rfl
  | cons e es ih =>
    rw [List.cons_append, run_cons, run_cons]
    cases h : M s e with
    | error t => rfl
    | ok t => exact ih t

/-- Every step that the run takes meets a condition on the state before it. -/
def Meets (C : σ → ι → Prop) : σ → List ι → Prop
  | _, [] => True
  | s, e :: es => C s e ∧ ∀ t, M s e = .ok t → Meets C t es

/-- A property of every state that the run passes through, the first included. -/
def Always (P : σ → Prop) : σ → List ι → Prop
  | s, [] => P s
  | s, e :: es => P s ∧ ∀ t, M s e = .ok t → Always P t es

/-- Steps that meet `C` keep the invariant `P`. -/
def Preserves (C : σ → ι → Prop) (P : σ → Prop) : Prop :=
  ∀ s e t, P s → C s e → M s e = .ok t → P t

def AnyStep : σ → ι → Prop := fun _ _ => True

variable {M}

theorem Meets.cons {C : σ → ι → Prop} {s t : σ} {e : ι} {es : List ι} (hc : C s e)
    (he : M s e = .ok t) (h : M.Meets C t es) : M.Meets C s (e :: es) :=
  ⟨hc, fun _ hn => Except.ok.inj (he.symm.trans hn) ▸ h⟩

theorem meets_of_forall {C : σ → ι → Prop} (s : σ) {es : List ι} (h : ∀ e ∈ es, ∀ s, C s e) :
    M.Meets C s es := by
  induction es generalizing s with
  | nil => trivial
  | cons e es ih =>
    exact ⟨h e List.mem_cons_self s, fun t _ => ih t fun e he => h e (List.mem_cons_of_mem _ he)⟩

theorem meets_anyStep (s : σ) (es : List ι) : M.Meets AnyStep s es :=
  meets_of_forall s fun _ _ _ => trivial

theorem Preserves.run {C : σ → ι → Prop} {P : σ → Prop} (h : M.Preserves C P)
    {s t : σ} {es : List ι} (hs : P s) (hm : M.Meets C s es) (hr : M.run s es = .ok t) : P t := by
  induction es generalizing s with
  | nil =>
    rw [run_nil, Except.ok.injEq] at hr
    exact hr ▸ hs
  | cons e es ih =>
    obtain ⟨m, he, hr⟩ := M.run_cons_eq_ok.mp hr
    exact ih (h s e m hs hm.1 he) (hm.2 m he) hr

theorem Always.head {P : σ → Prop} {s : σ} {es : List ι} (h : M.Always P s es) : P s := by
  cases es with
  | nil => exact h
  | cons e es => exact h.1

theorem Always.imp {P Q : σ → Prop} (h : ∀ s, P s → Q s) {s : σ} {es : List ι}
    (hs : M.Always P s es) : M.Always Q s es := by
  induction es generalizing s with
  | nil => exact h s hs
  | cons e es ih => exact ⟨h s hs.1, fun t ht => ih (hs.2 t ht)⟩

/-- An invariant holds of every state that a run passes through, however it ends. -/
theorem Preserves.always {C : σ → ι → Prop} {P : σ → Prop} (h : M.Preserves C P) {s : σ}
    {es : List ι} (hs : P s) (hm : M.Meets C s es) : M.Always P s es := by
  induction es generalizing s with
  | nil => exact hs
  | cons e es ih => exact ⟨hs, fun t ht => ih (h s e t hs hm.1 ht) (hm.2 t ht)⟩

theorem Always.meets {P : σ → Prop} {C : σ → ι → Prop} (h : ∀ s e, P s → C s e) {s : σ}
    {es : List ι} (hs : M.Always P s es) : M.Meets C s es := by
  induction es generalizing s with
  | nil => trivial
  | cons e es ih => exact ⟨h s e hs.1, fun t ht => ih (hs.2 t ht)⟩

/-- Let steps among `A` that meet `C` keep an invariant that implies `P`, and let those that do
not meet `C` break `P`.  Then `P` holds throughout a run exactly when all its steps meet `C`. -/
theorem always_iff_meets {A : ι → Prop} {C : σ → ι → Prop} {I P : σ → Prop}
    (hI : ∀ s, I s → P s) (hstep : M.Preserves (fun s e => A e ∧ C s e) I)
    (hP : ∀ s e t, I s → A e → M s e = .ok t → P t → C s e) {s t : σ} {es : List ι} (hs : I s)
    (hA : ∀ e ∈ es, A e) (hr : M.run s es = .ok t) : M.Always P s es ↔ M.Meets C s es := by
  induction es generalizing s with
  | nil => exact ⟨fun _ => trivial, fun _ => hI s hs⟩
  | cons e es ih =>
    obtain ⟨m, he, hr⟩ := M.run_cons_eq_ok.mp hr
    have hm : ∀ n, M s e = .ok n → n = m := fun n hn => Except.ok.inj (hn.symm.trans he)
    have hAe : A e := hA e List.mem_cons_self
    have hrest : ∀ f ∈ es, A f := fun f hf => hA f (List.mem_cons_of_mem _ hf)
    constructor
    · rintro ⟨-, h⟩
      have hc : C s e := hP s e m hs hAe he (h m he).head
      refine ⟨hc, fun n hn => ?_⟩
      rw [hm n hn]
      exact (ih (hstep s e m hs ⟨hAe, hc⟩ he) hrest hr).mp (h m he)
    · rintro ⟨hc, h⟩
      refine ⟨hI s hs, fun n hn => ?_⟩
      rw [hm n hn]
      exact (ih (hstep s e m hs ⟨hAe, hc⟩ he) hrest hr).mpr (h m he)

/-- Let steps that meet `C` keep an invariant that implies `P`, and let a step meet `C` if all that
it reaches has `P`.  Then `P` holds throughout a run exactly when all its steps meet `C`. -/
theorem always_iff_meets_of_invariant {C : σ → ι → Prop} {I P : σ → Prop}
    (hI : ∀ s, I s → P s) (hstep : M.Preserves C I)
    (hP : ∀ s e, I s → (∀ t, M s e = .ok t → P t) → C s e) {s : σ} {es : List ι} (hs : I s) :
    M.Always P s es ↔ M.Meets C s es := by
  induction es generalizing s with
  | nil => exact iff_of_true (hI s hs) trivial
  | cons e es ih =>
    constructor
    · rintro ⟨-, h⟩
      have hc : C s e := hP s e hs fun t ht => (h t ht).head
      exact ⟨hc, fun t ht => (ih (hstep s e t hs hc ht)).mp (h t ht)⟩
    · rintro ⟨hc, h⟩
      exact ⟨hI s hs, fun t ht => (ih (hstep s e t hs hc ht)).mpr (h t ht)⟩

/-- Let a step from a state with `P` reach only states with `P` exactly when it meets `C`.  Then a
run from a state with `P` keeps it exactly when all its steps meet `C`. -/
theorem always_iff_meets_of_step {C : σ → ι → Prop} {P : σ → Prop}
    (hstep : ∀ s e, P s → ((∀ t, M s e = .ok t → P t) ↔ C s e)) {s : σ} {es : List ι} (hs : P s) :
    M.Always P s es ↔ M.Meets C s es :=
  always_iff_meets_of_invariant (fun _ h => h) (fun s e t hs hc => (hstep s e hs).mpr hc t)
    (fun s e hs => (hstep s e hs).mp) hs

/-- Two conditions that agree under an invariant, which the steps that meet them keep. -/
theorem meets_congr_of_meets {A C D : σ → ι → Prop} {I : σ → Prop}
    (hstep : M.Preserves (fun s e => A s e ∧ C s e) I)
    (h : ∀ s e, I s → A s e → (C s e ↔ D s e)) {s : σ} {es : List ι} (hs : I s)
    (hA : M.Meets A s es) : M.Meets C s es ↔ M.Meets D s es := by
  induction es generalizing s with
  | nil => exact Iff.rfl
  | cons e es ih =>
    have hiff := h s e hs hA.1
    have hrest : C s e → ((∀ t, M s e = .ok t → M.Meets C t es) ↔
        ∀ t, M s e = .ok t → M.Meets D t es) := fun hc =>
      forall_congr' fun t => forall_congr' fun ht =>
        ih (hstep s e t hs ⟨hA.1, hc⟩ ht) (hA.2 t ht)
    constructor
    · exact fun ⟨hc, hmeets⟩ => ⟨hiff.mp hc, (hrest hc).mp hmeets⟩
    · exact fun ⟨hd, hmeets⟩ => ⟨hiff.mpr hd, (hrest (hiff.mpr hd)).mpr hmeets⟩

theorem meets_of_run {A : ι → Prop} {s t : σ} {es : List ι} (hA : ∀ e ∈ es, A e)
    (hr : M.run s es = .ok t) : M.Meets (fun s e => A e ∧ ∃ t, M s e = .ok t) s es := by
  induction es generalizing s with
  | nil => trivial
  | cons e es ih =>
    obtain ⟨m, he, hr⟩ := M.run_cons_eq_ok.mp hr
    exact .cons ⟨hA e List.mem_cons_self, m, he⟩ he
      (ih (fun e he => hA e (List.mem_cons_of_mem _ he)) hr)

theorem exists_run_iff_meets {s : σ} {es : List ι} :
    (∃ t, M.run s es = .ok t) ↔ M.Meets (fun s e => ∃ t, M s e = .ok t) s es := by
  induction es generalizing s with
  | nil => exact iff_of_true ⟨s, rfl⟩ trivial
  | cons e es ih =>
    constructor
    · rintro ⟨t, hr⟩
      obtain ⟨m, he, hr⟩ := M.run_cons_eq_ok.mp hr
      exact .cons ⟨m, he⟩ he (ih.mp ⟨t, hr⟩)
    · rintro ⟨⟨m, he⟩, h⟩
      obtain ⟨t, hr⟩ := ih.mpr (h m he)
      exact ⟨t, M.run_cons_eq_ok.mpr ⟨m, he, hr⟩⟩

/-- On a run that does not stop it is enough that they agree on steps that reach a state. -/
theorem meets_congr {A : ι → Prop} {C D : σ → ι → Prop} {I : σ → Prop}
    (hstep : M.Preserves (fun s e => A e ∧ C s e) I)
    (h : ∀ s e t, I s → A e → M s e = .ok t → (C s e ↔ D s e)) {s t : σ} {es : List ι} (hs : I s)
    (hA : ∀ e ∈ es, A e) (hr : M.run s es = .ok t) : M.Meets C s es ↔ M.Meets D s es :=
  meets_congr_of_meets (fun s e t hs hc => hstep s e t hs ⟨hc.1.1, hc.2⟩)
    (fun s e hs ⟨hA, t, he⟩ => h s e t hs hA he) hs (meets_of_run hA hr)

theorem Preserves.run_any {P : σ → Prop} (h : M.Preserves AnyStep P)
    {s t : σ} {es : List ι} (hs : P s) (hr : M.run s es = .ok t) : P t :=
  h.run hs (meets_anyStep s es) hr

theorem exists_run (hM : ∀ s e, ∃ t, M s e = .ok t) (s : σ) (es : List ι) :
    ∃ t, M.run s es = .ok t := by
  induction es generalizing s with
  | nil => exact ⟨s, rfl⟩
  | cons e es ih =>
    obtain ⟨m, hm⟩ := hM s e
    obtain ⟨t, ht⟩ := ih m
    exact ⟨t, M.run_cons_eq_ok.mpr ⟨m, hm, ht⟩⟩

section History
variable {η : Type*} (M) (record : σ → ι → σ → η → η)

/-- The machine with a history variable, which it writes after every step and never reads. -/
def withHistory : Machine (σ × η) ι τ := fun s e =>
  (M s.1 e).map fun t => (t, record s.1 e t s.2)

theorem withHistory_ok_iff {s t : σ × η} {e : ι} :
    M.withHistory record s e = .ok t ↔ M s.1 e = .ok t.1 ∧ t.2 = record s.1 e t.1 s.2 := by
  rw [withHistory, map_ok_iff]
  constructor
  · rintro ⟨m, hm, rfl⟩
    exact ⟨hm, rfl⟩
  · rintro ⟨hm, hh⟩
    exact ⟨t.1, hm, Prod.ext rfl hh.symm⟩

theorem exists_run_withHistory {s t : σ} {es : List ι} (h : M.run s es = .ok t) (n : η) :
    ∃ n', (M.withHistory record).run (s, n) es = .ok (t, n') := by
  induction es generalizing s n with
  | nil =>
    obtain rfl := Except.ok.inj h
    exact ⟨n, rfl⟩
  | cons e es ih =>
    obtain ⟨m, he, hr⟩ := M.run_cons_eq_ok.mp h
    obtain ⟨n', hn'⟩ := ih hr (record s e m n)
    exact ⟨n', (M.withHistory record).run_cons_eq_ok.mpr
      ⟨_, (M.withHistory_ok_iff record).mpr ⟨he, rfl⟩, hn'⟩⟩

end History
end Machine
end Info6350.Library
