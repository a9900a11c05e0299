import Mathlib.Logic.Relation
import Info6350.Library.Machine

/-! # Regions of a machine that runs by itself

A region of the states stands for the body of a function.  The machine passes through the region
until it leaves it, stops inside it, or goes on inside it for ever.  Its steps are determined, so
what happens from a state is what happens from any state that it passes from there.
-/

namespace Info6350.Library.Machine
variable {σ τ : Type*} (M : Machine σ Unit τ) (Inside : σ → Prop)

/-- Some steps, each from a state of the region. -/
def Passes : σ → σ → Prop := Relation.ReflTransGen fun s t => Inside s ∧ M s () = .ok t

/-- The first state outside the region. -/
def Leaves (s t : σ) : Prop := M.Passes Inside s t ∧ ¬ Inside t

/-- A step from a state of the region stops the machine. -/
def StopsInside (s : σ) (x : τ) : Prop := ∃ t, M.Passes Inside s t ∧ Inside t ∧ M t () = .error x

/-- The machine does not stay in the region for ever. -/
def Ends (s : σ) : Prop := (∃ t, M.Leaves Inside s t) ∨ ∃ x, M.StopsInside Inside s x

variable {M Inside} {s t u : σ} {x : τ}

theorem Passes.refl : M.Passes Inside s s := Relation.ReflTransGen.refl

theorem Passes.trans (h : M.Passes Inside s t) (h' : M.Passes Inside t u) :
    M.Passes Inside s u := Relation.ReflTransGen.trans h h'

theorem Passes.head (hs : Inside s) (hstep : M s () = .ok t) (h : M.Passes Inside t u) :
    M.Passes Inside s u := Relation.ReflTransGen.head ⟨hs, hstep⟩ h

theorem Passes.single (hs : Inside s) (hstep : M s () = .ok t) : M.Passes Inside s t :=
  .head hs hstep .refl

/-- What every step inside the region keeps holds of every state that is passed. -/
theorem Passes.keeps {I : σ → Prop} (h : M.Passes Inside s t)
    (hI : ∀ s t, I s → Inside s → M s () = .ok t → I t) (hs : I s) : I t := by
  induction h with
  | refl => exact hs
  | tail _ hstep ih => exact hI _ _ ih hstep.1 hstep.2

/-- No step starts outside the region or where the machine stops. -/
theorem Passes.eq_of_last (h : M.Passes Inside t u) (ht : Inside t → ∀ m, M t () ≠ .ok m) :
    u = t := by
  rcases Relation.ReflTransGen.cases_head h with rfl | ⟨m, ⟨hin, hstep⟩, -⟩
  · rfl
  · exact absurd hstep (ht hin m)

theorem Passes.total (h : M.Passes Inside s t) (h' : M.Passes Inside s u) :
    M.Passes Inside t u ∨ M.Passes Inside u t :=
  Relation.ReflTransGen.total_of_right_unique
    (fun _ _ _ hb hc => Except.ok.inj (hb.2.symm.trans hc.2)) h h'

theorem Passes.leaves_iff (h : M.Passes Inside s t) :
    M.Leaves Inside s u ↔ M.Leaves Inside t u := by
  refine ⟨fun ⟨hpass, hout⟩ => ⟨?_, hout⟩, fun ⟨hpass, hout⟩ => ⟨h.trans hpass, hout⟩⟩
  rcases h.total hpass with htu | hut
  · exact htu
  · rw [hut.eq_of_last fun hin => absurd hin hout]
    exact .refl

theorem Passes.stopsInside_iff (h : M.Passes Inside s t) :
    M.StopsInside Inside s x ↔ M.StopsInside Inside t x := by
  constructor
  · rintro ⟨u, hpass, hin, hstop⟩
    rcases h.total hpass with htu | hut
    · exact ⟨u, htu, hin, hstop⟩
    · obtain rfl := hut.eq_of_last fun _ m hm => by cases hstop.symm.trans hm
      exact ⟨t, .refl, hin, hstop⟩
  · rintro ⟨u, hpass, hin, hstop⟩
    exact ⟨u, h.trans hpass, hin, hstop⟩

theorem Passes.ends_iff (h : M.Passes Inside s t) : M.Ends Inside s ↔ M.Ends Inside t :=
  or_congr (exists_congr fun _ => h.leaves_iff) (exists_congr fun _ => h.stopsInside_iff)

theorem leaves_iff_of_not_inside (hs : ¬ Inside s) : M.Leaves Inside s t ↔ t = s := by
  refine ⟨fun h => h.1.eq_of_last fun hin => absurd hin hs, ?_⟩
  rintro rfl
  exact ⟨.refl, hs⟩

theorem Leaves.unique (h : M.Leaves Inside s t) (h' : M.Leaves Inside s u) : u = t :=
  (leaves_iff_of_not_inside h.2).mp (h.1.leaves_iff.mp h')

theorem Leaves.not_stopsInside (h : M.Leaves Inside s t) : ¬ M.StopsInside Inside s x := by
  intro hstop
  obtain ⟨u, hpass, hin, -⟩ := h.1.stopsInside_iff.mp hstop
  obtain rfl := hpass.eq_of_last fun hin => absurd hin h.2
  exact h.2 hin

theorem StopsInside.unique {y : τ} (h : M.StopsInside Inside s x)
    (h' : M.StopsInside Inside s y) : y = x := by
  obtain ⟨t, hpass, -, hx⟩ := h
  obtain ⟨u, hpass', -, hy⟩ := hpass.stopsInside_iff.mp h'
  obtain rfl := hpass'.eq_of_last fun _ m hm => by cases hx.symm.trans hm
  exact Except.error.inj (hy.symm.trans hx)

theorem stopsInside_of_error (hs : Inside s) (hstep : M s () = .error x) :
    M.StopsInside Inside s x := ⟨s, .refl, hs, hstep⟩

/-- A step that leaves the region is the only one. -/
theorem passes_iff_of_step (hs : Inside s) (hstep : M s () = .ok t) (ht : ¬ Inside t) :
    M.Passes Inside s u ↔ u = s ∨ u = t := by
  constructor
  · intro h
    rcases Relation.ReflTransGen.cases_head h with rfl | ⟨m, ⟨-, hm⟩, hrest⟩
    · exact .inl rfl
    · obtain rfl := Except.ok.inj (hstep.symm.trans hm)
      exact .inr (Passes.eq_of_last hrest fun hin => absurd hin ht)
  · rintro (rfl | rfl)
    · exact .refl
    · exact .single hs hstep

theorem ends_of_step (hs : Inside s) (h : ∀ t, M s () = .ok t → ¬ Inside t) : M.Ends Inside s := by
  cases hstep : M s () with
  | ok t => exact .inl ⟨t, .single hs hstep, h t hstep⟩
  | error x => exact .inr ⟨x, stopsInside_of_error hs hstep⟩

/-- A set of states of the region that every step stays in is never left. -/
theorem not_ends_of_stays {I : σ → Prop}
    (hI : ∀ s, I s → Inside s ∧ ∃ t, M s () = .ok t ∧ I t) (hs : I s) : ¬ M.Ends Inside s := by
  have hkeeps : ∀ t, M.Passes Inside s t → I t := fun t h =>
    h.keeps (fun s t hs _ hstep => by
      obtain ⟨-, t', hstep', ht⟩ := hI s hs
      exact Except.ok.inj (hstep'.symm.trans hstep) ▸ ht) hs
  rintro (⟨t, hpass, hout⟩ | ⟨x, t, hpass, -, hstop⟩)
  · exact hout (hI t (hkeeps t hpass)).1
  · obtain ⟨-, t', hstep, -⟩ := hI t (hkeeps t hpass)
    cases hstop.symm.trans hstep

end Info6350.Library.Machine
