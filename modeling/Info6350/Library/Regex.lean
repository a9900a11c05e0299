import Mathlib.Logic.Relation
import Mathlib.Data.List.Infix
import Mathlib.Tactic

/-! # Regular expressions with lookahead

A pattern relates what is left of a text before it reads to what is left afterwards; sequences are
composed relations, a repetition is the reflexive and transitive closure, and a lookahead reads
without moving.  `rests` computes the relation, and a text matches when all of it can be read.
-/

namespace Info6350.Library

/-- Patterns over the characters `α`. -/
inductive Regex (α : Type*) where
  /-- `^`, at the start of the text only. -/
  | start
  | empty
  /-- One character of a class. -/
  | chars (p : α → Bool)
  | seq (q r : Regex α)
  | alt (q r : Regex α)
  | star (r : Regex α)
  /-- `(?=r)`. -/
  | ahead (r : Regex α)

namespace Regex
variable {α : Type*} (text : List α)

/-- `r{n}`. -/
def times (r : Regex α) : ℕ → Regex α
  | 0 => empty
  | n + 1 => seq r (times r n)

/-- `r{n,}`. -/
def atLeast (r : Regex α) (n : ℕ) : Regex α := seq (r.times n) (star r)

/-- A pattern reads from one rest of the text to another. -/
def Reads : Regex α → List α → List α → Prop
  | start, s, t => s.length = text.length ∧ t = s
  | empty, s, t => t = s
  | chars p, s, t => ∃ c, s = c :: t ∧ p c
  | seq q r, s, t => ∃ m, q.Reads s m ∧ r.Reads m t
  | alt q r, s, t => q.Reads s t ∨ r.Reads s t
  | star r, s, t => Relation.ReflTransGen r.Reads s t
  | ahead r, s, t => t = s ∧ ∃ m, r.Reads s m

/-- The rests that some rounds of `f` lead to, each of which gets shorter. -/
def closure (f : List α → List (List α)) : ℕ → List α → List (List α)
  | 0, s => [s]
  | n + 1, s => s :: ((f s).filter fun t => t.length < s.length).flatMap (closure f n)

def rests : Regex α → List α → List (List α)
  | start, s => if s.length = text.length then [s] else []
  | empty, s => [s]
  | chars _, [] => []
  | chars p, c :: s => if p c then [s] else []
  | seq q r, s => (q.rests s).flatMap r.rests
  | alt q r, s => q.rests s ++ r.rests s
  | star r, s => closure r.rests s.length s
  | ahead r, s => if (r.rests s).isEmpty then [] else [s]

def fullMatch (r : Regex α) : Bool := (r.rests text text).any List.isEmpty

variable {text} {r : Regex α} {s t : List α}

theorem Reads.suffix (h : r.Reads text s t) : t <:+ s := by
  induction r generalizing s t with
  | start => exact h.2 ▸ List.suffix_refl s
  | empty => exact h ▸ List.suffix_refl s
  | chars p =>
    obtain ⟨c, rfl, -⟩ := h
    exact List.suffix_cons c t
  | seq q r ihq ihr =>
    obtain ⟨m, hq, hr⟩ := h
    exact (ihr hr).trans (ihq hq)
  | alt q r ihq ihr => exact h.elim ihq ihr
  | star r ih =>
    induction h with
    | refl => exact List.suffix_refl s
    | tail _ hstep ihs => exact (ih hstep).trans ihs
  | ahead r => exact h.1 ▸ List.suffix_refl s

/-- Rounds that do not get shorter stay where they are, so `closure` leaves none out. -/
theorem mem_closure_iff {f : List α → List (List α)} (hf : ∀ s, ∀ t ∈ f s, t <:+ s) {n : ℕ}
    (hn : s.length ≤ n) :
    t ∈ closure f n s ↔ Relation.ReflTransGen (fun s t => t ∈ f s) s t := by
  induction n generalizing s with
  | zero =>
    obtain rfl := List.eq_nil_of_length_eq_zero (Nat.le_zero.mp hn)
    constructor
    · intro h
      obtain rfl := List.mem_singleton.mp h
      exact .refl
    · intro h
      have hnil : t <:+ [] := by
        induction h with
        | refl => exact List.suffix_refl []
        | tail _ hstep ih => exact (hf _ _ hstep).trans ih
      exact List.mem_singleton.mpr (List.suffix_nil.mp hnil)
  | succ n ih =>
    constructor
    · intro h
      rcases List.mem_cons.mp h with rfl | h
      · exact .refl
      · obtain ⟨m, hm, ht⟩ := List.mem_flatMap.mp h
        obtain ⟨hm, hlt⟩ := List.mem_filter.mp hm
        have hlt : m.length < s.length := of_decide_eq_true hlt
        exact .head hm ((ih (by omega)).mp ht)
    · intro h
      induction h using Relation.ReflTransGen.head_induction_on with
      | refl => exact List.mem_cons_self
      | @head s m hstep hrest ihs =>
        have hsuffix := hf s m hstep
        by_cases hlt : m.length < s.length
        · refine List.mem_cons_of_mem _ (List.mem_flatMap.mpr ⟨m, ?_, (ih (by omega)).mpr hrest⟩)
          exact List.mem_filter.mpr ⟨hstep, decide_eq_true hlt⟩
        · obtain rfl := hsuffix.eq_of_length_le (by omega)
          exact ihs hn

/-- `rests` computes what a pattern reads to. -/
theorem mem_rests_iff : t ∈ r.rests text s ↔ r.Reads text s t := by
  induction r generalizing s t with
  | start =>
    unfold rests Reads
    by_cases h : s.length = text.length
    · rw [if_pos h, List.mem_singleton, and_iff_right h]
    · rw [if_neg h]
      exact iff_of_false List.not_mem_nil fun ⟨hs, _⟩ => h hs
  | empty => exact List.mem_singleton
  | chars p =>
    cases s with
    | nil =>
      refine iff_of_false List.not_mem_nil ?_
      rintro ⟨c, h, -⟩
      cases h
    | cons c s =>
      unfold rests Reads
      by_cases h : p c = true
      · rw [if_pos h, List.mem_singleton]
        constructor
        · rintro rfl
          exact ⟨c, rfl, h⟩
        · rintro ⟨c', hcons, -⟩
          exact (List.cons.inj hcons).2.symm
      · rw [if_neg h]
        refine iff_of_false List.not_mem_nil ?_
        rintro ⟨c', hcons, hc⟩
        exact h ((List.cons.inj hcons).1 ▸ hc)
  | seq q r ihq ihr => simp [rests, Reads, ihq, ihr]
  | alt q r ihq ihr => simp [rests, Reads, ihq, ihr]
  | star r ih =>
    rw [rests, mem_closure_iff (fun s t ht => (ih.mp ht).suffix) le_rfl]
    simp only [ih]
    rfl
  | ahead r ih =>
    have hsome : (∃ m, r.Reads text s m) ↔ (r.rests text s).isEmpty = false := by
      rw [List.isEmpty_eq_false_iff_exists_mem]
      exact exists_congr fun m => ih.symm
    unfold rests Reads
    rw [hsome]
    cases (r.rests text s).isEmpty <;> simp

theorem fullMatch_iff : r.fullMatch text = true ↔ r.Reads text text [] := by
  rw [fullMatch, List.any_eq_true, ← mem_rests_iff]
  constructor
  · rintro ⟨t, ht, hempty⟩
    exact List.isEmpty_iff.mp hempty ▸ ht
  · exact fun h => ⟨[], h, rfl⟩

/-! ## Character classes -/

theorem reads_star_chars_iff {p : α → Bool} :
    (star (chars p)).Reads text s t ↔ ∃ u, s = u ++ t ∧ ∀ c ∈ u, p c := by
  constructor
  · intro h
    induction h using Relation.ReflTransGen.head_induction_on with
    | refl => exact ⟨[], rfl, fun _ h => by cases h⟩
    | head hstep _ ih =>
      obtain ⟨c, rfl, hc⟩ := hstep
      obtain ⟨u, rfl, hu⟩ := ih
      exact ⟨c :: u, rfl, List.forall_mem_cons.mpr ⟨hc, hu⟩⟩
  · rintro ⟨u, rfl, hu⟩
    induction u with
    | nil => exact .refl
    | cons c u ih =>
      obtain ⟨hc, hu⟩ := List.forall_mem_cons.mp hu
      exact .head ⟨c, rfl, hc⟩ (ih hu)

theorem reads_times_chars_iff {p : α → Bool} {n : ℕ} :
    ((chars p).times n).Reads text s t ↔ ∃ u, s = u ++ t ∧ u.length = n ∧ ∀ c ∈ u, p c := by
  induction n generalizing s with
  | zero =>
    constructor
    · rintro rfl
      exact ⟨[], rfl, rfl, fun _ h => by cases h⟩
    · rintro ⟨u, rfl, hu, -⟩
      obtain rfl := List.eq_nil_of_length_eq_zero hu
      rfl
  | succ n ih =>
    constructor
    · rintro ⟨m, ⟨c, rfl, hc⟩, hm⟩
      obtain ⟨u, rfl, hlength, hu⟩ := ih.mp hm
      exact ⟨c :: u, rfl, congrArg (· + 1) hlength, List.forall_mem_cons.mpr ⟨hc, hu⟩⟩
    · rintro ⟨u, rfl, hlength, hu⟩
      obtain ⟨c, u, rfl⟩ := List.exists_cons_of_length_eq_add_one hlength
      obtain ⟨hc, hu⟩ := List.forall_mem_cons.mp hu
      exact ⟨u ++ t, ⟨c, rfl, hc⟩, ih.mpr ⟨u, rfl, Nat.succ.inj hlength, hu⟩⟩

theorem reads_atLeast_chars_iff {p : α → Bool} {n : ℕ} :
    ((chars p).atLeast n).Reads text s t ↔ ∃ u, s = u ++ t ∧ n ≤ u.length ∧ ∀ c ∈ u, p c := by
  constructor
  · rintro ⟨m, hm, ht⟩
    obtain ⟨u, rfl, hlength, hu⟩ := reads_times_chars_iff.mp hm
    obtain ⟨v, rfl, hv⟩ := reads_star_chars_iff.mp ht
    refine ⟨u ++ v, (List.append_assoc u v t).symm, by simp [← hlength], ?_⟩
    exact fun c hc => (List.mem_append.mp hc).elim (hu c) (hv c)
  · rintro ⟨u, rfl, hlength, hu⟩
    refine ⟨u.drop n ++ t, reads_times_chars_iff.mpr ⟨u.take n, ?_, ?_, ?_⟩,
      reads_star_chars_iff.mpr ⟨u.drop n, rfl, fun c hc => hu c (List.mem_of_mem_drop hc)⟩⟩
    · rw [← List.append_assoc, List.take_append_drop]
    · exact List.length_take_of_le hlength
    · exact fun c hc => hu c (List.mem_of_mem_take hc)

/-- `(?=.*[q])` on a text of characters that `.` reads. -/
theorem reads_ahead_iff {p q : α → Bool} (hs : ∀ c ∈ s, p c) :
    (ahead (seq (star (chars p)) (chars q))).Reads text s t ↔ t = s ∧ ∃ c ∈ s, q c := by
  refine and_congr_right fun _ => ?_
  constructor
  · rintro ⟨m, m', hm', c, rfl, hc⟩
    obtain ⟨u, rfl, -⟩ := reads_star_chars_iff.mp hm'
    exact ⟨c, by simp, hc⟩
  · rintro ⟨c, hmem, hc⟩
    obtain ⟨u, v, rfl⟩ := List.append_of_mem hmem
    exact ⟨v, c :: v, reads_star_chars_iff.mpr ⟨u, rfl,
      fun x hx => hs x (List.mem_append_left _ hx)⟩, c, rfl, hc⟩

end Regex
end Info6350.Library
