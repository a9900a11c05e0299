import Info6350.Library.Regex
import Mathlib.Computability.Language

/-! # The language of a pattern

A pattern without anchors and lookahead reads the words of a language, wherever it stands in the
text.  Patterns often read words with separators, or words of a prefix code up to an end mark; the
first are joined lists, and the second are read off in one way only.
-/

namespace Info6350.Library
open scoped Computability

variable {α : Type*}

namespace Regex

/-- `r?`. -/
def opt (r : Regex α) : Regex α := alt r empty

/-- `r+`. -/
def plus (r : Regex α) : Regex α := seq r (star r)

/-- No `^` and no lookahead. -/
def plain : Regex α → Bool
  | start => false
  | empty => true
  | chars _ => true
  | seq q r => q.plain && r.plain
  | alt q r => q.plain && r.plain
  | star r => r.plain
  | ahead _ => false

def language : Regex α → Language α
  | start => 0
  | empty => 1
  | chars p => {u | ∃ c, u = [c] ∧ p c}
  | seq q r => q.language * r.language
  | alt q r => q.language + r.language
  | star r => r.language∗
  | ahead _ => 0

section Language
variable {p : α → Bool} {q r : Regex α} {u : List α}

theorem mem_language_chars : u ∈ (chars p).language ↔ ∃ c, u = [c] ∧ p c := Iff.rfl

theorem language_seq : (seq q r).language = q.language * r.language := rfl

theorem language_alt : (alt q r).language = q.language + r.language := rfl

theorem language_star : (star r).language = r.language∗ := rfl

theorem language_opt : r.opt.language = r.language + 1 := rfl

theorem language_plus : r.plus.language = r.language * r.language∗ := rfl

theorem mem_language_opt : u ∈ r.opt.language ↔ u = [] ∨ u ∈ r.language := or_comm

theorem mem_language_seq_chars :
    u ∈ (seq (chars p) r).language ↔ ∃ c v, u = c :: v ∧ p c ∧ v ∈ r.language := by
  rw [language_seq, Language.mem_mul]
  constructor
  · rintro ⟨_, ⟨c, rfl, hc⟩, v, hv, rfl⟩
    exact ⟨c, v, rfl, hc, hv⟩
  · rintro ⟨c, v, rfl, hc, hv⟩
    exact ⟨[c], ⟨c, rfl, hc⟩, v, hv, rfl⟩

theorem mem_language_seq_opt :
    u ∈ (seq q.opt r).language ↔ u ∈ (seq q r).language ∨ u ∈ r.language := by
  rw [language_seq, language_opt, add_mul, one_mul]
  rfl

theorem language_times {n : ℕ} : (r.times n).language = r.language ^ n := by
  induction n with
  | zero => rfl
  | succ n ih => rw [times, language_seq, ih, pow_succ']

theorem mem_language_star_chars : u ∈ (star (chars p)).language ↔ ∀ c ∈ u, p c := by
  rw [language_star, Language.mem_kstar]
  constructor
  · rintro ⟨words, rfl, hwords⟩ c hc
    obtain ⟨w, hw, hc⟩ := List.mem_flatten.mp hc
    obtain ⟨c', rfl, hp⟩ := hwords w hw
    exact List.mem_singleton.mp hc ▸ hp
  · intro hu
    refine ⟨u.map fun c => [c], ?_, fun w hw => ?_⟩
    · rw [← List.flatMap_def, List.flatMap_singleton']
    · obtain ⟨c, hc, rfl⟩ := List.mem_map.mp hw
      exact ⟨c, rfl, hu c hc⟩

theorem mem_language_plus_chars : u ∈ (chars p).plus.language ↔ u ≠ [] ∧ ∀ c ∈ u, p c := by
  rw [language_plus, ← language_star, Language.mem_mul]
  constructor
  · rintro ⟨_, ⟨c, rfl, hc⟩, v, hv, rfl⟩
    exact ⟨List.cons_ne_nil c v, List.forall_mem_cons.mpr ⟨hc, mem_language_star_chars.mp hv⟩⟩
  · rintro ⟨hne, hu⟩
    obtain ⟨c, v, rfl⟩ := List.exists_cons_of_ne_nil hne
    obtain ⟨hc, hv⟩ := List.forall_mem_cons.mp hu
    exact ⟨[c], ⟨c, rfl, hc⟩, v, mem_language_star_chars.mpr hv, rfl⟩

end Language

section Reads
variable {text s t : List α} {r : Regex α}

theorem reflTransGen_append_iff {l : Language α} {R : List α → List α → Prop}
    (hR : ∀ s t, R s t ↔ ∃ u ∈ l, s = u ++ t) :
    Relation.ReflTransGen R s t ↔ ∃ u ∈ l∗, s = u ++ t := by
  constructor
  · intro h
    induction h using Relation.ReflTransGen.head_induction_on with
    | refl => exact ⟨[], Language.nil_mem_kstar l, rfl⟩
    | head hstep _ ih =>
      obtain ⟨u, hu, rfl⟩ := (hR _ _).mp hstep
      obtain ⟨v, hv, rfl⟩ := ih
      obtain ⟨words, rfl, hwords⟩ := Language.mem_kstar.mp hv
      refine ⟨(u :: words).flatten, Language.join_mem_kstar ?_, (List.append_assoc ..).symm⟩
      exact List.forall_mem_cons.mpr ⟨hu, hwords⟩
  · rintro ⟨u, hu, rfl⟩
    obtain ⟨words, rfl, hwords⟩ := Language.mem_kstar.mp hu
    clear hu
    induction words with
    | nil => exact .refl
    | cons w words ih =>
      obtain ⟨hw, hwords⟩ := List.forall_mem_cons.mp hwords
      exact .head ((hR _ _).mpr ⟨w, hw, List.append_assoc ..⟩) (ih hwords)

theorem reads_iff_mem_language (hr : r.plain) :
    r.Reads text s t ↔ ∃ u ∈ r.language, s = u ++ t := by
  induction r generalizing s t with
  | start => cases hr
  | empty =>
    constructor
    · rintro rfl
      exact ⟨[], Language.nil_mem_one, rfl⟩
    · rintro ⟨u, hu, rfl⟩
      obtain rfl := (Language.mem_one u).mp hu
      rfl
  | chars p =>
    constructor
    · rintro ⟨c, rfl, hc⟩
      exact ⟨[c], ⟨c, rfl, hc⟩, rfl⟩
    · rintro ⟨_, ⟨c, rfl, hc⟩, rfl⟩
      exact ⟨c, rfl, hc⟩
  | seq q r ihq ihr =>
    obtain ⟨hq, hr⟩ := Bool.and_eq_true_iff.mp hr
    constructor
    · rintro ⟨m, hm, ht⟩
      obtain ⟨u, hu, rfl⟩ := (ihq hq).mp hm
      obtain ⟨v, hv, rfl⟩ := (ihr hr).mp ht
      exact ⟨u ++ v, Language.append_mem_mul hu hv, (List.append_assoc u v t).symm⟩
    · rintro ⟨_, huv, rfl⟩
      obtain ⟨u, hu, v, hv, rfl⟩ := Language.mem_mul.mp huv
      exact ⟨v ++ t, (ihq hq).mpr ⟨u, hu, List.append_assoc u v t⟩, (ihr hr).mpr ⟨v, hv, rfl⟩⟩
  | alt q r ihq ihr =>
    obtain ⟨hq, hr⟩ := Bool.and_eq_true_iff.mp hr
    rw [Reads, ihq hq, ihr hr, language_alt]
    simp only [Language.mem_add, or_and_right, exists_or]
  | star r ih => exact reflTransGen_append_iff fun s t => ih hr
  | ahead r => cases hr

theorem fullMatch_iff_mem_language (hr : r.plain) : r.fullMatch text ↔ text ∈ r.language := by
  rw [fullMatch_iff, reads_iff_mem_language hr]
  simp

end Reads
end Regex

/-! ## Words with separators -/

section Joined
variable {l m : Language α} {a : α} {u : List α} {n : ℕ}

theorem mem_pow_mul_iff : u ∈ (l * {[a]}) ^ n * m ↔
    ∃ (words : List (List α)) (v : List α), words.length = n ∧ (∀ w ∈ words, w ∈ l) ∧ v ∈ m ∧
      u = [a].intercalate (words ++ [v]) := by
  have hjoin : ∀ (w : List α) (words : List (List α)) (v : List α),
      [a].intercalate (w :: words ++ [v]) = w ++ [a] ++ [a].intercalate (words ++ [v]) :=
    fun w words v =>
      List.intercalate_cons_of_ne_nil (List.append_ne_nil_of_right_ne_nil _ (by simp))
  induction n generalizing u with
  | zero =>
    rw [pow_zero, one_mul]
    constructor
    · intro hu
      exact ⟨[], u, rfl, fun _ h => absurd h List.not_mem_nil, hu, List.intercalate_singleton.symm⟩
    · rintro ⟨words, v, hlength, -, hv, rfl⟩
      obtain rfl := List.eq_nil_of_length_eq_zero hlength
      rwa [List.nil_append, List.intercalate_singleton]
  | succ n ih =>
    rw [pow_succ', mul_assoc, Language.mem_mul]
    constructor
    · rintro ⟨_, hfirst, _, hrest, rfl⟩
      obtain ⟨w, hw, _, rfl, rfl⟩ := Language.mem_mul.mp hfirst
      obtain ⟨words, v, hlength, hwords, hv, rfl⟩ := ih.mp hrest
      exact ⟨w :: words, v, congrArg (· + 1) hlength, List.forall_mem_cons.mpr ⟨hw, hwords⟩, hv,
        (hjoin w words v).symm⟩
    · rintro ⟨words, v, hlength, hwords, hv, rfl⟩
      obtain ⟨w, words, rfl⟩ := List.exists_cons_of_length_eq_add_one hlength
      obtain ⟨hw, hwords⟩ := List.forall_mem_cons.mp hwords
      exact ⟨w ++ [a], Language.append_mem_mul hw rfl, _,
        ih.mpr ⟨words, v, Nat.succ.inj hlength, hwords, hv, rfl⟩, (hjoin w words v).symm⟩

theorem mem_pow_mul_self_iff : u ∈ (l * {[a]}) ^ n * l ↔
    ∃ words : List (List α), words.length = n + 1 ∧ (∀ w ∈ words, w ∈ l) ∧
      u = [a].intercalate words := by
  rw [mem_pow_mul_iff]
  constructor
  · rintro ⟨words, v, hlength, hwords, hv, h⟩
    refine ⟨words ++ [v], by simp [hlength], fun w hw => ?_, h⟩
    rcases List.mem_append.mp hw with hw | hw
    · exact hwords w hw
    · exact List.mem_singleton.mp hw ▸ hv
  · rintro ⟨words, hlength, hwords, h⟩
    have hne : words ≠ [] := List.ne_nil_of_length_eq_add_one hlength
    obtain ⟨words, v, rfl⟩ := (List.eq_nil_or_concat' words).resolve_left hne
    exact ⟨words, v, by simpa using hlength, fun w hw => hwords w (by simp [hw]),
      hwords v (by simp), h⟩

theorem mem_mul_kstar_iff : u ∈ l * ({[a]} * l)∗ ↔
    ∃ words : List (List α), words ≠ [] ∧ (∀ w ∈ words, w ∈ l) ∧ u = [a].intercalate words := by
  rw [Language.kstar_eq_iSup_pow, Language.mul_iSup, Language.mem_iSup]
  simp only [← mul_pow_mul, mem_pow_mul_self_iff]
  constructor
  · rintro ⟨n, words, hlength, h⟩
    exact ⟨words, List.ne_nil_of_length_eq_add_one hlength, h⟩
  · rintro ⟨words, hne, h⟩
    obtain ⟨w, words, rfl⟩ := List.exists_cons_of_ne_nil hne
    exact ⟨words.length, w :: words, rfl, h⟩

theorem mem_plus_mul_iff : u ∈ l * {[a]} * (l * {[a]})∗ * l ↔
    ∃ words : List (List α), 2 ≤ words.length ∧ (∀ w ∈ words, w ∈ l) ∧
      u = [a].intercalate words := by
  rw [Language.kstar_eq_iSup_pow, Language.mul_iSup, Language.iSup_mul, Language.mem_iSup]
  simp only [← pow_succ', mem_pow_mul_self_iff]
  constructor
  · rintro ⟨n, words, hlength, h⟩
    exact ⟨words, by omega, h⟩
  · rintro ⟨words, hle, h⟩
    exact ⟨words.length - 2, words, by omega, h⟩

end Joined

theorem mem_mul_kstar_self_iff {l : Language α} {u : List α} (hl : [] ∉ l) :
    u ∈ l * l∗ ↔ u ≠ [] ∧ u ∈ l∗ := by
  rw [← Language.one_add_self_mul_kstar_eq_kstar l, Language.mem_add, Language.mem_one,
    Language.one_add_self_mul_kstar_eq_kstar l]
  constructor
  · intro hu
    refine ⟨?_, .inr hu⟩
    rintro rfl
    obtain ⟨w, hw, v, -, hnil⟩ := Language.mem_mul.mp hu
    obtain ⟨rfl, -⟩ := List.append_eq_nil_iff.mp hnil
    exact hl hw
  · exact fun ⟨hne, hu⟩ => hu.resolve_left hne

theorem mem_singleton_mul_mul_iff {l : Language α} {a b : α} {u : List α} :
    u ∈ {[a]} * (l * {[b]}) ↔ ∃ v ∈ l, u = a :: (v ++ [b]) := by
  constructor
  · intro hu
    obtain ⟨_, rfl, _, hvb, rfl⟩ := Language.mem_mul.mp hu
    obtain ⟨v, hv, _, rfl, rfl⟩ := Language.mem_mul.mp hvb
    exact ⟨v, hv, rfl⟩
  · rintro ⟨v, hv, rfl⟩
    exact Language.append_mem_mul (a := [a]) rfl (Language.append_mem_mul hv rfl)

theorem append_cons_inj {u v s t : List α} {a b : α} (hb : b ∉ u) (ha : a ∉ v)
    (h : u ++ a :: s = v ++ b :: t) : u = v ∧ a = b ∧ s = t := by
  rcases List.append_eq_append_iff.mp h with ⟨_ | ⟨c, w⟩, rfl, hw⟩ | ⟨_ | ⟨c, w⟩, rfl, hw⟩
  · obtain ⟨rfl, rfl⟩ := List.cons.inj hw
    exact ⟨(List.append_nil u).symm, rfl, rfl⟩
  · obtain ⟨rfl, -⟩ := List.cons.inj hw
    exact absurd (by simp) ha
  · obtain ⟨rfl, rfl⟩ := List.cons.inj hw
    exact ⟨List.append_nil v, rfl, rfl⟩
  · obtain ⟨rfl, -⟩ := List.cons.inj hw
    exact absurd (by simp) hb

theorem mem_intercalate_of_mem {s w : List α} {words : List (List α)} {c : α} (hw : w ∈ words)
    (hc : c ∈ w) : c ∈ s.intercalate words := by
  induction words with
  | nil => cases hw
  | cons v words ih =>
    rcases eq_or_ne words [] with rfl | hne
    · obtain rfl := List.mem_singleton.mp hw
      rwa [List.intercalate_singleton]
    · rw [List.intercalate_cons_of_ne_nil hne]
      rcases List.mem_cons.mp hw with rfl | hw
      · exact List.mem_append_left _ (List.mem_append_left _ hc)
      · exact List.mem_append_right _ (ih hw)

theorem eq_or_mem_of_mem_intercalate {a c : α} {words : List (List α)}
    (h : c ∈ [a].intercalate words) : c = a ∨ ∃ w ∈ words, c ∈ w := by
  induction words with
  | nil => cases h
  | cons v words ih =>
    rcases eq_or_ne words [] with rfl | hne
    · rw [List.intercalate_singleton] at h
      exact .inr ⟨v, List.mem_cons_self, h⟩
    · rw [List.intercalate_cons_of_ne_nil hne, List.append_assoc] at h
      rcases List.mem_append.mp h with h | h
      · exact .inr ⟨v, List.mem_cons_self, h⟩
      · rcases List.mem_cons.mp h with rfl | h
        · exact .inl rfl
        · exact (ih h).imp_right fun ⟨w, hw, hc⟩ => ⟨w, List.mem_cons_of_mem v hw, hc⟩

theorem intercalate_ne_nil {a : α} {words : List (List α)} (hne : words ≠ [])
    (hwords : ∀ w ∈ words, w ≠ []) : [a].intercalate words ≠ [] := by
  obtain ⟨w, words, rfl⟩ := List.exists_cons_of_ne_nil hne
  have hw : w ≠ [] := hwords w List.mem_cons_self
  rcases eq_or_ne words [] with rfl | hne
  · rwa [List.intercalate_singleton]
  · rw [List.intercalate_cons_of_ne_nil hne, List.append_assoc]
    exact List.append_ne_nil_of_left_ne_nil hw _

/-- Words without the separator start and end with something else, and no two separators meet. -/
theorem intercalate_separators {a : α} {words : List (List α)} (hne : words ≠ [])
    (hwords : ∀ w ∈ words, w ≠ [] ∧ a ∉ w) : ([a].intercalate words).head? ≠ some a ∧
      ([a].intercalate words).getLast? ≠ some a ∧ ¬ [a, a] <:+: [a].intercalate words := by
  induction words with
  | nil => exact absurd rfl hne
  | cons w words ih =>
    obtain ⟨⟨hw, ha⟩, hrest⟩ := List.forall_mem_cons.mp hwords
    have hhead : ∀ v, (w ++ v).head? ≠ some a := fun v hv =>
      ha (List.mem_of_head? ((List.head?_append_of_ne_nil w hw).symm.trans hv))
    rcases eq_or_ne words [] with rfl | hne
    · rw [List.intercalate_singleton]
      exact ⟨List.append_nil w ▸ hhead [], fun h => ha (List.mem_of_getLast? h),
        fun h => ha (h.subset List.mem_cons_self)⟩
    · obtain ⟨ihhead, ihlast, ihmeet⟩ := ih hne hrest
      rw [List.intercalate_cons_of_ne_nil hne, List.append_assoc]
      refine ⟨hhead _, ?_, ?_⟩
      · have hv : [a].intercalate words ≠ [] := intercalate_ne_nil hne fun w hw => (hrest w hw).1
        rwa [List.getLast?_append_of_ne_nil w (List.append_ne_nil_of_right_ne_nil [a] hv),
          List.getLast?_append_of_ne_nil [a] hv]
      · rw [List.infix_append_iff_ne_nil]
        rintro (h | h | ⟨_ | ⟨c, l₁⟩, l₂, hl₁, -, hl, hsuffix, -⟩)
        · exact ha (h.subset List.mem_cons_self)
        · rcases List.infix_cons_iff.mp h with h | h
          · exact ihhead (List.singleton_prefix_iff_head?_eq_some.mp (List.cons_prefix_cons.mp h).2)
          · exact ihmeet h
        · exact hl₁ rfl
        · obtain ⟨rfl, -⟩ := List.cons.inj hl
          exact ha (hsuffix.subset List.mem_cons_self)

/-! ## Prefix codes -/

/-- No word is a proper prefix of another. -/
def PrefixFree (C : Set (List α)) : Prop := ∀ u ∈ C, ∀ v ∈ C, u <+: v → u = v

/-- Words up to an end mark are read off in one way, whatever follows. -/
theorem PrefixFree.flatten_append_inj {C : Set (List α)} {e s t : List α}
    (hC : PrefixFree (insert e C)) (he : e ∉ C) {us vs : List (List α)} (hus : ∀ u ∈ us, u ∈ C)
    (hvs : ∀ v ∈ vs, v ∈ C) (h : us.flatten ++ (e ++ s) = vs.flatten ++ (e ++ t)) :
    us = vs ∧ s = t := by
  have hword : ∀ {u v s t : List α}, u ∈ insert e C → v ∈ insert e C → u ++ s = v ++ t →
      u = v ∧ s = t := by
    intro u v s t hu hv h
    have huv : u = v := by
      rcases List.prefix_or_prefix_of_prefix ⟨s, rfl⟩ ⟨t, h.symm⟩ with hpre | hpre
      · exact hC u hu v hv hpre
      · exact (hC v hv u hu hpre).symm
    subst huv
    exact ⟨rfl, List.append_cancel_left h⟩
  induction us generalizing vs with
  | nil =>
    cases vs with
    | nil => exact ⟨rfl, (hword (.inl rfl) (.inl rfl) h).2⟩
    | cons v vs =>
      have hv : v ∈ C := hvs v List.mem_cons_self
      rw [List.flatten_cons, List.append_assoc] at h
      exact absurd ((hword (.inl rfl) (.inr hv) h).1 ▸ hv) he
  | cons u us ih =>
    obtain ⟨hu, hrest⟩ := List.forall_mem_cons.mp hus
    rw [List.flatten_cons, List.append_assoc] at h
    cases vs with
    | nil => exact absurd ((hword (.inr hu) (.inl rfl) h).1 ▸ hu) he
    | cons v vs =>
      obtain ⟨hv, hrest'⟩ := List.forall_mem_cons.mp hvs
      rw [List.flatten_cons, List.append_assoc] at h
      obtain ⟨rfl, htail⟩ := hword (.inr hu) (.inr hv) h
      obtain ⟨rfl, rfl⟩ := ih hrest hrest' htail
      exact ⟨rfl, rfl⟩

end Info6350.Library
