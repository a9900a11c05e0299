import Mathlib.Data.List.Nodup
import Mathlib.Logic.Function.Basic
import Mathlib.Tactic

/-! # Lists of records with a primary key

A list of records with distinct keys represents a finite map from keys to
records.  The edits that keep the keys distinct (append a new key, rewrite a row
in place, remove a row) are described on lists and on the maps they represent,
and `lookup_onList` says that the two descriptions agree.
-/

namespace Info6350.Library

/-- Records that carry their primary key. -/
class Keyed (α : Type*) (κ : outParam Type*) where
  key : α → κ

open Keyed

variable {α κ : Type*} [Keyed α κ]

def keys (l : List α) : List κ := l.map key

def Distinct (l : List α) : Prop := (keys l).Nodup

@[simp] theorem keys_append (l m : List α) : keys (l ++ m) = keys l ++ keys m :=
  List.map_append

theorem mem_keys {l : List α} {k : κ} : k ∈ keys l ↔ ∃ x ∈ l, key x = k := List.mem_map

theorem key_mem_keys {l : List α} {x : α} (h : x ∈ l) : key x ∈ keys l := List.mem_map_of_mem h

theorem Distinct.nil : Distinct ([] : List α) := List.nodup_nil

instance [DecidableEq κ] (l : List α) : Decidable (Distinct l) :=
  inferInstanceAs (Decidable (keys l).Nodup)

theorem Distinct.eq_of_key_eq {l : List α} (h : Distinct l) {x y : α} (hx : x ∈ l) (hy : y ∈ l)
    (hk : key x = key y) : x = y :=
  List.inj_on_of_nodup_map h hx hy hk

theorem Distinct.sublist {l m : List α} (h : Distinct m) (hs : List.Sublist l m) : Distinct l :=
  List.Nodup.sublist (hs.map key) h

theorem keys_modify (l : List α) (i : ℕ) {f : α → α} (hf : ∀ x, key (f x) = key x) :
    keys (l.modify i f) = keys l := by
  induction l generalizing i with
  | nil => cases i <;> rfl
  | cons a l ih =>
    cases i with
    | zero => simp [keys, hf]
    | succ i => simpa [keys] using ih i

theorem Distinct.row_inj {l : List α} (h : Distinct l) {i j : ℕ} {x y : α}
    (hi : l[i]? = some x) (hj : l[j]? = some y) (hk : key x = key y) : i = j := by
  obtain ⟨hil, rfl⟩ := List.getElem?_eq_some_iff.mp hi
  obtain ⟨hjl, rfl⟩ := List.getElem?_eq_some_iff.mp hj
  have hi : i < (keys l).length := by simpa [keys] using hil
  have hj : j < (keys l).length := by simpa [keys] using hjl
  have hij : (keys l)[i] = (keys l)[j] := by simpa [keys] using hk
  exact (List.Nodup.getElem_inj_iff h).mp hij

section Lookup
variable [DecidableEq κ]

/-- Removing a row leaves the records with other keys, in order. -/
theorem Distinct.eraseIdx_eq_filter {l : List α} (h : Distinct l) {row : ℕ} {x : α}
    (hx : l[row]? = some x) : l.eraseIdx row = l.filter fun y => key y ≠ key x := by
  induction l generalizing row with
  | nil => cases hx
  | cons a l ih =>
    obtain ⟨ha, hl⟩ := List.nodup_cons.mp h
    cases row with
    | zero =>
      obtain rfl := Option.some.inj hx
      have hself : (l.filter fun y => key y ≠ key a) = l :=
        List.filter_eq_self.mpr fun y hy => decide_eq_true fun hk => ha (hk ▸ key_mem_keys hy)
      simpa using hself.symm
    | succ row =>
      have hne : key a ≠ key x := fun hk => ha (hk ▸ key_mem_keys (List.mem_of_getElem? hx))
      simpa [hne] using ih hl hx

/-- Rewriting the row with a key rewrites the record with the key and no other. -/
theorem Distinct.modify_eq_map {l : List α} (h : Distinct l) {row : ℕ} {x : α}
    (hx : l[row]? = some x) (f : α → α) :
    l.modify row f = l.map fun y => if key y = key x then f y else y := by
  induction l generalizing row with
  | nil => cases hx
  | cons a l ih =>
    obtain ⟨ha, hl⟩ := List.nodup_cons.mp h
    cases row with
    | zero =>
      obtain rfl := Option.some.inj hx
      have hself : (l.map fun y => if key y = key a then f y else y) = l := by
        conv_rhs => rw [← List.map_id l]
        refine List.map_congr_left fun y hy => if_neg ?_
        exact fun hk => ha (hk ▸ key_mem_keys hy)
      simp [hself]
    | succ row =>
      have hne : key a ≠ key x := fun hk => ha (hk ▸ key_mem_keys (List.mem_of_getElem? hx))
      simpa [hne] using ih hl hx

/-- The finite map that a list of records represents. -/
def lookup (l : List α) (k : κ) : Option α := l.find? (fun x => key x = k)

theorem lookup_some {l : List α} {k : κ} {x : α} (h : lookup l k = some x) :
    x ∈ l ∧ key x = k :=
  ⟨List.mem_of_find?_eq_some h, by simpa using List.find?_some h⟩

theorem lookup_eq_none_iff {l : List α} {k : κ} : lookup l k = none ↔ k ∉ keys l := by
  simp [lookup, mem_keys]

theorem Distinct.lookup_eq_some_iff {l : List α} (h : Distinct l) {k : κ} {x : α} :
    lookup l k = some x ↔ x ∈ l ∧ key x = k := by
  refine ⟨lookup_some, ?_⟩
  rintro ⟨hx, rfl⟩
  cases hl : lookup l (key x) with
  | none => exact absurd (key_mem_keys hx) (lookup_eq_none_iff.mp hl)
  | some y =>
    obtain ⟨hy, hk⟩ := lookup_some hl
    rw [h.eq_of_key_eq hy hx hk]

/-- The first row with a key, `l.firstIndex(where: { $0.id == k })`. -/
def firstIndex (l : List α) (k : κ) : Option ℕ := l.findIdx? (fun x => key x = k)

theorem firstIndex_isSome_iff {l : List α} {k : κ} : (firstIndex l k).isSome ↔ k ∈ keys l := by
  simp [firstIndex, mem_keys]

theorem not_mem_keys_of_firstIndex {l : List α} {k : κ} (h : firstIndex l k = none) :
    k ∉ keys l := by
  rw [← firstIndex_isSome_iff, h]
  simp

theorem firstIndex_some {l : List α} {k : κ} {i : ℕ} (h : firstIndex l k = some i) :
    ∃ x, l[i]? = some x ∧ key x = k := by
  obtain ⟨hi, hk, _⟩ := List.findIdx?_eq_some_iff_getElem.mp h
  exact ⟨_, List.getElem?_eq_getElem hi, by simpa using hk⟩

theorem Distinct.firstIndex_eq {l : List α} (h : Distinct l) {row : ℕ} {x : α}
    (hx : l[row]? = some x) : firstIndex l (key x) = some row := by
  have hmem : key x ∈ keys l := key_mem_keys (List.mem_of_getElem? hx)
  obtain ⟨i, hi⟩ := Option.isSome_iff_exists.mp (firstIndex_isSome_iff.mpr hmem)
  obtain ⟨y, hy, hkey⟩ := firstIndex_some hi
  rw [hi, h.row_inj hy hx hkey]

/-- Replacing what is held at one key updates the map at that key. -/
theorem lookup_eq_update {l m : List α} (hl : Distinct l) (hm : Distinct m) {k : κ} {o : Option α}
    (ho : ∀ x, o = some x → key x = k)
    (h : ∀ z, z ∈ m ↔ o = some z ∨ (z ∈ l ∧ key z ≠ k)) :
    lookup m = Function.update (lookup l) k o := by
  funext j
  ext z
  rw [hm.lookup_eq_some_iff, h z]
  by_cases hj : j = k
  · subst hj
    rw [Function.update_self]
    constructor
    · rintro ⟨hz | ⟨_, hne⟩, hk⟩
      · exact hz
      · exact absurd hk hne
    · exact fun hz => ⟨.inl hz, ho z hz⟩
  · rw [Function.update_of_ne hj, hl.lookup_eq_some_iff]
    constructor
    · rintro ⟨hz | ⟨hz, _⟩, hk⟩
      · exact absurd (hk.symm.trans (ho z hz)) hj
      · exact ⟨hz, hk⟩
    · rintro ⟨hz, rfl⟩
      exact ⟨.inr ⟨hz, hj⟩, rfl⟩

end Lookup

section Rows
variable {l : List α} {row : ℕ} {x y : α}

theorem mem_set_iff (h : row < l.length) : y ∈ l.set row x ↔ y = x ∨ y ∈ l.eraseIdx row := by
  rw [List.set_eq_take_append_cons_drop, if_pos h, List.eraseIdx_eq_take_drop_succ]
  simp only [List.mem_append, List.mem_cons]
  exact or_left_comm

theorem mem_eraseIdx_of_ne (hx : l[row]? = some x) (hy : y ∈ l) (hne : y ≠ x) :
    y ∈ l.eraseIdx row := by
  obtain ⟨i, hi, rfl⟩ := List.getElem_of_mem hy
  refine List.mem_eraseIdx_iff_getElem.mpr ⟨i, hi, ?_, rfl⟩
  rintro rfl
  obtain ⟨_, rfl⟩ := List.getElem?_eq_some_iff.mp hx
  exact hne rfl

end Rows

/-- The edits of a list of records: append one, rewrite a row, remove a row. -/
inductive Edit (α : Type*) where
  | keep
  | create (x : α)
  | update (row : ℕ) (x : α)
  | delete (row : ℕ)

namespace Edit

def onList : Edit α → List α → List α
  | keep, l => l
  | create x, l => l ++ [x]
  | update row x, l => l.set row x
  | delete row, l => l.eraseIdx row

/-- A new key, the key that the row already has, or a row of the list. -/
def Legal : Edit α → List α → Prop
  | keep, _ => True
  | create x, l => key x ∉ keys l
  | update row x, l => ∃ y, l[row]? = some y ∧ key y = key x
  | delete row, l => row < l.length

def Idle : Edit α → List α → Prop
  | keep, _ => True
  | create _, _ => False
  | update row x, l => l[row]? = some x
  | delete _, _ => False

theorem onList_of_idle {e : Edit α} {l : List α} (he : e.Idle l) : e.onList l = l := by
  cases e with
  | keep => rfl
  | create x => exact he.elim
  | update row x =>
    obtain ⟨hrow, rfl⟩ := List.getElem?_eq_some_iff.mp he
    exact List.set_getElem_self hrow
  | delete row => exact he.elim

theorem mem_onList {e : Edit α} {l : List α} {x : α} (h : x ∈ e.onList l) :
    x ∈ l ∨ e = create x ∨ ∃ row, e = update row x := by
  cases e with
  | keep => exact .inl h
  | create y =>
    rcases List.mem_append.mp h with h | h
    · exact .inl h
    · exact .inr (.inl (by rw [List.mem_singleton.mp h]))
  | update row y =>
    rcases List.mem_or_eq_of_mem_set h with h | rfl
    · exact .inl h
    · exact .inr (.inr ⟨row, rfl⟩)
  | delete row => exact .inl (List.mem_of_mem_eraseIdx h)

theorem keys_update {l : List α} {row : ℕ} {x : α} (h : (update row x).Legal l) :
    keys ((update row x).onList l) = keys l := by
  obtain ⟨y, hy, hk⟩ := h
  obtain ⟨hr, rfl⟩ := List.getElem?_eq_some_iff.mp hy
  have hrk : row < (keys l).length := by simpa [keys] using hr
  have hrow : (keys l)[row] = key x := by simpa [keys] using hk
  change (l.set row x).map key = keys l
  rw [List.map_set, ← hrow]
  exact List.set_getElem_self _

theorem distinct_onList {e : Edit α} {l : List α} (h : Distinct l) (he : e.Legal l) :
    Distinct (e.onList l) := by
  cases e with
  | keep => exact h
  | create x =>
    have hx : key x ∉ keys l := he
    change (keys (l ++ [x])).Nodup
    rw [keys_append]
    exact List.Nodup.append h (List.nodup_singleton _)
      (List.disjoint_singleton.mpr hx)
  | update row x =>
    change (keys _).Nodup
    rw [keys_update he]
    exact h
  | delete row => exact h.sublist (List.eraseIdx_sublist l row)

theorem mem_create {l : List α} {x : α} (he : (create x).Legal l) {z : α} :
    z ∈ (create x).onList l ↔ z = x ∨ (z ∈ l ∧ key z ≠ key x) := by
  have hne : z ∈ l → key z ≠ key x := fun hz hk => he (hk ▸ key_mem_keys hz)
  simp only [onList, List.mem_append, List.mem_singleton]
  constructor
  · rintro (hz | rfl)
    · exact .inr ⟨hz, hne hz⟩
    · exact .inl rfl
  · rintro (rfl | ⟨hz, _⟩)
    · exact .inr rfl
    · exact .inl hz

theorem mem_delete {l : List α} (h : Distinct l) {row : ℕ} {y : α}
    (hy : l[row]? = some y) {z : α} :
    z ∈ (delete row).onList l ↔ z ∈ l ∧ key z ≠ key y := by
  constructor
  · intro hz
    obtain ⟨i, hi, hne, rfl⟩ := List.mem_eraseIdx_iff_getElem.mp hz
    refine ⟨List.getElem_mem _, fun hkey => hne ?_⟩
    exact h.row_inj (List.getElem?_eq_getElem hi) hy hkey
  · rintro ⟨hz, hne⟩
    exact mem_eraseIdx_of_ne hy hz fun hzy => hne (congrArg key hzy)

theorem mem_update {l : List α} (h : Distinct l) {row : ℕ} {x : α}
    (he : (update row x).Legal l) {z : α} :
    z ∈ (update row x).onList l ↔ z = x ∨ (z ∈ l ∧ key z ≠ key x) := by
  obtain ⟨y, hy, hk⟩ := he
  have hrow := (List.getElem?_eq_some_iff.mp hy).choose
  rw [onList, mem_set_iff hrow, ← hk, ← mem_delete h hy]
  rfl

/-- A legal edit after which the list holds the same records left it as it was. -/
theorem idle_of_mem_iff {e : Edit α} {l : List α} (h : Distinct l) (he : e.Legal l)
    (hmem : ∀ z, z ∈ e.onList l ↔ z ∈ l) : e.Idle l := by
  cases e with
  | keep => trivial
  | create x =>
    have hx : x ∈ l := (hmem x).mp ((mem_create he).mpr (.inl rfl))
    exact he (key_mem_keys hx)
  | update row x =>
    have hx : x ∈ l := (hmem x).mp ((mem_update h he).mpr (.inl rfl))
    obtain ⟨y, hy, hk⟩ := he
    obtain rfl : y = x := h.eq_of_key_eq (List.mem_of_getElem? hy) hx hk
    exact hy
  | delete row =>
    have hy : l[row]? = some l[row] := List.getElem?_eq_getElem he
    have hkept : l[row] ∈ (delete row).onList l := (hmem _).mpr (List.getElem_mem he)
    exact ((mem_delete h hy).mp hkept).2 rfl

theorem mem_keys_onList {e : Edit α} {l : List α} (he : e.Legal l) {k : κ} (hk : k ∈ keys l)
    (hdel : ∀ row y, e = delete row → l[row]? = some y → key y ≠ k) : k ∈ keys (e.onList l) := by
  cases e with
  | keep => exact hk
  | create x =>
    change k ∈ keys (l ++ [x])
    rw [keys_append]
    exact List.mem_append_left _ hk
  | update row x =>
    rw [keys_update he]
    exact hk
  | delete row =>
    obtain ⟨x, hx, rfl⟩ := mem_keys.mp hk
    obtain ⟨i, hi, rfl⟩ := List.getElem_of_mem hx
    refine key_mem_keys (List.mem_eraseIdx_iff_getElem.mpr ⟨i, hi, ?_, rfl⟩)
    rintro rfl
    exact hdel i _ rfl (List.getElem?_eq_getElem hi) rfl

theorem mem_keys_delete {l : List α} (h : Distinct l) {row : ℕ} {y : α} (hy : l[row]? = some y)
    {k : κ} : k ∈ keys ((delete row).onList l) ↔ k ∈ keys l ∧ k ≠ key y := by
  simp only [mem_keys, mem_delete h hy]
  constructor
  · rintro ⟨x, ⟨hx, hne⟩, rfl⟩
    exact ⟨⟨x, hx, rfl⟩, hne⟩
  · rintro ⟨⟨x, hx, rfl⟩, hne⟩
    exact ⟨x, ⟨hx, hne⟩, rfl⟩

variable [DecidableEq κ]

/-- The same edit of the map that a list `l` represents. -/
def onView (l : List α) : Edit α → (κ → Option α) → κ → Option α
  | keep, v => v
  | create x, v => Function.update v (key x) (some x)
  | update _ x, v => Function.update v (key x) (some x)
  | delete row, v => match l[row]? with
    | some y => Function.update v (key y) none
    | none => v

/-- An edit of the list is the edit of the map that it represents. -/
theorem lookup_onList {e : Edit α} {l : List α} (h : Distinct l) (he : e.Legal l) :
    lookup (e.onList l) = e.onView l (lookup l) := by
  have hd := distinct_onList h he
  cases e with
  | keep => rfl
  | create x =>
    refine lookup_eq_update h hd (fun y hy => Option.some.inj hy ▸ rfl) fun z => ?_
    rw [mem_create he, Option.some.injEq, eq_comm]
  | update row x =>
    refine lookup_eq_update h hd (fun y hy => Option.some.inj hy ▸ rfl) fun z => ?_
    rw [mem_update h he, Option.some.injEq, eq_comm]
  | delete row =>
    obtain ⟨y, hy⟩ : ∃ y, l[row]? = some y := ⟨_, List.getElem?_eq_getElem he⟩
    simp only [onView, hy]
    refine lookup_eq_update h hd (fun y hy => by cases hy) fun z => ?_
    rw [mem_delete h hy]
    simp

end Edit
end Info6350.Library
