import Info6350.Library.Keyed

/-! # Tables with a primary key

The rows of a table have distinct keys by construction.  Saving inserts a row or
replaces the row with its key, updating rewrites an existing row and fails when
there is none, and deleting a key that is absent changes nothing.  A list of
records is in step with a table when both hold the same records, and every legal
edit of the list, carried out on the table by primary key, keeps the two in step.
-/

namespace Info6350.Library
open Keyed

variable {α κ : Type*} [Keyed α κ]

/-- Rows whose primary keys are distinct. -/
structure Table (α : Type*) {κ : Type*} [Keyed α κ] where
  rows : List α
  distinct : Distinct rows

/-- The failure of an update whose key is in no row. -/
inductive RecordNotFound where
  | recordNotFound
deriving DecidableEq

namespace Table

def empty : Table α := ⟨[], Distinct.nil⟩

theorem ext_rows {t u : Table α} (h : t.rows = u.rows) : t = u := by
  cases t
  cases u
  cases h
  rfl

def fetchAll (t : Table α) : List α := t.rows

variable [DecidableEq κ]

def replaceRow (x : α) (l : List α) : List α := l.map (fun y => if key y = key x then x else y)

theorem keys_replaceRow (x : α) (l : List α) : keys (replaceRow x l) = keys l := by
  rw [keys, replaceRow, List.map_map]
  refine List.map_congr_left fun y _ => ?_
  by_cases h : key y = key x <;> simp [h]

theorem mem_replaceRow {x : α} {l : List α} (hx : key x ∈ keys l) {z : α} :
    z ∈ replaceRow x l ↔ z = x ∨ (z ∈ l ∧ key z ≠ key x) := by
  rw [replaceRow, List.mem_map]
  constructor
  · rintro ⟨y, hy, rfl⟩
    by_cases h : key y = key x
    · exact .inl (if_pos h)
    · rw [if_neg h]
      exact .inr ⟨hy, h⟩
  · rintro (rfl | ⟨hz, hne⟩)
    · obtain ⟨y, hy, hk⟩ := mem_keys.mp hx
      exact ⟨y, hy, if_pos hk⟩
    · exact ⟨z, hz, if_neg hne⟩

/-- Insert a row, or replace the one with its key. -/
def save (x : α) (t : Table α) : Table α :=
  if h : key x ∈ keys t.rows then
    ⟨replaceRow x t.rows, by rw [Distinct, keys_replaceRow]; exact t.distinct⟩
  else
    ⟨(Edit.create x).onList t.rows, Edit.distinct_onList t.distinct h⟩

/-- Rewrite the row with the key of `x`. -/
def update (x : α) (t : Table α) : Except RecordNotFound (Table α) :=
  if key x ∈ keys t.rows then .ok (t.save x) else .error .recordNotFound

/-- The table after an update whose failure is caught. -/
def caught (result : Except RecordNotFound (Table α)) (t : Table α) : Table α :=
  match result with
  | .ok u => u
  | .error _ => t

theorem caught_update_of_mem {t : Table α} {x : α} (h : key x ∈ keys t.rows) :
    caught (t.update x) t = t.save x := by
  rw [update, if_pos h]
  rfl

theorem caught_update_of_not_mem {t : Table α} {x : α} (h : key x ∉ keys t.rows) :
    caught (t.update x) t = t := by
  rw [update, if_neg h]
  rfl

def deleteOne (k : κ) (t : Table α) : Table α :=
  ⟨t.rows.filter (fun y => key y ≠ k), t.distinct.sublist List.filter_sublist⟩

theorem mem_save {t : Table α} {x z : α} :
    z ∈ (t.save x).rows ↔ z = x ∨ (z ∈ t.rows ∧ key z ≠ key x) := by
  rw [save]
  split_ifs with h
  · exact mem_replaceRow h
  · exact Edit.mem_create h

theorem save_of_mem {t : Table α} {x : α} (h : x ∈ t.rows) : t.save x = t := by
  refine ext_rows ?_
  rw [save, dif_pos (key_mem_keys h)]
  refine (List.map_congr_left fun y hy => ?_).trans (List.map_id t.rows)
  by_cases hk : key y = key x
  · rw [if_pos hk]
    exact t.distinct.eq_of_key_eq h hy hk.symm
  · exact if_neg hk

theorem mem_deleteOne {t : Table α} {k : κ} {z : α} :
    z ∈ (t.deleteOne k).rows ↔ z ∈ t.rows ∧ key z ≠ k := by
  simp [deleteOne]

theorem deleteOne_eq_self_iff {t : Table α} {k : κ} : t.deleteOne k = t ↔ k ∉ keys t.rows := by
  constructor
  · intro h hk
    obtain ⟨y, hy, hkey⟩ := mem_keys.mp hk
    rw [← h] at hy
    exact (mem_deleteOne.mp hy).2 hkey
  · intro hk
    refine ext_rows (List.filter_eq_self.mpr fun y hy => decide_eq_true fun hkey => hk ?_)
    exact hkey ▸ key_mem_keys hy

theorem lookup_save (t : Table α) (x : α) :
    lookup (t.save x).rows = Function.update (lookup t.rows) (key x) (some x) :=
  lookup_eq_update t.distinct (t.save x).distinct (fun _ h => Option.some.inj h ▸ rfl)
    fun z => by rw [mem_save, Option.some.injEq, eq_comm]

theorem lookup_deleteOne (t : Table α) (k : κ) :
    lookup (t.deleteOne k).rows = Function.update (lookup t.rows) k none :=
  lookup_eq_update t.distinct (t.deleteOne k).distinct (fun _ h => by cases h)
    fun z => by simp [mem_deleteOne]

end Table

/-- A list and a table that hold the same records, the list with distinct keys. -/
structure InStep (l : List α) (t : Table α) : Prop where
  distinct : Distinct l
  mem_iff : ∀ x, x ∈ l ↔ x ∈ t.rows

namespace InStep
variable {l : List α} {t : Table α}

theorem fetchAll (t : Table α) : InStep t.fetchAll t := ⟨t.distinct, fun _ => Iff.rfl⟩

theorem mem_keys_iff (h : InStep l t) {k : κ} : k ∈ keys l ↔ k ∈ keys t.rows := by
  simp only [mem_keys, h.mem_iff]

/-- Only an edit that changes nothing leaves the list in step with the table as it was. -/
theorem idle_of_onList (h : InStep l t) {e : Edit α} (he : e.Legal l)
    (hkept : InStep (e.onList l) t) : e.Idle l :=
  Edit.idle_of_mem_iff h.distinct he fun z => (hkept.mem_iff z).trans (h.mem_iff z).symm

end InStep

namespace Edit
variable [DecidableEq κ]

/-- The statement that carries out on the table an edit of the list `l`. -/
def onTable (l : List α) : Edit α → Table α → Table α
  | keep, t => t
  | create x, t => t.save x
  | update _ x, t => Table.caught (t.update x) t
  | delete row, t => match l[row]? with
    | some y => t.deleteOne (key y)
    | none => t

theorem mem_onTable {e : Edit α} {l : List α} {t : Table α} {z : α} (h : z ∈ (e.onTable l t).rows) :
    z ∈ t.rows ∨ e = create z ∨ ∃ row, e = update row z := by
  cases e with
  | keep => exact .inl h
  | create x =>
    rcases Table.mem_save.mp h with rfl | ⟨hz, -⟩
    · exact .inr (.inl rfl)
    · exact .inl hz
  | update row x =>
    rw [onTable] at h
    by_cases hx : key x ∈ keys t.rows
    · rw [Table.caught_update_of_mem hx] at h
      rcases Table.mem_save.mp h with rfl | ⟨hz, -⟩
      · exact .inr (.inr ⟨row, rfl⟩)
      · exact .inl hz
    · rw [Table.caught_update_of_not_mem hx] at h
      exact .inl h
  | delete row =>
    rw [onTable] at h
    split at h
    · exact .inl (Table.mem_deleteOne.mp h).1
    · exact .inl h

theorem inStep_onTable {e : Edit α} {l : List α} {t : Table α} (h : InStep l t)
    (he : e.Legal l) : InStep (e.onList l) (e.onTable l t) := by
  refine ⟨distinct_onList h.distinct he, fun z => ?_⟩
  cases e with
  | keep => exact h.mem_iff z
  | create x =>
    rw [onTable, Table.mem_save, ← h.mem_iff]
    exact mem_create he
  | update row x =>
    have hk : key x ∈ keys t.rows := by
      obtain ⟨y, hy, hyx⟩ := he
      rw [← h.mem_keys_iff, ← hyx]
      exact key_mem_keys (List.mem_of_getElem? hy)
    rw [mem_update h.distinct he]
    rw [onTable, Table.caught_update_of_mem hk, Table.mem_save, h.mem_iff]
  | delete row =>
    obtain ⟨y, hy⟩ : ∃ y, l[row]? = some y := ⟨_, List.getElem?_eq_getElem he⟩
    rw [mem_delete h.distinct hy]
    simp only [onTable, hy]
    rw [Table.mem_deleteOne, h.mem_iff]

theorem onTable_of_idle {e : Edit α} {l : List α} {t : Table α} (h : InStep l t)
    (he : e.Idle l) : e.onTable l t = t := by
  cases e with
  | keep => rfl
  | create x => exact he.elim
  | update row x =>
    have hx : x ∈ t.rows := (h.mem_iff x).mp (List.mem_of_getElem? he)
    exact (Table.caught_update_of_mem (key_mem_keys hx)).trans (Table.save_of_mem hx)
  | delete row => exact he.elim

end Edit
end Info6350.Library
