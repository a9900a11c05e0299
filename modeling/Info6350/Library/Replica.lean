import Info6350.Library.Operation
import Info6350.Library.Table

/-! # A copy that misses operations

The statement of an operation checks nothing: what is created replaces what is there, and an update
or a delete of a missing key does nothing.  A copy that executes some of the statements agrees with
the map at every key where it missed none.
-/

namespace Info6350.Library
open Keyed
variable {α κ : Type*} [Keyed α κ] [DecidableEq κ]

namespace Operation

def send (v : κ → Option α) : Operation α κ → κ → Option α
  | create x => Function.update v (key x) (some x)
  | update x => if (v (key x)).isSome then Function.update v (key x) (some x) else v
  | delete k => Function.update v k none

/-- Where a copy agrees before an operation, it agrees after the statement. -/
theorem send_agrees {o : Operation α κ} {v v' c : κ → Option α} (h : o.apply v = .ok v') {k : κ}
    (hk : c k = v k) : o.send c k = v' k := by
  rw [apply_ok h]
  cases o with
  | create x => simp only [send, written, Function.update_apply, hk]
  | delete j => simp only [send, written, Function.update_apply, hk]
  | update x =>
    by_cases hkey : k = key x
    · subst hkey
      have hx : (c (key x)).isSome := hk ▸ isSome_of_update h
      simp [send, written, hx]
    · simp only [send, written, Function.update_of_ne hkey]
      split_ifs
      · rw [Function.update_of_ne hkey, hk]
      · exact hk

end Operation

/-- What an edit of a list sends to a table is the statement of its operation. -/
theorem Edit.operation_send {l : List α} {t : Table α} {e : Edit α} {o : Operation α κ}
    (ho : e.operation l = some o) : lookup (e.onTable l t).rows = o.send (lookup t.rows) := by
  cases e with
  | keep => cases ho
  | create x =>
    obtain rfl := Option.some.inj ho
    exact Table.lookup_save t x
  | update row x =>
    obtain rfl := Option.some.inj ho
    simp only [onTable, Operation.send, lookup_isSome_iff]
    split_ifs with hx
    · rw [Table.caught_update_of_mem hx, Table.lookup_save]
    · rw [Table.caught_update_of_not_mem hx]
  | delete row =>
    obtain ⟨x, hx, rfl⟩ := Option.map_eq_some_iff.mp ho
    simp only [onTable, hx]
    exact Table.lookup_deleteOne t (key x)

end Info6350.Library
