import Info6350.Logistics.Store
import Info6350.TableApp.Records

/-! # The store of the table-view apps

`ViewController` holds the three arrays.  A delete in a list screen takes the id from the
array of the main screen and the remaining rows from the list on screen.
-/

namespace Info6350.TableApp
open Library Swift Logistics DatabaseManager

abbrev Database := Logistics.Database Item Location LogisticsOrder
abbrev Store := Logistics.Store Item Location LogisticsOrder
abbrev StoreEdit := Logistics.StoreEdit Item Location LogisticsOrder

/-- The database after its migrations. -/
def emptyDatabase : Database := ⟨.empty, .empty, .empty⟩

/-- The rest of a delete once it is allowed: the id comes from the array of the main
screen, and the list that replaces this array is the filtered one. -/
def deleteRow {α : Type} [Keyed α ℤ] (written : Bool) (array filteredResults : List α) (row : ℕ)
    (t : Table α) : Except Trap (List α × Table α) := do
  let item ← subscript array row
  let t := deleteRecord written (Keyed.key item) t
  let filteredResults ← removeAt filteredResults row
  return (filteredResults, t)

theorem deleteRow_fst {α : Type} [Keyed α ℤ] {written : Bool} {array filtered m : List α} {row : ℕ}
    {t u : Table α} (h : deleteRow written array filtered row t = .ok (m, u)) :
    row < filtered.length ∧ m = filtered.eraseIdx row := by
  obtain ⟨item, -, h⟩ := bind_ok_iff.mp h
  obtain ⟨m', hm, h⟩ := bind_ok_iff.mp h
  obtain ⟨rfl, -⟩ := Prod.mk.inj (pure_ok_iff.mp h)
  exact removeAt_natCast.mp hm

theorem deleteRow_ok {α : Type} [Keyed α ℤ] {written : Bool} {l m : List α} {row : ℕ}
    {t u : Table α} (h : deleteRow written l l row t = .ok (m, u)) :
    (Edit.delete row).Legal l ∧ m = (Edit.delete row).onList l ∧
      u = sendEdit written (.delete row) l t := by
  obtain ⟨item, hitem, h⟩ := bind_ok_iff.mp h
  obtain ⟨m', hm, h⟩ := bind_ok_iff.mp h
  obtain ⟨hrow, rfl⟩ := removeAt_natCast.mp hm
  obtain ⟨rfl, rfl⟩ := Prod.mk.inj (pure_ok_iff.mp h)
  exact ⟨hrow, rfl, (sendEdit_delete written l t ((subscript_natCast l row).mp hitem)).symm⟩

theorem deleteRow_of_row {α : Type} [Keyed α ℤ] {array filtered : List α} {row : ℕ} {item : α}
    (h : array[row]? = some item) (hrow : row < filtered.length) (written : Bool) (t : Table α) :
    deleteRow written array filtered row t =
      .ok (filtered.eraseIdx row, deleteRecord written (Keyed.key item) t) := by
  refine bind_ok_iff.mpr ⟨item, (subscript_natCast array row).mpr h, ?_⟩
  exact bind_ok_iff.mpr ⟨filtered.eraseIdx row, removeAt_natCast.mpr ⟨hrow, rfl⟩, rfl⟩

theorem deleteRow_getElem? {α : Type} [Keyed α ℤ] {l : List α} {row : ℕ} {item : α}
    (h : l[row]? = some item) (written : Bool) (t : Table α) :
    deleteRow written l l row t =
      .ok ((Edit.delete row).onList l, sendEdit written (.delete row) l t) := by
  have hrow : row < l.length := (List.getElem?_eq_some_iff.mp h).choose
  rw [deleteRow_of_row h hrow, sendEdit_delete written l t h]
  rfl

theorem deleteRow_error_iff {α : Type} [Keyed α ℤ] {written : Bool} {array filtered : List α}
    {row : ℕ} {t : Table α} {e : Trap} (hrow : row < filtered.length) :
    deleteRow written array filtered row t = .error e ↔
      e = .indexOutOfRange ∧ ¬ row < array.length := by
  have hremove : removeAt filtered row = .ok (filtered.eraseIdx row) :=
    removeAt_natCast.mpr ⟨hrow, rfl⟩
  rw [deleteRow, bind_error_iff, subscript_natCast_error_iff]
  refine or_iff_left ?_
  rintro ⟨item, -, herror⟩
  rw [hremove] at herror
  cases herror

end Info6350.TableApp
