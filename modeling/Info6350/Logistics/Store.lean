import Info6350.Library.Table
import Info6350.Swift.UIKit

/-! # The arrays of the main screen and the database

The apps with a database keep three arrays in their main controller and three tables
behind `DatabaseManager`; their record types differ.  A write that the database refuses
is caught and printed, so the caller goes on as if it had succeeded; `written` says
whether the database accepts the write.  Every mutating handler edits one array and
sends one statement to its table, and `StoreEdit` names the edit.
-/

namespace Info6350.Logistics
open Library Swift

namespace DatabaseManager
variable {α : Type} [Keyed α ℤ]

def saveRecord (written : Bool) (item : α) (t : Table α) : Table α :=
  if written then t.save item else t

/-- `saveRecords(items:)` of Assignment 10, each record in a transaction of its own. -/
def saveRecords (written : α → Bool) (items : List α) (t : Table α) : Table α :=
  items.foldl (fun t item => saveRecord (written item) item t) t

/-- A read that fails is caught too, and returns no record. -/
def fetchRecords (read : Bool) (t : Table α) : List α :=
  if read then t.fetchAll else []

def deleteRecord (written : Bool) (id : ℤ) (t : Table α) : Table α :=
  if written then t.deleteOne id else t

def updateRecord (written : Bool) (item : α) (t : Table α) : Table α :=
  if written then Table.caught (t.update item) t else t

theorem deleteRecord_eq_iff {written : Bool} {id : ℤ} {t : Table α} :
    deleteRecord written id t = t.deleteOne id ↔ written = true ∨ id ∉ keys t.rows := by
  cases written with
  | true => exact iff_of_true rfl (.inl rfl)
  | false =>
    rw [or_iff_right (by decide : ¬ false = true), ← Table.deleteOne_eq_self_iff]
    exact eq_comm

theorem deleteRecord_rows_iff {written : Bool} {id : ℤ} {t : Table α} :
    (deleteRecord written id t).rows = t.rows.filter (fun y => Keyed.key y ≠ id) ↔
      written = true ∨ id ∉ keys t.rows := by
  rw [← deleteRecord_eq_iff]
  exact ⟨fun h => Table.ext_rows h, fun h => congrArg Table.rows h⟩

theorem mem_saveRecords_of_mem {written : α → Bool} {items : List α} {t : Table α} {x : α}
    (hx : x ∈ t.rows) (hkey : Keyed.key x ∉ keys items) :
    x ∈ (saveRecords written items t).rows := by
  induction items generalizing t with
  | nil => exact hx
  | cons y items ih =>
    have hne : Keyed.key x ≠ Keyed.key y := fun h => hkey (h ▸ List.mem_cons_self)
    have hrest : Keyed.key x ∉ keys items := fun h => hkey (List.mem_cons_of_mem _ h)
    refine ih (t := saveRecord (written y) y t) ?_ hrest
    cases written y with
    | false => exact hx
    | true => exact Table.mem_save.mpr (.inr ⟨hx, hne⟩)

/-- Records with distinct keys are all in the table once they are saved. -/
theorem mem_saveRecords {items : List α} (hd : Distinct items) {t : Table α} {x : α}
    (hx : x ∈ items) : x ∈ (saveRecords (fun _ => true) items t).rows := by
  induction items generalizing t with
  | nil => exact absurd hx List.not_mem_nil
  | cons y items ih =>
    obtain ⟨hy, hrest⟩ := List.nodup_cons.mp hd
    rcases List.mem_cons.mp hx with rfl | hx
    · exact mem_saveRecords_of_mem (t := t.save x) (Table.mem_save.mpr (.inl rfl)) hy
    · exact ih hrest hx

end DatabaseManager

open DatabaseManager

/-- The statement sent with an edit of the list `l`, as the database executes it. -/
def sendEdit {α : Type} [Keyed α ℤ] (written : Bool) (e : Edit α) (l : List α) (t : Table α) :
    Table α :=
  if written then e.onTable l t else t

section SendEdit
variable {α : Type} [Keyed α ℤ] (written : Bool) (l : List α) (t : Table α)

theorem sendEdit_keep : sendEdit written .keep l t = t := by
  cases written <;> rfl

theorem sendEdit_delete {row : ℕ} {x : α} (h : l[row]? = some x) :
    sendEdit written (.delete row) l t = deleteRecord written (Keyed.key x) t := by
  simp only [sendEdit, Edit.onTable, h, deleteRecord]

theorem mem_sendEdit {e : Edit α} {x : α} (h : x ∈ (sendEdit written e l t).rows) :
    x ∈ t.rows ∨ e = .create x ∨ ∃ row, e = .update row x := by
  cases written with
  | false => exact .inl h
  | true => exact Edit.mem_onTable h

theorem lookup_sendEdit_update (row : ℕ) {x : α} (h : Keyed.key x ∈ keys t.rows) :
    lookup (sendEdit true (.update row x) l t).rows =
      Function.update (lookup t.rows) (Keyed.key x) (some x) := by
  change lookup (Table.caught (t.update x) t).rows = _
  rw [Table.caught_update_of_mem h, Table.lookup_save]

theorem sendEdit_update_of_not (row : ℕ) {x : α}
    (h : ¬ (written = true ∧ Keyed.key x ∈ keys t.rows)) :
    sendEdit written (.update row x) l t = t := by
  cases written with
  | false => rfl
  | true =>
    change Table.caught (t.update x) t = t
    exact Table.caught_update_of_not_mem fun hx => h ⟨rfl, hx⟩

theorem sendEdit_of_idle {l : List α} {t : Table α} (h : InStep l t) {e : Edit α}
    (he : e.Idle l) : sendEdit written e l t = t := by
  cases written with
  | false => rfl
  | true => exact Edit.onTable_of_idle h he

end SendEdit

/-- The end of an update: the record at a row of the array is mutated in place, read
back and sent to the database. -/
def updateRow {α : Type} [Keyed α ℤ] (written : Bool) (array : List α) (row : ℕ)
    (entered : α → α) (t : Table α) : Except Trap (List α × Table α) := do
  let array ← modifyAt array row entered
  let updated ← subscript array row
  return (array, updateRecord written updated t)

theorem updateRow_ok_iff {α : Type} [Keyed α ℤ] {written : Bool} {l : List α} {row : ℕ}
    {entered : α → α} {t : Table α} {p : List α × Table α} :
    updateRow written l row entered t = .ok p ↔ ∃ old, l[row]? = some old ∧
      p = ((Edit.update row (entered old)).onList l,
        sendEdit written (.update row (entered old)) l t) := by
  simp only [updateRow, bind_ok_iff, pure_ok_iff, modifyAt_ok_iff, subscript_natCast]
  constructor
  · rintro ⟨m, ⟨n, old, hn, hold, rfl⟩, updated, hupdated, rfl⟩
    obtain rfl : row = n := by exact_mod_cast hn
    have hlt : row < l.length := (List.getElem?_eq_some_iff.mp hold).choose
    obtain rfl : entered old = updated := by simpa [hlt] using hupdated
    exact ⟨old, hold, rfl⟩
  · rintro ⟨old, hold, rfl⟩
    have hlt : row < l.length := (List.getElem?_eq_some_iff.mp hold).choose
    exact ⟨_, ⟨row, old, rfl, hold, rfl⟩, entered old, by simp [hlt], rfl⟩

theorem updateRow_error_iff {α : Type} [Keyed α ℤ] {written : Bool} {l : List α} {row : ℕ}
    {entered : α → α} {t : Table α} {e : Trap} :
    updateRow written l row entered t = .error e ↔ e = .indexOutOfRange ∧ ¬ row < l.length := by
  by_cases hrow : row < l.length
  · have hok : ∃ p, updateRow written l row entered t = .ok p :=
      ⟨_, updateRow_ok_iff.mpr ⟨_, List.getElem?_eq_getElem hrow, rfl⟩⟩
    obtain ⟨p, hp⟩ := hok
    simp [hp, hrow]
  · have herror : subscript l row = .error .indexOutOfRange :=
      subscript_natCast_error_iff.mpr ⟨rfl, hrow⟩
    have hupdate : updateRow written l row entered t = .error .indexOutOfRange :=
      bind_error_iff.mpr (.inl (by rw [modifyAt, herror]; rfl))
    simp [hupdate, hrow, eq_comm]

section Store
variable {Item Location LogisticsOrder : Type} [Keyed Item ℤ] [Keyed Location ℤ]
  [Keyed LogisticsOrder ℤ]

structure Database (Item Location LogisticsOrder : Type) [Keyed Item ℤ] [Keyed Location ℤ]
    [Keyed LogisticsOrder ℤ] where
  item : Table Item
  location : Table Location
  logisticsorder : Table LogisticsOrder

/-- The arrays of the main controller with the database behind them. -/
structure Store (Item Location LogisticsOrder : Type) [Keyed Item ℤ] [Keyed Location ℤ]
    [Keyed LogisticsOrder ℤ] where
  items : List Item
  locations : List Location
  logisticsOrder : List LogisticsOrder
  db : Database Item Location LogisticsOrder

/-- `generateDummyData` of the apps that read the database: the three arrays as fetched. -/
def generateDummyData (db : Database Item Location LogisticsOrder) :
    Store Item Location LogisticsOrder where
  items := fetchRecords true db.item
  locations := fetchRecords true db.location
  logisticsOrder := fetchRecords true db.logisticsorder
  db := db

inductive StoreEdit (Item Location LogisticsOrder : Type) where
  | items (e : Edit Item)
  | locations (e : Edit Location)
  | orders (e : Edit LogisticsOrder)

namespace StoreEdit

def keep : StoreEdit Item Location LogisticsOrder := .items .keep

def apply (written : Bool) : StoreEdit Item Location LogisticsOrder →
    Store Item Location LogisticsOrder → Store Item Location LogisticsOrder
  | .items e, s => { s with
      items := e.onList s.items
      db := { s.db with item := sendEdit written e s.items s.db.item } }
  | .locations e, s => { s with
      locations := e.onList s.locations
      db := { s.db with location := sendEdit written e s.locations s.db.location } }
  | .orders e, s => { s with
      logisticsOrder := e.onList s.logisticsOrder
      db := { s.db with
        logisticsorder := sendEdit written e s.logisticsOrder s.db.logisticsorder } }

@[simp] theorem apply_keep (written : Bool) (s : Store Item Location LogisticsOrder) :
    keep.apply written s = s := by
  simp [keep, apply, Edit.onList, sendEdit_keep]

def Legal : StoreEdit Item Location LogisticsOrder → Store Item Location LogisticsOrder → Prop
  | .items e, s => e.Legal s.items
  | .locations e, s => e.Legal s.locations
  | .orders e, s => e.Legal s.logisticsOrder

def Idle : StoreEdit Item Location LogisticsOrder → Store Item Location LogisticsOrder → Prop
  | .items e, s => e.Idle s.items
  | .locations e, s => e.Idle s.locations
  | .orders e, s => e.Idle s.logisticsOrder

end StoreEdit

namespace Store

/-- A step leaves the items, their array and their table, alone. -/
structure SameItems (s s' : Store Item Location LogisticsOrder) : Prop where
  array : s'.items = s.items
  table : s'.db.item = s.db.item

structure SameLocations (s s' : Store Item Location LogisticsOrder) : Prop where
  array : s'.locations = s.locations
  table : s'.db.location = s.db.location

structure SameOrders (s s' : Store Item Location LogisticsOrder) : Prop where
  array : s'.logisticsOrder = s.logisticsOrder
  table : s'.db.logisticsorder = s.db.logisticsorder

theorem eq_of_same {s s' : Store Item Location LogisticsOrder} (hitems : s.SameItems s')
    (hlocations : s.SameLocations s') (horders : s.SameOrders s') : s' = s := by
  obtain ⟨items, locations, orders, item, location, order⟩ := s
  obtain ⟨items', locations', orders', item', location', order'⟩ := s'
  cases hitems.array
  cases hitems.table
  cases hlocations.array
  cases hlocations.table
  cases horders.array
  cases horders.table
  rfl

structure DistinctIds (s : Store Item Location LogisticsOrder) : Prop where
  items : Distinct s.items
  locations : Distinct s.locations
  logisticsOrder : Distinct s.logisticsOrder

/-- Each array holds the records of its table, as a set with distinct ids. -/
structure MemoryMatchesDatabase (s : Store Item Location LogisticsOrder) : Prop where
  items : InStep s.items s.db.item
  locations : InStep s.locations s.db.location
  logisticsOrder : InStep s.logisticsOrder s.db.logisticsorder

theorem MemoryMatchesDatabase.distinctIds {s : Store Item Location LogisticsOrder}
    (h : s.MemoryMatchesDatabase) : s.DistinctIds :=
  ⟨h.items.distinct, h.locations.distinct, h.logisticsOrder.distinct⟩

theorem generateDummyData_matches (db : Database Item Location LogisticsOrder) :
    (generateDummyData db).MemoryMatchesDatabase :=
  ⟨InStep.fetchAll _, InStep.fetchAll _, InStep.fetchAll _⟩

theorem DistinctIds.apply {s : Store Item Location LogisticsOrder} (h : s.DistinctIds)
    {e : StoreEdit Item Location LogisticsOrder} (he : e.Legal s) (written : Bool) :
    (e.apply written s).DistinctIds := by
  cases e with
  | items e => exact ⟨Edit.distinct_onList h.items he, h.locations, h.logisticsOrder⟩
  | locations e => exact ⟨h.items, Edit.distinct_onList h.locations he, h.logisticsOrder⟩
  | orders e => exact ⟨h.items, h.locations, Edit.distinct_onList h.logisticsOrder he⟩

/-- A legal edit that the database accepts keeps memory and database equal. -/
theorem MemoryMatchesDatabase.apply {s : Store Item Location LogisticsOrder}
    (h : s.MemoryMatchesDatabase) {e : StoreEdit Item Location LogisticsOrder} (he : e.Legal s) :
    (e.apply true s).MemoryMatchesDatabase := by
  cases e with
  | items e => exact ⟨Edit.inStep_onTable h.items he, h.locations, h.logisticsOrder⟩
  | locations e => exact ⟨h.items, Edit.inStep_onTable h.locations he, h.logisticsOrder⟩
  | orders e => exact ⟨h.items, h.locations, Edit.inStep_onTable h.logisticsOrder he⟩

theorem MemoryMatchesDatabase.apply_of_idle {s : Store Item Location LogisticsOrder}
    (h : s.MemoryMatchesDatabase) {e : StoreEdit Item Location LogisticsOrder} (he : e.Idle s)
    (written : Bool) : e.apply written s = s := by
  cases e with
  | items e =>
    rw [StoreEdit.apply, Edit.onList_of_idle he, sendEdit_of_idle written h.items he]
  | locations e =>
    rw [StoreEdit.apply, Edit.onList_of_idle he, sendEdit_of_idle written h.locations he]
  | orders e =>
    rw [StoreEdit.apply, Edit.onList_of_idle he, sendEdit_of_idle written h.logisticsOrder he]

/-- A legal edit that the database refuses parts memory from database, unless it changes nothing. -/
theorem MemoryMatchesDatabase.idle_of_refused {s : Store Item Location LogisticsOrder}
    (h : s.MemoryMatchesDatabase) {e : StoreEdit Item Location LogisticsOrder} (he : e.Legal s)
    (hkept : (e.apply false s).MemoryMatchesDatabase) : e.Idle s := by
  cases e with
  | items e => exact h.items.idle_of_onList he hkept.items
  | locations e => exact h.locations.idle_of_onList he hkept.locations
  | orders e => exact h.logisticsOrder.idle_of_onList he hkept.logisticsOrder

structure SameRecords (s t : Store Item Location LogisticsOrder) : Prop where
  items : ∀ x, x ∈ s.items ↔ x ∈ t.items
  locations : ∀ x, x ∈ s.locations ↔ x ∈ t.locations
  logisticsOrder : ∀ x, x ∈ s.logisticsOrder ↔ x ∈ t.logisticsOrder

theorem MemoryMatchesDatabase.sameRecords {s : Store Item Location LogisticsOrder}
    (h : s.MemoryMatchesDatabase) : SameRecords (generateDummyData s.db) s :=
  ⟨fun x => (h.items.mem_iff x).symm, fun x => (h.locations.mem_iff x).symm,
    fun x => (h.logisticsOrder.mem_iff x).symm⟩

end Store
end Store
end Info6350.Logistics
