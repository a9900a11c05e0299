import Info6350.Assignment8.NamedRecord

/-! # What a delete screen removes

The delete screens read an id that is not an integer as 0, an id which the create screens accept
like any other.  They remove the record that the field names unless the database refuses the
write, and they report an error on any other text unless a record has the id 0.
-/

namespace Info6350.Assignment8
open Library Swift Logistics TextApp DatabaseManager Keyed

/-- The records that a delete controller removes from, its field and its messages. -/
structure DeleteController where
  Record : Type
  keyed : Keyed Record ℤ
  slot : Slot Record
  tfId : Field
  invalidId : String
  success : String

attribute [instance] DeleteController.keyed

def Menu.deleteController : Menu → DeleteController
  | .item => ⟨Item, inferInstance, itemSlot, .tfItemId, "Invalid Item Id", "Delete successfully"⟩
  | .location => ⟨Location, inferInstance, locationSlot, .tfLocationId, "Invalid Location Id",
      "Deleted successfully"⟩
  | .order => ⟨LogisticsOrder, inferInstance, orderSlot, .tfOrderId, "Invalid Order Id",
      "Deleted successfully"⟩

namespace DeleteController
variable (C : DeleteController)

def btnDeleteTap (written : Bool) (form : Form Field) (s : Store) : Handler (Store × Alert) := do
  let (array, id) ← deletion (C.slot.array s) (form C.tfId) C.invalidId
  return (C.slot.write array (deleteRecord written id (C.slot.table s)) s,
    ⟨"Success", C.success⟩)

/-- The store without the record `n`, in the array and in the table. -/
def without (n : ℤ) (s : Store) : Store :=
  C.slot.write ((C.slot.array s).filter fun x => key x ≠ n) ((C.slot.table s).deleteOne n) s

def Names (form : Form Field) (s : Store) (n : ℤ) : Prop :=
  (form C.tfId).int? = some n ∧ n ∈ keys (C.slot.array s)

end DeleteController

variable {F : DateFormatter}

/-- The three delete controllers are the same but for their records and texts. -/
theorem btnDeleteTap_eq (written : Bool) (m : Menu) (form : Form Field) (s : Store) :
    btnDeleteTap written m form s = m.deleteController.btnDeleteTap written form s := by
  cases m <;> rfl

theorem step_btnDeleteTap {m : Menu} {form : Form Field} {st : AppState}
    (hscreen : st.screen = .delete m form) (written : Bool) :
    step F st ⟨.btnTap, written⟩ = settle st.wrote st.alerted
      (m.deleteController.btnDeleteTap written form st.store) := by
  obtain ⟨s, _, alerts⟩ := st
  obtain rfl := hscreen
  rw [← btnDeleteTap_eq]
  rfl

variable (F)

/-- A tap on Delete removes exactly the record that the id field names, and without such a record
it changes nothing and shows an error. -/
def DeletesNamed (m : Menu) (form : Form Field) (st : AppState) (written : Bool) : Prop :=
  ∃ st', step F st ⟨.btnTap, written⟩ = .ok st' ∧
    (∀ n, m.deleteController.Names form st.store n →
      st'.store = m.deleteController.without n st.store) ∧
    ((∀ n, ¬ m.deleteController.Names form st.store n) →
      st'.store = st.store ∧ ∃ message, st'.alerts = ⟨"Error", message⟩ :: st.alerts)

variable {F}

/-- The table is not asked for a row that it has and keeps, and a text that is no integer finds no
record with the id 0. -/
structure DeleteController.Exact (C : DeleteController) (form : Form Field) (s : Store)
    (written : Bool) : Prop where
  named : ∀ n, C.Names form s n → written = true ∨ n ∉ keys (C.slot.table s).rows
  default : (form C.tfId).int? = none → 0 ∉ keys (C.slot.array s)

section Controller
variable {C : DeleteController} {form : Form Field} {s : Store} {written : Bool} {n : ℤ}

/-- The tap removes the record and differs from what was asked for in the table only. -/
theorem DeleteController.btnDeleteTap_of_mem (written : Bool) (hd : Distinct (C.slot.array s))
    (hn : intOrZero (form C.tfId) = n) (hmem : n ∈ keys (C.slot.array s)) :
    ∃ s', C.btnDeleteTap written form s = .ok (s', ⟨"Success", C.success⟩) ∧ s' ≠ s ∧
      (s' = C.without n s ↔ written = true ∨ n ∉ keys (C.slot.table s).rows) := by
  subst hn
  refine ⟨_, bind_ok_iff.mpr ⟨_, deletion_of_mem hd hmem, rfl⟩, fun hsame => ?_, ?_⟩
  · have harray := congrArg C.slot.array hsame
    rw [C.slot.array_write] at harray
    obtain ⟨x, hx, hkey⟩ := mem_keys.mp hmem
    exact of_decide_eq_true (List.filter_eq_self.mp harray x hx) hkey
  · rw [← deleteRecord_eq_iff]
    constructor
    · intro hwithout
      have htable := congrArg C.slot.table hwithout
      rwa [DeleteController.without, C.slot.table_write, C.slot.table_write] at htable
    · intro htable
      rw [htable]
      rfl

theorem DeleteController.btnDeleteTap_of_not_mem
    (hmem : intOrZero (form C.tfId) ∉ keys (C.slot.array s)) :
    C.btnDeleteTap written form s = fail C.invalidId :=
  bind_error_iff.mpr (.inl (deletion_of_not_mem hmem))

end Controller

theorem deletesNamed_iff {m : Menu} {form : Form Field} {st : AppState}
    (hids : st.store.DistinctIds) (hscreen : st.screen = .delete m form) (written : Bool) :
    DeletesNamed F m form st written ↔ m.deleteController.Exact form st.store written := by
  generalize hC : m.deleteController = C
  have hstep := step_btnDeleteTap (F := F) hscreen written
  rw [hC] at hstep
  have hd := C.slot.distinct st.store hids
  rw [DeletesNamed, hC, hstep]
  by_cases hmem : intOrZero (form C.tfId) ∈ keys (C.slot.array st.store)
  · obtain ⟨s', htap, hne, hwithout⟩ :=
      DeleteController.btnDeleteTap_of_mem written hd rfl hmem
    rw [htap]
    cases hid : (form C.tfId).int? with
    | none =>
      have hzero : intOrZero (form C.tfId) = 0 := by rw [intOrZero, hid]; rfl
      refine iff_of_false ?_ fun h => h.default hid (hzero ▸ hmem)
      rintro ⟨st', hst', -, hrefused⟩
      obtain rfl := Except.ok.inj hst'
      refine hne (hrefused fun n hn => ?_).1
      cases hid.symm.trans hn.1
    | some n =>
      have hn : intOrZero (form C.tfId) = n := by rw [intOrZero, hid]; rfl
      rw [hn] at hmem hwithout
      constructor
      · rintro ⟨st', hst', hnamed, -⟩
        obtain rfl := Except.ok.inj hst'
        refine ⟨fun k hk => ?_, fun h => by cases hid.symm.trans h⟩
        obtain rfl : n = k := Option.some.inj (hid.symm.trans hk.1)
        exact hwithout.mp (hnamed n hk)
      · intro hexact
        refine ⟨_, rfl, fun k hk => ?_, fun hnone => absurd ⟨hid, hmem⟩ (hnone n)⟩
        obtain rfl : n = k := Option.some.inj (hid.symm.trans hk.1)
        exact hwithout.mpr (hexact.named n hk)
  · rw [DeleteController.btnDeleteTap_of_not_mem hmem]
    have hunnamed : ∀ n, ¬ C.Names form st.store n := by
      rintro n ⟨hid, hn⟩
      rw [intOrZero, hid] at hmem
      exact hmem hn
    refine iff_of_true ⟨_, rfl, fun n hn => absurd hn (hunnamed n), fun _ => ⟨rfl, _, rfl⟩⟩
      ⟨fun n hn => absurd hn (hunnamed n), fun hid => ?_⟩
    rw [intOrZero, hid] at hmem
    exact hmem

/-- In every state that a launch reaches, on each delete screen, with any text in the id field and
any outcome of the write: the tap removes exactly what was asked for if and only if the database
does not keep a row that it is asked to delete, and no record has the id 0 when the text is no
integer. -/
theorem run_deletesNamed_iff (F : DateFormatter) (db : Database) {inputs : List Input}
    {st : AppState} (h : (step F).run (AppState.launch db) inputs = .ok st) {m : Menu}
    {form : Form Field} (hscreen : st.screen = .delete m form) (written : Bool) :
    DeletesNamed F m form st written ↔ m.deleteController.Exact form st.store written :=
  deletesNamed_iff (run_distinctIds h) hscreen written

namespace Sample

def createZero : List Input :=
  [⟨.onButtonClicked .item, true⟩, ⟨.presentCreate, true⟩, ⟨.type .tfItemId "0", true⟩,
    ⟨.type .tfItemName "Lamp", true⟩, ⟨.type .tfItemWeight "3", true⟩,
    ⟨.type .tfItemValue "20", true⟩, ⟨.btnTap, true⟩, ⟨.btnCloseTap, true⟩, ⟨.presentDelete, true⟩]

def deleteFirst : List Input :=
  [⟨.onButtonClicked .item, true⟩, ⟨.presentDelete, true⟩, ⟨.type .tfItemId "10", true⟩]

end Sample

/-- A tap with the empty field, and one with a word in it, delete the item 0. -/
theorem run_emptyId_deletesZero :
    (∃ st st', (step .utc).run (AppState.launch Sample.database) Sample.createZero = .ok st ∧
      st.screen = .delete .item .blank ∧ step .utc st ⟨.btnTap, true⟩ = .ok st' ∧
      st.store.items.map Item.id = [10, 11, 0] ∧ st'.store.items.map Item.id = [10, 11] ∧
      ¬ DeletesNamed .utc .item .blank st true) ∧
    ∃ st form st', (step .utc).run (AppState.launch Sample.database)
        (Sample.createZero ++ [⟨.type .tfItemId "lamp", true⟩]) = .ok st ∧
      st.screen = .delete .item form ∧ step .utc st ⟨.btnTap, true⟩ = .ok st' ∧
      st.store.items.map Item.id = [10, 11, 0] ∧ st'.store.items.map Item.id = [10, 11] ∧
      ¬ DeletesNamed .utc .item form st true := by
  refine ⟨⟨_, _, rfl, rfl, rfl, rfl, rfl, fun h => ?_⟩, _, _, _, rfl, rfl, rfl, rfl, rfl, fun h => ?_⟩
  · have hids := @run_distinctIds .utc Sample.database Sample.createZero _ rfl
    exact ((deletesNamed_iff hids rfl true).mp h).default (by decide) (by decide)
  · have hids := @run_distinctIds .utc Sample.database
      (Sample.createZero ++ [⟨.type .tfItemId "lamp", true⟩]) _ rfl
    exact ((deletesNamed_iff hids rfl true).mp h).default (by decide) (by decide)

/-- The delete of the item 10 is exact. -/
theorem run_deletesNamed_iff_first :
    ∃ st form, (step .utc).run (AppState.launch Sample.database) Sample.deleteFirst = .ok st ∧
      st.screen = .delete .item form ∧ DeletesNamed .utc .item form st true :=
  ⟨_, _, rfl, rfl, (@run_deletesNamed_iff .utc Sample.database Sample.deleteFirst _ rfl .item _ rfl
    true).mpr ⟨fun _ _ => .inl rfl, fun h => by revert h; decide⟩⟩

end Info6350.Assignment8
