import Info6350.Assignment8.App

/-! # The record that an update touches

Update and Add write at the index that the last successful Fetch left, or at -99, while
the id field stays open to the user.  So they touch the record that the id field names
when the remembered record is this one, when the checks refuse the tap, or when there is
nothing to write.
-/

namespace Info6350.Assignment8
open Library Swift Logistics TextApp

namespace Slot
variable {α : Type} [Keyed α ℤ] (K : Slot α)

/-- The record `n` becomes `new`, in the array, and in the table when the database accepts the
write and has a row with this id.  All other records, in all arrays and tables, are as before. -/
structure Changed (n : ℤ) (new : α) (written : Bool) (s s' : Store) : Prop where
  key_new : Keyed.key new = n
  mem : n ∈ keys (K.array s)
  keys_array : keys (K.array s') = keys (K.array s)
  array : lookup (K.array s') = Function.update (lookup (K.array s)) n (some new)
  accepted : written = true → n ∈ keys (K.table s).rows →
    lookup (K.table s').rows = Function.update (lookup (K.table s).rows) n (some new)
  refused : ¬ (written = true ∧ n ∈ keys (K.table s).rows) → K.table s' = K.table s
  others : s' = K.write (K.array s') (K.table s') s

/-- Writing `y` over the record `x` changes nothing: `y` is `x`, and so is the row with its id
if it is rewritten. -/
def Holds (written : Bool) (s : Store) (x y : α) : Prop :=
  y = x ∧ (written = true → Keyed.key x ∈ keys (K.table s).rows → x ∈ (K.table s).rows)

variable {K} {written : Bool} {s : Store} {row : ℕ} {x y : α}

theorem array_update :
    K.array ((K.edit (.update row y)).apply written s) = (K.array s).set row y := by
  rw [K.apply_edit, K.array_write]
  rfl

theorem table_update : K.table ((K.edit (.update row y)).apply written s) =
    sendEdit written (.update row y) (K.array s) (K.table s) := by
  rw [K.apply_edit, K.table_write]

theorem changed_update (hd : Distinct (K.array s)) (hx : (K.array s)[row]? = some x)
    (hkey : Keyed.key y = Keyed.key x) :
    K.Changed (Keyed.key x) y written s ((K.edit (.update row y)).apply written s) where
  key_new := hkey
  mem := key_mem_keys (List.mem_of_getElem? hx)
  keys_array := by
    rw [array_update]
    exact Edit.keys_update ⟨x, hx, hkey.symm⟩
  array := by
    rw [array_update, ← hkey]
    exact Edit.lookup_onList (e := .update row y) hd ⟨x, hx, hkey.symm⟩
  accepted hw hmem := by
    rw [table_update, hw, ← hkey]
    exact lookup_sendEdit_update _ _ row (hkey ▸ hmem)
  refused hnot := by
    rw [table_update]
    exact sendEdit_update_of_not _ _ _ row (hkey ▸ hnot)
  others := by
    rw [array_update, table_update, K.apply_edit]
    rfl

theorem Holds.apply_update (h : K.Holds written s x y) (hx : (K.array s)[row]? = some x) :
    (K.edit (.update row y)).apply written s = s := by
  obtain ⟨rfl, hrow⟩ := h
  obtain ⟨hlt, hget⟩ := List.getElem?_eq_some_iff.mp hx
  have harray : (K.array s).set row y = K.array s := by
    rw [← hget]
    exact List.set_getElem_self hlt
  have htable : sendEdit written (.update row y) (K.array s) (K.table s) = K.table s := by
    by_cases hsent : written = true ∧ Keyed.key y ∈ keys (K.table s).rows
    · obtain ⟨rfl, hmem⟩ := hsent
      change Table.caught ((K.table s).update y) (K.table s) = K.table s
      rw [Table.caught_update_of_mem hmem]
      exact Table.save_of_mem (hrow rfl hmem)
    · exact sendEdit_update_of_not _ _ _ row hsent
  rw [K.apply_edit, htable]
  change K.write ((K.array s).set row y) (K.table s) s = s
  rw [harray, K.write_self]

theorem holds_of_lookup (hd : Distinct (K.array s)) (hx : (K.array s)[row]? = some x)
    (hkey : Keyed.key y = Keyed.key x)
    (harray : lookup (K.array ((K.edit (.update row y)).apply written s)) (Keyed.key x) =
      lookup (K.array s) (Keyed.key x))
    (htable : lookup (K.table ((K.edit (.update row y)).apply written s)).rows (Keyed.key x) =
      lookup (K.table s).rows (Keyed.key x)) : K.Holds written s x y := by
  have hchanged : K.Changed (Keyed.key x) y written s _ := changed_update hd hx hkey
  have hself : lookup (K.array s) (Keyed.key x) = some x :=
    hd.lookup_eq_some_iff.mpr ⟨List.mem_of_getElem? hx, rfl⟩
  rw [hchanged.array, Function.update_self, hself] at harray
  obtain rfl : y = x := Option.some.inj harray
  refine ⟨rfl, fun hw hmem => ?_⟩
  rw [hchanged.accepted hw hmem, Function.update_self] at htable
  exact (lookup_some htable.symm).1

/-- An update of the record `x` leaves the store as it is or touches the record named `m`, if
and only if `m` is the id of `x` or nothing changes. -/
theorem update_touches_iff (hd : Distinct (K.array s)) (hx : (K.array s)[row]? = some x)
    (hkey : Keyed.key y = Keyed.key x) (m : Option ℤ) :
    ((K.edit (.update row y)).apply written s = s ∨
      ∃ n new, m = some n ∧ K.Changed n new written s ((K.edit (.update row y)).apply written s)) ↔
    m = some (Keyed.key x) ∨ K.Holds written s x y := by
  constructor
  · rintro (hsame | ⟨n, new, rfl, hchanged⟩)
    · exact .inr (holds_of_lookup hd hx hkey (by rw [hsame]) (by rw [hsame]))
    · by_cases hn : n = Keyed.key x
      · exact .inl (congrArg some hn)
      · refine .inr (holds_of_lookup hd hx hkey ?_ ?_)
        · rw [hchanged.array, Function.update_of_ne (Ne.symm hn)]
        · by_cases hsent : written = true ∧ n ∈ keys (K.table s).rows
          · rw [hchanged.accepted hsent.1 hsent.2, Function.update_of_ne (Ne.symm hn)]
          · rw [hchanged.refused hsent]
  · rintro (rfl | hholds)
    · exact .inr ⟨_, y, rfl, changed_update hd hx hkey⟩
    · exact .inl (hholds.apply_update hx)

end Slot

variable (F : DateFormatter)

/-- A tap on Update or Add: it does not index an array out of range, and it leaves the arrays
and tables as they are or changes exactly the record whose id is in the id field. -/
def TouchesNamed (c : Changer) (scr : FetchState) (st : AppState) (written : Bool) : Prop :=
  step F st ⟨.btnTap, written⟩ ≠ .error .indexOutOfRange ∧
  ∀ st', step F st ⟨.btnTap, written⟩ = .ok st' → st'.store = st.store ∨
    ∃ n new, (scr.form (c.controller F).screen.tfId).int? = some n ∧
      (c.controller F).slot.Changed n new written st.store st'.store

/-- When the fields pass the checks of the screen, a record is at the remembered index, and
either its id is in the id field or the entries change neither it nor its row. -/
def RemembersNamed (C : ChangeController) (scr : FetchState) (s : Store) (written : Bool) : Prop :=
  ∀ entered, C.screen.entered s.items scr.form = .ok entered →
    ∃ x, subscript (C.slot.array s) scr.foundIndex = .ok x ∧
      ((scr.form C.screen.tfId).int? = some (Keyed.key x) ∨
        ∀ y, entered x = .ok y → C.slot.Holds written s x y)

variable {F}

theorem step_btnTap {c : Changer} {scr : FetchState} {st : AppState}
    (hscreen : st.screen = .change c scr) (written : Bool) :
    step F st ⟨.btnTap, written⟩ = settle st.wrote st.alerted
      ((c.controller F).btnUpdateTap written scr st.store) := by
  obtain ⟨s, _, alerts⟩ := st
  obtain rfl := hscreen
  rfl

theorem btnTap_inRange_iff {c : Changer} {scr : FetchState} {st : AppState}
    (hscreen : st.screen = .change c scr) (written : Bool) :
    step F st ⟨.btnTap, written⟩ ≠ .error .indexOutOfRange ↔
      ∀ entered, (c.controller F).screen.entered st.store.items scr.form = .ok entered →
        ∃ x, subscript ((c.controller F).slot.array st.store) scr.foundIndex = .ok x := by
  have htrap : (c.controller F).btnUpdateTap written scr st.store =
      .error (.trap .indexOutOfRange) ↔ (c.controller F).screen.change st.store.items
        ((c.controller F).slot.array st.store) scr.form scr.foundIndex =
      .error (.trap .indexOutOfRange) := by
    refine bind_error_iff.trans (or_iff_left ?_)
    rintro ⟨_, _, h⟩
    cases h
  rw [step_btnTap hscreen, Ne, settle_error_iff, htrap, c.lawful.change_traps_iff]
  push Not
  constructor
  · exact fun h entered hentered => h ⟨entered, hentered⟩
  · rintro h ⟨entered, hentered⟩
    exact h entered hentered

theorem touchesNamed_iff {c : Changer} {scr : FetchState} {st : AppState}
    (hids : st.store.DistinctIds) (hscreen : st.screen = .change c scr) (written : Bool) :
    TouchesNamed F c scr st written ↔ RemembersNamed (c.controller F) scr st.store written := by
  have hd := (c.controller F).slot.distinct st.store hids
  constructor
  · rintro ⟨hindex, htouch⟩ entered hentered
    obtain ⟨x, hx⟩ := (btnTap_inRange_iff hscreen written).mp hindex entered hentered
    refine ⟨x, hx, or_iff_not_imp_left.mpr fun hid y hy => ?_⟩
    obtain ⟨row, hrow, hat⟩ := subscript_ok_iff.mp hx
    have htap : (c.controller F).btnUpdateTap written scr st.store = .ok (_, _) :=
      ChangeController.btnUpdateTap_ok_iff.mpr
        ⟨entered, row, x, y, hentered, hrow, hat, hy, rfl, rfl⟩
    rw [step_btnTap hscreen, htap] at htouch
    exact ((Slot.update_touches_iff hd hat (c.lawful.key_entered hentered hy) _).mp
      (htouch _ rfl)).resolve_left hid
  · intro hremembers
    constructor
    · refine (btnTap_inRange_iff hscreen written).mpr fun entered hentered => ?_
      obtain ⟨x, hx, _⟩ := hremembers entered hentered
      exact ⟨x, hx⟩
    · intro st' h
      rw [step_btnTap hscreen] at h
      rcases settle_ok h with ⟨⟨s', a⟩, htap, rfl⟩ | ⟨alerts, rfl⟩
      · obtain ⟨entered, row, x, y, hentered, hrow, hat, hy, rfl, rfl⟩ :=
          ChangeController.btnUpdateTap_ok_iff.mp htap
        obtain ⟨x', hx', hnamed⟩ := hremembers entered hentered
        obtain rfl : x' = x := by
          rw [hrow] at hx'
          exact Option.some.inj (((subscript_natCast _ row).mp hx').symm.trans hat)
        exact (Slot.update_touches_iff hd hat (c.lawful.key_entered hentered hy) _).mpr
          (hnamed.imp_right fun h => h y hy)
      · exact .inl rfl

/-- In every state that a launch reaches, with any outcome of the writes, and on each of the five
screens: a tap on Update or Add keeps to the range of the arrays and to the record named in the
id field if and only if, unless the checks refuse it, the remembered record has this id or is
not changed. -/
theorem run_touchesNamed_iff (F : DateFormatter) (db : Database) {inputs : List Input}
    {st : AppState} (h : (step F).run (AppState.launch db) inputs = .ok st) {c : Changer}
    {scr : FetchState} (hscreen : st.screen = .change c scr) (written : Bool) :
    TouchesNamed F c scr st written ↔ RemembersNamed (c.controller F) scr st.store written :=
  touchesNamed_iff (run_distinctIds h) hscreen written

namespace Sample

/-- The database that `addDataToDB` fills. -/
def database : Database where
  item := ⟨[item1, item2], by decide⟩
  location := ⟨[location1, location2], by decide⟩
  logisticsorder := ⟨[order1 .utc 0], by decide⟩

def openUpdateItem : List Input :=
  [⟨.onButtonClicked .item, true⟩, ⟨.presentChange .updateItem, true⟩]

def notFetched : List Input := openUpdateItem ++
  [⟨.type .tfItemName "Lamp", true⟩, ⟨.type .tfItemWeight "3", true⟩,
    ⟨.type .tfItemValue "20", true⟩]

def fetched : List Input := openUpdateItem ++
  [⟨.type .tfItemId "10", true⟩, ⟨.btnFetchTap, true⟩, ⟨.type .tfItemName "Lamp", true⟩]

def idEdited : List Input := fetched ++ [⟨.type .tfItemId "11", true⟩]

end Sample

/-- Update without a fetch indexes the items at -99; with an id edited after the fetch it renames
the item that was fetched. -/
theorem run_notFetched_idEdited :
    (∃ st scr, (step .utc).run (AppState.launch Sample.database) Sample.notFetched = .ok st ∧
      st.screen = .change .updateItem scr ∧
      step .utc st ⟨.btnTap, true⟩ = .error .indexOutOfRange ∧
      ¬ TouchesNamed .utc .updateItem scr st true) ∧
    ∃ st scr st', (step .utc).run (AppState.launch Sample.database) Sample.idEdited = .ok st ∧
      st.screen = .change .updateItem scr ∧ (scr.form .tfItemId).int? = some 11 ∧
      step .utc st ⟨.btnTap, true⟩ = .ok st' ∧
      st'.store.items.map Item.name = ["Lamp", "Sony Headphones"] ∧
      ¬ TouchesNamed .utc .updateItem scr st true := by
  refine ⟨⟨_, _, rfl, rfl, rfl, fun h => h.1 rfl⟩, _, _, _, rfl, rfl, by decide, rfl, rfl, ?_⟩
  rintro ⟨-, h⟩
  rcases h _ rfl with hsame | ⟨n, new, hn, hchanged⟩
  · have hitems := congrArg (fun s : Store => s.items.map Item.name) hsame
    revert hitems
    decide
  · obtain rfl : n = 11 := Option.some.inj (hn.symm.trans (by decide))
    have hfirst := congrFun hchanged.array 10
    rw [Function.update_of_ne (by decide)] at hfirst
    have hname := congrArg (Option.map Item.name) hfirst
    revert hname
    decide

/-- The fetched item is renamed while its id is in the id field. -/
theorem run_touchesNamed_iff_fetched :
    ∃ st scr, (step .utc).run (AppState.launch Sample.database) Sample.fetched = .ok st ∧
      st.screen = .change .updateItem scr ∧ TouchesNamed .utc .updateItem scr st true :=
  ⟨_, _, rfl, rfl, (@run_touchesNamed_iff .utc Sample.database Sample.fetched _ rfl .updateItem _
    rfl true).mpr fun _ _ => ⟨item1, rfl, .inl (by decide)⟩⟩

end Info6350.Assignment8
