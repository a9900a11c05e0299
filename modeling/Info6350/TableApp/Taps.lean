import Info6350.TableApp.OrderEditing

/-! # Taps of the cells

A tap of + or - on a cell that has an item, the latter while the quantity is positive, shows a
new quantity and puts a line with it into the object that the cell refers to.  `tapOf` reads the
tap from the state before it, and `edit_tap` says that the handler is exactly this.
-/

namespace Info6350.TableApp
open Library Swift Logistics

/-- A tap that writes: the cell as it was, its item and the quantity that it shows afterwards. -/
structure Tap where
  cell : ℕ
  before : OrderItemsTableViewCell
  item : Item
  quantity : ℤ

def Tap.OnSelected (t : Tap) (d : OrderDetails) : Prop :=
  t.before.tempSelectedOrderItems = some d.tempSelectedOrderItems

instance (t : Tap) (d : OrderDetails) : Decidable (t.OnSelected d) :=
  inferInstanceAs (Decidable (_ = _))

namespace LogisticOrderDetailsViewController

def tapOf (d : OrderDetails) : OrderEdit → Option Tap
  | .btnDecreaseTap cell => d.cells[cell]?.bind fun c => c.item.bind fun item =>
    if c.quantity > 0 then some ⟨cell, c, item, c.quantity + -1⟩ else none
  | .btnIncreaseTap cell => d.cells[cell]?.bind fun c => c.item.bind fun item =>
    some ⟨cell, c, item, c.quantity + 1⟩
  | _ => none

section
variable {s : Store} {e : OrderEdit} {d d' : OrderDetails} {t : Tap}

theorem tapOf_cell (h : tapOf d e = some t) :
    d.cells[t.cell]? = some t.before ∧ t.before.item = some t.item := by
  cases e with
  | btnDecreaseTap cell =>
    obtain ⟨c, hc, h⟩ := Option.bind_eq_some_iff.mp h
    obtain ⟨item, hitem, h⟩ := Option.bind_eq_some_iff.mp h
    split_ifs at h
    obtain rfl := Option.some.inj h
    exact ⟨hc, hitem⟩
  | btnIncreaseTap cell =>
    obtain ⟨c, hc, h⟩ := Option.bind_eq_some_iff.mp h
    obtain ⟨item, hitem, h⟩ := Option.bind_eq_some_iff.mp h
    obtain rfl := Option.some.inj h
    exact ⟨hc, hitem⟩
  | _ => cases h

theorem tapOf_quantity (h : tapOf d e = some t) : t.quantity ≠ t.before.quantity := by
  cases e with
  | btnDecreaseTap cell =>
    obtain ⟨c, hc, h⟩ := Option.bind_eq_some_iff.mp h
    obtain ⟨item, hitem, h⟩ := Option.bind_eq_some_iff.mp h
    split_ifs at h
    obtain rfl := Option.some.inj h
    change c.quantity + -1 ≠ c.quantity
    omega
  | btnIncreaseTap cell =>
    obtain ⟨c, hc, h⟩ := Option.bind_eq_some_iff.mp h
    obtain ⟨item, hitem, h⟩ := Option.bind_eq_some_iff.mp h
    obtain rfl := Option.some.inj h
    change c.quantity + 1 ≠ c.quantity
    omega
  | _ => cases h

theorem edit_tap (h : tapOf d e = some t) :
    edit s e d = checked t.quantity >>= fun quantity =>
      putLine t.cell t.before t.item quantity d := by
  cases e with
  | btnDecreaseTap cell =>
    obtain ⟨c, hc, h⟩ := Option.bind_eq_some_iff.mp h
    obtain ⟨item, hitem, h⟩ := Option.bind_eq_some_iff.mp h
    split_ifs at h with hpos
    obtain rfl := Option.some.inj h
    simp only [edit, btnDecreaseTap, hc, hitem, if_pos hpos]
    rfl
  | btnIncreaseTap cell =>
    obtain ⟨c, hc, h⟩ := Option.bind_eq_some_iff.mp h
    obtain ⟨item, hitem, h⟩ := Option.bind_eq_some_iff.mp h
    obtain rfl := Option.some.inj h
    simp only [edit, btnIncreaseTap, hc, hitem]
    rfl
  | _ => cases h

theorem edit_tap_ok (h : tapOf d e = some t) (he : edit s e d = .ok d') :
    putLine t.cell t.before t.item t.quantity d = .ok d' := by
  rw [edit_tap h] at he
  obtain ⟨quantity, hquantity, he⟩ := bind_ok_iff.mp he
  obtain ⟨-, rfl⟩ := checked_ok_iff.mp hquantity
  exact he

/-- The references of a details screen: the selected object is allocated. -/
def SelectedAllocated (d : OrderDetails) : Prop := d.tempSelectedOrderItems < d.objects.length

/-- What a tap leaves: its cell with the new quantity, and its line in the object that the cell
refers to. -/
structure Written (t : Tap) (d d' : OrderDetails) : Prop where
  cells : d'.cells = d.cells.set t.cell
    { t.before with quantity := t.quantity, quantityLabel := toString t.quantity }
  reference : d'.tempSelectedOrderItems = d.tempSelectedOrderItems
  length : d'.objects.length = d.objects.length
  itemRows : d'.itemRows = d.itemRows
  row : d'.vcMode = d.vcMode ∧ d'.indexPath = d.indexPath
  put : t.OnSelected d → (selected d).put t.item t.quantity = .ok (selected d')
  other : ¬ t.OnSelected d → selected d' = selected d

theorem written_of_tap (hd : SelectedAllocated d) (h : tapOf d e = some t)
    (he : edit s e d = .ok d') : Written t d d' := by
  have hput := edit_tap_ok h he
  obtain ⟨o, ho⟩ : ∃ o, d.objects[d.tempSelectedOrderItems]? = some o :=
    ⟨_, List.getElem?_eq_getElem hd⟩
  have hselected : selected d = o := by simp [selected, ho]
  obtain ⟨cell, ⟨shown, reference, before, label⟩, item, quantity⟩ := t
  unfold putLine at hput
  cases reference with
  | none =>
    obtain rfl := pure_ok_iff.mp hput
    refine ⟨rfl, rfl, rfl, rfl, ⟨rfl, rfl⟩, fun hsel => ?_, fun _ => rfl⟩
    cases hsel
  | some r =>
    cases hr : d.objects[r]? with
    | none =>
      simp only [hr, Option.bind_some, Option.map_none] at hput
      obtain rfl := pure_ok_iff.mp hput
      refine ⟨rfl, rfl, rfl, rfl, ⟨rfl, rfl⟩, fun hsel => ?_, fun _ => rfl⟩
      rw [Option.some.inj hsel, ho] at hr
      cases hr
    | some old =>
      simp only [hr, Option.bind_some, Option.map_some, bind_ok_iff, pure_ok_iff] at hput
      obtain ⟨o', ho', rfl⟩ := hput
      refine ⟨rfl, rfl, List.length_set, rfl, ⟨rfl, rfl⟩, fun hsel => ?_, fun hsel => ?_⟩
      · obtain rfl : r = d.tempSelectedOrderItems := Option.some.inj hsel
        obtain rfl : o = old := Option.some.inj (ho.symm.trans hr)
        rw [hselected, ho']
        have hlt : d.tempSelectedOrderItems < d.objects.length := hd
        simp [selected, hlt]
      · have hne : r ≠ d.tempSelectedOrderItems := fun h => hsel (congrArg some h)
        simp [selected, hne]

theorem btnDecreaseTap_of_not_tap {cell : ℕ} (h : tapOf d (.btnDecreaseTap cell) = none) :
    btnDecreaseTap cell d = .ok d := by
  unfold btnDecreaseTap
  cases hc : d.cells[cell]? with
  | none => rfl
  | some c =>
    cases hitem : c.item with
    | none => simp only [hitem]
    | some item =>
      have hpos : ¬ c.quantity > 0 := fun hpos => by simp [tapOf, hc, hitem, hpos] at h
      simp only [hitem, if_neg hpos]

theorem btnIncreaseTap_of_not_tap {cell : ℕ} (h : tapOf d (.btnIncreaseTap cell) = none) :
    btnIncreaseTap cell d = .ok d := by
  unfold btnIncreaseTap
  cases hc : d.cells[cell]? with
  | none => rfl
  | some c =>
    cases hitem : c.item with
    | none => simp only [hitem]
    | some item => simp [tapOf, hc, hitem] at h

/-- An edit that is no tap leaves the lines alone, and the cells unless it configures one. -/
theorem selected_of_not_tap (h : tapOf d e = none) (he : edit s e d = .ok d') :
    d'.objects = d.objects ∧ d'.tempSelectedOrderItems = d.tempSelectedOrderItems ∧
      ((∃ reused row, e = .cellForRowAt reused row) ∨ d'.cells = d.cells) := by
  cases e with
  | type f text => exact Except.ok.inj he ▸ ⟨rfl, rfl, .inr rfl⟩
  | pickFrom row =>
    refine Except.ok.inj he ▸ ?_
    split_ifs <;> exact ⟨rfl, rfl, .inr rfl⟩
  | pickTo row =>
    refine Except.ok.inj he ▸ ?_
    split_ifs <;> exact ⟨rfl, rfl, .inr rfl⟩
  | pickArrival date => exact Except.ok.inj he ▸ ⟨rfl, rfl, .inr rfl⟩
  | pickDeparture date => exact Except.ok.inj he ▸ ⟨rfl, rfl, .inr rfl⟩
  | titleForRow row => exact edit_titleForRow he ▸ ⟨rfl, rfl, .inr rfl⟩
  | cellForRowAt reused row =>
    refine and_assoc.mp ⟨?_, .inl ⟨reused, row, rfl⟩⟩
    change cellForRowAt s reused row d = _ at he
    unfold cellForRowAt at he
    split_ifs at he
    · obtain ⟨item, -, he⟩ := bind_ok_iff.mp he
      cases reused <;> exact pure_ok_iff.mp he ▸ ⟨rfl, rfl⟩
    · exact Except.ok.inj he ▸ ⟨rfl, rfl⟩
  | btnDecreaseTap cell =>
    change btnDecreaseTap cell d = _ at he
    rw [btnDecreaseTap_of_not_tap h] at he
    exact Except.ok.inj he ▸ ⟨rfl, rfl, .inr rfl⟩
  | btnIncreaseTap cell =>
    change btnIncreaseTap cell d = _ at he
    rw [btnIncreaseTap_of_not_tap h] at he
    exact Except.ok.inj he ▸ ⟨rfl, rfl, .inr rfl⟩

end

end LogisticOrderDetailsViewController
end Info6350.TableApp
