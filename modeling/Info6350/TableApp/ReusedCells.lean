import Info6350.TableApp.Frames
import Info6350.TableApp.TappedBack

/-! # Cells that the table view reuses

The quantity of an item is kept twice while an order is edited: in the line of the order, and
in the cell that shows the item.  The table view brings the rows on screen one after another, in
new cells or in cells that have left the screen.
-/

namespace Info6350.TableApp
open Library Swift Logistics LogisticOrderDetailsViewController

/-- The quantity that the lines record for an item, zero without a line. -/
def quantityOf (lines : List OrderItem) (id : ℤ) : ℤ :=
  match lines.find? (fun l => l.item.id = id) with
  | some line => line.quantity
  | none => 0

/-- The first line with the id of an item that does not hold this very item. -/
def firstOther (lines : List OrderItem) (item : Item) : Option OrderItem :=
  (lines.filter fun l => l.item ≠ item).find? fun l => l.item.id = item.id

section Lines
variable {lines : List OrderItem} {item : Item} {quantity : ℤ}

theorem quantityOf_put_of_ne {id : ℤ} (hid : id ≠ item.id) :
    quantityOf (lines.filter (fun l => l.item ≠ item) ++ [⟨item, quantity⟩]) id =
      quantityOf lines id := by
  have hlast : [(⟨item, quantity⟩ : OrderItem)].find? (fun l => l.item.id = id) = none := by
    simp [Ne.symm hid]
  have hrest : (lines.filter fun l => l.item ≠ item).find? (fun l => l.item.id = id) =
      lines.find? fun l => l.item.id = id := by
    rw [List.find?_filter]
    congr 1
    funext l
    by_cases h : l.item.id = id
    · have hne : l.item ≠ item := fun heq => hid (heq ▸ h.symm)
      simp [h, hne]
    · simp [h]
  rw [quantityOf, List.find?_append, hlast, Option.or_none, hrest]
  rfl

/-- Its own quantity is recorded unless another line with the id comes first. -/
theorem quantityOf_put_self :
    quantityOf (lines.filter (fun l => l.item ≠ item) ++ [⟨item, quantity⟩]) item.id = quantity ↔
      ∀ l, firstOther lines item = some l → l.quantity = quantity := by
  have hlast : [(⟨item, quantity⟩ : OrderItem)].find? (fun l => l.item.id = item.id) =
      some ⟨item, quantity⟩ := by simp
  rw [quantityOf, List.find?_append, hlast]
  change (match (firstOther lines item).or _ with | some line => _ | none => _) = _ ↔ _
  cases firstOther lines item with
  | none => simp
  | some l => simp

theorem quantityOf_eq_zero (h : ¬ ∃ l ∈ lines, l.item.id = item.id) :
    quantityOf lines item.id = 0 := by
  have hnone : lines.find? (fun l => l.item.id = item.id) = none := by
    simpa using h
  rw [quantityOf, hnone]

end Lines

/-! ## The rows on screen -/

/-- The rows on screen, each with the cell that shows it. -/
abbrev VisibleRows := List (ℕ × ℕ)

/-- The rows on screen after an event on the order screens.  A row that is configured comes on
screen, and a details screen starts without any. -/
def visibleAfter (p : Pane LogisticsOrder OrderDetails) (e : PaneEvent OrderEdit)
    (visible : VisibleRows) : VisibleRows :=
  match p.details, e with
  | some d, .edit (.cellForRowAt reused row) =>
    if row < d.itemRows ∧ ∀ cell ∈ reused, cell < d.cells.length then
      (row, reused.getD d.cells.length) :: visible.filter fun v => v.1 ≠ row
    else visible
  | some _, _ => visible
  | none, _ => []

def recordVisible (st : AppState) (i : Input) (_ : AppState) (visible : VisibleRows) :
    VisibleRows :=
  match st.screen, i.event with
  | .orders p, .orders e => visibleAfter p e visible
  | _, _ => visible

/-- An input of the app, or the table view takes a row off the screen. -/
inductive TableEvent where
  | input (i : Input)
  | didEndDisplaying (row : ℕ)

/-- The table view dequeues no cell that is on screen, and only cells on screen are tapped. -/
def OrderEdit.isPossible (visible : VisibleRows) : OrderEdit → Bool
  | .cellForRowAt (some cell) _ => decide (cell ∉ visible.map Prod.snd)
  | .btnDecreaseTap cell => decide (cell ∈ visible.map Prod.snd)
  | .btnIncreaseTap cell => decide (cell ∈ visible.map Prod.snd)
  | _ => true

def Input.isPossible (visible : VisibleRows) (i : Input) : Bool :=
  match i.event with
  | .orders (.edit e) => e.isPossible visible
  | _ => true

/-- The app with its table view.  What the table view cannot do changes nothing. -/
def tableView (P : Platform) : Machine (AppState × VisibleRows) TableEvent Trap := fun st e =>
  match e with
  | .input i =>
    if i.isPossible st.2 then (step P .assignment9).withHistory recordVisible st i else .ok st
  | .didEndDisplaying row => .ok (st.1, st.2.filter fun v => v.1 ≠ row)

/-- Every cell on screen shows a quantity, it is the one recorded for its item in the order being
edited, and the button saves an order that has it. -/
def QuantitiesSaved (st : AppState × VisibleRows) : Prop :=
  ∀ p d, st.1.screen = .orders p → p.details = some d →
    ∀ v ∈ st.2, ∀ c item, d.cells[v.2]? = some c → c.item = some item →
      c.quantityLabel = toString c.quantity ∧
      c.quantity = quantityOf (selected d).items item.id ∧
      ∀ written s' a, createButtonTapped .assignment9 written d st.1.store = .ok (s', a) →
        ∃ order, savedOrder d s' = some order ∧ c.quantity = quantityOf order.itemsCarried item.id

/-! ## The details screen -/

/-- The rows on screen are shown by different cells, each with the item of its row. -/
structure OnScreen (items : List Item) (d : OrderDetails) (visible : VisibleRows) : Prop where
  allocated : SelectedAllocated d
  labels : ∀ c ∈ d.cells, c.quantityLabel = toString c.quantity
  rows : (visible.map Prod.fst).Nodup
  cells : (visible.map Prod.snd).Nodup
  configured : ∀ v ∈ visible, ∃ c item, d.cells[v.2]? = some c ∧ items[v.1]? = some item ∧
    c.item = some item

/-- Each of them holds the quantity recorded for its item. -/
def Recorded (d : OrderDetails) (visible : VisibleRows) : Prop :=
  ∀ v ∈ visible, ∀ c item, d.cells[v.2]? = some c → c.item = some item →
    c.quantity = quantityOf (selected d).items item.id

/-- A reused cell held zero or finds a line of its item, a tapped cell writes to the lines of the
order and finds no other line with the id of its item that differs from what it writes, and an
order that is loaded again has the quantities on screen. -/
structure KeepsQuantities (s : Store) (d : OrderDetails) (visible : VisibleRows)
    (e : PaneEvent OrderEdit) : Prop where
  reused : ∀ cell row c item, e = .edit (.cellForRowAt (some cell) row) → row < d.itemRows →
    d.cells[cell]? = some c → s.items[row]? = some item →
      c.quantity = 0 ∨ ∃ l ∈ (selected d).items, l.item.id = item.id
  tap : ∀ x t, e = .edit x → tapOf d x = some t → t.OnSelected d ∧
    ∀ l, firstOther (selected d).items t.item = some l → l.quantity = t.quantity
  appear : ∀ row order, e = .reappear → d.vcMode = .modify → d.indexPath = some row →
    s.logisticsOrder[row]? = some order → ∀ v ∈ visible, ∀ c item, d.cells[v.2]? = some c →
      c.item = some item → c.quantity = quantityOf order.itemsCarried item.id

section Details
variable {s : Store} {d d' : OrderDetails} {visible : VisibleRows}

theorem configureCell_quantity (item : Item) (c : OrderItemsTableViewCell) :
    (configureCell item d c).quantity =
      if ∃ l ∈ (selected d).items, l.item.id = item.id then
        quantityOf (selected d).items item.id else c.quantity := by
  unfold configureCell quantityOf
  dsimp only
  cases hfind : (selected d).items.find? fun l => l.item.id = item.id with
  | none =>
    have hnone : ¬ ∃ l ∈ (selected d).items, l.item.id = item.id := by simpa using hfind
    rw [if_neg hnone]
  | some line =>
    have hid : line.item.id = item.id := by simpa using List.find?_some hfind
    rw [if_pos ⟨line, List.mem_of_find?_eq_some hfind, hid⟩]

theorem configureCell_label {c : OrderItemsTableViewCell} (item : Item)
    (h : c.quantityLabel = toString c.quantity) :
    (configureCell item d c).quantityLabel = toString (configureCell item d c).quantity := by
  unfold configureCell
  dsimp only
  split
  · rfl
  · exact h

/-- What `cellForRowAt` does for a row of the table: it configures a new cell or the one that was
dequeued, and leaves the other cells and the lines alone. -/
structure Configures (s : Store) (reused : Option ℕ) (row : ℕ) (d d' : OrderDetails) (item : Item)
    (c : OrderItemsTableViewCell) : Prop where
  listed : s.items[row]? = some item
  dequeued : reused = none ∧ c = .blank ∨ ∃ cell, reused = some cell ∧ d.cells[cell]? = some c
  configured : d'.cells[reused.getD d.cells.length]? = some (configureCell item d c)
  others : ∀ j ≠ reused.getD d.cells.length, d'.cells[j]? = d.cells[j]?
  selected : d'.objects = d.objects ∧ d'.tempSelectedOrderItems = d.tempSelectedOrderItems

theorem cellForRowAt_configures {reused : Option ℕ} {row : ℕ} (hrow : row < d.itemRows)
    (hreused : ∀ cell ∈ reused, cell < d.cells.length)
    (h : cellForRowAt s reused row d = .ok d') : ∃ item c, Configures s reused row d d' item c := by
  unfold cellForRowAt at h
  rw [if_pos hrow] at h
  obtain ⟨item, hitem, h⟩ := bind_ok_iff.mp h
  have hitem : s.items[row]? = some item := (subscript_natCast _ _).mp hitem
  cases reused with
  | none =>
    obtain rfl := pure_ok_iff.mp h
    refine ⟨item, .blank, hitem, .inl ⟨rfl, rfl⟩, List.getElem?_concat_length, fun j hj => ?_,
      ⟨rfl, rfl⟩⟩
    have hj : j ≠ d.cells.length := hj
    simp only [List.getElem?_append]
    split_ifs with hlt
    · rfl
    · rw [List.getElem?_eq_none (by simp; omega), List.getElem?_eq_none (by omega)]
  | some cell =>
    obtain rfl := pure_ok_iff.mp h
    have hlt : cell < d.cells.length := hreused cell rfl
    refine ⟨item, d.cells[cell], hitem, .inr ⟨cell, rfl, List.getElem?_eq_getElem hlt⟩, ?_,
      fun j hj => ?_, ⟨rfl, rfl⟩⟩
    · simp [hlt]
    · have hj : j ≠ cell := hj
      simp [hj.symm]

theorem cellForRowAt_cells {reused : Option ℕ} {row : ℕ}
    (hrow : ¬ (row < d.itemRows ∧ ∀ cell ∈ reused, cell < d.cells.length))
    (h : cellForRowAt s reused row d = .ok d') : d'.cells = d.cells := by
  unfold cellForRowAt at h
  split_ifs at h with hlt
  · obtain ⟨item, -, h⟩ := bind_ok_iff.mp h
    cases reused with
    | none => exact absurd ⟨hlt, fun _ h => (nomatch h)⟩ hrow
    | some cell =>
      obtain rfl := pure_ok_iff.mp h
      have hge : d.cells.length ≤ cell := by
        by_contra hcell
        exact hrow ⟨hlt, fun i hi => Option.some.inj hi ▸ not_le.mp hcell⟩
      exact List.modify_eq_self hge
  · exact Except.ok.inj h ▸ rfl

theorem selected_congr (h : d'.objects = d.objects)
    (href : d'.tempSelectedOrderItems = d.tempSelectedOrderItems) : selected d' = selected d := by
  unfold selected
  rw [h, href]

section Configures
variable {reused : Option ℕ} {row : ℕ} {item : Item} {c : OrderItemsTableViewCell}

theorem OnScreen.notMem_cells (h : OnScreen s.items d visible)
    (hpossible : (OrderEdit.cellForRowAt reused row).isPossible visible = true) :
    reused.getD d.cells.length ∉ visible.map Prod.snd := by
  cases reused with
  | none =>
    intro hmem
    obtain ⟨v, hv, hcell⟩ := List.mem_map.mp hmem
    obtain ⟨c, item, hc, -⟩ := h.configured v hv
    exact absurd (List.getElem?_eq_some_iff.mp hc).choose (not_lt.mpr hcell.ge)
  | some cell => exact of_decide_eq_true hpossible

theorem OnScreen.configure (h : OnScreen s.items d visible)
    (hpossible : (OrderEdit.cellForRowAt reused row).isPossible visible = true)
    (hd : Configures s reused row d d' item c) : OnScreen s.items d'
      ((row, reused.getD d.cells.length) :: visible.filter fun v => v.1 ≠ row) where
  allocated := by
    unfold SelectedAllocated
    rw [hd.selected.1, hd.selected.2]
    exact h.allocated
  labels := by
    intro c' hc'
    obtain ⟨j, hj⟩ := List.getElem?_of_mem hc'
    by_cases hcell : j = reused.getD d.cells.length
    · subst hcell
      obtain rfl := Option.some.inj (hd.configured.symm.trans hj)
      refine configureCell_label item ?_
      rcases hd.dequeued with ⟨-, rfl⟩ | ⟨cell, -, hc⟩
      · rfl
      · exact h.labels c (List.mem_of_getElem? hc)
    · exact h.labels c' (List.mem_of_getElem? (hd.others j hcell ▸ hj))
  rows := by
    refine List.nodup_cons.mpr ⟨?_, h.rows.sublist (List.filter_sublist.map _)⟩
    simp
  cells := by
    refine List.nodup_cons.mpr ⟨fun hmem => h.notMem_cells hpossible ?_,
      h.cells.sublist (List.filter_sublist.map _)⟩
    exact (List.filter_sublist.map _).subset hmem
  configured := by
    intro v hv
    rcases List.mem_cons.mp hv with rfl | hv
    · exact ⟨_, item, hd.configured, hd.listed, configureCell_item item d c⟩
    · have hv := List.mem_of_mem_filter hv
      obtain ⟨c', item', hc', hrest⟩ := h.configured v hv
      refine ⟨c', item', ?_, hrest⟩
      rw [hd.others v.2 fun heq => h.notMem_cells hpossible (heq ▸ List.mem_map_of_mem hv)]
      exact hc'

/-- A cell that is configured shows the recorded quantity unless it is reused with a quantity for
an item without a line. -/
theorem recorded_configure_iff (h : OnScreen s.items d visible) (hr : Recorded d visible)
    (hpossible : (OrderEdit.cellForRowAt reused row).isPossible visible = true)
    (hd : Configures s reused row d d' item c) :
    Recorded d' ((row, reused.getD d.cells.length) :: visible.filter fun v => v.1 ≠ row) ↔
      c.quantity = 0 ∨ ∃ l ∈ (selected d).items, l.item.id = item.id := by
  have hselected : selected d' = selected d := selected_congr hd.selected.1 hd.selected.2
  have hothers : ∀ v ∈ visible, d'.cells[v.2]? = d.cells[v.2]? := fun v hv =>
    hd.others v.2 fun heq => h.notMem_cells hpossible (heq ▸ List.mem_map_of_mem hv)
  constructor
  · intro hrec
    by_cases hline : ∃ l ∈ (selected d).items, l.item.id = item.id
    · exact .inr hline
    · have hquantity := hrec _ List.mem_cons_self _ item hd.configured (configureCell_item item d c)
      rw [configureCell_quantity, if_neg hline, hselected, quantityOf_eq_zero hline] at hquantity
      exact .inl hquantity
  · intro hline v hv c' item' hc' hitem'
    rw [hselected]
    rcases List.mem_cons.mp hv with rfl | hv
    · obtain rfl := Option.some.inj (hd.configured.symm.trans hc')
      obtain rfl := Option.some.inj ((configureCell_item item d c).symm.trans hitem')
      rw [configureCell_quantity]
      split_ifs with hsome
      · rfl
      · rw [quantityOf_eq_zero hsome]
        exact hline.resolve_right hsome
    · have hv := List.mem_of_mem_filter hv
      exact hr v hv c' item' (hothers v hv ▸ hc') hitem'

end Configures

section Tap
variable {e : OrderEdit} {t : Tap}

theorem OnScreen.tap (h : OnScreen s.items d visible) (ht : tapOf d e = some t)
    (hw : Written t d d') : OnScreen s.items d' visible where
  allocated := by
    unfold SelectedAllocated
    rw [hw.reference, hw.length]
    exact h.allocated
  labels := by
    intro c hc
    rw [hw.cells] at hc
    rcases List.mem_or_eq_of_mem_set hc with hc | rfl
    · exact h.labels c hc
    · rfl
  rows := h.rows
  cells := h.cells
  configured := by
    intro v hv
    obtain ⟨c, item, hc, hitem, hshown⟩ := h.configured v hv
    rw [hw.cells]
    by_cases hcell : t.cell = v.2
    · obtain ⟨hbefore, hbeforeItem⟩ := tapOf_cell ht
      obtain rfl : t.before = c := Option.some.inj (hbefore.symm.trans (hcell ▸ hc))
      refine ⟨{ t.before with quantity := t.quantity, quantityLabel := toString t.quantity }, item,
        ?_, hitem, hshown⟩
      rw [hcell, List.getElem?_set_self (List.getElem?_eq_some_iff.mp hc).choose]
    · exact ⟨c, item, by rwa [List.getElem?_set_ne hcell], hitem, hshown⟩

/-- A tap of a cell on screen keeps the quantities that are shown recorded exactly when it writes
to the lines of the order and finds there no other line that is looked up instead. -/
theorem recorded_tap_iff (hitems : Distinct s.items) (h : OnScreen s.items d visible)
    (hr : Recorded d visible) (hvisible : t.cell ∈ visible.map Prod.snd)
    (ht : tapOf d e = some t) (hw : Written t d d') :
    Recorded d' visible ↔ t.OnSelected d ∧
      ∀ l, firstOther (selected d).items t.item = some l → l.quantity = t.quantity := by
  obtain ⟨v, hv, hcell⟩ := List.mem_map.mp hvisible
  obtain ⟨hbefore, hbeforeItem⟩ := tapOf_cell ht
  obtain ⟨c, item, hc, hlisted, hitem⟩ := h.configured v hv
  rw [hcell] at hc
  obtain rfl : t.before = c := Option.some.inj (hbefore.symm.trans hc)
  obtain rfl : t.item = item := Option.some.inj (hbeforeItem.symm.trans hitem)
  have hlt : t.cell < d.cells.length := (List.getElem?_eq_some_iff.mp hc).choose
  have hshown : t.before.quantity = quantityOf (selected d).items t.item.id :=
    hr v hv t.before t.item (hcell ▸ hbefore) hbeforeItem
  constructor
  · intro hrec
    have hafter : d'.cells[v.2]? = some { t.before with
        quantity := t.quantity, quantityLabel := toString t.quantity } := by
      rw [hw.cells, hcell, List.getElem?_set_self hlt]
    have hquantity : t.quantity = quantityOf (selected d').items t.item.id :=
      hrec v hv _ t.item hafter hbeforeItem
    by_cases hsel : t.OnSelected d
    · rw [(OrderItems.put_ok (hw.put hsel)).1] at hquantity
      exact ⟨hsel, quantityOf_put_self.mp hquantity.symm⟩
    · rw [hw.other hsel, ← hshown] at hquantity
      exact absurd hquantity (tapOf_quantity ht)
  · rintro ⟨hsel, hother⟩ w hwv c' item' hc' hitem'
    rw [(OrderItems.put_ok (hw.put hsel)).1]
    rw [hw.cells] at hc'
    by_cases hwcell : t.cell = w.2
    · rw [← hwcell, List.getElem?_set_self hlt] at hc'
      obtain rfl := Option.some.inj hc'
      obtain rfl : t.item = item' := Option.some.inj (hbeforeItem.symm.trans hitem')
      exact (quantityOf_put_self.mpr hother).symm
    · -- another row has another item, and the ids of the items are distinct
      rw [List.getElem?_set_ne hwcell] at hc'
      obtain ⟨c₀, item₀, hc₀, hlisted₀, hitem₀⟩ := h.configured w hwv
      obtain rfl := Option.some.inj (hc₀.symm.trans hc')
      obtain rfl : item₀ = item' := Option.some.inj (hitem₀.symm.trans hitem')
      have hid : item₀.id ≠ t.item.id := by
        intro hid
        have hrow : w.1 = v.1 := hitems.row_inj hlisted₀ hlisted hid
        have hwv' : w = v := List.inj_on_of_nodup_map h.rows hwv hv hrow
        exact hwcell (hwv' ▸ hcell.symm)
      rw [quantityOf_put_of_ne hid]
      exact hr w hwv c₀ item₀ hc₀ hitem₀

end Tap

theorem OnScreen.appear (h : OnScreen s.items d visible) (happear : viewWillAppear s d = .ok d') :
    OnScreen s.items d' visible := by
  obtain ⟨hcells, -⟩ := viewWillAppear_selected happear
  refine ⟨?_, hcells ▸ h.labels, h.rows, h.cells, hcells ▸ h.configured⟩
  unfold viewWillAppear at happear
  split at happear
  · obtain ⟨order, -, happear⟩ := bind_ok_iff.mp happear
    obtain ⟨object, -, happear⟩ := bind_ok_iff.mp happear
    obtain rfl := pure_ok_iff.mp happear
    simp [SelectedAllocated]
  · exact Except.ok.inj happear ▸ h.allocated

/-- The quantities that are shown stay recorded exactly when the order that is loaded has them. -/
theorem recorded_appear_iff (hr : Recorded d visible) (happear : viewWillAppear s d = .ok d') :
    Recorded d' visible ↔ ∀ row order, d.vcMode = .modify → d.indexPath = some row →
      s.logisticsOrder[row]? = some order → ∀ v ∈ visible, ∀ c item, d.cells[v.2]? = some c →
        c.item = some item → c.quantity = quantityOf order.itemsCarried item.id := by
  obtain ⟨hcells, -⟩ := viewWillAppear_selected happear
  by_cases hload : d.vcMode = .modify ∧ ∃ row, d.indexPath = some row
  · obtain ⟨hmode, row, hrow⟩ := hload
    obtain ⟨order, horder, -, hitems⟩ := viewWillAppear_modify hmode hrow happear
    unfold Recorded
    rw [hcells, hitems]
    constructor
    · intro hrec row' order' _ hrow' horder'
      obtain rfl := Option.some.inj (hrow.symm.trans hrow')
      obtain rfl := Option.some.inj (horder.symm.trans horder')
      exact hrec
    · exact fun h => h row order hmode hrow horder
  · have hsame : d = d' := by
      unfold viewWillAppear at happear
      split at happear
      · rename_i row hmode hrow
        exact absurd ⟨hmode, row, hrow⟩ hload
      · exact Except.ok.inj happear
    subst hsame
    exact iff_of_true hr fun row _ hmode hrow => absurd ⟨hmode, row, hrow⟩ hload

theorem OnScreen.congr (h : OnScreen s.items d visible) (hcells : d'.cells = d.cells)
    (hobjects : d'.objects = d.objects)
    (href : d'.tempSelectedOrderItems = d.tempSelectedOrderItems) : OnScreen s.items d' visible := by
  refine ⟨?_, hcells ▸ h.labels, h.rows, h.cells, hcells ▸ h.configured⟩
  unfold SelectedAllocated
  rw [hobjects, href]
  exact h.allocated

theorem Recorded.congr (h : Recorded d visible) (hcells : d'.cells = d.cells)
    (hobjects : d'.objects = d.objects)
    (href : d'.tempSelectedOrderItems = d.tempSelectedOrderItems) : Recorded d' visible := by
  unfold Recorded
  rw [hcells, selected_congr hobjects href]
  exact h

theorem mem_visible_of_tap {x : OrderEdit} {t : Tap} (ht : tapOf d x = some t)
    (hpossible : x.isPossible visible = true) : t.cell ∈ visible.map Prod.snd := by
  cases x with
  | btnDecreaseTap cell =>
    obtain ⟨c, -, ht⟩ := Option.bind_eq_some_iff.mp ht
    obtain ⟨item, -, ht⟩ := Option.bind_eq_some_iff.mp ht
    split_ifs at ht
    obtain rfl := Option.some.inj ht
    exact of_decide_eq_true hpossible
  | btnIncreaseTap cell =>
    obtain ⟨c, -, ht⟩ := Option.bind_eq_some_iff.mp ht
    obtain ⟨item, -, ht⟩ := Option.bind_eq_some_iff.mp ht
    obtain rfl := Option.some.inj ht
    exact of_decide_eq_true hpossible
  | _ => cases ht

theorem keepsQuantities_of_idle {e : PaneEvent OrderEdit}
    (htap : ∀ x t, e = .edit x → tapOf d x ≠ some t)
    (hreused : ∀ cell row, e = .edit (.cellForRowAt (some cell) row) → row < d.itemRows →
      d.cells.length ≤ cell) (happear : e ≠ .reappear) : KeepsQuantities s d visible e where
  reused cell row _ _ he hrow hc _ :=
    absurd (List.getElem?_eq_some_iff.mp hc).choose (not_lt.mpr (hreused cell row he hrow))
  tap x t he ht := absurd ht (htap x t he)
  appear _ _ he := absurd he happear

section Edit
variable {p : Pane LogisticsOrder OrderDetails} {x : OrderEdit}

theorem visibleAfter_edit (hd : p.details = some d)
    (hx : ∀ reused row, x ≠ .cellForRowAt reused row) :
    visibleAfter p (.edit x) visible = visible := by
  unfold visibleAfter
  rw [hd]
  cases x with
  | cellForRowAt reused row => exact absurd rfl (hx reused row)
  | _ => rfl

theorem edit_onScreen_of_tap {t : Tap} (hd : p.details = some d) (hitems : Distinct s.items)
    (h : OnScreen s.items d visible) (hr : Recorded d visible)
    (hpossible : x.isPossible visible = true) (ht : tapOf d x = some t)
    (he : edit s x d = .ok d') :
    OnScreen s.items d' (visibleAfter p (.edit x) visible) ∧
      (Recorded d' (visibleAfter p (.edit x) visible) ↔ KeepsQuantities s d visible (.edit x)) := by
  have hw := written_of_tap h.allocated ht he
  have hx : ∀ reused row, x ≠ .cellForRowAt reused row := by
    rintro reused row rfl
    cases ht
  rw [visibleAfter_edit hd hx, recorded_tap_iff hitems h hr (mem_visible_of_tap ht hpossible) ht hw]
  refine ⟨h.tap ht hw, fun htap => ⟨?_, ?_, fun _ _ he => (nomatch he)⟩, fun hkeeps =>
    hkeeps.tap x t rfl ht⟩
  · intro cell row c item he
    exact absurd (PaneEvent.edit.inj he) (hx _ _)
  · intro x' t' he ht'
    obtain rfl := PaneEvent.edit.inj he
    obtain rfl := Option.some.inj (ht.symm.trans ht')
    exact htap

theorem edit_onScreen_of_configure {reused : Option ℕ} {row : ℕ} (hd : p.details = some d)
    (h : OnScreen s.items d visible) (hr : Recorded d visible)
    (hpossible : (OrderEdit.cellForRowAt reused row).isPossible visible = true)
    (hrow : row < d.itemRows ∧ ∀ cell ∈ reused, cell < d.cells.length)
    (he : cellForRowAt s reused row d = .ok d') :
    OnScreen s.items d' (visibleAfter p (.edit (.cellForRowAt reused row)) visible) ∧
      (Recorded d' (visibleAfter p (.edit (.cellForRowAt reused row)) visible) ↔
        KeepsQuantities s d visible (.edit (.cellForRowAt reused row))) := by
  obtain ⟨item, c, hconf⟩ := cellForRowAt_configures hrow.1 hrow.2 he
  have hvisible : visibleAfter p (.edit (.cellForRowAt reused row)) visible =
      (row, reused.getD d.cells.length) :: visible.filter fun v => v.1 ≠ row := by
    simp only [visibleAfter, hd, if_pos hrow]
  rw [hvisible, recorded_configure_iff h hr hpossible hconf]
  refine ⟨h.configure hpossible hconf, fun hline => ⟨?_, ?_, fun _ _ he => (nomatch he)⟩,
    fun hkeeps => ?_⟩
  · rintro cell row' c' item' hx - hc' hitem'
    obtain ⟨rfl, rfl⟩ := OrderEdit.cellForRowAt.inj (PaneEvent.edit.inj hx)
    obtain rfl := Option.some.inj (hconf.listed.symm.trans hitem')
    rcases hconf.dequeued with ⟨hnone, -⟩ | ⟨cell', hcell', hc⟩
    · cases hnone
    · obtain rfl := Option.some.inj hcell'
      obtain rfl := Option.some.inj (hc.symm.trans hc')
      exact hline
  · intro x t hx ht
    obtain rfl := PaneEvent.edit.inj hx
    cases ht
  · rcases hconf.dequeued with ⟨-, rfl⟩ | ⟨cell, rfl, hc⟩
    · exact .inl rfl
    · exact hkeeps.reused cell row c item rfl hrow.1 hc hconf.listed

theorem edit_onScreen (hd : p.details = some d) (hitems : Distinct s.items)
    (h : OnScreen s.items d visible) (hr : Recorded d visible)
    (hpossible : x.isPossible visible = true) (he : edit s x d = .ok d') :
    OnScreen s.items d' (visibleAfter p (.edit x) visible) ∧
      (Recorded d' (visibleAfter p (.edit x) visible) ↔ KeepsQuantities s d visible (.edit x)) := by
  cases ht : tapOf d x with
  | some t => exact edit_onScreen_of_tap hd hitems h hr hpossible ht he
  | none =>
    have htap : ∀ x' t, PaneEvent.edit x = .edit x' → tapOf d x' ≠ some t := by
      intro x' t hx ht'
      obtain rfl := PaneEvent.edit.inj hx
      cases ht.symm.trans ht'
    obtain ⟨hobjects, href, hcells⟩ := selected_of_not_tap ht he
    by_cases hx : ∃ reused row, x = .cellForRowAt reused row
    · obtain ⟨reused, row, rfl⟩ := hx
      by_cases hrow : row < d.itemRows ∧ ∀ cell ∈ reused, cell < d.cells.length
      · exact edit_onScreen_of_configure hd h hr hpossible hrow he
      · have hvisible : visibleAfter p (.edit (.cellForRowAt reused row)) visible = visible := by
          simp only [visibleAfter, hd, if_neg hrow]
        have hcells := cellForRowAt_cells hrow he
        rw [hvisible]
        refine ⟨h.congr hcells hobjects href, iff_of_true (hr.congr hcells hobjects href)
          (keepsQuantities_of_idle htap (fun cell row' hx hlt => ?_) (fun he => (nomatch he)))⟩
        obtain ⟨rfl, rfl⟩ := OrderEdit.cellForRowAt.inj (PaneEvent.edit.inj hx)
        by_contra hcell
        exact hrow ⟨hlt, fun i hi => Option.some.inj hi ▸ not_le.mp hcell⟩
    · have hcells := hcells.resolve_left hx
      rw [visibleAfter_edit hd fun reused row heq => hx ⟨reused, row, heq⟩]
      refine ⟨h.congr hcells hobjects href, iff_of_true (hr.congr hcells hobjects href)
        (keepsQuantities_of_idle htap (fun cell row heq _ => ?_) (fun he => (nomatch he)))⟩
      exact absurd ⟨some cell, row, PaneEvent.edit.inj heq⟩ hx

theorem paneStep_onScreen {P : Platform} {written : Bool} {e : PaneEvent OrderEdit}
    {r : PaneResult LogisticsOrder OrderDetails} (hd : p.details = some d)
    (hitems : Distinct s.items) (h : OnScreen s.items d visible) (hr : Recorded d visible)
    (hpossible : ∀ x, e = .edit x → x.isPossible visible = true)
    (hstep : paneStep (orderControllers P .assignment9) written s p e = .ok r) :
    (∀ d', r.pane.details = some d' → OnScreen s.items d' (visibleAfter p e visible)) ∧
      ((∀ d', r.pane.details = some d' → Recorded d' (visibleAfter p e visible)) ↔
        KeepsQuantities s d visible e) := by
  have hidle : (∀ x, e ≠ .edit x) → e ≠ .reappear → KeepsQuantities s d visible e :=
    fun hedit happear => keepsQuantities_of_idle (fun x t he => absurd he (hedit x))
      (fun cell row he => absurd he (hedit _)) happear
  have hmove := paneStep_details hstep
  rw [hd] at hmove
  generalize r.pane.details = details' at hmove ⊢
  have hone : ∀ {d'} {I : OrderDetails → Prop}, (∀ d'', some d' = some d'' → I d'') ↔ I d' := by
    simp
  cases hmove with
  | edit x _ d' hd' =>
    rw [hone, hone]
    exact edit_onScreen hd hitems h hr (hpossible x rfl) hd'
  | appear _ d' hd' =>
    have hvisible : visibleAfter p .reappear visible = visible := by
      unfold visibleAfter
      rw [hd]
    rw [hvisible, hone, hone, recorded_appear_iff hr hd']
    refine ⟨h.appear hd', fun happear => ?_, fun hkeeps row order => hkeeps.appear row order rfl⟩
    exact ⟨fun _ _ _ _ he => (nomatch he), fun _ _ he => (nomatch he),
      fun row order _ => happear row order⟩
  | back =>
    exact ⟨nofun, iff_of_true nofun (hidle (fun _ h => (nomatch h)) (fun h => (nomatch h)))⟩
  | idle _ _ hedit happear =>
    have hvisible : visibleAfter p e visible = visible := by
      unfold visibleAfter
      rw [hd]
      cases e with
      | edit x => exact absurd rfl (hedit x)
      | _ => rfl
    rw [hvisible, hone, hone]
    exact ⟨h, iff_of_true hr (hidle hedit happear)⟩

theorem paneStep_load {P : Platform} {written : Bool} {e : PaneEvent OrderEdit}
    {r : PaneResult LogisticsOrder OrderDetails} (hd : p.details = none)
    (hstep : paneStep (orderControllers P .assignment9) written s p e = .ok r)
    (hd' : r.pane.details = some d') : OnScreen s.items d' (visibleAfter p e visible) := by
  have hvisible : visibleAfter p e visible = [] := by
    unfold visibleAfter
    rw [hd]
  rw [hvisible]
  have hstart : ∀ vcMode indexPath now,
      viewWillAppear s (instantiate vcMode indexPath now s) = .ok d' → OnScreen s.items d' [] := by
    intro vcMode indexPath now hload
    have hempty : OnScreen s.items (instantiate vcMode indexPath now s) [] :=
      ⟨Nat.one_pos, fun _ hc => absurd hc List.not_mem_nil, List.nodup_nil, List.nodup_nil,
        fun _ hv => absurd hv List.not_mem_nil⟩
    exact hempty.appear hload
  have hmove := paneStep_details hstep
  rw [hd, hd'] at hmove
  cases hmove with
  | create now _ hload => exact hstart .create none now hload
  | modify row now _ hload => exact hstart .modify (some row) now hload

end Edit
end Details

/-! ## Runs -/

def TableEvent.KeepsQuantities (st : AppState × VisibleRows) (e : TableEvent) : Prop :=
  ∀ i p d x, e = .input i → i.isPossible st.2 = true → st.1.screen = .orders p →
    p.details = some d → i.event = .orders x → TableApp.KeepsQuantities st.1.store d st.2 x

def AppState.OnScreen (P : Platform) (st : AppState × VisibleRows) : Prop :=
  st.1.Inv P .assignment9 Store.DistinctIds AnyDetails ∧
    ∀ p d, st.1.screen = .orders p → p.details = some d →
      TableApp.OnScreen st.1.store.items d st.2

def AppState.Recorded (st : AppState × VisibleRows) : Prop :=
  ∀ p d, st.1.screen = .orders p → p.details = some d → TableApp.Recorded d st.2

section App
variable (P : Platform)

theorem quantitiesSaved_iff {st : AppState × VisibleRows} (h : AppState.OnScreen P st) :
    QuantitiesSaved st ↔ AppState.Recorded st := by
  constructor
  · exact fun hsaved p d hp hd v hv c item hc hitem => (hsaved p d hp hd v hv c item hc hitem).2.1
  · intro hrec p d hp hd v hv c item hc hitem
    have hquantity := hrec p d hp hd v hv c item hc hitem
    refine ⟨(h.2 p d hp hd).labels c (List.mem_of_getElem? hc), hquantity, ?_⟩
    intro written s' a htap
    obtain ⟨e, he, rfl⟩ := (orderControllers_carryOut P .assignment9).tap_ok htap
    obtain ⟨order, hsaved, hitems, -⟩ := savedOrder_of_byButton he written
    exact ⟨order, hsaved, hitems ▸ hquantity⟩

theorem step_onScreen {st : AppState × VisibleRows} {st' : AppState} {i : Input}
    (hst : AppState.OnScreen P st) (hrec : AppState.Recorded st)
    (hpossible : i.isPossible st.2 = true) (h : step P .assignment9 st.1 i = .ok st') :
    (∀ p d, st'.screen = .orders p → p.details = some d →
      TableApp.OnScreen st'.store.items d (recordVisible st.1 i st' st.2)) ∧
    (AppState.Recorded (st', recordVisible st.1 i st' st.2) ↔
      (TableEvent.input i).KeepsQuantities st) := by
  obtain ⟨⟨s, screen, alerts⟩, visible⟩ := st
  obtain ⟨e, written⟩ := i
  cases step_move h with
  | orders p e r hr =>
    have hitems : r.store.items = s.items := (orderPane_frame hr).1.array
    have hedit : ∀ x, e = .edit x → x.isPossible visible = true := by
      rintro x rfl
      exact hpossible
    cases hd : p.details with
    | none =>
      have hvisible : visibleAfter p e visible = [] := by
        unfold visibleAfter
        rw [hd]
      refine ⟨?_, iff_of_true ?_ ?_⟩
      · rintro q d ⟨⟩ hd'
        rw [hitems]
        exact paneStep_load hd hr hd'
      · rintro q d ⟨⟩ hd' v hv
        change v ∈ visibleAfter p e visible at hv
        rw [hvisible] at hv
        cases hv
      · rintro i q d x - - ⟨⟩ hd'
        cases hd.symm.trans hd'
    | some d =>
      obtain ⟨hscreen, hiff⟩ := paneStep_onScreen hd hst.1.1.items (hst.2 p d rfl hd)
        (hrec p d rfl hd) hedit hr
      refine ⟨?_, ⟨fun hrec' => ?_, fun hkeeps => ?_⟩⟩
      · rintro q d' ⟨⟩ hd'
        rw [hitems]
        exact hscreen d' hd'
      · rintro i q d' x ⟨⟩ - ⟨⟩ hd' ⟨⟩
        obtain rfl := Option.some.inj (hd.symm.trans hd')
        exact hiff.mp fun d' hd' => hrec' r.pane d' rfl hd'
      · rintro q d' ⟨⟩ hd'
        exact hiff.mpr (hkeeps _ p d e rfl hpossible rfl hd rfl) d' hd'
  | stay _ _ _ _ ho =>
    have hevent : ∀ p x, screen = .orders p → e ≠ .orders x := ho
    have hvisible : ∀ p, screen = .orders p →
        recordVisible ⟨s, screen, alerts⟩ ⟨e, written⟩ ⟨s, screen, alerts⟩ visible = visible := by
      rintro p rfl
      cases e with
      | orders x => exact absurd rfl (ho p x rfl)
      | _ => rfl
    refine ⟨fun p d hp hd => ?_, iff_of_true (fun p d hp hd => ?_) ?_⟩
    · rw [hvisible p hp]
      exact hst.2 p d hp hd
    · dsimp only
      rw [hvisible p hp]
      exact hrec p d hp hd
    · rintro i p d x ⟨⟩ - hp - hx
      exact absurd hx (hevent p x hp)
  | openOrders =>
    refine ⟨?_, iff_of_true ?_ fun _ _ _ _ _ _ hp => (nomatch hp)⟩
    · rintro p d ⟨⟩ hd
      cases hd
    · rintro p d ⟨⟩ hd
      cases hd
  | leave =>
    refine ⟨fun _ _ hp => (nomatch hp), iff_of_true (fun _ _ hp => (nomatch hp)) ?_⟩
    rintro i p d x ⟨⟩ - - - hx
    cases hx
  | _ =>
    exact ⟨fun _ _ hp => (nomatch hp), iff_of_true (fun _ _ hp => (nomatch hp))
      fun _ _ _ _ _ _ hp => (nomatch hp)⟩

theorem tableView_step {st st' : AppState × VisibleRows} {e : TableEvent}
    (hst : AppState.OnScreen P st) (hrec : AppState.Recorded st) (h : tableView P st e = .ok st') :
    AppState.OnScreen P st' ∧ (AppState.Recorded st' ↔ e.KeepsQuantities st) := by
  cases e with
  | didEndDisplaying row =>
    obtain rfl := Except.ok.inj h
    have hsub : List.Sublist (st.2.filter fun v => v.1 ≠ row) st.2 := List.filter_sublist
    refine ⟨⟨hst.1, fun p d hp hd => ?_⟩, iff_of_true (fun p d hp hd v hv => ?_)
      (fun i _ _ _ he => (nomatch he))⟩
    · obtain ⟨hallocated, hlabels, hrows, hcells, hconfigured⟩ := hst.2 p d hp hd
      exact ⟨hallocated, hlabels, hrows.sublist (hsub.map _), hcells.sublist (hsub.map _),
        fun v hv => hconfigured v (hsub.subset hv)⟩
    · exact hrec p d hp hd v (hsub.subset hv)
  | input i =>
    simp only [tableView] at h
    split_ifs at h with hpossible
    · obtain ⟨hstep, hvisible⟩ := (Machine.withHistory_ok_iff _ _).mp h
      have hinv := step_preserves_legal_any P .assignment9
        (fun {w _ _} hs he => hs.apply he w) st.1 i st'.1 hst.1 trivial hstep
      obtain ⟨hscreen, hiff⟩ := step_onScreen P hst hrec hpossible hstep
      rw [← hvisible] at hscreen hiff
      exact ⟨⟨hinv, hscreen⟩, hiff⟩
    · obtain rfl := Except.ok.inj h
      refine ⟨hst, iff_of_true hrec fun i' p d x he hpossible' => ?_⟩
      obtain rfl := TableEvent.input.inj he
      exact absurd hpossible' hpossible

/-- For every database at launch and every run: the quantities in the cells on screen are those
that the order being edited records and the button saves, if and only if the events keep them. -/
theorem run_quantitiesSaved_iff (db : Database) {events : List TableEvent}
    {st : AppState × VisibleRows}
    (h : (tableView P).run (AppState.atMenu (generateDummyData db), []) events = .ok st) :
    (tableView P).Always QuantitiesSaved (AppState.atMenu (generateDummyData db), []) events ↔
      (tableView P).Meets (fun st e => e.KeepsQuantities st)
        (AppState.atMenu (generateDummyData db), []) events := by
  refine Machine.always_iff_meets (A := fun _ => True)
    (I := fun st => AppState.OnScreen P st ∧ AppState.Recorded st)
    (fun st hst => (quantitiesSaved_iff P hst.1).mpr hst.2) ?_ ?_ ⟨⟨?_, ?_⟩, ?_⟩
    (fun _ _ => trivial) h
  · rintro st e st' ⟨hst, hrec⟩ ⟨-, hkeeps⟩ hstep
    obtain ⟨hst', hiff⟩ := tableView_step P hst hrec hstep
    exact ⟨hst', hiff.mpr hkeeps⟩
  · rintro st e st' ⟨hst, hrec⟩ - hstep hsaved
    obtain ⟨hst', hiff⟩ := tableView_step P hst hrec hstep
    exact hiff.mp ((quantitiesSaved_iff P hst').mp hsaved)
  · exact AppState.inv_atMenu P .assignment9 (Store.generateDummyData_matches db).distinctIds
  · exact fun _ _ hp => (nomatch hp)
  · exact fun _ _ hp => (nomatch hp)

/-- The taps on two cells of their own, of which the first then leaves the screen. -/
theorem run_quantitiesSaved_iff_taps :
    (tableView Platform.ascii).Always QuantitiesSaved
        (AppState.atMenu (generateDummyData Sample.database), [])
        (Sample.taps.map .input ++ [.didEndDisplaying 0]) ↔
      (tableView Platform.ascii).Meets (fun st e => e.KeepsQuantities st)
        (AppState.atMenu (generateDummyData Sample.database), [])
        (Sample.taps.map .input ++ [.didEndDisplaying 0]) :=
  @run_quantitiesSaved_iff Platform.ascii Sample.database
    (Sample.taps.map .input ++ [.didEndDisplaying 0]) _ rfl

/-- Open the order with two lamps, scroll the lamp off the screen, and show the chair in its cell. -/
def Sample.scrolled : List TableEvent :=
  [.input ⟨.openOrders, true⟩, .input ⟨.orders (.didSelectRow 0 0), true⟩,
    .input ⟨.orders (.edit (.cellForRowAt none 0)), true⟩, .didEndDisplaying 0,
    .input ⟨.orders (.edit (.cellForRowAt (some 0) 1)), true⟩]

/-- The cell of the chair holds two, and the order has no chair. -/
theorem run_scrolled :
    ∃ st, (tableView Platform.ascii).run (AppState.atMenu (generateDummyData Sample.database), [])
        Sample.scrolled = .ok st ∧ st.2 = [(1, 0)] ∧
      (∃ p d, st.1.screen = .orders p ∧ p.details = some d ∧
        d.cells = [⟨some Sample.chair, some 1, 2, "2"⟩] ∧
        quantityOf (selected d).items Sample.chair.id = 0) ∧
      ¬ QuantitiesSaved st := by
  refine ⟨_, rfl, rfl, ⟨_, _, rfl, rfl, rfl, by decide⟩, fun h => ?_⟩
  have hquantity := (h _ _ rfl rfl (1, 0) (List.mem_singleton_self _) _ Sample.chair rfl rfl).2.1
  exact absurd hquantity (by decide)

end App
end Info6350.TableApp
