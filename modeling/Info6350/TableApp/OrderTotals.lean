import Info6350.TableApp.Subscripts
import Info6350.TableApp.Taps

/-! # Overflow of order totals

`createItem` and `updateItem` bound a value from below only, and nothing bounds a quantity.  The
total of an order is computed when the order is opened and at every tap; where values are positive
and quantities are not negative it fits in 64 bits exactly when the sum over the lines does.
-/

namespace Info6350.TableApp
open Library Swift Logistics LogisticOrderDetailsViewController

/-- A line of an accepted item with a quantity that taps can give it. -/
structure OrderItem.Priced (l : OrderItem) : Prop where
  quantity : 0 ≤ l.quantity
  value : 0 < l.item.value

/-- The items are such as `createItem` and `updateItem` accept, and the orders carry such items. -/
structure Store.Priced (s : Store) : Prop where
  items : ∀ item ∈ s.items, 0 < item.value
  orders : ∀ o ∈ s.logisticsOrder, ∀ l ∈ o.itemsCarried, l.Priced

theorem OrderItem.Priced.nonneg {l : OrderItem} (h : l.Priced) :
    0 ≤ OrderLine.quantity l * OrderLine.value l :=
  mul_nonneg h.quantity h.value.le

namespace OrderItems

theorem orderSum_nonneg {items : List OrderItem} (h : ∀ l ∈ items, l.Priced) :
    0 ≤ orderSum items := by
  refine List.sum_nonneg fun n hn => ?_
  obtain ⟨l, hl, rfl⟩ := List.mem_map.mp hn
  exact (h l hl).nonneg

theorem orderSum_append (items rest : List OrderItem) :
    orderSum (items ++ rest) = orderSum items + orderSum rest := by
  simp [orderSum]

theorem getOrderTotal_overflow_iff {items : List OrderItem} (h : ∀ l ∈ items, l.Priced) :
    getOrderTotal items = .error .overflow ↔ 2 ^ 63 ≤ orderSum items := by
  rw [getOrderTotal, addTotal_overflow_iff le_rfl (by norm_num) fun l hl => (h l hl).nonneg,
    zero_add]

theorem initItems_overflow_iff {items : List OrderItem} (h : ∀ l ∈ items, l.Priced) :
    initItems items = .error .overflow ↔ 2 ^ 63 ≤ orderSum items := by
  rw [← getOrderTotal_overflow_iff h, initItems, bind_error_iff]
  refine or_iff_left ?_
  rintro ⟨total, -, h⟩
  cases h

theorem setItems_overflow_iff {items : List OrderItem} (h : ∀ l ∈ items, l.Priced)
    (o : OrderItems) : o.setItems items = .error .overflow ↔ 2 ^ 63 ≤ orderSum items := by
  rw [← getOrderTotal_overflow_iff h, setItems, bind_error_iff]
  refine or_iff_left ?_
  rintro ⟨total, -, h⟩
  cases h

/-- The lines that a tap leaves. -/
def linesWith (item : Item) (quantity : ℤ) (o : OrderItems) : List OrderItem :=
  o.items.filter (fun l => l.item ≠ item) ++ [⟨item, quantity⟩]

theorem linesWith_priced {item : Item} {quantity : ℤ} {o : OrderItems}
    (h : ∀ l ∈ o.items, l.Priced) (hquantity : 0 ≤ quantity) (hvalue : 0 < item.value) :
    ∀ l ∈ o.linesWith item quantity, l.Priced := by
  intro l hl
  rcases List.mem_append.mp hl with hl | hl
  · exact h l (List.mem_of_mem_filter hl)
  · obtain rfl := List.mem_singleton.mp hl
    exact ⟨hquantity, hvalue⟩

/-- The observer runs twice, and the first sum is a part of the second. -/
theorem put_overflow_iff {item : Item} {quantity : ℤ} {o : OrderItems}
    (h : ∀ l ∈ o.items, l.Priced) (hquantity : 0 ≤ quantity) (hvalue : 0 < item.value) :
    o.put item quantity = .error .overflow ↔ 2 ^ 63 ≤ orderSum (o.linesWith item quantity) := by
  have hall := linesWith_priced h hquantity hvalue
  have hrest : ∀ l ∈ o.items.filter (fun l => l.item ≠ item), l.Priced :=
    fun l hl => hall l (List.mem_append_left _ hl)
  have hle : orderSum (o.items.filter fun l => l.item ≠ item) ≤
      orderSum (o.linesWith item quantity) := by
    rw [linesWith, orderSum_append]
    exact le_add_of_nonneg_right (orderSum_nonneg fun l hl => hall l (List.mem_append_right _ hl))
  rw [put, bind_error_iff, setItems_overflow_iff hrest]
  constructor
  · rintro (hlarge | ⟨m, hm, hput⟩)
    · exact hlarge.trans hle
    · rw [(setItems_ok hm).1] at hput
      exact (setItems_overflow_iff hall m).mp hput
  · intro hlarge
    cases hm : o.setItems (o.items.filter fun l => l.item ≠ item) with
    | error t =>
      obtain rfl := setItems_error hm
      exact .inl ((setItems_overflow_iff hrest o).mp hm)
    | ok m =>
      refine .inr ⟨m, rfl, ?_⟩
      rw [(setItems_ok hm).1]
      exact (setItems_overflow_iff hall m).mpr hlarge

end OrderItems

/-! ## The order screens -/

/-- The lines of the object that a tap writes to, with the line that it puts there. -/
def Tap.lines (t : Tap) (d : OrderDetails) : List OrderItem :=
  match t.before.tempSelectedOrderItems.bind fun r => d.objects[r]? with
  | some o => o.linesWith t.item t.quantity
  | none => []

def loadedLines (s : Store) (d : OrderDetails) : List OrderItem :=
  match d.vcMode, d.indexPath with
  | .modify, some row => (s.logisticsOrder[row]?.map LogisticsOrder.itemsCarried).getD []
  | _, _ => []

/-- The lines over which an event on the order screens makes the app sum. -/
def summedLines (s : Store) (p : Pane LogisticsOrder OrderDetails) (e : PaneEvent OrderEdit) :
    List OrderItem :=
  match p.details, e with
  | none, .didSelectRow row now =>
    if row < p.filteredResults.length then loadedLines s (instantiate .modify (some row) now s)
    else []
  | some d, .reappear => loadedLines s d
  | some d, .edit e => match tapOf d e with
    | some t => t.lines d
    | none => []
  | _, _ => []

def costLines (st : AppState) (i : Input) : List OrderItem :=
  match st.screen, i.event with
  | .orders p, .orders e => summedLines st.store p e
  | _, _ => []

def CostFits (st : AppState) (i : Input) : Prop := orderSum (costLines st i) < 2 ^ 63

instance (st : AppState) (i : Input) : Decidable (CostFits st i) :=
  inferInstanceAs (Decidable (_ < _))

/-- A cell shows no negative quantity, and if it has an item it refers to one of the objects. -/
structure CellPriced (d : OrderDetails) (c : OrderItemsTableViewCell) : Prop where
  quantity : 0 ≤ c.quantity
  value : ∀ item, c.item = some item → 0 < item.value
  reference : c.item ≠ none → ∃ r, c.tempSelectedOrderItems = some r ∧ r < d.objects.length

structure OrderPriced (d : OrderDetails) : Prop where
  objects : ∀ o ∈ d.objects, ∀ l ∈ o.items, l.Priced
  cells : ∀ c ∈ d.cells, CellPriced d c
  allocated : SelectedAllocated d

section Rows
variable {α β : Type} [Keyed α ℤ] {written : Bool} {l filtered : List α} {row : ℕ} {t : Table α}
  {f : List α × Table α → β}

theorem stops_updateRow {entered : α → α} : Stops Exit.IndexOnly
    (trapping (updateRow written l row entered t) >>= fun rest => pure (f rest)) :=
  (stops_trapping fun _ ht => (updateRow_error_iff.mp ht).1).bind fun _ => stops_pure _

theorem stops_deleteRow (hrow : row < filtered.length) : Stops Exit.IndexOnly
    (trapping (deleteRow written l filtered row t) >>= fun rest => pure (f rest)) :=
  (stops_trapping fun _ ht => ((deleteRow_error_iff hrow).mp ht).1).bind fun _ => stops_pure _

end Rows

section Pane
variable {s : Store} {d d' : OrderDetails} {e : OrderEdit} {t : Tap}

theorem OrderPriced.selected (h : OrderPriced d) : ∀ l ∈ (selected d).items, l.Priced := by
  obtain ⟨o, ho⟩ : ∃ o, d.objects[d.tempSelectedOrderItems]? = some o :=
    ⟨_, List.getElem?_eq_getElem h.allocated⟩
  unfold LogisticOrderDetailsViewController.selected
  rw [ho]
  exact h.objects o (List.mem_of_getElem? ho)

theorem OrderPriced.tap_quantity (h : OrderPriced d) (ht : tapOf d e = some t) :
    0 ≤ t.quantity := by
  have hcell := (h.cells _ (List.mem_of_getElem? (tapOf_cell ht).1)).quantity
  cases e with
  | btnDecreaseTap cell =>
    obtain ⟨c, hc, ht⟩ := Option.bind_eq_some_iff.mp ht
    obtain ⟨item, hitem, ht⟩ := Option.bind_eq_some_iff.mp ht
    split_ifs at ht with hpos
    obtain rfl := Option.some.inj ht
    change 0 ≤ c.quantity + -1
    omega
  | btnIncreaseTap cell =>
    obtain ⟨c, hc, ht⟩ := Option.bind_eq_some_iff.mp ht
    obtain ⟨item, hitem, ht⟩ := Option.bind_eq_some_iff.mp ht
    obtain rfl := Option.some.inj ht
    have hcell : 0 ≤ c.quantity := hcell
    change 0 ≤ c.quantity + 1
    omega
  | _ => cases ht

theorem OrderPriced.tap (h : OrderPriced d) (ht : tapOf d e = some t) : ∃ r o,
    t.before.tempSelectedOrderItems = some r ∧ d.objects[r]? = some o ∧ 0 < t.item.value ∧
      t.lines d = o.linesWith t.item t.quantity ∧
      putLine t.cell t.before t.item t.quantity d =
        (o.put t.item t.quantity).map fun o' => { d with
          cells := d.cells.set t.cell
            { t.before with quantity := t.quantity, quantityLabel := toString t.quantity }
          objects := d.objects.set r o' } := by
  obtain ⟨hcell, hitem⟩ := tapOf_cell ht
  have hpriced := h.cells _ (List.mem_of_getElem? hcell)
  obtain ⟨r, hr, hlt⟩ := hpriced.reference (by simp [hitem])
  obtain ⟨o, ho⟩ : ∃ o, d.objects[r]? = some o := ⟨_, List.getElem?_eq_getElem hlt⟩
  refine ⟨r, o, hr, ho, hpriced.value _ hitem, ?_, ?_⟩
  · simp only [Tap.lines, hr, Option.bind_some, ho]
  · simp only [putLine, hr, Option.bind_some, ho, Option.map_some]
    cases o.put t.item t.quantity <;> rfl

/-- A tap overflows when the sum over the lines that it leaves is too large. -/
theorem OrderPriced.tap_overflow_iff (h : OrderPriced d) (ht : tapOf d e = some t) :
    edit s e d = .error .overflow ↔ 2 ^ 63 ≤ orderSum (t.lines d) := by
  obtain ⟨r, o, -, ho, hvalue, hlines, hput⟩ := h.tap ht
  have hquantity := h.tap_quantity ht
  have hpriced := h.objects o (List.mem_of_getElem? ho)
  rw [edit_tap ht, hlines, bind_error_iff, checked_overflow_iff]
  constructor
  · rintro (hrange | ⟨quantity, hchecked, herror⟩)
    · -- the line alone counts for more than its quantity
      have hlarge : 2 ^ 63 ≤ t.quantity := by
        by_contra hlt
        exact hrange ⟨by omega, not_le.mp hlt⟩
      have hrest : 0 ≤ orderSum (o.items.filter fun l => l.item ≠ t.item) :=
        OrderItems.orderSum_nonneg fun l hl => hpriced l (List.mem_of_mem_filter hl)
      have hline : orderSum [(⟨t.item, t.quantity⟩ : OrderItem)] = t.quantity * t.item.value := by
        rw [orderSum, List.map_singleton, List.sum_singleton]
        rfl
      rw [OrderItems.linesWith, OrderItems.orderSum_append, hline]
      nlinarith
    · obtain ⟨-, rfl⟩ := checked_ok_iff.mp hchecked
      rw [hput, map_error_iff] at herror
      exact (OrderItems.put_overflow_iff hpriced hquantity hvalue).mp herror
  · intro hlarge
    by_cases hrange : InRange t.quantity
    · refine .inr ⟨_, checked_ok_iff.mpr ⟨hrange, rfl⟩, ?_⟩
      rw [hput, map_error_iff]
      exact (OrderItems.put_overflow_iff hpriced hquantity hvalue).mpr hlarge
    · exact .inl hrange

/-- An edit that is no tap does no arithmetic. -/
theorem edit_ne_overflow (ht : tapOf d e = none) : edit s e d ≠ .error .overflow := by
  intro h
  cases e with
  | titleForRow row =>
    change (if _ then _ else _) = _ at h
    split_ifs at h
    rcases bind_error_iff.mp (map_error_iff.mp h) with h | ⟨location, -, h⟩
    · cases subscript_error h
    · cases h
  | cellForRowAt reused row =>
    change cellForRowAt s reused row d = _ at h
    unfold cellForRowAt at h
    split_ifs at h
    rcases bind_error_iff.mp h with h | ⟨item, -, h⟩
    · cases subscript_error h
    · cases reused <;> cases h
  | btnDecreaseTap cell =>
    change btnDecreaseTap cell d = _ at h
    rw [btnDecreaseTap_of_not_tap ht] at h
    cases h
  | btnIncreaseTap cell =>
    change btnIncreaseTap cell d = _ at h
    rw [btnIncreaseTap_of_not_tap ht] at h
    cases h
  | _ => cases h

theorem CellPriced.mono {c : OrderItemsTableViewCell} (h : CellPriced d c)
    (hlength : d.objects.length ≤ d'.objects.length) : CellPriced d' c := by
  refine ⟨h.quantity, h.value, fun hitem => ?_⟩
  obtain ⟨r, hr, hlt⟩ := h.reference hitem
  exact ⟨r, hr, hlt.trans_le hlength⟩

theorem OrderPriced.instantiate (vcMode : ViewControllerMode) (indexPath : Option ℕ) (now : Date) :
    OrderPriced (instantiate vcMode indexPath now s) := by
  refine ⟨fun o ho l hl => ?_, fun c hc => absurd hc List.not_mem_nil, Nat.one_pos⟩
  obtain rfl := List.mem_singleton.mp ho
  exact absurd hl List.not_mem_nil

theorem OrderPriced.appear (h : OrderPriced d) (hs : s.Priced)
    (happear : viewWillAppear s d = .ok d') : OrderPriced d' := by
  unfold viewWillAppear at happear
  split at happear
  · obtain ⟨order, horder, happear⟩ := bind_ok_iff.mp happear
    obtain ⟨object, hobject, happear⟩ := bind_ok_iff.mp happear
    obtain rfl := pure_ok_iff.mp happear
    refine ⟨fun o ho => ?_, fun c hc => (h.cells c hc).mono (by simp), by simp [SelectedAllocated]⟩
    rcases List.mem_append.mp ho with ho | ho
    · exact h.objects o ho
    · obtain rfl := List.mem_singleton.mp ho
      rw [(OrderItems.initItems_ok hobject).1]
      exact hs.orders order (subscript_mem horder)
  · exact Except.ok.inj happear ▸ h

theorem OrderPriced.configureCell (h : OrderPriced d) {item : Item} (hvalue : 0 < item.value)
    {c : OrderItemsTableViewCell} (hc : 0 ≤ c.quantity) : CellPriced d (configureCell item d c) := by
  have hreference : ∀ c : OrderItemsTableViewCell,
      c.tempSelectedOrderItems = some d.tempSelectedOrderItems →
      ∃ r, c.tempSelectedOrderItems = some r ∧ r < d.objects.length :=
    fun c hc => ⟨_, hc, h.allocated⟩
  have hitem : ∀ i, some item = some i → 0 < i.value := fun i hi => Option.some.inj hi ▸ hvalue
  unfold LogisticOrderDetailsViewController.configureCell
  dsimp only
  cases hline : (LogisticOrderDetailsViewController.selected d).items.find?
      (fun l => l.item.id = item.id) with
  | none => exact ⟨hc, hitem, fun _ => hreference _ rfl⟩
  | some line =>
    exact ⟨(h.selected line (List.mem_of_find?_eq_some hline)).quantity, hitem,
      fun _ => hreference _ rfl⟩

theorem OrderPriced.edit (h : OrderPriced d) (hs : s.Priced) (he : edit s e d = .ok d') :
    OrderPriced d' := by
  cases ht : tapOf d e with
  | some t =>
    obtain ⟨hcell, hitem⟩ := tapOf_cell ht
    have hbefore := h.cells _ (List.mem_of_getElem? hcell)
    have hquantity := h.tap_quantity ht
    obtain ⟨r, o, -, ho, hvalue, -, hput⟩ := h.tap ht
    obtain ⟨o', ho', rfl⟩ := map_ok_iff.mp (hput.symm.trans (edit_tap_ok ht he))
    refine ⟨fun x hx => ?_, fun c hc => ?_, ?_⟩
    · rcases List.mem_or_eq_of_mem_set hx with hx | rfl
      · exact h.objects x hx
      · rw [(OrderItems.put_ok ho').1]
        exact OrderItems.linesWith_priced (h.objects o (List.mem_of_getElem? ho)) hquantity hvalue
    · rcases List.mem_or_eq_of_mem_set hc with hc | rfl
      · exact (h.cells c hc).mono (by simp)
      · exact CellPriced.mono (d := d) ⟨hquantity, hbefore.value, hbefore.reference⟩ (by simp)
    · simpa [SelectedAllocated] using h.allocated
  | none =>
    obtain ⟨hobjects, hselected, hcells⟩ := selected_of_not_tap ht he
    have hkeep : (∀ c ∈ d'.cells, CellPriced d c) → OrderPriced d' := by
      refine fun hc => ⟨hobjects ▸ h.objects, fun c hmem => (hc c hmem).mono (by rw [hobjects]), ?_⟩
      unfold SelectedAllocated
      rw [hobjects, hselected]
      exact h.allocated
    rcases hcells with ⟨reused, row, rfl⟩ | hcells
    · refine hkeep fun c hc => ?_
      change cellForRowAt s reused row d = _ at he
      unfold cellForRowAt at he
      split_ifs at he
      · obtain ⟨item, hitem, he⟩ := bind_ok_iff.mp he
        have hvalue := hs.items item (subscript_mem hitem)
        cases reused with
        | none =>
          obtain rfl := pure_ok_iff.mp he
          rcases List.mem_append.mp hc with hc | hc
          · exact h.cells c hc
          · obtain rfl := List.mem_singleton.mp hc
            exact h.configureCell hvalue le_rfl
        | some i =>
          obtain rfl := pure_ok_iff.mp he
          obtain ⟨j, hj, rfl⟩ := List.getElem_of_mem hc
          rw [List.getElem_modify]
          split_ifs
          · exact h.configureCell hvalue (h.cells _ (List.getElem_mem _)).quantity
          · exact h.cells _ (List.getElem_mem _)
      · exact h.cells c (Except.ok.inj he ▸ hc)
    · exact hkeep fun c hc => h.cells c (hcells ▸ hc)

/-- When the screen appears, only the sum over the order that it loads can overflow. -/
theorem appear_overflow_iff (hs : s.Priced) :
    viewWillAppear s d = .error .overflow ↔ 2 ^ 63 ≤ orderSum (loadedLines s d) := by
  have hnone : ∀ x : Except Trap OrderDetails, x ≠ .error .overflow →
      (x = .error .overflow ↔ 2 ^ 63 ≤ orderSum ([] : List OrderItem)) :=
    fun x hx => iff_of_false hx (by simp [orderSum])
  unfold viewWillAppear loadedLines
  cases hmode : d.vcMode with
  | create => exact hnone _ (by simp)
  | modify =>
    cases hrow : d.indexPath with
    | none => exact hnone _ (by simp)
    | some row =>
      dsimp only
      cases horder : s.logisticsOrder[row]? with
      | none =>
        have herror : subscript s.logisticsOrder row = .error .indexOutOfRange :=
          subscript_natCast_error_iff.mpr ⟨rfl, not_lt.mpr (List.getElem?_eq_none_iff.mp horder)⟩
        rw [herror]
        exact hnone _ fun h => by cases h
      | some order =>
        have hcarried := hs.orders order (List.mem_of_getElem? horder)
        rw [(subscript_natCast _ _).mpr horder]
        change (OrderItems.initItems order.itemsCarried >>= _) = _ ↔ _
        refine bind_error_iff.trans (Iff.trans ?_ (OrderItems.initItems_overflow_iff hcarried))
        refine or_iff_left ?_
        rintro ⟨object, -, h⟩
        cases h

theorem edit_overflow_iff (h : OrderPriced d) : edit s e d = .error .overflow ↔
    2 ^ 63 ≤ orderSum (match tapOf d e with
      | some t => t.lines d
      | none => ([] : List OrderItem)) := by
  cases ht : tapOf d e with
  | some t => exact h.tap_overflow_iff ht
  | none => exact iff_of_false (edit_ne_overflow ht) (by simp [orderSum])

theorem createButtonTapped_indexOnly (edition : Edition) (written : Bool) (d : OrderDetails)
    (s : Store) : Stops Exit.IndexOnly (createButtonTapped edition written d s) := by
  have hsubscript : ∀ row, Stops Exit.IndexOnly (trapping (subscript s.locations row)) :=
    fun row => stops_trapping fun t ht => subscript_error ht
  unfold createButtonTapped
  split_ifs
  · exact (stops_intOf _ _).bind fun _ => (stops_refuseIf _ _).bind fun _ =>
      (stops_refuseIf _ _).bind fun _ => (hsubscript _).bind fun _ => (hsubscript _).bind fun _ =>
      (stops_enteredOrder d).bind fun _ => stops_pure _
  · unfold updateOrder
    cases d.indexPath with
    | none => exact stops_silent trivial
    | some row => exact (stops_enteredOrder d).bind fun _ => stops_updateRow

end Pane

/-! ## The screens -/

section Pane
variable {α δ ω : Type} {C : Controllers α δ ω}

/-- Which handler overflows when an event on a pane does. -/
def Pane.Overflows (C : Controllers α δ ω) (s : Store) (p : Pane α δ) (e : PaneEvent ω) : Prop :=
  match p.details, e with
  | none, .addTapped now => C.viewWillAppear s (C.instantiate .create none now s) = .error .overflow
  | none, .didSelectRow row now => row < p.filteredResults.length ∧
      C.viewWillAppear s (C.instantiate .modify (some row) now s) = .error .overflow
  | some d, .edit e => C.edit s e d = .error .overflow
  | some d, .reappear => C.viewWillAppear s d = .error .overflow
  | _, _ => False

theorem paneStep_overflow_iff
    (htap : ∀ written d s, Stops Exit.IndexOnly (C.createButtonTap written d s))
    (hdelete : ∀ written filtered row s, row < filtered.length →
      Stops Exit.IndexOnly (C.commitDelete written filtered row s))
    {written : Bool} {s : Store} {p : Pane α δ} {e : PaneEvent ω} :
    paneStep C written s p e = .error .overflow ↔ p.Overflows C s e := by
  have hok : ∀ {r : PaneResult α δ}, (Except.ok r : Except Trap _) = .error .overflow ↔ False :=
    iff_of_false (fun h => by cases h) not_false
  obtain ⟨filtered, isActive, details⟩ := p
  cases details with
  | none =>
    cases e with
    | addTapped now => exact Pane.push_error_iff
    | didSelectRow row now =>
      simp only [paneStep, Pane.Overflows]
      split_ifs with hrow
      · simpa [hrow] using Pane.push_error_iff
      · simp [hrow]
    | swipeDelete row =>
      simp only [paneStep]
      split_ifs with hrow
      · exact iff_of_false (settle_ne_overflow (hdelete _ _ _ _ hrow.2)) not_false
      · exact iff_of_false (fun h => by cases h) not_false
    | _ => exact hok
  | some d =>
    cases e with
    | edit x =>
      change (C.edit s x d >>= _) = _ ↔ C.edit s x d = _
      rw [bind_error_iff]
      refine or_iff_left ?_
      rintro ⟨_, _, h⟩
      cases h
    | createButtonTap => exact iff_of_false (settle_ne_overflow (htap _ _ _)) not_false
    | reappear => exact Pane.push_error_iff
    | _ => exact hok

theorem paneStep_ne_overflow (happear : ∀ s d, C.viewWillAppear s d ≠ .error .overflow)
    (hedit : ∀ s e d, C.edit s e d ≠ .error .overflow)
    (htap : ∀ written d s, Stops Exit.IndexOnly (C.createButtonTap written d s))
    (hdelete : ∀ written filtered row s, row < filtered.length →
      Stops Exit.IndexOnly (C.commitDelete written filtered row s))
    {written : Bool} {s : Store} {p : Pane α δ} {e : PaneEvent ω} :
    paneStep C written s p e ≠ .error .overflow := by
  intro h
  rw [paneStep_overflow_iff htap hdelete] at h
  unfold Pane.Overflows at h
  split at h
  · exact happear _ _ h
  · exact happear _ _ h.2
  · exact hedit _ _ _ h
  · exact happear _ _ h
  · exact h

variable (P : Platform) {written : Bool} {s : Store}

theorem itemPane_ne_overflow {p : Pane Item ItemDetails} {e : PaneEvent ItemEdit} :
    paneStep (itemControllers P) written s p e ≠ .error .overflow := by
  have happear : ∀ s d, (itemControllers P).viewWillAppear s d ≠ .error .overflow := by
    intro s d h
    change ItemDetailsViewController.viewWillAppear P s d = _ at h
    unfold ItemDetailsViewController.viewWillAppear at h
    split at h
    · rcases bind_error_iff.mp h with h | ⟨item, -, h⟩
      · cases subscript_error h
      · cases h
    · cases h
  have htap : ∀ written d s,
      Stops Exit.IndexOnly (ItemDetailsViewController.createButtonTap written d s) := by
    intro written d s
    unfold ItemDetailsViewController.createButtonTap
    split_ifs
    · unfold ItemDetailsViewController.updateItem
      cases d.indexPath with
      | none => exact stops_silent trivial
      | some row =>
        exact (ItemDetailsViewController.stops_enteredItem _ d).bind fun _ => stops_updateRow
    · exact stops_createItem written d s
  refine paneStep_ne_overflow happear (fun s e d h => by cases h) htap ?_
  intro written filtered row s hrow
  exact (stops_trapping fun t ht => subscript_error ht).bind fun _ =>
    (stops_alertIf trivial).bind fun _ => stops_deleteRow hrow

theorem locationPane_ne_overflow {p : Pane Location LocationDetails}
    {e : PaneEvent LocationEdit} :
    paneStep (locationControllers P) written s p e ≠ .error .overflow := by
  have happear : ∀ s d, (locationControllers P).viewWillAppear s d ≠ .error .overflow := by
    intro s d h
    change LocationDetailsViewController.viewWillAppear s d = _ at h
    unfold LocationDetailsViewController.viewWillAppear at h
    split at h
    · rcases bind_error_iff.mp h with h | ⟨item, -, h⟩
      · cases subscript_error h
      · cases h
    · cases h
  have htap : ∀ written d s,
      Stops Exit.IndexOnly (LocationDetailsViewController.createButtonTapped written d s) := by
    intro written d s
    unfold LocationDetailsViewController.createButtonTapped
    split_ifs
    · unfold LocationDetailsViewController.updateLocation
      cases d.indexPath with
      | none => exact stops_silent trivial
      | some row =>
        exact (LocationDetailsViewController.stops_enteredLocation d).bind fun _ =>
          stops_updateRow
    · exact stops_createLocation written d s
  refine paneStep_ne_overflow happear (fun s e d h => by cases h) htap ?_
  intro written filtered row s hrow
  exact (stops_trapping fun t ht => subscript_error ht).bind fun _ =>
    (stops_alertIf trivial).bind fun _ => stops_deleteRow hrow

theorem orderPane_overflow_iff {edition : Edition} {p : Pane LogisticsOrder OrderDetails}
    {e : PaneEvent OrderEdit} (hs : s.Priced) (hp : ∀ d, p.details = some d → OrderPriced d) :
    paneStep (orderControllers P edition) written s p e = .error .overflow ↔
      2 ^ 63 ≤ orderSum (summedLines s p e) := by
  have hnothing : ∀ q : Prop, ¬ q → (q ↔ 2 ^ 63 ≤ orderSum ([] : List OrderItem)) :=
    fun q hq => iff_of_false hq (by simp [orderSum])
  refine (paneStep_overflow_iff (createButtonTapped_indexOnly edition)
    fun written filtered row s hrow => stops_deleteRow hrow).trans ?_
  obtain ⟨filtered, isActive, details⟩ := p
  cases details with
  | none =>
    cases e with
    | addTapped now => exact appear_overflow_iff (d := instantiate .create none now s) hs
    | didSelectRow row now =>
      simp only [Pane.Overflows, summedLines]
      split_ifs with hrow
      · exact (and_iff_right hrow).trans
          (appear_overflow_iff (d := instantiate .modify (some row) now s) hs)
      · exact hnothing _ fun h => hrow h.1
    | _ => exact hnothing _ not_false
  | some d =>
    cases e with
    | edit x => exact edit_overflow_iff (hp d rfl)
    | reappear => exact appear_overflow_iff hs
    | _ => exact hnothing _ not_false

end Pane

section App
variable (P : Platform)

/-- Stored and edited lines are priced. -/
def AppState.Priced (st : AppState) : Prop :=
  st.Inv P .assignment9 Store.Priced fun _ d => OrderPriced d

theorem step_overflow_iff {st : AppState} (hst : st.Priced P) (i : Input) :
    step P .assignment9 st i ≠ .error .overflow ↔ CostFits st i := by
  have hnothing : orderSum ([] : List OrderItem) < 2 ^ 63 := by decide
  have hok : ∀ {st' : AppState}, (Except.ok st' : Except Trap _) ≠ .error .overflow ↔
      orderSum ([] : List OrderItem) < 2 ^ 63 := iff_of_true (fun h => by cases h) hnothing
  obtain ⟨s, screen, alerts⟩ := st
  obtain ⟨e, written⟩ := i
  cases screen with
  | main => cases e <;> exact hok
  | items p =>
    cases e with
    | items e =>
      exact iff_of_true (fun h => itemPane_ne_overflow P (map_error_iff.mp h)) hnothing
    | leave => obtain ⟨filtered, isActive, _ | d⟩ := p <;> exact hok
    | _ => exact hok
  | locations p =>
    cases e with
    | locations e =>
      exact iff_of_true (fun h => locationPane_ne_overflow P (map_error_iff.mp h)) hnothing
    | leave => obtain ⟨filtered, isActive, _ | d⟩ := p <;> exact hok
    | _ => exact hok
  | orders p =>
    cases e with
    | orders e =>
      have hp : ∀ d, p.details = some d → OrderPriced d :=
        fun d hd => Pane.Coherent.of_details hst.2 hd
      have hpane : paneStep (orderControllers P .assignment9) written s p e = .error .overflow ↔ _ :=
        orderPane_overflow_iff P hst.1 hp
      exact (not_congr (map_error_iff.trans hpane)).trans not_le
    | leave => obtain ⟨filtered, isActive, _ | d⟩ := p <;> exact hok
    | _ => exact hok

theorem itemsCarried_of_byButton {s : Store} {d : OrderDetails} {e : Edit LogisticsOrder}
    {o : LogisticsOrder} (he : orderChanges.byButton s d e)
    (h : e = .create o ∨ ∃ row, e = .update row o) : o.itemsCarried = (selected d).items := by
  cases he with
  | create order _ _ hentered =>
    obtain ⟨-, -, -, old, henters⟩ := hentered
    obtain rfl : order = o := by simpa using h
    exact henters.itemsCarried
  | update row old new _ _ _ henters =>
    obtain ⟨-, rfl⟩ : row = row ∧ new = o := by simpa using h
    exact henters.itemsCarried

theorem step_preserves_priced :
    (step P .assignment9).Preserves Machine.AnyStep (AppState.Priced P) := by
  have KI : (itemControllers P).Keeps (fun _ => True) AnyEdit Store.Priced AnyDetails := by
    refine (itemControllers_carryOut P).keeps fun {w s e} _ hs he => ⟨fun item hitem => ?_, hs.orders⟩
    rcases Edit.mem_onList hitem with hitem | hnew
    · exact hs.items item hitem
    · cases he with
      | swipe row hrow => simp at hnew
      | button d e he =>
        cases he with
        | create x _ _ hentered =>
          obtain ⟨-, old, henters⟩ := hentered
          obtain rfl : x = item := by simpa using hnew
          exact henters.value_pos
        | update row old new _ _ _ henters =>
          obtain ⟨-, rfl⟩ : row = row ∧ new = item := by simpa using hnew
          exact henters.value_pos
  have KL : (locationControllers P).Keeps (fun _ => True) AnyEdit Store.Priced AnyDetails :=
    locationControllers_keeps P fun _ hs _ => ⟨hs.items, hs.orders⟩
  have KO : (orderControllers P .assignment9).Keeps (fun _ => True) AnyEdit Store.Priced
      fun _ d => OrderPriced d := by
    constructor
    case load => exact fun hs h => (OrderPriced.instantiate _ _ _).appear hs h
    case appear => exact fun hs hd h => hd.appear hs h
    case edit => exact fun hs hd _ h => hd.edit hs h
    case tap =>
      intro w s s' d a _ hs hd h
      obtain ⟨e, he, rfl⟩ := (orderControllers_carryOut P .assignment9).tap_ok h
      refine ⟨⟨hs.items, fun o ho => ?_⟩, hd⟩
      rcases Edit.mem_onList ho with ho | hnew
      · exact hs.orders o ho
      · exact itemsCarried_of_byButton he hnew ▸ hd.selected
    case delete =>
      intro w s s' row filtered _ hs h
      obtain ⟨-, rfl, hfiltered⟩ := (orderControllers_carryOut P .assignment9).delete_ok h
      refine ⟨⟨hs.items, fun o ho => ?_⟩, hfiltered⟩
      exact hs.orders o (List.mem_of_mem_eraseIdx ho)
  have hkeep := step_preserves KI KL KO
  exact fun st i st' hst _ h => hkeep st i st' hst ⟨trivial, fun _ _ _ _ _ _ => trivial⟩ h

/-- No step of a run from a priced database overflows if and only if all the sums fit. -/
theorem meets_costFits_iff {db : Database} (hdb : Store.Priced (generateDummyData db))
    (inputs : List Input) :
    (step P .assignment9).Meets (fun st i => step P .assignment9 st i ≠ .error .overflow)
        (AppState.atMenu (generateDummyData db)) inputs ↔
      (step P .assignment9).Meets CostFits (AppState.atMenu (generateDummyData db)) inputs :=
  Machine.meets_congr_of_meets
    (fun st i st' hst _ h => step_preserves_priced P st i st' hst trivial h)
    (fun _ i hst _ => step_overflow_iff P hst i)
    (AppState.inv_atMenu P .assignment9 hdb) (Machine.meets_anyStep _ inputs)

end App

namespace Sample

def crown : Item := ⟨none, 3, "Crown", "", 1, 2 ^ 62⟩

def treasury : Database := { emptyDatabase with item := ⟨[crown], by decide⟩ }

def twoCrowns : List Input :=
  [⟨.openOrders, true⟩, ⟨.orders (.addTapped 0), true⟩,
    ⟨.orders (.edit (.cellForRowAt none 0)), true⟩, ⟨.orders (.edit (.btnIncreaseTap 0)), true⟩,
    ⟨.orders (.edit (.btnIncreaseTap 0)), true⟩]

end Sample
end Info6350.TableApp
