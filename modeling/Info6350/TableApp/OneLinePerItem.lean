import Info6350.TableApp.OrderEditing

/-! # One line per item

A cell looks up its quantity by the id of its item, but a tap removes the old line by
equality of the whole item.  The two agree as long as the line of the order holds the
item as it is stored now, that is, unless the item was updated after the order.
-/

namespace Info6350.TableApp
open Library Swift Logistics LogisticOrderDetailsViewController

/-- No two lines are of items with the same id. -/
def OneLinePerItem (lines : List OrderItem) : Prop := (lines.map fun l => l.item.id).Nodup

instance (lines : List OrderItem) : Decidable (OneLinePerItem lines) :=
  inferInstanceAs (Decidable (List.Nodup _))

/-- The lines with the id of an item hold this very item. -/
def Agrees (item : Item) (lines : List OrderItem) : Prop :=
  ∀ l ∈ lines, l.item.id = item.id → l.item = item

/-- A line put into an object leaves one line per item exactly when the lines agree with it. -/
theorem put_oneLinePerItem_iff {item : Item} {quantity : ℤ} {o o' : OrderItems}
    (h : OneLinePerItem o.items) (hput : o.put item quantity = .ok o') :
    OneLinePerItem o'.items ↔ Agrees item o.items := by
  have hrest : OneLinePerItem (o.items.filter fun l => l.item ≠ item) :=
    h.sublist (List.filter_sublist.map _)
  rw [(OrderItems.put_ok hput).1]
  unfold OneLinePerItem at hrest ⊢
  rw [List.map_append, List.nodup_append_comm]
  simp only [List.map_cons, List.map_nil, List.singleton_append, List.nodup_cons, hrest, and_true]
  simp only [List.mem_map, List.mem_filter, decide_eq_true_eq, not_exists, not_and, and_imp]
  constructor
  · intro hnot l hl hid
    by_contra hne
    exact hnot l hl hne hid
  · intro hagree l hl hne hid
    exact hne (hagree l hl hid)

namespace LogisticOrderDetailsViewController

/-- A tap that writes, on a cell that refers to the selected object, finds in it only lines
that agree with the item of the cell. -/
def TapAgrees (e : OrderEdit) (d : OrderDetails) : Prop :=
  ∀ cell c item, IsTap e cell c → d.cells[cell]? = some c → c.item = some item →
    c.tempSelectedOrderItems = some d.tempSelectedOrderItems → Agrees item (selected d).items

theorem putLine_selected {cell : ℕ} {c : OrderItemsTableViewCell} {item : Item} {quantity : ℤ}
    {d d' : OrderDetails} (href : c.tempSelectedOrderItems = some d.tempSelectedOrderItems)
    (h : putLine cell c item quantity d = .ok d') :
    selected d = OrderItems.init ∨ (selected d).put item quantity = .ok (selected d') := by
  unfold putLine at h
  cases ho : d.objects[d.tempSelectedOrderItems]? with
  | none => exact .inl (by simp [selected, ho])
  | some o =>
    simp only [href, ho, Option.bind_some, Option.map_some, bind_ok_iff, pure_ok_iff] at h
    obtain ⟨o₁, hput, rfl⟩ := h
    have hlt : d.tempSelectedOrderItems < d.objects.length :=
      (List.getElem?_eq_some_iff.mp ho).choose
    have hsel : selected d = o := by simp [selected, ho]
    rw [hsel, hput]
    exact .inr (by simp [selected, hlt])

theorem tap_selected {s : Store} {e : OrderEdit} {d d' : OrderDetails} {cell : ℕ}
    {c : OrderItemsTableViewCell} {item : Item} (he : IsTap e cell c)
    (hc : d.cells[cell]? = some c) (hitem : c.item = some item)
    (href : c.tempSelectedOrderItems = some d.tempSelectedOrderItems)
    (h : edit s e d = .ok d') :
    selected d = OrderItems.init ∨
      ∃ quantity, (selected d).put item quantity = .ok (selected d') := by
  have hput : ∃ quantity, putLine cell c item quantity d = .ok d' := by
    rcases he with rfl | ⟨rfl, hpos⟩
    · simp only [edit, btnIncreaseTap, hc, hitem] at h
      obtain ⟨quantity, -, h⟩ := bind_ok_iff.mp h
      exact ⟨quantity, h⟩
    · simp only [edit, btnDecreaseTap, hc, hitem, if_pos hpos] at h
      obtain ⟨quantity, -, h⟩ := bind_ok_iff.mp h
      exact ⟨quantity, h⟩
  obtain ⟨quantity, hput⟩ := hput
  exact (putLine_selected href hput).imp id fun h => ⟨quantity, h⟩

theorem tapAgrees_of_edit {s : Store} {e : OrderEdit} {d d' : OrderDetails}
    (hd : OneLinePerItem (selected d).items) (h : edit s e d = .ok d')
    (hd' : OneLinePerItem (selected d').items) : TapAgrees e d := by
  intro cell c item he hc hitem href
  rcases tap_selected he hc hitem href h with hinit | ⟨quantity, hput⟩
  · rw [hinit]
    exact fun l hl => absurd hl List.not_mem_nil
  · exact (put_oneLinePerItem_iff hd hput).mp hd'

end LogisticOrderDetailsViewController

def Store.OneLinePerItem (s : Store) : Prop :=
  ∀ o ∈ s.logisticsOrder, TableApp.OneLinePerItem o.itemsCarried

/-- Every stored order has one line per item, and so has the order being edited. -/
def AppState.OneLinePerItem (st : AppState) : Prop :=
  st.store.OneLinePerItem ∧ ∀ p d, st.screen = .orders p → p.details = some d →
    TableApp.OneLinePerItem (selected d).items

/-- If the input is a tap of a cell, the tap finds only lines that agree with its item. -/
def Input.TapAgrees (st : AppState) (i : Input) : Prop :=
  Input.Meets (fun _ => True) (fun _ => LogisticOrderDetailsViewController.TapAgrees) st i

theorem Store.OneLinePerItem.apply_orders {s : Store} (h : s.OneLinePerItem)
    (e : Edit LogisticsOrder)
    (hnew : ∀ o, (e = .create o ∨ ∃ row, e = .update row o) →
      TableApp.OneLinePerItem o.itemsCarried) (written : Bool) :
    Store.OneLinePerItem ((StoreEdit.orders e).apply written s) := by
  intro o ho
  rcases Edit.mem_onList ho with ho | ho
  · exact h o ho
  · exact hnew o ho

theorem orderRules_oneLinePerItem :
    OrderRules (fun _ => True) (fun _ => TapAgrees) Store.OneLinePerItem
      (fun _ o => OneLinePerItem o.items) (fun _ _ => True) where
  item _ _ := trivial
  empty _ := List.nodup_nil
  load {s order o} hs horder ho := by
    rw [(OrderItems.initItems_ok ho).1]
    exact hs order horder
  put {s e d cell c item o quantity} _ hagree he hc hitem href _ hd hput :=
    (put_oneLinePerItem_iff hd hput).mpr (hagree cell c item he hc hitem href)
  create {w s d old order} _ hs hd _ henters _ _ := by
    refine hs.apply_orders _ (fun o ho => ?_) w
    obtain rfl : order = o := by simpa using ho
    exact henters.itemsCarried ▸ hd
  update {w s d row old new} _ hs hd _ henters := by
    refine hs.apply_orders _ (fun o ho => ?_) w
    obtain ⟨-, rfl⟩ : row = row ∧ new = o := by simpa using ho
    exact henters.itemsCarried ▸ hd
  delete {w s row} _ hs _ := hs.apply_orders _ (fun o ho => by simp at ho) w

theorem step_preserves_oneLinePerItem (P : Platform) (edition : Edition) :
    (step P edition).Preserves Input.TapAgrees
      (AppState.Inv P edition Store.OneLinePerItem
        (SelectedAndCells (fun _ o => OneLinePerItem o.items) (fun _ _ => True))) := by
  refine step_preserves (itemControllers_keeps P ?_) (locationControllers_keeps P ?_)
    (orderControllers_keeps P edition orderRules_oneLinePerItem)
  · exact fun _ hs _ => hs
  · exact fun _ hs _ => hs

theorem AppState.Inv.oneLinePerItem {P : Platform} {edition : Edition} {st : AppState}
    (h : st.Inv P edition Store.OneLinePerItem
      (SelectedAndCells (fun _ o => TableApp.OneLinePerItem o.items) (fun _ _ => True))) :
    st.OneLinePerItem :=
  ⟨h.1, fun _ _ hp hd => h.selected hp hd⟩

theorem tapAgrees_of_step {P : Platform} {edition : Edition} {st st' : AppState} {i : Input}
    (hst : st.OneLinePerItem) (h : step P edition st i = .ok st') (hst' : st'.OneLinePerItem) :
    Input.TapAgrees st i := by
  refine ⟨trivial, fun p d x hp hd hx => ?_⟩
  obtain ⟨e, written⟩ := i
  obtain ⟨filtered, isActive, details⟩ := p
  obtain ⟨s, screen, alerts⟩ := st
  cases hp
  cases hd
  cases hx
  obtain ⟨r, hr, rfl⟩ := map_ok_iff.mp h
  obtain ⟨d', hd', hr⟩ := bind_ok_iff.mp hr
  obtain rfl := pure_ok_iff.mp hr
  exact tapAgrees_of_edit (hst.2 _ d rfl rfl) hd' (hst'.2 _ d' rfl rfl)

/-- A run keeps one line per item in every stored order and in the order being edited exactly
when each tap finds in the edited order only lines that agree with the item of its cell. -/
theorem run_oneLinePerItem_iff (P : Platform) {s : Store} (hs : s.OneLinePerItem)
    {inputs : List Input} {st : AppState}
    (h : (step P .assignment9).run (AppState.atMenu s) inputs = .ok st) :
    (step P .assignment9).Always AppState.OneLinePerItem (AppState.atMenu s) inputs ↔
      (step P .assignment9).Meets Input.TapAgrees (AppState.atMenu s) inputs :=
  Machine.always_iff_meets (A := fun _ => True) (fun _ => AppState.Inv.oneLinePerItem)
    (fun st i st' hst hi => step_preserves_oneLinePerItem P .assignment9 st i st' hst hi.2)
    (fun _ _ _ hst _ h hst' => tapAgrees_of_step hst.oneLinePerItem h hst')
    (AppState.inv_atMenu P .assignment9 hs) (fun _ _ => trivial) h

theorem Sample.oneLinePerItem : Store.OneLinePerItem (generateDummyData Sample.database) := by
  unfold Store.OneLinePerItem
  decide

/-- Rename the lamp, then open the order, show the lamp in a cell, tap + and update. -/
def Sample.renameThenTap : List Input :=
  [⟨.openItems, true⟩, ⟨.items (.didSelectRow 0 0), true⟩,
    ⟨.items (.edit (.type .tfItemName "Floor lamp")), true⟩, ⟨.items .createButtonTap, true⟩,
    ⟨.items .back, true⟩, ⟨.leave, true⟩, ⟨.openOrders, true⟩,
    ⟨.orders (.didSelectRow 0 0), true⟩, ⟨.orders (.edit (.cellForRowAt none 0)), true⟩,
    ⟨.orders (.edit (.btnIncreaseTap 0)), true⟩, ⟨.orders .createButtonTap, true⟩]

/-- The tap leaves the line of the old lamp, and the order stores two lines with its id. -/
theorem run_renameThenTap :
    ∃ st, (step Platform.ascii .assignment9).run (AppState.atMenu (generateDummyData Sample.database))
        Sample.renameThenTap = .ok st ∧
      (st.store.logisticsOrder.map fun o => o.itemsCarried.map fun l => (l.item.id, l.quantity)) =
        [[(1, 2), (1, 3)]] ∧ ¬ st.OneLinePerItem :=
  ⟨_, rfl, rfl, fun h => absurd (h.1 _ List.mem_cons_self) (by decide)⟩

/-- The taps of `Sample.taps` on the items as they are stored keep one line per item. -/
theorem run_oneLinePerItem_taps :
    (step Platform.ascii .assignment9).Always AppState.OneLinePerItem
        (AppState.atMenu (generateDummyData Sample.database)) Sample.taps ↔
      (step Platform.ascii .assignment9).Meets Input.TapAgrees
        (AppState.atMenu (generateDummyData Sample.database)) Sample.taps :=
  @run_oneLinePerItem_iff Platform.ascii _ Sample.oneLinePerItem Sample.taps _ rfl

end Info6350.TableApp
