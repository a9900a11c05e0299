import Info6350.TableApp.Invariants

/-! # Invariants of the order being edited

A tap of a cell puts one line into the object that the cell refers to; nothing else
writes to an object once it is allocated.  `OrderRules` lists what has to be shown of
the selected object and of the stored orders, and `orderControllers_keeps` turns it into an
invariant of the order screens.
-/

namespace Info6350.TableApp
open Library Swift Logistics

namespace LogisticOrderDetailsViewController

/-- The taps that write: + always, - while the quantity is positive. -/
def IsTap (e : OrderEdit) (cell : ℕ) (c : OrderItemsTableViewCell) : Prop :=
  e = .btnIncreaseTap cell ∨ e = .btnDecreaseTap cell ∧ 0 < c.quantity

/-- What a tap may do: put the cell's item with a new quantity into the cell's object. -/
structure Puts (d d' : OrderDetails) (e : OrderEdit) : Prop where
  frame : d'.vcMode = d.vcMode ∧ d'.indexPath = d.indexPath ∧
    d'.tempSelectedOrderItems = d.tempSelectedOrderItems ∧
    d'.objects.length = d.objects.length
  cells : ∀ c ∈ d'.cells, ∃ c₀ ∈ d.cells, c.item = c₀.item
  objects : ∀ i o', d'.objects[i]? = some o' → d.objects[i]? = some o' ∨
    ∃ cell c item quantity o, IsTap e cell c ∧ d.cells[cell]? = some c ∧ c.item = some item ∧
      c.tempSelectedOrderItems = some i ∧ d.objects[i]? = some o ∧
      o.put item quantity = .ok o'

theorem Puts.refl (d : OrderDetails) (e : OrderEdit) : Puts d d e :=
  ⟨⟨rfl, rfl, rfl, rfl⟩, fun c hc => ⟨c, hc, rfl⟩, fun _ _ ho => .inl ho⟩

theorem putLine_puts {cell : ℕ} {c : OrderItemsTableViewCell} {item : Item} {quantity : ℤ}
    {d d' : OrderDetails} {e : OrderEdit} (he : IsTap e cell c) (hc : d.cells[cell]? = some c)
    (hitem : c.item = some item) (h : putLine cell c item quantity d = .ok d') :
    Puts d d' e := by
  have hcells : ∀ c₁ : OrderItemsTableViewCell, c₁.item = c.item →
      ∀ c' ∈ d.cells.set cell c₁, ∃ c₀ ∈ d.cells, c'.item = c₀.item := by
    intro c₁ hc₁ c' hc'
    rcases List.mem_or_eq_of_mem_set hc' with hc' | rfl
    · exact ⟨c', hc', rfl⟩
    · exact ⟨c, List.mem_of_getElem? hc, hc₁⟩
  unfold putLine at h
  cases hr : c.tempSelectedOrderItems with
  | none =>
    simp only [hr, Option.bind_none] at h
    obtain rfl := pure_ok_iff.mp h
    exact ⟨⟨rfl, rfl, rfl, rfl⟩, hcells _ rfl, fun _ _ ho => .inl ho⟩
  | some r =>
    cases ho : d.objects[r]? with
    | none =>
      simp only [hr, ho, Option.bind_some, Option.map_none] at h
      obtain rfl := pure_ok_iff.mp h
      exact ⟨⟨rfl, rfl, rfl, rfl⟩, hcells _ rfl, fun _ _ ho => .inl ho⟩
    | some o =>
      simp only [hr, ho, Option.bind_some, Option.map_some, bind_ok_iff, pure_ok_iff] at h
      obtain ⟨o₁, hput, rfl⟩ := h
      refine ⟨⟨rfl, rfl, rfl, List.length_set⟩, hcells _ rfl, fun i o' hi => ?_⟩
      by_cases hir : r = i
      · subst hir
        have hlt : r < d.objects.length := (List.getElem?_eq_some_iff.mp ho).choose
        obtain rfl : o₁ = o' := by simpa [hlt] using hi
        exact .inr ⟨cell, c, item, quantity, o, he, hc, hitem, hr, ho, hput⟩
      · exact .inl (by simpa [hir] using hi)

theorem btnDecreaseTap_puts {cell : ℕ} {d d' : OrderDetails}
    (h : btnDecreaseTap cell d = .ok d') : Puts d d' (.btnDecreaseTap cell) := by
  unfold btnDecreaseTap at h
  cases hc : d.cells[cell]? with
  | none =>
    rw [hc] at h
    exact Except.ok.inj h ▸ Puts.refl d _
  | some c =>
    cases hitem : c.item with
    | none =>
      simp only [hc, hitem] at h
      exact Except.ok.inj h ▸ Puts.refl d _
    | some item =>
      simp only [hc, hitem] at h
      split_ifs at h with hpos
      · obtain ⟨quantity, _, h⟩ := bind_ok_iff.mp h
        exact putLine_puts (.inr ⟨rfl, hpos⟩) hc hitem h
      · exact Except.ok.inj h ▸ Puts.refl d _

theorem btnIncreaseTap_puts {cell : ℕ} {d d' : OrderDetails}
    (h : btnIncreaseTap cell d = .ok d') : Puts d d' (.btnIncreaseTap cell) := by
  unfold btnIncreaseTap at h
  cases hc : d.cells[cell]? with
  | none =>
    rw [hc] at h
    exact Except.ok.inj h ▸ Puts.refl d _
  | some c =>
    cases hitem : c.item with
    | none =>
      simp only [hc, hitem] at h
      exact Except.ok.inj h ▸ Puts.refl d _
    | some item =>
      simp only [hc, hitem] at h
      obtain ⟨quantity, _, h⟩ := bind_ok_iff.mp h
      exact putLine_puts (.inl rfl) hc hitem h

theorem putLine_frame {cell : ℕ} {c : OrderItemsTableViewCell} {item : Item} {quantity : ℤ}
    {d d' : OrderDetails} (h : putLine cell c item quantity d = .ok d') :
    ∃ cells objects, d' = { d with cells := cells, objects := objects } := by
  unfold putLine at h
  dsimp only at h
  split at h
  · exact ⟨_, _, (pure_ok_iff.mp h).symm⟩
  · obtain ⟨o, -, h⟩ := bind_ok_iff.mp h
    exact ⟨_, _, (pure_ok_iff.mp h).symm⟩

theorem btnDecreaseTap_frame {cell : ℕ} {d d' : OrderDetails} (h : btnDecreaseTap cell d = .ok d') :
    ∃ cells objects, d' = { d with cells := cells, objects := objects } := by
  unfold btnDecreaseTap at h
  split at h
  · exact ⟨_, _, (Except.ok.inj h).symm⟩
  · split at h
    · exact ⟨_, _, (Except.ok.inj h).symm⟩
    · split_ifs at h
      · obtain ⟨quantity, -, h⟩ := bind_ok_iff.mp h
        exact putLine_frame h
      · exact ⟨_, _, (Except.ok.inj h).symm⟩

theorem btnIncreaseTap_frame {cell : ℕ} {d d' : OrderDetails} (h : btnIncreaseTap cell d = .ok d') :
    ∃ cells objects, d' = { d with cells := cells, objects := objects } := by
  unfold btnIncreaseTap at h
  split at h
  · exact ⟨_, _, (Except.ok.inj h).symm⟩
  · split at h
    · exact ⟨_, _, (Except.ok.inj h).symm⟩
    · obtain ⟨quantity, -, h⟩ := bind_ok_iff.mp h
      exact putLine_frame h

theorem configureCell_item (item : Item) (d : OrderDetails) (c : OrderItemsTableViewCell) :
    (configureCell item d c).item = some item := by
  unfold configureCell
  dsimp only
  split <;> rfl

/-- An edit puts a line, or it leaves the selected object alone and gives cells only stored
items. -/
theorem edit_cases {s : Store} {e : OrderEdit} {d d' : OrderDetails} (h : edit s e d = .ok d') :
    Puts d d' e ∨
      (selected d' = selected d ∧
        ∀ c ∈ d'.cells, (∃ c₀ ∈ d.cells, c.item = c₀.item) ∨ ∃ item ∈ s.items, c.item = some item) := by
  have hsame : ∀ c ∈ d.cells,
      (∃ c₀ ∈ d.cells, c.item = c₀.item) ∨ ∃ item ∈ s.items, c.item = some item :=
    fun c hc => .inl ⟨c, hc, rfl⟩
  cases e with
  | type f text => exact .inr (Except.ok.inj h ▸ ⟨rfl, hsame⟩)
  | pickFrom row =>
    refine .inr (Except.ok.inj h ▸ ?_)
    split_ifs <;> exact ⟨rfl, hsame⟩
  | pickTo row =>
    refine .inr (Except.ok.inj h ▸ ?_)
    split_ifs <;> exact ⟨rfl, hsame⟩
  | pickArrival date => exact .inr (Except.ok.inj h ▸ ⟨rfl, hsame⟩)
  | pickDeparture date => exact .inr (Except.ok.inj h ▸ ⟨rfl, hsame⟩)
  | titleForRow row => exact .inr (edit_titleForRow h ▸ ⟨rfl, hsame⟩)
  | btnDecreaseTap cell => exact .inl (btnDecreaseTap_puts h)
  | btnIncreaseTap cell => exact .inl (btnIncreaseTap_puts h)
  | cellForRowAt reused row =>
    refine .inr ?_
    change cellForRowAt s reused row d = _ at h
    unfold cellForRowAt at h
    split_ifs at h
    · obtain ⟨item, hitem, h⟩ := bind_ok_iff.mp h
      cases reused with
      | none =>
        obtain rfl := pure_ok_iff.mp h
        refine ⟨rfl, fun c hc => ?_⟩
        rcases List.mem_append.mp hc with hc | hc
        · exact hsame c hc
        · rw [List.mem_singleton.mp hc]
          exact .inr ⟨item, subscript_mem hitem, configureCell_item item d _⟩
      | some i =>
        obtain rfl := pure_ok_iff.mp h
        refine ⟨rfl, fun c hc => ?_⟩
        obtain ⟨j, hj, rfl⟩ := List.getElem_of_mem hc
        rw [List.getElem_modify]
        split_ifs
        · exact .inr ⟨item, subscript_mem hitem, configureCell_item item d _⟩
        · exact hsame _ (List.getElem_mem _)
    · exact Except.ok.inj h ▸ ⟨rfl, hsame⟩

theorem edit_frame {s : Store} {e : OrderEdit} {d d' : OrderDetails} (h : edit s e d = .ok d') :
    d'.vcMode = d.vcMode ∧ d'.indexPath = d.indexPath := by
  cases e with
  | type f text => exact Except.ok.inj h ▸ ⟨rfl, rfl⟩
  | pickFrom row =>
    refine Except.ok.inj h ▸ ?_
    split_ifs <;> exact ⟨rfl, rfl⟩
  | pickTo row =>
    refine Except.ok.inj h ▸ ?_
    split_ifs <;> exact ⟨rfl, rfl⟩
  | pickArrival date => exact Except.ok.inj h ▸ ⟨rfl, rfl⟩
  | pickDeparture date => exact Except.ok.inj h ▸ ⟨rfl, rfl⟩
  | titleForRow row => exact edit_titleForRow h ▸ ⟨rfl, rfl⟩
  | btnDecreaseTap cell =>
    have hframe := (btnDecreaseTap_puts h).frame
    exact ⟨hframe.1, hframe.2.1⟩
  | btnIncreaseTap cell =>
    have hframe := (btnIncreaseTap_puts h).frame
    exact ⟨hframe.1, hframe.2.1⟩
  | cellForRowAt reused row =>
    change cellForRowAt s reused row d = _ at h
    unfold cellForRowAt at h
    split_ifs at h
    · obtain ⟨item, -, h⟩ := bind_ok_iff.mp h
      cases reused <;> exact pure_ok_iff.mp h ▸ ⟨rfl, rfl⟩
    · exact Except.ok.inj h ▸ ⟨rfl, rfl⟩

/-- The selected object is the same, or a tap of a cell that refers to it put a line into it. -/
theorem Puts.selected {d d' : OrderDetails} {e : OrderEdit} (h : Puts d d' e) :
    selected d' = selected d ∨ ∃ cell c item quantity, IsTap e cell c ∧
      d.cells[cell]? = some c ∧ c.item = some item ∧ c.tempSelectedOrderItems = some d.tempSelectedOrderItems ∧
      (selected d).put item quantity = .ok (selected d') := by
  obtain ⟨-, -, htemp, hlength⟩ := h.frame
  unfold LogisticOrderDetailsViewController.selected
  rw [htemp]
  cases ho' : d'.objects[d.tempSelectedOrderItems]? with
  | none =>
    have ho : d.objects[d.tempSelectedOrderItems]? = none := by
      rw [List.getElem?_eq_none_iff, ← hlength]
      exact List.getElem?_eq_none_iff.mp ho'
    exact .inl (by rw [ho])
  | some o' =>
    rcases h.objects _ _ ho' with ho | ⟨cell, c, item, quantity, o, he, hc, hitem, href, ho, hput⟩
    · exact .inl (by rw [ho])
    · exact .inr ⟨cell, c, item, quantity, he, hc, hitem, href, by rw [ho]; exact hput⟩

theorem viewWillAppear_selected {s : Store} {d d' : OrderDetails}
    (h : viewWillAppear s d = .ok d') : d'.cells = d.cells ∧
      (selected d' = selected d ∨ ∃ order ∈ s.logisticsOrder,
        OrderItems.initItems order.itemsCarried = .ok (selected d')) := by
  unfold viewWillAppear at h
  split at h
  · obtain ⟨order, horder, h⟩ := bind_ok_iff.mp h
    obtain ⟨object, hobject, h⟩ := bind_ok_iff.mp h
    obtain rfl := pure_ok_iff.mp h
    refine ⟨rfl, .inr ⟨order, subscript_mem horder, ?_⟩⟩
    simpa [selected] using hobject
  · exact Except.ok.inj h ▸ ⟨rfl, .inl rfl⟩

theorem viewWillAppear_create {s : Store} {d d' : OrderDetails} (hmode : d.vcMode = .create)
    (h : viewWillAppear s d = .ok d') : d = d' := by
  simp only [viewWillAppear, hmode] at h
  exact Except.ok.inj h

theorem viewWillAppear_modify {s : Store} {d d' : OrderDetails} {row : ℕ}
    (hmode : d.vcMode = .modify) (hrow : d.indexPath = some row)
    (h : viewWillAppear s d = .ok d') : ∃ order, s.logisticsOrder[row]? = some order ∧
      d'.tempSelectedOrderItems < d'.objects.length ∧
      (selected d').items = order.itemsCarried := by
  simp only [viewWillAppear, hmode, hrow] at h
  obtain ⟨order, horder, h⟩ := bind_ok_iff.mp h
  obtain ⟨object, hobject, h⟩ := bind_ok_iff.mp h
  obtain rfl := pure_ok_iff.mp h
  refine ⟨order, (subscript_natCast _ _).mp horder, by simp, ?_⟩
  rw [← (OrderItems.initItems_ok hobject).1]
  simp [selected]

end LogisticOrderDetailsViewController

open LogisticOrderDetailsViewController

/-- The selected object satisfies `Q` and every cell shows an item that satisfies `R`. -/
def SelectedAndCells (Q : List Item → OrderItems → Prop) (R : List Item → Item → Prop) (s : Store)
    (d : OrderDetails) : Prop :=
  Q s.items (selected d) ∧ ∀ c ∈ d.cells, ∀ item, c.item = some item → R s.items item

/-- What makes `Q` and `R` invariants of the order details and `S` one of the stored orders. -/
structure OrderRules (W : Bool → Prop) (E : Store → OrderEdit → OrderDetails → Prop)
    (S : Store → Prop) (Q : List Item → OrderItems → Prop) (R : List Item → Item → Prop) :
    Prop where
  item : ∀ {s item}, S s → item ∈ s.items → R s.items item
  empty : ∀ {s}, S s → Q s.items OrderItems.init
  load : ∀ {s order o}, S s → order ∈ s.logisticsOrder →
    OrderItems.initItems order.itemsCarried = .ok o → Q s.items o
  put : ∀ {s e d cell c item o quantity}, S s → E s e d → IsTap e cell c →
    d.cells[cell]? = some c → c.item = some item →
    c.tempSelectedOrderItems = some d.tempSelectedOrderItems → R s.items item →
    Q s.items (selected d) → (selected d).put item quantity = .ok o → Q s.items o
  create : ∀ {w s d old order}, W w → S s → Q s.items (selected d) →
    (Edit.create order).Legal s.logisticsOrder → Enters d old order →
    order.fromLocation ∈ s.locations → order.toLocation ∈ s.locations →
    S ((StoreEdit.orders (.create order)).apply w s)
  update : ∀ {w s d row old new}, W w → S s → Q s.items (selected d) →
    s.logisticsOrder[row]? = some old → Enters d old new →
    S ((StoreEdit.orders (.update row new)).apply w s)
  delete : ∀ {w s row}, W w → S s → row < s.logisticsOrder.length →
    S ((StoreEdit.orders (.delete row)).apply w s)

theorem orderControllers_keeps (P : Platform) (edition : Edition) {W : Bool → Prop}
    {E : Store → OrderEdit → OrderDetails → Prop} {S : Store → Prop}
    {Q : List Item → OrderItems → Prop} {R : List Item → Item → Prop}
    (hr : OrderRules W E S Q R) :
    (orderControllers P edition).Keeps W E S (SelectedAndCells Q R) := by
  have happear : ∀ {s d d'}, S s → SelectedAndCells Q R s d → viewWillAppear s d = .ok d' →
      SelectedAndCells Q R s d' := by
    intro s d d' hs hd h
    obtain ⟨hcells, hselected⟩ := viewWillAppear_selected h
    refine ⟨?_, hcells ▸ hd.2⟩
    rcases hselected with heq | ⟨order, horder, ho⟩
    · exact heq ▸ hd.1
    · exact hr.load hs horder ho
  constructor
  case load =>
    intro s vcMode indexPath now d hs h
    have hd : SelectedAndCells Q R s (instantiate vcMode indexPath now s) :=
      ⟨hr.empty hs, fun c hc => absurd hc List.not_mem_nil⟩
    exact happear hs hd h
  case appear =>
    intro s d d' hs hd h
    exact happear hs hd h
  case edit =>
    intro s e d d' hs hd he h
    rcases edit_cases h with hputs | ⟨hselected, hcells⟩
    · refine ⟨?_, fun c hc item hitem => ?_⟩
      · rcases hputs.selected with heq | ⟨cell, c, item, quantity, htap, hc, hitem, href, hput⟩
        · exact heq ▸ hd.1
        · exact hr.put hs he htap hc hitem href (hd.2 c (List.mem_of_getElem? hc) item hitem)
            hd.1 hput
      · obtain ⟨c₀, hc₀, heq⟩ := hputs.cells c hc
        exact hd.2 c₀ hc₀ item (heq ▸ hitem)
    · refine ⟨hselected ▸ hd.1, fun c hc item hitem => ?_⟩
      rcases hcells c hc with ⟨c₀, hc₀, heq⟩ | ⟨item', hmem, heq⟩
      · exact hd.2 c₀ hc₀ item (heq ▸ hitem)
      · obtain rfl : item' = item := Option.some.inj (heq.symm.trans hitem)
        exact hr.item hs hmem
  case tap =>
    intro w s s' d a hw hs hd h
    change createButtonTapped edition w d s = _ at h
    unfold createButtonTapped at h
    split_ifs at h
    · obtain ⟨order, old, hlegal, henters, hfrom, hto, _, rfl, _⟩ := createOrder_ok h
      exact ⟨hr.create hw hs hd.1 hlegal henters hfrom hto, hd⟩
    · obtain ⟨row, old, new, _, hold, henters, rfl, _⟩ := updateOrder_ok h
      exact ⟨hr.update hw hs hd.1 hold henters, hd⟩
  case delete =>
    intro w s s' row filtered hw hs h
    obtain ⟨hrow, rfl, rfl⟩ := LogisticOrderTableViewController.commitDelete_ok h
    exact ⟨hr.delete hw hs hrow, rfl⟩

theorem AppState.Inv.selected {P : Platform} {edition : Edition} {S : Store → Prop}
    {Q : List Item → OrderItems → Prop} {R : List Item → Item → Prop} {st : AppState}
    (h : st.Inv P edition S (SelectedAndCells Q R)) {p : Pane LogisticsOrder OrderDetails}
    {d : OrderDetails} (hp : st.screen = .orders p) (hd : p.details = some d) :
    Q st.store.items (selected d) := by
  obtain ⟨s, screen, alerts⟩ := st
  obtain ⟨filtered, isActive, details⟩ := p
  cases hp
  cases hd
  exact h.2.1

end Info6350.TableApp
