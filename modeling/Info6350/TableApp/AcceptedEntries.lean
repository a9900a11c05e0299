import Info6350.TableApp.OrderEditing

/-! # Entries that pass the checks

On the details of an item or a location the user can always enter something that the
checks accept.  An order also needs a total that does not overflow and a line, which no
edit supplies when it has none and there is no item to add.
-/

namespace Info6350.TableApp
open Library Swift Logistics

theorem parseInt_one : parseInt "1" = some 1 := by decide

namespace ItemDetailsViewController

theorem exists_enters (P : Platform) {s : Store} {row : ℕ} {item : Item}
    (hitem : s.items[row]? = some item) :
    ∃ d₀ edits d new, viewWillAppear P s (instantiate .modify (some row)) = .ok d₀ ∧
      Machine.run (fun d e => .ok (edit e d)) d₀ edits = (.ok d : Except Trap _) ∧
      Enters d item new := by
  have hne : "a" ≠ "" := by decide
  exact ⟨_, [.type .tfItemName "a", .type .tfItemWeight "1", .type .tfItemValue "1"], _,
    Item.mk _ item.id "a" item.desc 1 1,
    bind_ok_iff.mpr ⟨item, (subscript_natCast _ _).mpr hitem, rfl⟩, rfl,
    rfl, rfl, rfl, hne, rfl, parseInt_one, one_pos, parseInt_one, one_pos⟩

end ItemDetailsViewController

namespace LocationDetailsViewController

theorem exists_enters {s : Store} {row : ℕ} {location : Location}
    (hlocation : s.locations[row]? = some location) :
    ∃ d₀ edits d new, viewWillAppear s (instantiate .modify (some row)) = .ok d₀ ∧
      Machine.run (fun d e => .ok (edit e d)) d₀ edits = (.ok d : Except Trap _) ∧
      Enters d location new := by
  have hne : "a" ≠ "" := by decide
  exact ⟨_, [.type .tfStreetName "a", .type .tfCityName "a", .type .tfStateName "a",
    .type .tfCountryName "a", .type .tfZipcode "1"], _,
    Location.mk location.id "a" "a" "a" "a" (toString (1 : ℤ)),
    bind_ok_iff.mpr ⟨location, (subscript_natCast _ _).mpr hlocation, rfl⟩, rfl,
    rfl, rfl, hne, rfl, hne, rfl, hne, rfl, hne, 1, parseInt_one, rfl⟩

end LocationDetailsViewController

namespace LogisticOrderDetailsViewController

/-- The order in a row can be updated: the total of its lines does not overflow, and it has a
line or there is an item to add. -/
def CanUpdate (s : Store) (row : ℕ) : Prop :=
  ∃ order, s.logisticsOrder[row]? = some order ∧
    (∃ total, getOrderTotal order.itemsCarried = .ok total) ∧
    (order.itemsCarried ≠ [] ∨ ∃ item ∈ s.items, InRange item.value)

/-- The details of an order as the screen shows them first. -/
structure Opens (s : Store) (order : LogisticsOrder) (d : OrderDetails) : Prop where
  objects : ∃ total, getOrderTotal order.itemsCarried = .ok total ∧
    d.objects = [OrderItems.init, ⟨order.itemsCarried, total⟩]
  tempSelectedOrderItems : d.tempSelectedOrderItems = 1
  cells : d.cells = []
  itemRows : d.itemRows = s.items.length

theorem viewWillAppear_opens {s : Store} {row : ℕ} {now : Date} {d : OrderDetails}
    (h : viewWillAppear s (instantiate .modify (some row) now s) = .ok d) :
    ∃ order, s.logisticsOrder[row]? = some order ∧ Opens s order d := by
  obtain ⟨order, horder, h⟩ := bind_ok_iff.mp h
  obtain ⟨object, hobject, h⟩ := bind_ok_iff.mp h
  obtain ⟨total, htotal, hobject⟩ := bind_ok_iff.mp hobject
  obtain rfl := pure_ok_iff.mp hobject
  obtain rfl := pure_ok_iff.mp h
  exact ⟨order, (subscript_natCast _ _).mp horder, ⟨total, htotal, rfl⟩, rfl, rfl, rfl⟩

theorem viewWillAppear_isOk {s : Store} {row : ℕ} {order : LogisticsOrder} {total : ℤ}
    (horder : s.logisticsOrder[row]? = some order)
    (htotal : getOrderTotal order.itemsCarried = .ok total) (now : Date) :
    ∃ d, viewWillAppear s (instantiate .modify (some row) now s) = .ok d := by
  have hobject : OrderItems.initItems order.itemsCarried = .ok ⟨order.itemsCarried, total⟩ :=
    bind_ok_iff.mpr ⟨total, htotal, rfl⟩
  exact ⟨_, bind_ok_iff.mpr ⟨order, (subscript_natCast _ _).mpr horder,
    bind_ok_iff.mpr ⟨_, hobject, rfl⟩⟩⟩

/-! ## An order with a line -/

theorem exists_enters_of_lines {s : Store} {d : OrderDetails} (h : (selected d).items ≠ [])
    (old : LogisticsOrder) :
    ∃ edits d' new, Machine.run (fun d e => edit s e d) d edits = .ok d' ∧ Enters d' old new := by
  refine ⟨[.pickDeparture 0, .pickArrival 0], _,
    { old with
      departureDate := 0, estimatedArrivalDate := 0,
      cost := (selected d).orderTotal, itemsCarried := (selected d).items }, rfl, ?_⟩
  exact ⟨rfl, rfl, rfl, rfl, rfl, le_refl _, rfl, rfl, h⟩

/-! ## An order without lines -/

section NoLines
variable {s : Store} {d d' : OrderDetails}

theorem put_one_ok_iff {o : OrderItems} (ho : o.items = []) (item : Item) :
    (∃ o', o.put item 1 = .ok o') ↔ InRange item.value := by
  constructor
  · rintro ⟨o', h⟩
    obtain ⟨m, hm, h⟩ := bind_ok_iff.mp h
    obtain ⟨total, htotal, -⟩ := bind_ok_iff.mp h
    rw [(OrderItems.setItems_ok hm).1, ho] at htotal
    obtain ⟨val, hval, -⟩ := bind_ok_iff.mp htotal
    have hrange : InRange (1 * item.value) := (mulInt_ok_iff.mp hval).1
    rwa [one_mul] at hrange
  · intro hvalue
    have hval : mulInt 1 item.value = .ok item.value :=
      mulInt_ok_iff.mpr ⟨(one_mul item.value).symm ▸ hvalue, one_mul _⟩
    have hadd : addInt 0 item.value = .ok item.value :=
      addInt_ok_iff.mpr ⟨(zero_add item.value).symm ▸ hvalue, zero_add _⟩
    have htotal : getOrderTotal [OrderItem.mk item 1] = .ok item.value :=
      bind_ok_iff.mpr ⟨_, hval, bind_ok_iff.mpr ⟨_, hadd, rfl⟩⟩
    refine ⟨⟨[⟨item, 1⟩], item.value⟩, ?_⟩
    unfold OrderItems.put
    rw [ho]
    exact bind_ok_iff.mpr ⟨⟨[], 0⟩, rfl, bind_ok_iff.mpr ⟨_, htotal, rfl⟩⟩

theorem exists_line {order : LogisticsOrder} (hd : Opens s order d)
    (hempty : order.itemsCarried = []) {item : Item} (hitem : item ∈ s.items)
    (hvalue : InRange item.value) :
    ∃ edits d', Machine.run (fun d e => edit s e d) d edits = .ok d' ∧ (selected d').items ≠ [] := by
  obtain ⟨row, hrow, hget⟩ := List.getElem_of_mem hitem
  obtain ⟨total, -, hobjects⟩ := hd.objects
  have hselected : selected d = ⟨[], total⟩ := by
    rw [selected, hobjects, hd.tempSelectedOrderItems, hempty]
    rfl
  have hobject : d.objects[1]? = some ⟨[], total⟩ := by
    rw [hobjects, hempty]
    rfl
  obtain ⟨o, ho⟩ := (put_one_ok_iff (o := ⟨[], total⟩) rfl item).mpr hvalue
  have hcell : edit s (.cellForRowAt none row) d =
      .ok { d with cells := [⟨some item, some 1, 0, "0"⟩] } := by
    change cellForRowAt s none row d = _
    rw [cellForRowAt, if_pos (hd.itemRows ▸ hrow)]
    refine bind_ok_iff.mpr
      ⟨item, (subscript_natCast _ _).mpr (List.getElem?_eq_some_iff.mpr ⟨hrow, hget⟩), ?_⟩
    simp [configureCell, hselected, hd.cells, hd.tempSelectedOrderItems,
      OrderItemsTableViewCell.blank, pure_ok_iff]
  have htap : edit s (.btnIncreaseTap 0) { d with cells := [⟨some item, some 1, 0, "0"⟩] } =
      .ok { d with
        cells := [⟨some item, some 1, 1, toString (1 : ℤ)⟩], objects := d.objects.set 1 o } := by
    have hone : addInt 0 1 = .ok 1 := by decide
    refine bind_ok_iff.mpr ⟨1, hone, ?_⟩
    simp only [putLine, Option.bind_some, hobject, Option.map_some]
    exact bind_ok_iff.mpr ⟨o, ho, rfl⟩
  refine ⟨[.cellForRowAt none row, .btnIncreaseTap 0], _, (Machine.run_cons_eq_ok _).mpr
    ⟨_, hcell, (Machine.run_cons_eq_ok _).mpr ⟨_, htap, rfl⟩⟩, ?_⟩
  change ((d.objects.set 1 o)[d.tempSelectedOrderItems]?.getD OrderItems.init).items ≠ []
  rw [hobjects, hd.tempSelectedOrderItems]
  change o.items ≠ []
  rw [(OrderItems.put_ok ho).1]
  exact List.cons_ne_nil _ _

/-- No object has a line, and every cell shows a stored item with quantity 0. -/
structure NoLines (s : Store) (d : OrderDetails) : Prop where
  objects : ∀ o ∈ d.objects, o.items = []
  cells : ∀ c ∈ d.cells, c.quantity = 0 ∧ (∃ item ∈ s.items, c.item = some item) ∧
    ∃ r < d.objects.length, c.tempSelectedOrderItems = some r
  tempSelectedOrderItems : d.tempSelectedOrderItems < d.objects.length

theorem NoLines.selected (h : NoLines s d) : (selected d).items = [] := by
  unfold LogisticOrderDetailsViewController.selected
  rw [List.getElem?_eq_getElem h.tempSelectedOrderItems]
  exact h.objects _ (List.getElem_mem _)

theorem NoLines.configureCell (h : NoLines s d) {item : Item} (hitem : item ∈ s.items)
    {c : OrderItemsTableViewCell} (hc : c.quantity = 0) :
    (configureCell item d c).quantity = 0 ∧
      (∃ item' ∈ s.items, (configureCell item d c).item = some item') ∧
      ∃ r < d.objects.length, (configureCell item d c).tempSelectedOrderItems = some r := by
  simp only [LogisticOrderDetailsViewController.configureCell, h.selected, List.find?_nil]
  exact ⟨hc, ⟨item, hitem, rfl⟩, _, h.tempSelectedOrderItems, rfl⟩

theorem NoLines.btnDecreaseTap (h : NoLines s d) {cell : ℕ}
    (he : btnDecreaseTap cell d = .ok d') : NoLines s d' := by
  unfold LogisticOrderDetailsViewController.btnDecreaseTap at he
  cases hc : d.cells[cell]? with
  | none =>
    rw [hc] at he
    exact Except.ok.inj he ▸ h
  | some c =>
    obtain ⟨hquantity, ⟨item, _, hitem⟩, _⟩ := h.cells c (List.mem_of_getElem? hc)
    simp only [hc, hitem, hquantity, lt_irrefl, if_false] at he
    exact Except.ok.inj he ▸ h

/-- The first tap of + overflows, so there is none to add a line. -/
theorem NoLines.btnIncreaseTap (hvalue : ∀ item ∈ s.items, ¬ InRange item.value)
    (h : NoLines s d) {cell : ℕ} (he : btnIncreaseTap cell d = .ok d') : NoLines s d' := by
  unfold LogisticOrderDetailsViewController.btnIncreaseTap at he
  cases hc : d.cells[cell]? with
  | none =>
    rw [hc] at he
    exact Except.ok.inj he ▸ h
  | some c =>
    obtain ⟨hquantity, ⟨item, hmem, hitem⟩, r, hr, href⟩ := h.cells c (List.mem_of_getElem? hc)
    simp only [hc, hitem, hquantity, putLine, href, Option.bind_some,
      List.getElem?_eq_getElem hr, Option.map_some] at he
    obtain ⟨quantity, hone, he⟩ := bind_ok_iff.mp he
    obtain rfl : 1 = quantity := Except.ok.inj hone
    obtain ⟨o, hput, -⟩ := bind_ok_iff.mp he
    have hnone := h.objects _ (List.getElem_mem hr)
    exact absurd ((put_one_ok_iff hnone item).mp ⟨o, hput⟩) (hvalue item hmem)

theorem NoLines.cellForRowAt (h : NoLines s d) {reused : Option ℕ} {row : ℕ}
    (he : cellForRowAt s reused row d = .ok d') : NoLines s d' := by
  unfold LogisticOrderDetailsViewController.cellForRowAt at he
  split_ifs at he
  · obtain ⟨item, hitem, he⟩ := bind_ok_iff.mp he
    have hconf : ∀ c : OrderItemsTableViewCell, c.quantity = 0 → _ := fun c =>
      h.configureCell (subscript_mem hitem)
    cases reused with
    | none =>
      obtain rfl := pure_ok_iff.mp he
      refine ⟨h.objects, fun c hc => ?_, h.tempSelectedOrderItems⟩
      rcases List.mem_append.mp hc with hc | hc
      · exact h.cells c hc
      · rw [List.mem_singleton.mp hc]
        exact hconf .blank rfl
    | some i =>
      obtain rfl := pure_ok_iff.mp he
      refine ⟨h.objects, fun c hc => ?_, h.tempSelectedOrderItems⟩
      obtain ⟨j, hj, rfl⟩ := List.getElem_of_mem hc
      rw [List.getElem_modify]
      split_ifs
      · exact hconf _ (h.cells _ (List.getElem_mem _)).1
      · exact h.cells _ (List.getElem_mem _)
  · exact Except.ok.inj he ▸ h

theorem NoLines.edit (hvalue : ∀ item ∈ s.items, ¬ InRange item.value) (h : NoLines s d)
    {e : OrderEdit} (he : edit s e d = .ok d') : NoLines s d' := by
  obtain ⟨hobjects, hcells, htemp⟩ := h
  cases e with
  | type f text => exact Except.ok.inj he ▸ ⟨hobjects, hcells, htemp⟩
  | pickFrom row =>
    refine Except.ok.inj he ▸ ?_
    split_ifs <;> exact ⟨hobjects, hcells, htemp⟩
  | pickTo row =>
    refine Except.ok.inj he ▸ ?_
    split_ifs <;> exact ⟨hobjects, hcells, htemp⟩
  | pickArrival date => exact Except.ok.inj he ▸ ⟨hobjects, hcells, htemp⟩
  | pickDeparture date => exact Except.ok.inj he ▸ ⟨hobjects, hcells, htemp⟩
  | titleForRow row => exact edit_titleForRow he ▸ ⟨hobjects, hcells, htemp⟩
  | btnDecreaseTap cell => exact NoLines.btnDecreaseTap ⟨hobjects, hcells, htemp⟩ he
  | btnIncreaseTap cell => exact NoLines.btnIncreaseTap hvalue ⟨hobjects, hcells, htemp⟩ he
  | cellForRowAt reused row => exact NoLines.cellForRowAt ⟨hobjects, hcells, htemp⟩ he

end NoLines

/-- Some entry on the details of an order passes the checks exactly when it can be updated. -/
theorem exists_enters_iff {s : Store} {row : ℕ} {now : Date} :
    (∃ d₀ edits d old new,
      viewWillAppear s (instantiate .modify (some row) now s) = .ok d₀ ∧
      Machine.run (fun d e => edit s e d) d₀ edits = .ok d ∧
      s.logisticsOrder[row]? = some old ∧ Enters d old new) ↔ CanUpdate s row := by
  constructor
  · rintro ⟨d₀, edits, d, old, new, hload, hrun, -, henters⟩
    obtain ⟨order, horder, hopens⟩ := viewWillAppear_opens hload
    obtain ⟨total, htotal, hobjects⟩ := hopens.objects
    refine ⟨order, horder, ⟨total, htotal⟩, ?_⟩
    by_contra hnone
    push Not at hnone
    obtain ⟨hempty, hvalue⟩ := hnone
    have hstart : NoLines s d₀ := by
      refine ⟨fun o ho => ?_, fun c hc => ?_, ?_⟩
      · simp only [hobjects, hempty, List.mem_cons, List.not_mem_nil, or_false] at ho
        rcases ho with rfl | rfl <;> rfl
      · rw [hopens.cells] at hc
        cases hc
      · rw [hopens.tempSelectedOrderItems, hobjects]
        exact Nat.lt_succ_self 1
    have hend : NoLines s d :=
      Machine.Preserves.run_any (M := fun d e => LogisticOrderDetailsViewController.edit s e d)
        (fun _ _ _ hd _ he => hd.edit hvalue he) hstart hrun
    exact henters.itemsCarried_ne (henters.itemsCarried.trans hend.selected)
  · rintro ⟨order, horder, ⟨total, htotal⟩, hlines⟩
    obtain ⟨d₀, hload⟩ := viewWillAppear_isOk horder htotal now
    obtain ⟨order', horder', hopens⟩ := viewWillAppear_opens hload
    obtain rfl : order = order' := Option.some.inj (horder.symm.trans horder')
    have hline : ∃ edits d, Machine.run (fun d e => edit s e d) d₀ edits = .ok d ∧
        (selected d).items ≠ [] := by
      by_cases hempty : order.itemsCarried = []
      · obtain ⟨item, hitem, hvalue⟩ := hlines.resolve_left (not_not.mpr hempty)
        exact exists_line hopens hempty hitem hvalue
      · obtain ⟨total', -, hobjects⟩ := hopens.objects
        refine ⟨[], d₀, rfl, ?_⟩
        rw [selected, hobjects, hopens.tempSelectedOrderItems]
        exact hempty
    obtain ⟨edits, d, hrun, hitems⟩ := hline
    obtain ⟨more, d', new, hmore, henters⟩ := exists_enters_of_lines (s := s) hitems order
    refine ⟨d₀, edits ++ more, d', order, new, hload, ?_, horder, henters⟩
    rw [Machine.run_append, hrun]
    exact hmore

end LogisticOrderDetailsViewController
end Info6350.TableApp
