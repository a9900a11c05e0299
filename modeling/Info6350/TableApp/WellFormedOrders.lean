import Info6350.TableApp.OrderEditing

/-! # Well-formed orders

The total of an `OrderItems` object is set by its two initialisers and by the observer
of its lines, and it is copied into an order together with the lines, after the checks
of the dates and of the number of lines.
-/

namespace Info6350.TableApp
open Library Swift Logistics LogisticOrderDetailsViewController

/-- The dates are in order, something is carried and the cost is the sum over the lines. -/
structure LogisticsOrder.WellFormed (o : LogisticsOrder) : Prop where
  dates : o.departureDate ≤ o.estimatedArrivalDate
  itemsCarried : o.itemsCarried ≠ []
  cost : o.cost = orderSum o.itemsCarried

instance (o : LogisticsOrder) : Decidable o.WellFormed :=
  decidable_of_iff (o.departureDate ≤ o.estimatedArrivalDate ∧ o.itemsCarried ≠ [] ∧
    o.cost = orderSum o.itemsCarried)
    ⟨fun h => ⟨h.1, h.2.1, h.2.2⟩, fun h => ⟨h.dates, h.itemsCarried, h.cost⟩⟩

def Store.OrdersWellFormed (s : Store) : Prop := ∀ o ∈ s.logisticsOrder, o.WellFormed

/-- What a screen with an exact total writes is a well-formed order. -/
theorem wellFormed_of_enters {d : OrderDetails} {old new : LogisticsOrder}
    (hd : (selected d).TotalExact) (h : Enters d old new) : new.WellFormed where
  dates := by
    rw [h.departureDate, h.estimatedArrivalDate]
    exact h.dates
  itemsCarried := h.itemsCarried_ne
  cost := by
    rw [h.cost, h.itemsCarried]
    exact hd

theorem Store.OrdersWellFormed.apply_orders {s : Store} (h : s.OrdersWellFormed)
    (e : Edit LogisticsOrder)
    (hnew : ∀ o, (e = .create o ∨ ∃ row, e = .update row o) → o.WellFormed) (written : Bool) :
    Store.OrdersWellFormed ((StoreEdit.orders e).apply written s) := by
  intro o ho
  rcases Edit.mem_onList ho with ho | ho
  · exact h o ho
  · exact hnew o ho

theorem orderRules_wellFormed :
    OrderRules (fun _ => True) AnyEdit Store.OrdersWellFormed (fun _ o => o.TotalExact)
      (fun _ _ => True) where
  item _ _ := trivial
  empty _ := OrderItems.init_totalExact
  load _ _ ho := (OrderItems.initItems_ok ho).2
  put _ _ _ _ _ _ _ _ hput := (OrderItems.put_ok hput).2
  create {w s d old order} _ hs hd _ henters _ _ := by
    refine hs.apply_orders _ (fun o ho => ?_) w
    obtain rfl : order = o := by simpa using ho
    exact wellFormed_of_enters hd henters
  update {w s d row old new} _ hs hd _ henters := by
    refine hs.apply_orders _ (fun o ho => ?_) w
    obtain ⟨-, rfl⟩ : row = row ∧ new = o := by simpa using ho
    exact wellFormed_of_enters hd henters
  delete {w s row} _ hs _ := hs.apply_orders _ (fun o ho => by simp at ho) w

theorem step_preserves_wellFormed (P : Platform) (edition : Edition) :
    (step P edition).Preserves (Input.Meets (fun _ => True) AnyEdit)
      (AppState.Inv P edition Store.OrdersWellFormed
        (SelectedAndCells (fun _ o => o.TotalExact) (fun _ _ => True))) := by
  refine step_preserves (itemControllers_keeps P ?_) (locationControllers_keeps P ?_)
    (orderControllers_keeps P edition orderRules_wellFormed)
  · exact fun _ hs _ => hs
  · exact fun _ hs _ => hs

/-- In every state of a run that starts with well-formed orders the orders are well formed,
and the total of an open order is the sum over its lines. -/
theorem run_ordersWellFormed (P : Platform) {s : Store} (hs : s.OrdersWellFormed)
    {inputs : List Input} {st : AppState}
    (h : (step P .assignment9).run (AppState.atMenu s) inputs = .ok st) :
    st.store.OrdersWellFormed ∧ ∀ p d, st.screen = .orders p → p.details = some d →
      (selected d).orderTotal = orderSum (selected d).items := by
  have hinv := (step_preserves_wellFormed P .assignment9).run
    (AppState.inv_atMenu P .assignment9 hs)
    (Input.meets_anyEdit P .assignment9 fun _ _ => trivial) h
  exact ⟨hinv.1, fun p d hp hd => hinv.selected hp hd⟩

/-- One lamp and one chair instead of two lamps. -/
theorem run_ordersWellFormed_taps :
    ∃ st, (step Platform.ascii .assignment9).run (AppState.atMenu (generateDummyData Sample.database))
        Sample.taps = .ok st ∧
      st.store.logisticsOrder =
        [{ Sample.shipment with cost := 100, itemsCarried := [⟨Sample.lamp, 1⟩, ⟨Sample.chair, 1⟩] }] ∧
      st.store.OrdersWellFormed :=
  ⟨_, rfl, rfl, (@run_ordersWellFormed Platform.ascii (generateDummyData Sample.database)
    (by unfold Store.OrdersWellFormed; decide) Sample.taps _ rfl).1⟩

end Info6350.TableApp
