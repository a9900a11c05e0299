import Info6350.TableApp.OrderEditing

/-! # Referential integrity

Orders embed copies of their locations and items, and nothing but the guards of the
swipe-deletes keeps the originals.  The guards read the array of the main screen while
the list that replaces it is the filtered one; that the two are equal whenever a row can
be deleted is part of the invariant of the panes.
-/

namespace Info6350.TableApp
open Library Swift Logistics LogisticOrderDetailsViewController

/-- The ids are distinct and every order refers to stored locations and stored items. -/
structure Store.Consistent (s : Store) : Prop where
  distinct : s.DistinctIds
  fromLocation : ∀ o ∈ s.logisticsOrder, o.fromLocation.id ∈ keys s.locations
  toLocation : ∀ o ∈ s.logisticsOrder, o.toLocation.id ∈ keys s.locations
  items : ∀ o ∈ s.logisticsOrder, ∀ l ∈ o.itemsCarried, l.item.id ∈ keys s.items

namespace Store.Consistent
variable {s : Store} (written : Bool)

theorem apply_items (h : s.Consistent) {e : Edit Item} (he : StoreEdit.Permitted (.items e) s) :
    Store.Consistent ((StoreEdit.items e).apply written s) := by
  refine ⟨h.distinct.apply he.1 written, h.fromLocation, h.toLocation, fun o ho l hl => ?_⟩
  refine Edit.mem_keys_onList he.1 (h.items o ho l hl) ?_
  rintro row item rfl hrow hid
  exact he.2 item hrow o ho l hl hid.symm

theorem apply_locations (h : s.Consistent) {e : Edit Location}
    (he : StoreEdit.Permitted (.locations e) s) :
    Store.Consistent ((StoreEdit.locations e).apply written s) := by
  refine ⟨h.distinct.apply he.1 written, fun o ho => ?_, fun o ho => ?_, h.items⟩
  · refine Edit.mem_keys_onList he.1 (h.fromLocation o ho) ?_
    rintro row location rfl hrow hid
    exact (he.2 location hrow o ho).2 hid.symm
  · refine Edit.mem_keys_onList he.1 (h.toLocation o ho) ?_
    rintro row location rfl hrow hid
    exact (he.2 location hrow o ho).1 hid.symm

/-- An edit of the orders keeps consistency when the order that it writes, if any, refers to
stored locations and items. -/
theorem apply_orders (h : s.Consistent) {e : Edit LogisticsOrder} (he : e.Legal s.logisticsOrder)
    (hnew : ∀ o, (e = .create o ∨ ∃ row, e = .update row o) →
      o.fromLocation.id ∈ keys s.locations ∧ o.toLocation.id ∈ keys s.locations ∧
        ∀ l ∈ o.itemsCarried, l.item.id ∈ keys s.items) :
    Store.Consistent ((StoreEdit.orders e).apply written s) := by
  refine ⟨h.distinct.apply (e := .orders e) he written, fun o ho => ?_, fun o ho => ?_,
    fun o ho => ?_⟩ <;> rcases Edit.mem_onList ho with ho | ho
  · exact h.fromLocation o ho
  · exact (hnew o ho).1
  · exact h.toLocation o ho
  · exact (hnew o ho).2.1
  · exact h.items o ho
  · exact (hnew o ho).2.2

end Store.Consistent

def LinesStored (items : List Item) (o : OrderItems) : Prop :=
  ∀ l ∈ o.items, l.item.id ∈ keys items

def ItemStored (items : List Item) (item : Item) : Prop := item.id ∈ keys items

theorem LinesStored.put {items : List Item} {item : Item} {quantity : ℤ} {o o' : OrderItems}
    (h : LinesStored items o) (hitem : ItemStored items item)
    (hput : o.put item quantity = .ok o') : LinesStored items o' := by
  intro l hl
  rw [(OrderItems.put_ok hput).1] at hl
  rcases List.mem_append.mp hl with hl | hl
  · exact h l (List.mem_filter.mp hl).1
  · rw [List.mem_singleton.mp hl]
    exact hitem

theorem orderRules_consistent :
    OrderRules (fun _ => True) AnyEdit Store.Consistent LinesStored ItemStored where
  item _ hitem := key_mem_keys hitem
  empty _ l hl := absurd hl List.not_mem_nil
  load {s order o} hs horder ho := by
    intro l hl
    rw [(OrderItems.initItems_ok ho).1] at hl
    exact hs.items order horder l hl
  put _ _ _ _ _ _ hitem ho hput := ho.put hitem hput
  create {w s d old order} _ hs hlines hlegal henters hfrom hto := by
    refine hs.apply_orders w hlegal fun o ho => ?_
    obtain rfl : order = o := by simpa using ho
    exact ⟨key_mem_keys hfrom, key_mem_keys hto, henters.itemsCarried ▸ hlines⟩
  update {w s d row old new} _ hs hlines hold henters := by
    have hmem := List.mem_of_getElem? hold
    refine hs.apply_orders w ⟨old, hold, henters.id.symm⟩ fun o ho => ?_
    obtain ⟨-, rfl⟩ : row = row ∧ new = o := by simpa using ho
    refine ⟨?_, ?_, henters.itemsCarried ▸ hlines⟩
    · exact henters.fromLocation ▸ hs.fromLocation old hmem
    · exact henters.toLocation ▸ hs.toLocation old hmem
  delete {w s row} _ hs hrow :=
    hs.apply_orders w hrow fun o ho => by simp at ho

theorem step_preserves_consistent (P : Platform) (edition : Edition) :
    (step P edition).Preserves (Input.Meets (fun _ => True) AnyEdit)
      (AppState.Inv P edition Store.Consistent (SelectedAndCells LinesStored ItemStored)) :=
  step_preserves
    (itemControllers_keeps P fun {w _ _} _ hs he => hs.apply_items w he)
    (locationControllers_keeps P fun {w _ _} _ hs he => hs.apply_locations w he)
    (orderControllers_keeps P edition orderRules_consistent)

/-- No run from a consistent store leaves a dangling reference or a duplicate id. -/
theorem run_consistent (P : Platform) {s : Store} (hs : s.Consistent) {inputs : List Input}
    {st : AppState} (h : (step P .assignment9).run (AppState.atMenu s) inputs = .ok st) :
    st.store.Consistent := by
  refine ((step_preserves_consistent P .assignment9).run (AppState.inv_atMenu P _ hs) ?_ h).1
  exact Input.meets_anyEdit P _ fun _ _ => trivial

theorem Sample.consistent : Store.Consistent (generateDummyData Sample.database) :=
  ⟨(Store.generateDummyData_matches _).distinctIds, by decide, by decide, by decide⟩

/-- The lamp is carried, so its delete is refused; without the order it goes through. -/
theorem run_consistent_deletes :
    ∃ st, (step Platform.ascii .assignment9).run (AppState.atMenu (generateDummyData Sample.database))
        Sample.deletes = .ok st ∧
      st.alerts = [⟨"Cannot Delete", "This item is present in an order."⟩] ∧
      st.store.items = [Sample.chair] ∧ st.store.Consistent :=
  ⟨_, rfl, rfl, rfl, @run_consistent Platform.ascii _ Sample.consistent Sample.deletes _ rfl⟩

end Info6350.TableApp
