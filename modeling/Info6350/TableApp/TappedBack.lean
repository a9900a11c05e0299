import Info6350.TableApp.Taps
import Info6350.TableApp.WriteFailures

/-! # Quantities tapped back to zero

A tap of - that reaches zero leaves a line of quantity zero in the order, and the button only
counts the lines.  A list goes along with the app: the items that the order being edited has
without a quantity, because a tap or the stored order left them so.
-/

namespace Info6350.TableApp
open Library Swift Logistics LogisticOrderDetailsViewController

/-- The items of the lines with a quantity below one. -/
def emptyLines (lines : List OrderItem) : List Item :=
  (lines.filter fun l => l.quantity < 1).map OrderItem.item

theorem mem_emptyLines {lines : List OrderItem} {item : Item} :
    item ∈ emptyLines lines ↔ ∃ l ∈ lines, l.item = item ∧ l.quantity < 1 := by
  simp only [emptyLines, List.mem_map, List.mem_filter, decide_eq_true_eq]
  exact exists_congr fun l => and_assoc.trans (and_congr_right fun _ => and_comm)

def storedEmpty (s : Store) (row : ℕ) : List Item :=
  match s.logisticsOrder[row]? with
  | some order => emptyLines order.itemsCarried
  | none => []

/-- The items without a quantity after an event on the order screens: a new order has none, an
order that is loaded those stored with it, and a tap adds or removes its item. -/
def leftEmpty (s : Store) (p : Pane LogisticsOrder OrderDetails) (e : PaneEvent OrderEdit)
    (left : List Item) : List Item :=
  match p.details, e with
  | none, .addTapped _ => []
  | none, .didSelectRow row _ => storedEmpty s row
  | some d, .reappear => match d.vcMode, d.indexPath with
    | .modify, some row => storedEmpty s row
    | _, _ => left
  | some d, .edit e => match tapOf d e with
    | some t =>
      if t.OnSelected d then
        if t.quantity < 1 then t.item :: left else left.filter fun item => item ≠ t.item
      else left
    | none => left
  | _, _ => left

theorem mem_putLine_iff {lines : List OrderItem} {left : List Item} {item other : Item} {quantity : ℤ}
    (h : other ∈ left ↔ ∃ l ∈ lines, l.item = other ∧ l.quantity < 1) :
    other ∈ (if quantity < 1 then item :: left else left.filter fun x => x ≠ item) ↔
      ∃ l ∈ lines.filter (fun l => l.item ≠ item) ++ [⟨item, quantity⟩],
        l.item = other ∧ l.quantity < 1 := by
  simp only [List.mem_append, List.mem_filter, List.mem_singleton, decide_eq_true_eq]
  by_cases hother : other = item
  · subst hother
    have hline : (∃ l, (l ∈ lines ∧ l.item ≠ other ∨ l = ⟨other, quantity⟩) ∧
        l.item = other ∧ l.quantity < 1) ↔ quantity < 1 := by
      constructor
      · rintro ⟨l, ⟨-, hne⟩ | rfl, hitem, hlt⟩
        · exact absurd hitem hne
        · exact hlt
      · exact fun hlt => ⟨_, .inr rfl, rfl, hlt⟩
    rw [hline]
    split_ifs with hlt <;> simp [hlt]
  · have hlines : (∃ l, (l ∈ lines ∧ l.item ≠ item ∨ l = ⟨item, quantity⟩) ∧
        l.item = other ∧ l.quantity < 1) ↔ ∃ l ∈ lines, l.item = other ∧ l.quantity < 1 := by
      constructor
      · rintro ⟨l, ⟨hl, -⟩ | rfl, hitem, hlt⟩
        · exact ⟨l, hl, hitem, hlt⟩
        · exact absurd hitem.symm hother
      · rintro ⟨l, hl, rfl, hlt⟩
        exact ⟨l, .inl ⟨hl, hother⟩, rfl, hlt⟩
    rw [hlines, ← h]
    split_ifs <;> simp [hother]

def recordEmpty (st : AppState) (i : Input) (_ : AppState) (left : List Item) : List Item :=
  match st.screen, i.event with
  | .orders p, .orders e => leftEmpty st.store p e left
  | _, _ => left

/-- The history says which items the order being edited has without a quantity. -/
structure Tracks (d : OrderDetails) (left : List Item) : Prop where
  allocated : SelectedAllocated d
  mem_iff : ∀ item, item ∈ left ↔ ∃ l ∈ (selected d).items, l.item = item ∧ l.quantity < 1

section Pane
variable {P : Platform} {edition : Edition} {s : Store} {d d' : OrderDetails} {left : List Item}

theorem Tracks.new (now : Date) : Tracks (instantiate .create none now s) [] :=
  ⟨Nat.one_pos, fun _ => iff_of_false List.not_mem_nil fun ⟨_, hl, _⟩ => List.not_mem_nil hl⟩

theorem Tracks.of_loaded {row : ℕ} {order : LogisticsOrder}
    (horder : s.logisticsOrder[row]? = some order) (hallocated : SelectedAllocated d)
    (hitems : (selected d).items = order.itemsCarried) : Tracks d (storedEmpty s row) := by
  refine ⟨hallocated, fun item => ?_⟩
  simp only [storedEmpty, horder, hitems]
  exact mem_emptyLines

theorem Tracks.appear (h : Tracks d left) (happear : viewWillAppear s d = .ok d') :
    Tracks d' (match d.vcMode, d.indexPath with
      | .modify, some row => storedEmpty s row
      | _, _ => left) := by
  cases hmode : d.vcMode with
  | create =>
    obtain rfl := viewWillAppear_create hmode happear
    exact h
  | modify =>
    cases hrow : d.indexPath with
    | none =>
      simp only [viewWillAppear, hmode, hrow] at happear
      exact Except.ok.inj happear ▸ h
    | some row =>
      obtain ⟨order, horder, hallocated, hitems⟩ := viewWillAppear_modify hmode hrow happear
      exact .of_loaded horder hallocated hitems

theorem Tracks.one_le (h : Tracks d []) : ∀ l ∈ (selected d).items, 1 ≤ l.quantity := by
  intro l hl
  by_contra hlt
  exact absurd ((h.mem_iff l.item).mpr ⟨l, hl, rfl, not_le.mp hlt⟩) List.not_mem_nil

theorem Tracks.tap {s : Store} {e : OrderEdit} {t : Tap} (h : Tracks d left)
    (ht : tapOf d e = some t) (he : edit s e d = .ok d') :
    Tracks d' (if t.OnSelected d then
      if t.quantity < 1 then t.item :: left else left.filter fun item => item ≠ t.item
      else left) := by
  have hw := written_of_tap h.allocated ht he
  refine ⟨?_, fun item => ?_⟩
  · unfold SelectedAllocated
    rw [hw.reference, hw.length]
    exact h.allocated
  · by_cases hsel : t.OnSelected d
    · rw [(OrderItems.put_ok (hw.put hsel)).1, if_pos hsel]
      exact mem_putLine_iff (h.mem_iff item)
    · rw [hw.other hsel, if_neg hsel]
      exact h.mem_iff item

theorem Tracks.edit {s : Store} {x : OrderEdit} (h : Tracks d left) (he : edit s x d = .ok d') :
    Tracks d' (match tapOf d x with
      | some t => if t.OnSelected d then
          if t.quantity < 1 then t.item :: left else left.filter fun item => item ≠ t.item
        else left
      | none => left) := by
  cases ht : tapOf d x with
  | some t => exact h.tap ht he
  | none =>
    obtain ⟨hobjects, hreference, -⟩ := selected_of_not_tap ht he
    have hselected : selected d' = selected d := by
      unfold selected
      rw [hobjects, hreference]
    exact ⟨by unfold SelectedAllocated; rw [hobjects, hreference]; exact h.allocated,
      hselected ▸ h.mem_iff⟩

/-- The history stays right over every event on the order screens. -/
theorem tracks_paneStep {written : Bool} {p : Pane LogisticsOrder OrderDetails}
    {e : PaneEvent OrderEdit} {r : PaneResult LogisticsOrder OrderDetails}
    (hp : ∀ d, p.details = some d → Tracks d left)
    (h : paneStep (orderControllers P edition) written s p e = .ok r) :
    ∀ d, r.pane.details = some d → Tracks d (leftEmpty s p e left) := by
  obtain ⟨filtered, isActive, details⟩ := p
  have hmove := paneStep_details h
  revert hmove
  generalize r.pane.details = details'
  rintro hmove d' rfl
  cases hmove with
  | create now _ happear =>
    have happear : viewWillAppear s (instantiate .create none now s) = .ok d' := happear
    obtain rfl := viewWillAppear_create rfl happear
    exact Tracks.new now
  | modify row now _ happear =>
    have happear : viewWillAppear s (instantiate .modify (some row) now s) = .ok d' := happear
    obtain ⟨order, horder, hallocated, hitems⟩ := viewWillAppear_modify rfl rfl happear
    exact .of_loaded horder hallocated hitems
  | edit x d _ hd' => exact (hp d rfl).edit hd'
  | appear d _ hd' => exact (hp d rfl).appear hd'
  | idle _ _ hedit happear =>
    have hleft : leftEmpty s ⟨filtered, isActive, some d'⟩ e left = left := by
      cases e with
      | edit x => exact absurd rfl (hedit x)
      | reappear => exact absurd rfl happear
      | _ => rfl
    exact hleft.symm ▸ hp d' rfl

end Pane

/-! ## The button -/

def savedOrder (d : OrderDetails) (s : Store) : Option LogisticsOrder :=
  match d.vcMode with
  | .create => s.logisticsOrder.getLast?
  | .modify => d.indexPath.bind fun row => s.logisticsOrder[row]?

/-- The checks of the button that come before the one of the lines pass. -/
structure ChecksBeforeLines (s : Store) (d : OrderDetails) : Prop where
  dates : d.departureDate ≤ d.arrivalDate
  create : d.vcMode = .create → ∃ id fromLocation toLocation, (d.form .tfOrderId).int? = some id ∧
    id ∉ keys s.logisticsOrder ∧ subscript s.locations d.fromRow = .ok fromLocation ∧
    subscript s.locations d.toRow = .ok toLocation
  modify : d.vcMode = .modify → ∃ row order, d.indexPath = some row ∧
    s.logisticsOrder[row]? = some order

/-- An accepted order carries something of each of its items, and an order without any quantity
is refused. -/
def CarriesSomething (P : Platform) (st : AppState) (i : Input) : Prop :=
  ∀ p d st', st.screen = .orders p → p.details = some d → i.event = .orders .createButtonTap →
    step P .assignment9 st i = .ok st' →
    (∀ message, st'.alerts = ⟨"Success", message⟩ :: st.alerts →
      ∃ order, savedOrder d st'.store = some order ∧ order.itemsCarried ≠ [] ∧
        ∀ l ∈ order.itemsCarried, 1 ≤ l.quantity) ∧
    (ChecksBeforeLines st.store d → (∀ l ∈ (selected d).items, l.quantity < 1) →
      st'.store = st.store ∧ st'.alerts = ⟨"Error", "Select atleast one item"⟩ :: st.alerts)

/-- A tap of the button that passes its checks finds no item left without a quantity. -/
def NothingEmpty (st : AppState × List Item) (i : Input) : Prop :=
  ∀ p d e, st.1.screen = .orders p → p.details = some d → i.event = .orders .createButtonTap →
    orderChanges.byButton st.1.store d e → st.2 = []

section Button
variable {s : Store} {d : OrderDetails} {e : Edit LogisticsOrder}

theorem savedOrder_of_byButton (h : orderChanges.byButton s d e) (written : Bool) :
    ∃ order, savedOrder d ((orderChanges.edit e).apply written s) = some order ∧
      order.itemsCarried = (selected d).items ∧ order.itemsCarried ≠ [] := by
  cases h with
  | create order hmode hnew hentered =>
    obtain ⟨-, -, -, old, henters⟩ := hentered
    refine ⟨order, ?_, henters.itemsCarried, henters.itemsCarried_ne⟩
    simp only [savedOrder, hmode]
    exact List.getLast?_concat
  | update row old new hmode hrow hold henters =>
    refine ⟨new, ?_, henters.itemsCarried, henters.itemsCarried_ne⟩
    have hlt : row < s.logisticsOrder.length := (List.getElem?_eq_some_iff.mp hold).choose
    simp only [savedOrder, hmode, hrow, Option.bind_some]
    exact List.getElem?_set_self hlt

theorem byButton_of_lines (h : ChecksBeforeLines s d) (hlines : (selected d).items ≠ []) :
    ∃ e, orderChanges.byButton s d e := by
  cases hmode : d.vcMode with
  | create =>
    obtain ⟨id, fromLocation, toLocation, hid, hnew, hfrom, hto⟩ := h.create hmode
    refine ⟨_, .create ⟨id, fromLocation, toLocation, d.departureDate, d.arrivalDate,
      (selected d).orderTotal, (selected d).items⟩ hmode hnew ⟨hid, hfrom, hto,
      ⟨id, fromLocation, toLocation, 0, 0, 0, []⟩, ?_⟩⟩
    exact ⟨rfl, rfl, rfl, rfl, rfl, h.dates, rfl, rfl, hlines⟩
  | modify =>
    obtain ⟨row, old, hrow, hold⟩ := h.modify hmode
    refine ⟨_, .update row old { old with
      departureDate := d.departureDate, estimatedArrivalDate := d.arrivalDate,
      cost := (selected d).orderTotal, itemsCarried := (selected d).items } hmode hrow hold ?_⟩
    exact ⟨rfl, rfl, rfl, rfl, rfl, h.dates, rfl, rfl, hlines⟩

theorem createButtonTapped_of_noLines (h : ChecksBeforeLines s d) (hlines : (selected d).items = [])
    (written : Bool) : createButtonTapped .assignment9 written d s =
      .error (.alert ⟨"Error", "Select atleast one item"⟩) := by
  have hentered : enteredOrder d = .error (.alert ⟨"Error", "Select atleast one item"⟩) := by
    unfold enteredOrder
    refine bind_error_iff.mpr (.inr ⟨(), refuseIf_ok_iff.mpr (not_lt.mpr h.dates), ?_⟩)
    exact bind_error_iff.mpr (.inl (by rw [hlines]; rfl))
  unfold createButtonTapped
  cases hmode : d.vcMode with
  | create =>
    obtain ⟨id, fromLocation, toLocation, hid, hnew, hfrom, hto⟩ := h.create hmode
    rw [if_pos rfl]
    refine bind_error_iff.mpr (.inr ⟨id, intOf_ok_iff.mpr hid, ?_⟩)
    refine bind_error_iff.mpr (.inr ⟨(), refuseIf_ok_iff.mpr ?_, ?_⟩)
    · rwa [firstIndex_isSome_iff]
    refine bind_error_iff.mpr (.inr ⟨(), refuseIf_ok_iff.mpr fun h => (nomatch h.1), ?_⟩)
    refine bind_error_iff.mpr (.inr ⟨_, trapping_ok_iff.mpr hfrom, ?_⟩)
    exact bind_error_iff.mpr (.inr ⟨_, trapping_ok_iff.mpr hto, bind_error_iff.mpr (.inl hentered)⟩)
  | modify =>
    obtain ⟨row, old, hrow, hold⟩ := h.modify hmode
    rw [if_neg (by decide)]
    simp only [updateOrder, hrow]
    exact bind_error_iff.mpr (.inl hentered)

theorem refused_of_checks (P : Platform) (h : ChecksBeforeLines s d) {written : Bool} {a : Exit}
    (ha : createButtonTapped .assignment9 written d s = .error a) :
    a = .alert ⟨"Error", "Select atleast one item"⟩ := by
  by_cases hlines : (selected d).items = []
  · rw [createButtonTapped_of_noLines h hlines] at ha
    exact (Except.error.inj ha).symm
  · obtain ⟨e, he⟩ := byButton_of_lines h hlines
    obtain ⟨-, message, htap⟩ := (orderControllers_carryOut P .assignment9).button he
    cases (htap written).symm.trans ha

end Button

/-! ## Runs -/

def Tracking (st : AppState × List Item) : Prop :=
  ∀ p d, st.1.screen = .orders p → p.details = some d → Tracks d st.2

section App
variable (P : Platform)

theorem step_preserves_tracking :
    ((step P .assignment9).withHistory recordEmpty).Preserves Machine.AnyStep Tracking := by
  rintro ⟨⟨s, screen, alerts⟩, left⟩ ⟨e, written⟩ ⟨st', left'⟩ htracks - h
  obtain ⟨hstep, hleft⟩ := ((step P .assignment9).withHistory_ok_iff recordEmpty).mp h
  dsimp only at hstep hleft
  subst hleft
  cases step_move hstep with
  | openOrders =>
    intro p d hp hd
    cases hp
    cases hd
  | orders p e r hr =>
    intro q d hq hd
    cases hq
    exact tracks_paneStep (fun d => htracks p d rfl) hr d hd
  | stay _ _ _ _ ho =>
    intro p d hp hd
    obtain rfl : screen = .orders p := hp
    have hleft : recordEmpty ⟨s, .orders p, alerts⟩ ⟨e, written⟩ ⟨s, .orders p, alerts⟩ left =
        left := by
      cases e with
      | orders x => exact absurd rfl (ho p x rfl)
      | _ => rfl
    rw [hleft]
    exact htracks p d rfl hd
  | _ =>
    intro p d hp
    cases hp

theorem step_of_byButton {s : Store} {p : Pane LogisticsOrder OrderDetails} {d : OrderDetails}
    {e : Edit LogisticsOrder} (hd : p.details = some d) (he : orderChanges.byButton s d e)
    (alerts : List Alert) (written : Bool) : ∃ message,
      step P .assignment9 ⟨s, .orders p, alerts⟩ ⟨.orders .createButtonTap, written⟩ =
        .ok ⟨(orderChanges.edit e).apply written s, .orders p, ⟨"Success", message⟩ :: alerts⟩ := by
  obtain ⟨-, message, htap⟩ := (orderControllers_carryOut P .assignment9).button he
  refine ⟨message, map_ok_iff.mpr ⟨⟨_, p, [⟨"Success", message⟩]⟩, ?_, rfl⟩⟩
  simp only [paneStep, hd, htap]
  rfl

theorem carriesSomething_iff {st : AppState × List Item} (hst : Tracking st) (i : Input) :
    CarriesSomething P st.1 i ↔ NothingEmpty st i := by
  obtain ⟨⟨s, screen, alerts⟩, left⟩ := st
  obtain ⟨event, written⟩ := i
  constructor
  · rintro h p d e hp hd hevent he
    cases hp
    cases hevent
    obtain ⟨message, hstep⟩ := step_of_byButton P hd he alerts written
    obtain ⟨order, hsaved, -, hquantity⟩ := (h p d _ rfl hd rfl hstep).1 message rfl
    obtain ⟨order', hsaved', hitems, -⟩ := savedOrder_of_byButton he written
    obtain rfl : order = order' := Option.some.inj (hsaved.symm.trans hsaved')
    refine List.eq_nil_iff_forall_not_mem.mpr fun item hitem => ?_
    obtain ⟨l, hl, -, hlt⟩ := ((hst p d rfl hd).mem_iff item).mp hitem
    exact absurd (hquantity l (hitems ▸ hl)) (not_le.mpr hlt)
  · rintro h p d st' hp hd hevent hstep
    cases hp
    cases hevent
    obtain ⟨r, hr, rfl⟩ := map_ok_iff.mp hstep
    simp only [paneStep, hd] at hr
    change settle _ _ (createButtonTapped .assignment9 written d s) = _ at hr
    rcases htap : createButtonTapped .assignment9 written d s with (a | _ | t) | ⟨s', a⟩
    · rw [htap] at hr
      obtain rfl := Except.ok.inj hr
      refine ⟨fun message hsuccess => ?_, fun hchecks _ => ?_⟩
      · have hrefused : a.title = "Error" := refuses_createButtonTapped .assignment9 written d s _ htap
        rw [(List.cons.inj hsuccess).1] at hrefused
        exact absurd (show "Success" = "Error" from hrefused) (by decide)
      · exact ⟨rfl, by rw [Exit.alert.inj (refused_of_checks P hchecks htap)]; rfl⟩
    · rw [htap] at hr
      obtain rfl := Except.ok.inj hr
      refine ⟨fun message hsuccess => absurd hsuccess.symm (List.cons_ne_self _ _), fun hchecks _ => ?_⟩
      cases refused_of_checks P hchecks htap
    · rw [htap] at hr
      cases hr
    · rw [htap] at hr
      obtain rfl := Except.ok.inj hr
      obtain ⟨e, he, rfl⟩ := (orderControllers_carryOut P .assignment9).tap_ok htap
      obtain ⟨order, hsaved, hitems, hne⟩ := savedOrder_of_byButton he written
      have hleft : left = [] := h p d e rfl hd rfl he
      subst hleft
      have hquantity := (hst p d rfl hd).one_le
      refine ⟨fun message _ => ⟨order, hsaved, hne, hitems ▸ hquantity⟩, fun _ hall => ?_⟩
      obtain ⟨l, hl⟩ := List.exists_mem_of_ne_nil _ (hitems ▸ hne)
      exact absurd (hquantity l hl) (not_le.mpr (hall l hl))

/-- For every database at launch and every run: an accepted order has an entry and all its
quantities are positive, and an order without any quantity is refused, if and only if no tap of
the button that passes its checks finds an item left without a quantity. -/
theorem run_carriesSomething_iff (db : Database) (inputs : List Input) :
    ((step P .assignment9).withHistory recordEmpty).Meets (fun st => CarriesSomething P st.1)
        (AppState.atMenu (generateDummyData db), []) inputs ↔
      ((step P .assignment9).withHistory recordEmpty).Meets NothingEmpty
        (AppState.atMenu (generateDummyData db), []) inputs :=
  Machine.meets_congr_of_meets
    (fun st i st' hst _ h => step_preserves_tracking P st i st' hst trivial h)
    (fun _ i hst _ => carriesSomething_iff P hst i) (fun _ _ hp => (nomatch hp))
    (Machine.meets_anyStep _ inputs)

/-- Tap the lamp of a new order up and down again, and create the order. -/
def Sample.tappedBack : List Input :=
  [⟨.openOrders, true⟩, ⟨.orders (.addTapped 0), true⟩,
    ⟨.orders (.edit (.type .tfOrderId "6")), true⟩, ⟨.orders (.edit (.cellForRowAt none 0)), true⟩,
    ⟨.orders (.edit (.btnIncreaseTap 0)), true⟩, ⟨.orders (.edit (.btnDecreaseTap 0)), true⟩,
    ⟨.orders .createButtonTap, true⟩]

/-- The order is accepted and carries no lamp. -/
theorem run_tappedBack :
    (∃ st left, ((step Platform.ascii .assignment9).withHistory recordEmpty).run
        (AppState.atMenu (generateDummyData Sample.database), []) Sample.tappedBack =
          .ok (st, left) ∧
      st.alerts = [⟨"Success", "Order created successfully"⟩] ∧
      (st.store.logisticsOrder.getLast?.map LogisticsOrder.itemsCarried) =
        some [⟨Sample.lamp, 0⟩]) ∧
    ¬ ((step Platform.ascii .assignment9).withHistory recordEmpty).Meets
      (fun st => CarriesSomething Platform.ascii st.1)
      (AppState.atMenu (generateDummyData Sample.database), []) Sample.tappedBack := by
  refine ⟨⟨_, _, rfl, rfl, rfl⟩, fun h => ?_⟩
  obtain ⟨-, h⟩ := h
  obtain ⟨-, h⟩ := h _ rfl
  obtain ⟨-, h⟩ := h _ rfl
  obtain ⟨-, h⟩ := h _ rfl
  obtain ⟨-, h⟩ := h _ rfl
  obtain ⟨-, h⟩ := h _ rfl
  obtain ⟨order, hsaved, -, hquantity⟩ := ((h _ rfl).1 _ _ _ rfl rfl rfl rfl).1 _ rfl
  obtain rfl := Option.some.inj hsaved
  exact absurd (hquantity ⟨Sample.lamp, 0⟩ (List.mem_singleton_self _)) (by decide)

end App
end Info6350.TableApp
