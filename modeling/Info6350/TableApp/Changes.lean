import Info6350.TableApp.App

/-! # What the handlers carry out

The button of a details screen and the swipe-delete of a list each ask for one edit of one
array.  `Changes` says which edits their checks let through, in terms of the inputs and of
the store before the step; `CarryOut` says that the handlers make these edits, report
their success and make no others.
-/

namespace Info6350.TableApp
open Library Swift Logistics

/-- The changes that a pair of controllers lets through: what the button of the details
screen asks for, and the rows that may be deleted. -/
structure Changes (α δ : Type) where
  edit : Edit α → StoreEdit
  byButton : Store → δ → Edit α → Prop
  bySwipe : Store → ℕ → Prop

section Controllers
variable {α δ ω : Type}

inductive Changes.Asks (R : Changes α δ) (s : Store) : Edit α → Prop where
  | button (d e) : R.byButton s d e → R.Asks s e
  | swipe (row) : R.bySwipe s row → R.Asks s (.delete row)

/-- The handlers carry out these changes and no others, whatever the database answers. -/
structure Controllers.CarryOut (C : Controllers α δ ω) (R : Changes α δ) : Prop where
  array : ∀ {written s e}, C.array ((R.edit e).apply written s) = e.onList (C.array s)
  button : ∀ {s d e}, R.byButton s d e → (R.edit e).Legal s ∧ ∃ message, ∀ written,
    C.createButtonTap written d s = .ok ((R.edit e).apply written s, ⟨"Success", message⟩)
  button_ok : ∀ {written s d r}, C.createButtonTap written d s = .ok r → ∃ e, R.byButton s d e
  button_stops : ∀ written d s, Stops Exit.Unsuccessful (C.createButtonTap written d s)
  swipe : ∀ {s row}, R.bySwipe s row → row < (C.array s).length ∧
    (R.edit (.delete row)).Legal s ∧ ∀ written, C.commitDelete written (C.array s) row s =
      .ok ((R.edit (.delete row)).apply written s, (Edit.delete row).onList (C.array s))
  swipe_ok : ∀ {written s row r}, C.commitDelete written (C.array s) row s = .ok r →
    R.bySwipe s row
  swipe_stops : ∀ written filtered row s,
    Stops Exit.Unsuccessful (C.commitDelete written filtered row s)

variable {C : Controllers α δ ω} {R : Changes α δ}

theorem Changes.Asks.legal {s : Store} {e : Edit α} (h : R.Asks s e) (K : C.CarryOut R) :
    (R.edit e).Legal s := by
  cases h with
  | button d e he => exact (K.button he).1
  | swipe row hrow => exact (K.swipe hrow).2.1

theorem Controllers.CarryOut.tap_ok (K : C.CarryOut R) {written : Bool} {s s' : Store} {d : δ}
    {a : Alert} (h : C.createButtonTap written d s = .ok (s', a)) :
    ∃ e, R.byButton s d e ∧ s' = (R.edit e).apply written s := by
  obtain ⟨e, he⟩ := K.button_ok h
  obtain ⟨-, message, htap⟩ := K.button he
  rw [htap] at h
  exact ⟨e, he, (congrArg Prod.fst (Except.ok.inj h)).symm⟩

theorem Controllers.CarryOut.delete_ok (K : C.CarryOut R) {written : Bool} {s s' : Store} {row : ℕ}
    {filtered : List α} (h : C.commitDelete written (C.array s) row s = .ok (s', filtered)) :
    R.bySwipe s row ∧ s' = (R.edit (.delete row)).apply written s ∧ filtered = C.array s' := by
  have hrow := K.swipe_ok h
  obtain ⟨-, -, hdelete⟩ := K.swipe hrow
  rw [hdelete] at h
  obtain ⟨rfl, rfl⟩ := Prod.mk.inj (Except.ok.inj h)
  exact ⟨hrow, rfl, K.array.symm⟩

end Controllers

/-! ## The three pairs of controllers -/

/-- What the button of a details screen asks for: a record with a new key that is entered, or
the record at the row with the entries over it. -/
inductive Button {α : Type} [Keyed α ℤ] (array : List α) (vcMode : ViewControllerMode)
    (indexPath : Option ℕ) (entersNew : α → Prop) (enters : α → α → Prop) : Edit α → Prop where
  | create (x) : vcMode = .create → Keyed.key x ∉ keys array → entersNew x →
      Button array vcMode indexPath entersNew enters (.create x)
  | update (row old new) : vcMode = .modify → indexPath = some row → array[row]? = some old →
      enters old new → Button array vcMode indexPath entersNew enters (.update row new)

theorem Button.legal {α : Type} [Keyed α ℤ] {array : List α} {vcMode : ViewControllerMode}
    {indexPath : Option ℕ} {entersNew : α → Prop} {enters : α → α → Prop}
    (hkey : ∀ old new, enters old new → Keyed.key new = Keyed.key old) {e : Edit α}
    (h : Button array vcMode indexPath entersNew enters e) : e.Legal array := by
  cases h with
  | create x _ hnew _ => exact hnew
  | update row old new _ _ hold henters => exact ⟨old, hold, (hkey old new henters).symm⟩

/-- An item may be deleted when no order carries it. -/
def itemChanges : Changes Item ItemDetails where
  edit := .items
  byButton s d := Button s.items d.vcMode d.indexPath
    (fun item => (d.form .tfItemId).int? = some item.id ∧
      ∃ old, ItemDetailsViewController.Enters d old item)
    (ItemDetailsViewController.Enters d)
  bySwipe s row := ∃ item, s.items[row]? = some item ∧
    ∀ o ∈ s.logisticsOrder, ∀ l ∈ o.itemsCarried, l.item.id ≠ item.id

/-- A location may be deleted when no order uses it. -/
def locationChanges : Changes Location LocationDetails where
  edit := .locations
  byButton s d := Button s.locations d.vcMode d.indexPath
    (fun location => (d.form .tfLocationId).int? = some location.id ∧
      ∃ old, LocationDetailsViewController.Enters d old location)
    (LocationDetailsViewController.Enters d)
  bySwipe s row := ∃ location, s.locations[row]? = some location ∧
    ∀ o ∈ s.logisticsOrder, o.toLocation.id ≠ location.id ∧ o.fromLocation.id ≠ location.id

/-- A new order is between the locations at the rows of the pickers. -/
def orderChanges : Changes LogisticsOrder OrderDetails where
  edit := .orders
  byButton s d := Button s.logisticsOrder d.vcMode d.indexPath
    (fun order => (d.form .tfOrderId).int? = some order.id ∧
      subscript s.locations d.fromRow = .ok order.fromLocation ∧
      subscript s.locations d.toRow = .ok order.toLocation ∧
      ∃ old, LogisticOrderDetailsViewController.Enters d old order)
    (LogisticOrderDetailsViewController.Enters d)
  bySwipe s row := row < s.logisticsOrder.length

section CarryOut
variable (P : Platform)

theorem itemControllers_carryOut : (itemControllers P).CarryOut itemChanges where
  array := rfl
  button {s d e} h := by
    refine ⟨h.legal fun old new henters => henters.id, ?_⟩
    change ∃ message, ∀ written, ItemDetailsViewController.createButtonTap written d s = _
    unfold ItemDetailsViewController.createButtonTap
    cases h with
    | create item hmode hnew hentered =>
      obtain ⟨htext, old, henters⟩ := hentered
      refine ⟨"Item created successfully", fun written => ?_⟩
      rw [hmode, if_neg (by decide)]
      exact ItemDetailsViewController.createItem_of_enters htext hnew henters written
    | update row old new hmode hrow hold henters =>
      refine ⟨"Item updated successfully", fun written => ?_⟩
      rw [if_pos hmode]
      exact ItemDetailsViewController.updateItem_of_enters hrow hold henters
  button_ok {written s d r} h := by
    change ItemDetailsViewController.createButtonTap written d s = _ at h
    unfold ItemDetailsViewController.createButtonTap at h
    split_ifs at h with hmode
    · obtain ⟨row, old, new, hrow, hold, henters, -⟩ := ItemDetailsViewController.updateItem_ok h
      exact ⟨_, .update row old new hmode hrow hold henters⟩
    · have hmode : d.vcMode = .create := ViewControllerMode.ne_modify_iff.mp hmode
      obtain ⟨item, old, hnew, henters, htext, -⟩ := ItemDetailsViewController.createItem_ok h
      exact ⟨_, .create item hmode hnew ⟨htext, old, henters⟩⟩
  button_stops written d s :=
    (ItemDetailsViewController.refuses_createButtonTap written d s).unsuccessful
  swipe {s row} h := by
    obtain ⟨item, hitem, hunused⟩ := h
    have hrow : row < s.items.length := (List.getElem?_eq_some_iff.mp hitem).choose
    exact ⟨hrow, hrow, ItemsTableViewController.commitDelete_of_unused hitem hunused⟩
  swipe_ok {written s row r} h := by
    obtain ⟨item, hitem, hunused, -⟩ := ItemsTableViewController.commitDelete_ok h
    exact ⟨item, hitem, hunused⟩
  swipe_stops := ItemsTableViewController.commitDelete_unsuccessful

theorem locationControllers_carryOut : (locationControllers P).CarryOut locationChanges where
  array := rfl
  button {s d e} h := by
    refine ⟨h.legal fun old new henters => henters.id, ?_⟩
    change ∃ message, ∀ written, LocationDetailsViewController.createButtonTapped written d s = _
    unfold LocationDetailsViewController.createButtonTapped
    cases h with
    | create location hmode hnew hentered =>
      obtain ⟨htext, old, henters⟩ := hentered
      refine ⟨"Location created successfully", fun written => ?_⟩
      rw [hmode, if_neg (by decide)]
      exact LocationDetailsViewController.createLocation_of_enters htext hnew henters written
    | update row old new hmode hrow hold henters =>
      refine ⟨"Item updated successfully", fun written => ?_⟩
      rw [if_pos hmode]
      exact LocationDetailsViewController.updateLocation_of_enters hrow hold henters
  button_ok {written s d r} h := by
    change LocationDetailsViewController.createButtonTapped written d s = _ at h
    unfold LocationDetailsViewController.createButtonTapped at h
    split_ifs at h with hmode
    · obtain ⟨row, old, new, hrow, hold, henters, -⟩ :=
        LocationDetailsViewController.updateLocation_ok h
      exact ⟨_, .update row old new hmode hrow hold henters⟩
    · have hmode : d.vcMode = .create := ViewControllerMode.ne_modify_iff.mp hmode
      obtain ⟨location, old, hnew, henters, htext, -⟩ :=
        LocationDetailsViewController.createLocation_ok h
      exact ⟨_, .create location hmode hnew ⟨htext, old, henters⟩⟩
  button_stops written d s :=
    (LocationDetailsViewController.refuses_createButtonTapped written d s).unsuccessful
  swipe {s row} h := by
    obtain ⟨location, hlocation, hunused⟩ := h
    have hrow : row < s.locations.length := (List.getElem?_eq_some_iff.mp hlocation).choose
    exact ⟨hrow, hrow, LocationTableViewController.commitDelete_of_unused hlocation hunused⟩
  swipe_ok {written s row r} h := by
    obtain ⟨location, hlocation, hunused, -⟩ := LocationTableViewController.commitDelete_ok h
    exact ⟨location, hlocation, hunused⟩
  swipe_stops := LocationTableViewController.commitDelete_unsuccessful

theorem orderControllers_carryOut (edition : Edition) :
    (orderControllers P edition).CarryOut orderChanges where
  array := rfl
  button {s d e} h := by
    refine ⟨h.legal fun old new henters => henters.id, ?_⟩
    change ∃ message, ∀ written,
      LogisticOrderDetailsViewController.createButtonTapped edition written d s = _
    unfold LogisticOrderDetailsViewController.createButtonTapped
    cases h with
    | create order hmode hnew hentered =>
      obtain ⟨htext, hfrom, hto, old, henters⟩ := hentered
      refine ⟨"Order created successfully", fun written => ?_⟩
      rw [if_pos hmode]
      exact LogisticOrderDetailsViewController.createOrder_of_enters htext hnew hfrom hto henters
        edition written
    | update row old new hmode hrow hold henters =>
      refine ⟨"Order updated successfully", fun written => ?_⟩
      rw [hmode, if_neg (by decide)]
      exact LogisticOrderDetailsViewController.updateOrder_of_enters hrow hold henters
  button_ok {written s d r} h := by
    change LogisticOrderDetailsViewController.createButtonTapped edition written d s = _ at h
    unfold LogisticOrderDetailsViewController.createButtonTapped at h
    split_ifs at h with hmode
    · obtain ⟨order, old, hnew, henters, hfrom, hto, htext, -⟩ :=
        LogisticOrderDetailsViewController.createOrder_subscripts h
      exact ⟨_, .create order hmode hnew ⟨htext, hfrom, hto, old, henters⟩⟩
    · have hmode : d.vcMode = .modify := ViewControllerMode.ne_create_iff.mp hmode
      obtain ⟨row, old, new, hrow, hold, henters, -⟩ :=
        LogisticOrderDetailsViewController.updateOrder_ok h
      exact ⟨_, .update row old new hmode hrow hold henters⟩
  button_stops written d s :=
    (LogisticOrderDetailsViewController.refuses_createButtonTapped edition written d s).unsuccessful
  swipe {s row} h := ⟨h, h, LogisticOrderTableViewController.commitDelete_of_row h⟩
  swipe_ok {written s row r} h := (LogisticOrderTableViewController.commitDelete_ok h).1
  swipe_stops := LogisticOrderTableViewController.commitDelete_unsuccessful

end CarryOut

end Info6350.TableApp
