import Info6350.TableApp.ListKind
import Info6350.TableApp.AcceptedEntries

/-! # The record that is edited

The three list screens as instances of `ListKind`.  With an active search that hides an
earlier record, the row that is tapped and the row that is edited are different records.
-/

namespace Info6350.TableApp
open Library Swift Logistics

theorem exists_text_ne (a b : String) : ∃ text : String, text ≠ "" ∧ text ≠ a ∧ text ≠ b := by
  have hlength : (a ++ b ++ "x").length = a.length + b.length + 1 := by
    rw [String.length_append, String.length_append]
    rfl
  refine ⟨a ++ b ++ "x", fun h => ?_, fun h => ?_, fun h => ?_⟩ <;> rw [h] at hlength
  · exact absurd hlength.symm (Nat.succ_ne_zero _)
  · omega
  · omega

theorem exists_date_ne (a b : Date) : ∃ date : Date, date ≠ a ∧ date ≠ b :=
  ⟨max a b + 1, ((le_max_left a b).trans_lt (lt_add_one _)).ne',
    ((le_max_right a b).trans_lt (lt_add_one _)).ne'⟩

namespace ItemDetailsViewController

/-- The details of a row in modify mode, with the name open to the user. -/
structure AtRow (row : ℕ) (d : ItemDetails) : Prop where
  vcMode : d.vcMode = .modify
  indexPath : d.indexPath = some row
  isEnabled : (d.form .tfItemName).isEnabled = true

theorem atRow_viewWillAppear {P : Platform} {s : Store} {row : ℕ} {d : ItemDetails}
    (h : viewWillAppear P s (instantiate .modify (some row)) = .ok d) : AtRow row d := by
  obtain ⟨item, -, h⟩ := bind_ok_iff.mp h
  obtain rfl := pure_ok_iff.mp h
  exact ⟨rfl, rfl, rfl⟩

theorem atRow_edit {row : ℕ} {d : ItemDetails} (h : AtRow row d) (e : ItemEdit) :
    AtRow row (edit e d) := by
  cases e with
  | type f text => exact ⟨h.vcMode, h.indexPath, by simpa [edit] using h.isEnabled⟩
  | pickImage image => exact ⟨h.vcMode, h.indexPath, h.isEnabled⟩

theorem AtRow.enters_name {row : ℕ} {d : ItemDetails} (hd : AtRow row d) {old new : Item}
    (h : Enters d old new) {name : String} (hname : name ≠ "") :
    Enters (edit (.type .tfItemName name) d) old { new with name := name } := by
  have hne : ∀ f, f ≠ .tfItemName → d.form.type .tfItemName name f = d.form f :=
    fun f hf => Form.type_of_ne hf name d.form
  refine ⟨h.imageData, h.id, Form.type_text hd.isEnabled name, hname, ?_, ?_, h.weight_pos, ?_,
    h.value_pos⟩
  · simpa [edit, hne] using h.desc
  · simpa [edit, hne] using h.weight
  · simpa [edit, hne] using h.value

end ItemDetailsViewController

namespace LocationDetailsViewController

structure AtRow (row : ℕ) (d : LocationDetails) : Prop where
  vcMode : d.vcMode = .modify
  indexPath : d.indexPath = some row
  isEnabled : (d.form .tfStreetName).isEnabled = true

theorem atRow_viewWillAppear {s : Store} {row : ℕ} {d : LocationDetails}
    (h : viewWillAppear s (instantiate .modify (some row)) = .ok d) : AtRow row d := by
  obtain ⟨location, -, h⟩ := bind_ok_iff.mp h
  obtain rfl := pure_ok_iff.mp h
  exact ⟨rfl, rfl, rfl⟩

theorem atRow_edit {row : ℕ} {d : LocationDetails} (h : AtRow row d) (e : LocationEdit) :
    AtRow row (edit e d) := by
  cases e with
  | type f text =>
    refine ⟨h.vcMode, h.indexPath, ?_⟩
    simpa [edit] using h.isEnabled

theorem AtRow.enters_street {row : ℕ} {d : LocationDetails} (hd : AtRow row d)
    {old new : Location} (h : Enters d old new) {street : String} (hstreet : street ≠ "") :
    Enters (edit (.type .tfStreetName street) d) old
      { new with street := street } := by
  have hne : ∀ f, f ≠ .tfStreetName → d.form.type .tfStreetName street f = d.form f :=
    fun f hf => Form.type_of_ne hf street d.form
  refine ⟨h.id, Form.type_text hd.isEnabled street, hstreet, ?_, h.city_ne, ?_, h.state_ne, ?_,
    h.country_ne, ?_⟩
  · simpa [edit, hne] using h.city
  · simpa [edit, hne] using h.state
  · simpa [edit, hne] using h.country
  · simpa [edit, hne] using h.zip

end LocationDetailsViewController

namespace LogisticOrderDetailsViewController

structure AtRow (row : ℕ) (d : OrderDetails) : Prop where
  vcMode : d.vcMode = .modify
  indexPath : d.indexPath = some row

theorem atRow_viewWillAppear {s : Store} {row : ℕ} {now : Date} {d : OrderDetails}
    (h : viewWillAppear s (instantiate .modify (some row) now s) = .ok d) : AtRow row d := by
  obtain ⟨order, -, h⟩ := bind_ok_iff.mp h
  obtain ⟨object, -, h⟩ := bind_ok_iff.mp h
  obtain rfl := pure_ok_iff.mp h
  exact ⟨rfl, rfl⟩

theorem atRow_edit {s : Store} {row : ℕ} {d d' : OrderDetails} {e : OrderEdit}
    (h : AtRow row d) (he : edit s e d = .ok d') : AtRow row d' := by
  have hframe := edit_frame he
  exact ⟨hframe.1.trans h.vcMode, hframe.2.trans h.indexPath⟩

theorem enters_dates {d : OrderDetails} {old new : LogisticsOrder} (h : Enters d old new)
    (date : Date) :
    Enters { d with departureDate := date, arrivalDate := date } old
      { new with departureDate := date, estimatedArrivalDate := date } :=
  ⟨h.id, h.fromLocation, h.toLocation, rfl, rfl, le_refl _, h.cost, h.itemsCarried,
    h.itemsCarried_ne⟩

end LogisticOrderDetailsViewController

section Kinds
variable (P : Platform)

def itemKind : ListKind Item ItemDetails ItemEdit where
  controllers := itemControllers P
  screen := .items
  event := .items
  table := Database.item
  Enters := ItemDetailsViewController.Enters
  CanUpdate _ _ := True
  SameOthers s s' := s.SameLocations s' ∧ s.SameOrders s'

def locationKind : ListKind Location LocationDetails LocationEdit where
  controllers := locationControllers P
  screen := .locations
  event := .locations
  table := Database.location
  Enters := LocationDetailsViewController.Enters
  CanUpdate _ _ := True
  SameOthers s s' := s.SameItems s' ∧ s.SameOrders s'

def orderKind : ListKind LogisticsOrder OrderDetails OrderEdit where
  controllers := orderControllers P .assignment9
  screen := .orders
  event := .orders
  table := Database.logisticsorder
  Enters := LogisticOrderDetailsViewController.Enters
  CanUpdate := LogisticOrderDetailsViewController.CanUpdate
  SameOthers s s' := s.SameItems s' ∧ s.SameLocations s'

open ItemDetailsViewController in
theorem itemKind_lawful : (itemKind P).Lawful P AtRow where
  screen_injective _ _ h := Screen.items.inj h
  step_eq _ _ _ _ _ := rfl
  load h := atRow_viewWillAppear h
  edit {row s e d d'} hd h := by
    obtain rfl := Except.ok.inj h
    exact atRow_edit hd e
  refuses {row w d s} _ := refuses_createButtonTap w d s
  tap_ok {row w d s s' a} hd h := by
    change createButtonTap w d s = _ at h
    rw [createButtonTap, if_pos hd.vcMode] at h
    obtain ⟨row', old, new, hrow, hold, henters, rfl, rfl⟩ := updateItem_ok h
    obtain rfl : row = row' := Option.some.inj (hd.indexPath.symm.trans hrow)
    exact ⟨rfl, old, new, hold, henters, rfl, rfl, ⟨rfl, rfl⟩, ⟨rfl, rfl⟩⟩
  tap_of_enters hd hold henters :=
    ⟨_, _, (if_pos hd.vcMode).trans (updateItem_of_enters hd.indexPath hold henters)⟩
  key_enters h := h.id
  canUpdate_iff {s row now} hrow := by
    refine iff_of_true ?_ trivial
    have hitem : s.items[row]? = some s.items[row] := List.getElem?_eq_getElem hrow
    obtain ⟨d₀, edits, d, new, hload, hrun, henters⟩ := exists_enters P hitem
    exact ⟨d₀, edits, d, _, new, hload, hrun, hitem, henters⟩
  vary {row s d old new} hd h y z := by
    obtain ⟨name, hname, hy, hz⟩ := exists_text_ne y.name z.name
    refine ⟨[.type .tfItemName name], _, rfl, ⟨_, hd.enters_name h hname⟩, fun o n hn => ?_⟩
    have hentered : n.name = name :=
      Option.some.inj (hn.name.symm.trans (Form.type_text hd.isEnabled name))
    exact ⟨fun h => hy (h ▸ hentered).symm, fun h => hz (h ▸ hentered).symm⟩

open LocationDetailsViewController in
theorem locationKind_lawful : (locationKind P).Lawful P AtRow where
  screen_injective _ _ h := Screen.locations.inj h
  step_eq _ _ _ _ _ := rfl
  load h := atRow_viewWillAppear h
  edit {row s e d d'} hd h := by
    obtain rfl := Except.ok.inj h
    exact atRow_edit hd e
  refuses {row w d s} _ := refuses_createButtonTapped w d s
  tap_ok {row w d s s' a} hd h := by
    change createButtonTapped w d s = _ at h
    rw [createButtonTapped, if_pos hd.vcMode] at h
    obtain ⟨row', old, new, hrow, hold, henters, rfl, rfl⟩ := updateLocation_ok h
    obtain rfl : row = row' := Option.some.inj (hd.indexPath.symm.trans hrow)
    exact ⟨rfl, old, new, hold, henters, rfl, rfl, ⟨rfl, rfl⟩, ⟨rfl, rfl⟩⟩
  tap_of_enters hd hold henters :=
    ⟨_, _, (if_pos hd.vcMode).trans (updateLocation_of_enters hd.indexPath hold henters)⟩
  key_enters h := h.id
  canUpdate_iff {s row now} hrow := by
    refine iff_of_true ?_ trivial
    have hlocation : s.locations[row]? = some s.locations[row] := List.getElem?_eq_getElem hrow
    obtain ⟨d₀, edits, d, new, hload, hrun, henters⟩ := exists_enters hlocation
    exact ⟨d₀, edits, d, _, new, hload, hrun, hlocation, henters⟩
  vary {row s d old new} hd h y z := by
    obtain ⟨street, hstreet, hy, hz⟩ := exists_text_ne y.street z.street
    refine ⟨[.type .tfStreetName street], _, rfl, ⟨_, hd.enters_street h hstreet⟩,
      fun o n hn => ?_⟩
    have hentered : n.street = street :=
      Option.some.inj (hn.street.symm.trans (Form.type_text hd.isEnabled street))
    exact ⟨fun h => hy (h ▸ hentered).symm, fun h => hz (h ▸ hentered).symm⟩

open LogisticOrderDetailsViewController in
theorem orderKind_lawful : (orderKind P).Lawful P AtRow where
  screen_injective _ _ h := Screen.orders.inj h
  step_eq _ _ _ _ _ := rfl
  load h := atRow_viewWillAppear h
  edit hd h := atRow_edit hd h
  refuses {row w d s} _ := refuses_createButtonTapped .assignment9 w d s
  tap_ok {row w d s s' a} hd h := by
    have hmode : d.vcMode ≠ .create := by rw [hd.vcMode]; decide
    change createButtonTapped .assignment9 w d s = _ at h
    rw [createButtonTapped, if_neg hmode] at h
    obtain ⟨row', old, new, hrow, hold, henters, rfl, rfl⟩ := updateOrder_ok h
    obtain rfl : row = row' := Option.some.inj (hd.indexPath.symm.trans hrow)
    exact ⟨rfl, old, new, hold, henters, rfl, rfl, ⟨rfl, rfl⟩, ⟨rfl, rfl⟩⟩
  tap_of_enters {row w d s old new} hd hold henters := by
    have hmode : d.vcMode ≠ .create := by rw [hd.vcMode]; decide
    exact ⟨_, _, (if_neg hmode).trans (updateOrder_of_enters hd.indexPath hold henters)⟩
  key_enters h := h.id
  canUpdate_iff _ := exists_enters_iff
  vary {row s d old new} hd h y z := by
    obtain ⟨date, hy, hz⟩ := exists_date_ne y.departureDate z.departureDate
    refine ⟨[.pickDeparture date, .pickArrival date], _, rfl, ⟨_, enters_dates h date⟩,
      fun o n hn => ?_⟩
    have hentered : n.departureDate = date := hn.departureDate
    exact ⟨fun h => hy (h ▸ hentered).symm, fun h => hz (h ▸ hentered).symm⟩

end Kinds

/-- In every state that a launch reaches, with any outcome of the writes, and for every row on
a list screen: the accepted entries on the tapped row change exactly the displayed record, in
memory and in the database, if and only if the row of the unfiltered array holds this record,
the database accepts the write and has a row with its id, or the row is that of an order that
cannot be updated at all. -/
theorem run_updatesDisplayed_iff (P : Platform) (db : Database) {inputs : List Input}
    {st : AppState}
    (h : (step P .assignment9).run (AppState.atMenu (generateDummyData db)) inputs = .ok st)
    (row : ℕ) (now : Date) (written : Bool) :
    (∀ x, (itemKind P).Shows st row x →
      ((∀ edits st', (itemKind P).Updates P st row now edits written st' →
        (itemKind P).ChangesExactly x st st') ↔ (itemKind P).SameRow st row x written)) ∧
    (∀ x, (locationKind P).Shows st row x →
      ((∀ edits st', (locationKind P).Updates P st row now edits written st' →
        (locationKind P).ChangesExactly x st st') ↔
      (locationKind P).SameRow st row x written)) ∧
    (∀ x, (orderKind P).Shows st row x →
      ((∀ edits st', (orderKind P).Updates P st row now edits written st' →
        (orderKind P).ChangesExactly x st st') ↔
      (LogisticOrderDetailsViewController.CanUpdate st.store row →
        (orderKind P).SameRow st row x written))) := by
  obtain ⟨hids, hscreen⟩ :=
    run_distinctIds P .assignment9 (Store.generateDummyData_matches db).distinctIds h
  obtain ⟨s, screen, alerts⟩ := st
  refine ⟨fun x hx => ?_, fun x hx => ?_, fun x hx => ?_⟩
  · refine ((itemKind_lawful P).updatesDisplayed_iff hids.items (fun p hp hd => ?_) hx now
      written).trans true_imp_iff
    cases hp
    exact Pane.Coherent.sublist hscreen hd
  · refine ((locationKind_lawful P).updatesDisplayed_iff hids.locations (fun p hp hd => ?_) hx now
      written).trans true_imp_iff
    cases hp
    exact Pane.Coherent.sublist hscreen hd
  · refine (orderKind_lawful P).updatesDisplayed_iff hids.logisticsOrder (fun p hp hd => ?_) hx now
      written
    cases hp
    exact Pane.Coherent.sublist hscreen hd

def Sample.searchChair : List Input := [⟨.openItems, true⟩, ⟨.items (.search "chair"), true⟩]

/-- The only row displayed is the chair; the update that it leads to renames the lamp. -/
theorem run_searchChair :
    ∃ st st', (step Platform.ascii .assignment9).run
        (AppState.atMenu (generateDummyData Sample.database)) Sample.searchChair = .ok st ∧
      (itemKind Platform.ascii).Shows st 0 Sample.chair ∧
      (itemKind Platform.ascii).Updates Platform.ascii st 0 0 [.type .tfItemName "Stool"] true st' ∧
      (st'.store.items.map Item.name) = ["Stool", "Chair"] ∧
      ¬ (itemKind Platform.ascii).ChangesExactly Sample.chair st st' := by
  refine ⟨_, _, rfl, ⟨_, rfl, rfl, rfl⟩, ⟨rfl, _, rfl⟩, rfl, ?_⟩
  rintro ⟨p, d, new, -, -, -, hmemory, -⟩
  have hlamp := congrFun hmemory 1
  rw [Function.update_of_ne (by decide)] at hlamp
  revert hlamp
  decide

/-- Without a search the first row is the lamp in both lists. -/
theorem run_updatesDisplayed_iff_lamp :
    ∃ st, (step Platform.ascii .assignment9).run
        (AppState.atMenu (generateDummyData Sample.database)) [⟨.openItems, true⟩] = .ok st ∧
      ((∀ edits st', (itemKind Platform.ascii).Updates Platform.ascii st 0 0 edits true st' →
        (itemKind Platform.ascii).ChangesExactly Sample.lamp st st')) :=
  ⟨_, rfl, ((@run_updatesDisplayed_iff Platform.ascii Sample.database [⟨.openItems, true⟩] _ rfl
    0 0 true).1 Sample.lamp ⟨_, rfl, rfl, rfl⟩).mpr ⟨rfl, rfl, by decide⟩⟩

end Info6350.TableApp
