import Info6350.TableApp.OrderEditing
import Info6350.TableApp.Subscripts

/-! # No index out of range

Without a download the arrays change only under the screen that edits them, so a row that a
list displays, the row of a details screen and the rows of the pickers and of the table stay
within their arrays.  What is left is the creation of an order when there is no location.
-/

namespace Info6350.TableApp
open Library Swift Logistics

section Within
variable {α δ ω : Type}

theorem RowInRange.mono {l m : List α} {vcMode : ViewControllerMode} {indexPath : Option ℕ}
    (h : RowInRange l vcMode indexPath) (hlength : l.length ≤ m.length) :
    RowInRange m vcMode indexPath :=
  fun hmode row hrow => (h hmode row hrow).trans_le hlength

theorem Button.length_le [Keyed α ℤ] {array : List α} {vcMode : ViewControllerMode}
    {indexPath : Option ℕ} {entersNew : α → Prop} {enters : α → α → Prop} {e : Edit α}
    (h : Button array vcMode indexPath entersNew enters e) :
    array.length ≤ (e.onList array).length := by
  cases h with
  | create x => simp [Edit.onList]
  | update row old new => simp [Edit.onList]

theorem Controllers.StaysIn.appears {C : Controllers α δ ω} {B : Indices δ ω} (K : C.StaysIn B)
    {s : Store} {d d' : δ} (h : C.viewWillAppear s d = .ok d') : B.appears s d := by
  by_contra hnot
  rw [K.appear_iff.mpr hnot] at h
  cases h

end Within

section Items
open ItemDetailsViewController

def ItemWithin (s : Store) (d : ItemDetails) : Prop := RowInRange s.items d.vcMode d.indexPath

theorem itemAppear_frame {P : Platform} {s : Store} {d d' : ItemDetails}
    (h : viewWillAppear P s d = .ok d') : d'.vcMode = d.vcMode ∧ d'.indexPath = d.indexPath := by
  unfold viewWillAppear at h
  split at h
  · obtain ⟨item, -, h⟩ := bind_ok_iff.mp h
    exact pure_ok_iff.mp h ▸ ⟨rfl, rfl⟩
  · exact Except.ok.inj h ▸ ⟨rfl, rfl⟩

theorem itemControllers_keepsWithin (P : Platform) :
    (itemControllers P).Keeps (fun _ => True) AnyEdit (fun _ => True) ItemWithin := by
  have happear : ∀ {s d d'}, viewWillAppear P s d = .ok d' → ItemWithin s d' := by
    intro s d d' h
    obtain ⟨hmode, hrow⟩ := itemAppear_frame h
    unfold ItemWithin
    rw [hmode, hrow]
    exact (itemControllers_staysIn P).appears h
  constructor
  case load => exact fun _ h => happear h
  case appear => exact fun _ _ h => happear h
  case edit =>
    intro s e d d' _ hd _ h
    obtain rfl := Except.ok.inj h
    cases e <;> exact hd
  case tap =>
    intro w s s' d a _ _ hd h
    obtain ⟨e, he, rfl⟩ := (itemControllers_carryOut P).tap_ok h
    exact ⟨trivial, hd.mono he.length_le⟩
  case delete =>
    intro w s s' row filtered _ _ h
    exact ⟨trivial, ((itemControllers_carryOut P).delete_ok h).2.2⟩

end Items

section Locations
open LocationDetailsViewController

def LocationWithin (s : Store) (d : LocationDetails) : Prop :=
  RowInRange s.locations d.vcMode d.indexPath

theorem locationAppear_frame {s : Store} {d d' : LocationDetails}
    (h : viewWillAppear s d = .ok d') : d'.vcMode = d.vcMode ∧ d'.indexPath = d.indexPath := by
  unfold viewWillAppear at h
  split at h
  · obtain ⟨location, -, h⟩ := bind_ok_iff.mp h
    exact pure_ok_iff.mp h ▸ ⟨rfl, rfl⟩
  · exact Except.ok.inj h ▸ ⟨rfl, rfl⟩

theorem locationControllers_keepsWithin (P : Platform) :
    (locationControllers P).Keeps (fun _ => True) AnyEdit (fun _ => True) LocationWithin := by
  have happear : ∀ {s d d'}, viewWillAppear s d = .ok d' → LocationWithin s d' := by
    intro s d d' h
    obtain ⟨hmode, hrow⟩ := locationAppear_frame h
    unfold LocationWithin
    rw [hmode, hrow]
    exact (locationControllers_staysIn P).appears h
  constructor
  case load => exact fun _ h => happear h
  case appear => exact fun _ _ h => happear h
  case edit =>
    intro s e d d' _ hd _ h
    obtain rfl := Except.ok.inj h
    cases e
    exact hd
  case tap =>
    intro w s s' d a _ _ hd h
    obtain ⟨e, he, rfl⟩ := (locationControllers_carryOut P).tap_ok h
    exact ⟨trivial, hd.mono he.length_le⟩
  case delete =>
    intro w s s' row filtered _ _ h
    exact ⟨trivial, ((locationControllers_carryOut P).delete_ok h).2.2⟩

end Locations

section Orders
open LogisticOrderDetailsViewController

/-- The order details refer to rows of the orders and, if there are any, of the locations, and
the table and the pickers have the rows of their arrays. -/
structure OrderWithin (s : Store) (d : OrderDetails) : Prop where
  row : RowInRange s.logisticsOrder d.vcMode d.indexPath
  itemRows : d.itemRows = s.items.length
  locationRows : d.locationRows = s.locations.length
  fromRow : s.locations ≠ [] → Indexes s.locations d.fromRow
  toRow : s.locations ≠ [] → Indexes s.locations d.toRow

theorem rowOf_indexes {s : Store} {row : ℤ} (h : s.locations ≠ [] → Indexes s.locations row)
    (location : Location) (hne : s.locations ≠ []) : Indexes s.locations (rowOf s location row) := by
  unfold rowOf
  cases hrow : firstIndex s.locations location.id with
  | none => exact h hne
  | some position =>
    obtain ⟨x, hx, -⟩ := firstIndex_some hrow
    have hlt : position < s.locations.length := (List.getElem?_eq_some_iff.mp hx).choose
    exact ⟨Int.natCast_nonneg position, Int.ofNat_lt.mpr hlt⟩

theorem firstRow_indexes {s : Store} (hne : s.locations ≠ []) :
    Indexes s.locations (if s.locations.isEmpty then -1 else 0) := by
  have hpos := List.length_pos_iff.mpr hne
  simp [Indexes, hne, hpos]

theorem OrderWithin.viewWillAppear {s : Store} {d d' : OrderDetails}
    (hd : RowInRange s.logisticsOrder d.vcMode d.indexPath → OrderWithin s d)
    (h : viewWillAppear s d = .ok d') : OrderWithin s d' := by
  have hd := hd ((orderControllers_staysIn (P := .ascii) .assignment9).appears h)
  unfold LogisticOrderDetailsViewController.viewWillAppear at h
  split at h
  · obtain ⟨order, -, h⟩ := bind_ok_iff.mp h
    obtain ⟨object, -, h⟩ := bind_ok_iff.mp h
    obtain rfl := pure_ok_iff.mp h
    exact ⟨hd.row, hd.itemRows, hd.locationRows, rowOf_indexes hd.fromRow _,
      rowOf_indexes hd.toRow _⟩
  · exact Except.ok.inj h ▸ hd

theorem OrderWithin.edit {s : Store} {e : OrderEdit} {d d' : OrderDetails} (hd : OrderWithin s d)
    (h : edit s e d = .ok d') : OrderWithin s d' := by
  obtain ⟨hrow, hitems, hlocations, hfrom, hto⟩ := hd
  have hpicked : ∀ row : ℕ, row < d.locationRows → Indexes s.locations row := fun row hlt =>
    ⟨Int.natCast_nonneg row, Int.ofNat_lt.mpr (hlocations ▸ hlt)⟩
  cases e with
  | type f text => exact Except.ok.inj h ▸ ⟨hrow, hitems, hlocations, hfrom, hto⟩
  | pickFrom row =>
    refine Except.ok.inj h ▸ ?_
    split_ifs with hpick
    · exact ⟨hrow, hitems, hlocations, fun _ => hpicked row hpick.2, hto⟩
    · exact ⟨hrow, hitems, hlocations, hfrom, hto⟩
  | pickTo row =>
    refine Except.ok.inj h ▸ ?_
    split_ifs with hpick
    · exact ⟨hrow, hitems, hlocations, hfrom, fun _ => hpicked row hpick.2⟩
    · exact ⟨hrow, hitems, hlocations, hfrom, hto⟩
  | pickArrival date => exact Except.ok.inj h ▸ ⟨hrow, hitems, hlocations, hfrom, hto⟩
  | pickDeparture date => exact Except.ok.inj h ▸ ⟨hrow, hitems, hlocations, hfrom, hto⟩
  | titleForRow row => exact edit_titleForRow h ▸ ⟨hrow, hitems, hlocations, hfrom, hto⟩
  | btnDecreaseTap cell =>
    obtain ⟨cells, objects, rfl⟩ := btnDecreaseTap_frame h
    exact ⟨hrow, hitems, hlocations, hfrom, hto⟩
  | btnIncreaseTap cell =>
    obtain ⟨cells, objects, rfl⟩ := btnIncreaseTap_frame h
    exact ⟨hrow, hitems, hlocations, hfrom, hto⟩
  | cellForRowAt reused row =>
    change cellForRowAt s reused row d = _ at h
    unfold cellForRowAt at h
    split_ifs at h
    · obtain ⟨item, -, h⟩ := bind_ok_iff.mp h
      cases reused <;> exact pure_ok_iff.mp h ▸ ⟨hrow, hitems, hlocations, hfrom, hto⟩
    · exact Except.ok.inj h ▸ ⟨hrow, hitems, hlocations, hfrom, hto⟩

theorem OrderWithin.edits {edition : Edition} {s : Store} {e : OrderEdit} {d : OrderDetails}
    (hd : OrderWithin s d) : (orderIndices edition).edits s e d := by
  cases e with
  | titleForRow row => exact fun hrow => hd.locationRows ▸ hrow
  | cellForRowAt reused row => exact fun hrow => hd.itemRows ▸ hrow
  | _ => trivial

theorem orderControllers_keepsWithin (P : Platform) (edition : Edition) :
    (orderControllers P edition).Keeps (fun _ => True) AnyEdit (fun _ => True) OrderWithin := by
  constructor
  case load =>
    intro s vcMode indexPath now d _ h
    refine OrderWithin.viewWillAppear (fun hrow => ⟨hrow, rfl, rfl, fun hne => ?_, fun hne => ?_⟩) h
    · exact firstRow_indexes hne
    · exact firstRow_indexes hne
  case appear => exact fun _ hd h => OrderWithin.viewWillAppear (fun _ => hd) h
  case edit => exact fun _ hd _ h => hd.edit h
  case tap =>
    intro w s s' d a _ _ hd h
    obtain ⟨e, he, rfl⟩ := (orderControllers_carryOut P edition).tap_ok h
    exact ⟨trivial, hd.row.mono he.length_le, hd.itemRows, hd.locationRows, hd.fromRow, hd.toRow⟩
  case delete =>
    intro w s s' row filtered _ _ h
    exact ⟨trivial, ((orderControllers_carryOut P edition).delete_ok h).2.2⟩

end Orders

/-! ## Runs -/

section App
variable (P : Platform)

/-- The top screen is coherent, and its details screen stays within the arrays. -/
def AppState.Within (st : AppState) : Prop :=
  match st.screen with
  | .main => True
  | .items p => p.Coherent (itemControllers P) ItemWithin st.store
  | .locations p => p.Coherent (locationControllers P) LocationWithin st.store
  | .orders p => p.Coherent (orderControllers P .assignment9) OrderWithin st.store

/-- If the input creates an order whose id passes the checks, there is a location. -/
def LocationsExist (st : AppState) (i : Input) : Prop :=
  ∀ p d id, st.screen = .orders p → p.details = some d → i.event = .orders .createButtonTap →
    d.vcMode = .create → (d.form .tfOrderId).int? = some id → id ∉ keys st.store.logisticsOrder →
    st.store.locations ≠ []

theorem step_preserves_within (edition : Edition) :
    (step P edition).Preserves Machine.AnyStep (AppState.Within P) := by
  rintro ⟨s, screen, alerts⟩ ⟨e, written⟩ st' hscreen - h
  cases step_move h with
  | openItems => exact Pane.coherent_opened (D := ItemWithin) s
  | openLocations => exact Pane.coherent_opened (D := LocationWithin) s
  | openOrders => exact Pane.coherent_opened (D := OrderWithin) s
  | items p e r hr =>
    exact ((itemControllers_keepsWithin P).paneStep trivial hscreen trivial
      (fun _ _ _ _ => trivial) hr).2
  | locations p e r hr =>
    exact ((locationControllers_keepsWithin P).paneStep trivial hscreen trivial
      (fun _ _ _ _ => trivial) hr).2
  | orders p e r hr =>
    exact ((orderControllers_keepsWithin P edition).paneStep trivial hscreen trivial
      (fun _ _ _ _ => trivial) hr).2
  | leave => trivial
  | stay => exact hscreen

theorem Pane.Coherent.row_lt {α δ ω : Type} {C : Controllers α δ ω} {D : Store → δ → Prop}
    {s : Store} {p : Pane α δ} (h : p.Coherent C D s) (hp : p.details = none) {row : ℕ}
    (hrow : row < p.filteredResults.length) : row < (C.array s).length :=
  hrow.trans_le (h.sublist hp).length_le

/-- On such a pane only the button can leave the arrays. -/
theorem Pane.inRange_iff {α δ ω : Type} {C : Controllers α δ ω} {D : Store → δ → Prop}
    {B : Indices δ ω} {s : Store} {p : Pane α δ} {e : PaneEvent ω} (h : p.Coherent C D s)
    (hload : ∀ vcMode indexPath now,
      (∀ row, indexPath = some row → row < (C.array s).length) →
      B.appears s (C.instantiate vcMode indexPath now s))
    (happear : ∀ d, D s d → B.appears s d) (hedit : ∀ d x, D s d → B.edits s x d) :
    p.InRange C B s e ↔ ∀ d, p.details = some d → e = .createButtonTap → B.taps s d := by
  have hquiet : ∀ {q : Prop}, q → e ≠ .createButtonTap →
      (q ↔ ∀ d, p.details = some d → e = .createButtonTap → B.taps s d) :=
    fun hq he => iff_of_true hq fun d _ h => absurd h he
  have hlt : p.details = none → ∀ row, row < p.filteredResults.length → row < (C.array s).length :=
    fun hd _ hrow => h.row_lt hd hrow
  unfold Pane.InRange
  split
  · rename_i now hd
    exact hquiet (hload _ _ now fun row hrow => by cases hrow) (by simp)
  · rename_i row now hd
    refine hquiet (fun hrow => hload _ _ now fun i hi => ?_) (by simp)
    obtain rfl := Option.some.inj hi
    exact hlt hd row hrow
  · rename_i row hd
    exact hquiet (fun _ hrow => hlt hd row hrow) (by simp)
  · rename_i d x hd
    exact hquiet (hedit d x (h.of_details hd)) (by simp)
  · rename_i d hd
    simp [hd]
  · rename_i d hd
    exact hquiet (happear d (h.of_details hd)) (by simp)
  · rename_i hbutton _
    refine iff_of_true trivial fun d hd he => ?_
    exact absurd he (hbutton d hd)

open LogisticOrderDetailsViewController in
/-- While the screen is within the arrays so are its events, except for the creation of an order
without locations, which only Assignment 10 refuses. -/
theorem inRange_of_within {edition : Edition} {st : AppState} (hst : st.Within P) {i : Input}
    (h : edition = .assignment10 ∨ LocationsExist st i) : st.InRange P edition i := by
  obtain ⟨s, screen, alerts⟩ := st
  obtain ⟨e, written⟩ := i
  cases screen with
  | main => cases e <;> trivial
  | items p =>
    cases e with
    | items e =>
      exact (Pane.inRange_iff hst (fun _ _ _ hrow _ => hrow) (fun _ hd => hd)
        (fun _ _ _ => trivial)).mpr fun d hd _ _ => Pane.Coherent.of_details hst hd
    | _ => trivial
  | locations p =>
    cases e with
    | locations e =>
      exact (Pane.inRange_iff hst (fun _ _ _ hrow _ => hrow) (fun _ hd => hd)
        (fun _ _ _ => trivial)).mpr fun d hd _ _ => Pane.Coherent.of_details hst hd
    | _ => trivial
  | orders p =>
    cases e with
    | orders e =>
      refine (Pane.inRange_iff (C := orderControllers P edition) hst (fun _ _ _ hrow _ => hrow)
        (fun _ hd => hd.row) (fun _ _ hd => hd.edits)).mpr fun d hd he => ?_
      have hwithin : OrderWithin s d := Pane.Coherent.of_details hst hd
      refine ⟨fun hmode id hid hnew hguard => ?_, fun _ => hwithin.row⟩
      have hne : s.locations ≠ [] := h.elim hguard fun hexist =>
        hexist p d id rfl hd (congrArg Event.orders he) hmode hid hnew
      exact ⟨hwithin.fromRow hne, hwithin.toRow hne⟩
    | _ => trivial

theorem locationsExist_of_inRange {st : AppState} {i : Input}
    (h : st.InRange P .assignment9 i) : LocationsExist st i := by
  obtain ⟨s, screen, alerts⟩ := st
  obtain ⟨event, written⟩ := i
  rintro p d id hp hd hevent hmode hid hnew
  cases hp
  cases hevent
  have htaps : (orderIndices .assignment9).taps s d := by
    simpa only [AppState.InRange, Pane.InRange, hd] using h
  obtain ⟨⟨hnonneg, hlt⟩, -⟩ := htaps.1 hmode id hid hnew fun h => by cases h
  exact List.length_pos_iff.mp (by exact_mod_cast hnonneg.trans_lt hlt)

/-- For every database at launch and every run: no handler indexes an array out of range if and
only if there is a location whenever an order whose id passes the checks is created. -/
theorem run_indexSafe_iff (db : Database) (inputs : List Input) :
    (step P .assignment9).Meets
        (fun st i => step P .assignment9 st i ≠ .error .indexOutOfRange)
        (AppState.atMenu (generateDummyData db)) inputs ↔
      (step P .assignment9).Meets LocationsExist (AppState.atMenu (generateDummyData db)) inputs :=
  Machine.meets_congr_of_meets
    (fun st i st' hst _ h => step_preserves_within P .assignment9 st i st' hst trivial h)
    (fun _ _ hst _ => (not_congr (step_index_iff P .assignment9)).trans
      (not_not.trans ⟨locationsExist_of_inRange P, fun h => inRange_of_within P hst (.inr h)⟩))
    trivial (Machine.meets_anyStep _ inputs)

def Sample.createWithoutLocations : List Input :=
  [⟨.openOrders, true⟩, ⟨.orders (.addTapped 0), true⟩,
    ⟨.orders (.edit (.type .tfOrderId "1")), true⟩, ⟨.orders .createButtonTap, true⟩]

/-- The selected row of the picker is -1, and the subscript traps. -/
theorem run_createWithoutLocations :
    (step Platform.ascii .assignment9).run (AppState.atMenu (generateDummyData emptyDatabase))
        Sample.createWithoutLocations = .error .indexOutOfRange ∧
    ¬ (step Platform.ascii .assignment9).Meets
      (fun st i => step Platform.ascii .assignment9 st i ≠ .error .indexOutOfRange)
      (AppState.atMenu (generateDummyData emptyDatabase)) Sample.createWithoutLocations := by
  refine ⟨rfl, fun h => ?_⟩
  obtain ⟨-, h⟩ := h
  obtain ⟨-, h⟩ := h _ rfl
  obtain ⟨-, h⟩ := h _ rfl
  exact (h _ rfl).1 rfl

end App
end Info6350.TableApp
