import Info6350.TableApp.App

/-! # What the handlers subscript

For each handler of the table-view apps, the exact condition on the state before it under
which it stays within the arrays of the main screen.  `Indices` collects these conditions for
a pair of controllers, and `step_index_iff` puts them together over the screens of the app.
-/

namespace Info6350.TableApp
open Library Swift Logistics

def Indexes {α : Type} (l : List α) (i : ℤ) : Prop := 0 ≤ i ∧ i < l.length

/-- In modify mode the row of a details screen is one of the array. -/
def RowInRange {α : Type} (l : List α) (vcMode : ViewControllerMode) (indexPath : Option ℕ) : Prop :=
  vcMode = .modify → ∀ row, indexPath = some row → row < l.length

theorem appear_index_iff {α β δ : Type} {l : List α} {vcMode : ViewControllerMode}
    {indexPath : Option ℕ} {d : δ} {load : β → Except Trap δ} {read : ℕ → Except Trap β}
    (hat : ∀ row, read row = .error .indexOutOfRange ↔ ¬ row < l.length)
    (hload : ∀ x, load x ≠ .error .indexOutOfRange) :
    (match vcMode, indexPath with
      | .modify, some row => read row >>= load
      | _, _ => .ok d) = .error .indexOutOfRange ↔ ¬ RowInRange l vcMode indexPath := by
  unfold RowInRange
  cases vcMode with
  | create => simp
  | modify =>
    cases indexPath with
    | none => simp
    | some row => simp [bind_error_iff, hat, hload]

theorem update_index_iff {α β : Type} [Keyed α ℤ] {checks : Handler (α → α)} {written : Bool}
    {l : List α} {row : ℕ} {t : Table α} {f : List α × Table α → β}
    (hchecks : Stops Exit.Trapless checks) :
    (checks >>= fun entered => trapping (updateRow written l row entered t) >>= fun rest =>
        pure (f rest)) = .error (.trap .indexOutOfRange) ↔
      (∃ entered, checks = .ok entered) ∧ ¬ row < l.length := by
  rw [hchecks.bind_trap_iff, exists_and_right.symm]
  refine exists_congr fun entered => and_congr_right fun _ => ?_
  rw [bind_error_iff, trapping_trap_iff, updateRow_error_iff]
  refine (or_iff_left ?_).trans (and_iff_right rfl)
  rintro ⟨rest, -, h⟩
  cases h

theorem delete_index_iff {α β : Type} [Keyed α ℤ] {written : Bool} {array filtered : List α}
    {row : ℕ} {t : Table α} {f : List α × Table α → β} (hrow : row < filtered.length) :
    (trapping (deleteRow written array filtered row t) >>= fun rest => pure (f rest)) =
      .error (.trap .indexOutOfRange) ↔ ¬ row < array.length := by
  rw [bind_error_iff, trapping_trap_iff, deleteRow_error_iff hrow]
  refine (or_iff_left ?_).trans (and_iff_right rfl)
  rintro ⟨rest, -, h⟩
  cases h

theorem guardedDelete_index_iff {α β : Type} [Keyed α ℤ] {written : Bool} {array filtered : List α}
    {row : ℕ} {t : Table α} {f : List α × Table α → β} {check : α → Handler Unit}
    (hcheck : ∀ x, Stops Exit.Trapless (check x)) (hrow : row < filtered.length) :
    (trapping (subscript array row) >>= fun x => check x >>= fun _ =>
        trapping (deleteRow written array filtered row t) >>= fun rest => pure (f rest)) =
      .error (.trap .indexOutOfRange) ↔ ¬ row < array.length := by
  rw [bind_error_iff, trapping_trap_iff, subscript_natCast_error_iff]
  constructor
  · rintro (⟨-, h⟩ | ⟨x, -, h⟩)
    · exact h
    · obtain ⟨_, -, h⟩ := (hcheck x).bind_trap_iff.mp h
      exact (delete_index_iff hrow).mp h
  · exact fun h => .inl ⟨rfl, h⟩

/-- Where a pair of controllers has to stay within the arrays: when its details screen appears,
during an edit, and at a tap of its button. -/
structure Indices (δ ω : Type) where
  appears : Store → δ → Prop
  edits : Store → ω → δ → Prop
  taps : Store → δ → Prop

/-- A pair of controllers traps on an index exactly when it is not within these bounds. -/
structure Controllers.StaysIn {α δ ω : Type} (C : Controllers α δ ω) (B : Indices δ ω) : Prop where
  appear_iff : ∀ {s d}, C.viewWillAppear s d = .error .indexOutOfRange ↔ ¬ B.appears s d
  edit_iff : ∀ {s e d}, C.edit s e d = .error .indexOutOfRange ↔ ¬ B.edits s e d
  tap_iff : ∀ {written s d},
    C.createButtonTap written d s = .error (.trap .indexOutOfRange) ↔ ¬ B.taps s d
  delete_iff : ∀ {written filtered row s}, row < filtered.length →
    (C.commitDelete written filtered row s = .error (.trap .indexOutOfRange) ↔
      ¬ row < (C.array s).length)

section Kinds
variable (P : Platform)

section
open ItemDetailsViewController

def itemIndices : Indices ItemDetails ItemEdit where
  appears s d := RowInRange s.items d.vcMode d.indexPath
  edits _ _ _ := True
  taps s d := (∃ old new, Enters d old new) → RowInRange s.items d.vcMode d.indexPath

theorem stops_createItem {E : Exit → Prop} [FailedChecks E] (written : Bool) (d : ItemDetails)
    (s : Store) : Stops E (createItem written d s) :=
  (stops_intOf _ _).bind fun _ => (stops_refuseIf _ _).bind fun _ =>
    (stops_enteredItem _ d).bind fun _ => stops_pure _

theorem enteredItem_isOk_iff {message : String} {d : ItemDetails} :
    (∃ entered, enteredItem message d = .ok entered) ↔ ∃ old new, Enters d old new := by
  constructor
  · rintro ⟨entered, h⟩
    exact ⟨⟨none, 0, "", "", 0, 0⟩, _, enteredItem_ok h _⟩
  · rintro ⟨old, new, h⟩
    obtain ⟨entered, hentered, -⟩ := enteredItem_of_enters h message
    exact ⟨entered, hentered⟩

theorem itemControllers_staysIn : (itemControllers P).StaysIn itemIndices where
  appear_iff := appear_index_iff (fun row => by simp [subscript_natCast_error_iff])
    (fun x h => by cases h)
  edit_iff := iff_of_false (fun h => by cases h) (not_not.mpr trivial)
  tap_iff {written s d} := by
    change createButtonTap written d s = _ ↔ ¬ ((∃ old new, Enters d old new) → _)
    unfold createButtonTap
    rw [Classical.not_imp]
    split_ifs with hmode
    · unfold updateItem
      cases hrow : d.indexPath with
      | none => simp [RowInRange]
      | some row =>
        refine (update_index_iff (stops_enteredItem _ d)).trans (and_congr enteredItem_isOk_iff ?_)
        simp [RowInRange, hmode]
    · refine iff_of_false (fun h => ?_) fun h => h.2 fun hmodify => absurd hmodify hmode
      cases stops_createItem (E := Exit.Trapless) written d s _ h
  delete_iff hrow := guardedDelete_index_iff (fun x => stops_alertIf trivial) hrow

end

section
open LocationDetailsViewController

def locationIndices : Indices LocationDetails LocationEdit where
  appears s d := RowInRange s.locations d.vcMode d.indexPath
  edits _ _ _ := True
  taps s d := (∃ old new, Enters d old new) → RowInRange s.locations d.vcMode d.indexPath

theorem stops_createLocation {E : Exit → Prop} [FailedChecks E] (written : Bool)
    (d : LocationDetails) (s : Store) : Stops E (createLocation written d s) :=
  (stops_intOf _ _).bind fun _ => (stops_refuseIf _ _).bind fun _ =>
    (stops_enteredLocation d).bind fun _ => stops_pure _

theorem enteredLocation_isOk_iff {d : LocationDetails} :
    (∃ entered, enteredLocation d = .ok entered) ↔ ∃ old new, Enters d old new := by
  constructor
  · rintro ⟨entered, h⟩
    exact ⟨⟨0, "", "", "", "", ""⟩, _, enteredLocation_ok h _⟩
  · rintro ⟨old, new, h⟩
    obtain ⟨entered, hentered, -⟩ := enteredLocation_of_enters h
    exact ⟨entered, hentered⟩

theorem locationControllers_staysIn : (locationControllers P).StaysIn locationIndices where
  appear_iff := appear_index_iff (fun row => by simp [subscript_natCast_error_iff])
    (fun x h => by cases h)
  edit_iff := iff_of_false (fun h => by cases h) (not_not.mpr trivial)
  tap_iff {written s d} := by
    change createButtonTapped written d s = _ ↔ ¬ ((∃ old new, Enters d old new) → _)
    unfold createButtonTapped
    rw [Classical.not_imp]
    split_ifs with hmode
    · unfold updateLocation
      cases hrow : d.indexPath with
      | none => simp [RowInRange]
      | some row =>
        refine (update_index_iff (stops_enteredLocation d)).trans
          (and_congr enteredLocation_isOk_iff ?_)
        simp [RowInRange, hmode]
    · refine iff_of_false (fun h => ?_) fun h => h.2 fun hmodify => absurd hmodify hmode
      cases stops_createLocation (E := Exit.Trapless) written d s _ h
  delete_iff hrow := guardedDelete_index_iff (fun x => stops_alertIf trivial) hrow

end

section
open LogisticOrderDetailsViewController

theorem putLine_error {cell : ℕ} {c : OrderItemsTableViewCell} {item : Item} {quantity : ℤ}
    {d : OrderDetails} {t : Trap} (h : putLine cell c item quantity d = .error t) :
    t = .overflow := by
  unfold putLine at h
  dsimp only at h
  split at h
  · cases h
  · rcases bind_error_iff.mp h with h | ⟨o, -, h⟩
    · exact OrderItems.put_error h
    · cases h

theorem btnDecreaseTap_error {cell : ℕ} {d : OrderDetails} {t : Trap}
    (h : btnDecreaseTap cell d = .error t) : t = .overflow := by
  unfold btnDecreaseTap at h
  split at h
  · cases h
  · split at h
    · cases h
    · split_ifs at h
      rcases bind_error_iff.mp h with h | ⟨quantity, -, h⟩
      · exact checked_error h
      · exact putLine_error h

theorem btnIncreaseTap_error {cell : ℕ} {d : OrderDetails} {t : Trap}
    (h : btnIncreaseTap cell d = .error t) : t = .overflow := by
  unfold btnIncreaseTap at h
  split at h
  · cases h
  · split at h
    · cases h
    · rcases bind_error_iff.mp h with h | ⟨quantity, -, h⟩
      · exact checked_error h
      · exact putLine_error h

theorem enteredOrder_isOk_iff {d : OrderDetails} :
    (∃ entered, enteredOrder d = .ok entered) ↔ ∃ old new, Enters d old new := by
  constructor
  · rintro ⟨entered, h⟩
    exact ⟨⟨0, ⟨0, "", "", "", "", ""⟩, ⟨0, "", "", "", "", ""⟩, 0, 0, 0, []⟩, _,
      enteredOrder_ok h _⟩
  · rintro ⟨old, new, h⟩
    obtain ⟨entered, hentered, -⟩ := enteredOrder_of_enters h
    exact ⟨entered, hentered⟩

/-- The pickers and the table ask for rows that they had when they loaded; a creation reads the
locations at the selected rows after it checked the id. -/
def orderIndices (edition : Edition) : Indices OrderDetails OrderEdit where
  appears s d := RowInRange s.logisticsOrder d.vcMode d.indexPath
  edits s e d := match e with
    | .titleForRow row => row < d.locationRows → row < s.locations.length
    | .cellForRowAt _ row => row < d.itemRows → row < s.items.length
    | _ => True
  taps s d :=
    (d.vcMode = .create → ∀ id, (d.form .tfOrderId).int? = some id →
      id ∉ keys s.logisticsOrder → (edition = .assignment10 → s.locations ≠ []) →
      Indexes s.locations d.fromRow ∧ Indexes s.locations d.toRow) ∧
    ((∃ old new, Enters d old new) → RowInRange s.logisticsOrder d.vcMode d.indexPath)

theorem createOrder_index_iff {edition : Edition} {written : Bool} {d : OrderDetails} {s : Store} :
    createOrder edition written d s = .error (.trap .indexOutOfRange) ↔
      ∃ id, (d.form .tfOrderId).int? = some id ∧ id ∉ keys s.logisticsOrder ∧
        (edition = .assignment10 → s.locations ≠ []) ∧
        ¬ (Indexes s.locations d.fromRow ∧ Indexes s.locations d.toRow) := by
  unfold createOrder
  rw [(stops_intOf _ _).bind_trap_iff]
  refine exists_congr fun id => and_congr intOf_ok_iff ?_
  rw [refuseIf_bind_trap_iff, refuseIf_bind_trap_iff, firstIndex_isSome_iff]
  refine and_congr_right fun _ => and_congr ?_ ?_
  · simp [List.length_pos_iff]
  · rw [not_and_or, bind_error_iff, trapping_trap_iff, subscript_error_iff, and_iff_right rfl]
    constructor
    · rintro (h | ⟨fromLocation, -, h⟩)
      · exact .inl h
      · rw [bind_error_iff, trapping_trap_iff, subscript_error_iff] at h
        rcases h with ⟨-, h⟩ | ⟨toLocation, -, h⟩
        · exact .inr h
        · obtain ⟨entered, -, h⟩ := (stops_enteredOrder d).bind_trap_iff.mp h
          cases h
    · intro h
      cases hfrom : subscript s.locations d.fromRow with
      | error t => exact .inl (subscript_error_iff.mp hfrom).2
      | ok fromLocation =>
        have hindex : Indexes s.locations d.fromRow := by
          by_contra hnot
          rw [subscript_error_iff.mpr ⟨rfl, hnot⟩] at hfrom
          cases hfrom
        exact .inr ⟨fromLocation, rfl, bind_error_iff.mpr (.inl (trapping_trap_iff.mpr
          (subscript_error_iff.mpr ⟨rfl, h.resolve_left (not_not.mpr hindex)⟩)))⟩

theorem orderControllers_staysIn (edition : Edition) :
    (orderControllers P edition).StaysIn (orderIndices edition) where
  appear_iff := appear_index_iff (fun row => by simp [subscript_natCast_error_iff]) fun order h => by
    rcases bind_error_iff.mp h with h | ⟨object, -, h⟩
    · cases OrderItems.initItems_error h
    · cases h
  edit_iff {s e d} := by
    change edit s e d = _ ↔ ¬ (orderIndices edition).edits s e d
    cases e with
    | titleForRow row =>
      change (if _ then _ else _) = _ ↔ ¬ (row < d.locationRows → row < s.locations.length)
      split_ifs with hrow
      · simp only [hrow, true_imp_iff, titleForRow]
        rw [map_error_iff, bind_error_iff, subscript_natCast_error_iff, and_iff_right rfl]
        refine or_iff_left ?_
        rintro ⟨location, -, h⟩
        cases h
      · simp [hrow]
    | cellForRowAt reused row =>
      change cellForRowAt s reused row d = _ ↔ ¬ (row < d.itemRows → row < s.items.length)
      unfold cellForRowAt
      split_ifs with hrow
      · rw [bind_error_iff, subscript_natCast_error_iff, and_iff_right rfl]
        simp only [hrow, true_imp_iff]
        refine or_iff_left ?_
        rintro ⟨item, -, h⟩
        cases reused <;> cases h
      · simp [hrow]
    | btnDecreaseTap cell =>
      refine iff_of_false (fun h => ?_) (not_not.mpr trivial)
      cases btnDecreaseTap_error h
    | btnIncreaseTap cell =>
      refine iff_of_false (fun h => ?_) (not_not.mpr trivial)
      cases btnIncreaseTap_error h
    | type f text => exact iff_of_false (fun h => by cases h) (not_not.mpr trivial)
    | pickFrom row => exact iff_of_false (fun h => by cases h) (not_not.mpr trivial)
    | pickTo row => exact iff_of_false (fun h => by cases h) (not_not.mpr trivial)
    | pickArrival date => exact iff_of_false (fun h => by cases h) (not_not.mpr trivial)
    | pickDeparture date => exact iff_of_false (fun h => by cases h) (not_not.mpr trivial)
  tap_iff {written s d} := by
    change createButtonTapped edition written d s = _ ↔ ¬ (_ ∧ _)
    unfold createButtonTapped
    split_ifs with hmode
    · rw [createOrder_index_iff]
      simp [RowInRange, hmode]
    · unfold updateOrder
      cases hrow : d.indexPath with
      | none => simp [RowInRange, hmode]
      | some row =>
        refine (update_index_iff (stops_enteredOrder d)).trans ?_
        rw [enteredOrder_isOk_iff]
        simp [RowInRange, ViewControllerMode.ne_create_iff.mp hmode]
  delete_iff hrow := delete_index_iff hrow

end

end Kinds

/-! ## The screens -/

section Pane
variable {α δ ω : Type} (C : Controllers α δ ω) (B : Indices δ ω)

def Pane.InRange (s : Store) (p : Pane α δ) (e : PaneEvent ω) : Prop :=
  match p.details, e with
  | none, .addTapped now => B.appears s (C.instantiate .create none now s)
  | none, .didSelectRow row now =>
    row < p.filteredResults.length → B.appears s (C.instantiate .modify (some row) now s)
  | none, .swipeDelete row =>
    p.canEditRow = true → row < p.filteredResults.length → row < (C.array s).length
  | some d, .edit e => B.edits s e d
  | some d, .createButtonTap => B.taps s d
  | some d, .reappear => B.appears s d
  | _, _ => True

variable {C B}

theorem paneStep_index_iff (K : C.StaysIn B) {written : Bool} {s : Store} {p : Pane α δ}
    {e : PaneEvent ω} :
    paneStep C written s p e = .error .indexOutOfRange ↔ ¬ p.InRange C B s e := by
  have hpush : ∀ {q : Pane α δ} {d : δ},
      q.push C d s = .error .indexOutOfRange ↔ ¬ B.appears s d := by
    intro q d
    rw [← K.appear_iff, Pane.push_error_iff]
  have hok : ∀ {r : PaneResult α δ}, (Except.ok r : Except Trap _) = .error .indexOutOfRange ↔
      ¬ True := iff_of_false (fun h => by cases h) (not_not.mpr trivial)
  obtain ⟨filtered, isActive, details⟩ := p
  cases details with
  | none =>
    cases e with
    | addTapped now => exact hpush
    | didSelectRow row now =>
      simp only [paneStep, Pane.InRange]
      split_ifs with hrow
      · simpa [hrow] using hpush
      · simp [hrow]
    | swipeDelete row =>
      simp only [paneStep, Pane.InRange]
      split_ifs with hrow
      · rw [settle_error_iff, K.delete_iff hrow.2]
        simp [hrow.1, hrow.2]
      · simp only [not_and] at hrow
        simp only [false_iff, not_not]
        exact fun hedit hlt => absurd hlt (hrow hedit)
    | search text => exact hok
    | cancelSearch => exact hok
    | edit x => exact hok
    | createButtonTap => exact hok
    | reappear => exact hok
    | back => exact hok
  | some d =>
    cases e with
    | edit x =>
      change (C.edit s x d >>= _) = _ ↔ ¬ B.edits s x d
      rw [← K.edit_iff, bind_error_iff]
      exact or_iff_left fun ⟨_, _, h⟩ => by cases h
    | createButtonTap =>
      simp only [paneStep, Pane.InRange]
      rw [settle_error_iff, K.tap_iff]
    | reappear => exact hpush
    | search text => exact hok
    | cancelSearch => exact hok
    | addTapped now => exact hok
    | didSelectRow row now => exact hok
    | swipeDelete row => exact hok
    | back => exact hok

end Pane

section App
variable (P : Platform) (edition : Edition)

def AppState.InRange (st : AppState) (i : Input) : Prop :=
  match st.screen, i.event with
  | .items p, .items e => p.InRange (itemControllers P) itemIndices st.store e
  | .locations p, .locations e => p.InRange (locationControllers P) locationIndices st.store e
  | .orders p, .orders e =>
    p.InRange (orderControllers P edition) (orderIndices edition) st.store e
  | _, _ => True

theorem step_index_iff {st : AppState} {i : Input} :
    step P edition st i = .error .indexOutOfRange ↔ ¬ st.InRange P edition i := by
  have hok : ∀ {st' : AppState}, (Except.ok st' : Except Trap _) = .error .indexOutOfRange ↔
      ¬ True := iff_of_false (fun h => by cases h) (not_not.mpr trivial)
  obtain ⟨s, screen, alerts⟩ := st
  obtain ⟨e, written⟩ := i
  cases screen with
  | main => cases e <;> exact hok
  | items p =>
    cases e with
    | items e => exact map_error_iff.trans (paneStep_index_iff (itemControllers_staysIn P))
    | leave => obtain ⟨filtered, isActive, _ | d⟩ := p <;> exact hok
    | _ => exact hok
  | locations p =>
    cases e with
    | locations e => exact map_error_iff.trans (paneStep_index_iff (locationControllers_staysIn P))
    | leave => obtain ⟨filtered, isActive, _ | d⟩ := p <;> exact hok
    | _ => exact hok
  | orders p =>
    cases e with
    | orders e =>
      exact map_error_iff.trans (paneStep_index_iff (orderControllers_staysIn P edition))
    | leave => obtain ⟨filtered, isActive, _ | d⟩ := p <;> exact hok
    | _ => exact hok

end App
end Info6350.TableApp
