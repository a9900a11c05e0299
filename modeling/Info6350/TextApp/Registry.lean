import Info6350.Logistics.Registry
import Info6350.TextApp.ChangeScreens
import Info6350.TextApp.CreateDelete

/-! # The registry behind the text fields

What the apps with text fields are for: a registry with an alert that confirms each operation.  A
screen that succeeds performs the operation on the map that its array represents.
-/

namespace Info6350.TextApp
open Library Swift Logistics Keyed

abbrev Registry := Logistics.Registry Item Location LogisticsOrder
abbrev Command := Logistics.Command Item Location LogisticsOrder

/-! ## Confirmations -/

/-- The alert confirms the operation.  The message for a location that is updated names an item. -/
def Command.ConfirmedBy : Command → Alert → Prop
  | .items (.create _), a => a = ⟨"Success", "Item created successfully"⟩
  | .items (.update _), a => a = ⟨"Success", "Item updated successfully"⟩
  | .items (.delete _), a => a = ⟨"Success", "Delete successfully"⟩
  | .locations (.create _), a => a = ⟨"Success", "Location created successfully"⟩
  | .locations (.update _), a => a = ⟨"Success", "Item updated successfully"⟩
  | .locations (.delete _), a => a = ⟨"Success", "Deleted successfully"⟩
  | .orders (.create _), a => a = ⟨"Success", "Order created successfully"⟩
  | .orders (.update _), a => a = ⟨"Success", "Order departure date updated successfully"⟩ ∨
      a = ⟨"Success", "Order items updated successfully"⟩
  | .orders (.delete _), a => a = ⟨"Success", "Deleted successfully"⟩

/-- Fetch of `AddItemsViewController` reports a success of its own. -/
def confirms (a : Alert) : Bool := a.title = "Success" ∧ a.message ≠ "Order Found"

/-- The confirmations among the alerts of an app, which has its last alert first. -/
def confirmations (alerts : List Alert) : List Alert := (alerts.filter confirms).reverse

theorem Command.ConfirmedBy.confirms {c : Command} {a : Alert} (h : c.ConfirmedBy a) :
    confirms a := by
  rcases c with (x | x | k) | (x | x | k) | (x | x | k)
  case orders.update => rcases h with rfl | rfl <;> rfl
  all_goals
    obtain rfl := h
    rfl

theorem confirmations_cons {a : Alert} (h : confirms a) (alerts : List Alert) :
    confirmations (a :: alerts) = confirmations alerts ++ [a] := by
  simp [confirmations, h]

theorem confirmations_append {alerts : List Alert} (h : ∀ a ∈ alerts, ¬ confirms a)
    (rest : List Alert) : confirmations (alerts ++ rest) = confirmations rest := by
  have hnone : alerts.filter confirms = [] := List.filter_eq_nil_iff.mpr h
  simp [confirmations, hnone]

theorem confirmations_unsuccessful {alerts : List Alert} (h : ∀ a ∈ alerts, a.title ≠ "Success")
    (rest : List Alert) : confirmations (alerts ++ rest) = confirmations rest :=
  confirmations_append (fun a ha => by simp [confirms, h a ha]) rest

namespace Registry
variable {items items' : List Item} {locations locations' : List Location}
  {orders orders' : List LogisticsOrder} {a : Alert}

/-- One operation, which the alert confirms, leads from a registry to another. -/
def Performs (r r' : Registry) (a : Alert) : Prop :=
  ∃ c : Command, Registry.step r c = .ok r' ∧ c.ConfirmedBy a

theorem step_items {o : Operation Item ℤ} (h : o.apply (lookup items) = .ok (lookup items')) :
    Registry.step (.ofArrays items locations orders) (.items o) =
      .ok (.ofArrays items' locations orders) :=
  map_ok_iff.mpr ⟨_, h, rfl⟩

theorem step_locations {o : Operation Location ℤ}
    (h : o.apply (lookup locations) = .ok (lookup locations')) :
    Registry.step (.ofArrays items locations orders) (.locations o) =
      .ok (.ofArrays items locations' orders) :=
  map_ok_iff.mpr ⟨_, h, rfl⟩

theorem step_orders {o : Operation LogisticsOrder ℤ}
    (h : o.apply (lookup orders) = .ok (lookup orders')) :
    Registry.step (.ofArrays items locations orders) (.orders o) =
      .ok (.ofArrays items locations orders') :=
  map_ok_iff.mpr ⟨_, h, rfl⟩

theorem performs_items (o : Operation Item ℤ) (h : o.apply (lookup items) = .ok (lookup items'))
    (ha : Command.ConfirmedBy (.items o) a) :
    Performs (.ofArrays items locations orders) (.ofArrays items' locations orders) a :=
  ⟨.items o, step_items h, ha⟩

theorem performs_locations (o : Operation Location ℤ)
    (h : o.apply (lookup locations) = .ok (lookup locations'))
    (ha : Command.ConfirmedBy (.locations o) a) :
    Performs (.ofArrays items locations orders) (.ofArrays items locations' orders) a :=
  ⟨.locations o, step_locations h, ha⟩

theorem performs_orders (o : Operation LogisticsOrder ℤ)
    (h : o.apply (lookup orders) = .ok (lookup orders')) (ha : Command.ConfirmedBy (.orders o) a) :
    Performs (.ofArrays items locations orders) (.ofArrays items locations orders') a :=
  ⟨.orders o, step_orders h, ha⟩

end Registry

/-! ## The operations of the screens -/

section Operations
variable {α : Type} [Keyed α ℤ] {l l' : List α}

theorem create_apply (hl : Distinct l) {x : α} (hx : key x ∉ keys l) :
    (Operation.create x).apply (lookup l) = .ok (lookup (l ++ [x])) :=
  Edit.operation_apply (e := .create x) hl hx rfl

theorem deletion_apply {tf : UITextField} {message : String} {id : ℤ} (hl : Distinct l)
    (h : deletion l tf message = .ok (l', id)) :
    (Operation.delete id).apply (lookup l) = .ok (lookup l') := by
  obtain ⟨row, x, hx, rfl, rfl⟩ := deletion_ok h
  have hrow : row < l.length := (List.getElem?_eq_some_iff.mp hx).choose
  refine Edit.operation_apply (e := .delete row) hl hrow ?_
  simp [Edit.operation, hx]

theorem ChangeScreen.Lawful.change_apply {C : ChangeScreen α} (hC : C.Lawful) {items : List Item}
    {form : Form Field} {foundIndex : ℤ} {y : α} (hl : Distinct l)
    (h : C.change items l form foundIndex = .ok (l', y)) :
    (Operation.update y).apply (lookup l) = .ok (lookup l') := by
  obtain ⟨entered, row, x, hentered, -, hx, hy, rfl⟩ := change_ok_iff.mp h
  exact Edit.operation_apply (e := .update row y) hl
    ⟨x, hx, (hC.key_entered hentered hy).symm⟩ rfl

end Operations

/-! ## Screens that refuse -/

section Refuses
variable (F : DateFormatter) (ed : Edition)

theorem refuses_createOrder (items : List Item) (locations : List Location)
    (orders : List LogisticsOrder) (form : Form Field) :
    Refuses (createOrder F ed items locations orders form) :=
  (stops_newId _ _ _ _).bind fun _ => (stops_intOf _ _).bind fun _ =>
    (stops_existing locations _ _).bind fun _ => (stops_intOf _ _).bind fun _ =>
    (stops_existing locations _ _).bind fun _ => (stops_enteredDate F _ _ _).bind fun _ =>
    (stops_enteredDate F _ _ _).bind fun _ => (stops_refuseIf _ _).bind fun _ =>
    (stops_enteredLine ed items form).bind fun _ =>
    (refuses_trapping _).bind fun _ => stops_pure _

variable {ed} {α : Type}

theorem refuses_lineCost (items : List Item) (form : Form Field)
    (f : OrderItem → ℤ → LogisticsOrder → Except Trap LogisticsOrder) :
    Refuses (do
      let orderItem ← enteredLine ed items form
      let orderCost ← trapping (getOrderTotal [orderItem])
      return f orderItem orderCost) :=
  (stops_enteredLine ed items form).bind fun _ => (refuses_trapping _).bind fun _ => stops_pure _

theorem ChangeScreen.refuses_change {C : ChangeScreen α}
    (hC : ∀ items form, Refuses (C.entered items form)) (items : List Item) (l : List α)
    (form : Form Field) (foundIndex : ℤ) : Refuses (C.change items l form foundIndex) :=
  (hC items form).bind fun _ => (refuses_trapping _).bind fun _ =>
    (refuses_trapping _).bind fun _ => stops_pure _

theorem ChangeScreen.refuses_fetch [Keyed α ℤ] (C : ChangeScreen α) (l : List α)
    (form : Form Field) : Refuses (C.fetch l form) :=
  fetch_stops fun _ _ _ _ => trivial

end Refuses
end Info6350.TextApp
