import Info6350.TextApp.Records

/-! # Screens that fetch a record and change it

Fetch reads an id, remembers the index of the record that has it and fills the other
fields from this record.  Update checks those fields and writes them over the record at
the remembered index; it does not read the id again.
-/

namespace Info6350.TextApp
open Library Swift Logistics

/-- What the screens for records of type `α` do differently: the id field with its messages,
what Fetch shows, and how the checked fields change a record. -/
structure ChangeScreen (α : Type) where
  tfId : Field
  invalidId : String
  missingId : String
  fill : α → Form Field → Except Trap (Form Field)
  found : List Alert
  entered : List Item → Form Field → Handler (α → Except Trap α)
  success : String

namespace ChangeScreen
variable {α : Type} [Keyed α ℤ] (C : ChangeScreen α)

/-- Fetch: the index to remember and the form with its fields filled. -/
def fetch (l : List α) (form : Form Field) : Handler (ℕ × Form Field) := do
  let id ← intOf (form C.tfId) C.invalidId
  match firstIndex l id with
  | some index =>
    let record ← trapping (subscript l index)
    let form ← trapping (C.fill record form)
    return (index, form)
  | none => fail C.missingId

/-- Update and Add: the array with the record at `foundIndex` changed, and this record read
back. -/
def change (items : List Item) (l : List α) (form : Form Field) (foundIndex : ℤ) :
    Handler (List α × α) := do
  let entered ← C.entered items form
  let record ← trapping (subscript l foundIndex)
  let record ← trapping (entered record)
  return (l.set foundIndex.toNat record, record)

variable {C} {l : List α} {form : Form Field}

theorem fetch_ok {index : ℕ} {form' : Form Field} (h : C.fetch l form = .ok (index, form')) :
    ∃ record, (form C.tfId).int? = some (Keyed.key record) ∧ l[index]? = some record ∧
      C.fill record form = .ok form' := by
  obtain ⟨id, hid, h⟩ := bind_ok_iff.mp h
  cases hindex : firstIndex l id with
  | none => simp [hindex, fail] at h
  | some i =>
    simp only [hindex] at h
    obtain ⟨record, hrecord, h⟩ := bind_ok_iff.mp h
    obtain ⟨form'', hfill, h⟩ := bind_ok_iff.mp h
    obtain ⟨rfl, rfl⟩ := Prod.mk.inj (pure_ok_iff.mp h)
    have hat := (subscript_natCast l i).mp (trapping_ok_iff.mp hrecord)
    obtain ⟨x, hx, rfl⟩ := firstIndex_some hindex
    obtain rfl : x = record := Option.some.inj (hx.symm.trans hat)
    exact ⟨x, intOf_ok_iff.mp hid, hx, trapping_ok_iff.mp hfill⟩

theorem fetch_eq (hd : Distinct l) {row : ℕ} {x : α} (hx : l[row]? = some x)
    (hid : (form C.tfId).int? = some (Keyed.key x)) :
    C.fetch l form = trapping (C.fill x form) >>= fun form' => .ok (row, form') := by
  have hfield : intOf (form C.tfId) C.invalidId = .ok (Keyed.key x) := intOf_ok_iff.mpr hid
  have hrecord : trapping (subscript l row) = .ok x :=
    trapping_ok_iff.mpr ((subscript_natCast l row).mpr hx)
  simp only [fetch, hfield, hd.firstIndex_eq hx, hrecord, bind, Except.bind]
  rfl

theorem fetch_stops {E : Exit → Prop} [FailedChecks E]
    (hfill : ∀ record ∈ l, ∀ t, C.fill record form = .error t → E (.trap t)) :
    Stops E (C.fetch l form) := by
  refine (stops_intOf _ _).bind fun id => ?_
  cases hindex : firstIndex l id with
  | none => exact stops_fail C.missingId
  | some index =>
    obtain ⟨record, hrecord, _⟩ := firstIndex_some hindex
    have hsubscript : trapping (subscript l index) = .ok record :=
      trapping_ok_iff.mpr ((subscript_natCast l index).mpr hrecord)
    simp only [hsubscript]
    exact (stops_trapping (hfill record (List.mem_of_getElem? hrecord))).bind fun _ => stops_pure _

omit [Keyed α ℤ] in
theorem change_ok_iff {items : List Item} {foundIndex : ℤ} {l' : List α} {y : α} :
    C.change items l form foundIndex = .ok (l', y) ↔
      ∃ (entered : α → Except Trap α) (row : ℕ) (x : α), C.entered items form = .ok entered ∧
        foundIndex = row ∧ l[row]? = some x ∧ entered x = .ok y ∧ l' = l.set row y := by
  simp only [change, bind_ok_iff, pure_ok_iff, trapping_ok_iff, subscript_ok_iff, Prod.mk.injEq]
  constructor
  · rintro ⟨entered, hentered, x, ⟨row, rfl, hx⟩, y, hy, rfl, rfl⟩
    exact ⟨entered, row, x, hentered, rfl, hx, hy, rfl⟩
  · rintro ⟨entered, row, x, hentered, rfl, hx, hy, rfl⟩
    exact ⟨entered, hentered, x, ⟨row, rfl, hx⟩, y, hy, rfl, rfl⟩

variable (C)

/-- What Fetch and Update leave alone: the id field and the id of the record.  Only the index
and the cost of an order can trap in Update. -/
structure Lawful : Prop where
  fill_tfId : ∀ {x form form'}, C.fill x form = .ok form' → form' C.tfId = form C.tfId
  key_entered : ∀ {items form entered x y}, C.entered items form = .ok entered →
    entered x = .ok y → Keyed.key y = Keyed.key x
  entered_stops : ∀ items form, Stops Exit.OverflowOnly (C.entered items form)
  entered_overflow : ∀ {items form entered x t}, C.entered items form = .ok entered →
    entered x = .error t → t = .overflow

variable {C}

theorem Lawful.change_stops (L : C.Lawful) {items : List Item} {foundIndex : ℤ} {x : α}
    (hx : subscript l foundIndex = .ok x) :
    Stops Exit.OverflowOnly (C.change items l form foundIndex) := by
  intro e he
  rcases bind_error_iff.mp he with he | ⟨entered, hentered, he⟩
  · exact L.entered_stops items form e he
  · rcases bind_error_iff.mp he with he | ⟨z, _, he⟩
    · simp [trapping_error_iff, hx] at he
    · rcases bind_error_iff.mp he with he | ⟨y, _, he⟩
      · obtain ⟨t, ht, rfl⟩ := trapping_error_iff.mp he
        exact L.entered_overflow hentered ht
      · cases he

theorem Lawful.change_traps_iff (L : C.Lawful) {items : List Item} {foundIndex : ℤ} :
    C.change items l form foundIndex = .error (.trap .indexOutOfRange) ↔
      (∃ entered, C.entered items form = .ok entered) ∧ ∀ x, subscript l foundIndex ≠ .ok x := by
  constructor
  · intro h
    constructor
    · rcases bind_error_iff.mp h with h | ⟨entered, hentered, _⟩
      · cases L.entered_stops items form _ h
      · exact ⟨entered, hentered⟩
    · intro x hx
      cases L.change_stops hx _ h
  · rintro ⟨⟨entered, hentered⟩, hx⟩
    cases hs : subscript l foundIndex with
    | ok x => exact absurd hs (hx x)
    | error t =>
      obtain rfl := subscript_error hs
      have hrecord : trapping (subscript l foundIndex) = .error (.trap .indexOutOfRange) :=
        trapping_error_iff.mpr ⟨_, hs, rfl⟩
      exact bind_error_iff.mpr (.inr ⟨entered, hentered, bind_error_iff.mpr (.inl hrecord)⟩)

end ChangeScreen

section Screens
variable (F : DateFormatter) (ed : Edition)

/-- `UpdateItemViewController`, `updateItem`. -/
def updateItem : ChangeScreen Item where
  tfId := .tfItemId
  invalidId := "Invalid Item Id"
  missingId := "Item id does not exist"
  fill item form := .ok <| form
    |>.setText .tfItemName item.name
    |>.setText .tfItemDescription item.desc
    |>.setText .tfItemWeight (toString item.weight)
    |>.setText .tfItemValue (toString item.value)
  found := []
  entered _ form := do
    let entered ← enteredItem ed "Weight cannot be 0" form
    return fun item => .ok (entered item.id)
  success := "Item updated successfully"

/-- `UpdateLocationViewController`, `updateLocation`. -/
def updateLocation : ChangeScreen Location where
  tfId := .tfLocationId
  invalidId := "Invalid Location Id"
  missingId := "Location id does not exist"
  fill location form := .ok <| form
    |>.setText .tfStreetName location.street
    |>.setText .tfCityName location.city
    |>.setText .tfStateName location.state
    |>.setText .tfCountryName location.country
    |>.setText .tfZipcode (toString location.zip)
  found := []
  entered _ form := do
    let entered ← enteredLocation form
    return fun location => .ok (entered location.id)
  success := "Item updated successfully"

/-- `UpdateDepartureDateViewController`, `updateDepartureDate`. -/
def updateDepartureDate : ChangeScreen LogisticsOrder where
  tfId := .tfOrderId
  invalidId := "Invalid Order Id"
  missingId := "Order id does not exist"
  fill order form := .ok (form.setText .tfDepartureDate (F.string order.departureDate))
  found := []
  entered _ form := do
    let departureDate ← enteredDate F (form .tfDepartureDate) "Departure date is empty"
      "Departure date format invalid"
    return fun order => .ok { order with departureDate := departureDate }
  success := "Order departure date updated successfully"

/-- `UpdateOrderItemViewController`, `updateOrderItems`: the first line is shown, and the new
line replaces all lines. -/
def updateOrderItems : ChangeScreen LogisticsOrder where
  tfId := .tfOrderId
  invalidId := "Invalid Order Id"
  missingId := "Order id does not exist"
  fill order form := do
    let line ← subscript order.itemsCarried 0
    return form
      |>.setText .tfItemId (toString line.item.id)
      |>.setText .tfItemQuantity (toString line.quantity)
  found := []
  entered items form := do
    let orderItem ← enteredLine ed items form
    let orderCost ← trapping (getOrderTotal [orderItem])
    return fun order => .ok { order with itemsCarried := [orderItem], cost := orderCost }
  success := "Order items updated successfully"

/-- `AddItemsViewController`, which fills no field and adds the new line to the others. -/
def addItems : ChangeScreen LogisticsOrder where
  tfId := .tfOrderId
  invalidId := "Invalid Order Id"
  missingId := "Order id does not exist"
  fill _ form := .ok form
  found := [⟨"Success", "Order Found"⟩]
  entered items form := do
    let orderItem ← enteredLine ed items form
    let orderCost ← trapping (getOrderTotal [orderItem])
    return fun order => do
      let cost ← addInt order.cost orderCost
      return { order with itemsCarried := order.itemsCarried ++ [orderItem], cost := cost }
  success := "Order items updated successfully"

/-! ## What the entries change -/

section Entered
variable {F ed} {items : List Item} {form : Form Field}

theorem updateItem_entered {entered : Item → Except Trap Item} {x y : Item}
    (h : (updateItem ed).entered items form = .ok entered) (hy : entered x = .ok y) :
    ∃ name desc weight value,
      y = { x with name := name, desc := desc, weight := weight, value := value } := by
  obtain ⟨item, hitem, h⟩ := bind_ok_iff.mp h
  obtain rfl := pure_ok_iff.mp h
  obtain rfl := Except.ok.inj hy
  exact ⟨_, _, _, _, congrArg (fun id => Item.mk id _ _ _ _) (enteredItem_id hitem x.id)⟩

theorem updateLocation_entered {entered : Location → Except Trap Location} {x y : Location}
    (h : updateLocation.entered items form = .ok entered) (hy : entered x = .ok y) :
    ∃ street city state country zip, y =
      { x with street := street, city := city, state := state, country := country, zip := zip } := by
  obtain ⟨location, hlocation, h⟩ := bind_ok_iff.mp h
  obtain rfl := pure_ok_iff.mp h
  obtain rfl := Except.ok.inj hy
  exact ⟨_, _, _, _, _,
    congrArg (fun id => Location.mk id _ _ _ _ _) (enteredLocation_id hlocation x.id)⟩

variable {entered : LogisticsOrder → Except Trap LogisticsOrder} {x y : LogisticsOrder}

theorem updateDepartureDate_entered (h : (updateDepartureDate F).entered items form = .ok entered)
    (hy : entered x = .ok y) : ∃ date, y = { x with departureDate := date } := by
  obtain ⟨date, -, h⟩ := bind_ok_iff.mp h
  obtain rfl := pure_ok_iff.mp h
  exact ⟨date, (Except.ok.inj hy).symm⟩

theorem updateOrderItems_entered (h : (updateOrderItems ed).entered items form = .ok entered)
    (hy : entered x = .ok y) :
    ∃ line cost, y = { x with itemsCarried := [line], cost := cost } := by
  obtain ⟨line, -, h⟩ := bind_ok_iff.mp h
  obtain ⟨total, -, h⟩ := bind_ok_iff.mp h
  obtain rfl := pure_ok_iff.mp h
  exact ⟨line, total, (Except.ok.inj hy).symm⟩

theorem addItems_entered (h : (addItems ed).entered items form = .ok entered)
    (hy : entered x = .ok y) :
    ∃ line cost, y = { x with itemsCarried := x.itemsCarried ++ [line], cost := cost } := by
  obtain ⟨line, -, h⟩ := bind_ok_iff.mp h
  obtain ⟨total, -, h⟩ := bind_ok_iff.mp h
  obtain rfl := pure_ok_iff.mp h
  obtain ⟨cost, -, hy⟩ := bind_ok_iff.mp hy
  exact ⟨line, cost, (pure_ok_iff.mp hy).symm⟩

end Entered

theorem updateItem_lawful : (updateItem ed).Lawful where
  fill_tfId h := by
    obtain rfl := Except.ok.inj h
    simp [updateItem, Form.setText_of_ne]
  key_entered h hy := by
    obtain ⟨_, _, _, _, rfl⟩ := updateItem_entered h hy
    rfl
  entered_stops _ _ := (stops_enteredItem ed _ _).bind fun _ => stops_pure _
  entered_overflow h hy := by
    obtain ⟨entered, -, h⟩ := bind_ok_iff.mp h
    obtain rfl := pure_ok_iff.mp h
    cases hy

theorem updateLocation_lawful : updateLocation.Lawful where
  fill_tfId h := by
    obtain rfl := Except.ok.inj h
    simp [updateLocation, Form.setText_of_ne]
  key_entered h hy := by
    obtain ⟨_, _, _, _, _, rfl⟩ := updateLocation_entered h hy
    rfl
  entered_stops _ _ := (stops_enteredLocation _).bind fun _ => stops_pure _
  entered_overflow h hy := by
    obtain ⟨entered, -, h⟩ := bind_ok_iff.mp h
    obtain rfl := pure_ok_iff.mp h
    cases hy

theorem updateDepartureDate_lawful : (updateDepartureDate F).Lawful where
  fill_tfId h := by
    obtain rfl := Except.ok.inj h
    simp [updateDepartureDate, Form.setText_of_ne]
  key_entered h hy := by
    obtain ⟨_, rfl⟩ := updateDepartureDate_entered h hy
    rfl
  entered_stops _ _ := (stops_enteredDate F _ _ _).bind fun _ => stops_pure _
  entered_overflow h hy := by
    obtain ⟨date, -, h⟩ := bind_ok_iff.mp h
    obtain rfl := pure_ok_iff.mp h
    cases hy

theorem stops_lineCost (items : List Item) (form : Form Field)
    (f : OrderItem → ℤ → LogisticsOrder → Except Trap LogisticsOrder) :
    Stops Exit.OverflowOnly (do
      let orderItem ← enteredLine ed items form
      let orderCost ← trapping (getOrderTotal [orderItem])
      return f orderItem orderCost) :=
  (stops_enteredLine ed items form).bind fun _ =>
    (stops_trapping fun _ ht => addTotal_error ht).bind fun _ => stops_pure _

theorem updateOrderItems_lawful : (updateOrderItems ed).Lawful where
  fill_tfId h := by
    obtain ⟨line, -, h⟩ := bind_ok_iff.mp h
    obtain rfl := pure_ok_iff.mp h
    simp [updateOrderItems, Form.setText_of_ne]
  key_entered h hy := by
    obtain ⟨_, _, rfl⟩ := updateOrderItems_entered h hy
    rfl
  entered_stops items form := stops_lineCost ed items form _
  entered_overflow h hy := by
    obtain ⟨line, -, h⟩ := bind_ok_iff.mp h
    obtain ⟨total, -, h⟩ := bind_ok_iff.mp h
    obtain rfl := pure_ok_iff.mp h
    cases hy

theorem addItems_lawful : (addItems ed).Lawful where
  fill_tfId h := by
    obtain rfl := Except.ok.inj h
    rfl
  key_entered h hy := by
    obtain ⟨_, _, rfl⟩ := addItems_entered h hy
    rfl
  entered_stops items form := stops_lineCost ed items form _
  entered_overflow h hy := by
    obtain ⟨line, -, h⟩ := bind_ok_iff.mp h
    obtain ⟨total, -, h⟩ := bind_ok_iff.mp h
    obtain rfl := pure_ok_iff.mp h
    rcases bind_error_iff.mp hy with hy | ⟨cost, -, hy⟩
    · exact checked_error hy
    · cases hy

end Screens
end Info6350.TextApp
