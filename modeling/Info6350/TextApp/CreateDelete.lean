import Info6350.TextApp.Records

/-! # Creating and deleting records

A create screen refuses an id that an array already has and otherwise checks the fields of
the new record.  A delete screen reads an id, 0 if it is not an integer, and removes the
first record that has it.
-/

namespace Info6350.TextApp
open Library Swift Logistics

section Create
variable (F : DateFormatter) (ed : Edition)

/-- The id that a create screen reads, refused when a record has it. -/
def newId {α : Type} [Keyed α ℤ] (l : List α) (tf : UITextField) (invalid taken : String) :
    Handler ℤ := do
  let id ← intOf tf invalid
  refuseIf ((firstIndex l id).isSome = true) taken
  return id

/-- `CreateItemViewController`, `createItem`: the item to append. -/
def createItem (items : List Item) (form : Form Field) : Handler Item := do
  let itemId ← newId items (form .tfItemId) "Invalid Item Id" "Item id already exists"
  let entered ← enteredItem ed "Value cannot be 0" form
  return entered itemId

/-- `CreateLocationViewController`, `createLocation`.  The first message names an item. -/
def createLocation (locations : List Location) (form : Form Field) : Handler Location := do
  let locationId ← newId locations (form .tfLocationId) "Invalid Item Id"
    "Location id already exists"
  let entered ← enteredLocation form
  return entered locationId

/-- `CreateOrderViewController`, `createOrder`. -/
def createOrder (items : List Item) (locations : List Location)
    (logisticsOrder : List LogisticsOrder) (form : Form Field) : Handler LogisticsOrder := do
  let orderId ← newId logisticsOrder (form .tfOrderId) "Invalid Order Id"
    "Order id already exists"
  let fromLocationId ← intOf (form .tfFromLocationId) "Invalid From Location Id"
  let fromLocation ← existing locations fromLocationId "From Location does not exist"
  let toLocationId ← intOf (form .tfToLocationId) "Invalid To Location Id"
  let toLocation ← existing locations toLocationId "To Location does not exist"
  let arrivalDate ← enteredDate F (form .tfArrivalDate) "Arrival date is empty"
    "Arrival date format invalid"
  let departureDate ← enteredDate F (form .tfDepartureDate) "Departure date is empty"
    "Departure date format invalid"
  refuseIf (arrivalDate < departureDate) "Arrival date cannot be before departure date"
  let orderItem ← enteredLine ed items form
  let orderCost ← trapping (getOrderTotal [orderItem])
  return ⟨orderId, fromLocation, toLocation, arrivalDate, departureDate, orderCost, [orderItem]⟩

theorem newId_ok_iff {α : Type} [Keyed α ℤ] {l : List α} {tf : UITextField}
    {invalid taken : String} {id : ℤ} :
    newId l tf invalid taken = .ok id ↔ tf.int? = some id ∧ id ∉ keys l := by
  simp only [newId, bind_ok_iff, intOf_ok_iff, refuseIf_ok_iff, firstIndex_isSome_iff, pure_ok_iff]
  constructor
  · rintro ⟨n, hn, -, hfree, rfl⟩
    exact ⟨hn, hfree⟩
  · rintro ⟨hn, hfree⟩
    exact ⟨id, hn, (), hfree, rfl⟩

theorem createItem_fresh {items : List Item} {form : Form Field} {item : Item}
    (h : createItem ed items form = .ok item) : Keyed.key item ∉ keys items := by
  obtain ⟨id, hid, h⟩ := bind_ok_iff.mp h
  obtain ⟨entered, hentered, h⟩ := bind_ok_iff.mp h
  obtain rfl := pure_ok_iff.mp h
  rw [key_item, enteredItem_id hentered]
  exact (newId_ok_iff.mp hid).2

theorem createLocation_fresh {locations : List Location} {form : Form Field} {location : Location}
    (h : createLocation locations form = .ok location) : Keyed.key location ∉ keys locations := by
  obtain ⟨id, hid, h⟩ := bind_ok_iff.mp h
  obtain ⟨entered, hentered, h⟩ := bind_ok_iff.mp h
  obtain rfl := pure_ok_iff.mp h
  rw [key_location, enteredLocation_id hentered]
  exact (newId_ok_iff.mp hid).2

structure NewOrder (items : List Item) (orders : List LogisticsOrder) (form : Form Field)
    (order : LogisticsOrder) : Prop where
  fresh : Keyed.key order ∉ keys orders
  dates : order.departureDate ≤ order.estimatedArrivalDate
  line : ∃ line, enteredLine ed items form = .ok line ∧ order.itemsCarried = [line] ∧
    getOrderTotal [line] = .ok order.cost

theorem createOrder_ok {items : List Item} {locations : List Location}
    {orders : List LogisticsOrder} {form : Form Field} {order : LogisticsOrder}
    (h : createOrder F ed items locations orders form = .ok order) :
    NewOrder ed items orders form order := by
  simp only [createOrder, bind_ok_iff, pure_ok_iff, refuseIf_ok_iff] at h
  obtain ⟨id, hid, _, _, _, _, _, _, _, _, arrival, _, departure, _, _, hdates, line, hline, cost,
    hcost, rfl⟩ := h
  exact ⟨(newId_ok_iff.mp hid).2, not_lt.mp hdates, line, hline, rfl, trapping_ok_iff.mp hcost⟩

section Stops
variable {E : Exit → Prop} [FailedChecks E]

theorem stops_newId {α : Type} [Keyed α ℤ] (l : List α) (tf : UITextField)
    (invalid taken : String) : Stops E (newId l tf invalid taken) :=
  (stops_intOf _ _).bind fun _ => (stops_refuseIf _ _).bind fun _ => stops_pure _

theorem stops_createItem (items : List Item) (form : Form Field) :
    Stops E (createItem ed items form) :=
  (stops_newId _ _ _ _).bind fun _ => (stops_enteredItem ed _ _).bind fun _ => stops_pure _

theorem stops_createLocation (locations : List Location) (form : Form Field) :
    Stops E (createLocation locations form) :=
  (stops_newId _ _ _ _).bind fun _ => (stops_enteredLocation _).bind fun _ => stops_pure _

end Stops

theorem stops_createOrder (items : List Item) (locations : List Location)
    (orders : List LogisticsOrder) (form : Form Field) :
    Stops Exit.OverflowOnly (createOrder F ed items locations orders form) :=
  (stops_newId _ _ _ _).bind fun _ => (stops_intOf _ _).bind fun _ =>
    (stops_existing locations _ _).bind fun _ => (stops_intOf _ _).bind fun _ =>
    (stops_existing locations _ _).bind fun _ => (stops_enteredDate F _ _ _).bind fun _ =>
    (stops_enteredDate F _ _ _).bind fun _ => (stops_refuseIf _ _).bind fun _ =>
    (stops_enteredLine ed items form).bind fun _ =>
    (stops_trapping fun _ ht => addTotal_error ht).bind fun _ => stops_pure _

end Create

section Delete
variable {α : Type} [Keyed α ℤ] {l : List α} {tf : UITextField} {message : String}

/-- `Int(tf.text ?? "0") ?? 0`. -/
def intOrZero (tf : UITextField) : ℤ := tf.int?.getD 0

/-- The array without the record to delete, and the id read from the field. -/
def deletion (l : List α) (tf : UITextField) (message : String) : Handler (List α × ℤ) :=
  match firstIndex l (intOrZero tf) with
  | some index => do
    let rest ← trapping (removeAt l index)
    return (rest, intOrZero tf)
  | none => fail message

theorem deletion_ok {l' : List α} {id : ℤ} (h : deletion l tf message = .ok (l', id)) :
    ∃ row x, l[row]? = some x ∧ Keyed.key x = id ∧ l' = l.eraseIdx row := by
  unfold deletion at h
  cases hindex : firstIndex l (intOrZero tf) with
  | none => simp [hindex, fail] at h
  | some row =>
    simp only [hindex] at h
    obtain ⟨rest, hrest, h⟩ := bind_ok_iff.mp h
    obtain ⟨rfl, rfl⟩ := Prod.mk.inj (pure_ok_iff.mp h)
    obtain ⟨x, hx, hkey⟩ := firstIndex_some hindex
    exact ⟨row, x, hx, hkey, (removeAt_natCast.mp (trapping_ok_iff.mp hrest)).2⟩

theorem deletion_of_mem (hd : Distinct l) (h : intOrZero tf ∈ keys l) :
    deletion l tf message = .ok (l.filter fun x => Keyed.key x ≠ intOrZero tf, intOrZero tf) := by
  obtain ⟨row, hindex⟩ := Option.isSome_iff_exists.mp (firstIndex_isSome_iff.mpr h)
  obtain ⟨x, hx, hkey⟩ := firstIndex_some hindex
  have hrow : row < l.length := (List.getElem?_eq_some_iff.mp hx).choose
  simp only [deletion, hindex]
  refine bind_ok_iff.mpr ⟨_, trapping_ok_iff.mpr (removeAt_natCast.mpr ⟨hrow, rfl⟩), ?_⟩
  rw [hd.eraseIdx_eq_filter hx, hkey]
  rfl

theorem deletion_of_not_mem (h : intOrZero tf ∉ keys l) :
    deletion l tf message = fail message := by
  have hindex : firstIndex l (intOrZero tf) = none := by
    rw [← Option.not_isSome_iff_eq_none, firstIndex_isSome_iff]
    exact h
  simp only [deletion, hindex]

theorem stops_deletion {E : Exit → Prop} [FailedChecks E] (l : List α) (tf : UITextField)
    (message : String) : Stops E (deletion l tf message) := by
  unfold deletion
  cases hindex : firstIndex l (intOrZero tf) with
  | none => exact stops_fail message
  | some row =>
    obtain ⟨x, hx, _⟩ := firstIndex_some hindex
    have hrow : row < l.length := (List.getElem?_eq_some_iff.mp hx).choose
    refine (stops_trapping fun t ht => ?_).bind fun _ => stops_pure _
    rw [removeAt_natCast.mpr ⟨hrow, rfl⟩] at ht
    cases ht

end Delete
end Info6350.TextApp
