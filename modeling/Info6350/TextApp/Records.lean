import Info6350.Library.Keyed
import Info6350.Logistics.OrderTotal
import Info6350.Swift.UIKit

/-! # Records and checks of the text-field apps

Assignment 8 and EmptyAppFinal declare the same records and enter them through text
fields only.  Their handlers make the same checks in the same order; only Assignment 8
refuses weights, values and quantities that are not positive.
-/

namespace Info6350.TextApp
open Library Swift Logistics

/-- An instant; the sources only compare dates. -/
abbrev Date := ℤ

structure Item where
  id : ℤ
  name : String
  desc : String
  weight : ℤ
  value : ℤ
deriving DecidableEq, Repr

structure Location where
  id : ℤ
  street : String
  city : String
  state : String
  country : String
  zip : ℤ
deriving DecidableEq, Repr

structure OrderItem where
  item : Item
  quantity : ℤ
deriving DecidableEq, Repr

structure LogisticsOrder where
  id : ℤ
  fromLocation : Location
  toLocation : Location
  estimatedArrivalDate : Date
  departureDate : Date
  cost : ℤ
  itemsCarried : List OrderItem
deriving DecidableEq, Repr

instance : OrderLine OrderItem := ⟨OrderItem.quantity, fun line => line.item.value⟩

instance : Keyed Item ℤ := ⟨Item.id⟩
instance : Keyed Location ℤ := ⟨Location.id⟩
instance : Keyed LogisticsOrder ℤ := ⟨LogisticsOrder.id⟩

@[simp] theorem key_item (i : Item) : Keyed.key i = i.id := rfl
@[simp] theorem key_location (l : Location) : Keyed.key l = l.id := rfl
@[simp] theorem key_order (o : LogisticsOrder) : Keyed.key o = o.id := rfl

/-- A `DateFormatter` with the format of the apps, `"MM-dd-yyyy"`. -/
structure DateFormatter where
  string : Date → String
  date : String → Option Date

/-- The formatter in UTC, on the dates of the dummy data. -/
def DateFormatter.utc : DateFormatter where
  string date :=
    if date = 711590400 then "07-21-2023" else if date = 716947200 then "09-21-2023" else ""
  date text :=
    if text = "07-21-2023" then some 711590400
    else if text = "09-21-2023" then some 716947200 else none

/-! The records of `generateDummyData` in EmptyAppFinal, which `addDataToDB` of Assignment 8
saves; `now` is the date that `Date()` returns. -/

def location1 : Location := ⟨1, "Smith St", "Boston", "Massachusetts", "United States", 2120⟩
def location2 : Location := ⟨2, "3rd St", "New York", "New York", "United States", 10009⟩
def item1 : Item := ⟨10, "Xbox", "Gaming Console", 2, 500⟩
def item2 : Item := ⟨11, "Sony Headphones", "Headphones", 1, 150⟩

def order1 (F : DateFormatter) (now : Date) : LogisticsOrder where
  id := 21
  fromLocation := location1
  toLocation := location2
  estimatedArrivalDate := (F.date "07-21-2023").getD now
  departureDate := (F.date "09-21-2023").getD now
  cost := 15
  itemsCarried := [⟨item1, 1⟩]

/-- The text fields, under their names in Assignment 8.  A screen reads and writes only the
fields that it has.  EmptyAppFinal shortens some of the names, and its delete screens call their
only field `textField`. -/
inductive Field where
  | tfItemId
  | tfItemName
  | tfItemDescription
  | tfItemWeight
  | tfItemValue
  | tfLocationId
  | tfStreetName
  | tfCityName
  | tfStateName
  | tfCountryName
  | tfZipcode
  | tfOrderId
  | tfFromLocationId
  | tfToLocationId
  | tfArrivalDate
  | tfDepartureDate
  | tfItemQuantity
  | tfDate
deriving DecidableEq, Repr

inductive Edition where
  | emptyApp
  | assignment8
deriving DecidableEq, Repr

section Checks
variable {α : Type} [Keyed α ℤ]

/-- The check that only Assignment 8 makes. -/
def Edition.refuseNonPositive : Edition → ℤ → String → Handler Unit
  | .emptyApp, _, _ => .ok ()
  | .assignment8, n, message => refuseIf (n ≤ 0) message

/-- `if let index = l.firstIndex(where: { $0.id == id }) { l[index] } else { ... }`. -/
def existing (l : List α) (id : ℤ) (message : String) : Handler α :=
  match firstIndex l id with
  | some index => trapping (subscript l index)
  | none => fail message

theorem existing_eq_lookup (l : List α) (id : ℤ) (message : String) :
    existing l id message = match lookup l id with
      | some x => .ok x
      | none => fail message := by
  have hlookup : lookup l id = (firstIndex l id).bind fun index => l[index]? := by
    rw [lookup, firstIndex, List.find?_eq_bind_findIdx?_getElem?]
  rw [existing, hlookup]
  cases h : firstIndex l id with
  | none => rfl
  | some index =>
    obtain ⟨x, hx, _⟩ := firstIndex_some h
    simp only [Option.bind_some, hx]
    exact trapping_ok_iff.mpr ((subscript_natCast l index).mpr hx)

/-- A text field that must hold a date. -/
def enteredDate (F : DateFormatter) (tf : UITextField) (empty invalid : String) : Handler Date := do
  let text ← nonEmptyText tf empty
  match F.date text with
  | some date => .ok date
  | none => fail invalid

def enteredItem (ed : Edition) (valueMessage : String) (form : Form Field) :
    Handler (ℤ → Item) := do
  let itemName ← nonEmptyText (form .tfItemName) "Item name is empty"
  let itemDesc ← textOf (form .tfItemDescription) "Item description is empty"
  let itemWeight ← intOf (form .tfItemWeight) "Invalid weight"
  ed.refuseNonPositive itemWeight "Weight cannot be 0"
  let itemValue ← intOf (form .tfItemValue) "Invalid value"
  ed.refuseNonPositive itemValue valueMessage
  return fun id => ⟨id, itemName, itemDesc, itemWeight, itemValue⟩

def enteredLocation (form : Form Field) : Handler (ℤ → Location) := do
  let streetName ← nonEmptyText (form .tfStreetName) "Street name is empty"
  let cityName ← nonEmptyText (form .tfCityName) "City name is empty"
  let stateName ← nonEmptyText (form .tfStateName) "State name is empty"
  let country ← nonEmptyText (form .tfCountryName) "Country name is empty"
  let zipCode ← intOf (form .tfZipcode) "Invalid zipcode"
  return fun id => ⟨id, streetName, cityName, stateName, country, zipCode⟩

def enteredLine (ed : Edition) (items : List Item) (form : Form Field) : Handler OrderItem := do
  let itemId ← intOf (form .tfItemId) "Invalid Item Id"
  let item ← existing items itemId "Item does not exist"
  let quantity ← intOf (form .tfItemQuantity) "Invalid Quantity"
  ed.refuseNonPositive quantity "Weight cannot be 0"
  return ⟨item, quantity⟩

section Stops
variable {E : Exit → Prop} [FailedChecks E]

theorem stops_refuseNonPositive (ed : Edition) (n : ℤ) (message : String) :
    Stops E (ed.refuseNonPositive n message) := by
  cases ed with
  | emptyApp => exact stops_ok ()
  | assignment8 => exact stops_refuseIf _ message

theorem stops_existing (l : List α) (id : ℤ) (message : String) :
    Stops E (existing l id message) := by
  rw [existing_eq_lookup]
  cases lookup l id with
  | none => exact stops_fail message
  | some x => exact stops_ok x

theorem stops_enteredDate (F : DateFormatter) (tf : UITextField) (empty invalid : String) :
    Stops E (enteredDate F tf empty invalid) := by
  refine (stops_nonEmptyText tf empty).bind fun text => ?_
  cases F.date text with
  | none => exact stops_fail invalid
  | some date => exact stops_ok date

theorem stops_enteredItem (ed : Edition) (valueMessage : String) (form : Form Field) :
    Stops E (enteredItem ed valueMessage form) :=
  (stops_nonEmptyText _ _).bind fun _ => (stops_textOf _ _).bind fun _ =>
    (stops_intOf _ _).bind fun _ => (stops_refuseNonPositive ed _ _).bind fun _ =>
    (stops_intOf _ _).bind fun _ => (stops_refuseNonPositive ed _ _).bind fun _ => stops_pure _

theorem stops_enteredLocation (form : Form Field) : Stops E (enteredLocation form) :=
  (stops_nonEmptyText _ _).bind fun _ => (stops_nonEmptyText _ _).bind fun _ =>
    (stops_nonEmptyText _ _).bind fun _ => (stops_nonEmptyText _ _).bind fun _ =>
    (stops_intOf _ _).bind fun _ => stops_pure _

theorem stops_enteredLine (ed : Edition) (items : List Item) (form : Form Field) :
    Stops E (enteredLine ed items form) :=
  (stops_intOf _ _).bind fun _ => (stops_existing items _ _).bind fun _ =>
    (stops_intOf _ _).bind fun _ => (stops_refuseNonPositive ed _ _).bind fun _ => stops_pure _

end Stops

theorem enteredItem_id {ed : Edition} {valueMessage : String} {form : Form Field}
    {item : ℤ → Item} (h : enteredItem ed valueMessage form = .ok item) (id : ℤ) :
    (item id).id = id := by
  simp only [enteredItem, bind_ok_iff, pure_ok_iff] at h
  obtain ⟨_, _, _, _, _, _, _, _, _, _, _, _, rfl⟩ := h
  rfl

theorem enteredLocation_id {form : Form Field} {location : ℤ → Location}
    (h : enteredLocation form = .ok location) (id : ℤ) : (location id).id = id := by
  simp only [enteredLocation, bind_ok_iff, pure_ok_iff] at h
  obtain ⟨_, _, _, _, _, _, _, _, _, _, rfl⟩ := h
  rfl

end Checks
end Info6350.TextApp
