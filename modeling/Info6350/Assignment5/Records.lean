import Info6350.Library.Keyed
import Info6350.Logistics.OrderTotal

/-! # The records of Assignment 5

The records are global arrays that live as long as the process.  Nothing in the code
stops two records of an array from having one id.  Where the source has both sides of a
merge, the side of HEAD is modelled.
-/

namespace Info6350.Assignment5
open Library Swift Logistics

/-- An instant; the source only compares dates. -/
abbrev Date := ℤ

structure Location where
  id : ℤ
  street : String
  city : String
  state : String
  country : String
  zip : String
deriving DecidableEq, Repr

structure Item where
  id : ℤ
  name : String
  desc : String
  weight : ℤ
  value : ℤ
deriving DecidableEq, Repr

structure OrderItem where
  item : Item
  quantity : ℤ
deriving DecidableEq, Repr

structure LogisticsOrder where
  id : ℤ
  fromLocation : Location
  toLocation : Location
  estimatedArrivalDate : Date
  departureDate : Date
  cost : ℤ
  itemsCarried : List OrderItem
deriving DecidableEq, Repr

instance : OrderLine OrderItem := ⟨OrderItem.quantity, fun line => line.item.value⟩

instance : Keyed Location ℤ := ⟨Location.id⟩
instance : Keyed Item ℤ := ⟨Item.id⟩
instance : Keyed LogisticsOrder ℤ := ⟨LogisticsOrder.id⟩

@[simp] theorem key_location (l : Location) : Keyed.key l = l.id := rfl
@[simp] theorem key_item (i : Item) : Keyed.key i = i.id := rfl
@[simp] theorem key_order (o : LogisticsOrder) : Keyed.key o = o.id := rfl

/-- What the program uses of Foundation and of the standard library: the `DateFormatter` with the
format `"MM-dd-yyyy"`, the date that `Date()` returns, and the texts of values that have no
description of their own. -/
structure Platform where
  date : String → Option Date
  now : Date
  dateText : Date → String
  locationText : Location → String
  optionalLocationText : Location → String
  itemsText : List OrderItem → String
  orderText : LogisticsOrder → String

/-- The formatter in UTC, on the dates of the initial order. -/
def Platform.utc : Platform where
  date text :=
    if text = "07-21-2023" then some 711590400
    else if text = "09-21-2023" then some 716947200 else none
  now := 0
  dateText := utcText
  locationText := locationText
  optionalLocationText l := s!"Optional(Assignment_5.{locationText l})"
  itemsText := itemsText
  orderText o := s!"LogisticsOrder(id: {o.id}, fromLocation: Assignment_5.{locationText o.fromLocation}, toLocation: Assignment_5.{locationText o.toLocation}, estimatedArrivalDate: {utcText o.estimatedArrivalDate}, departureDate: {utcText o.departureDate}, cost: {o.cost}, itemsCarried: {itemsText o.itemsCarried})"
where
  utcText (date : Date) : String :=
    if date = 711590400 then "2023-07-21 00:00:00 +0000"
    else if date = 716947200 then "2023-09-21 00:00:00 +0000" else ""
  locationText (l : Location) : String :=
    s!"Location(id: {l.id}, street: {l.street.quote}, city: {l.city.quote}, state: {l.state.quote}, country: {l.country.quote}, zip: {l.zip.quote})"
  itemText (line : OrderItem) : String :=
    s!"Assignment_5.OrderItem(item: Assignment_5.Item(id: {line.item.id}, name: {line.item.name.quote}, desc: {line.item.desc.quote}, weight: {line.item.weight}, value: {line.item.value}), quantity: {line.quantity})"
  itemsText (lines : List OrderItem) : String :=
    "[" ++ ", ".intercalate (lines.map itemText) ++ "]"

def Location.getDescription (l : Location) : String :=
  s!"Location ID: {l.id} \nStreet: {l.street} \nCity: {l.city} \nState: {l.state} \nCountry: {l.country} \nZip Code: {l.zip} \n"

def Item.getDescription (i : Item) : String :=
  s!"Item ID: {i.id} \nName: {i.name} \nDescription: {i.desc} \nWeight: {i.weight} \nValue: {i.value} \n"

def LogisticsOrder.getDescription (P : Platform) (o : LogisticsOrder) : String :=
  s!"Location ID: {o.id} \nFrom Location: {P.locationText o.fromLocation} \nTo Location: {P.locationText o.toLocation} \nEstimated Arrival Date: {P.dateText o.estimatedArrivalDate} \nDeparture Date: {P.dateText o.departureDate} \nCost: {o.cost} \nItems Carried {P.itemsText o.itemsCarried} \n"

structure Globals where
  locations : List Location
  items : List Item
  logisticsOrder : List LogisticsOrder
deriving DecidableEq, Repr

def location1 : Location := ⟨1, "Smith St", "Boston", "Massachusetts", "United States", "02120"⟩
def location2 : Location := ⟨2, "3rd St", "New York", "New York", "United States", "10009"⟩

/-- The arrays when the script reaches `mainMenu()`. -/
def Globals.initial (P : Platform) : Globals where
  locations := [location1, location2]
  items := [⟨10, "Xbox", "Gaming Console", 2, 500⟩, ⟨11, "Sony Headphones", "Headphones", 1, 150⟩]
  logisticsOrder := [
    { id := 21
      fromLocation := location1
      toLocation := location2
      estimatedArrivalDate := (P.date "07-21-2023").getD P.now
      departureDate := (P.date "09-21-2023").getD P.now
      cost := 15
      itemsCarried := [⟨⟨10, "Xbox", "Gaming Console", 2, 500⟩, 1⟩] }]

structure GlobalArray (α : Type) where
  array : Globals → List α
  assign : List α → Globals → Globals

def locations : GlobalArray Location where
  array := Globals.locations
  assign l g := { g with locations := l }

def items : GlobalArray Item where
  array := Globals.items
  assign l g := { g with items := l }

def logisticsOrder : GlobalArray LogisticsOrder where
  array := Globals.logisticsOrder
  assign l g := { g with logisticsOrder := l }

end Info6350.Assignment5
