import Info6350.Library.Table
import Info6350.Logistics.OrderTotal
import Info6350.Swift.UIKit

/-! # Records of the table-view apps

Assignments 9 and 10 share their records and their controllers.  An order embeds
copies of its two locations and of the items that it carries.  While an order is
edited its lines live in an `OrderItems` object, whose total is recomputed by the
`didSet` observer of `items` on every mutation.

Swift compares strings up to canonical equivalence.  A `String` here stands for the
normalised text, so that equality is that of Swift.
-/

namespace Info6350.TableApp
open Library Swift Logistics

/-- The bytes of an encoded image. -/
abbrev Data := List UInt8

/-- An instant; the sources only compare dates. -/
abbrev Date := ℤ

structure Item where
  imageData : Option Data
  id : ℤ
  name : String
  desc : String
  weight : ℤ
  value : ℤ
deriving DecidableEq, Repr

structure Location where
  id : ℤ
  street : String
  city : String
  state : String
  country : String
  zip : String
deriving DecidableEq, Repr

structure OrderItem where
  item : Item
  quantity : ℤ
deriving DecidableEq, Repr

structure LogisticsOrder where
  id : ℤ
  fromLocation : Location
  toLocation : Location
  departureDate : Date
  estimatedArrivalDate : Date
  cost : ℤ
  itemsCarried : List OrderItem
deriving DecidableEq, Repr

instance : OrderLine OrderItem := ⟨OrderItem.quantity, fun line => line.item.value⟩

instance : Keyed Item ℤ := ⟨Item.id⟩
instance : Keyed Location ℤ := ⟨Location.id⟩
instance : Keyed LogisticsOrder ℤ := ⟨LogisticsOrder.id⟩

@[simp] theorem key_item (i : Item) : Keyed.key i = i.id := rfl
@[simp] theorem key_location (l : Location) : Keyed.key l = l.id := rfl
@[simp] theorem key_order (o : LogisticsOrder) : Keyed.key o = o.id := rfl

/-- The class `OrderItems`. -/
structure OrderItems where
  items : List OrderItem
  orderTotal : ℤ
deriving DecidableEq, Repr

namespace OrderItems

/-- `OrderItems()`. -/
def init : OrderItems := ⟨[], 0⟩

/-- `OrderItems(items:)`. -/
def initItems (items : List OrderItem) : Except Trap OrderItems := do
  let orderTotal ← getOrderTotal items
  return ⟨items, orderTotal⟩

/-- Assignment to `items`, with its observer. -/
def setItems (items : List OrderItem) (o : OrderItems) : Except Trap OrderItems := do
  let orderTotal ← getOrderTotal items
  return { o with items := items, orderTotal := orderTotal }

/-- A tap of a cell: `removeAll` of the lines with this item, then `append`. -/
def put (item : Item) (quantity : ℤ) (o : OrderItems) : Except Trap OrderItems := do
  let o ← o.setItems (o.items.filter fun line => line.item ≠ item)
  o.setItems (o.items ++ [⟨item, quantity⟩])

def TotalExact (o : OrderItems) : Prop := o.orderTotal = orderSum o.items

theorem init_totalExact : TotalExact init := rfl

theorem initItems_ok {items : List OrderItem} {o : OrderItems} (h : initItems items = .ok o) :
    o.items = items ∧ o.TotalExact := by
  obtain ⟨total, ht, h⟩ := bind_ok_iff.mp h
  obtain rfl := pure_ok_iff.mp h
  exact ⟨rfl, getOrderTotal_ok ht⟩

theorem setItems_ok {items : List OrderItem} {o o' : OrderItems} (h : o.setItems items = .ok o') :
    o'.items = items ∧ o'.TotalExact := by
  obtain ⟨total, ht, h⟩ := bind_ok_iff.mp h
  obtain rfl := pure_ok_iff.mp h
  exact ⟨rfl, getOrderTotal_ok ht⟩

theorem put_ok {item : Item} {quantity : ℤ} {o o' : OrderItems}
    (h : o.put item quantity = .ok o') :
    o'.items = o.items.filter (fun line => line.item ≠ item) ++ [⟨item, quantity⟩] ∧
      o'.TotalExact := by
  obtain ⟨m, hm, h⟩ := bind_ok_iff.mp h
  rw [← (setItems_ok hm).1]
  exact setItems_ok h

theorem initItems_error {items : List OrderItem} {t : Trap} (h : initItems items = .error t) :
    t = .overflow := by
  rcases bind_error_iff.mp h with h | ⟨total, -, h⟩
  · exact addTotal_error h
  · cases h

theorem setItems_error {items : List OrderItem} {o : OrderItems} {t : Trap}
    (h : o.setItems items = .error t) : t = .overflow := by
  rcases bind_error_iff.mp h with h | ⟨total, -, h⟩
  · exact addTotal_error h
  · cases h

theorem put_error {item : Item} {quantity : ℤ} {o : OrderItems} {t : Trap}
    (h : o.put item quantity = .error t) : t = .overflow := by
  rcases bind_error_iff.mp h with h | ⟨m, -, h⟩
  · exact setItems_error h
  · exact setItems_error h

end OrderItems
end Info6350.TableApp
