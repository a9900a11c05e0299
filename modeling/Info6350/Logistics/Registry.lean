import Info6350.Library.Operation
import Info6350.Logistics.Store

/-! # The registry behind the arrays

What all the apps keep: maps from ids to items, locations and orders, on which one operation is
performed at a time.  A legal edit of an array is one operation on the map that it represents.
-/

namespace Info6350.Logistics
open Library Keyed

structure Registry (Item Location LogisticsOrder : Type) where
  items : ℤ → Option Item
  locations : ℤ → Option Location
  logisticsOrder : ℤ → Option LogisticsOrder

inductive Command (Item Location LogisticsOrder : Type) where
  | items (o : Operation Item ℤ)
  | locations (o : Operation Location ℤ)
  | orders (o : Operation LogisticsOrder ℤ)

section Registry
variable {Item Location LogisticsOrder : Type} [Keyed Item ℤ] [Keyed Location ℤ]
  [Keyed LogisticsOrder ℤ]

namespace Registry

/-- The maps that three arrays represent. -/
def ofArrays (items : List Item) (locations : List Location) (orders : List LogisticsOrder) :
    Registry Item Location LogisticsOrder :=
  ⟨lookup items, lookup locations, lookup orders⟩

def step : Machine (Registry Item Location LogisticsOrder) (Command Item Location LogisticsOrder)
    NotPerformed := fun r c =>
  match c with
  | .items o => (o.apply r.items).map fun items => { r with items := items }
  | .locations o => (o.apply r.locations).map fun locations => { r with locations := locations }
  | .orders o => (o.apply r.logisticsOrder).map fun orders => { r with logisticsOrder := orders }

end Registry

def Store.registry (s : Store Item Location LogisticsOrder) :
    Registry Item Location LogisticsOrder :=
  .ofArrays s.items s.locations s.logisticsOrder

namespace StoreEdit

/-- The operation that an edit of an array is, unless it keeps the array. -/
def command (s : Store Item Location LogisticsOrder) : StoreEdit Item Location LogisticsOrder →
    Option (Command Item Location LogisticsOrder)
  | .items e => (e.operation s.items).map .items
  | .locations e => (e.operation s.locations).map .locations
  | .orders e => (e.operation s.logisticsOrder).map .orders

/-- A legal edit performs its operation, whatever the database answers. -/
theorem step_command {s : Store Item Location LogisticsOrder} (hs : s.DistinctIds)
    {e : StoreEdit Item Location LogisticsOrder} (he : e.Legal s)
    {c : Command Item Location LogisticsOrder} (hc : e.command s = some c) (written : Bool) :
    Registry.step s.registry c = .ok (e.apply written s).registry := by
  cases e with
  | items e =>
    obtain ⟨o, ho, rfl⟩ := Option.map_eq_some_iff.mp hc
    exact map_ok_iff.mpr ⟨_, Edit.operation_apply hs.items he ho, rfl⟩
  | locations e =>
    obtain ⟨o, ho, rfl⟩ := Option.map_eq_some_iff.mp hc
    exact map_ok_iff.mpr ⟨_, Edit.operation_apply hs.locations he ho, rfl⟩
  | orders e =>
    obtain ⟨o, ho, rfl⟩ := Option.map_eq_some_iff.mp hc
    exact map_ok_iff.mpr ⟨_, Edit.operation_apply hs.logisticsOrder he ho, rfl⟩

end StoreEdit
end Registry
end Info6350.Logistics
