import Info6350.Library.Simulation
import Info6350.Logistics.Store

/-! # Stores that differ in the database alone

The handlers of the apps send statements to the database and never read it, so what they do
to one store they do to every store with the same arrays.
-/

namespace Info6350.Logistics
open Library Swift DatabaseManager

theorem settle_matched {α α' β β' : Type*} {R : α → α' → Prop} {S : β → β' → Prop}
    {finish : α → β} {finish' : α' → β'} {stay : List Alert → β} {stay' : List Alert → β'}
    {h : Handler α} {h' : Handler α'} (hh : Matched R h h')
    (hfinish : ∀ a b, R a b → S (finish a) (finish' b))
    (hstay : ∀ alerts, S (stay alerts) (stay' alerts)) :
    Matched S (settle finish stay h) (settle finish' stay' h') := by
  cases hh with
  | ok hr => exact .ok (hfinish _ _ hr)
  | error e =>
    cases e with
    | alert a => exact .ok (hstay [a])
    | silent => exact .ok (hstay [])
    | trap t => exact .error t

section Arrays
variable {Item Location LogisticsOrder : Type} [Keyed Item ℤ] [Keyed Location ℤ]
  [Keyed LogisticsOrder ℤ]

structure Store.SameArrays (s t : Store Item Location LogisticsOrder) : Prop where
  items : s.items = t.items
  locations : s.locations = t.locations
  logisticsOrder : s.logisticsOrder = t.logisticsOrder

def SameOutcome (r r' : Store Item Location LogisticsOrder × Alert) : Prop :=
  r.1.SameArrays r'.1 ∧ r.2 = r'.2

end Arrays

/-- An update changes the array alike whatever the tables hold and the database answers. -/
theorem updateRow_matched {α : Type} [Keyed α ℤ] (written written' : Bool) (l : List α) (row : ℕ)
    (entered : α → α) (t t' : Table α) :
    Matched (fun p q => p.1 = q.1) (updateRow written l row entered t)
      (updateRow written' l row entered t') :=
  .bind_left _ fun _ => .bind_left _ fun _ => .ok rfl

end Info6350.Logistics
