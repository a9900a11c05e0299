import Info6350.TableApp.Invariants

/-! # What a pane leaves alone

A step on the item screens writes neither locations nor orders, and so on.  Nothing is
assumed here of the list on screen, which may differ from the array.
-/

namespace Info6350.TableApp
open Library Swift Logistics

/-- A relation that the button and the delete respect is respected by every step. -/
theorem paneStep_frame {α δ ω : Type} {C : Controllers α δ ω} {F : Store → Store → Prop}
    {written : Bool} {s : Store} {p : Pane α δ} {e : PaneEvent ω} {r : PaneResult α δ}
    (hrefl : F s s) (htap : ∀ d s' a, C.createButtonTap written d s = .ok (s', a) → F s s')
    (hdelete : ∀ filtered row s' rest,
      C.commitDelete written filtered row s = .ok (s', rest) → F s s')
    (h : paneStep C written s p e = .ok r) : F s r.store := by
  cases paneStep_move h with
  | tap d s' a _ ht => exact htap d s' a ht
  | delete row s' rest _ _ _ hd => exact hdelete _ row s' rest hd
  | _ => exact hrefl

variable {P : Platform} {written : Bool} {s : Store}

theorem itemPane_frame {p : Pane Item ItemDetails} {e : PaneEvent ItemEdit}
    {r : PaneResult Item ItemDetails} (h : paneStep (itemControllers P) written s p e = .ok r) :
    s.SameLocations r.store ∧ s.SameOrders r.store := by
  refine paneStep_frame (F := fun s s' => s.SameLocations s' ∧ s.SameOrders s')
    ⟨⟨rfl, rfl⟩, ⟨rfl, rfl⟩⟩ (fun d s' a ht => ?_) (fun filtered row s' rest hd => ?_) h
  · obtain ⟨e, -, rfl⟩ := (itemControllers_carryOut P).tap_ok ht
    exact ⟨⟨rfl, rfl⟩, ⟨rfl, rfl⟩⟩
  · exact (ItemsTableViewController.commitDelete_array hd).2.2

theorem locationPane_frame {p : Pane Location LocationDetails} {e : PaneEvent LocationEdit}
    {r : PaneResult Location LocationDetails}
    (h : paneStep (locationControllers P) written s p e = .ok r) :
    s.SameItems r.store ∧ s.SameOrders r.store := by
  refine paneStep_frame (F := fun s s' => s.SameItems s' ∧ s.SameOrders s')
    ⟨⟨rfl, rfl⟩, ⟨rfl, rfl⟩⟩ (fun d s' a ht => ?_) (fun filtered row s' rest hd => ?_) h
  · obtain ⟨e, -, rfl⟩ := (locationControllers_carryOut P).tap_ok ht
    exact ⟨⟨rfl, rfl⟩, ⟨rfl, rfl⟩⟩
  · exact (LocationTableViewController.commitDelete_array hd).2.2

theorem orderPane_frame {edition : Edition} {p : Pane LogisticsOrder OrderDetails}
    {e : PaneEvent OrderEdit} {r : PaneResult LogisticsOrder OrderDetails}
    (h : paneStep (orderControllers P edition) written s p e = .ok r) :
    s.SameItems r.store ∧ s.SameLocations r.store := by
  refine paneStep_frame (F := fun s s' => s.SameItems s' ∧ s.SameLocations s')
    ⟨⟨rfl, rfl⟩, ⟨rfl, rfl⟩⟩ (fun d s' a ht => ?_) (fun filtered row s' rest hd => ?_) h
  · obtain ⟨e, -, rfl⟩ := (orderControllers_carryOut P edition).tap_ok ht
    exact ⟨⟨rfl, rfl⟩, ⟨rfl, rfl⟩⟩
  · exact LogisticOrderTableViewController.commitDelete_frame hd

end Info6350.TableApp
