import Info6350.Assignment5.Effects

/-! # Repeated ids

The create functions append a record with the id that was typed and look for no other with
it.  So the ids of an array stay distinct exactly as long as the user types new ones; the
delete functions remove the first match, which is the only one as long as they do.
-/

namespace Info6350.Assignment5
open Library Swift Logistics Keyed

/-! ## The ids after a function -/

section Grows
variable {α : Type} [Keyed α ℤ]

/-- The ids of an array after a function: the one that it creates is added; otherwise none is, and
those that stay keep their order. -/
def Grows (created : Option ℤ) (l m : List α) : Prop :=
  match created with
  | some id => keys m = keys l ++ [id]
  | none => (keys m).Sublist (keys l)

theorem Grows.refl (l : List α) : Grows none l l := List.Sublist.refl _

theorem Grows.append (l : List α) (x : α) : Grows (some (key x)) l (l ++ [x]) := keys_append l [x]

theorem Grows.modify (l : List α) (i : ℕ) {f : α → α} (hf : ∀ x, key (f x) = key x) :
    Grows none l (l.modify i f) := by
  change (keys _).Sublist _
  rw [keys_modify l i hf]

theorem Grows.eraseIdx (l : List α) (i : ℕ) : Grows none l (l.eraseIdx i) :=
  (List.eraseIdx_sublist l i).map key

theorem Grows.distinct {created : Option ℤ} {l m : List α} (h : Grows created l m)
    (hl : Distinct l) (hnew : ∀ id ∈ created, id ∉ keys l) : Distinct m := by
  cases created with
  | none => exact List.Nodup.sublist h hl
  | some id =>
    have hkeys : keys m = keys l ++ [id] := h
    unfold Distinct
    rw [hkeys]
    exact List.Nodup.append hl (List.nodup_singleton _)
      (List.disjoint_singleton.mpr (hnew id rfl))

/-- A created record whose id was there already stays beside the other. -/
theorem Grows.new_of_distinct {id : ℤ} {l m : List α} (h : Grows (some id) l m)
    (hm : Distinct m) : id ∉ keys l := by
  have hkeys : keys m = keys l ++ [id] := h
  unfold Distinct at hm
  rw [hkeys] at hm
  exact fun hid => List.disjoint_of_nodup_append hm hid (List.mem_singleton_self id)

end Grows

/-! The ids of the records that a function creates from the lines that it reads; an order is
created when the loop over its items ends. -/

namespace Control

def createdLocation (c : Control) (stdin : List String) : Option ℤ :=
  match c with
  | .createLocation => some (enteredInt stdin)
  | _ => none

def createdItem (c : Control) (stdin : List String) : Option ℤ :=
  match c with
  | .createItem => some (enteredInt stdin)
  | _ => none

def createdOrder (c : Control) (stdin : List String) : Option ℤ :=
  match c with
  | .enterItems (.createOrder orderId _ _ _ _) _ =>
    if enteredInt stdin = 99 then some orderId else none
  | _ => none

end Control

structure GlobalsGrow (c : Control) (stdin : List String) (g g' : Globals) : Prop where
  locations : Grows (c.createdLocation stdin) g.locations g'.locations
  items : Grows (c.createdItem stdin) g.items g'.items
  orders : Grows (c.createdOrder stdin) g.logisticsOrder g'.logisticsOrder

section Functions
variable {P : Platform} {p q : Process Globals} {next : Next}

theorem GlobalsGrow.of_eq {c : Control} {stdin : List String} {g g' : Globals}
    (hl : c.createdLocation stdin = none) (hi : c.createdItem stdin = none)
    (ho : c.createdOrder stdin = none) (h : g' = g) : GlobalsGrow c stdin g g' := by
  subst h
  refine ⟨?_, ?_, ?_⟩
  · rw [hl]
    exact .refl _
  · rw [hi]
    exact .refl _
  · rw [ho]
    exact .refl _

theorem run_grows {c : Control} (h : c.run P p = .ok (next, q)) :
    GlobalsGrow c p.stdin p.globals q.globals := by
  cases c with
  | mainMenu => exact .of_eq rfl rfl rfl (menu_ok (.inl rfl) h).1
  | locationMenu => exact .of_eq rfl rfl rfl (menu_ok (.inr (.inl rfl)) h).1
  | itemMenu => exact .of_eq rfl rfl rfl (menu_ok (.inr (.inr (.inl rfl))) h).1
  | logisticsOrderMenu => exact .of_eq rfl rfl rfl (menu_ok (.inr (.inr (.inr rfl))) h).1
  | createOrder => exact .of_eq rfl rfl rfl (createOrder_globals h)
  | updateItems => exact .of_eq rfl rfl rfl (updateItems_globals h)
  | searchByLocation => exact .of_eq rfl rfl rfl (searchByLocation_globals h)
  | createLocation =>
    obtain ⟨-, rfl⟩ := Prod.mk.inj (Except.ok.inj h)
    exact ⟨.append _ _, .refl _, .refl _⟩
  | createItem =>
    obtain ⟨-, rfl⟩ := Prod.mk.inj (Except.ok.inj h)
    exact ⟨.refl _, .append _ _, .refl _⟩
  | updateLocation =>
    rcases updateLocation_ok h with h | ⟨locationIndex, _, _, _, _, _, -, h⟩
    · exact .of_eq rfl rfl rfl h
    · rw [h]
      exact ⟨.modify _ _ fun _ => rfl, .refl _, .refl _⟩
  | updateItem =>
    rcases updateItem_ok h with h | ⟨itemIndex, _, _, _, _, -, h⟩
    · exact .of_eq rfl rfl rfl h
    · rw [h]
      exact ⟨.refl _, .modify _ _ fun _ => rfl, .refl _⟩
  | deleteLocation =>
    rcases deleteRecord_ok h with ⟨index, -, h⟩ | ⟨-, h⟩
    · rw [h]
      exact ⟨.eraseIdx _ _, .refl _, .refl _⟩
    · exact .of_eq rfl rfl rfl h
  | deleteItem =>
    rcases deleteRecord_ok h with ⟨index, -, h⟩ | ⟨-, h⟩
    · rw [h]
      exact ⟨.refl _, .eraseIdx _ _, .refl _⟩
    · exact .of_eq rfl rfl rfl h
  | deleteOrder =>
    rcases deleteRecord_ok h with ⟨index, -, h⟩ | ⟨-, h⟩
    · rw [h]
      exact ⟨.refl _, .refl _, .eraseIdx _ _⟩
    · exact .of_eq rfl rfl rfl h
  | getDateFromUser caller =>
    rcases getDateFromUser_ok h with h | ⟨_, _, orderIndex, -, -, -, h⟩
    · exact .of_eq rfl rfl rfl h
    · rw [h]
      exact ⟨.refl _, .refl _, .modify _ _ fun _ => rfl⟩
  | enterItems caller orderItems =>
    rcases enterItems_ok h with ⟨hstop, h⟩ | ⟨hstop, h⟩
    · cases caller with
      | createOrder orderId fromLocation toLocation arrivalDate departureDate =>
        obtain ⟨l, m, -, -, h⟩ := h
        rw [h]
        refine ⟨.refl _, .refl _, ?_⟩
        simp only [Control.createdOrder, if_pos hstop]
        exact .append _ _
      | updateItems orderIndex =>
        have h : q.globals = _ := h
        rw [h]
        exact ⟨.refl _, .refl _, .modify _ _ fun _ => rfl⟩
    · refine .of_eq rfl rfl ?_ h
      cases caller with
      | createOrder => exact if_neg hstop
      | updateItems => rfl
  | _ =>
    obtain ⟨-, rfl⟩ := Prod.mk.inj (Except.ok.inj h)
    exact .of_eq rfl rfl rfl rfl

end Functions

/-! ## Runs -/

structure Globals.DistinctIds (g : Globals) : Prop where
  locations : Distinct g.locations
  items : Distinct g.items
  orders : Distinct g.logisticsOrder

namespace State
variable (st : State)

/-- A record that the next step creates has an id that no record of its kind has. -/
structure CreatesNew : Prop where
  location : ∀ id ∈ st.control.createdLocation st.process.stdin, id ∉ keys st.globals.locations
  item : ∀ id ∈ st.control.createdItem st.process.stdin, id ∉ keys st.globals.items
  order : ∀ id ∈ st.control.createdOrder st.process.stdin, id ∉ keys st.globals.logisticsOrder

/-- A delete that reports success for an id leaves no record of its kind with it. -/
def DeleteClears (P : Platform) : Prop :=
  ∀ st', step P st () = .ok st' →
    (st.control = .deleteLocation →
      st'.process.stdout.getLast? = some "Location deleted successfully" →
      enteredInt st.process.stdin ∉ keys st'.globals.locations) ∧
    (st.control = .deleteItem →
      st'.process.stdout.getLast? = some "Item deleted successfully" →
      enteredInt st.process.stdin ∉ keys st'.globals.items) ∧
    (st.control = .deleteOrder →
      st'.process.stdout.getLast? = some "Order deleted successfully" →
      enteredInt st.process.stdin ∉ keys st'.globals.logisticsOrder)

end State

section Runs
variable {P : Platform}

theorem not_mem_keys_deleted {α : Type} [Keyed α ℤ] {l : List α} {id : ℤ} {index : ℕ}
    (hl : Distinct l) (h : firstIndex l id = some index) : id ∉ keys (l.eraseIdx index) := by
  obtain ⟨x, hx, rfl⟩ := firstIndex_some h
  have hmem := Edit.mem_keys_delete (k := key x) hl hx
  exact fun hid => (hmem.mp hid).2 rfl

theorem distinctIds_initial : (Globals.initial P).DistinctIds := by
  refine ⟨?_, ?_, ?_⟩
  · exact (by decide : ([1, 2] : List ℤ).Nodup)
  · exact (by decide : ([10, 11] : List ℤ).Nodup)
  · exact (by decide : ([21] : List ℤ).Nodup)

theorem step_grows {st st' : State} {u : Unit} (h : step P st u = .ok st') :
    GlobalsGrow st.control st.process.stdin st.globals st'.globals := by
  obtain ⟨next, q, hrun, hglobals⟩ := step_run h
  rw [hglobals]
  exact run_grows hrun

theorem step_preserves_distinctIds :
    (step P).Preserves (fun st _ => True ∧ st.CreatesNew) fun st => st.globals.DistinctIds := by
  intro st u st' hst hnew h
  obtain ⟨hlocations, hitems, horders⟩ := step_grows h
  exact ⟨hlocations.distinct hst.locations hnew.2.location,
    hitems.distinct hst.items hnew.2.item, horders.distinct hst.orders hnew.2.order⟩

theorem createsNew_of_distinctIds {st st' : State} {u : Unit} (h : step P st u = .ok st')
    (hst : st'.globals.DistinctIds) : st.CreatesNew := by
  obtain ⟨hlocations, hitems, horders⟩ := step_grows h
  refine ⟨fun id hid => ?_, fun id hid => ?_, fun id hid => ?_⟩
  · rw [Option.mem_def.mp hid] at hlocations
    exact hlocations.new_of_distinct hst.locations
  · rw [Option.mem_def.mp hid] at hitems
    exact hitems.new_of_distinct hst.items
  · rw [Option.mem_def.mp hid] at horders
    exact horders.new_of_distinct hst.orders

theorem deleteClears_of_distinctIds {st : State} (hst : st.globals.DistinctIds) :
    st.DeleteClears P := by
  intro st' h
  obtain ⟨next, q, hrun, hglobals⟩ := step_run h
  rw [hglobals]
  refine ⟨fun hc _ => ?_, fun hc _ => ?_, fun hc _ => ?_⟩
  all_goals
    rw [hc] at hrun
    rcases deleteRecord_ok hrun with ⟨index, hindex, h⟩ | ⟨hindex, h⟩ <;> rw [h]
  · exact not_mem_keys_deleted hst.locations hindex
  · exact not_mem_keys_of_firstIndex hindex
  · exact not_mem_keys_deleted hst.items hindex
  · exact not_mem_keys_of_firstIndex hindex
  · exact not_mem_keys_deleted hst.orders hindex
  · exact not_mem_keys_of_firstIndex hindex

/-- Ids identify records throughout a run, and deletes clear theirs, exactly as long as every
record that is created gets an id that is new in its array. -/
theorem run_identifies_iff {stdin : List String} {ticks : List Unit} {st : State}
    (h : (step P).run (launch P stdin) ticks = .ok st) :
    ((step P).Always (fun st => st.globals.DistinctIds) (launch P stdin) ticks ∧
      (step P).Meets (fun st _ => st.DeleteClears P) (launch P stdin) ticks) ↔
    (step P).Meets (fun st _ => st.CreatesNew) (launch P stdin) ticks := by
  have hiff : (step P).Always (fun st => st.globals.DistinctIds) (launch P stdin) ticks ↔ _ :=
    Machine.always_iff_meets (A := fun _ => True) (fun _ hst => hst) step_preserves_distinctIds
      (fun _ _ _ _ _ => createsNew_of_distinctIds) distinctIds_initial (fun _ _ => trivial) h
  rw [← hiff]
  exact ⟨fun h => h.1, fun h => ⟨h, h.meets fun _ _ => deleteClears_of_distinctIds⟩⟩

end Runs

/-- The user creates an item with the id of the Xbox and then deletes the id. -/
def Sample.repeatedItem : List String := ["1", "1", "10", "Box", "", "1", "1", "4", "10"]

/-- The delete reports success, and the new item is still there. -/
theorem run_repeatedItem :
    ∃ st st', (step .utc).run (launch .utc Sample.repeatedItem) (List.replicate 4 ()) = .ok st ∧
      step .utc st () = .ok st' ∧ st.control = .deleteItem ∧ ¬ Distinct st.globals.items ∧
      st'.process.stdout.getLast? = some "Item deleted successfully" ∧
      10 ∈ keys st'.globals.items ∧ ¬ st.DeleteClears .utc := by
  refine ⟨_, _, rfl, rfl, rfl, by decide, by decide, by decide, fun h => ?_⟩
  exact absurd ((h _ rfl).2.1 rfl (by decide)) (by decide)

theorem run_identifies_iff_repeatedItem :
    ((step .utc).Always (fun st => st.globals.DistinctIds) (launch .utc Sample.repeatedItem)
        (List.replicate 5 ()) ∧
      (step .utc).Meets (fun st _ => st.DeleteClears .utc) (launch .utc Sample.repeatedItem)
        (List.replicate 5 ())) ↔
    (step .utc).Meets (fun st _ => st.CreatesNew) (launch .utc Sample.repeatedItem)
      (List.replicate 5 ()) :=
  @run_identifies_iff .utc Sample.repeatedItem (List.replicate 5 ()) _ rfl

end Info6350.Assignment5
