import Info6350.Assignment5.OrderCreation
import Info6350.Assignment5.RepeatedIds

/-! # Reported outcomes

Seven functions look for the record whose id they read and print whether they changed or removed
it.  `updateLocation()` prints its success behind the search instead of inside it.
-/

namespace Info6350.Assignment5
open Library Swift Logistics Keyed

def Printed (text : String) (p q : Process Globals) : Prop :=
  ∃ printed, q.stdout = p.stdout ++ printed ∧ text ∈ printed

def Quiet (text : String) (p q : Process Globals) : Prop :=
  q.globals = p.globals ∧ ∃ printed, q.stdout = p.stdout ++ printed ∧ text ∉ printed

section Arrays
variable {α : Type} [Keyed α ℤ] (K : GlobalArray α)

/-- The record with an id is rewritten, and nothing else. -/
def GlobalArray.updated (id : ℤ) (f : α → α) (g : Globals) : Globals :=
  K.assign ((K.array g).map fun x => if key x = id then f x else x) g

/-- The record with an id is removed, and nothing else. -/
def GlobalArray.removed (id : ℤ) (g : Globals) : Globals :=
  K.assign ((K.array g).filter fun x => key x ≠ id) g

end Arrays

/-- A call prints its success exactly if the record was found, has then had its effect, and leaves
the arrays as they were without the record. -/
structure ReportsEffect (P : Platform) (p : Process Globals) (stack : List (List LogisticsOrder))
    (c : Control) (success : String) (found : Prop) (effect : Globals → Prop) : Prop where
  success_iff : (∃ st, (step P).Passes (State.Within c) ⟨p, c, stack⟩ st ∧
    Printed success p st.process) ↔ found
  changed : ∀ st, (step P).Passes (State.Within c) ⟨p, c, stack⟩ st →
    Printed success p st.process → effect st.globals
  unchanged : ¬ found → ∀ st, (step P).Passes (State.Within c) ⟨p, c, stack⟩ st →
    st.globals = p.globals

/-! What the update functions write into a record; the fields come from the lines after the id. -/

/-- `readLine() ?? ""` on the lines still to be read. -/
def enteredText (stdin : List String) : String := stdin.head?.getD ""

def Location.entered (stdin : List String) (location : Location) : Location where
  id := location.id
  street := enteredText stdin.tail
  city := enteredText stdin.tail.tail
  state := enteredText stdin.tail.tail.tail
  country := enteredText stdin.tail.tail.tail.tail
  zip := enteredText stdin.tail.tail.tail.tail.tail

def Item.entered (stdin : List String) (item : Item) : Item where
  id := item.id
  name := enteredText stdin.tail
  desc := enteredText stdin.tail.tail
  weight := enteredInt stdin.tail.tail.tail
  value := enteredInt stdin.tail.tail.tail.tail

section Reports
variable {P : Platform} {p q : Process Globals} {stack : List (List LogisticsOrder)}
  {c : Control} {success : String} {found : Prop} {effect : Globals → Prop}

theorem printed_iff {text : String} {printed : List String}
    (h : q.stdout = p.stdout ++ printed) : Printed text p q ↔ text ∈ printed := by
  constructor
  · rintro ⟨printed', h', htext⟩
    rwa [List.append_cancel_left (h.symm.trans h')]
  · exact fun htext => ⟨printed, h, htext⟩

theorem Quiet.not_printed {text : String} (h : Quiet text p q) : ¬ Printed text p q := by
  obtain ⟨-, printed, hout, htext⟩ := h
  rwa [printed_iff hout]

theorem Quiet.refl (text : String) (p : Process Globals) : Quiet text p p :=
  ⟨rfl, [], (List.append_nil _).symm, List.not_mem_nil⟩

theorem Quiet.append {text : String} {printed : List String} {q' : Process Globals}
    (h : Quiet text p q) (hglobals : q'.globals = q.globals)
    (hout : q'.stdout = q.stdout ++ printed) (htext : text ∉ printed) : Quiet text p q' := by
  obtain ⟨hq, before, hbefore, hnot⟩ := h
  refine ⟨hglobals.trans hq, before ++ printed, ?_, ?_⟩
  · rw [hout, hbefore, List.append_assoc]
  · exact fun hmem => (List.mem_append.mp hmem).elim hnot htext

theorem Quiet.printed {text : String} {printed : List String} {q' : Process Globals}
    (h : Quiet text p q) (hout : q'.stdout = q.stdout ++ printed) (htext : text ∈ printed) :
    Printed text p q' := by
  obtain ⟨-, before, hbefore, -⟩ := h
  refine ⟨before ++ printed, ?_, List.mem_append_right _ htext⟩
  rw [hout, hbefore, List.append_assoc]

/-- What a call has done when it is left: it found the record, had its effect and reported it, or
nothing. -/
def Outcome (success : String) (found : Prop) (effect : Globals → Prop) (p q : Process Globals) :
    Prop :=
  found ∧ effect q.globals ∧ Printed success p q ∨ ¬ found ∧ Quiet success p q

/-- Where nothing is written or reported before the function is left, and what it reports then
is right, it is enough that it is left when there is something to report. -/
theorem reportsEffect_iff_leaves
    (hin : ∀ st, (step P).Passes (State.Within c) ⟨p, c, stack⟩ st → State.Within c st →
      Quiet success p st.process)
    (hout : ∀ st, (step P).Leaves (State.Within c) ⟨p, c, stack⟩ st →
      Outcome success found effect p st.process) :
    ReportsEffect P p stack c success found effect ↔
      (found → ∃ st, (step P).Leaves (State.Within c) ⟨p, c, stack⟩ st) := by
  have hprinted : ∀ st, (step P).Passes (State.Within c) ⟨p, c, stack⟩ st →
      Printed success p st.process →
      (step P).Leaves (State.Within c) ⟨p, c, stack⟩ st ∧ found ∧ effect st.globals := by
    intro st hpass hst
    have hleaves : (step P).Leaves (State.Within c) ⟨p, c, stack⟩ st :=
      ⟨hpass, fun hwithin => (hin st hpass hwithin).not_printed hst⟩
    rcases hout st hleaves with ⟨hfound, heffect, -⟩ | ⟨-, hquiet⟩
    · exact ⟨hleaves, hfound, heffect⟩
    · exact absurd hst hquiet.not_printed
  constructor
  · intro h hfound
    obtain ⟨st, hpass, hst⟩ := h.success_iff.mpr hfound
    exact ⟨st, (hprinted st hpass hst).1⟩
  · intro h
    refine ⟨⟨?_, fun hfound => ?_⟩, fun st hpass hst => (hprinted st hpass hst).2.2, ?_⟩
    · rintro ⟨st, hpass, hst⟩
      exact (hprinted st hpass hst).2.1
    · obtain ⟨st, hleaves⟩ := h hfound
      rcases hout st hleaves with ⟨-, -, hst⟩ | ⟨hnot, -⟩
      · exact ⟨st, hleaves.1, hst⟩
      · exact absurd hfound hnot
    · intro hnot st hpass
      by_cases hwithin : State.Within c st
      · exact (hin st hpass hwithin).1
      · rcases hout st ⟨hpass, hwithin⟩ with ⟨hfound, -⟩ | ⟨-, hquiet⟩
        · exact absurd hfound hnot
        · exact hquiet.1

theorem reportsEffect_of_step {st : State} (hc : c.function = c)
    (hstep : step P ⟨p, c, stack⟩ () = .ok st) (hst : ¬ State.Within c st)
    (h : Outcome success found effect p st.process) :
    ReportsEffect P p stack c success found effect := by
  have hpasses : ∀ u, (step P).Passes (State.Within c) ⟨p, c, stack⟩ u ↔ _ :=
    fun u => Machine.passes_iff_of_step hc hstep hst
  refine (reportsEffect_iff_leaves ?_ ?_).mpr fun _ => ⟨st, (hpasses st).mpr (.inr rfl), hst⟩
  · intro u hpass hu
    rcases (hpasses u).mp hpass with rfl | rfl
    · exact .refl _ _
    · exact absurd hu hst
  · rintro u ⟨hpass, hu⟩
    rcases (hpasses u).mp hpass with rfl | rfl
    · exact absurd hc hu
    · exact h

end Reports

section Functions
variable {P : Platform} {p : Process Globals} (stack : List (List LogisticsOrder))

theorem deleteRecord_reports {α : Type} [Keyed α ℤ] {K : GlobalArray α} {c menu : Control}
    {prompt deleted failed : String} (hrun : c.run P = deleteRecord K prompt deleted failed menu)
    (hc : c.function = c) (hmenu : menu.function ≠ c) (hprompt : prompt ≠ deleted)
    (hfailed : failed ≠ deleted) (hids : Distinct (K.array p.globals)) :
    ReportsEffect P p stack c deleted (enteredInt p.stdin ∈ keys (K.array p.globals))
      fun g => g = K.removed (enteredInt p.stdin) p.globals := by
  cases hindex : firstIndex (K.array p.globals) (enteredInt p.stdin) with
  | some index =>
    obtain ⟨x, hx, hkey⟩ := firstIndex_some hindex
    have hcall : c.run P p = .ok (.call menu, ⟨K.assign ((K.array p.globals).eraseIdx index)
        p.globals, p.stdin.tail, p.stdout ++ [prompt] ++ [deleted]⟩) := by
      simp only [hrun, deleteRecord, Program.print_bind, readInt_bind, Program.globals_bind]
      rw [hindex]
      rfl
    refine reportsEffect_of_step hc (step_of_call stack hcall) hmenu (.inl ⟨?_, ?_, ?_⟩)
    · exact firstIndex_isSome_iff.mp (hindex ▸ rfl)
    · change K.assign _ _ = _
      rw [hids.eraseIdx_eq_filter hx, hkey]
      rfl
    · rw [printed_iff (List.append_assoc _ _ _)]
      simp
  | none =>
    have hcall : c.run P p = .ok (.call menu, ⟨p.globals, p.stdin.tail,
        p.stdout ++ [prompt] ++ [failed]⟩) := by
      simp only [hrun, deleteRecord, Program.print_bind, readInt_bind, Program.globals_bind]
      rw [hindex]
      rfl
    refine reportsEffect_of_step hc (step_of_call stack hcall) hmenu (.inr ⟨?_, ?_⟩)
    · exact not_mem_keys_of_firstIndex hindex
    · refine ((Quiet.refl deleted p).append rfl (List.append_assoc _ _ _) ?_)
      simp [hprompt.symm, hfailed.symm]

theorem updated_of_firstIndex {α : Type} [Keyed α ℤ] {K : GlobalArray α} {id : ℤ} {index : ℕ}
    (hids : Distinct (K.array p.globals)) (hindex : firstIndex (K.array p.globals) id = some index)
    (f : α → α) :
    K.assign ((K.array p.globals).modify index f) p.globals = K.updated id f p.globals := by
  obtain ⟨x, hx, rfl⟩ := firstIndex_some hindex
  rw [GlobalArray.updated, hids.modify_eq_map hx]

def updateItemPrompts : List String :=
  ["Enter item id: ", "Enter new item name: ", "Enter new item description: ",
    "Enter new item weight: ", "Enter new item value: "]

theorem updateItemPrompts_append (stdout : List String) :
    stdout ++ ["Enter item id: "] ++ ["Enter new item name: "] ++ ["Enter new item description: "] ++
      ["Enter new item weight: "] ++ ["Enter new item value: "] = stdout ++ updateItemPrompts := by
  simp [updateItemPrompts]

theorem updateItem_reports (hids : Distinct p.globals.items) :
    ReportsEffect P p stack .updateItem "Item updated successfully"
      (enteredInt p.stdin ∈ keys p.globals.items)
      fun g => g = items.updated (enteredInt p.stdin) (.entered p.stdin) p.globals := by
  cases hindex : firstIndex p.globals.items (enteredInt p.stdin) with
  | some index =>
    have hcall : (Control.updateItem).run P p = .ok (.call .itemMenu,
        ⟨items.assign (p.globals.items.modify index (.entered p.stdin)) p.globals,
          p.stdin.tail.tail.tail.tail.tail,
          p.stdout ++ updateItemPrompts ++ ["Item updated successfully"]⟩) := by
      change updateItem p = _
      simp only [updateItem, Program.print_bind, readInt_bind, readText_bind,
        Program.globals_bind, updateItemPrompts_append]
      rw [hindex]
      rfl
    refine reportsEffect_of_step rfl (step_of_call stack hcall) (fun h => by cases h)
      (.inl ⟨firstIndex_isSome_iff.mp (hindex ▸ rfl),
        updated_of_firstIndex (K := items) hids hindex _, ?_⟩)
    rw [printed_iff (List.append_assoc _ _ _)]
    decide
  | none =>
    have hcall : (Control.updateItem).run P p = .ok (.call .itemMenu,
        ⟨p.globals, p.stdin.tail.tail.tail.tail.tail,
          p.stdout ++ updateItemPrompts ++ ["Item updated failed"]⟩) := by
      change updateItem p = _
      simp only [updateItem, Program.print_bind, readInt_bind, readText_bind,
        Program.globals_bind, updateItemPrompts_append]
      rw [hindex]
      rfl
    refine reportsEffect_of_step rfl (step_of_call stack hcall) (fun h => by cases h)
      (.inr ⟨not_mem_keys_of_firstIndex hindex, ?_⟩)
    exact (Quiet.refl _ p).append rfl (List.append_assoc _ _ _) (by decide)

def updateLocationPrompts : List String :=
  ["Enter location id: ", "Enter new street name: ", "Enter new city name: ",
    "Enter new state name: ", "Enter new country name: ", "Enter new zip code: "]

theorem updateLocationPrompts_append (stdout : List String) :
    stdout ++ ["Enter location id: "] ++ ["Enter new street name: "] ++ ["Enter new city name: "] ++
      ["Enter new state name: "] ++ ["Enter new country name: "] ++ ["Enter new zip code: "] =
      stdout ++ updateLocationPrompts := by
  simp [updateLocationPrompts]

/-- Success is printed in any case, so that the report is right exactly if there is a location. -/
theorem updateLocation_reports_iff (hids : Distinct p.globals.locations) :
    ReportsEffect P p stack .updateLocation "Location updated successfully"
      (enteredInt p.stdin ∈ keys p.globals.locations)
      (fun g => g = locations.updated (enteredInt p.stdin) (.entered p.stdin) p.globals) ↔
    enteredInt p.stdin ∈ keys p.globals.locations := by
  have hcall : ∃ g, (Control.updateLocation).run P p = .ok (.call .locationMenu,
        ⟨g, p.stdin.tail.tail.tail.tail.tail.tail,
          p.stdout ++ updateLocationPrompts ++ ["Location updated successfully"]⟩) ∧
      ∀ index, firstIndex p.globals.locations (enteredInt p.stdin) = some index →
        g = locations.assign (p.globals.locations.modify index (.entered p.stdin)) p.globals := by
    change ∃ g, updateLocation p = _ ∧ _
    simp only [updateLocation, Program.print_bind, readInt_bind, readText_bind,
      Program.globals_bind, updateLocationPrompts_append]
    cases firstIndex p.globals.locations (enteredInt p.stdin) with
    | some index => exact ⟨_, rfl, fun _ h => Option.some.inj h ▸ rfl⟩
    | none => exact ⟨_, rfl, fun _ h => by cases h⟩
  obtain ⟨g, hcall, hg⟩ := hcall
  have hstep := step_of_call stack hcall
  have hprinted : Printed "Location updated successfully" p
      ⟨g, p.stdin.tail.tail.tail.tail.tail.tail,
        p.stdout ++ updateLocationPrompts ++ ["Location updated successfully"]⟩ := by
    rw [printed_iff (List.append_assoc _ _ _)]
    decide
  constructor
  · intro h
    exact h.success_iff.mp ⟨_, .single rfl hstep, hprinted⟩
  · intro hfound
    obtain ⟨index, hindex⟩ := Option.isSome_iff_exists.mp (firstIndex_isSome_iff.mpr hfound)
    have heffect := updated_of_firstIndex (K := locations) hids hindex (.entered p.stdin)
    exact reportsEffect_of_step rfl hstep (fun h => by cases h)
      (.inl ⟨hfound, (hg index hindex).trans heffect, hprinted⟩)

/-! ## The departure date -/

theorem useDate_of_found {q : Process Globals} {id : ℤ} {date : Date} {index : ℕ}
    (h : firstIndex q.globals.logisticsOrder id = some index) :
    useDate (.updateDepartureDate id) date q = .ok (.call .logisticsOrderMenu,
      { q with
        globals := logisticsOrder.assign (q.globals.logisticsOrder.modify index fun order =>
          { order with departureDate := date }) q.globals
        stdout := q.stdout ++ ["Departure date updated"] }) := by
  simp only [useDate, Program.globals_bind]
  rw [h]
  rfl

theorem useDate_of_missing {q : Process Globals} {id : ℤ} {date : Date}
    (h : firstIndex q.globals.logisticsOrder id = none) :
    useDate (.updateDepartureDate id) date q = .ok (.call .logisticsOrderMenu,
      { q with stdout := q.stdout ++ ["Departure date failed"] }) := by
  simp only [useDate, Program.globals_bind]
  rw [h]
  rfl

/-- The order with the id has the date that is entered. -/
def DepartureUpdated (P : Platform) (p : Process Globals) (g : Globals) : Prop :=
  ∃ date rest, enteredDate P p.stdin.tail = some (date, rest) ∧
    g = logisticsOrder.updated (enteredInt p.stdin)
      (fun order => { order with departureDate := date }) p.globals

/-- Where `updateDepartureDate()` is and what it has done: nothing before its date, and its work
after it. -/
inductive DepartureProgress (P : Platform) (p : Process Globals) : State → Prop where
  | called : DepartureProgress P p ⟨p, .updateDepartureDate, stack⟩
  | asking (q : Process Globals) (h : Quiet "Departure date updated" p q)
      (hdate : enteredDate P q.stdin = enteredDate P p.stdin.tail) :
      DepartureProgress P p
        ⟨q, .getDateFromUser (.updateDepartureDate (enteredInt p.stdin)), stack⟩
  | done (q : Process Globals)
      (h : Outcome "Departure date updated" (enteredInt p.stdin ∈ keys p.globals.logisticsOrder)
        (DepartureUpdated P p) p q) :
      DepartureProgress P p ⟨q, .logisticsOrderMenu, stack⟩

theorem departureProgress_step (hids : Distinct p.globals.logisticsOrder) {st st' : State}
    (h : DepartureProgress stack P p st) (hin : State.Within .updateDepartureDate st)
    (hstep : step P st () = .ok st') : DepartureProgress stack P p st' := by
  cases h with
  | called =>
    obtain rfl := Except.ok.inj hstep
    refine .asking _ ?_ rfl
    exact (Quiet.refl _ p).append rfl (List.append_assoc _ _ _) (by decide)
  | asking q hquiet hdate =>
    cases hentered : P.date (q.stdin.head?.getD "") with
    | none =>
      obtain rfl := Except.ok.inj ((step_invalidDate hentered).symm.trans hstep)
      refine .asking _ (hquiet.append rfl rfl (by decide)) ?_
      exact (enteredDate_of_none hentered).symm.trans hdate
    | some date =>
      have hdate := hdate.symm.trans (enteredDate_of_date hentered)
      have hrun := run_validDate (.updateDepartureDate (enteredInt p.stdin)) hentered
      have hglobals := hquiet.1
      cases hindex : firstIndex p.globals.logisticsOrder (enteredInt p.stdin) with
      | some index =>
        rw [useDate_of_found (hglobals ▸ hindex)] at hrun
        obtain rfl := Except.ok.inj ((step_of_call stack hrun).symm.trans hstep)
        refine .done _ (.inl ⟨firstIndex_isSome_iff.mp (hindex ▸ rfl), ?_, ?_⟩)
        · refine ⟨date, _, hdate, ?_⟩
          rw [hglobals]
          exact updated_of_firstIndex (K := logisticsOrder) hids hindex _
        · exact hquiet.printed rfl (by decide)
      | none =>
        rw [useDate_of_missing (hglobals ▸ hindex)] at hrun
        obtain rfl := Except.ok.inj ((step_of_call stack hrun).symm.trans hstep)
        refine .done _ (.inr ⟨not_mem_keys_of_firstIndex hindex, ?_⟩)
        exact hquiet.append rfl rfl (by decide)
  | done q h => cases hin

/-- The report is right exactly if a date is entered when there is an order to change. -/
theorem updateDepartureDate_reports_iff (hids : Distinct p.globals.logisticsOrder) :
    ReportsEffect P p stack .updateDepartureDate "Departure date updated"
      (enteredInt p.stdin ∈ keys p.globals.logisticsOrder) (DepartureUpdated P p) ↔
    (enteredInt p.stdin ∈ keys p.globals.logisticsOrder →
      (enteredDate P p.stdin.tail).isSome) := by
  have hprogress : ∀ st, (step P).Passes (State.Within .updateDepartureDate)
      ⟨p, .updateDepartureDate, stack⟩ st → DepartureProgress stack P p st :=
    fun st hpass => hpass.keeps (fun _ _ => departureProgress_step stack hids) .called
  rw [reportsEffect_iff_leaves]
  · refine forall_congr' fun _ => ?_
    let q₀ : Process Globals := ⟨p.globals, p.stdin.tail,
      p.stdout ++ ["Enter order id: "] ++ ["Enter new departure date: "]⟩
    have hfirst : (step P).Passes (State.Within .updateDepartureDate)
        ⟨p, .updateDepartureDate, stack⟩
        ⟨q₀, .getDateFromUser (.updateDepartureDate (enteredInt p.stdin)), stack⟩ := .single rfl rfl
    have hin : ∀ q, State.Within .updateDepartureDate
        ⟨q, .getDateFromUser (.updateDepartureDate (enteredInt p.stdin)), stack⟩ := fun _ => rfl
    cases hdate : enteredDate P p.stdin.tail with
    | none =>
      refine iff_of_false ?_ (by decide)
      rintro ⟨st, hleaves⟩
      exact not_ends_date (p := q₀) hin hdate (hfirst.ends_iff.mp (.inl ⟨st, hleaves⟩))
    | some entered =>
      refine iff_of_true ?_ rfl
      obtain ⟨q, hpass, -, hvalid, -⟩ := passes_date (p := q₀) hin hdate
      obtain ⟨q', hrun⟩ : ∃ q', (Control.getDateFromUser (.updateDepartureDate
          (enteredInt p.stdin))).run P q = .ok (.call .logisticsOrderMenu, q') := by
        rw [run_validDate _ hvalid]
        cases hindex : firstIndex q.globals.logisticsOrder (enteredInt p.stdin) with
        | some index => exact ⟨_, useDate_of_found hindex⟩
        | none => exact ⟨_, useDate_of_missing hindex⟩
      have hlast := Machine.Passes.single (hin q) (step_of_call stack hrun)
      exact ⟨_, hfirst.trans (hpass.trans hlast), fun h => by cases h⟩
  · intro st hpass hwithin
    cases hprogress st hpass with
    | called => exact .refl _ _
    | asking q hquiet _ => exact hquiet
    | done q h => cases hwithin
  · rintro st ⟨hpass, hout⟩
    cases hprogress st hpass with
    | called => exact absurd rfl hout
    | asking q hquiet _ => exact absurd rfl hout
    | done q h => exact h

/-! ## The items -/

/-- The order with the id carries the items that are entered, at their total. -/
def ItemsUpdated (p : Process Globals) (g : Globals) : Prop :=
  ∃ lines cost, enteredItems p.globals.items [] p.stdin.tail = some lines ∧
    getOrderTotal lines = .ok cost ∧
    g = logisticsOrder.updated (enteredInt p.stdin)
      (fun order => { order with itemsCarried := lines, cost := cost }) p.globals

/-- Where `updateItems()` is and what it has done: nothing before the stop code, and its work
after it. -/
inductive ItemsProgress (p : Process Globals) : State → Prop where
  | called : ItemsProgress p ⟨p, .updateItems, stack⟩
  | asking (q : Process Globals) (index : ℕ) (orderItems : List OrderItem)
      (h : Quiet "Order updated successfully" p q)
      (hindex : firstIndex p.globals.logisticsOrder (enteredInt p.stdin) = some index)
      (hlines : enteredItems p.globals.items orderItems q.stdin =
        enteredItems p.globals.items [] p.stdin.tail) :
      ItemsProgress p ⟨q, .enterItems (.updateItems index) orderItems, stack⟩
  | done (q : Process Globals)
      (h : Outcome "Order updated successfully"
        (enteredInt p.stdin ∈ keys p.globals.logisticsOrder) (ItemsUpdated p) p q) :
      ItemsProgress p ⟨q, .logisticsOrderMenu, stack⟩

theorem step_updateItems_found {index : ℕ}
    (h : firstIndex p.globals.logisticsOrder (enteredInt p.stdin) = some index) :
    step P ⟨p, .updateItems, stack⟩ () = .ok ⟨⟨p.globals, p.stdin.tail,
      p.stdout ++ ["Enter order id: "] ++ ["Enter items: "]⟩,
      .enterItems (.updateItems index) [], stack⟩ := by
  refine step_of_call stack ?_
  change updateItems p = _
  simp only [updateItems, Program.print_bind, readInt_bind, Program.globals_bind]
  rw [h]
  rfl

theorem step_updateItems_missing
    (h : firstIndex p.globals.logisticsOrder (enteredInt p.stdin) = none) :
    step P ⟨p, .updateItems, stack⟩ () = .ok ⟨⟨p.globals, p.stdin.tail,
      p.stdout ++ ["Enter order id: "] ++ ["Order update failed"]⟩,
      .logisticsOrderMenu, stack⟩ := by
  refine step_of_call stack ?_
  change updateItems p = _
  simp only [updateItems, Program.print_bind, readInt_bind, Program.globals_bind]
  rw [h]
  rfl

theorem run_updateItems_stop {q : Process Globals} {index : ℕ} {lines : List OrderItem} {cost : ℤ}
    (hstop : enteredInt q.stdin = 99) (hcost : getOrderTotal lines = .ok cost)
    (hindex : index < q.globals.logisticsOrder.length) :
    (Control.enterItems (.updateItems index) lines).run P q = .ok (.call .logisticsOrderMenu,
      ⟨logisticsOrder.assign (q.globals.logisticsOrder.modify index fun order =>
          { order with itemsCarried := lines, cost := cost }) q.globals, q.stdin.tail,
        q.stdout ++ ["Enter item id: (Enter 99 to exit)"] ++ ["Order updated successfully"]⟩) :=
  (run_stopCode hstop).trans (replaceItems_of_total hcost hindex)

theorem run_updateItems_overflow {q : Process Globals} {index : ℕ} {lines : List OrderItem}
    {t : Trap} (hstop : enteredInt q.stdin = 99) (hcost : getOrderTotal lines = .error t) :
    (Control.enterItems (.updateItems index) lines).run P q = .error (.trap t) :=
  (run_stopCode hstop).trans (replaceItems_of_error hcost)

theorem updateItems_leaves {index : ℕ} {lines : List OrderItem} {cost : ℤ}
    (hindex : firstIndex p.globals.logisticsOrder (enteredInt p.stdin) = some index)
    (hlines : enteredItems p.globals.items [] p.stdin.tail = some lines)
    (hcost : getOrderTotal lines = .ok cost) :
    ∃ st, (step P).Leaves (State.Within .updateItems) ⟨p, .updateItems, stack⟩ st ∧
      st.globals = logisticsOrder.assign (p.globals.logisticsOrder.modify index fun order =>
        { order with itemsCarried := lines, cost := cost }) p.globals := by
  obtain ⟨x, hx, -⟩ := firstIndex_some hindex
  have hin : ∀ q orderItems, State.Within .updateItems
      ⟨q, .enterItems (.updateItems index) orderItems, stack⟩ := fun _ _ => rfl
  have hfirst : (step P).Passes (State.Within .updateItems) ⟨p, .updateItems, stack⟩ _ :=
    .single rfl (step_updateItems_found stack hindex)
  obtain ⟨q, hpass, hglobals, hstop⟩ := passes_items (P := P) (p := ⟨p.globals, p.stdin.tail, _⟩)
    hin hlines
  have hlength : index < q.globals.logisticsOrder.length :=
    hglobals ▸ (List.getElem?_eq_some_iff.mp hx).1
  have hlast := Machine.Passes.single (M := step P) (hin q lines)
    (step_of_call stack (run_updateItems_stop hstop hcost hlength))
  refine ⟨_, ⟨hfirst.trans (hpass.trans hlast), fun h => by cases h⟩, ?_⟩
  change logisticsOrder.assign _ _ = _
  rw [hglobals]

theorem itemsProgress_step (hids : Distinct p.globals.logisticsOrder) {st st' : State}
    (h : ItemsProgress stack p st) (hin : State.Within .updateItems st)
    (hstep : step P st () = .ok st') : ItemsProgress stack p st' := by
  cases h with
  | called =>
    cases hindex : firstIndex p.globals.logisticsOrder (enteredInt p.stdin) with
    | some index =>
      obtain rfl := Except.ok.inj ((step_updateItems_found stack hindex).symm.trans hstep)
      refine .asking _ index [] ?_ hindex rfl
      exact (Quiet.refl _ p).append rfl (List.append_assoc _ _ _) (by decide)
    | none =>
      obtain rfl := Except.ok.inj ((step_updateItems_missing stack hindex).symm.trans hstep)
      refine .done _ (.inr ⟨not_mem_keys_of_firstIndex hindex, ?_⟩)
      exact (Quiet.refl _ p).append rfl (List.append_assoc _ _ _) (by decide)
  | asking q index orderItems hquiet hindex hlines =>
    by_cases hstop : enteredInt q.stdin = 99
    · have hentered := hlines.symm.trans (enteredItems_of_stop hstop)
      obtain ⟨x, hx, -⟩ := firstIndex_some hindex
      have hlength : index < q.globals.logisticsOrder.length :=
        hquiet.1 ▸ (List.getElem?_eq_some_iff.mp hx).1
      cases hcost : getOrderTotal orderItems with
      | error t =>
        cases (step_of_error (run_updateItems_overflow hstop hcost)).symm.trans hstep
      | ok cost =>
        have hnext := step_of_call stack (run_updateItems_stop (P := P) hstop hcost hlength)
        obtain rfl := Except.ok.inj (hnext.symm.trans hstep)
        refine .done _ (.inl ⟨firstIndex_isSome_iff.mp (hindex ▸ rfl), ?_, ?_⟩)
        · refine ⟨orderItems, cost, hentered, hcost, ?_⟩
          rw [hquiet.1]
          exact updated_of_firstIndex (K := logisticsOrder) hids hindex _
        · exact hquiet.printed (List.append_assoc _ _ _) (by decide)
    · obtain ⟨printed, hprinted, hnext⟩ :=
        step_enterItems (P := P) stack (.updateItems index) orderItems hstop
      obtain rfl := Except.ok.inj (hnext.symm.trans hstep)
      refine .asking _ index _ (hquiet.append rfl rfl hprinted) hindex ?_
      have hrest := (enteredItems_of_ne hstop).symm.trans hlines
      rwa [hquiet.1]
  | done q h => cases hin

/-- The report is right exactly if the items are entered up to a stop code, at a total that does
not overflow, when there is an order to change. -/
theorem updateItems_reports_iff (hids : Distinct p.globals.logisticsOrder) :
    ReportsEffect P p stack .updateItems "Order updated successfully"
      (enteredInt p.stdin ∈ keys p.globals.logisticsOrder) (ItemsUpdated p) ↔
    (enteredInt p.stdin ∈ keys p.globals.logisticsOrder →
      ∃ lines cost, enteredItems p.globals.items [] p.stdin.tail = some lines ∧
        getOrderTotal lines = .ok cost) := by
  have hprogress : ∀ st, (step P).Passes (State.Within .updateItems)
      ⟨p, .updateItems, stack⟩ st → ItemsProgress stack p st :=
    fun st hpass => hpass.keeps (fun _ _ => itemsProgress_step stack hids) .called
  rw [reportsEffect_iff_leaves]
  · refine forall_congr' fun hfound => ?_
    obtain ⟨index, hindex⟩ := Option.isSome_iff_exists.mp (firstIndex_isSome_iff.mpr hfound)
    obtain ⟨x, hx, -⟩ := firstIndex_some hindex
    let q₀ : Process Globals := ⟨p.globals, p.stdin.tail,
      p.stdout ++ ["Enter order id: "] ++ ["Enter items: "]⟩
    have hfirst : (step P).Passes (State.Within .updateItems) ⟨p, .updateItems, stack⟩
        ⟨q₀, .enterItems (.updateItems index) [], stack⟩ :=
      .single rfl (step_updateItems_found stack hindex)
    have hin : ∀ q orderItems, State.Within .updateItems
        ⟨q, .enterItems (.updateItems index) orderItems, stack⟩ := fun _ _ => rfl
    cases hlines : enteredItems p.globals.items [] p.stdin.tail with
    | none =>
      refine iff_of_false ?_ fun ⟨_, _, h, _⟩ => by cases h
      rintro ⟨st, hleaves⟩
      exact not_ends_items (p := q₀) hin hlines (hfirst.ends_iff.mp (.inl ⟨st, hleaves⟩))
    | some lines =>
      obtain ⟨q, hpass, hglobals, hstop⟩ := passes_items (P := P) (p := q₀) hin hlines
      cases hcost : getOrderTotal lines with
      | error t =>
        refine iff_of_false ?_ ?_
        · rintro ⟨st, hleaves⟩
          have hstops := Machine.stopsInside_of_error (M := step P) (hin q lines)
            (step_of_error (run_updateItems_overflow hstop hcost))
          exact hleaves.not_stopsInside ((hfirst.trans hpass).stopsInside_iff.mpr hstops)
        · rintro ⟨lines', cost, h, hcost'⟩
          obtain rfl := Option.some.inj h
          cases hcost.symm.trans hcost'
      | ok cost =>
        refine iff_of_true ?_ ⟨lines, cost, rfl, hcost⟩
        obtain ⟨st, hleaves, -⟩ := updateItems_leaves (P := P) stack hindex hlines hcost
        exact ⟨st, hleaves⟩
  · intro st hpass hwithin
    cases hprogress st hpass with
    | called => exact .refl _ _
    | asking q index orderItems hquiet _ _ => exact hquiet
    | done q h => cases hwithin
  · rintro st ⟨hpass, hout⟩
    cases hprogress st hpass with
    | called => exact absurd rfl hout
    | asking q index orderItems hquiet _ _ => exact absurd rfl hout
    | done q h => exact h

/-- Which reports are right, over arrays with distinct ids. -/
theorem reports_iff (hids : p.globals.DistinctIds) :
    (ReportsEffect P p stack .updateLocation "Location updated successfully"
        (enteredInt p.stdin ∈ keys p.globals.locations)
        (fun g => g = locations.updated (enteredInt p.stdin) (.entered p.stdin) p.globals) ↔
      enteredInt p.stdin ∈ keys p.globals.locations) ∧
    (ReportsEffect P p stack .updateDepartureDate "Departure date updated"
        (enteredInt p.stdin ∈ keys p.globals.logisticsOrder) (DepartureUpdated P p) ↔
      (enteredInt p.stdin ∈ keys p.globals.logisticsOrder →
        (enteredDate P p.stdin.tail).isSome)) ∧
    (ReportsEffect P p stack .updateItems "Order updated successfully"
        (enteredInt p.stdin ∈ keys p.globals.logisticsOrder) (ItemsUpdated p) ↔
      (enteredInt p.stdin ∈ keys p.globals.logisticsOrder →
        ∃ lines cost, enteredItems p.globals.items [] p.stdin.tail = some lines ∧
          getOrderTotal lines = .ok cost)) ∧
    ReportsEffect P p stack .updateItem "Item updated successfully"
      (enteredInt p.stdin ∈ keys p.globals.items)
      (fun g => g = items.updated (enteredInt p.stdin) (.entered p.stdin) p.globals) ∧
    ReportsEffect P p stack .deleteLocation "Location deleted successfully"
      (enteredInt p.stdin ∈ keys p.globals.locations)
      (fun g => g = locations.removed (enteredInt p.stdin) p.globals) ∧
    ReportsEffect P p stack .deleteItem "Item deleted successfully"
      (enteredInt p.stdin ∈ keys p.globals.items)
      (fun g => g = items.removed (enteredInt p.stdin) p.globals) ∧
    ReportsEffect P p stack .deleteOrder "Order deleted successfully"
      (enteredInt p.stdin ∈ keys p.globals.logisticsOrder)
      (fun g => g = logisticsOrder.removed (enteredInt p.stdin) p.globals) := by
  refine ⟨updateLocation_reports_iff stack hids.locations,
    updateDepartureDate_reports_iff stack hids.orders,
    updateItems_reports_iff stack hids.orders, updateItem_reports stack hids.items, ?_, ?_, ?_⟩
  · exact deleteRecord_reports (K := locations) stack rfl rfl (by decide) (by decide) (by decide)
      hids.locations
  · exact deleteRecord_reports (K := items) stack rfl rfl (by decide) (by decide) (by decide)
      hids.items
  · exact deleteRecord_reports (K := logisticsOrder) stack rfl rfl (by decide) (by decide)
      (by decide) hids.orders

end Functions

def Sample.missingLocation : List String := ["2", "3", "7", "", "", "", "", ""]

/-- The script prints that it updated the location. -/
theorem run_missingLocation :
    ∃ p, (step .utc).run (launch .utc Sample.missingLocation) (List.replicate 2 ()) =
        .ok ⟨p, .updateLocation, []⟩ ∧ p.globals = .initial .utc ∧
      ¬ ReportsEffect .utc p [] .updateLocation "Location updated successfully"
        (enteredInt p.stdin ∈ keys p.globals.locations)
        (fun g => g = locations.updated (enteredInt p.stdin) (.entered p.stdin) p.globals) := by
  refine ⟨_, rfl, rfl, fun h => ?_⟩
  have hfound := (updateLocation_reports_iff [] distinctIds_initial.locations).mp h
  exact absurd hfound (by decide)

theorem reports_iff_missingLocation :
    ReportsEffect .utc ⟨.initial .utc, ["7"], []⟩ [] .updateLocation
      "Location updated successfully" (7 ∈ keys (Globals.initial .utc).locations)
      (fun g => g = locations.updated 7 (.entered ["7"]) (.initial .utc)) ↔
    7 ∈ keys (Globals.initial .utc).locations :=
  (@reports_iff .utc ⟨.initial .utc, ["7"], []⟩ [] distinctIds_initial).1

end Info6350.Assignment5
