import Info6350.Assignment8.NamedRecord
import Info6350.TableApp.OrderTotals

/-! # Overflow of order costs

Three screens of Assignment 8 multiply a quantity by a value, and one of them adds the product to
the cost of an order.  The checks before the product are written out here over the fields and the
arrays; together with the order totals of Assignment 9 they say when an app traps on a cost.
-/

namespace Info6350.Assignment8
open Library Swift Logistics TextApp

variable (F : DateFormatter)

/-- The line that a screen enters, when its checks accept the item and the quantity. -/
structure EntersLine (s : Store) (form : Form Field) (line : OrderItem) : Prop where
  item : ∃ id, (form .tfItemId).int? = some id ∧ lookup s.items id = some line.item
  quantity : (form .tfItemQuantity).int? = some line.quantity
  quantity_pos : 0 < line.quantity

def HoldsDate (tf : UITextField) (date : Date) : Prop :=
  ∃ text, tf.text = some text ∧ text ≠ "" ∧ F.date text = some date

/-- The create screen of the orders passes the checks that come before the item. -/
structure EntersOrder (s : Store) (form : Form Field) : Prop where
  id : ∃ id, (form .tfOrderId).int? = some id ∧ id ∉ keys s.logisticsOrder
  fromLocation : ∃ id, (form .tfFromLocationId).int? = some id ∧ id ∈ keys s.locations
  toLocation : ∃ id, (form .tfToLocationId).int? = some id ∧ id ∈ keys s.locations
  dates : ∃ arrival departure, HoldsDate F (form .tfArrivalDate) arrival ∧
    HoldsDate F (form .tfDepartureDate) departure ∧ departure ≤ arrival

def lineCost (line : OrderItem) : ℤ := line.quantity * line.item.value

/-- The products and the sum that a step computes fit. -/
def CostFits (st : AppState) (i : Input) : Prop :=
  match st.screen, i.event with
  | .create .order form, .btnTap => EntersOrder F st.store form →
      ∀ line, EntersLine st.store form line → InRange (lineCost line)
  | .change .updateOrderItem scr, .btnTap =>
      ∀ line, EntersLine st.store scr.form line → InRange (lineCost line)
  | .change .addItems scr, .btnTap =>
      ∀ line, EntersLine st.store scr.form line → InRange (lineCost line) ∧
        ∀ order, subscript st.store.logisticsOrder scr.foundIndex = .ok order →
          InRange (order.cost + lineCost line)
  | _, _ => True

section Checks
variable {F} {s : Store} {form : Form Field}

theorem existing_ok_iff {α : Type} [Keyed α ℤ] {l : List α} {id : ℤ} {message : String} {x : α} :
    existing l id message = .ok x ↔ lookup l id = some x := by
  rw [existing_eq_lookup]
  cases lookup l id <;> simp [fail]

theorem enteredLine_ok_iff {line : OrderItem} :
    enteredLine .assignment8 s.items form = .ok line ↔ EntersLine s form line := by
  simp only [enteredLine, bind_ok_iff, intOf_ok_iff, existing_ok_iff, pure_ok_iff,
    Edition.refuseNonPositive, refuseIf_ok_iff]
  constructor
  · rintro ⟨id, hid, item, hitem, quantity, hquantity, _, hpos, rfl⟩
    exact ⟨⟨id, hid, hitem⟩, hquantity, not_le.mp hpos⟩
  · rintro ⟨⟨id, hid, hitem⟩, hquantity, hpos⟩
    exact ⟨id, hid, line.item, hitem, line.quantity, hquantity, (), not_le.mpr hpos, rfl⟩

theorem enteredDate_ok_iff {tf : UITextField} {empty invalid : String} {date : Date} :
    enteredDate F tf empty invalid = .ok date ↔ HoldsDate F tf date := by
  simp only [enteredDate, bind_ok_iff, nonEmptyText_ok_iff, HoldsDate, and_assoc]
  refine exists_congr fun text => and_congr_right fun _ => and_congr_right fun _ => ?_
  cases F.date text <;> simp [fail]

theorem getOrderTotal_line_iff {line : OrderItem} :
    getOrderTotal [line] = .error .overflow ↔ ¬ InRange (lineCost line) := by
  rw [getOrderTotal, addTotal_cons_overflow_iff]
  change _ ∨ ¬ InRange (0 + lineCost line) ∨ addTotal (0 + lineCost line) [] = _ ↔ _
  rw [zero_add]
  change ¬ InRange (lineCost line) ∨ _ ∨ _ ↔ _
  simp [addTotal]

theorem getOrderTotal_line {line : OrderItem} {cost : ℤ} (h : getOrderTotal [line] = .ok cost) :
    cost = lineCost line := by
  rw [getOrderTotal_ok h, orderSum, List.map_singleton, List.sum_singleton]
  rfl

theorem lineCost_overflow_iff {β : Type} {f : OrderItem → ℤ → Handler β}
    (hf : ∀ line cost, Stops Exit.Trapless (f line cost)) :
    (enteredLine .assignment8 s.items form >>= fun line =>
        trapping (getOrderTotal [line]) >>= f line) = .error (.trap .overflow) ↔
      ∃ line, EntersLine s form line ∧ ¬ InRange (lineCost line) := by
  rw [(stops_enteredLine .assignment8 s.items form).bind_trap_iff]
  refine exists_congr fun line => and_congr enteredLine_ok_iff ?_
  rw [bind_error_iff, trapping_trap_iff, getOrderTotal_line_iff]
  refine or_iff_left ?_
  rintro ⟨cost, -, h⟩
  exact hf line cost _ h

theorem createOrder_overflow_iff :
    createOrder F .assignment8 s.items s.locations s.logisticsOrder form =
        .error (.trap .overflow) ↔
      EntersOrder F s form ∧ ∃ line, EntersLine s form line ∧ ¬ InRange (lineCost line) := by
  have hfound : ∀ id, (∃ x, lookup s.locations id = some x) ↔ id ∈ keys s.locations := by
    intro id
    rw [← Option.ne_none_iff_exists', Ne, lookup_eq_none_iff, not_not]
  unfold createOrder
  simp only [(stops_newId _ _ _ _).bind_trap_iff, (stops_intOf _ _).bind_trap_iff,
    (stops_existing s.locations _ _).bind_trap_iff, (stops_enteredDate F _ _ _).bind_trap_iff,
    refuseIf_bind_trap_iff, newId_ok_iff, intOf_ok_iff, existing_ok_iff, enteredDate_ok_iff, not_lt]
  simp only [lineCost_overflow_iff fun _ _ => stops_pure _]
  constructor
  · rintro ⟨id, hid, fromId, hfromId, x, hx, toId, htoId, y, hy, arrival, harrival, departure,
      hdeparture, hle, h⟩
    exact ⟨⟨⟨id, hid⟩, ⟨fromId, hfromId, (hfound fromId).mp ⟨x, hx⟩⟩,
      ⟨toId, htoId, (hfound toId).mp ⟨y, hy⟩⟩, arrival, departure, harrival, hdeparture, hle⟩, h⟩
  · rintro ⟨⟨⟨id, hid⟩, ⟨fromId, hfromId, hfrom⟩, ⟨toId, htoId, hto⟩, arrival, departure, harrival,
      hdeparture, hle⟩, h⟩
    obtain ⟨x, hx⟩ := (hfound fromId).mpr hfrom
    obtain ⟨y, hy⟩ := (hfound toId).mpr hto
    exact ⟨id, hid, fromId, hfromId, x, hx, toId, htoId, y, hy, arrival, harrival, departure,
      hdeparture, hle, h⟩

theorem btnUpdateTap_overflow_iff {C : ChangeController} {written : Bool} {scr : FetchState} :
    C.btnUpdateTap written scr s = .error (.trap .overflow) ↔
      C.screen.entered s.items scr.form = .error (.trap .overflow) ∨
      ∃ entered record, C.screen.entered s.items scr.form = .ok entered ∧
        subscript (C.slot.array s) scr.foundIndex = .ok record ∧
        entered record = .error .overflow := by
  have hchange : C.btnUpdateTap written scr s = .error (.trap .overflow) ↔
      C.screen.change s.items (C.slot.array s) scr.form scr.foundIndex =
        .error (.trap .overflow) := by
    rw [ChangeController.btnUpdateTap, bind_error_iff]
    refine or_iff_left ?_
    rintro ⟨⟨array, updated⟩, -, h⟩
    cases h
  rw [hchange, ChangeScreen.change, bind_error_iff]
  refine or_congr_right (exists_congr fun entered => ?_)
  rw [exists_and_left, bind_error_iff, trapping_trap_iff]
  refine and_congr_right fun _ => ?_
  constructor
  · rintro (h | ⟨record, hrecord, h⟩)
    · cases subscript_error h
    · rcases bind_error_iff.mp h with h | ⟨_, -, h⟩
      · exact ⟨record, trapping_ok_iff.mp hrecord, trapping_trap_iff.mp h⟩
      · cases h
  · rintro ⟨record, hrecord, h⟩
    exact .inr ⟨record, trapping_ok_iff.mpr hrecord,
      bind_error_iff.mpr (.inl (trapping_trap_iff.mpr h))⟩

theorem btnUpdateTap_ne_overflow {C : ChangeController} {written : Bool} {scr : FetchState}
    {α : Type} {checks : Handler α} {write : α → C.Record → C.Record}
    (hstops : Stops Exit.Trapless checks)
    (hentered : C.screen.entered s.items scr.form = do
      let entry ← checks
      return fun record => .ok (write entry record)) :
    C.btnUpdateTap written scr s ≠ .error (.trap .overflow) := by
  rw [Ne, btnUpdateTap_overflow_iff, hentered]
  rintro (h | ⟨entered, record, h, -, hrecord⟩)
  · exact (hstops.bind fun _ => stops_pure _) _ h
  · obtain ⟨entry, -, h⟩ := bind_ok_iff.mp h
    obtain rfl := pure_ok_iff.mp h
    cases hrecord

theorem updateOrderItems_overflow_iff {written : Bool} {scr : FetchState} :
    (Changer.controller F .updateOrderItem).btnUpdateTap written scr s =
        .error (.trap .overflow) ↔
      ∃ line, EntersLine s scr.form line ∧ ¬ InRange (lineCost line) := by
  rw [btnUpdateTap_overflow_iff]
  refine (or_iff_left ?_).trans (lineCost_overflow_iff fun _ _ => stops_pure _)
  rintro ⟨entered, record, hentered, -, h⟩
  obtain ⟨line, -, hentered⟩ := bind_ok_iff.mp hentered
  obtain ⟨cost, -, hentered⟩ := bind_ok_iff.mp hentered
  obtain rfl := pure_ok_iff.mp hentered
  cases h

theorem addItems_overflow_iff {written : Bool} {scr : FetchState} :
    (Changer.controller F .addItems).btnUpdateTap written scr s = .error (.trap .overflow) ↔
      ∃ line, EntersLine s scr.form line ∧ (¬ InRange (lineCost line) ∨
        ∃ order, subscript s.logisticsOrder scr.foundIndex = .ok order ∧
          ¬ InRange (order.cost + lineCost line)) := by
  rw [btnUpdateTap_overflow_iff]
  constructor
  · rintro (h | ⟨entered, order, hentered, horder, h⟩)
    · obtain ⟨line, hline, hcost⟩ := (lineCost_overflow_iff fun _ _ => stops_pure _).mp h
      exact ⟨line, hline, .inl hcost⟩
    · obtain ⟨line, hline, hentered⟩ := bind_ok_iff.mp hentered
      obtain ⟨cost, hcost, hentered⟩ := bind_ok_iff.mp hentered
      obtain rfl := pure_ok_iff.mp hentered
      obtain rfl := getOrderTotal_line (trapping_ok_iff.mp hcost)
      refine ⟨line, enteredLine_ok_iff.mp hline, .inr ⟨order, horder, ?_⟩⟩
      rcases bind_error_iff.mp h with h | ⟨_, -, h⟩
      · exact checked_overflow_iff.mp h
      · cases h
  · rintro ⟨line, hline, hcost⟩
    have hentered := enteredLine_ok_iff.mpr hline
    rcases hcost with hcost | ⟨order, horder, hcost⟩
    · exact .inl ((lineCost_overflow_iff fun _ _ => stops_pure _).mpr ⟨line, hline, hcost⟩)
    · cases htotal : getOrderTotal [line] with
      | error t =>
        obtain rfl := addTotal_error htotal
        have hline' : ¬ InRange (lineCost line) := getOrderTotal_line_iff.mp htotal
        exact .inl ((lineCost_overflow_iff fun _ _ => stops_pure _).mpr ⟨line, hline, hline'⟩)
      | ok cost =>
        obtain rfl := getOrderTotal_line htotal
        refine .inr ⟨_, order, bind_ok_iff.mpr ⟨line, hentered, bind_ok_iff.mpr
          ⟨lineCost line, trapping_ok_iff.mpr htotal, rfl⟩⟩, horder, ?_⟩
        exact bind_error_iff.mpr (.inl (checked_overflow_iff.mpr hcost))

end Checks

/-! ## Runs -/

/-- Fetch fills the fields without arithmetic. -/
theorem Changer.fill_error {F : DateFormatter} (c : Changer) {record : (c.controller F).Record}
    {form : Form Field} {t : Trap} (h : (c.controller F).screen.fill record form = .error t) :
    t = .indexOutOfRange := by
  cases c with
  | updateOrderItem =>
    rcases bind_error_iff.mp h with h | ⟨line, -, h⟩
    · exact subscript_error h
    · cases h
  | _ => cases h

theorem step_overflow_iff (st : AppState) (i : Input) :
    step F st i ≠ .error .overflow ↔ CostFits F st i := by
  have hok : ∀ {st' : AppState}, (Except.ok st' : Except Trap _) ≠ .error .overflow ↔ True :=
    iff_of_true (fun h => by cases h) trivial
  have htrapless : ∀ {α : Type} {finish : α → AppState} {stay} {h : Handler α},
      Stops Exit.Trapless h → (settle finish stay h ≠ .error .overflow ↔ True) := by
    intro α finish stay h hh
    exact iff_of_true (fun hs => hh _ (settle_error_iff.mp hs)) trivial
  obtain ⟨s, screen, alerts⟩ := st
  obtain ⟨event, written⟩ := i
  cases screen with
  | main => cases event <;> exact hok
  | menu m =>
    cases event with
    | presentChange c =>
      simp only [step]
      split_ifs <;> exact hok
    | _ => exact hok
  | create m form =>
    cases event with
    | btnTap =>
      simp only [step]
      cases m with
      | item => exact htrapless ((stops_createItem _ _ _).bind fun _ => stops_pure _)
      | location => exact htrapless ((stops_createLocation _ _).bind fun _ => stops_pure _)
      | order =>
        rw [Ne, settle_error_iff, btnCreateTap, bind_error_iff, createOrder_overflow_iff]
        rw [or_iff_left (by rintro ⟨order, -, h⟩; cases h)]
        simp only [CostFits, not_and, not_exists, not_not]
    | _ => cases m <;> exact hok
  | delete m form =>
    cases event with
    | btnTap =>
      simp only [step]
      cases m with
      | item => exact htrapless ((stops_deletion _ _ _).bind fun _ => stops_pure _)
      | location => exact htrapless ((stops_deletion _ _ _).bind fun _ => stops_pure _)
      | order => exact htrapless ((stops_deletion _ _ _).bind fun _ => stops_pure _)
    | _ => exact hok
  | change c scr =>
    cases event with
    | btnFetchTap =>
      have hfetch : Stops Exit.IndexOnly ((c.controller F).btnFetchTap scr s) :=
        (ChangeScreen.fetch_stops fun record _ t ht => c.fill_error ht).bind fun _ => stops_pure _
      cases c <;> exact iff_of_true (settle_ne_overflow hfetch) trivial
    | btnTap =>
      simp only [step]
      rw [Ne, settle_error_iff]
      cases c with
      | updateItem =>
        exact iff_of_true (btnUpdateTap_ne_overflow (stops_enteredItem _ _ _) rfl) trivial
      | updateLocation =>
        exact iff_of_true (btnUpdateTap_ne_overflow (stops_enteredLocation _) rfl) trivial
      | updateDepartureDate =>
        exact iff_of_true (btnUpdateTap_ne_overflow (stops_enteredDate F _ _ _) rfl) trivial
      | updateOrderItem =>
        rw [updateOrderItems_overflow_iff]
        simp only [CostFits, not_and, not_exists, not_not]
      | addItems =>
        rw [addItems_overflow_iff]
        simp only [CostFits, not_and, not_exists, not_not, not_or]
    | _ => cases c <;> exact hok

/-- For every database of accepted items in Assignment 9, every database in Assignment 8 and all
runs: no step overflows if and only if the sum over the lines of every order that is opened or
tapped stays below 2^63, and in Assignment 8 every product of an accepted quantity and a value,
with the cost that it is added to, stays in 64 bits. -/
theorem run_costsFit_iff (P : TableApp.Platform) {tableDb : TableApp.Database}
    (hdb : TableApp.Store.Priced (generateDummyData tableDb)) (tableInputs : List TableApp.Input)
    (db : Database) (inputs : List Input) :
    ((TableApp.step P .assignment9).Meets
        (fun st i => TableApp.step P .assignment9 st i ≠ .error .overflow)
        (TableApp.AppState.atMenu (generateDummyData tableDb)) tableInputs ↔
      (TableApp.step P .assignment9).Meets TableApp.CostFits
        (TableApp.AppState.atMenu (generateDummyData tableDb)) tableInputs) ∧
    ((step F).Meets (fun st i => step F st i ≠ .error .overflow) (AppState.launch db) inputs ↔
      (step F).Meets (CostFits F) (AppState.launch db) inputs) := by
  refine ⟨TableApp.meets_costFits_iff P hdb tableInputs, ?_⟩
  refine Machine.meets_congr_of_meets (I := fun _ => True) (fun _ _ _ _ _ _ => trivial) ?_ trivial
    (Machine.meets_anyStep _ inputs)
  exact fun st i _ _ => step_overflow_iff F st i

namespace Sample

def addConsoles (quantity : String) : List Input :=
  [⟨.onButtonClicked .order, true⟩, ⟨.presentChange .addItems, true⟩, ⟨.type .tfOrderId "21", true⟩,
    ⟨.btnFetchTap, true⟩, ⟨.type .tfItemId "10", true⟩, ⟨.type .tfItemQuantity quantity, true⟩,
    ⟨.btnTap, true⟩]

/-- As many as an `Int` can count. -/
def addAll : List Input := addConsoles "9223372036854775807"

theorem addTwo_meets :
    (step .utc).Meets (CostFits .utc) (AppState.launch database) (addConsoles "2") := by
  refine .cons trivial rfl <| .cons trivial rfl <| .cons trivial rfl <| .cons trivial rfl <|
    .cons trivial rfl <| .cons trivial rfl <| .cons ?_ rfl trivial
  rintro ⟨item, quantity⟩ ⟨⟨id, hid, hitem⟩, hquantity, -⟩
  have hten : parseInt "10" = some 10 := by decide
  have htwo : parseInt "2" = some 2 := by decide
  obtain rfl : 10 = id := Option.some.inj (hten.symm.trans hid)
  obtain rfl : item1 = item := Option.some.inj hitem
  obtain rfl : 2 = quantity := Option.some.inj (htwo.symm.trans hquantity)
  refine ⟨by decide, fun order horder => ?_⟩
  obtain rfl : order1 .utc 0 = order := Except.ok.inj horder
  decide

end Sample

/-- One lamp less and one chair in the order of the first sample database, and two consoles more
in that of the second, do not overflow. -/
theorem run_costsFit_iff_taps :
    (TableApp.step .ascii .assignment9).Meets
      (fun st i => TableApp.step .ascii .assignment9 st i ≠ .error .overflow)
      (TableApp.AppState.atMenu (generateDummyData TableApp.Sample.database))
      TableApp.Sample.taps ∧
    (step .utc).Meets (fun st i => step .utc st i ≠ .error .overflow)
      (AppState.launch Sample.database) (Sample.addConsoles "2") := by
  have hdb : TableApp.Store.Priced (generateDummyData TableApp.Sample.database) := by
    refine ⟨by decide, fun o ho l hl => ?_⟩
    obtain rfl := List.mem_singleton.mp ho
    obtain rfl := List.mem_singleton.mp hl
    exact ⟨by decide, by decide⟩
  have hiff := run_costsFit_iff .utc .ascii hdb TableApp.Sample.taps Sample.database
    (Sample.addConsoles "2")
  refine ⟨hiff.1.mpr ?_, hiff.2.mpr Sample.addTwo_meets⟩
  exact .cons (by decide) rfl <| .cons (by decide) rfl <| .cons (by decide) rfl <|
    .cons (by decide) rfl <| .cons (by decide) rfl <| .cons (by decide) rfl <|
    .cons (by decide) rfl trivial

/-- Two items of value 2^62 in Assignment 9, and the largest quantity in Assignment 8. -/
theorem run_overflows :
    ((TableApp.step .ascii .assignment9).run
        (TableApp.AppState.atMenu (generateDummyData TableApp.Sample.treasury))
        TableApp.Sample.twoCrowns = .error .overflow ∧
      ¬ (TableApp.step .ascii .assignment9).Meets
        (fun st i => TableApp.step .ascii .assignment9 st i ≠ .error .overflow)
        (TableApp.AppState.atMenu (generateDummyData TableApp.Sample.treasury))
        TableApp.Sample.twoCrowns) ∧
    (step .utc).run (AppState.launch Sample.database) Sample.addAll = .error .overflow ∧
    ¬ (step .utc).Meets (fun st i => step .utc st i ≠ .error .overflow)
      (AppState.launch Sample.database) Sample.addAll := by
  refine ⟨⟨rfl, fun h => ?_⟩, rfl, fun h => ?_⟩
  · obtain ⟨-, h⟩ := h
    obtain ⟨-, h⟩ := h _ rfl
    obtain ⟨-, h⟩ := h _ rfl
    obtain ⟨-, h⟩ := h _ rfl
    exact (h _ rfl).1 rfl
  · obtain ⟨-, h⟩ := h
    obtain ⟨-, h⟩ := h _ rfl
    obtain ⟨-, h⟩ := h _ rfl
    obtain ⟨-, h⟩ := h _ rfl
    obtain ⟨-, h⟩ := h _ rfl
    obtain ⟨-, h⟩ := h _ rfl
    exact (h _ rfl).1 rfl

end Info6350.Assignment8
