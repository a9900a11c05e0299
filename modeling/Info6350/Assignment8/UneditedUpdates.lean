import Info6350.Assignment8.OrderCosts

/-! # Updates without edits in Assignment 8

Fetch fills the text fields from a record and Update reads them back.  The screen of the order
lines fills them from the first line and writes this line in place of all the lines, with its
cost in place of the cost.
-/

namespace Info6350.Assignment8
open Library Swift Logistics TextApp Keyed

section Rows
variable {α : Type} [Keyed α ℤ] {K : Slot α} {written : Bool} {s : Store} {row : ℕ} {x y : α}

/-- If the database accepts the write and has a row with the id of the record, then the row is the
record. -/
def Slot.KeepsRow (K : Slot α) (written : Bool) (s : Store) (x : α) : Prop :=
  written = true → key x ∈ keys (K.table s).rows → x ∈ (K.table s).rows

theorem Slot.apply_update_eq_iff (written : Bool) (hd : Distinct (K.array s))
    (hx : (K.array s)[row]? = some x) (hkey : key y = key x) :
    (K.edit (.update row y)).apply written s = s ↔ y = x ∧ K.KeepsRow written s x :=
  ⟨fun h => Slot.holds_of_lookup hd hx hkey (by rw [h]) (by rw [h]),
    fun h => Slot.Holds.apply_update h hx⟩

end Rows

/-- A tap on Fetch and a tap on Update leave the arrays and the tables as they were. -/
def UpdatesNothing (F : DateFormatter) (st : AppState) (written : Bool) : Prop :=
  ∃ st', (step F).run st [⟨.btnFetchTap, true⟩, ⟨.btnTap, written⟩] = .ok st' ∧
    st'.store = st.store

variable {F : DateFormatter}

section Taps
variable {c : Changer} {scr : FetchState} {st : AppState} {x : (c.controller F).Record}
  {form : Form Field} {written : Bool}

theorem step_btnFetchTap (hscreen : st.screen = .change c scr) (sent : Bool) :
    step F st ⟨.btnFetchTap, sent⟩ =
      settle (fun r => { st with screen := .change c r.1, alerts := r.2 ++ st.alerts }) st.alerted
        ((c.controller F).btnFetchTap scr st.store) := by
  obtain ⟨s, _, alerts⟩ := st
  obtain rfl := hscreen
  rfl

theorem ChangeController.btnUpdateTap_of_entered {C : ChangeController} {s : Store} {row : ℕ}
    {x : C.Record} (hx : (C.slot.array s)[row]? = some x)
    {entered : C.Record → Except Trap C.Record}
    (hentered : C.screen.entered s.items form = .ok entered) :
    C.btnUpdateTap written ⟨form, row⟩ s = trapping (entered x) >>= fun y =>
      .ok ((C.slot.edit (.update row y)).apply written s, ⟨"Success", C.screen.success⟩) := by
  have hrecord : trapping (subscript (C.slot.array s) row) = .ok x :=
    trapping_ok_iff.mpr ((subscript_natCast _ row).mpr hx)
  cases hy : entered x with
  | error t =>
    have hchange : C.screen.change s.items (C.slot.array s) form row = .error (.trap t) :=
      bind_error_iff.mpr (.inr ⟨entered, hentered, bind_error_iff.mpr (.inr ⟨x, hrecord,
        bind_error_iff.mpr (.inl (trapping_trap_iff.mpr hy))⟩)⟩)
    exact bind_error_iff.mpr (.inl hchange)
  | ok y =>
    exact ChangeController.btnUpdateTap_ok_iff.mpr
      ⟨entered, row, x, y, hentered, rfl, hx, hy, rfl, rfl⟩

/-- A tap on Update changes nothing exactly when what the fields enter over the record at the
index, if the checks accept them, is the record. -/
theorem step_btnTap_same_iff (hids : st.store.DistinctIds) {row : ℕ}
    (hscreen : st.screen = .change c ⟨form, row⟩)
    (hx : ((c.controller F).slot.array st.store)[row]? = some x) :
    (∃ st', step F st ⟨.btnTap, written⟩ = .ok st' ∧ st'.store = st.store) ↔
      (∀ t, (c.controller F).screen.entered st.store.items form ≠ .error (.trap t)) ∧
      ∀ entered, (c.controller F).screen.entered st.store.items form = .ok entered →
        entered x = .ok x ∧ (c.controller F).slot.KeepsRow written st.store x := by
  have hd := (c.controller F).slot.distinct st.store hids
  rw [step_btnTap hscreen]
  cases hentered : (c.controller F).screen.entered st.store.items form with
  | error e =>
    have htap : (c.controller F).btnUpdateTap written ⟨form, row⟩ st.store = .error e :=
      bind_error_iff.mpr (.inl (bind_error_iff.mpr (.inl hentered)))
    rw [htap]
    cases e with
    | alert a => exact iff_of_true ⟨_, rfl, rfl⟩ ⟨nofun, nofun⟩
    | silent => exact iff_of_true ⟨_, rfl, rfl⟩ ⟨nofun, nofun⟩
    | trap t => exact iff_of_false (fun ⟨_, h, _⟩ => nomatch h) fun h => h.1 t rfl
  | ok entered =>
    rw [ChangeController.btnUpdateTap_of_entered hx hentered]
    cases hy : entered x with
    | error t =>
      refine iff_of_false (fun ⟨_, h, _⟩ => nomatch h) fun h => ?_
      cases hy.symm.trans (h.2 entered rfl).1
    | ok y =>
      have hsame := Slot.apply_update_eq_iff written hd hx
        (c.lawful.key_entered hentered hy)
      constructor
      · rintro ⟨st', h, hstore⟩
        obtain rfl := Except.ok.inj h
        obtain ⟨rfl, hrow⟩ := hsame.mp hstore
        refine ⟨nofun, fun entered' h' => ?_⟩
        obtain rfl := Except.ok.inj h'
        exact ⟨hy, hrow⟩
      · rintro ⟨-, h⟩
        obtain ⟨hentered', hrow⟩ := h entered rfl
        obtain rfl := Except.ok.inj (hy.symm.trans hentered')
        exact ⟨_, rfl, hsame.mpr ⟨rfl, hrow⟩⟩

/-- The two taps change nothing exactly when Fetch fills the fields from the record and Update
changes nothing from these fields. -/
theorem updatesNothing_iff (hids : st.store.DistinctIds) (hscreen : st.screen = .change c scr)
    (hx : x ∈ (c.controller F).slot.array st.store)
    (hid : (scr.form (c.controller F).screen.tfId).int? = some (key x)) :
    UpdatesNothing F st written ↔ ∃ form, (c.controller F).screen.fill x scr.form = .ok form ∧
      (∀ t, (c.controller F).screen.entered st.store.items form ≠ .error (.trap t)) ∧
      ∀ entered, (c.controller F).screen.entered st.store.items form = .ok entered →
        entered x = .ok x ∧ (c.controller F).slot.KeepsRow written st.store x := by
  obtain ⟨row, hrow⟩ := List.mem_iff_getElem?.mp hx
  have hfetch := step_btnFetchTap hscreen (F := F) true
  rw [ChangeController.btnFetchTap,
    ChangeScreen.fetch_eq ((c.controller F).slot.distinct st.store hids) hrow hid] at hfetch
  rw [UpdatesNothing, Machine.run_cons, hfetch]
  cases hfill : (c.controller F).screen.fill x scr.form with
  | error t =>
    exact iff_of_false (fun ⟨_, h, _⟩ => nomatch h) fun ⟨_, h, _⟩ => nomatch h
  | ok form =>
    have hform : ∀ {p : Form Field → Prop},
        (∃ form', (.ok form : Except Trap (Form Field)) = .ok form' ∧ p form') ↔ p form := by
      simp
    rw [hform]
    let fetched : AppState := ⟨st.store, .change c ⟨form, row⟩,
      (c.controller F).screen.found ++ st.alerts⟩
    change (∃ st', (step F).run fetched [⟨.btnTap, written⟩] = .ok st' ∧
      st'.store = fetched.store) ↔ _
    rw [Machine.run_singleton]
    exact step_btnTap_same_iff hids rfl hrow

end Taps

/-! ## The three screens -/

/-- The checks of the update refuse the item as it is stored. -/
def ItemRefused (item : Item) : Prop :=
  item.name = "" ∨ ¬ (InRange item.weight ∧ 0 < item.weight) ∨
    ¬ (InRange item.value ∧ 0 < item.value)

def LocationRefused (location : Location) : Prop :=
  location.street = "" ∨ location.city = "" ∨ location.state = "" ∨ location.country = "" ∨
    ¬ InRange location.zip

def LineRefused (line : OrderItem) : Prop :=
  ¬ InRange line.item.id ∨ ¬ (InRange line.quantity ∧ 0 < line.quantity)

section Screens
variable {form : Form Field}

def itemShown (form : Form Field) (item : Item) : Form Field := form
  |>.setText .tfItemName item.name
  |>.setText .tfItemDescription item.desc
  |>.setText .tfItemWeight (toString item.weight)
  |>.setText .tfItemValue (toString item.value)

def locationShown (form : Form Field) (location : Location) : Form Field := form
  |>.setText .tfStreetName location.street
  |>.setText .tfCityName location.city
  |>.setText .tfStateName location.state
  |>.setText .tfCountryName location.country
  |>.setText .tfZipcode (toString location.zip)

def lineShown (form : Form Field) (line : OrderItem) : Form Field := form
  |>.setText .tfItemId (toString line.item.id)
  |>.setText .tfItemQuantity (toString line.quantity)

theorem enteredItem_shown {item : Item} {message : String} {entered : ℤ → Item} :
    enteredItem .assignment8 message (itemShown form item) = .ok entered ↔
      ¬ ItemRefused item ∧ entered = fun id => { item with id := id } := by
  have hname : (itemShown form item .tfItemName).text = some item.name := by
    simp [itemShown, Form.setText_of_ne]
  have hdesc : (itemShown form item .tfItemDescription).text = some item.desc := by
    simp [itemShown, Form.setText_of_ne]
  have hweight : (itemShown form item .tfItemWeight).text = some (toString item.weight) := by
    simp [itemShown, Form.setText_of_ne]
  have hvalue : (itemShown form item .tfItemValue).text = some (toString item.value) := by
    simp [itemShown]
  simp only [enteredItem, bind_ok_iff, pure_ok_iff, nonEmptyText_ok_iff, textOf_ok_iff,
    intOf_ok_iff, Edition.refuseNonPositive, refuseIf_ok_iff, UITextField.int?_of_text hweight,
    UITextField.int?_of_text hvalue, hname, hdesc, not_le]
  constructor
  · rintro ⟨_, ⟨hn, hne⟩, _, hd, _, ⟨hwRange, rfl⟩, -, hwPos, _, ⟨hvRange, rfl⟩, -, hvPos, rfl⟩
    obtain rfl := Option.some.inj hn
    obtain rfl := Option.some.inj hd
    refine ⟨?_, rfl⟩
    rintro (hempty | hw | hv)
    · exact hne hempty
    · exact hw ⟨hwRange, hwPos⟩
    · exact hv ⟨hvRange, hvPos⟩
  · rintro ⟨haccepted, rfl⟩
    obtain ⟨hne, hrest⟩ := not_or.mp haccepted
    obtain ⟨hw, hv⟩ := not_or.mp hrest
    obtain ⟨hwRange, hwPos⟩ := not_not.mp hw
    obtain ⟨hvRange, hvPos⟩ := not_not.mp hv
    exact ⟨_, ⟨rfl, hne⟩, _, rfl, _, ⟨hwRange, rfl⟩, (), hwPos, _, ⟨hvRange, rfl⟩, (), hvPos, rfl⟩

theorem enteredLocation_shown {location : Location} {entered : ℤ → Location} :
    enteredLocation (locationShown form location) = .ok entered ↔
      ¬ LocationRefused location ∧ entered = fun id => { location with id := id } := by
  have hstreet : (locationShown form location .tfStreetName).text = some location.street := by
    simp [locationShown, Form.setText_of_ne]
  have hcity : (locationShown form location .tfCityName).text = some location.city := by
    simp [locationShown, Form.setText_of_ne]
  have hstate : (locationShown form location .tfStateName).text = some location.state := by
    simp [locationShown, Form.setText_of_ne]
  have hcountry : (locationShown form location .tfCountryName).text = some location.country := by
    simp [locationShown, Form.setText_of_ne]
  have hzip : (locationShown form location .tfZipcode).text = some (toString location.zip) := by
    simp [locationShown]
  simp only [enteredLocation, bind_ok_iff, pure_ok_iff, nonEmptyText_ok_iff, intOf_ok_iff,
    UITextField.int?_of_text hzip, hstreet, hcity, hstate, hcountry, LocationRefused, not_or,
    not_not]
  constructor
  · rintro ⟨_, ⟨hs, hsNe⟩, _, ⟨hc, hcNe⟩, _, ⟨ht, htNe⟩, _, ⟨hu, huNe⟩, _, ⟨hrange, rfl⟩, rfl⟩
    obtain rfl := Option.some.inj hs
    obtain rfl := Option.some.inj hc
    obtain rfl := Option.some.inj ht
    obtain rfl := Option.some.inj hu
    exact ⟨⟨hsNe, hcNe, htNe, huNe, hrange⟩, rfl⟩
  · rintro ⟨⟨hsNe, hcNe, htNe, huNe, hrange⟩, rfl⟩
    exact ⟨_, ⟨rfl, hsNe⟩, _, ⟨rfl, hcNe⟩, _, ⟨rfl, htNe⟩, _, ⟨rfl, huNe⟩, _, ⟨hrange, rfl⟩, rfl⟩

theorem entersLine_shown {s : Store} {line line' : OrderItem}
    (hfound : lookup s.items line.item.id = some line.item) :
    EntersLine s (lineShown form line) line' ↔ ¬ LineRefused line ∧ line' = line := by
  have hitem : (lineShown form line .tfItemId).text = some (toString line.item.id) := by
    simp [lineShown, Form.setText_of_ne]
  have hquantity : (lineShown form line .tfItemQuantity).text = some (toString line.quantity) := by
    simp [lineShown]
  constructor
  · rintro ⟨⟨id, hid, hlookup⟩, hq, hpos⟩
    obtain ⟨hidRange, rfl⟩ := (UITextField.int?_of_text hitem).mp hid
    obtain ⟨hqRange, hq⟩ := (UITextField.int?_of_text hquantity).mp hq
    obtain ⟨item', quantity'⟩ := line'
    obtain rfl : line.quantity = quantity' := hq
    obtain rfl : line.item = item' := Option.some.inj (hfound.symm.trans hlookup)
    refine ⟨?_, rfl⟩
    rintro (hrange | hquantity)
    · exact hrange hidRange
    · exact hquantity ⟨hqRange, hpos⟩
  · rintro ⟨haccepted, rfl⟩
    obtain ⟨hidRange, hq⟩ := not_or.mp haccepted
    obtain ⟨hqRange, hpos⟩ := not_not.mp hq
    exact ⟨⟨_, (UITextField.int?_of_text hitem).mpr ⟨not_not.mp hidRange, rfl⟩, hfound⟩,
      (UITextField.int?_of_text hquantity).mpr ⟨hqRange, rfl⟩, hpos⟩

end Screens

section Updates
variable {s : Store} {scr : FetchState} {written : Bool}

/-- The two taps on a screen without arithmetic that restores the record when it accepts it. -/
theorem updatesNothing_iff_or {c : Changer} {st : AppState} {x : (c.controller F).Record}
    {α : Type} {checks : Handler α} {refused : Prop} (form : Form Field) (shown : α)
    (write : α → (c.controller F).Record → (c.controller F).Record)
    (hids : st.store.DistinctIds) (hscreen : st.screen = .change c scr)
    (hx : x ∈ (c.controller F).slot.array st.store)
    (hid : (scr.form (c.controller F).screen.tfId).int? = some (key x))
    (hfill : (c.controller F).screen.fill x scr.form = .ok form)
    (hentered : (c.controller F).screen.entered st.store.items form = do
      let entry ← checks
      return fun record => .ok (write entry record))
    (hstops : Stops Exit.Trapless checks)
    (hchecks : ∀ entry, checks = .ok entry ↔ ¬ refused ∧ entry = shown)
    (hwrite : write shown x = x) :
    UpdatesNothing F st written ↔
      refused ∨ (c.controller F).slot.KeepsRow written st.store x := by
  rw [updatesNothing_iff hids hscreen hx hid]
  constructor
  · rintro ⟨form', hform', -, h⟩
    obtain rfl := Except.ok.inj (hfill.symm.trans hform')
    refine or_iff_not_imp_left.mpr fun haccepted => ?_
    have hshown := (hchecks shown).mpr ⟨haccepted, rfl⟩
    exact (h _ (hentered.trans (bind_ok_iff.mpr ⟨shown, hshown, rfl⟩))).2
  · intro h
    refine ⟨form, hfill, fun t ht => ?_, fun entered he => ?_⟩
    · exact (hstops.bind fun _ => stops_pure _) _ (hentered.symm.trans ht)
    · obtain ⟨entry, hentry, hpure⟩ := bind_ok_iff.mp (hentered.symm.trans he)
      obtain rfl := pure_ok_iff.mp hpure
      obtain ⟨haccepted, rfl⟩ := (hchecks entry).mp hentry
      exact ⟨congrArg Except.ok hwrite, h.resolve_left haccepted⟩

theorem updateItem_updatesNothing_iff {st : AppState} (hids : st.store.DistinctIds)
    (hscreen : st.screen = .change .updateItem scr) {item : Item} (hitem : item ∈ st.store.items)
    (hid : (scr.form .tfItemId).int? = some item.id) :
    UpdatesNothing F st written ↔
      ItemRefused item ∨ itemSlot.KeepsRow written st.store item :=
  updatesNothing_iff_or (c := .updateItem) (itemShown scr.form item)
    (fun id => { item with id := id }) (fun entered item => entered item.id) hids hscreen hitem hid
    rfl rfl (stops_enteredItem _ _ _) (fun _ => enteredItem_shown) rfl

theorem updateLocation_updatesNothing_iff {st : AppState} (hids : st.store.DistinctIds)
    (hscreen : st.screen = .change .updateLocation scr) {location : Location}
    (hlocation : location ∈ st.store.locations)
    (hid : (scr.form .tfLocationId).int? = some location.id) :
    UpdatesNothing F st written ↔
      LocationRefused location ∨ locationSlot.KeepsRow written st.store location :=
  updatesNothing_iff_or (c := .updateLocation) (locationShown scr.form location)
    (fun id => { location with id := id }) (fun entered location => entered location.id) hids
    hscreen hlocation hid rfl rfl (stops_enteredLocation _) (fun _ => enteredLocation_shown) rfl

/-- The order shows its first line, whose checks refuse it or which is all that the order has. -/
def RestoresOrder (written : Bool) (s : Store) (order : LogisticsOrder) : Prop :=
  ∃ line lines, order.itemsCarried = line :: lines ∧
    (LineRefused line ∨ (lines = [] ∧ InRange (lineCost line) ∧ order.cost = lineCost line ∧
      orderSlot.KeepsRow written s order))

theorem updateOrderItem_fill_iff {form form' : Form Field} {order : LogisticsOrder} :
    (Changer.controller F .updateOrderItem).screen.fill order form = .ok form' ↔
      ∃ line lines, order.itemsCarried = line :: lines ∧ lineShown form line = form' := by
  have hfirst : ∀ line, subscript order.itemsCarried 0 = .ok line ↔
      ∃ lines, order.itemsCarried = line :: lines := by
    intro line
    rw [← List.head?_eq_some_iff, List.head?_eq_getElem?]
    exact subscript_natCast _ 0
  constructor
  · intro h
    obtain ⟨line, hline, h⟩ := bind_ok_iff.mp h
    obtain ⟨lines, hlines⟩ := (hfirst line).mp hline
    exact ⟨line, lines, hlines, Except.ok.inj h⟩
  · rintro ⟨line, lines, hlines, rfl⟩
    exact bind_ok_iff.mpr ⟨line, (hfirst line).mpr ⟨lines, hlines⟩, rfl⟩

section Line
variable {form : Form Field} {line : OrderItem}

theorem updateOrderItem_entered_iff (hfound : lookup s.items line.item.id = some line.item)
    {entered : LogisticsOrder → Except Trap LogisticsOrder} :
    (Changer.controller F .updateOrderItem).screen.entered s.items (lineShown form line) =
        .ok entered ↔
      ¬ LineRefused line ∧ InRange (lineCost line) ∧
      entered = fun o => .ok { o with itemsCarried := [line], cost := lineCost line } := by
  constructor
  · intro h
    obtain ⟨line', hline', h⟩ := bind_ok_iff.mp h
    obtain ⟨cost, hcost, h⟩ := bind_ok_iff.mp h
    obtain rfl := pure_ok_iff.mp h
    obtain ⟨haccepted, rfl⟩ := (entersLine_shown hfound).mp (enteredLine_ok_iff.mp hline')
    obtain ⟨hrange, rfl⟩ := getOrderTotal_singleton.mp (trapping_ok_iff.mp hcost)
    exact ⟨haccepted, hrange, rfl⟩
  · rintro ⟨haccepted, hrange, rfl⟩
    have hentered : enteredLine .assignment8 s.items (lineShown form line) = .ok line :=
      enteredLine_ok_iff.mpr ((entersLine_shown hfound).mpr ⟨haccepted, rfl⟩)
    have hcost : getOrderTotal [line] = .ok (lineCost line) :=
      getOrderTotal_singleton.mpr ⟨hrange, rfl⟩
    exact bind_ok_iff.mpr ⟨line, hentered,
      bind_ok_iff.mpr ⟨lineCost line, trapping_ok_iff.mpr hcost, rfl⟩⟩

theorem updateOrderItem_trap_iff (hfound : lookup s.items line.item.id = some line.item) :
    (∃ t, (Changer.controller F .updateOrderItem).screen.entered s.items (lineShown form line) =
        .error (.trap t)) ↔
      ¬ LineRefused line ∧ ¬ InRange (lineCost line) := by
  constructor
  · rintro ⟨t, ht⟩
    obtain rfl : t = .overflow :=
      (Changer.lawful (F := F) .updateOrderItem).entered_stops _ _ _ ht
    obtain ⟨line', hline', hrange⟩ := (lineCost_overflow_iff fun _ _ => stops_pure _).mp ht
    obtain ⟨haccepted, rfl⟩ := (entersLine_shown hfound).mp hline'
    exact ⟨haccepted, hrange⟩
  · rintro ⟨haccepted, hrange⟩
    exact ⟨.overflow, (lineCost_overflow_iff fun _ _ => stops_pure _).mpr
      ⟨line, (entersLine_shown hfound).mpr ⟨haccepted, rfl⟩, hrange⟩⟩

end Line

theorem updateOrderItem_updatesNothing_iff {st : AppState} (hids : st.store.DistinctIds)
    (hscreen : st.screen = .change .updateOrderItem scr) {order : LogisticsOrder}
    (horder : order ∈ st.store.logisticsOrder)
    (hid : (scr.form .tfOrderId).int? = some order.id)
    (hfound : ∀ line ∈ order.itemsCarried, lookup st.store.items line.item.id = some line.item) :
    UpdatesNothing F st written ↔ RestoresOrder written st.store order := by
  rw [updatesNothing_iff (c := .updateOrderItem) hids hscreen horder hid, RestoresOrder]
  constructor
  · rintro ⟨form, hform, htrap, hall⟩
    obtain ⟨line, lines, hlines, rfl⟩ := updateOrderItem_fill_iff.mp hform
    have hfirst := hfound line (hlines ▸ List.mem_cons_self)
    refine ⟨line, lines, hlines, or_iff_not_imp_left.mpr fun haccepted => ?_⟩
    have hrange : InRange (lineCost line) := by
      by_contra hrange
      obtain ⟨t, ht⟩ := (updateOrderItem_trap_iff hfirst).mpr ⟨haccepted, hrange⟩
      exact htrap t ht
    obtain ⟨hsame, hrow⟩ :=
      hall _ ((updateOrderItem_entered_iff hfirst).mpr ⟨haccepted, hrange, rfl⟩)
    have hcarried : [line] = order.itemsCarried :=
      congrArg LogisticsOrder.itemsCarried (Except.ok.inj hsame)
    have hcost : lineCost line = order.cost := congrArg LogisticsOrder.cost (Except.ok.inj hsame)
    exact ⟨(List.cons.inj (hcarried.trans hlines)).2.symm, hrange, hcost.symm, hrow⟩
  · rintro ⟨line, lines, hlines, h⟩
    have hfirst := hfound line (hlines ▸ List.mem_cons_self)
    refine ⟨lineShown scr.form line, updateOrderItem_fill_iff.mpr ⟨line, lines, hlines, rfl⟩,
      fun t ht => ?_, fun entered he => ?_⟩
    · obtain ⟨haccepted, hrange⟩ := (updateOrderItem_trap_iff hfirst).mp ⟨t, ht⟩
      exact hrange (h.resolve_left haccepted).2.1
    · obtain ⟨haccepted, -, rfl⟩ := (updateOrderItem_entered_iff hfirst).mp he
      obtain ⟨rfl, -, hcost, hrow⟩ := h.resolve_left haccepted
      rw [← hcost, ← hlines]
      exact ⟨rfl, hrow⟩

end Updates

/-- In every state that a launch reaches, with the id of a stored record in the id field and any
outcome of the write: Fetch and Update without an edit change no array and no table if and only if
the checks refuse the record as it is stored, or the record is entered as it is and its row holds
it or is not written.  An order whose items are there unchanged is entered as it is when it has one
line, with the cost of this line; without a line the fetch traps. -/
theorem run_fetchUpdate_iff (F : DateFormatter) (db : Database) {inputs : List Input}
    {st : AppState} (h : (step F).run (AppState.launch db) inputs = .ok st) (written : Bool) :
    (∀ scr item, st.screen = .change .updateItem scr → item ∈ st.store.items →
      (scr.form .tfItemId).int? = some item.id →
      (UpdatesNothing F st written ↔
        ItemRefused item ∨ itemSlot.KeepsRow written st.store item)) ∧
    (∀ scr location, st.screen = .change .updateLocation scr → location ∈ st.store.locations →
      (scr.form .tfLocationId).int? = some location.id →
      (UpdatesNothing F st written ↔
        LocationRefused location ∨ locationSlot.KeepsRow written st.store location)) ∧
    ∀ scr order, st.screen = .change .updateOrderItem scr → order ∈ st.store.logisticsOrder →
      (scr.form .tfOrderId).int? = some order.id →
      (∀ line ∈ order.itemsCarried, lookup st.store.items line.item.id = some line.item) →
      (UpdatesNothing F st written ↔ RestoresOrder written st.store order) := by
  have hids := run_distinctIds h
  refine ⟨fun scr item hscreen hitem hid => ?_, fun scr location hscreen hlocation hid => ?_,
    fun scr order hscreen horder hid hfound => ?_⟩
  · exact updateItem_updatesNothing_iff hids hscreen hitem hid
  · exact updateLocation_updatesNothing_iff hids hscreen hlocation hid
  · exact updateOrderItem_updatesNothing_iff hids hscreen horder hid hfound

namespace Sample

/-- Add two headphones to the order 21 and open the screen of its lines. -/
def addHeadphones : List Input :=
  [⟨.onButtonClicked .order, true⟩, ⟨.presentChange .addItems, true⟩,
    ⟨.type .tfOrderId "21", true⟩, ⟨.btnFetchTap, true⟩, ⟨.type .tfItemId "11", true⟩,
    ⟨.type .tfItemQuantity "2", true⟩, ⟨.btnTap, true⟩, ⟨.btnCloseTap, true⟩,
    ⟨.presentChange .updateOrderItem, true⟩, ⟨.type .tfOrderId "21", true⟩]

def namesFirst : List Input := openUpdateItem ++ [⟨.type .tfItemId "10", true⟩]

end Sample

/-- The update without edits drops the headphones. -/
theorem run_dropsLine :
    ∃ st scr order st',
      (step .utc).run (AppState.launch Sample.database) Sample.addHeadphones = .ok st ∧
      st.screen = .change .updateOrderItem scr ∧ st.store.logisticsOrder = [order] ∧
      (scr.form .tfOrderId).int? = some order.id ∧
      (∀ line ∈ order.itemsCarried, lookup st.store.items line.item.id = some line.item) ∧
      (step .utc).run st [⟨.btnFetchTap, true⟩, ⟨.btnTap, true⟩] = .ok st' ∧
      order.itemsCarried = [⟨item1, 1⟩, ⟨item2, 2⟩] ∧
      st'.store.logisticsOrder.map LogisticsOrder.itemsCarried = [[⟨item1, 1⟩]] ∧
      ¬ UpdatesNothing .utc st true := by
  refine ⟨_, _, _, _, rfl, rfl, rfl, by decide, by decide, rfl, rfl, rfl, ?_⟩
  rintro ⟨st', hrun, hstore⟩
  obtain rfl := Except.ok.inj hrun
  have hlines := congrArg (fun s : Store => s.logisticsOrder.map LogisticsOrder.itemsCarried) hstore
  revert hlines
  decide

/-- Nothing changes when the first item is fetched and updated. -/
theorem run_fetchUpdate_iff_first :
    ∃ st, (step .utc).run (AppState.launch Sample.database) Sample.namesFirst = .ok st ∧
      UpdatesNothing .utc st true :=
  ⟨_, rfl, ((@run_fetchUpdate_iff .utc Sample.database Sample.namesFirst _ rfl true).1 _ item1 rfl
    (by decide) (by decide)).mpr (.inr fun _ _ => by decide)⟩

end Info6350.Assignment8
