import Info6350.TableApp.SwipeDeletes

/-! # Updates without edits

A details screen turns a record into texts, dates and an image, and its button turns them back
into the record that it writes.  Opening a record and tapping Update without an edit in between
is this round trip.
-/

namespace Info6350.TableApp
open Library Swift Logistics Keyed

/-- An update that is sent changes no row when it is refused, or when the row with its key holds
the record already. -/
theorem sendEdit_update_eq_iff {α : Type} [Keyed α ℤ] {written : Bool} {row : ℕ} {x : α}
    {l : List α} {t : Table α} :
    sendEdit written (.update row x) l t = t ↔
      written = false ∨ ∀ y ∈ t.rows, key y = key x → y = x := by
  cases written with
  | false => exact iff_of_true rfl (.inl rfl)
  | true =>
    rw [or_iff_right (by decide : ¬ true = false)]
    change Table.caught (t.update x) t = t ↔ _
    by_cases hx : key x ∈ keys t.rows
    · rw [Table.caught_update_of_mem hx]
      constructor
      · intro hsave y hy hkey
        have hmem : x ∈ t.rows := hsave ▸ Table.mem_save.mpr (.inl rfl)
        exact t.distinct.eq_of_key_eq hy hmem hkey
      · intro hrows
        obtain ⟨y, hy, hkey⟩ := mem_keys.mp hx
        obtain rfl := hrows y hy hkey
        exact Table.save_of_mem hy
    · refine iff_of_true (Table.caught_update_of_not_mem hx) fun y hy hkey => ?_
      exact absurd (hkey ▸ key_mem_keys hy) hx

namespace ListKind
variable {α δ ω : Type} [Keyed α ℤ] (K : ListKind α δ ω) (P : Platform)

/-- A tap on the row and then on Update leaves the arrays and the tables as they were. -/
def UpdatesNothing (st : AppState) (row : ℕ) (now : Date) (written : Bool) : Prop :=
  ∃ st', (step P .assignment9).run st (K.tapEditUpdate row now [] written) = .ok st' ∧
    st'.store = st.store

/-- The database refuses the write, or a row with the key of the record holds the record. -/
def StoredAsIs (st : AppState) (x : α) (written : Bool) : Prop :=
  written = false ∨ ∀ y ∈ (K.table st.store.db).rows, key y = key x → y = x

/-- The store consists of the array, its table and the others, and the button of a details
screen traps only when an entry is accepted. -/
structure Restores (At : ℕ → δ → Prop) : Prop where
  same : ∀ {s s'}, K.SameOthers s s' → K.controllers.array s' = K.controllers.array s →
    K.table s'.db = K.table s.db → s' = s
  enters_eq : ∀ {d old new new'}, K.Enters d old new → K.Enters d old new' → new = new'
  tap_trap : ∀ {row w d s t}, At row d → K.controllers.createButtonTap w d s = .error (.trap t) →
    ∀ old, ∃ new, K.Enters d old new

variable {K P} {At : ℕ → δ → Prop}

theorem Lawful.updatesNothing_iff_tap (L : K.Lawful P At) {s : Store} {p : Pane α δ}
    {alerts : List Alert} {row : ℕ} (hp : p.details = none)
    (hrow : row < p.filteredResults.length) (now : Date) (written : Bool) :
    K.UpdatesNothing P ⟨s, K.screen p, alerts⟩ row now written ↔ ∃ d,
      K.controllers.viewWillAppear s (K.controllers.instantiate .modify (some row) now s) = .ok d ∧
      ∃ r, settle (fun r => (⟨r.1, { p with details := some d }, [r.2]⟩ : PaneResult α δ))
        (fun alerts => ⟨s, { p with details := some d }, alerts⟩)
        (K.controllers.createButtonTap written d s) = .ok r ∧ r.store = s := by
  unfold UpdatesNothing
  constructor
  · rintro ⟨st', hrun, hstore⟩
    obtain ⟨d₀, d, hd, hedits, htap⟩ := (L.run_tapEditUpdate_iff hp hrow).mp hrun
    obtain rfl := Except.ok.inj hedits
    rw [L.step_eq] at htap
    obtain ⟨r, hr, rfl⟩ := map_ok_iff.mp htap
    exact ⟨d₀, hd, r, hr, hstore⟩
  · rintro ⟨d, hd, r, hr, hstore⟩
    have htap : step P .assignment9 ⟨s, K.screen { p with details := some d }, alerts⟩
        ⟨K.event .createButtonTap, written⟩ =
          .ok (AppState.show K.screen ⟨s, K.screen { p with details := some d }, alerts⟩ r) := by
      rw [L.step_eq]
      exact map_ok_iff.mpr ⟨r, hr, rfl⟩
    exact ⟨_, (L.run_tapEditUpdate_iff hp hrow).mpr ⟨d, d, hd, rfl, htap⟩, hstore⟩

/-- The two taps change nothing exactly when the screen loads and what it enters over the record,
if that is accepted, is the record. -/
theorem Restores.updatesNothing_iff (R : K.Restores At) (L : K.Lawful P At) {s : Store}
    {p : Pane α δ} {alerts : List Alert} {row : ℕ} {x : α} (hp : p.details = none)
    (hlist : p.filteredResults = K.controllers.array s) (hx : p.filteredResults[row]? = some x)
    (now : Date) (written : Bool) :
    K.UpdatesNothing P ⟨s, K.screen p, alerts⟩ row now written ↔
      ∃ d, K.controllers.viewWillAppear s
          (K.controllers.instantiate .modify (some row) now s) = .ok d ∧
        ∀ new, K.Enters d x new →
          new = x ∧ K.StoredAsIs ⟨s, K.screen p, alerts⟩ x written := by
  have hrow : row < p.filteredResults.length := (List.getElem?_eq_some_iff.mp hx).choose
  have harray : (K.controllers.array s)[row]? = some x := hlist ▸ hx
  rw [L.updatesNothing_iff_tap hp hrow]
  refine exists_congr fun d => and_congr_right fun hload => ?_
  have hAt := L.load hload
  -- an entry that is accepted makes the button write
  have hnone : ∀ e, K.controllers.createButtonTap written d s = .error e →
      ∀ new, ¬ K.Enters d x new := by
    intro e he new henters
    obtain ⟨s', a, htap⟩ := L.tap_of_enters (w := written) hAt harray henters
    cases he.symm.trans htap
  rcases htap : K.controllers.createButtonTap written d s with (a | _ | t) | ⟨s', a⟩
  · exact iff_of_true ⟨_, rfl, rfl⟩ fun new henters => absurd henters (hnone _ htap new)
  · exact iff_of_true ⟨_, rfl, rfl⟩ fun new henters => absurd henters (hnone _ htap new)
  · obtain ⟨new, henters⟩ := R.tap_trap hAt htap x
    exact absurd henters (hnone _ htap new)
  · obtain ⟨-, old, new, hold, henters, hs', htable, hothers⟩ := L.tap_ok hAt htap
    obtain rfl : x = old := Option.some.inj (harray.symm.trans hold)
    constructor
    · rintro ⟨r, hr, hstore⟩ new' henters'
      obtain rfl := Except.ok.inj hr
      obtain rfl : s' = s := hstore
      obtain rfl := R.enters_eq henters henters'
      have hlength : row < (K.controllers.array s').length := hlist ▸ hrow
      have hnew : (K.controllers.array s')[row]? = some new := by
        rw [hs']
        exact List.getElem?_set_self hlength
      obtain rfl : new = x := Option.some.inj (hnew.symm.trans harray)
      exact ⟨rfl, sendEdit_update_eq_iff.mp htable.symm⟩
    · intro hall
      obtain ⟨rfl, hstored⟩ := hall new henters
      refine ⟨_, rfl, R.same hothers ?_ ?_⟩
      · rw [hs']
        exact Edit.onList_of_idle harray
      · rw [htable]
        exact sendEdit_update_eq_iff.mpr hstored

end ListKind

/-! ## Items -/

/-- The checks of the update refuse the item as it is stored. -/
def Item.Refused (item : Item) : Prop :=
  item.name = "" ∨ ¬ (InRange item.weight ∧ 0 < item.weight) ∨
    ¬ (InRange item.value ∧ 0 < item.value)

/-- The item has an image, whose data is what the image encodes to. -/
def Item.KeepsImage (P : Platform) (item : Item) : Prop :=
  ∃ data, item.imageData = some data ∧ (P.imageOfData data).bind UIImage.pngData = some data

namespace ItemDetailsViewController
variable {P : Platform} {s : Store} {row : ℕ} {item new : Item} {d : ItemDetails}

def imageShown (P : Platform) (item : Item) : Option UIImage :=
  match item.imageData with
  | some data => P.imageOfData data
  | none => P.imageNamed "placeholder"

/-- The details of an item as the screen shows them first. -/
structure Shows (P : Platform) (item : Item) (d : ItemDetails) : Prop where
  image : d.imageView = imageShown P item
  name : (d.form .tfItemName).text = some item.name
  desc : (d.form .tfItemDescription).text = some item.desc
  weight : (d.form .tfItemWeight).text = some (toString item.weight)
  value : (d.form .tfItemValue).text = some (toString item.value)

theorem viewWillAppear_shows (hitem : s.items[row]? = some item) :
    ∃ d, viewWillAppear P s (instantiate .modify (some row)) = .ok d ∧ Shows P item d :=
  ⟨_, bind_ok_iff.mpr ⟨item, (subscript_natCast _ _).mpr hitem, rfl⟩, rfl, rfl, rfl, rfl, rfl⟩

/-- What is entered over an item that is shown: the item, with the image as it is encoded. -/
theorem Shows.enters_iff (h : Shows P item d) : Enters d item new ↔
    ¬ item.Refused ∧ new = { item with imageData := (imageShown P item).bind UIImage.pngData } := by
  constructor
  · intro henters
    obtain ⟨himage, hid, hname, hne, hdesc, hweight, hweightPos, hvalue, hvaluePos⟩ := henters
    obtain ⟨hweightRange, hweight⟩ := (UITextField.int?_of_text h.weight).mp hweight
    obtain ⟨hvalueRange, hvalue⟩ := (UITextField.int?_of_text h.value).mp hvalue
    have hname := Option.some.inj (h.name.symm.trans hname)
    have hdesc := Option.some.inj (h.desc.symm.trans hdesc)
    rw [h.image] at himage
    rw [← hname] at hne
    rw [← hweight] at hweightPos
    rw [← hvalue] at hvaluePos
    refine ⟨?_, ?_⟩
    · rintro (hempty | hweight | hvalue)
      · exact hne hempty
      · exact hweight ⟨hweightRange, hweightPos⟩
      · exact hvalue ⟨hvalueRange, hvaluePos⟩
    · cases new
      cases himage
      cases hid
      cases hname
      cases hdesc
      cases hweight
      cases hvalue
      rfl
  · rintro ⟨haccepted, rfl⟩
    obtain ⟨hname, hrest⟩ := not_or.mp haccepted
    obtain ⟨hweight, hvalue⟩ := not_or.mp hrest
    obtain ⟨hweightRange, hweightPos⟩ := not_not.mp hweight
    obtain ⟨hvalueRange, hvaluePos⟩ := not_not.mp hvalue
    exact ⟨h.image ▸ rfl, rfl, h.name, hname, h.desc,
      (UITextField.int?_of_text h.weight).mpr ⟨hweightRange, rfl⟩, hweightPos,
      (UITextField.int?_of_text h.value).mpr ⟨hvalueRange, rfl⟩, hvaluePos⟩

theorem imageShown_encodes_iff {placeholder : UIImage} {data : Data}
    (himage : P.imageNamed "placeholder" = some placeholder)
    (hdata : placeholder.pngData = some data) :
    (imageShown P item).bind UIImage.pngData = item.imageData ↔ item.KeepsImage P := by
  unfold imageShown Item.KeepsImage
  cases item.imageData with
  | none => simp [himage, hdata]
  | some data => simp

theorem restores : (itemKind P).Restores AtRow where
  same hothers harray htable := Store.eq_of_same ⟨harray, htable⟩ hothers.1 hothers.2
  enters_eq h h' := h.eq h' rfl
  tap_trap {row w d s t} hd h old := by
    change createButtonTap w d s = _ at h
    simp only [createButtonTap, if_pos hd.vcMode, updateItem, hd.indexPath] at h
    obtain ⟨entered, hentered, -⟩ := (stops_enteredItem _ d).bind_trap_iff.mp h
    exact ⟨_, enteredItem_ok hentered old⟩

end ItemDetailsViewController

/-! ## Locations -/

def Location.Refused (location : Location) : Prop :=
  location.street = "" ∨ location.city = "" ∨ location.state = "" ∨ location.country = "" ∨
    parseInt location.zip = none

/-- The zip is the decimal text of a 64-bit integer. -/
def Location.DecimalZip (location : Location) : Prop :=
  ∃ n, InRange n ∧ location.zip = toString n

namespace LocationDetailsViewController
variable {s : Store} {row : ℕ} {location new : Location} {d : LocationDetails}

structure Shows (location : Location) (d : LocationDetails) : Prop where
  street : (d.form .tfStreetName).text = some location.street
  city : (d.form .tfCityName).text = some location.city
  state : (d.form .tfStateName).text = some location.state
  country : (d.form .tfCountryName).text = some location.country
  zip : (d.form .tfZipcode).text = some location.zip

theorem viewWillAppear_shows (hlocation : s.locations[row]? = some location) :
    ∃ d, viewWillAppear s (instantiate .modify (some row)) = .ok d ∧ Shows location d :=
  ⟨_, bind_ok_iff.mpr ⟨location, (subscript_natCast _ _).mpr hlocation, rfl⟩, rfl, rfl, rfl, rfl, rfl⟩

/-- What is entered over a location that is shown: the location, with its zip as it is printed. -/
theorem Shows.enters_iff (h : Shows location d) : Enters d location new ↔
    ¬ location.Refused ∧
      ∃ n, parseInt location.zip = some n ∧ new = { location with zip := toString n } := by
  have hzip : (d.form .tfZipcode).int? = parseInt location.zip := by
    rw [UITextField.int?, h.zip, Option.getD_some]
  constructor
  · rintro ⟨hid, hstreet, hstreet', hcity, hcity', hstate, hstate', hcountry, hcountry', n, hn, hnew⟩
    have hstreet := Option.some.inj (h.street.symm.trans hstreet)
    have hcity := Option.some.inj (h.city.symm.trans hcity)
    have hstate := Option.some.inj (h.state.symm.trans hstate)
    have hcountry := Option.some.inj (h.country.symm.trans hcountry)
    rw [hzip] at hn
    refine ⟨?_, n, hn, ?_⟩
    · rintro (hempty | hempty | hempty | hempty | hnone)
      · exact hstreet' (hstreet ▸ hempty)
      · exact hcity' (hcity ▸ hempty)
      · exact hstate' (hstate ▸ hempty)
      · exact hcountry' (hcountry ▸ hempty)
      · cases hn.symm.trans hnone
    · cases new
      cases hid
      cases hstreet
      cases hcity
      cases hstate
      cases hcountry
      cases hnew
      rfl
  · rintro ⟨haccepted, n, hn, rfl⟩
    simp only [Location.Refused, not_or] at haccepted
    obtain ⟨hstreet, hcity, hstate, hcountry, -⟩ := haccepted
    exact ⟨rfl, h.street, hstreet, h.city, hcity, h.state, hstate, h.country, hcountry, n,
      hzip.trans hn, rfl⟩

theorem decimalZip_iff {n : ℤ} (hn : parseInt location.zip = some n) :
    ({ location with zip := toString n } : Location) = location ↔ location.DecimalZip := by
  have hzip : ({ location with zip := toString n } : Location) = location ↔
      toString n = location.zip := by
    cases location
    simp
  rw [hzip]
  constructor
  · intro htext
    rw [← htext, parseInt_toString, fits_eq_some_iff] at hn
    exact ⟨n, hn.1, htext.symm⟩
  · rintro ⟨m, hm, htext⟩
    rw [htext, parseInt_toString, fits_eq_some_iff] at hn
    rw [htext, hn.2]

theorem restores (P : Platform) : (locationKind P).Restores AtRow where
  same hothers harray htable := Store.eq_of_same hothers.1 ⟨harray, htable⟩ hothers.2
  enters_eq h h' := h.eq h' rfl
  tap_trap {row w d s t} hd h old := by
    change createButtonTapped w d s = _ at h
    simp only [createButtonTapped, if_pos hd.vcMode, updateLocation, hd.indexPath] at h
    obtain ⟨entered, hentered, -⟩ := (stops_enteredLocation d).bind_trap_iff.mp h
    exact ⟨_, enteredLocation_ok hentered old⟩

end LocationDetailsViewController

/-! ## Orders -/

def LogisticsOrder.Refused (order : LogisticsOrder) : Prop :=
  order.estimatedArrivalDate < order.departureDate ∨ order.itemsCarried = []

namespace LogisticOrderDetailsViewController
variable {s : Store} {row : ℕ} {order new : LogisticsOrder} {d : OrderDetails}

structure Shows (order : LogisticsOrder) (d : OrderDetails) : Prop where
  departureDate : d.departureDate = order.departureDate
  arrivalDate : d.arrivalDate = order.estimatedArrivalDate
  items : (selected d).items = order.itemsCarried
  orderTotal : (selected d).orderTotal = orderSum order.itemsCarried

theorem viewWillAppear_shows {now : Date} (horder : s.logisticsOrder[row]? = some order)
    (h : viewWillAppear s (instantiate .modify (some row) now s) = .ok d) :
    (∃ total, getOrderTotal order.itemsCarried = .ok total) ∧ Shows order d := by
  obtain ⟨order', horder', h⟩ := bind_ok_iff.mp h
  obtain rfl := Option.some.inj (horder.symm.trans ((subscript_natCast _ _).mp horder'))
  obtain ⟨object, hobject, h⟩ := bind_ok_iff.mp h
  obtain ⟨hitems, htotal⟩ := OrderItems.initItems_ok hobject
  obtain ⟨total, hsum, -⟩ := bind_ok_iff.mp hobject
  obtain rfl := pure_ok_iff.mp h
  exact ⟨⟨total, hsum⟩, rfl, rfl, hitems, htotal.trans (congrArg orderSum hitems)⟩

/-- What is entered over an order that is shown: the order, with its cost computed anew. -/
theorem Shows.enters_iff (h : Shows order d) : Enters d order new ↔
    ¬ order.Refused ∧ new = { order with cost := orderSum order.itemsCarried } := by
  constructor
  · rintro ⟨hid, hfrom, hto, hdep, harr, hdates, hcost, hitems, hne⟩
    rw [h.departureDate, h.arrivalDate] at hdates
    rw [h.departureDate] at hdep
    rw [h.arrivalDate] at harr
    rw [h.items] at hitems
    rw [h.orderTotal] at hcost
    refine ⟨?_, ?_⟩
    · rintro (hlt | hempty)
      · exact absurd hlt (not_lt.mpr hdates)
      · exact hne (hitems.trans hempty)
    · cases new
      cases hid
      cases hfrom
      cases hto
      cases hdep
      cases harr
      cases hcost
      cases hitems
      rfl
  · rintro ⟨haccepted, rfl⟩
    obtain ⟨hdates, hne⟩ := not_or.mp haccepted
    exact ⟨rfl, rfl, rfl, h.departureDate.symm, h.arrivalDate.symm,
      by rw [h.departureDate, h.arrivalDate]; exact not_lt.mp hdates, h.orderTotal.symm,
      h.items.symm, hne⟩

theorem restores (P : Platform) : (orderKind P).Restores AtRow where
  same hothers harray htable := Store.eq_of_same hothers.1 hothers.2 ⟨harray, htable⟩
  enters_eq {d old new new'} h h' := by
    obtain ⟨hid, hfrom, hto, hdep, harr, -, hcost, hitems, -⟩ := h
    obtain ⟨hid', hfrom', hto', hdep', harr', -, hcost', hitems', -⟩ := h'
    cases new
    cases new'
    cases hid.trans hid'.symm
    cases hfrom.trans hfrom'.symm
    cases hto.trans hto'.symm
    cases hdep.trans hdep'.symm
    cases harr.trans harr'.symm
    cases hcost.trans hcost'.symm
    cases hitems.trans hitems'.symm
    rfl
  tap_trap {row w d s t} hd h old := by
    have hmode : d.vcMode ≠ .create := by rw [hd.vcMode]; decide
    change createButtonTapped .assignment9 w d s = _ at h
    simp only [createButtonTapped, if_neg hmode, updateOrder, hd.indexPath] at h
    obtain ⟨entered, hentered, -⟩ := (stops_enteredOrder d).bind_trap_iff.mp h
    exact ⟨_, enteredOrder_ok hentered old⟩

end LogisticOrderDetailsViewController

/-! ## Runs -/

theorem entered_iff {α : Type} {refused stored : Prop} {x y : α} :
    (∀ new, ¬ refused ∧ new = y → new = x ∧ stored) ↔ refused ∨ y = x ∧ stored := by
  constructor
  · intro h
    by_cases hrefused : refused
    · exact .inl hrefused
    · exact .inr (h y ⟨hrefused, rfl⟩)
  · rintro h new ⟨haccepted, rfl⟩
    exact h.resolve_left haccepted

section Kinds
variable {P : Platform} {s : Store} {alerts : List Alert} {row : ℕ}

open ItemDetailsViewController in
theorem itemKind_updatesNothing_iff {placeholder : UIImage} {data : Data}
    (himage : P.imageNamed "placeholder" = some placeholder)
    (hdata : placeholder.pngData = some data) {p : Pane Item ItemDetails} {item : Item}
    (hp : p.details = none) (hlist : p.filteredResults = s.items)
    (hitem : p.filteredResults[row]? = some item) (now : Date) (written : Bool) :
    (itemKind P).UpdatesNothing P ⟨s, .items p, alerts⟩ row now written ↔
      item.Refused ∨ item.KeepsImage P ∧
        (itemKind P).StoredAsIs ⟨s, .items p, alerts⟩ item written := by
  obtain ⟨d, hd, hshows⟩ := viewWillAppear_shows (P := P) (hlist ▸ hitem)
  have hsame : ({ item with imageData := (imageShown P item).bind UIImage.pngData } : Item) =
      item ↔ item.KeepsImage P := by
    rw [← imageShown_encodes_iff himage hdata]
    cases item
    simp
  refine (restores.updatesNothing_iff (itemKind_lawful P) hp hlist hitem now written).trans ?_
  rw [← hsame, ← entered_iff]
  constructor
  · rintro ⟨d', hd', hall⟩ new hnew
    obtain rfl := Except.ok.inj (hd.symm.trans hd')
    exact hall new (hshows.enters_iff.mpr hnew)
  · exact fun hall => ⟨d, hd, fun new henters => hall new (hshows.enters_iff.mp henters)⟩

open LocationDetailsViewController in
theorem locationKind_updatesNothing_iff {p : Pane Location LocationDetails} {location : Location}
    (hp : p.details = none) (hlist : p.filteredResults = s.locations)
    (hlocation : p.filteredResults[row]? = some location) (now : Date) (written : Bool) :
    (locationKind P).UpdatesNothing P ⟨s, .locations p, alerts⟩ row now written ↔
      location.Refused ∨ location.DecimalZip ∧
        (locationKind P).StoredAsIs ⟨s, .locations p, alerts⟩ location written := by
  obtain ⟨d, hd, hshows⟩ := viewWillAppear_shows (hlist ▸ hlocation)
  refine ((restores P).updatesNothing_iff (locationKind_lawful P) hp hlist hlocation now
    written).trans ?_
  cases hzip : parseInt location.zip with
  | none =>
    have hrefused : location.Refused := .inr (.inr (.inr (.inr hzip)))
    refine iff_of_true ⟨d, hd, fun new henters => ?_⟩ (.inl hrefused)
    exact absurd hrefused (hshows.enters_iff.mp henters).1
  | some n =>
    rw [← decimalZip_iff hzip, ← entered_iff]
    constructor
    · rintro ⟨d', hd', hall⟩ new ⟨haccepted, hnew⟩
      obtain rfl := Except.ok.inj (hd.symm.trans hd')
      exact hall new (hshows.enters_iff.mpr ⟨haccepted, n, hzip, hnew⟩)
    · refine fun hall => ⟨d, hd, fun new henters => ?_⟩
      obtain ⟨haccepted, m, hm, hnew⟩ := hshows.enters_iff.mp henters
      obtain rfl : n = m := Option.some.inj (hzip.symm.trans hm)
      exact hall new ⟨haccepted, hnew⟩

open LogisticOrderDetailsViewController in
theorem orderKind_updatesNothing_iff {p : Pane LogisticsOrder OrderDetails} {order : LogisticsOrder}
    (hp : p.details = none) (hlist : p.filteredResults = s.logisticsOrder)
    (horder : p.filteredResults[row]? = some order) (now : Date) (written : Bool) :
    (orderKind P).UpdatesNothing P ⟨s, .orders p, alerts⟩ row now written ↔
      (∃ total, getOrderTotal order.itemsCarried = .ok total) ∧
        (order.Refused ∨ order.cost = orderSum order.itemsCarried ∧
          (orderKind P).StoredAsIs ⟨s, .orders p, alerts⟩ order written) := by
  have harray : s.logisticsOrder[row]? = some order := hlist ▸ horder
  have hsame : ({ order with cost := orderSum order.itemsCarried } : LogisticsOrder) = order ↔
      order.cost = orderSum order.itemsCarried := by
    rw [eq_comm]
    cases order
    simp
  refine ((restores P).updatesNothing_iff (orderKind_lawful P) hp hlist horder now written).trans ?_
  rw [← hsame, ← entered_iff]
  constructor
  · rintro ⟨d, hd, hall⟩
    obtain ⟨htotal, hshows⟩ := viewWillAppear_shows harray hd
    exact ⟨htotal, fun new hnew => hall new (hshows.enters_iff.mpr hnew)⟩
  · rintro ⟨⟨total, htotal⟩, hall⟩
    obtain ⟨d, hd⟩ := viewWillAppear_isOk harray htotal now
    obtain ⟨-, hshows⟩ := viewWillAppear_shows harray hd
    exact ⟨d, hd, fun new henters => hall new (hshows.enters_iff.mp henters)⟩

end Kinds

/-- In every state that a launch reaches, for every row of a list without a search and any outcome
of the write, on a platform with the placeholder: opening the record and tapping Update changes
no array and no table if and only if the update is refused, or it enters the record as it is and
no row of the table differs.  An item is entered as it is when its image data is what its image
encodes to, a location when its zip is the text of an integer, and an order when its cost is that
of its lines, which must not overflow. -/
theorem run_updatesNothing_iff (P : Platform) {placeholder : UIImage} {data : Data}
    (himage : P.imageNamed "placeholder" = some placeholder)
    (hdata : placeholder.pngData = some data) (db : Database) {inputs : List Input} {st : AppState}
    (h : (step P .assignment9).run (AppState.atMenu (generateDummyData db)) inputs = .ok st)
    (row : ℕ) (now : Date) (written : Bool) :
    (∀ x, (itemKind P).Editable st row x →
      ((itemKind P).UpdatesNothing P st row now written ↔
        x.Refused ∨ x.KeepsImage P ∧ (itemKind P).StoredAsIs st x written)) ∧
    (∀ x, (locationKind P).Editable st row x →
      ((locationKind P).UpdatesNothing P st row now written ↔
        x.Refused ∨ x.DecimalZip ∧ (locationKind P).StoredAsIs st x written)) ∧
    (∀ x, (orderKind P).Editable st row x →
      ((orderKind P).UpdatesNothing P st row now written ↔
        (∃ total, getOrderTotal x.itemsCarried = .ok total) ∧
          (x.Refused ∨ x.cost = orderSum x.itemsCarried ∧
            (orderKind P).StoredAsIs st x written))) := by
  obtain ⟨-, hscreen⟩ :=
    run_distinctIds P .assignment9 (Store.generateDummyData_matches db).distinctIds h
  obtain ⟨s, screen, alerts⟩ := st
  refine ⟨?_, ?_, ?_⟩
  · rintro x ⟨p, hp, hd, hedit, hx⟩
    cases hp
    exact itemKind_updatesNothing_iff himage hdata hd
      (Pane.Coherent.filteredResults hscreen hd (Pane.canEditRow_iff.mp hedit)) hx now written
  · rintro x ⟨p, hp, hd, hedit, hx⟩
    cases hp
    exact locationKind_updatesNothing_iff hd
      (Pane.Coherent.filteredResults hscreen hd (Pane.canEditRow_iff.mp hedit)) hx now written
  · rintro x ⟨p, hp, hd, hedit, hx⟩
    cases hp
    exact orderKind_updatesNothing_iff hd
      (Pane.Coherent.filteredResults hscreen hd (Pane.canEditRow_iff.mp hedit)) hx now written

/-- The first location of `addDataToDB`, alone in a database. -/
def Sample.smith : Location := ⟨1, "Smith St", "Boston", "Massachusetts", "United States", "02120"⟩

def Sample.smithDatabase : Database where
  item := .empty
  location := ⟨[Sample.smith], by decide⟩
  logisticsorder := .empty

/-- The update of a location whose zip has no leading zero. -/
theorem run_updatesNothing_iff_depot :
    ∃ st, (step Platform.ascii .assignment9).run
        (AppState.atMenu (generateDummyData Sample.database)) [⟨.openLocations, true⟩] = .ok st ∧
      (locationKind Platform.ascii).UpdatesNothing Platform.ascii st 0 0 true := by
  refine ⟨_, rfl, ((@run_updatesNothing_iff Platform.ascii _ _ rfl rfl Sample.database
    [⟨.openLocations, true⟩] _ rfl 0 0 true).2.1 Sample.depot ⟨_, rfl, rfl, rfl, rfl⟩).mpr
      (.inr ⟨⟨2115, by decide, rfl⟩, .inr ?_⟩)⟩
  decide

/-- The update of the first location of `addDataToDB` drops the leading zero. -/
theorem run_leadingZero :
    ∃ st st', (step Platform.ascii .assignment9).run
        (AppState.atMenu (generateDummyData Sample.smithDatabase)) [⟨.openLocations, true⟩] = .ok st ∧
      (locationKind Platform.ascii).Editable st 0 Sample.smith ∧
      (step Platform.ascii .assignment9).run st
        ((locationKind Platform.ascii).tapEditUpdate 0 0 [] true) = .ok st' ∧
      st'.store.locations = [{ Sample.smith with zip := "2120" }] ∧
      ¬ (locationKind Platform.ascii).UpdatesNothing Platform.ascii st 0 0 true := by
  refine ⟨_, _, rfl, ⟨_, rfl, rfl, rfl, rfl⟩, rfl, rfl, ?_⟩
  rintro ⟨st', hrun, hstore⟩
  obtain rfl := Except.ok.inj hrun
  exact absurd (congrArg (fun s : Store => s.locations.map Location.zip) hstore) (by decide)

end Info6350.TableApp
