import Info6350.TableApp.ItemScreens

/-! # The location list and the location details

`LocationTableViewController` and `LocationDetailsViewController`.
-/

namespace Info6350.TableApp
open Library Swift Logistics DatabaseManager

inductive LocationField where
  | tfLocationId
  | tfStreetName
  | tfCityName
  | tfStateName
  | tfCountryName
  | tfZipcode
deriving DecidableEq, Repr

structure LocationDetails where
  vcMode : ViewControllerMode
  indexPath : Option ℕ
  form : Form LocationField

inductive LocationEdit where
  | type (f : LocationField) (text : String)

namespace LocationTableViewController

/-- The test of `updateSearchResults`; the zip is compared without case folding. -/
def matchesText (P : Platform) (text : String) (location : Location) : Bool :=
  P.contains (P.lowercased location.street) (P.lowercased text) ||
    P.contains (P.lowercased location.city) (P.lowercased text) ||
    P.contains (P.lowercased location.state) (P.lowercased text) ||
    P.contains (P.lowercased location.country) (P.lowercased text) ||
    P.contains location.zip text

/-- `tableView(_:commit:forRowAt:)`. -/
def commitDelete (written : Bool) (filteredResults : List Location) (row : ℕ) (s : Store) :
    Handler (Store × List Location) := do
  let location ← trapping (subscript s.locations row)
  let orders := s.logisticsOrder.filter fun o =>
    o.toLocation.id = location.id || o.fromLocation.id = location.id
  alertIf (orders.length > 0) ⟨"Cannot Delete", "This location is being used in an order."⟩
  let rest ← trapping (deleteRow written s.locations filteredResults row s.db.location)
  return ({ s with locations := rest.1, db := { s.db with location := rest.2 } }, rest.1)

theorem commitDelete_array {written : Bool} {filtered filtered' : List Location} {row : ℕ}
    {s s' : Store} (h : commitDelete written filtered row s = .ok (s', filtered')) :
    s'.locations = filtered.eraseIdx row ∧ filtered' = s'.locations ∧ s.SameItems s' ∧
      s.SameOrders s' := by
  obtain ⟨location, -, h⟩ := bind_ok_iff.mp h
  obtain ⟨_, -, h⟩ := bind_ok_iff.mp h
  obtain ⟨⟨m, t⟩, hd, h⟩ := bind_ok_iff.mp h
  obtain ⟨rfl, rfl⟩ := Prod.mk.inj (pure_ok_iff.mp h)
  exact ⟨(deleteRow_fst (trapping_ok_iff.mp hd)).2, rfl, ⟨rfl, rfl⟩, ⟨rfl, rfl⟩⟩

theorem commitDelete_ok {written : Bool} {row : ℕ} {s s' : Store} {filtered : List Location}
    (h : commitDelete written s.locations row s = .ok (s', filtered)) :
    ∃ location, s.locations[row]? = some location ∧
      (∀ o ∈ s.logisticsOrder, o.toLocation.id ≠ location.id ∧ o.fromLocation.id ≠ location.id) ∧
      s' = (StoreEdit.locations (.delete row)).apply written s ∧ filtered = s'.locations := by
  obtain ⟨location, hlocation, h⟩ := bind_ok_iff.mp h
  have hrow := (subscript_natCast _ _).mp (trapping_ok_iff.mp hlocation)
  obtain ⟨_, horders, h⟩ := bind_ok_iff.mp h
  rw [alertIf_ok_iff] at horders
  obtain ⟨⟨m, t⟩, hd, h⟩ := bind_ok_iff.mp h
  obtain ⟨_, rfl, rfl⟩ := deleteRow_ok (trapping_ok_iff.mp hd)
  obtain ⟨rfl, rfl⟩ := Prod.mk.inj (pure_ok_iff.mp h)
  refine ⟨location, hrow, fun o ho => ?_, rfl, rfl⟩
  by_contra hused
  refine horders (List.length_pos_of_mem (List.mem_filter.mpr ⟨ho, ?_⟩))
  rw [← not_or, not_not] at hused
  simpa using hused

theorem commitDelete_of_row {s : Store} {filtered : List Location} {row : ℕ} {location : Location}
    (hlocation : s.locations[row]? = some location)
    (hunused : ∀ o ∈ s.logisticsOrder,
      o.toLocation.id ≠ location.id ∧ o.fromLocation.id ≠ location.id)
    (hrow : row < filtered.length) (written : Bool) : commitDelete written filtered row s =
      .ok ({ s with
        locations := filtered.eraseIdx row
        db := { s.db with location := deleteRecord written location.id s.db.location } },
        filtered.eraseIdx row) := by
  refine bind_ok_iff.mpr ⟨location, trapping_ok_iff.mpr ((subscript_natCast _ _).mpr hlocation), ?_⟩
  refine bind_ok_iff.mpr ⟨(), alertIf_ok_iff.mpr fun horders => ?_, bind_ok_iff.mpr
    ⟨_, trapping_ok_iff.mpr (deleteRow_of_row hlocation hrow written s.db.location), rfl⟩⟩
  obtain ⟨o, ho⟩ := List.exists_mem_of_length_pos horders
  obtain ⟨ho, hused⟩ := List.mem_filter.mp ho
  rw [Bool.or_eq_true, decide_eq_true_eq, decide_eq_true_eq] at hused
  rcases hused with hto | hfrom
  · exact (hunused o ho).1 hto
  · exact (hunused o ho).2 hfrom

theorem commitDelete_of_unused {s : Store} {row : ℕ} {location : Location}
    (hlocation : s.locations[row]? = some location)
    (hunused : ∀ o ∈ s.logisticsOrder,
      o.toLocation.id ≠ location.id ∧ o.fromLocation.id ≠ location.id)
    (written : Bool) : commitDelete written s.locations row s =
      .ok ((StoreEdit.locations (.delete row)).apply written s,
        (Edit.delete row).onList s.locations) := by
  have hrow : row < s.locations.length := (List.getElem?_eq_some_iff.mp hlocation).choose
  have htable : sendEdit written (.delete row) s.locations s.db.location =
      deleteRecord written location.id s.db.location :=
    sendEdit_delete written s.locations s.db.location hlocation
  rw [commitDelete_of_row hlocation hunused hrow, ← htable]
  rfl

theorem commitDelete_of_used {s : Store} {row : ℕ} {location : Location}
    (hlocation : s.locations[row]? = some location)
    (hused : ∃ o ∈ s.logisticsOrder, o.toLocation.id = location.id ∨ o.fromLocation.id = location.id)
    (written : Bool) (filtered : List Location) : commitDelete written filtered row s =
      .error (.alert ⟨"Cannot Delete", "This location is being used in an order."⟩) := by
  refine bind_error_iff.mpr (.inr ⟨location,
    trapping_ok_iff.mpr ((subscript_natCast _ _).mpr hlocation),
    bind_error_iff.mpr (.inl (if_pos ?_))⟩)
  obtain ⟨o, ho, hid⟩ := hused
  exact List.length_pos_of_mem (List.mem_filter.mpr ⟨ho, by simpa using hid⟩)

theorem commitDelete_unsuccessful (written : Bool) (filtered : List Location) (row : ℕ)
    (s : Store) : Stops Exit.Unsuccessful (commitDelete written filtered row s) :=
  (refuses_trapping _).unsuccessful.bind fun _ =>
    (stops_alertIf (by decide : "Cannot Delete" ≠ "Success")).bind fun _ =>
    (refuses_trapping _).unsuccessful.bind fun _ => stops_pure _

end LocationTableViewController

namespace LocationDetailsViewController

def instantiate (vcMode : ViewControllerMode) (indexPath : Option ℕ) : LocationDetails :=
  ⟨vcMode, indexPath, Form.blank⟩

def viewWillAppear (s : Store) (d : LocationDetails) : Except Trap LocationDetails :=
  match d.vcMode, d.indexPath with
  | .modify, some row => do
    let location ← subscript s.locations row
    return { d with
      form := d.form
        |>.setText .tfLocationId (toString location.id)
        |>.disable .tfLocationId
        |>.setText .tfStreetName location.street
        |>.setText .tfCityName location.city
        |>.setText .tfStateName location.state
        |>.setText .tfCountryName location.country
        |>.setText .tfZipcode location.zip }
  | _, _ => .ok d

def edit : LocationEdit → LocationDetails → LocationDetails
  | .type f text, d => { d with form := d.form.type f text }

def enteredLocation (d : LocationDetails) : Handler (Location → Location) := do
  let streetName ← nonEmptyText (d.form .tfStreetName) "Street name is empty"
  let cityName ← nonEmptyText (d.form .tfCityName) "City name is empty"
  let stateName ← nonEmptyText (d.form .tfStateName) "State name is empty"
  let country ← nonEmptyText (d.form .tfCountryName) "Country name is empty"
  let zipCode ← intOf (d.form .tfZipcode) "Invalid zipcode"
  return fun location => { location with
    street := streetName
    city := cityName
    state := stateName
    country := country
    zip := toString zipCode }

def createLocation (written : Bool) (d : LocationDetails) (s : Store) :
    Handler (Store × Alert) := do
  let locationId ← intOf (d.form .tfLocationId) "Invalid Location Id"
  refuseIf (firstIndex s.locations locationId).isSome "Location id already exists"
  let entered ← enteredLocation d
  let location := entered ⟨locationId, "", "", "", "", ""⟩
  return ({ s with
    locations := s.locations ++ [location]
    db := { s.db with location := saveRecord written location s.db.location } },
    ⟨"Success", "Location created successfully"⟩)

/-- The success message speaks of an item, as the source does. -/
def updateLocation (written : Bool) (d : LocationDetails) (s : Store) : Handler (Store × Alert) :=
  match d.indexPath with
  | none => .error .silent
  | some row => do
    let entered ← enteredLocation d
    let rest ← trapping (updateRow written s.locations row entered s.db.location)
    return ({ s with locations := rest.1, db := { s.db with location := rest.2 } },
      ⟨"Success", "Item updated successfully"⟩)

def createButtonTapped (written : Bool) (d : LocationDetails) (s : Store) :
    Handler (Store × Alert) :=
  if d.vcMode = .modify then updateLocation written d s else createLocation written d s

structure Enters (d : LocationDetails) (old new : Location) : Prop where
  id : new.id = old.id
  street : (d.form .tfStreetName).text = some new.street
  street_ne : new.street ≠ ""
  city : (d.form .tfCityName).text = some new.city
  city_ne : new.city ≠ ""
  state : (d.form .tfStateName).text = some new.state
  state_ne : new.state ≠ ""
  country : (d.form .tfCountryName).text = some new.country
  country_ne : new.country ≠ ""
  zip : ∃ zipCode, (d.form .tfZipcode).int? = some zipCode ∧ new.zip = toString zipCode

theorem enteredLocation_ok {d : LocationDetails} {entered : Location → Location}
    (h : enteredLocation d = .ok entered) (old : Location) : Enters d old (entered old) := by
  simp only [enteredLocation, bind_ok_iff, nonEmptyText_ok_iff, intOf_ok_iff, pure_ok_iff] at h
  obtain ⟨street, ⟨hs, hs'⟩, city, ⟨hc, hc'⟩, state, ⟨ht, ht'⟩, country, ⟨hn, hn'⟩, zip, hz, rfl⟩ := h
  exact ⟨rfl, hs, hs', hc, hc', ht, ht', hn, hn', zip, hz, rfl⟩

theorem Enters.eq {d : LocationDetails} {old new old' new' : Location} (h : Enters d old new)
    (h' : Enters d old' new') (hid : old.id = old'.id) : new = new' := by
  have hstreet := Option.some.inj (h.street.symm.trans h'.street)
  have hcity := Option.some.inj (h.city.symm.trans h'.city)
  have hstate := Option.some.inj (h.state.symm.trans h'.state)
  have hcountry := Option.some.inj (h.country.symm.trans h'.country)
  obtain ⟨zip, hz, hzip⟩ := h.zip
  obtain ⟨zip', hz', hzip'⟩ := h'.zip
  obtain rfl : zip = zip' := Option.some.inj (hz.symm.trans hz')
  have hzip := hzip.trans hzip'.symm
  have hid := h.id.trans (hid.trans h'.id.symm)
  cases new
  cases new'
  cases hid
  cases hstreet
  cases hcity
  cases hstate
  cases hcountry
  cases hzip
  rfl

theorem enteredLocation_of_enters {d : LocationDetails} {old new : Location}
    (h : Enters d old new) : ∃ entered, enteredLocation d = .ok entered ∧ entered old = new := by
  simp only [enteredLocation, bind_ok_iff, nonEmptyText_ok_iff, intOf_ok_iff, pure_ok_iff]
  obtain ⟨zipCode, hz, hzip⟩ := h.zip
  refine ⟨_, ⟨new.street, ⟨h.street, h.street_ne⟩, new.city, ⟨h.city, h.city_ne⟩, new.state,
    ⟨h.state, h.state_ne⟩, new.country, ⟨h.country, h.country_ne⟩, zipCode, hz, rfl⟩, ?_⟩
  have hid := h.id
  cases new
  cases hid
  cases hzip
  rfl

theorem createLocation_ok {written : Bool} {d : LocationDetails} {s s' : Store} {a : Alert}
    (h : createLocation written d s = .ok (s', a)) :
    ∃ location old, (Edit.create location).Legal s.locations ∧ Enters d old location ∧
      (d.form .tfLocationId).int? = some location.id ∧
      s' = (StoreEdit.locations (.create location)).apply written s ∧
      a = ⟨"Success", "Location created successfully"⟩ := by
  simp only [createLocation, bind_ok_iff, intOf_ok_iff, refuseIf_ok_iff, pure_ok_iff] at h
  obtain ⟨id, htext, _, hid, entered, hentered, heq⟩ := h
  obtain ⟨rfl, rfl⟩ := Prod.mk.inj heq
  have henters := enteredLocation_ok hentered ⟨id, "", "", "", "", ""⟩
  refine ⟨_, _, ?_, henters, ?_, rfl, rfl⟩
  · rw [firstIndex_isSome_iff] at hid
    change (entered _).id ∉ keys s.locations
    rw [henters.id]
    exact hid
  · rw [henters.id]
    exact htext

theorem createLocation_of_enters {d : LocationDetails} {s : Store} {old location : Location}
    (htext : (d.form .tfLocationId).int? = some location.id)
    (hnew : location.id ∉ keys s.locations) (h : Enters d old location) (written : Bool) :
    createLocation written d s = .ok ((StoreEdit.locations (.create location)).apply written s,
      ⟨"Success", "Location created successfully"⟩) := by
  have hblank : Enters d ⟨location.id, "", "", "", "", ""⟩ location := { h with id := rfl }
  obtain ⟨entered, hentered, hlocation⟩ := enteredLocation_of_enters hblank
  simp only [createLocation, bind_ok_iff, intOf_ok_iff, refuseIf_ok_iff, pure_ok_iff,
    firstIndex_isSome_iff]
  refine ⟨location.id, htext, (), hnew, entered, hentered, ?_⟩
  rw [hlocation]
  rfl

theorem updateLocation_ok {written : Bool} {d : LocationDetails} {s s' : Store} {a : Alert}
    (h : updateLocation written d s = .ok (s', a)) :
    ∃ row old new, d.indexPath = some row ∧ s.locations[row]? = some old ∧ Enters d old new ∧
      s' = (StoreEdit.locations (.update row new)).apply written s ∧
      a = ⟨"Success", "Item updated successfully"⟩ := by
  unfold updateLocation at h
  cases hrow : d.indexPath with
  | none => simp [hrow] at h
  | some row =>
    simp only [hrow, bind_ok_iff, trapping_ok_iff, pure_ok_iff, updateRow_ok_iff] at h
    obtain ⟨entered, hentered, _, ⟨old, hold, rfl⟩, heq⟩ := h
    obtain ⟨rfl, rfl⟩ := Prod.mk.inj heq
    exact ⟨row, old, entered old, rfl, hold, enteredLocation_ok hentered old, rfl, rfl⟩

theorem updateLocation_of_enters {written : Bool} {d : LocationDetails} {s : Store} {row : ℕ}
    {old new : Location} (hrow : d.indexPath = some row) (hold : s.locations[row]? = some old)
    (h : Enters d old new) :
    updateLocation written d s = .ok ((StoreEdit.locations (.update row new)).apply written s,
      ⟨"Success", "Item updated successfully"⟩) := by
  obtain ⟨entered, hentered, rfl⟩ := enteredLocation_of_enters h
  simp only [updateLocation, hrow, bind_ok_iff, trapping_ok_iff, pure_ok_iff, updateRow_ok_iff]
  exact ⟨entered, hentered, _, ⟨old, hold, rfl⟩, rfl⟩

theorem stops_enteredLocation {E : Exit → Prop} [FailedChecks E] (d : LocationDetails) :
    Stops E (enteredLocation d) :=
  (stops_nonEmptyText _ _).bind fun _ => (stops_nonEmptyText _ _).bind fun _ =>
    (stops_nonEmptyText _ _).bind fun _ => (stops_nonEmptyText _ _).bind fun _ =>
    (stops_intOf _ _).bind fun _ => stops_pure _

theorem refuses_createButtonTapped (written : Bool) (d : LocationDetails) (s : Store) :
    Refuses (createButtonTapped written d s) := by
  unfold createButtonTapped
  split_ifs
  · unfold updateLocation
    cases d.indexPath with
    | none => exact refuses_silent
    | some row =>
      exact (stops_enteredLocation d).bind fun _ => (refuses_trapping _).bind fun _ =>
        stops_pure _
  · exact (stops_intOf _ _).bind fun _ => (stops_refuseIf _ _).bind fun _ =>
      (stops_enteredLocation d).bind fun _ => stops_pure _

end LocationDetailsViewController
end Info6350.TableApp
