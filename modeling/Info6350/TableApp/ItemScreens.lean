import Info6350.TableApp.Store

/-! # The item list and the item details

`ItemsTableViewController` and `ItemDetailsViewController`.  What the details
screen does with a row index is done on the array of the main screen, whatever
list the row was tapped in.
-/

namespace Info6350.TableApp
open Library Swift Logistics DatabaseManager

/-- An image, known to the apps by its PNG encoding. -/
structure UIImage where
  pngData : Option Data
deriving DecidableEq, Repr

/-- What the controllers call outside the sources: decoding of images and the asset
catalogue, the case folding and the substring test of the search, and
`DateFormatter.string(from:)`. -/
structure Platform where
  imageOfData : Data → Option UIImage
  imageNamed : String → Option UIImage
  lowercased : String → String
  contains : String → String → Bool
  dateString : Date → String

/-- A platform of ASCII texts, with the placeholder in its catalogue. -/
def Platform.ascii : Platform where
  imageOfData data := some ⟨some data⟩
  imageNamed name := if name = "placeholder" then some ⟨some [137, 80, 78, 71]⟩ else none
  lowercased text := String.ofList (text.toList.map Char.toLower)
  contains text part := decide (part.toList <:+: text.toList)
  dateString date := toString date

inductive ViewControllerMode where
  | create
  | modify
deriving DecidableEq, Repr

namespace ViewControllerMode

theorem ne_modify_iff {mode : ViewControllerMode} : mode ≠ .modify ↔ mode = .create := by
  cases mode <;> decide

theorem ne_create_iff {mode : ViewControllerMode} : mode ≠ .create ↔ mode = .modify := by
  cases mode <;> decide

end ViewControllerMode

inductive ItemField where
  | tfItemId
  | tfItemName
  | tfItemValue
  | tfItemWeight
  | tfItemDescription
deriving DecidableEq, Repr

structure ItemDetails where
  vcMode : ViewControllerMode
  indexPath : Option ℕ
  form : Form ItemField
  imageView : Option UIImage

/-- What the user does on the details screen besides its button. -/
inductive ItemEdit where
  | type (f : ItemField) (text : String)
  | pickImage (image : UIImage)

namespace ItemsTableViewController

/-- The test of `updateSearchResults`. -/
def matchesText (P : Platform) (text : String) (item : Item) : Bool :=
  P.contains (P.lowercased item.name) (P.lowercased text) ||
    P.contains (P.lowercased item.desc) (P.lowercased text) ||
    P.contains (P.lowercased (toString item.id)) (P.lowercased text)

/-- `tableView(_:commit:forRowAt:)`. -/
def commitDelete (written : Bool) (filteredResults : List Item) (row : ℕ) (s : Store) :
    Handler (Store × List Item) := do
  let item ← trapping (subscript s.items row)
  let orders := s.logisticsOrder.filter fun o => o.itemsCarried.any fun l => l.item.id = item.id
  alertIf (orders.length > 0) ⟨"Cannot Delete", "This item is present in an order."⟩
  let rest ← trapping (deleteRow written s.items filteredResults row s.db.item)
  return ({ s with items := rest.1, db := { s.db with item := rest.2 } }, rest.1)

theorem commitDelete_array {written : Bool} {filtered filtered' : List Item} {row : ℕ}
    {s s' : Store} (h : commitDelete written filtered row s = .ok (s', filtered')) :
    s'.items = filtered.eraseIdx row ∧ filtered' = s'.items ∧ s.SameLocations s' ∧
      s.SameOrders s' := by
  obtain ⟨item, -, h⟩ := bind_ok_iff.mp h
  obtain ⟨_, -, h⟩ := bind_ok_iff.mp h
  obtain ⟨⟨m, t⟩, hd, h⟩ := bind_ok_iff.mp h
  obtain ⟨rfl, rfl⟩ := Prod.mk.inj (pure_ok_iff.mp h)
  exact ⟨(deleteRow_fst (trapping_ok_iff.mp hd)).2, rfl, ⟨rfl, rfl⟩, ⟨rfl, rfl⟩⟩

/-- A delete from the unfiltered list removes an item that no order carries. -/
theorem commitDelete_ok {written : Bool} {row : ℕ} {s s' : Store} {filtered : List Item}
    (h : commitDelete written s.items row s = .ok (s', filtered)) :
    ∃ item, s.items[row]? = some item ∧
      (∀ o ∈ s.logisticsOrder, ∀ l ∈ o.itemsCarried, l.item.id ≠ item.id) ∧
      s' = (StoreEdit.items (.delete row)).apply written s ∧ filtered = s'.items := by
  obtain ⟨item, hitem, h⟩ := bind_ok_iff.mp h
  have hrow := (subscript_natCast _ _).mp (trapping_ok_iff.mp hitem)
  obtain ⟨_, horders, h⟩ := bind_ok_iff.mp h
  rw [alertIf_ok_iff] at horders
  obtain ⟨⟨m, t⟩, hd, h⟩ := bind_ok_iff.mp h
  obtain ⟨_, rfl, rfl⟩ := deleteRow_ok (trapping_ok_iff.mp hd)
  obtain ⟨rfl, rfl⟩ := Prod.mk.inj (pure_ok_iff.mp h)
  refine ⟨item, hrow, fun o ho l hl hid => horders ?_, rfl, rfl⟩
  refine List.length_pos_of_mem (List.mem_filter.mpr ⟨ho, ?_⟩)
  simpa using ⟨l, hl, hid⟩

theorem commitDelete_of_row {s : Store} {filtered : List Item} {row : ℕ} {item : Item}
    (hitem : s.items[row]? = some item)
    (hunused : ∀ o ∈ s.logisticsOrder, ∀ l ∈ o.itemsCarried, l.item.id ≠ item.id)
    (hrow : row < filtered.length) (written : Bool) : commitDelete written filtered row s =
      .ok ({ s with
        items := filtered.eraseIdx row
        db := { s.db with item := deleteRecord written item.id s.db.item } },
        filtered.eraseIdx row) := by
  refine bind_ok_iff.mpr ⟨item, trapping_ok_iff.mpr ((subscript_natCast _ _).mpr hitem), ?_⟩
  refine bind_ok_iff.mpr ⟨(), alertIf_ok_iff.mpr fun horders => ?_, bind_ok_iff.mpr
    ⟨_, trapping_ok_iff.mpr (deleteRow_of_row hitem hrow written s.db.item), rfl⟩⟩
  obtain ⟨o, ho⟩ := List.exists_mem_of_length_pos horders
  obtain ⟨ho, hcarried⟩ := List.mem_filter.mp ho
  obtain ⟨l, hl, hid⟩ := List.any_eq_true.mp hcarried
  exact hunused o ho l hl (of_decide_eq_true hid)

theorem commitDelete_of_unused {s : Store} {row : ℕ} {item : Item}
    (hitem : s.items[row]? = some item)
    (hunused : ∀ o ∈ s.logisticsOrder, ∀ l ∈ o.itemsCarried, l.item.id ≠ item.id)
    (written : Bool) : commitDelete written s.items row s =
      .ok ((StoreEdit.items (.delete row)).apply written s, (Edit.delete row).onList s.items) := by
  have hrow : row < s.items.length := (List.getElem?_eq_some_iff.mp hitem).choose
  have htable : sendEdit written (.delete row) s.items s.db.item =
      deleteRecord written item.id s.db.item := sendEdit_delete written s.items s.db.item hitem
  rw [commitDelete_of_row hitem hunused hrow, ← htable]
  rfl

theorem commitDelete_of_used {s : Store} {row : ℕ} {item : Item}
    (hitem : s.items[row]? = some item)
    (hused : ∃ o ∈ s.logisticsOrder, ∃ l ∈ o.itemsCarried, l.item.id = item.id)
    (written : Bool) (filtered : List Item) : commitDelete written filtered row s =
      .error (.alert ⟨"Cannot Delete", "This item is present in an order."⟩) := by
  refine bind_error_iff.mpr (.inr ⟨item, trapping_ok_iff.mpr ((subscript_natCast _ _).mpr hitem),
    bind_error_iff.mpr (.inl (if_pos ?_))⟩)
  obtain ⟨o, ho, l, hl, hid⟩ := hused
  exact List.length_pos_of_mem
    (List.mem_filter.mpr ⟨ho, List.any_eq_true.mpr ⟨l, hl, decide_eq_true hid⟩⟩)

theorem commitDelete_unsuccessful (written : Bool) (filtered : List Item) (row : ℕ) (s : Store) :
    Stops Exit.Unsuccessful (commitDelete written filtered row s) :=
  (refuses_trapping _).unsuccessful.bind fun _ =>
    (stops_alertIf (by decide : "Cannot Delete" ≠ "Success")).bind fun _ =>
    (refuses_trapping _).unsuccessful.bind fun _ => stops_pure _

end ItemsTableViewController

namespace ItemDetailsViewController

/-- The controller as instantiated from the storyboard and set up by the list. -/
def instantiate (vcMode : ViewControllerMode) (indexPath : Option ℕ) : ItemDetails :=
  ⟨vcMode, indexPath, Form.blank, none⟩

def viewWillAppear (P : Platform) (s : Store) (d : ItemDetails) : Except Trap ItemDetails :=
  match d.vcMode, d.indexPath with
  | .modify, some row => do
    let item ← subscript s.items row
    return { d with
      form := d.form
        |>.setText .tfItemId (toString item.id)
        |>.disable .tfItemId
        |>.setText .tfItemName item.name
        |>.setText .tfItemValue (toString item.value)
        |>.setText .tfItemWeight (toString item.weight)
        |>.setText .tfItemDescription item.desc
      imageView := match item.imageData with
        | some data => P.imageOfData data
        | none => P.imageNamed "placeholder" }
  | _, _ => .ok d

def edit : ItemEdit → ItemDetails → ItemDetails
  | .type f text, d => { d with form := d.form.type f text }
  | .pickImage image, d => { d with imageView := some image }

/-- The checked inputs of the screen, written over a record. -/
def enteredItem (valueMessage : String) (d : ItemDetails) : Handler (Item → Item) := do
  let itemName ← nonEmptyText (d.form .tfItemName) "Item name is empty"
  let itemDesc ← textOf (d.form .tfItemDescription) "Item description is empty"
  let itemWeight ← intOf (d.form .tfItemWeight) "Invalid weight"
  refuseIf (itemWeight ≤ 0) "Weight cannot be 0"
  let itemValue ← intOf (d.form .tfItemValue) "Invalid value"
  refuseIf (itemValue ≤ 0) valueMessage
  return fun item => { item with
    imageData := d.imageView.bind UIImage.pngData
    name := itemName
    desc := itemDesc
    weight := itemWeight
    value := itemValue }

def createItem (written : Bool) (d : ItemDetails) (s : Store) : Handler (Store × Alert) := do
  let itemId ← intOf (d.form .tfItemId) "Invalid Item Id"
  refuseIf (firstIndex s.items itemId).isSome "Item id already exists"
  let entered ← enteredItem "Value cannot be 0" d
  let item := entered ⟨none, itemId, "", "", 0, 0⟩
  return ({ s with
    items := s.items ++ [item]
    db := { s.db with item := saveRecord written item s.db.item } },
    ⟨"Success", "Item created successfully"⟩)

/-- The second message of a non-positive value speaks of the weight, as the source does. -/
def updateItem (written : Bool) (d : ItemDetails) (s : Store) : Handler (Store × Alert) :=
  match d.indexPath with
  | none => .error .silent
  | some row => do
    let entered ← enteredItem "Weight cannot be 0" d
    let rest ← trapping (updateRow written s.items row entered s.db.item)
    return ({ s with items := rest.1, db := { s.db with item := rest.2 } },
      ⟨"Success", "Item updated successfully"⟩)

def createButtonTap (written : Bool) (d : ItemDetails) (s : Store) : Handler (Store × Alert) :=
  if d.vcMode = .modify then updateItem written d s else createItem written d s

/-- The record `new` is `old` with the inputs of the screen, which pass the checks. -/
structure Enters (d : ItemDetails) (old new : Item) : Prop where
  imageData : new.imageData = d.imageView.bind UIImage.pngData
  id : new.id = old.id
  name : (d.form .tfItemName).text = some new.name
  name_ne : new.name ≠ ""
  desc : (d.form .tfItemDescription).text = some new.desc
  weight : (d.form .tfItemWeight).int? = some new.weight
  weight_pos : 0 < new.weight
  value : (d.form .tfItemValue).int? = some new.value
  value_pos : 0 < new.value

theorem enteredItem_ok {message : String} {d : ItemDetails} {entered : Item → Item}
    (h : enteredItem message d = .ok entered) (old : Item) : Enters d old (entered old) := by
  simp only [enteredItem, bind_ok_iff, nonEmptyText_ok_iff, textOf_ok_iff, intOf_ok_iff,
    refuseIf_ok_iff, pure_ok_iff] at h
  obtain ⟨name, ⟨hname, hne⟩, desc, hdesc, weight, hweight, _, hw, value, hvalue, _, hv, rfl⟩ := h
  exact ⟨rfl, rfl, hname, hne, hdesc, hweight, not_le.mp hw, hvalue, not_le.mp hv⟩

/-- The screen determines everything but the id. -/
theorem Enters.eq {d : ItemDetails} {old new old' new' : Item} (h : Enters d old new)
    (h' : Enters d old' new') (hid : old.id = old'.id) : new = new' := by
  have hname := Option.some.inj (h.name.symm.trans h'.name)
  have hdesc := Option.some.inj (h.desc.symm.trans h'.desc)
  have hweight := Option.some.inj (h.weight.symm.trans h'.weight)
  have hvalue := Option.some.inj (h.value.symm.trans h'.value)
  have himage := h.imageData.trans h'.imageData.symm
  have hid := h.id.trans (hid.trans h'.id.symm)
  cases new
  cases new'
  cases himage
  cases hid
  cases hname
  cases hdesc
  cases hweight
  cases hvalue
  rfl

/-- The checks accept exactly the inputs that they describe. -/
theorem enteredItem_of_enters {d : ItemDetails} {old new : Item} (h : Enters d old new)
    (message : String) : ∃ entered, enteredItem message d = .ok entered ∧ entered old = new := by
  simp only [enteredItem, bind_ok_iff, nonEmptyText_ok_iff, textOf_ok_iff, intOf_ok_iff,
    refuseIf_ok_iff, pure_ok_iff]
  refine ⟨_, ⟨new.name, ⟨h.name, h.name_ne⟩, new.desc, h.desc, new.weight, h.weight, (), ?_,
    new.value, h.value, (), ?_, rfl⟩, ?_⟩
  · exact not_le.mpr h.weight_pos
  · exact not_le.mpr h.value_pos
  · obtain ⟨himage, hid, _⟩ := h
    cases new
    cases hid
    cases himage
    rfl

theorem createItem_ok {written : Bool} {d : ItemDetails} {s s' : Store} {a : Alert}
    (h : createItem written d s = .ok (s', a)) :
    ∃ item old, (Edit.create item).Legal s.items ∧ Enters d old item ∧
      (d.form .tfItemId).int? = some item.id ∧
      s' = (StoreEdit.items (.create item)).apply written s ∧
      a = ⟨"Success", "Item created successfully"⟩ := by
  simp only [createItem, bind_ok_iff, intOf_ok_iff, refuseIf_ok_iff, pure_ok_iff] at h
  obtain ⟨id, htext, _, hid, entered, hentered, heq⟩ := h
  obtain ⟨rfl, rfl⟩ := Prod.mk.inj heq
  have henters := enteredItem_ok hentered ⟨none, id, "", "", 0, 0⟩
  refine ⟨_, _, ?_, henters, ?_, rfl, rfl⟩
  · rw [firstIndex_isSome_iff] at hid
    change (entered _).id ∉ keys s.items
    rw [henters.id]
    exact hid
  · rw [henters.id]
    exact htext

theorem createItem_of_enters {d : ItemDetails} {s : Store} {old item : Item}
    (htext : (d.form .tfItemId).int? = some item.id) (hnew : item.id ∉ keys s.items)
    (h : Enters d old item) (written : Bool) :
    createItem written d s = .ok ((StoreEdit.items (.create item)).apply written s,
      ⟨"Success", "Item created successfully"⟩) := by
  have hblank : Enters d ⟨none, item.id, "", "", 0, 0⟩ item := { h with id := rfl }
  obtain ⟨entered, hentered, hitem⟩ := enteredItem_of_enters hblank "Value cannot be 0"
  simp only [createItem, bind_ok_iff, intOf_ok_iff, refuseIf_ok_iff, pure_ok_iff,
    firstIndex_isSome_iff]
  refine ⟨item.id, htext, (), hnew, entered, hentered, ?_⟩
  rw [hitem]
  rfl

theorem updateItem_ok {written : Bool} {d : ItemDetails} {s s' : Store} {a : Alert}
    (h : updateItem written d s = .ok (s', a)) :
    ∃ row old new, d.indexPath = some row ∧ s.items[row]? = some old ∧ Enters d old new ∧
      s' = (StoreEdit.items (.update row new)).apply written s ∧
      a = ⟨"Success", "Item updated successfully"⟩ := by
  unfold updateItem at h
  cases hrow : d.indexPath with
  | none => simp [hrow] at h
  | some row =>
    simp only [hrow, bind_ok_iff, trapping_ok_iff, pure_ok_iff, updateRow_ok_iff] at h
    obtain ⟨entered, hentered, _, ⟨old, hold, rfl⟩, heq⟩ := h
    obtain ⟨rfl, rfl⟩ := Prod.mk.inj heq
    exact ⟨row, old, entered old, rfl, hold, enteredItem_ok hentered old, rfl, rfl⟩

theorem updateItem_of_enters {written : Bool} {d : ItemDetails} {s : Store} {row : ℕ}
    {old new : Item} (hrow : d.indexPath = some row) (hold : s.items[row]? = some old)
    (h : Enters d old new) :
    updateItem written d s = .ok ((StoreEdit.items (.update row new)).apply written s,
      ⟨"Success", "Item updated successfully"⟩) := by
  obtain ⟨entered, hentered, rfl⟩ := enteredItem_of_enters h "Weight cannot be 0"
  simp only [updateItem, hrow, bind_ok_iff, trapping_ok_iff, pure_ok_iff, updateRow_ok_iff]
  exact ⟨entered, hentered, _, ⟨old, hold, rfl⟩, rfl⟩

theorem stops_enteredItem {E : Exit → Prop} [FailedChecks E] (message : String) (d : ItemDetails) :
    Stops E (enteredItem message d) :=
  (stops_nonEmptyText _ _).bind fun _ => (stops_textOf _ _).bind fun _ =>
    (stops_intOf _ _).bind fun _ => (stops_refuseIf _ _).bind fun _ =>
    (stops_intOf _ _).bind fun _ => (stops_refuseIf _ _).bind fun _ => stops_pure _

theorem refuses_createButtonTap (written : Bool) (d : ItemDetails) (s : Store) :
    Refuses (createButtonTap written d s) := by
  unfold createButtonTap
  split_ifs
  · unfold updateItem
    cases d.indexPath with
    | none => exact refuses_silent
    | some row =>
      exact (stops_enteredItem _ d).bind fun _ => (refuses_trapping _).bind fun _ =>
        stops_pure _
  · exact (stops_intOf _ _).bind fun _ => (stops_refuseIf _ _).bind fun _ =>
      (stops_enteredItem _ d).bind fun _ => stops_pure _

end ItemDetailsViewController
end Info6350.TableApp
