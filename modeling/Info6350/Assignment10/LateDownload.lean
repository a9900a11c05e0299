import Info6350.Assignment10.UserChanges

/-! # Late downloads

A completion assigns the whole array, so it discards what the user created or updated
since the request, and it can move another record to the row that an open details screen
will update.  All changes are kept if and only if no completion discards one and every
update that passes its checks reflects them.
-/

namespace Info6350.Assignment10
open Library Swift Logistics TableApp Session

section ItemEditor
open ItemDetailsViewController

def reportedItem (d : ItemDetails) : Option Item :=
  match (d.form .tfItemId).int?, ItemDetailsViewController.enteredItem "" d with
  | some id, .ok entered => some (entered ⟨none, id, "", "", 0, 0⟩)
  | _, _ => none

theorem reportedItem_of_enters {d : ItemDetails} {old new : Item} (h : Enters d old new)
    (hid : (d.form .tfItemId).int? = some new.id) : reportedItem d = some new := by
  obtain ⟨entered, hentered, -⟩ := enteredItem_of_enters h ""
  have hnew := enteredItem_ok hentered ⟨none, new.id, "", "", 0, 0⟩
  rw [reportedItem, hid, hentered]
  exact congrArg some (hnew.eq h h.id)

theorem shown_of_reportedItem {d : ItemDetails} {item : Item}
    (h : reportedItem d = some item) : (d.form .tfItemId).int? = some item.id := by
  unfold reportedItem at h
  split at h
  · rename_i hid hentered
    rw [hid, ← Option.some.inj h, (enteredItem_ok hentered _).id]
  · cases h

def itemEditor (P : Platform) : Editor Item ItemDetails ItemEdit where
  controllers := itemControllers P
  changes := itemChanges
  shownId d := (d.form .tfItemId).int?
  entered := reportedItem

theorem itemEditor_lawful (P : Platform) : (itemEditor P).Lawful where
  carryOut := itemControllers_carryOut P
  refuses {w d s} := refuses_createButtonTap w d s
  button {s d e} h := by
    cases h with
    | create item _ _ hentered =>
      obtain ⟨hid, old, henters⟩ := hentered
      exact .inl ⟨item, rfl, reportedItem_of_enters henters hid⟩
    | update row old new _ _ hold henters =>
      have hid : (d.form .tfItemId).int? = some old.id → reportedItem d = some new :=
        fun h => reportedItem_of_enters henters (h.trans (congrArg some henters.id.symm))
      exact .inr ⟨row, old, new, rfl, hold, henters.id, hid⟩
  shown := shown_of_reportedItem
  delete_ok h := ⟨(ItemsTableViewController.commitDelete_array h).1,
    (ItemsTableViewController.commitDelete_array h).2.1⟩

end ItemEditor

section LocationEditor
open LocationDetailsViewController

def reportedLocation (d : LocationDetails) : Option Location :=
  match (d.form .tfLocationId).int?, LocationDetailsViewController.enteredLocation d with
  | some id, .ok entered => some (entered ⟨id, "", "", "", "", ""⟩)
  | _, _ => none

theorem reportedLocation_of_enters {d : LocationDetails} {old new : Location}
    (h : Enters d old new) (hid : (d.form .tfLocationId).int? = some new.id) :
    reportedLocation d = some new := by
  obtain ⟨entered, hentered, -⟩ := enteredLocation_of_enters h
  have hnew := enteredLocation_ok hentered ⟨new.id, "", "", "", "", ""⟩
  rw [reportedLocation, hid, hentered]
  exact congrArg some (hnew.eq h h.id)

theorem shown_of_reportedLocation {d : LocationDetails} {location : Location}
    (h : reportedLocation d = some location) : (d.form .tfLocationId).int? = some location.id := by
  unfold reportedLocation at h
  split at h
  · rename_i hid hentered
    rw [hid, ← Option.some.inj h, (enteredLocation_ok hentered _).id]
  · cases h

def locationEditor (P : Platform) : Editor Location LocationDetails LocationEdit where
  controllers := locationControllers P
  changes := locationChanges
  shownId d := (d.form .tfLocationId).int?
  entered := reportedLocation

theorem locationEditor_lawful (P : Platform) : (locationEditor P).Lawful where
  carryOut := locationControllers_carryOut P
  refuses {w d s} := refuses_createButtonTapped w d s
  button {s d e} h := by
    cases h with
    | create location _ _ hentered =>
      obtain ⟨hid, old, henters⟩ := hentered
      exact .inl ⟨location, rfl, reportedLocation_of_enters henters hid⟩
    | update row old new _ _ hold henters =>
      have hid : (d.form .tfLocationId).int? = some old.id → reportedLocation d = some new :=
        fun h => reportedLocation_of_enters henters (h.trans (congrArg some henters.id.symm))
      exact .inr ⟨row, old, new, rfl, hold, henters.id, hid⟩
  shown := shown_of_reportedLocation
  delete_ok h := ⟨(LocationTableViewController.commitDelete_array h).1,
    (LocationTableViewController.commitDelete_array h).2.1⟩

end LocationEditor

/-- The items and the locations that the user created or updated and has not deleted. -/
structure Changes where
  items : List Item
  locations : List Location

/-- The history variable, after an action. -/
def recordChanges (P : Platform) (st : Session) (a : Action) (_ : Session) (c : Changes) :
    Changes :=
  match a, st.remaining, st.app.screen with
  | .user ⟨.items e, written⟩, [], .items p =>
    { c with
      items := userChanges (itemControllers P) Item.id (itemEditor P).reported written
        st.app.store p e c.items }
  | .user ⟨.locations e, written⟩, [], .locations p =>
    { c with
      locations := userChanges (locationControllers P) Location.id (locationEditor P).reported
        written st.app.store p e c.locations }
  | _, _, _ => c

/-- A completion discards no change of the user, and an update reflects them. -/
def Reflects (P : Platform) (st : Session × Changes) (a : Action) : Prop :=
  match a with
  | .itemsCompletion items => st.1.itemsTask = true → ∀ x ∈ st.2.items, x ∈ items
  | .locationsCompletion locations =>
    st.1.locationsTask = true → ∀ x ∈ st.2.locations, x ∈ locations
  | .user ⟨.items .createButtonTap, _⟩ => st.1.remaining = [] → ∀ p d,
    st.1.app.screen = .items p → p.details = some d →
      (itemEditor P).UpdateReflects st.1.app.store d st.2.items
  | .user ⟨.locations .createButtonTap, _⟩ => st.1.remaining = [] → ∀ p d,
    st.1.app.screen = .locations p → p.details = some d →
      (locationEditor P).UpdateReflects st.1.app.store d st.2.locations
  | _ => True

/-- The changes are in the arrays. -/
structure ChangesKept (st : Session × Changes) : Prop where
  items : ∀ x ∈ st.2.items, x ∈ st.1.app.store.items
  locations : ∀ x ∈ st.2.locations, x ∈ st.1.app.store.locations

/-- They are also in the list on screen if it can be edited. -/
structure ChangesListed (st : Session × Changes) : Prop extends ChangesKept st where
  listedItems : ∀ p, st.1.app.screen = .items p → Editor.Listed p st.2.items
  listedLocations : ∀ p, st.1.app.screen = .locations p → Editor.Listed p st.2.locations

/-- Only a user event on the screen that offers it is recorded. -/
theorem recordChanges_same (P : Platform) {st st' : Session} {a : Action} {c : Changes}
    (h : ∀ i, a = .user i → st.remaining = [] →
      (∀ p x, st.app.screen = .items p → i.event ≠ .items x) ∧
        ∀ p x, st.app.screen = .locations p → i.event ≠ .locations x) :
    recordChanges P st a st' c = c := by
  unfold recordChanges
  split
  · rename_i hremaining hscreen
    exact absurd rfl ((h _ rfl hremaining).1 _ _ hscreen)
  · rename_i hremaining hscreen
    exact absurd rfl ((h _ rfl hremaining).2 _ _ hscreen)
  · rfl

section Steps
variable {P : Platform} {c : Changes}

theorem ChangesListed.congr {st st' : Session} (h : ChangesListed (st, c))
    (hitems : st'.app.store.items = st.app.store.items)
    (hlocations : st'.app.store.locations = st.app.store.locations)
    (hscreen : st'.app.screen = st.app.screen) : ChangesListed (st', c) where
  items x hx := hitems ▸ h.items x hx
  locations x hx := hlocations ▸ h.locations x hx
  listedItems p hp := h.listedItems p (hscreen ▸ hp)
  listedLocations p hp := h.listedLocations p (hscreen ▸ hp)

theorem changesListed_user {app app' : AppState} {i : Input} {itemsTask locationsTask : Bool}
    (hk : ChangesListed (⟨app, [], itemsTask, locationsTask⟩, c))
    (hr : Reflects P (⟨app, [], itemsTask, locationsTask⟩, c) (.user i))
    (h : TableApp.step P .assignment10 app i = .ok app') :
    ChangesListed (⟨app', [], itemsTask, locationsTask⟩,
      recordChanges P ⟨app, [], itemsTask, locationsTask⟩ (.user i)
        ⟨app', [], itemsTask, locationsTask⟩ c) := by
  obtain ⟨s, screen, alerts⟩ := app
  obtain ⟨e, written⟩ := i
  obtain ⟨⟨hitems, hlocations⟩, hlistedItems, hlistedLocations⟩ := hk
  cases step_move h with
  | openItems =>
    exact ⟨⟨hitems, hlocations⟩, fun p hp => Screen.items.inj hp ▸ fun _ _ => hitems,
      fun p hp => (nomatch hp)⟩
  | openLocations =>
    exact ⟨⟨hitems, hlocations⟩, fun p hp => (nomatch hp),
      fun p hp => Screen.locations.inj hp ▸ fun _ _ => hlocations⟩
  | openOrders =>
    exact ⟨⟨hitems, hlocations⟩, fun p hp => (nomatch hp), fun p hp => (nomatch hp)⟩
  | items p e r hstep =>
    have hkept := (itemEditor_lawful P).kept ⟨hitems, hlistedItems p rfl⟩
      (fun d he hd => by cases he; exact hr rfl p d rfl hd) hstep
    have hframe := (itemPane_frame hstep).1.array
    exact ⟨⟨hkept.array, fun x hx => hframe ▸ hlocations x hx⟩,
      fun q hq => Screen.items.inj hq ▸ hkept.list, fun q hq => (nomatch hq)⟩
  | locations p e r hstep =>
    have hkept := (locationEditor_lawful P).kept ⟨hlocations, hlistedLocations p rfl⟩
      (fun d he hd => by cases he; exact hr rfl p d rfl hd) hstep
    have hframe := (locationPane_frame hstep).1.array
    exact ⟨⟨fun x hx => hframe ▸ hitems x hx, hkept.array⟩, fun q hq => (nomatch hq),
      fun q hq => Screen.locations.inj hq ▸ hkept.list⟩
  | orders p e r hstep =>
    have hframe := orderPane_frame hstep
    exact ⟨⟨fun x hx => hframe.1.array ▸ hitems x hx,
      fun x hx => hframe.2.array ▸ hlocations x hx⟩, fun q hq => (nomatch hq),
      fun q hq => (nomatch hq)⟩
  | leave =>
    exact ⟨⟨hitems, hlocations⟩, fun p hp => (nomatch hp), fun p hp => (nomatch hp)⟩
  | stay _ _ hi hl _ =>
    rw [recordChanges_same P fun i hi' _ => by cases hi'; exact ⟨hi, hl⟩]
    exact ⟨⟨hitems, hlocations⟩, hlistedItems, hlistedLocations⟩

theorem step_preserves_changesListed (P : Platform) :
    ((Session.step P).withHistory (recordChanges P)).Preserves (Reflects P) ChangesListed := by
  rintro ⟨⟨app, remaining, itemsTask, locationsTask⟩, c⟩ a ⟨st', c'⟩ hk hr h
  obtain ⟨hstep, hc⟩ := ((Session.step P).withHistory_ok_iff _).mp h
  dsimp only at hstep hc
  subst hc
  cases a with
  | statement writtenItem writtenLocation =>
    cases remaining with
    | nil =>
      obtain rfl := Except.ok.inj hstep
      exact hk
    | cons statement remaining =>
      obtain rfl := Except.ok.inj hstep
      cases statement <;> exact hk.congr rfl rfl rfl
  | itemsCompletion items =>
    obtain rfl := Except.ok.inj hstep
    cases itemsTask with
    | false => exact hk
    | true => exact ⟨⟨hr rfl, hk.locations⟩, hk.listedItems, hk.listedLocations⟩
  | locationsCompletion locations =>
    obtain rfl := Except.ok.inj hstep
    cases locationsTask with
    | false => exact hk
    | true => exact ⟨⟨hk.items, hr rfl⟩, hk.listedItems, hk.listedLocations⟩
  | user i =>
    cases remaining with
    | nil =>
      obtain ⟨app', happ, rfl⟩ := map_ok_iff.mp hstep
      exact changesListed_user hk hr happ
    | cons statement remaining =>
      obtain rfl := Except.ok.inj hstep
      rw [recordChanges_same P fun _ _ hnil => absurd hnil (List.cons_ne_nil _ _)]
      exact hk

/-- An action after which the changes are kept, if it reaches a state, reflects them. -/
theorem reflects_of_changesKept {st : Session × Changes} {a : Action} (hk : ChangesKept st)
    (h : ∀ t, (Session.step P).withHistory (recordChanges P) st a = .ok t → ChangesKept t) :
    Reflects P st a := by
  obtain ⟨⟨⟨s, screen, alerts⟩, remaining, itemsTask, locationsTask⟩, c⟩ := st
  have huser : ∀ i app, remaining = [] →
      TableApp.step P .assignment10 ⟨s, screen, alerts⟩ i = .ok app → a = .user i →
      ChangesKept (⟨app, [], itemsTask, locationsTask⟩, recordChanges P
        ⟨⟨s, screen, alerts⟩, [], itemsTask, locationsTask⟩ (.user i)
        ⟨app, [], itemsTask, locationsTask⟩ c) := by
    rintro i app rfl happ rfl
    exact h (_, _) (((Session.step P).withHistory_ok_iff _).mpr
      ⟨map_ok_iff.mpr ⟨app, happ, rfl⟩, rfl⟩)
  unfold Reflects
  split
  · rintro rfl
    exact (h _ rfl).items
  · rintro rfl
    exact (h _ rfl).locations
  · rename_i written
    rintro hnil p d rfl hd
    refine (itemEditor_lawful P).reflects hk.items hd fun r
      (hr : paneStep (itemControllers P) written s p .createButtonTap = .ok r) => ?_
    exact (huser ⟨.items .createButtonTap, written⟩ _ hnil
      (map_ok_iff.mpr ⟨r, hr, rfl⟩) rfl).items
  · rename_i written
    rintro hnil p d rfl hd
    refine (locationEditor_lawful P).reflects hk.locations hd fun r
      (hr : paneStep (locationControllers P) written s p .createButtonTap = .ok r) => ?_
    exact (huser ⟨.locations .createButtonTap, written⟩ _ hnil
      (map_ok_iff.mpr ⟨r, hr, rfl⟩) rfl).locations
  · trivial

end Steps

/-- Every item and every location that was reported as created or updated, and not deleted since,
is in its array as it was entered, in every state of a session: this holds if and only if no
completion discards such a record and every update that passes its checks reflects them. -/
theorem run_changesKept_iff (P : Platform) (db : Database) (actions : List Action) :
    ((Session.step P).withHistory (recordChanges P)).Always ChangesKept
        (launch db, ⟨[], []⟩) actions ↔
      ((Session.step P).withHistory (recordChanges P)).Meets (Reflects P)
        (launch db, ⟨[], []⟩) actions := by
  have hlaunch : ChangesListed (launch db, ⟨[], []⟩) :=
    ⟨⟨fun _ hx => absurd hx List.not_mem_nil, fun _ hx => absurd hx List.not_mem_nil⟩,
      fun _ hp => (nomatch hp), fun _ hp => (nomatch hp)⟩
  exact Machine.always_iff_meets_of_invariant (fun _ => ChangesListed.toChangesKept)
    (step_preserves_changesListed P) (fun _ _ hk => reflects_of_changesKept hk.toChangesKept)
    hlaunch

namespace Sample

def desk : Item := ⟨none, 7, "Desk", "", 4, 5⟩

def createDesk : List Action :=
  [.user ⟨.openItems, true⟩, .user ⟨.items (.addTapped 0), true⟩,
    .user ⟨.items (.edit (.type .tfItemId "7")), true⟩,
    .user ⟨.items (.edit (.type .tfItemName "Desk")), true⟩,
    .user ⟨.items (.edit (.type .tfItemWeight "4")), true⟩,
    .user ⟨.items (.edit (.type .tfItemValue "5")), true⟩,
    .user ⟨.items .createButtonTap, true⟩]

/-- The items come after the desk was created. -/
def lateItems : List Action :=
  List.replicate 4 statement ++ createDesk ++ [.itemsCompletion [TableApp.Sample.lamp]]

def earlyItems : List Action :=
  statement :: .itemsCompletion [TableApp.Sample.lamp] :: statement :: statement :: statement ::
    createDesk

end Sample

/-- The user was told that the desk was created, and it is gone. -/
theorem run_lateItems :
    ∃ st c, ((Session.step Platform.ascii).withHistory (recordChanges Platform.ascii)).run
        (launch emptyDatabase, ⟨[], []⟩) Sample.lateItems = .ok (st, c) ∧
      st.app.alerts = [⟨"Success", "Item created successfully"⟩] ∧ c.items = [Sample.desk] ∧
      ¬ ∀ x ∈ c.items, x ∈ st.app.store.items :=
  ⟨_, _, rfl, rfl, rfl, by decide⟩

theorem Sample.earlyItems_meets :
    ((Session.step Platform.ascii).withHistory (recordChanges Platform.ascii)).Meets
      (Reflects Platform.ascii) (launch emptyDatabase, ⟨[], []⟩) Sample.earlyItems := by
  refine .cons trivial rfl (.cons (fun _ x hx => absurd hx List.not_mem_nil) rfl ?_)
  refine .cons trivial rfl (.cons trivial rfl (.cons trivial rfl ?_))
  refine .cons trivial rfl (.cons trivial rfl (.cons trivial rfl (.cons trivial rfl ?_)))
  refine .cons trivial rfl (.cons trivial rfl (.cons ?_ rfl trivial))
  rintro - p d hp hd row old new - hupdate
  cases hp
  cases hd
  rcases hupdate with _ | ⟨_, _, _, hmode⟩
  cases hmode

theorem run_changesKept_iff_earlyItems :
    ∃ st c, ((Session.step Platform.ascii).withHistory (recordChanges Platform.ascii)).run
        (launch emptyDatabase, ⟨[], []⟩) Sample.earlyItems = .ok (st, c) ∧
      c.items = [Sample.desk] ∧
      ((Session.step Platform.ascii).withHistory (recordChanges Platform.ascii)).Always
        ChangesKept (launch emptyDatabase, ⟨[], []⟩) Sample.earlyItems :=
  ⟨_, _, rfl, rfl, (run_changesKept_iff Platform.ascii emptyDatabase Sample.earlyItems).mpr
    Sample.earlyItems_meets⟩

end Info6350.Assignment10
