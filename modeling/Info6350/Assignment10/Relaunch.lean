import Info6350.Assignment10.UserChanges

/-! # Relaunches

A relaunch keeps the database and nothing else.  Items and locations are downloaded again,
but the orders are never fetched, so the order list of the new session is empty, and the
check for a duplicate id, which reads the array, accepts the ids of the stored orders.
-/

namespace Info6350.Assignment10
open Library Swift Logistics TableApp Session LogisticOrderDetailsViewController

inductive SessionEvent where
  | act (a : Action)
  | relaunch

/-- Sessions one after another on one database. -/
def sessions (P : Platform) : Machine Session SessionEvent Trap
  | st, .act a => Session.step P st a
  | st, .relaunch => .ok (launch st.app.store.db)

/-- The database accepts every write. -/
def SessionEvent.Accepted : SessionEvent → Prop
  | .act (.statement writtenItem writtenLocation) =>
    writtenItem = (fun _ => true) ∧ writtenLocation = fun _ => true
  | .act (.user i) => i.written = true
  | _ => True

def createdOrder (a : Alert) (d : OrderDetails) : Option ℤ :=
  if a = ⟨"Success", "Order created successfully"⟩ then (d.form .tfOrderId).int? else none

/-- The history variable: the ids of the orders that were created and not deleted since. -/
def recordOrders (P : Platform) (st : Session) (e : SessionEvent) (_ : Session)
    (live : List ℤ) : List ℤ :=
  match e, st.remaining, st.app.screen with
  | .act (.user ⟨.orders e, written⟩), [], .orders p =>
    userChanges (orderControllers P .assignment10) id createdOrder written st.app.store p e live
  | _, _, _ => live

/-- The live orders are in the list that the order screen shows, and a create with the id of a
stored order is refused. -/
structure OrdersSurvive (st : Session × List ℤ) : Prop where
  shown : ∀ id ∈ st.2, id ∈ keys st.1.app.store.logisticsOrder
  refused : ∀ (d : OrderDetails) id written, (d.form .tfOrderId).int? = some id →
    id ∈ keys st.1.app.store.db.logisticsorder.rows →
    createOrder .assignment10 written d st.1.app.store =
      .error (.alert ⟨"Error", "Order id already exists"⟩)

def NoOrderAtRelaunch (st : Session × List ℤ) (e : SessionEvent) : Prop :=
  e = .relaunch → st.1.app.store.db.logisticsorder.rows = []

def OrdersInStep (s : Store) : Prop := InStep s.logisticsOrder s.db.logisticsorder

/-- Array, table and history agree, and the order list on screen is coherent. -/
structure OrdersKept (P : Platform) (st : Session × List ℤ) : Prop where
  inStep : OrdersInStep st.1.app.store
  pane : ∀ p, st.1.app.screen = .orders p →
    p.Coherent (orderControllers P .assignment10) AnyDetails st.1.app.store
  live : ∀ id, id ∈ st.2 ↔ id ∈ keys st.1.app.store.logisticsOrder

theorem createOrder_refused {edition : Edition} {written : Bool} {d : OrderDetails} {s : Store}
    {id : ℤ} (hid : (d.form .tfOrderId).int? = some id) (hmem : id ∈ keys s.logisticsOrder) :
    createOrder edition written d s = .error (.alert ⟨"Error", "Order id already exists"⟩) := by
  have hindex := firstIndex_isSome_iff.mpr hmem
  simp [createOrder, intOf, hid, refuseIf, alertIf, hindex, Bind.bind, Except.bind]

theorem OrdersKept.survive {P : Platform} {st : Session × List ℤ} (h : OrdersKept P st) :
    OrdersSurvive st :=
  ⟨fun id hid => (h.live id).mp hid,
    fun _ _ _ hid hmem => createOrder_refused hid (h.inStep.mem_keys_iff.mpr hmem)⟩

section Pane
variable {P : Platform} {s : Store} {p : Pane LogisticsOrder OrderDetails}
  {e : PaneEvent OrderEdit} {r : PaneResult LogisticsOrder OrderDetails} {live : List ℤ}

theorem orderPane_kept (hs : OrdersInStep s)
    (hp : p.Coherent (orderControllers P .assignment10) AnyDetails s)
    (h : paneStep (orderControllers P .assignment10) true s p e = .ok r) :
    OrdersInStep r.store ∧ r.pane.Coherent (orderControllers P .assignment10) AnyDetails r.store := by
  have hkeep := orderControllers_keeps_legal P (W := fun w => w = true) (S := OrdersInStep)
    .assignment10 fun {w s e} hw hs he => by
      subst hw
      exact Edit.inStep_onTable hs he
  exact hkeep.paneStep hs hp rfl (fun _ _ _ _ => trivial) h

theorem orderPane_live (hs : OrdersInStep s)
    (hp : p.Coherent (orderControllers P .assignment10) AnyDetails s)
    (hlive : ∀ id, id ∈ live ↔ id ∈ keys s.logisticsOrder)
    (h : paneStep (orderControllers P .assignment10) true s p e = .ok r) (k : ℤ) :
    k ∈ userChanges (orderControllers P .assignment10) id createdOrder true s p e live ↔
      k ∈ keys r.store.logisticsOrder := by
  cases paneStep_move h with
  | refuse _ a herror =>
    rw [userChanges_same h (fun d b _ hd hb => ?_) fun _ _ _ => le_rfl]
    · exact hlive k
    · have htitle : a.title = "Error" :=
        refuses_createButtonTapped .assignment10 true d s _ (herror d hd)
      rw [List.mem_singleton.mp hb]
      exact if_neg fun ha => by rw [ha] at htitle; exact absurd htitle (by decide)
  | tap d s' a hd htap =>
    have hbutton : createButtonTapped .assignment10 true d s = .ok (s', a) := htap
    unfold createButtonTapped at hbutton
    split_ifs at hbutton
    · obtain ⟨order, _, hlegal, _, _, _, hid, rfl, rfl⟩ := createOrder_ok hbutton
      rw [userChanges_tap hd htap ((if_pos rfl).trans hid)]
      change _ ↔ k ∈ keys (s.logisticsOrder ++ [order])
      by_cases hk : k = order.id <;> simp [hk, hlive, keys]
    · obtain ⟨row, old, new, _, hold, henters, rfl, rfl⟩ := updateOrder_ok hbutton
      rw [userChanges_same h (fun d' b _ hd' hb => ?_) fun _ he => by cases he]
      · change k ∈ live ↔ k ∈ keys ((Edit.update row new).onList s.logisticsOrder)
        rw [Edit.keys_update ⟨old, hold, henters.id.symm⟩]
        exact hlive k
      · rw [List.mem_singleton.mp hb]
        exact if_neg (by decide)
  | delete row s' rest hd hactive hrow hdelete =>
    have hfiltered : p.filteredResults = s.logisticsOrder := hp.filteredResults hd hactive
    have hcommit : LogisticOrderTableViewController.commitDelete true s.logisticsOrder row s =
        .ok (s', rest) := hfiltered ▸ hdelete
    obtain ⟨hlt, rfl, rfl⟩ := LogisticOrderTableViewController.commitDelete_ok hcommit
    have hx : p.filteredResults[row]? = some s.logisticsOrder[row] := by
      rw [hfiltered]
      exact List.getElem?_eq_getElem hlt
    have hlength : ((StoreEdit.orders (.delete row)).apply true s).logisticsOrder.length <
        p.filteredResults.length := by
      change (s.logisticsOrder.eraseIdx row).length < _
      rw [hfiltered, List.length_eraseIdx_of_lt hlt]
      omega
    rw [userChanges_delete hd hactive hx hdelete hlength]
    change _ ↔ k ∈ keys ((Edit.delete row).onList s.logisticsOrder)
    rw [Edit.mem_keys_delete hs.distinct (List.getElem?_eq_getElem hlt)]
    simp [hlive]
  | search text hd =>
    rw [userChanges_same h (fun _ _ he => by cases he) fun _ he => by cases he]
    exact hlive k
  | cancel hd =>
    rw [userChanges_same h (fun _ _ he => by cases he) fun _ he => by cases he]
    exact hlive k
  | back d hd =>
    rw [userChanges_same h (fun _ _ he => by cases he) fun _ he => by cases he]
    exact hlive k
  | _ =>
    rw [userChanges_same h (fun _ a _ _ ha => absurd ha List.not_mem_nil) fun _ _ _ => le_rfl]
    exact hlive k

end Pane

section Steps
variable {P : Platform} {live : List ℤ}

theorem recordOrders_same {st st' : Session} {e : SessionEvent}
    (h : ∀ i, e = .act (.user i) → st.remaining = [] →
      ∀ p x, st.app.screen = .orders p → i.event ≠ .orders x) :
    recordOrders P st e st' live = live := by
  unfold recordOrders
  split
  · rename_i hremaining hscreen
    exact absurd rfl (h _ rfl hremaining _ _ hscreen)
  · rfl

theorem OrdersKept.congr {st st' : Session} (h : OrdersKept P (st, live))
    (horders : st.app.store.SameOrders st'.app.store)
    (hscreen : ∀ p, st'.app.screen = .orders p → st.app.screen = .orders p) :
    OrdersKept P (st', live) := by
  obtain ⟨hinStep, hpane, hlive⟩ := h
  obtain ⟨harray, htable⟩ := horders
  refine ⟨?_, fun p hp => ?_, fun id => ?_⟩
  · unfold OrdersInStep
    rw [harray, htable]
    exact hinStep
  · exact (hpane p (hscreen p hp)).congr harray
  · rw [harray]
    exact hlive id

theorem ordersKept_user {app app' : AppState} {i : Input} {itemsTask locationsTask : Bool}
    (hk : OrdersKept P (⟨app, [], itemsTask, locationsTask⟩, live)) (hw : i.written = true)
    (h : TableApp.step P .assignment10 app i = .ok app') :
    OrdersKept P (⟨app', [], itemsTask, locationsTask⟩,
      recordOrders P ⟨app, [], itemsTask, locationsTask⟩ (.act (.user i))
        ⟨app', [], itemsTask, locationsTask⟩ live) := by
  obtain ⟨s, screen, alerts⟩ := app
  obtain ⟨e, written⟩ := i
  obtain rfl : written = true := hw
  cases step_move h with
  | openItems => exact hk.congr ⟨rfl, rfl⟩ fun p hp => (nomatch hp)
  | openLocations => exact hk.congr ⟨rfl, rfl⟩ fun p hp => (nomatch hp)
  | openOrders =>
    exact ⟨hk.inStep, fun p hp => Screen.orders.inj hp ▸ Pane.coherent_opened s, hk.live⟩
  | items p e r hstep => exact hk.congr (itemPane_frame hstep).2 fun p hp => (nomatch hp)
  | locations p e r hstep => exact hk.congr (locationPane_frame hstep).2 fun p hp => (nomatch hp)
  | orders p e r hstep =>
    have hpane := hk.pane p rfl
    obtain ⟨hinStep, hcoherent⟩ := orderPane_kept hk.inStep hpane hstep
    exact ⟨hinStep, fun q hq => Screen.orders.inj hq ▸ hcoherent,
      fun id => orderPane_live hk.inStep hpane hk.live hstep id⟩
  | leave => exact hk.congr ⟨rfl, rfl⟩ fun p hp => (nomatch hp)
  | stay _ _ _ _ ho =>
    rw [recordOrders_same fun i hi _ => by cases hi; exact ho]
    exact hk

/-- Arrays, tables and history stay equal as long as a relaunch finds no stored order. -/
theorem sessions_preserves_ordersKept (P : Platform) :
    ((sessions P).withHistory (recordOrders P)).Preserves
      (fun st e => e.Accepted ∧ NoOrderAtRelaunch st e) (OrdersKept P) := by
  rintro ⟨⟨app, remaining, itemsTask, locationsTask⟩, live⟩ e ⟨st', live'⟩ hk ⟨hw, hr⟩ h
  obtain ⟨hstep, hlive⟩ := ((sessions P).withHistory_ok_iff _).mp h
  dsimp only at hstep hlive
  subst hlive
  cases e with
  | relaunch =>
    obtain rfl := Except.ok.inj hstep
    have hrows : app.store.db.logisticsorder.rows = [] := hr rfl
    have hnone : ∀ id, id ∉ live := by
      intro id hid
      have hmem := hk.inStep.mem_keys_iff.mp ((hk.live id).mp hid)
      rw [hrows] at hmem
      exact absurd hmem List.not_mem_nil
    refine ⟨⟨Distinct.nil, fun x => ?_⟩, fun p hp => (nomatch hp), fun id => ?_⟩
    · change x ∈ [] ↔ x ∈ app.store.db.logisticsorder.rows
      rw [hrows]
    · exact iff_of_false (hnone id) List.not_mem_nil
  | act a =>
    cases a with
    | statement writtenItem writtenLocation =>
      cases remaining with
      | nil =>
        obtain rfl := Except.ok.inj hstep
        exact hk
      | cons statement remaining =>
        obtain rfl := Except.ok.inj hstep
        cases statement <;> exact hk.congr ⟨rfl, rfl⟩ fun p hp => hp
    | itemsCompletion items =>
      obtain rfl := Except.ok.inj hstep
      cases itemsTask with
      | false => exact hk
      | true => exact hk.congr ⟨rfl, rfl⟩ fun p hp => hp
    | locationsCompletion locations =>
      obtain rfl := Except.ok.inj hstep
      cases locationsTask with
      | false => exact hk
      | true => exact hk.congr ⟨rfl, rfl⟩ fun p hp => hp
    | user i =>
      cases remaining with
      | nil =>
        obtain ⟨app', happ, rfl⟩ := map_ok_iff.mp hstep
        exact ordersKept_user hk hw happ
      | cons statement remaining =>
        obtain rfl := Except.ok.inj hstep
        rw [recordOrders_same fun _ _ hnil => absurd hnil (List.cons_ne_nil _ _)]
        exact hk

theorem noOrderAtRelaunch_of_survive {st st' : Session × List ℤ} {e : SessionEvent}
    (hk : OrdersKept P st) (h : (sessions P).withHistory (recordOrders P) st e = .ok st')
    (hst' : OrdersSurvive st') : NoOrderAtRelaunch st e := by
  rintro rfl
  obtain ⟨hstep, hlive⟩ := ((sessions P).withHistory_ok_iff _).mp h
  obtain ⟨st', live'⟩ := st'
  obtain rfl := Except.ok.inj hstep
  dsimp only at hlive
  subst hlive
  refine List.eq_nil_iff_forall_not_mem.mpr fun o ho => ?_
  have hmem := (hk.live o.id).mpr (key_mem_keys ((hk.inStep.mem_iff o).mpr ho))
  exact absurd (hst'.shown o.id hmem) List.not_mem_nil

end Steps

/-- From the first launch, with all writes accepted: the orders that were created and not deleted
are shown, and creates with their ids refused, in all states of a run, if and only if every
relaunch of the run finds the order table empty. -/
theorem run_ordersSurvive_iff (P : Platform) {events : List SessionEvent}
    (hevents : ∀ e ∈ events, e.Accepted) {st : Session × List ℤ}
    (h : ((sessions P).withHistory (recordOrders P)).run (launch emptyDatabase, []) events =
      .ok st) :
    ((sessions P).withHistory (recordOrders P)).Always OrdersSurvive
        (launch emptyDatabase, []) events ↔
      ((sessions P).withHistory (recordOrders P)).Meets NoOrderAtRelaunch
        (launch emptyDatabase, []) events := by
  have hlaunch : OrdersKept P (launch emptyDatabase, []) :=
    ⟨InStep.fetchAll .empty, fun p hp => (nomatch hp), fun _ => Iff.rfl⟩
  exact Machine.always_iff_meets (fun _ => OrdersKept.survive) (sessions_preserves_ordersKept P)
    (fun _ _ _ hk _ hstep hst' => noOrderAtRelaunch_of_survive hk hstep hst') hlaunch hevents h

namespace Sample

/-- A user event with its write accepted. -/
def user (e : Event) : SessionEvent := .act (.user ⟨e, true⟩)

def download : List SessionEvent :=
  List.replicate 4 (.act statement) ++ [.act (.itemsCompletion [TableApp.Sample.lamp]),
    .act (.locationsCompletion [TableApp.Sample.depot, TableApp.Sample.shop])]

def createOrder (lamps : ℕ) : List SessionEvent :=
  [user .openOrders, user (.orders (.addTapped 0)),
    user (.orders (.edit (.type .tfOrderId "5"))),
    user (.orders (.edit (.cellForRowAt none 0)))] ++
    List.replicate lamps (user (.orders (.edit (.btnIncreaseTap 0)))) ++
    [user (.orders .createButtonTap)]

def deleteOrder : List SessionEvent :=
  [user (.orders .back), user (.orders (.swipeDelete 0))]

/-- A session that creates and deletes an order, and a relaunch. -/
def cleanRelaunch : List SessionEvent := download ++ createOrder 1 ++ deleteOrder ++ [.relaunch]

end Sample

/-- After the relaunch the order is not shown, and a second create replaces its row. -/
theorem run_relaunch :
    ∃ st st', ((sessions Platform.ascii).withHistory (recordOrders Platform.ascii)).run
        (launch emptyDatabase, []) (Sample.download ++ Sample.createOrder 1 ++ [.relaunch]) =
          .ok st ∧
      st.2 = [5] ∧ st.1.app.store.logisticsOrder = [] ∧ ¬ OrdersSurvive st ∧
      ((sessions Platform.ascii).withHistory (recordOrders Platform.ascii)).run st
        (Sample.download ++ Sample.createOrder 2) = .ok st' ∧
      (st.1.app.store.db.logisticsorder.rows.map fun o => (o.id, o.cost)) = [(5, 20)] ∧
      (st'.1.app.store.db.logisticsorder.rows.map fun o => (o.id, o.cost)) = [(5, 40)] := by
  refine ⟨_, _, rfl, rfl, rfl, fun h => ?_, rfl, rfl, rfl⟩
  exact absurd (h.shown 5 List.mem_cons_self) List.not_mem_nil

theorem Sample.cleanRelaunch_accepted : ∀ e ∈ Sample.cleanRelaunch, e.Accepted := by
  simp [Sample.cleanRelaunch, Sample.download, Sample.createOrder, Sample.deleteOrder,
    Sample.user, Sample.statement, SessionEvent.Accepted]

theorem run_ordersSurvive_iff_cleanRelaunch :
    ((sessions Platform.ascii).withHistory (recordOrders Platform.ascii)).Always OrdersSurvive
        (launch emptyDatabase, []) Sample.cleanRelaunch ↔
      ((sessions Platform.ascii).withHistory (recordOrders Platform.ascii)).Meets
        NoOrderAtRelaunch (launch emptyDatabase, []) Sample.cleanRelaunch :=
  @run_ordersSurvive_iff Platform.ascii Sample.cleanRelaunch Sample.cleanRelaunch_accepted _ rfl

end Info6350.Assignment10
