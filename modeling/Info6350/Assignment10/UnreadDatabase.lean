import Info6350.Assignment10.Relaunch
import Info6350.TableApp.UnreadDatabase

/-! # The database of Assignment 10 is never read

Within a session the screens work on the arrays, and a launch fills the arrays from the API.
So nothing that the user sees depends on the database, over any number of relaunches.
-/

namespace Info6350.Assignment10
open Library Swift Logistics TableApp Session

/-- Two sessions that the user cannot tell apart. -/
structure Session.Alike (st st' : Session) : Prop where
  app : st.app.Alike st'.app
  remaining : st.remaining = st'.remaining
  itemsTask : st.itemsTask = st'.itemsTask
  locationsTask : st.locationsTask = st'.locationsTask

theorem Session.alike_launch (db db' : Database) : (launch db).Alike (launch db') :=
  ⟨⟨⟨rfl, rfl, rfl⟩, rfl, rfl⟩, rfl, rfl, rfl⟩

/-- The same event, whatever the databases answer to its writes. -/
inductive SessionEvent.Same : SessionEvent → SessionEvent → Prop
  | statement {writtenItem writtenItem' : Item → Bool} {writtenLocation writtenLocation' :
      Location → Bool} : Same (.act (.statement writtenItem writtenLocation))
        (.act (.statement writtenItem' writtenLocation'))
  | itemsCompletion (items : List Item) :
      Same (.act (.itemsCompletion items)) (.act (.itemsCompletion items))
  | locationsCompletion (locations : List Location) :
      Same (.act (.locationsCompletion locations)) (.act (.locationsCompletion locations))
  | user {i j : Input} (h : i.event = j.event) : Same (.act (.user i)) (.act (.user j))
  | relaunch : Same .relaunch .relaunch

theorem Session.Alike.execute {st st' : Session} (h : st.Alike st')
    {writtenItem writtenItem' : Item → Bool} {writtenLocation writtenLocation' : Location → Bool}
    (statement : Statement) :
    (Session.execute writtenItem writtenLocation statement st).Alike
      (Session.execute writtenItem' writtenLocation' statement st') := by
  obtain ⟨hitems, hlocations, horders⟩ := h.app.store
  cases statement with
  | getAllItems => exact ⟨h.app, h.remaining, rfl, h.locationsTask⟩
  | getAllLocations => exact ⟨h.app, h.remaining, h.itemsTask, rfl⟩
  | _ =>
    exact ⟨⟨⟨hitems, hlocations, horders⟩, h.app.screen, h.app.alerts⟩, h.remaining, h.itemsTask,
      h.locationsTask⟩

theorem sessions_lockstep (P : Platform) :
    (sessions P).Lockstep (sessions P) Session.Alike SessionEvent.Same := by
  rintro ⟨app, remaining, itemsTask, locationsTask⟩ ⟨app', _, _, _⟩ e e' ⟨happ, rfl, rfl, rfl⟩ he
  dsimp only at happ
  have hst : Session.Alike ⟨app, remaining, itemsTask, locationsTask⟩
      ⟨app', remaining, itemsTask, locationsTask⟩ := ⟨happ, rfl, rfl, rfl⟩
  obtain ⟨hitems, hlocations, horders⟩ := happ.store
  cases he with
  | statement =>
    cases remaining with
    | nil => exact .ok hst
    | cons statement remaining =>
      exact .ok (Session.Alike.execute (⟨happ, rfl, rfl, rfl⟩ : Session.Alike
        ⟨app, remaining, itemsTask, locationsTask⟩ ⟨app', remaining, itemsTask, locationsTask⟩)
        statement)
  | itemsCompletion items =>
    cases itemsTask with
    | false => exact .ok hst
    | true => exact .ok ⟨⟨⟨rfl, hlocations, horders⟩, happ.screen, happ.alerts⟩, rfl, rfl, rfl⟩
  | locationsCompletion locations =>
    cases locationsTask with
    | false => exact .ok hst
    | true => exact .ok ⟨⟨⟨hitems, rfl, horders⟩, happ.screen, happ.alerts⟩, rfl, rfl, rfl⟩
  | user hevent =>
    cases remaining with
    | nil =>
      exact (step_lockstep P .assignment10 app app' _ _ happ hevent).map
        fun _ _ h => ⟨h, rfl, rfl, rfl⟩
    | cons statement remaining => exact .ok hst
  | relaunch => exact .ok (alike_launch _ _)

/-- Whatever the databases hold at the first launch and refuse later, the same events show the
same, over all relaunches, and stop alike. -/
theorem sessions_ignoreDatabase (P : Platform) (db db' : Database) {events events' : List SessionEvent}
    (hevents : List.Forall₂ SessionEvent.Same events events') :
    Matched Session.Alike ((sessions P).run (launch db) events)
      ((sessions P).run (launch db') events') :=
  (sessions_lockstep P).run (alike_launch db db') hevents

def SessionEvent.refused : SessionEvent → SessionEvent
  | .act (.statement _ _) => .act (.statement (fun _ => false) fun _ => false)
  | .act (.user i) => .act (.user { i with written := false })
  | e => e

theorem SessionEvent.same_refused (e : SessionEvent) : Same e e.refused := by
  rcases e with (_ | items | locations | i) | _
  · exact .statement
  · exact .itemsCompletion items
  · exact .locationsCompletion locations
  · exact .user rfl
  · exact .relaunch

/-- A session that creates and deletes an order, and a relaunch, with and without the writes. -/
theorem sessions_ignoreDatabase_cleanRelaunch :
    Matched Session.Alike ((sessions Platform.ascii).run (launch TableApp.Sample.database)
        Sample.cleanRelaunch)
      ((sessions Platform.ascii).run (launch emptyDatabase)
        (Sample.cleanRelaunch.map SessionEvent.refused)) :=
  sessions_ignoreDatabase Platform.ascii _ _ (List.forall₂_map_right_iff.mpr
    (List.forall₂_same.mpr fun e _ => e.same_refused))

end Info6350.Assignment10
