import Info6350.TableApp.App

/-! # The download at launch

Assignment 10 loads nothing from its database.  `viewDidLoad` calls `fetchDataFromAPI`,
which sends two requests and then saves the two arrays.  The completions of the requests
run on another queue, so they come between any two statements and any two user events,
and each assigns its whole array.
-/

namespace Info6350.Assignment10
open Library Swift Logistics TableApp DatabaseManager

inductive Statement where
  | getAllItems
  | getAllLocations
  | saveItems
  | saveLocations
deriving DecidableEq, Repr

def fetchDataFromAPI : List Statement :=
  [.getAllItems, .getAllLocations, .saveItems, .saveLocations]

/-- A launched app: the statements of `fetchDataFromAPI` that remain, and the requests whose
completions have not run. -/
structure Session where
  app : AppState
  remaining : List Statement
  itemsTask : Bool
  locationsTask : Bool

/-- The next statement with the outcomes of its writes, a completion with what the API
returned, or a user event. -/
inductive Action where
  | statement (writtenItem : Item → Bool) (writtenLocation : Location → Bool)
  | itemsCompletion (items : List Item)
  | locationsCompletion (locations : List Location)
  | user (i : Input)

namespace Session

def mapStore (f : Store → Store) (st : Session) : Session :=
  { st with app := { st.app with store := f st.app.store } }

def execute (writtenItem : Item → Bool) (writtenLocation : Location → Bool) :
    Statement → Session → Session
  | .getAllItems, st => { st with itemsTask := true }
  | .getAllLocations, st => { st with locationsTask := true }
  | .saveItems, st => st.mapStore fun s =>
    { s with db := { s.db with item := saveRecords writtenItem s.items s.db.item } }
  | .saveLocations, st => st.mapStore fun s =>
    { s with db := { s.db with location := saveRecords writtenLocation s.locations s.db.location } }

/-- A completion runs once for its request; user events wait for `viewDidLoad` to return. -/
protected def step (P : Platform) : Machine Session Action Trap
  | st, .statement writtenItem writtenLocation => match st.remaining with
    | [] => .ok st
    | statement :: remaining =>
      .ok (execute writtenItem writtenLocation statement { st with remaining := remaining })
  | st, .itemsCompletion items =>
    .ok (if st.itemsTask then { st.mapStore fun s => { s with items := items } with
      itemsTask := false } else st)
  | st, .locationsCompletion locations =>
    .ok (if st.locationsTask then { st.mapStore fun s => { s with locations := locations } with
      locationsTask := false } else st)
  | st, .user i => match st.remaining with
    | [] => (TableApp.step P .assignment10 st.app i).map fun app => { st with app := app }
    | _ :: _ => .ok st

/-- The arrays of a new `ViewController` are empty, whatever the database holds. -/
def launch (db : Database) : Session where
  app := AppState.atMenu ⟨[], [], [], db⟩
  remaining := fetchDataFromAPI
  itemsTask := false
  locationsTask := false

/-- `fetchDataFromAPI` has returned and both completions have run. -/
def Finished (st : Session) : Prop :=
  st.remaining = [] ∧ st.itemsTask = false ∧ st.locationsTask = false

end Session

def Sample.statement : Action := .statement (fun _ => true) (fun _ => true)

end Info6350.Assignment10
