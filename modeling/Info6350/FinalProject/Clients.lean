import Info6350.FinalProject.BlankTitles
import Info6350.FinalProject.SwipeDelete
import Mathlib.Logic.Function.Basic

/-! # The apps and the two collections

Any number of apps share `posts` and `users`.  A query is answered with the documents of some
moment, a write that was sent is executed or refused later, and an app whose closure traps is
launched again.
-/

namespace Info6350.FinalProject
open Library Swift Firestore

/-- What a query is answered with: an error, no snapshot, or the documents as they were so many
writes ago. -/
inductive Answer where
  | error
  | noDocuments
  | documents (age : ℕ)

/-- The answer, where `states` are the states of the collection with the last one first. -/
def Answer.result (q : Query) (states : List Collection) : Answer → QueryResult
  | error => .error
  | noDocuments => .noDocuments
  | documents age => match states[age]? with
    | some c => .documents (q.getDocuments c)
    | none => .error

/-- The posts that `fetchData` decodes, unless it returns. -/
def Answer.posts (user : Option String) (states : List Collection) : Answer → Option (List Post)
  | documents age => states[age]?.map (fetchData user)
  | _ => none

/-! ## `UserPostsTableViewController` -/

/-- The list, and the users that its queries in flight ask for. -/
structure UserPostsTableViewController where
  list : ListState
  fetches : List (Option String)

namespace UserPostsTableViewController

def initial : UserPostsTableViewController := ⟨⟨[], []⟩, []⟩

/-- A handler of the list, and the deletions that it sends. -/
def handle (e : ListEvent) (l : UserPostsTableViewController) :
    Except Trap (UserPostsTableViewController × List PostWrite) := do
  let list ← listStep l.list e
  let sent := list.deletions.drop l.list.deletions.length
  return ({ l with list := list }, sent.map fun deletion => .delete deletion.documentID)

def viewDidAppear (user : Option String) (l : UserPostsTableViewController) :
    UserPostsTableViewController :=
  { l with fetches := l.fetches ++ [user] }

def fetched (posts : List Collection) (request : ℕ) (answer : Answer)
    (l : UserPostsTableViewController) :
    Except Trap (UserPostsTableViewController × List PostWrite) :=
  match l.fetches[request]? with
  | some user => handle (.fetched (answer.posts user posts))
      { l with fetches := l.fetches.eraseIdx request }
  | none => .ok (l, [])

/-- The `post` that `prepare(for:sender:)` hands to the next screen. -/
def prepare (identifier : String) (indexPathForSelectedRow : Option ℕ)
    (l : UserPostsTableViewController) : Except Trap (Option Post) :=
  if identifier = "viewupdatepost" then
    (subscript l.list.posts (indexPathForSelectedRow.getD 0)).map some
  else .ok none

end UserPostsTableViewController

/-! ## One app -/

/-- The user, and the lists and the screens that were opened.  They may be closed before what they
sent is completed. -/
structure Client where
  currentUser : Option String
  lists : List UserPostsTableViewController
  screens : List PostCRUViewController

/-- The authentication changes the user, the app is quit, a list is opened after signing in, or one
of the lists and screens handles an event. -/
inductive ClientEvent where
  | authenticate (user : Option String)
  | quit
  | openList
  | viewDidAppear (list : ℕ)
  | fetched (list request : ℕ) (answer : Answer)
  | commit (list row : ℕ)
  | deleted (list request : ℕ) (err : Bool)
  | prepare (list : ℕ) (identifier : String) (indexPathForSelectedRow : Option ℕ)
      (descriptionTf : String)
  | enter (screen : ℕ) (titleTf descriptionTf : String)
  | doAction (screen : ℕ)
  | queried (screen i : ℕ) (answer : Answer) (documentID : Option String)
  | updated (screen : ℕ) (failed : Bool)

namespace Client

/-- The authentication keeps its user when the app is launched again. -/
def launch (user : Option String) : Client := ⟨user, [], []⟩

def onList (c : Client) (list : ℕ) (handler : UserPostsTableViewController →
      Except Trap (UserPostsTableViewController × List PostWrite)) :
    Except Trap (Client × List PostWrite) :=
  match c.lists[list]? with
  | some l => (handler l).map fun r => ({ c with lists := c.lists.set list r.1 }, r.2)
  | none => .ok (c, [])

def onScreen (c : Client) (screen : ℕ) (e : PostEvent) :
    Except Trap (Client × List PostWrite) :=
  match c.screens[screen]? with
  | some s => (PostCRUViewController.step { s with writes := [] } e).map fun s =>
      ({ c with screens := c.screens.set screen s }, s.writes)
  | none => .ok (c, [])

def performSegue (c : Client) (list : ℕ) (identifier : String)
    (indexPathForSelectedRow : Option ℕ) (descriptionTf : String) : Except Trap Client :=
  match c.lists[list]? with
  | some l => (l.prepare identifier indexPathForSelectedRow).map fun post =>
      { c with screens := c.screens ++ [.initial post c.currentUser descriptionTf] }
  | none => .ok c

def queryResult (c : Client) (users : List Collection) (screen i : ℕ) (answer : Answer) :
    QueryResult :=
  match c.screens[screen]?.bind fun s => s.queries[i]? with
  | some query => answer.result query.users users
  | none => .error

/-- The handlers of an app, where `posts` and `users` are the states of the collections. -/
def step (posts users : List Collection) (c : Client) :
    ClientEvent → Except Trap (Client × List PostWrite)
  | .authenticate user => .ok ({ c with currentUser := user }, [])
  | .quit => .ok (launch c.currentUser, [])
  | .openList => .ok ({ c with lists := c.lists ++ [.initial] }, [])
  | .viewDidAppear list => c.onList list fun l => .ok (l.viewDidAppear c.currentUser, [])
  | .fetched list request answer => c.onList list fun l => l.fetched posts request answer
  | .commit list row => c.onList list fun l => l.handle (.commit row)
  | .deleted list request err => c.onList list fun l => l.handle (.deleted request err)
  | .prepare list identifier row descriptionTf =>
    (c.performSegue list identifier row descriptionTf).map fun c => (c, [])
  | .enter screen titleTf descriptionTf => c.onScreen screen (.enter titleTf descriptionTf)
  | .doAction screen => c.onScreen screen .doAction
  | .queried screen i answer documentID =>
    c.onScreen screen (.queried i (c.queryResult users screen i answer) documentID)
  | .updated screen failed => c.onScreen screen (.updated failed)

/-- An app that traps sends nothing and is launched again. -/
def next (posts users : List Collection) (c : Client) (e : ClientEvent) :
    Client × List PostWrite :=
  match c.step posts users e with
  | .ok r => r
  | .error _ => (launch c.currentUser, [])

end Client

/-! ## All apps -/

/-- The apps, the collections, the states that the collections had before, the last one first, and
the writes in flight. -/
structure Service where
  clients : ℕ → Client
  posts : Collection
  users : Collection
  earlierPosts : List Collection
  earlierUsers : List Collection
  writes : List PostWrite

/-- An app handles an event, a write in flight is executed or refused, or a user registers. -/
inductive ServiceEvent where
  | client (i : ℕ) (e : ClientEvent)
  | written (i : ℕ) (now : ℤ)
  | refused (i : ℕ)
  | registered (now : ℤ) (registration : Registration)

namespace Service

def launch (currentUser : ℕ → Option String) (posts users : Collection) : Service :=
  ⟨fun i => .launch (currentUser i), posts, users, [], [], []⟩

def allPosts (st : Service) : List Collection := st.posts :: st.earlierPosts

def allUsers (st : Service) : List Collection := st.users :: st.earlierUsers

def step : Machine Service ServiceEvent Empty := fun st e =>
  match e with
  | .client i e =>
    let r := (st.clients i).next st.allPosts st.allUsers e
    .ok { st with clients := Function.update st.clients i r.1, writes := st.writes ++ r.2 }
  | .written i now => match st.writes[i]? with
    | some write => do
      let posts ← postsStep st.posts (now, write)
      return { st with
        posts := posts, earlierPosts := st.allPosts, writes := st.writes.eraseIdx i }
    | none => .ok st
  | .refused i => .ok { st with writes := st.writes.eraseIdx i }
  | .registered now registration => do
    let users ← registerStep st.users (now, registration)
    return { st with users := users, earlierUsers := st.allUsers }

end Service
end Info6350.FinalProject
