import Info6350.FinalProject.UserPosts

/-! # Creating a post

`RegisterBtn` stores a document with the fields of `User`.  To create a post the app looks
for the user's document by a field `uid`, which no such document has, and takes the first
of the documents that it finds.
-/

namespace Info6350.FinalProject
open Library Swift Firestore

/-! ## Registration -/

/-- A registration that the authentication accepted with an id for the user: the entries, and the
id that `addDocument` generated. -/
structure Registration where
  uid : String
  firstNameTf : String
  lastNameTf : String
  emailTf : String
  documentID : String

/-- The `newUser` of `RegisterBtn`. -/
def Registration.newUser (r : Registration) : User where
  id := none
  userId := r.uid
  firstName := textInput r.firstNameTf
  lastName := textInput r.lastNameTf
  email := textInput r.emailTf

/-- The collection `users`, with the server's time at each write. -/
def registerStep : Machine Collection (ℤ × Registration) Empty := fun c r =>
  Collection.step c (r.1, .setData r.2.documentID r.2.newUser.encode)

/-! ## `PostCRUViewController` -/

structure PostForm where
  titleLabel : String
  titleTf : String
  descriptionTf : String

/-- The title that is checked is the label above the text field. -/
def validateFields (form : PostForm) : Option String :=
  if textInput form.titleLabel = "" ∨ textInput form.descriptionTf = "" then
    some "Please enter all details."
  else none

/-- What a tap does: show an error, or present its alert and send an update or a query. -/
inductive Action where
  | showError (message : String)
  | update (write : PostWrite) (alertMessage : String)
  | create (users : Query) (title body : String) (alertMessage : String)

def doAction (post : Option Post) (user : Option String) (form : PostForm) :
    Except Trap Action :=
  match validateFields form with
  | some error => .ok (.showError error)
  | none =>
    let title := textInput form.titleTf
    let body := textInput form.descriptionTf
    match post with
    | some post => do
      let documentID ← unwrap post.id
      return .update (.updateData documentID title body) "Post updated successfully"
    | none => .ok (.create (({} : Query).whereField "uid" (uidValue user)) title body
        "Post created successfully")

/-- The completion of the query: the post that it adds to `posts`. -/
def createCompletion (user : Option String) (title body : String) (documents : List Document) :
    Except Trap Post := do
  let dbUser ← subscript (documents.filterMap User.decode) 0
  let createdById ← unwrap user
  return ⟨none, title, body, createdById, dbUser.firstName ++ " " ++ dbUser.lastName, none⟩

/-- A tap of the signed-in user ends with a post in the user's name. -/
def PostsAs (users : Collection) (r : Registration) (form : PostForm) : Prop :=
  ∃ query title body alertMessage post,
    doAction none (some r.uid) form = .ok (.create query title body alertMessage) ∧
    createCompletion (some r.uid) title body (query.getDocuments users) = .ok post ∧
    post.createdById = r.uid ∧
    post.createdByName = r.newUser.firstName ++ " " ++ r.newUser.lastName

/-! ## No user finds a document -/

theorem registerStep_preserves_noUid : registerStep.Preserves Machine.AnyStep
    fun c => ∀ d ∈ c.documents.rows, d.field "uid" = none := by
  intro c r c' hc _ h
  refine Collection.step_preserves_documents
    (W := fun w => ∃ (documentID : String) (u : User), w = .setData documentID u.encode) ?_ ?_
    c _ c' hc ⟨r.2.documentID, r.2.newUser, rfl⟩ h
  · rintro now documentID data d ⟨_, u, hu⟩ hd
    obtain ⟨rfl, rfl⟩ := Write.setData.inj hu
    simp [Document.field, hd, User.encode, Data.resolve, List.lookup_cons]
  · rintro now documentID data old d ⟨_, u, hu⟩
    cases hu

/-- The query of a user returns nothing, and the first of its documents is out of range. -/
theorem createCompletion_traps {users : Collection}
    (hu : ∀ d ∈ users.documents.rows, d.field "uid" = none) (user : Option String)
    (title body : String) : createCompletion user title body
      ((({} : Query).whereField "uid" (uidValue user)).getDocuments users) =
        .error .indexOutOfRange := by
  rw [Query.getDocuments_eq_nil (f := ("uid", uidValue user)) List.mem_cons_self hu]
  rfl

/-- No registered user can post: the create path of every tap that passes the check traps. -/
theorem run_cannotPost {registrations : List (ℤ × Registration)} {users : Collection}
    (h : registerStep.run .empty registrations = .ok users) : ∀ r ∈ registrations,
    ∀ form, validateFields form = none → ¬ PostsAs users r.2 form ∧
      ∃ query title body alertMessage,
        doAction none (some r.2.uid) form = .ok (.create query title body alertMessage) ∧
        createCompletion (some r.2.uid) title body (query.getDocuments users) =
          .error .indexOutOfRange := by
  intro r _ form hform
  have hu := registerStep_preserves_noUid.run_any (s := Collection.empty)
    (fun d hd => absurd hd List.not_mem_nil) h
  have haction : doAction none (some r.2.uid) form = .ok (.create
      (({} : Query).whereField "uid" (uidValue (some r.2.uid))) (textInput form.titleTf)
      (textInput form.descriptionTf) "Post created successfully") := by
    rw [doAction, hform]
  refine ⟨?_, _, _, _, _, haction, createCompletion_traps hu _ _ _⟩
  rintro ⟨query, title, body, alertMessage, post, hcreate, hpost, -⟩
  obtain ⟨rfl, rfl, rfl, -⟩ := Action.create.inj (Except.ok.inj (haction.symm.trans hcreate))
  rw [createCompletion_traps hu] at hpost
  cases hpost

def Sample.raj : Registration := ⟨"u1", "Raj", "Shah", "raj@example.com", "d1"⟩

def Sample.postForm : PostForm := ⟨"Title", "Hello", "First"⟩

/-- Raj's document is stored, and his first post ends the app. -/
theorem run_rajCannotPost :
    ∃ users, registerStep.run .empty [(1, Sample.raj)] = .ok users ∧
      users.documents.rows.map User.decode =
        [some ⟨some "d1", "u1", "Raj", "Shah", "raj@example.com"⟩] ∧
      createCompletion (some "u1") "Hello" "First"
        ((({} : Query).whereField "uid" (.string "u1")).getDocuments users) =
          .error .indexOutOfRange ∧
      ¬ PostsAs users Sample.raj Sample.postForm := by
  refine ⟨_, rfl, rfl, rfl, ?_⟩
  rintro ⟨query, title, body, alertMessage, post, hcreate, hpost, -⟩
  cases hcreate
  cases hpost

theorem run_cannotPost_raj :
    ∃ users, registerStep.run .empty [(1, Sample.raj)] = .ok users ∧
      ¬ PostsAs users Sample.raj Sample.postForm :=
  ⟨_, rfl, (@run_cannotPost [(1, Sample.raj)] _ rfl _ List.mem_cons_self Sample.postForm rfl).1⟩

end Info6350.FinalProject
