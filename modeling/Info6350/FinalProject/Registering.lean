import Info6350.FinalProject.EmailCheck
import Info6350.FinalProject.Models

/-! # Registering

`RegisterBtn` creates an account and then stores a user document.  Whatever becomes of the document,
the completion ends with an empty form and the segue to the next screen.
-/

namespace Info6350.FinalProject
open Library Swift Firestore

/-! ## `RegisterViewController` -/

structure RegisterForm where
  firstNameTf : String
  lastNameTf : String
  emailTf : String
  passwordTf : String
  confirmPasswordTf : String
deriving DecidableEq, Repr

/-- The entries that the completion of `createUser(withEmail:password:)` goes on with. -/
structure CreateUserRequest where
  firstName : String
  lastName : String
  email : String
  password : String
deriving DecidableEq, Repr

/-- What becomes of the user document: `addDocument(from:)` throws, the server refuses the write
later, which the app is not told, or the document is stored. -/
inductive Storing where
  | thrown
  | refused
  | stored (documentID : String)
deriving DecidableEq, Repr

/-- The screen, the requests whose completions have not run, the segues performed, the accounts by
id and address, and the collection `users`. -/
structure RegisterViewController where
  form : RegisterForm
  errorLabel : ErrorLabel
  requests : List CreateUserRequest
  segues : List String
  accounts : List (String × String)
  users : Collection

/-- The user types or taps the button, or a request is completed at the time `now`. -/
inductive RegisterEvent where
  | enter (form : RegisterForm)
  | registerBtn
  | completed (i : ℕ) (now : ℤ) (createUser : Except AuthErrorCode String) (storing : Storing)

namespace RegisterViewController

def initial : RegisterViewController where
  form := ⟨"", "", "", "", ""⟩
  errorLabel := .clearError
  requests := []
  segues := []
  accounts := []
  users := .empty

def resetFields (s : RegisterViewController) : RegisterViewController :=
  { s with form := ⟨"", "", "", "", ""⟩ }

def showError (message : String) (s : RegisterViewController) : RegisterViewController :=
  { s with errorLabel := .showError message }

def performSegue (identifier : String) (s : RegisterViewController) : RegisterViewController :=
  { s with segues := s.segues ++ [identifier] }

section Handlers
variable (decimal : Char → Bool)

def validateFields (form : RegisterForm) : Option String :=
  if textInput form.firstNameTf = "" ∨ textInput form.lastNameTf = "" ∨
      textInput form.emailTf = "" ∨ textInput form.passwordTf = "" ∨
      textInput form.confirmPasswordTf = "" then some "Please enter all details"
  else if emailValid (textInput form.emailTf) = false then some "Invalid email address"
  else if textInput form.passwordTf ≠ textInput form.confirmPasswordTf then
    some "Password does not match."
  else if passwordValid decimal (textInput form.passwordTf) = false then
    some "Password must be min 8 characters, contains a special character and a number."
  else none

def registerBtn (s : RegisterViewController) : RegisterViewController :=
  match validateFields decimal s.form with
  | some error => s.showError error
  | none => { s with requests := s.requests ++ [⟨textInput s.form.firstNameTf,
      textInput s.form.lastNameTf, textInput s.form.emailTf, textInput s.form.passwordTf⟩] }

/-- What the completion shows when no account was created. -/
def message : AuthErrorCode → String
  | .emailAlreadyInUse => "Email already registered"
  | _ => "error creating user"

/-- `addDocument(from: newUser)` in its `do` and `catch`. -/
def addDocument (newUser : User) (now : ℤ) (storing : Storing) (s : RegisterViewController) :
    RegisterViewController :=
  match storing with
  | .thrown => s.showError "error storing user"
  | .refused => s
  | .stored documentID => { s with users := s.users.put documentID (newUser.encode.resolve now) }

def completion (request : CreateUserRequest) (now : ℤ) (createUser : Except AuthErrorCode String)
    (storing : Storing) (s : RegisterViewController) : RegisterViewController :=
  match createUser with
  | .error code => s.showError (message code)
  | .ok uid =>
    let newUser : User := ⟨none, uid, request.firstName, request.lastName, request.email⟩
    let s := { s with accounts := s.accounts ++ [(uid, request.email)] }
    let s := s.addDocument newUser now storing
    s.resetFields.performSegue "registerSuccess"

def next (s : RegisterViewController) : RegisterEvent → RegisterViewController
  | .enter form => { s with form := form }
  | .registerBtn => s.registerBtn decimal
  | .completed i now createUser storing => match s.requests[i]? with
    | some request =>
      completion request now createUser storing { s with requests := s.requests.eraseIdx i }
    | none => s

def step : Machine RegisterViewController RegisterEvent Empty := fun s e => .ok (s.next decimal e)

end Handlers

/-! ## All or nothing -/

def Registered (email : String) (s : RegisterViewController) : Prop :=
  ∃ uid, (uid, email) ∈ s.accounts ∧
    ∃ d ∈ s.users.documents.rows, d.string? "userId" = some uid

/-- The step from `s` to `t` clears the form and performs the segue only if account and document
exist; if creating the one or storing the other fails, it shows an error and leaves the rest. -/
structure AllOrNothing (request : CreateUserRequest) (createUser : Except AuthErrorCode String)
    (storing : Storing) (s t : RegisterViewController) : Prop where
  success : t.form ≠ s.form ∨ t.segues ≠ s.segues → t.Registered request.email
  failure : (∀ uid documentID, ¬ (createUser = .ok uid ∧ storing = .stored documentID)) →
    t.errorLabel.alpha = 1 ∧ t.form = s.form ∧ t.segues = s.segues

/-- No account is created, or the document is stored as well. -/
def FailsOrStores (createUser : Except AuthErrorCode String) (storing : Storing) : Prop :=
  (∃ code, createUser = .error code) ∨ ∃ documentID, storing = .stored documentID

theorem exists_document_put (users : Collection) (user : User) (now : ℤ) (documentID : String) :
    ∃ d ∈ (users.put documentID (user.encode.resolve now)).documents.rows,
      d.string? "userId" = some user.userId :=
  ⟨_, Table.mem_save.mpr (.inl rfl), rfl⟩

/-- After the creation of an account the form is empty and the segue is performed, whatever becomes
of the document. -/
theorem completion_of_created (request : CreateUserRequest) (now : ℤ) (uid : String)
    (storing : Storing) (s : RegisterViewController) :
    (completion request now (.ok uid) storing s).form = ⟨"", "", "", "", ""⟩ ∧
      (completion request now (.ok uid) storing s).segues = s.segues ++ ["registerSuccess"] ∧
      (completion request now (.ok uid) storing s).accounts =
        s.accounts ++ [(uid, request.email)] := by
  cases storing <;> exact ⟨rfl, rfl, rfl⟩

theorem allOrNothing_iff (request : CreateUserRequest) (now : ℤ)
    (createUser : Except AuthErrorCode String) (storing : Storing) (s : RegisterViewController)
    (requests : List CreateUserRequest) :
    AllOrNothing request createUser storing s
        (completion request now createUser storing { s with requests := requests }) ↔
      FailsOrStores createUser storing := by
  cases createUser with
  | error code =>
    refine iff_of_true ⟨fun h => ?_, fun _ => ⟨rfl, rfl, rfl⟩⟩ (.inl ⟨code, rfl⟩)
    exact absurd h (by simp [completion, showError])
  | ok uid =>
    obtain ⟨-, hsegues, haccounts⟩ :=
      completion_of_created request now uid storing { s with requests := requests }
    constructor
    · rintro ⟨-, hfailure⟩
      by_contra hnot
      obtain ⟨-, -, hstays⟩ := hfailure fun uid' documentID ⟨_, h⟩ => hnot (.inr ⟨documentID, h⟩)
      rw [hsegues] at hstays
      simp at hstays
    · rintro (⟨code, h⟩ | ⟨documentID, rfl⟩)
      · cases h
      · refine ⟨fun _ => ⟨uid, ?_, exists_document_put ..⟩,
          fun h => absurd ⟨rfl, rfl⟩ (h uid documentID)⟩
        rw [haccounts]
        exact List.mem_append_right _ (List.mem_singleton_self _)

section Runs
variable (decimal : Char → Bool)

/-- A tap changes neither the form nor the screen, and a completion is all or nothing. -/
structure StepRule (s : RegisterViewController) (e : RegisterEvent) : Prop where
  tap : e = .registerBtn →
    (s.next decimal e).form = s.form ∧ (s.next decimal e).segues = s.segues
  completed : ∀ i now createUser storing request, e = .completed i now createUser storing →
    s.requests[i]? = some request →
      AllOrNothing request createUser storing s (s.next decimal e)

/-- A completion comes without an account or with a document that is stored. -/
def CompletionsFailOrStore (s : RegisterViewController) (e : RegisterEvent) : Prop :=
  ∀ i now createUser storing request, e = .completed i now createUser storing →
    s.requests[i]? = some request → FailsOrStores createUser storing

theorem next_completed {s : RegisterViewController} {i : ℕ} {request : CreateUserRequest}
    (h : s.requests[i]? = some request) (now : ℤ) (createUser : Except AuthErrorCode String)
    (storing : Storing) : s.next decimal (.completed i now createUser storing) =
      completion request now createUser storing { s with requests := s.requests.eraseIdx i } := by
  rw [next, h]

theorem registerBtn_form (s : RegisterViewController) :
    (s.registerBtn decimal).form = s.form ∧ (s.registerBtn decimal).segues = s.segues := by
  unfold registerBtn
  split <;> exact ⟨rfl, rfl⟩

theorem stepRule_iff (s : RegisterViewController) (e : RegisterEvent) :
    StepRule decimal s e ↔ CompletionsFailOrStore s e := by
  constructor
  · rintro ⟨-, hcompleted⟩ i now createUser storing request rfl hrequest
    have hrule := hcompleted i now createUser storing request rfl hrequest
    rw [next_completed decimal hrequest] at hrule
    exact (allOrNothing_iff ..).mp hrule
  · intro h
    refine ⟨?_, ?_⟩
    · rintro rfl
      exact registerBtn_form decimal s
    · rintro i now createUser storing request rfl hrequest
      rw [next_completed decimal hrequest]
      exact (allOrNothing_iff ..).mpr (h i now createUser storing request rfl hrequest)

/-- Registration is all or nothing throughout a run, if and only if every account that is created
in it comes with a user document that is stored. -/
theorem meets_allOrNothing_iff (s : RegisterViewController) (es : List RegisterEvent) :
    (step decimal).Meets (StepRule decimal) s es ↔
      (step decimal).Meets CompletionsFailOrStore s es :=
  Machine.meets_congr_of_meets (A := Machine.AnyStep) (I := fun _ => True)
    (fun _ _ _ _ _ _ => trivial) (fun s e _ _ => stepRule_iff decimal s e) trivial
    (Machine.meets_anyStep s es)

/-! ## Accounts without a document -/

def AccountsStored (s : RegisterViewController) : Prop :=
  ∀ a ∈ s.accounts, ∃ d ∈ s.users.documents.rows, d.string? "userId" = some a.1

/-- A completion that creates an account stores its document at an id that is new. -/
def StoresAtNewId (s : RegisterViewController) (e : RegisterEvent) : Prop :=
  ∀ i now uid storing request, e = .completed i now (.ok uid) storing →
    s.requests[i]? = some request → ∃ documentID, storing = .stored documentID ∧
      ∀ d ∈ s.users.documents.rows, d.id ≠ documentID

theorem step_preserves_accountsStored :
    (step decimal).Preserves StoresAtNewId AccountsStored := by
  intro s e t hs hstores h
  obtain rfl : s.next decimal e = t := Except.ok.inj h
  cases e with
  | enter => exact hs
  | registerBtn =>
    change AccountsStored (s.registerBtn decimal)
    unfold registerBtn
    split <;> exact hs
  | completed i now createUser storing =>
    cases hrequest : s.requests[i]? with
    | none =>
      rw [next, hrequest]
      exact hs
    | some request =>
      rw [next_completed decimal hrequest]
      cases createUser with
      | error code => exact hs
      | ok uid =>
        obtain ⟨documentID, rfl, hnew⟩ := hstores i now uid storing request rfl hrequest
        intro a ha
        rcases List.mem_append.mp ha with ha | ha
        · obtain ⟨d, hd, huid⟩ := hs a ha
          exact ⟨d, Table.mem_save.mpr (.inr ⟨hd, hnew d hd⟩), huid⟩
        · obtain rfl := List.mem_singleton.mp ha
          exact exists_document_put ..

/-- Where every account comes with a document that is stored, no account is left without one. -/
theorem run_accountsStored {es : List RegisterEvent} {t : RegisterViewController}
    (hstores : (step decimal).Meets StoresAtNewId initial es)
    (h : (step decimal).run initial es = .ok t) : AccountsStored t :=
  (step_preserves_accountsStored decimal).run (fun _ ha => absurd ha List.not_mem_nil) hstores h

end Runs

/-- Raj's account is created, and the server refuses his document. -/
def Sample.halfRegistered : List RegisterEvent :=
  [.enter ⟨"Raj", "Shah", "raj@example.com", "abcdefg!", "abcdefg!"⟩, .registerBtn,
    .completed 0 1 (.ok "u1") .refused]

/-- Raj sees an empty form, no error and the next screen, and has no document. -/
theorem run_halfRegistered :
    (∃ t, (step Char.isDigit).run initial Sample.halfRegistered = .ok t ∧
      t.accounts = [("u1", "raj@example.com")] ∧ t.users.documents.rows = [] ∧
      t.form = ⟨"", "", "", "", ""⟩ ∧ t.segues = ["registerSuccess"] ∧ t.errorLabel.alpha = 0) ∧
    ¬ (step Char.isDigit).Meets (StepRule Char.isDigit) initial Sample.halfRegistered := by
  refine ⟨⟨_, rfl, rfl, rfl, rfl, rfl, rfl⟩, fun h => ?_⟩
  have hrule := (((h.2 _ rfl).2 _ rfl).1.completed 0 1 _ _ _ rfl rfl).failure
    (fun uid documentID ⟨_, h⟩ => by cases h)
  cases hrule.1

end RegisterViewController
end Info6350.FinalProject
