import Info6350.FinalProject.EmailCheck
import Info6350.FinalProject.Models
import Info6350.Library.Machine

/-! # Signing in

`loginBtn` disables the button, sends a request and enables the button again before it returns.
The completion of a request runs later, so the button is enabled while the request is outstanding.
-/

namespace Info6350.FinalProject
open Library

/-! ## `LoginViewController` -/

structure SignInRequest where
  email : String
  password : String
deriving DecidableEq, Repr

/-- The screen, the requests whose completions have not run, and the segues performed. -/
structure LoginViewController where
  emailTf : String
  passwordTf : String
  errorLabel : ErrorLabel
  /-- `loginButton.isEnabled`. -/
  isEnabled : Bool
  /-- Another screen has been pushed over this one. -/
  covered : Bool
  requests : List SignInRequest
  segues : List String
deriving DecidableEq, Repr

namespace LoginViewController

def initial : LoginViewController where
  emailTf := ""
  passwordTf := ""
  errorLabel := .clearError
  isEnabled := true
  covered := false
  requests := []
  segues := []

def resetFields (s : LoginViewController) : LoginViewController :=
  { s with emailTf := "", passwordTf := "" }

def viewDidAppear (s : LoginViewController) : LoginViewController :=
  { s.resetFields with errorLabel := .clearError, covered := false }

def validateFields (s : LoginViewController) : Option String :=
  if textInput s.emailTf = "" ∨ textInput s.passwordTf = "" then some "Please enter all fields"
  else if emailValid (textInput s.emailTf) = false then some "Invalid email address"
  else none

def signIn (request : SignInRequest) (s : LoginViewController) : LoginViewController :=
  { s with requests := s.requests ++ [request] }

def loginBtn (s : LoginViewController) : LoginViewController :=
  let s := { s with errorLabel := .clearError, isEnabled := false }
  let s := match s.validateFields with
    | some error => { s with errorLabel := .showError error }
    | none => s.signIn ⟨textInput s.emailTf, textInput s.passwordTf⟩
  { s with isEnabled := true }

def message (error : AuthError) : String :=
  match error.code with
  | .userNotFound => "User not registered"
  | .networkError => "Internet not connected"
  | .invalidCredential | .invalidEmail | .wrongPassword => "Invalid credentials"
  | _ => error.localizedDescription

def performSegue (identifier : String) (s : LoginViewController) : LoginViewController :=
  { s with segues := s.segues ++ [identifier], covered := true }

def completion (error : Option AuthError) (s : LoginViewController) : LoginViewController :=
  match error with
  | some error => { s with errorLabel := .showError (message error) }
  | none => s.resetFields.performSegue "loginSuccess"

end LoginViewController

/-- The user types or taps the button, a request is completed, or the screen is shown again. -/
inductive LoginEvent where
  | enter (emailTf passwordTf : String)
  | loginBtn
  | completed (i : ℕ) (error : Option AuthError)
  | viewDidAppear
deriving DecidableEq, Repr

namespace LoginViewController

/-- The button can be tapped while the screen is shown and the button enabled.  Requests are
completed in any order. -/
def next (s : LoginViewController) : LoginEvent → LoginViewController
  | .enter emailTf passwordTf =>
    if s.covered then s else { s with emailTf := emailTf, passwordTf := passwordTf }
  | .loginBtn => if s.isEnabled && !s.covered then s.loginBtn else s
  | .completed i error =>
    if i < s.requests.length then
      completion error { s with requests := s.requests.eraseIdx i }
    else s
  | .viewDidAppear => s.viewDidAppear

def step : Machine LoginViewController LoginEvent Empty := fun s e => .ok (s.next e)

/-- How often `loginSuccess` has been performed in the current login, which began with a request
that was sent while none was outstanding. -/
def successes (s : LoginViewController) (_ : LoginEvent) (t : LoginViewController) (n : ℕ) : ℕ :=
  if s.requests = [] ∧ t.requests ≠ [] then 0
  else n + (t.segues.count "loginSuccess" - s.segues.count "loginSuccess")

def logins : Machine (LoginViewController × ℕ) LoginEvent Empty := step.withHistory successes

/-- At most one request is outstanding, and the login has performed its segue at most once. -/
def OneSignIn (s : LoginViewController × ℕ) : Prop := s.1.requests.length ≤ 1 ∧ s.2 ≤ 1

/-- A tap on the button with fields that are valid comes while no request is outstanding. -/
def TapsWhenIdle (s : LoginViewController × ℕ) (e : LoginEvent) : Prop :=
  e = .loginBtn → s.1.covered = false → s.1.validateFields = none → s.1.requests = []

/-! ## What a step does -/

theorem loginBtn_of_invalid {s : LoginViewController} {error : String}
    (h : s.validateFields = some error) :
    s.loginBtn = { s with errorLabel := .showError error, isEnabled := true } := by
  have h' : validateFields { s with errorLabel := .clearError, isEnabled := false } = some error :=
    h
  rw [loginBtn, h']

theorem loginBtn_of_valid {s : LoginViewController} (h : s.validateFields = none) :
    s.loginBtn = { s.signIn ⟨textInput s.emailTf, textInput s.passwordTf⟩ with
      errorLabel := .clearError, isEnabled := true } := by
  have h' : validateFields { s with errorLabel := .clearError, isEnabled := false } = none := h
  rw [loginBtn, h']
  rfl

theorem next_isEnabled {s : LoginViewController} (h : s.isEnabled) (e : LoginEvent) :
    (s.next e).isEnabled := by
  cases e with
  | enter =>
    rw [next]
    split <;> exact h
  | loginBtn =>
    rw [next]
    split
    · rfl
    · exact h
  | completed i error =>
    rw [next]
    split
    · cases error <;> exact h
    · exact h
  | viewDidAppear => exact h

theorem next_cases {s : LoginViewController} (h : s.isEnabled) (e : LoginEvent) :
    ((s.next e).requests = s.requests ∧ (s.next e).segues = s.segues) ∨
    (e = .loginBtn ∧ s.covered = false ∧ s.validateFields = none ∧
      (∃ request, (s.next e).requests = s.requests ++ [request]) ∧
      (s.next e).segues = s.segues) ∨
    ∃ i error, e = .completed i error ∧ i < s.requests.length ∧
      (s.next e).requests = s.requests.eraseIdx i ∧
      (s.next e).segues = s.segues ++ if error = none then ["loginSuccess"] else [] := by
  cases e with
  | enter =>
    left
    rw [next]
    split <;> exact ⟨rfl, rfl⟩
  | loginBtn =>
    rw [next, h, Bool.true_and]
    cases hcovered : s.covered with
    | true => exact .inl ⟨rfl, rfl⟩
    | false =>
      cases hvalid : s.validateFields with
      | some error => exact .inl (by rw [loginBtn_of_invalid hvalid]; exact ⟨rfl, rfl⟩)
      | none =>
        rw [loginBtn_of_valid hvalid]
        exact .inr (.inl ⟨rfl, rfl, rfl, ⟨_, rfl⟩, rfl⟩)
  | completed i error =>
    rw [next]
    split
    case isTrue hi =>
      refine .inr (.inr ⟨i, error, rfl, hi, ?_⟩)
      cases error with
      | some error => exact ⟨rfl, (List.append_nil _).symm⟩
      | none => exact ⟨rfl, rfl⟩
    case isFalse => exact .inl ⟨rfl, rfl⟩
  | viewDidAppear => exact .inl ⟨rfl, rfl⟩

/-! ## Runs -/

structure OneAttempt (s : LoginViewController × ℕ) : Prop where
  isEnabled : s.1.isEnabled
  le_one : s.1.requests.length + s.2 ≤ 1

theorem logins_ok_iff {s t : LoginViewController × ℕ} {e : LoginEvent} :
    logins s e = .ok t ↔ t = (s.1.next e, successes s.1 e (s.1.next e) s.2) := by
  rw [logins, Machine.withHistory_ok_iff, step, Except.ok.injEq]
  constructor
  · rintro ⟨h, h'⟩
    exact Prod.ext h.symm (h ▸ h')
  · rintro rfl
    exact ⟨rfl, rfl⟩

theorem logins_preserves : logins.Preserves (fun s e => True ∧ TapsWhenIdle s e) OneAttempt := by
  rintro ⟨s, n⟩ e t ⟨henabled, hle⟩ ⟨-, hidle⟩ h
  obtain rfl := logins_ok_iff.mp h
  have henabled : s.isEnabled := henabled
  have hle : s.requests.length + n ≤ 1 := hle
  refine ⟨next_isEnabled henabled e, ?_⟩
  change (s.next e).requests.length + successes s e (s.next e) n ≤ 1
  rcases next_cases henabled e with ⟨hrequests, hsegues⟩ |
    ⟨rfl, hcovered, hvalid, ⟨request, hrequests⟩, hsegues⟩ |
    ⟨i, error, rfl, hi, hrequests, hsegues⟩
  · rw [successes, hrequests, hsegues, if_neg fun h => h.2 h.1, Nat.sub_self]
    exact hle
  · -- a login begins
    have hnone : s.requests = [] := hidle rfl hcovered hvalid
    rw [successes, if_pos ⟨hnone, by simp [hrequests]⟩, hrequests, hnone]
    exact le_rfl
  · -- the request that was outstanding is exchanged for the segue, or dropped
    have hne : s.requests ≠ [] := List.ne_nil_of_length_pos (by omega)
    have hcount : (if error = none then ["loginSuccess"] else []).count "loginSuccess" ≤ 1 := by
      split <;> decide
    rw [successes, if_neg fun h => hne h.1, hrequests, hsegues, List.count_append,
      List.length_eraseIdx_of_lt hi]
    omega

/-- In every run at most one request is outstanding and each login performs its segue at most once,
if and only if nobody taps the button with valid fields while a request is outstanding. -/
theorem always_oneSignIn_iff (es : List LoginEvent) :
    logins.Always OneSignIn (initial, 0) es ↔ logins.Meets TapsWhenIdle (initial, 0) es := by
  obtain ⟨t, ht⟩ := logins.exists_run (fun s e => ⟨_, logins_ok_iff.mpr rfl⟩) (initial, 0) es
  refine Machine.always_iff_meets (A := fun _ => True) (I := OneAttempt) ?_ logins_preserves ?_
    ⟨rfl, Nat.zero_le 1⟩ (fun _ _ => trivial) ht
  · rintro s ⟨-, hle⟩
    exact ⟨by omega, by omega⟩
  · -- a tap too many leaves two requests outstanding
    rintro ⟨s, n⟩ e t ⟨henabled, -⟩ - h ⟨hle, -⟩ rfl hcovered hvalid
    obtain rfl := logins_ok_iff.mp h
    have hnext : s.next .loginBtn = s.loginBtn := by
      rw [next, henabled, hcovered]
      rfl
    rw [hnext, loginBtn_of_valid hvalid] at hle
    have hlength : (s.requests ++ [_]).length ≤ 1 := hle
    rw [List.length_append, List.length_singleton] at hlength
    exact List.eq_nil_of_length_eq_zero (Nat.le_zero.mp (Nat.le_of_succ_le_succ hlength))

def Sample.twoTaps : List LoginEvent :=
  [.enter "raj@example.com" "pass", .loginBtn, .loginBtn, .completed 0 none, .completed 0 none]

/-- Both requests are outstanding after the taps, and the login performs its segue twice. -/
theorem run_twoTaps :
    (∃ s, logins.run (initial, 0) Sample.twoTaps = .ok s ∧
      s.1.segues = ["loginSuccess", "loginSuccess"] ∧ s.2 = 2) ∧
    ¬ logins.Always OneSignIn (initial, 0) Sample.twoTaps := by
  refine ⟨⟨_, rfl, rfl, rfl⟩, fun h => ?_⟩
  have hlast := ((((h.2 _ rfl).2 _ rfl).2 _ rfl).2 _ rfl).2 _ rfl
  exact absurd hlast.2 (by decide)

end LoginViewController
end Info6350.FinalProject
