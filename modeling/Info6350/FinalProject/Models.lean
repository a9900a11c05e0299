import Info6350.Swift.Basic
import Info6350.Swift.Firestore
import Mathlib.Data.List.DropRight

/-! # Posts and users as documents

`Codable` names the fields of a document after the properties of the struct.  A
`@DocumentID` property is no field, and a `@ServerTimestamp` property that is nil is left to
the server.
-/

namespace Info6350.FinalProject
open Library Swift Firestore

/-- `CharacterSet.whitespacesAndNewlines`. -/
def isWhitespaceOrNewline (c : Char) : Bool :=
  let n := c.toNat
  (0x9 ≤ n ∧ n ≤ 0xD) ∨ n = 0x20 ∨ n = 0x85 ∨ n = 0xA0 ∨ n = 0x1680 ∨ (0x2000 ≤ n ∧ n ≤ 0x200A) ∨
    n = 0x2028 ∨ n = 0x2029 ∨ n = 0x202F ∨ n = 0x205F ∨ n = 0x3000

/-- `Utilities.textInput`. -/
def textInput (input : String) : String :=
  .ofList ((input.toList.dropWhile isWhitespaceOrNewline).rdropWhile isWhitespaceOrNewline)

theorem textInput_eq_empty_iff {input : String} :
    textInput input = "" ↔ ∀ c ∈ input.toList, isWhitespaceOrNewline c := by
  rw [textInput, String.ofList_eq_empty_iff, List.rdropWhile_eq_nil_iff]
  constructor
  · intro h c hc
    rw [← List.takeWhile_append_dropWhile (p := isWhitespaceOrNewline) (l := input.toList)] at hc
    exact (List.mem_append.mp hc).elim List.mem_takeWhile_imp (h c)
  · exact fun h c hc => h c ((List.dropWhile_suffix _).mem hc)

theorem textInput_textInput_ne {input : String} (h : textInput input ≠ "") :
    textInput (textInput input) ≠ "" := by
  intro hblank
  have hall := textInput_eq_empty_iff.mp hblank
  rw [textInput, String.toList_ofList] at hall
  have hne : (input.toList.dropWhile isWhitespaceOrNewline).rdropWhile isWhitespaceOrNewline ≠ [] :=
    fun hnil => h (by rw [textInput, hnil])
  exact List.rdropWhile_last_not _ _ hne (hall _ (List.getLast_mem hne))

structure Post where
  id : Option String
  title : String
  body : String
  createdById : String
  createdByName : String
  updateTime : Option ℤ
deriving DecidableEq, Repr

structure User where
  id : Option String
  userId : String
  firstName : String
  lastName : String
  email : String
deriving DecidableEq, Repr

def Post.encode (p : Post) : Data := [
  ("title", .value (.string p.title)),
  ("body", .value (.string p.body)),
  ("createdById", .value (.string p.createdById)),
  ("createdByName", .value (.string p.createdByName)),
  ("updateTime", match p.updateTime with
    | some t => .value (.timestamp t)
    | none => .serverTimestamp)]

def User.encode (u : User) : Data := [
  ("userId", .value (.string u.userId)),
  ("firstName", .value (.string u.firstName)),
  ("lastName", .value (.string u.lastName)),
  ("email", .value (.string u.email))]

/-- `try? queryDocumentSnapshot.data(as: Post.self)`.  A field `id` would be a conflict. -/
def Post.decode (d : Document) : Option Post := do
  guard (d.field "id" = none)
  let title ← d.string? "title"
  let body ← d.string? "body"
  let createdById ← d.string? "createdById"
  let createdByName ← d.string? "createdByName"
  let updateTime ← d.serverTimestamp? "updateTime"
  return ⟨some d.id, title, body, createdById, createdByName, updateTime⟩

/-- `try? queryDocumentSnapshot.data(as: User.self)`. -/
def User.decode (d : Document) : Option User := do
  guard (d.field "id" = none)
  let userId ← d.string? "userId"
  let firstName ← d.string? "firstName"
  let lastName ← d.string? "lastName"
  let email ← d.string? "email"
  return ⟨some d.id, userId, firstName, lastName, email⟩

theorem Post.decode_isSome_iff {d : Document} : (Post.decode d).isSome ↔ d.field "id" = none ∧
    (d.string? "title").isSome ∧ (d.string? "body").isSome ∧ (d.string? "createdById").isSome ∧
    (d.string? "createdByName").isSome ∧ (d.serverTimestamp? "updateTime").isSome := by
  unfold Post.decode
  cases d.field "id" <;> cases d.string? "title" <;> cases d.string? "body" <;>
    cases d.string? "createdById" <;> cases d.string? "createdByName" <;>
    cases d.serverTimestamp? "updateTime" <;> simp

theorem Post.decode_id {d : Document} {p : Post} (h : Post.decode d = some p) :
    p.id = some d.id := by
  simp only [Post.decode, Option.bind_eq_bind, Option.bind_eq_some_iff] at h
  obtain ⟨-, -, title, -, body, -, createdById, -, createdByName, -, time, -, h⟩ := h
  obtain rfl := Option.some.inj h
  rfl

/-! ## What the screens share -/

/-- The label that each screen shows its errors in. -/
structure ErrorLabel where
  text : String
  alpha : ℕ
deriving DecidableEq, Repr

def ErrorLabel.clearError : ErrorLabel := ⟨"error", 0⟩

def ErrorLabel.showError (message : String) : ErrorLabel := ⟨message, 1⟩

inductive AuthErrorCode where
  | userNotFound
  | networkError
  | invalidCredential
  | invalidEmail
  | wrongPassword
  | emailAlreadyInUse
  | other
deriving DecidableEq, Repr

structure AuthError where
  code : AuthErrorCode
  localizedDescription : String
deriving DecidableEq, Repr

/-- `whereField(field, isEqualTo: user?.uid)` compares with null when nobody is signed in. -/
def uidValue (user : Option String) : Value := (user.map Value.string).getD .null

end Info6350.FinalProject
