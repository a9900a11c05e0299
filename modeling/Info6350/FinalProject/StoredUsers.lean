import Info6350.FinalProject.CreatePost
import Info6350.FinalProject.Registering

/-! # The users that are stored

The completions of the register screen come in any order, while the user goes on typing and tapping.
The collection `users` is still that of a list of registrations, at most one for each account, and
every document in it is a user whose entries the screen accepted.
-/

namespace Info6350.FinalProject
open Library Swift Firestore

theorem textInput_textInput (input : String) : textInput (textInput input) = textInput input := by
  have hhead : ∀ l : List Char,
      (((l.dropWhile isWhitespaceOrNewline).rdropWhile isWhitespaceOrNewline).dropWhile
        isWhitespaceOrNewline) =
      (l.dropWhile isWhitespaceOrNewline).rdropWhile isWhitespaceOrNewline := by
    intro l
    rw [List.dropWhile_eq_self_iff]
    intro hlen
    rw [(List.rdropWhile_prefix _ (l.dropWhile isWhitespaceOrNewline)).getElem hlen]
    exact List.dropWhile_get_zero_not isWhitespaceOrNewline l _
  simp only [textInput, String.toList_ofList, hhead, List.rdropWhile_idempotent]

/-- The names and the address of a user as the checks of the screen accept them. -/
structure User.Checked (u : User) : Prop where
  firstName : u.firstName ≠ "" ∧ textInput u.firstName = u.firstName
  lastName : u.lastName ≠ "" ∧ textInput u.lastName = u.lastName
  email : emailValid u.email = true ∧ textInput u.email = u.email

theorem User.decode_of_fields {u : User} {now : ℤ} {d : Document}
    (h : d.fields = u.encode.resolve now) : User.decode d = some { u with id := some d.id } := by
  obtain ⟨id, fields, version⟩ := d
  obtain rfl := h
  rfl

/-! ## Registrations -/

def Registration.account (r : Registration) : String × String := (r.uid, r.newUser.email)

section Registrations
variable {registrations : List (ℤ × Registration)} {users : Collection}

theorem run_registered (h : registerStep.run .empty registrations = .ok users) :
    ∀ d ∈ users.documents.rows, ∃ r ∈ registrations, d.fields = r.2.newUser.encode.resolve r.1 := by
  have hstep : registerStep.Preserves (fun _ r => r ∈ registrations) fun c =>
      ∀ d ∈ c.documents.rows, ∃ r ∈ registrations, d.fields = r.2.newUser.encode.resolve r.1 := by
    intro c r c' hc hr h d hd
    rcases Collection.mem_step h hd with hd | ⟨documentID, data, hset, hfields⟩ |
      ⟨documentID, data, hupdate, -⟩
    · exact hc d hd
    · obtain ⟨-, rfl⟩ := Write.setData.inj hset
      exact ⟨r, hr, hfields⟩
    · cases hupdate
  exact hstep.run (fun d hd => absurd hd List.not_mem_nil)
    (Machine.meets_of_forall _ fun r hr _ => hr) h

/-- Registrations of different users leave one document at most of a user. -/
theorem run_registered_distinct (hdistinct : (registrations.map fun r => r.2.uid).Nodup)
    (h : registerStep.run .empty registrations = .ok users) :
    ∀ d ∈ users.documents.rows, ∀ d' ∈ users.documents.rows,
      d.string? "userId" = d'.string? "userId" → d = d' := by
  induction registrations using List.reverseRecOn generalizing users with
  | nil =>
    obtain rfl := Except.ok.inj h
    exact fun d hd => absurd hd List.not_mem_nil
  | append_singleton registrations r ih =>
    rw [Machine.run_append] at h
    obtain ⟨c, hc, h⟩ := bind_ok_iff.mp h
    rw [Machine.run_singleton] at h
    obtain rfl := Except.ok.inj h
    rw [List.map_append, List.nodup_append] at hdistinct
    obtain ⟨hdistinct, -, hnew⟩ := hdistinct
    -- the documents that were there are of other users than the new one
    have hother : ∀ d ∈ c.documents.rows, d.string? "userId" ≠ some r.2.uid := by
      intro d hd huid
      obtain ⟨r', hr', hfields⟩ := run_registered hc d hd
      have huid' : d.string? "userId" = some r'.2.uid := by
        rw [Document.string?, Document.field, hfields]
        rfl
      exact hnew _ (List.mem_map_of_mem hr') _ (List.mem_singleton_self _)
        (Option.some.inj (huid'.symm.trans huid))
    intro d hd d' hd' huid
    rcases Table.mem_save.mp hd with rfl | ⟨hd, -⟩ <;>
      rcases Table.mem_save.mp hd' with rfl | ⟨hd', -⟩
    · rfl
    · exact absurd huid.symm (hother d' hd')
    · exact absurd huid (hother d hd)
    · exact ih hdistinct hc d hd d' hd' huid

end Registrations

/-! ## The register screen -/

namespace RegisterViewController
variable (decimal : Char → Bool)

structure CheckedRequest (request : CreateUserRequest) : Prop where
  user : ∀ uid, User.Checked ⟨none, uid, request.firstName, request.lastName, request.email⟩
  password : passwordValid decimal request.password = true ∧
    textInput request.password = request.password

/-- What is requested has been checked, and what is stored has been registered. -/
structure Registers (s : RegisterViewController) : Prop where
  requests : ∀ request ∈ s.requests, CheckedRequest decimal request
  users : ∃ registrations, registerStep.run .empty registrations = .ok s.users ∧
    (registrations.map fun r => r.2.account).Sublist s.accounts ∧
    ∀ r ∈ registrations, r.2.newUser.Checked

variable {decimal} {s t : RegisterViewController}

theorem validateFields_none {form : RegisterForm} (h : validateFields decimal form = none) :
    CheckedRequest decimal ⟨textInput form.firstNameTf, textInput form.lastNameTf,
      textInput form.emailTf, textInput form.passwordTf⟩ := by
  unfold validateFields at h
  split_ifs at h with hblank hemail hconfirm hpassword
  push Not at hblank
  obtain ⟨hfirst, hlast, -⟩ := hblank
  exact ⟨fun uid => ⟨⟨hfirst, textInput_textInput _⟩, ⟨hlast, textInput_textInput _⟩,
    ⟨eq_true_of_ne_false hemail, textInput_textInput _⟩⟩,
    ⟨eq_true_of_ne_false hpassword, textInput_textInput _⟩⟩

theorem registerBtn_registers (hs : s.Registers decimal) :
    (s.registerBtn decimal).Registers decimal := by
  unfold registerBtn
  split
  · exact ⟨hs.requests, hs.users⟩
  · rename_i hvalid
    exact ⟨List.forall_mem_append.mpr ⟨hs.requests, List.forall_mem_singleton.mpr
      (validateFields_none hvalid)⟩, hs.users⟩

theorem Registers.store (hs : s.Registers decimal) {request : CreateUserRequest}
    (hrequest : CheckedRequest decimal request) (uid documentID : String) (now : ℤ) :
    ∃ registrations, registerStep.run .empty registrations = .ok (s.users.put documentID
        ((User.encode ⟨none, uid, request.firstName, request.lastName, request.email⟩).resolve
          now)) ∧
      (registrations.map fun r => r.2.account).Sublist (s.accounts ++ [(uid, request.email)]) ∧
      ∀ r ∈ registrations, r.2.newUser.Checked := by
  obtain ⟨registrations, hrun, haccounts, hchecked⟩ := hs.users
  let registration : Registration :=
    ⟨uid, request.firstName, request.lastName, request.email, documentID⟩
  have hnewUser : registration.newUser =
      ⟨none, uid, request.firstName, request.lastName, request.email⟩ := by
    have hentries := hrequest.user uid
    simp only [registration, Registration.newUser, hentries.firstName.2, hentries.lastName.2,
      hentries.email.2]
  refine ⟨registrations ++ [(now, registration)], ?_, ?_, ?_⟩
  · rw [Machine.run_append, hrun, ← hnewUser]
    rfl
  · rw [List.map_append]
    refine haccounts.append ?_
    rw [List.map_singleton, Registration.account, hnewUser]
  · exact List.forall_mem_append.mpr ⟨hchecked, List.forall_mem_singleton.mpr
      (hnewUser ▸ hrequest.user uid)⟩

theorem completion_registers (hs : s.Registers decimal) {request : CreateUserRequest}
    (hrequest : CheckedRequest decimal request) (now : ℤ)
    (createUser : Except AuthErrorCode String) (storing : Storing) :
    (completion request now createUser storing s).Registers decimal := by
  cases createUser with
  | error code => exact ⟨hs.requests, hs.users⟩
  | ok uid =>
    obtain ⟨registrations, hrun, haccounts, hchecked⟩ := hs.users
    have hmore := haccounts.trans (List.sublist_append_left s.accounts [(uid, request.email)])
    cases storing with
    | thrown => exact ⟨hs.requests, registrations, hrun, hmore, hchecked⟩
    | refused => exact ⟨hs.requests, registrations, hrun, hmore, hchecked⟩
    | stored documentID => exact ⟨hs.requests, hs.store hrequest uid documentID now⟩

theorem step_preserves_registers :
    (step decimal).Preserves Machine.AnyStep (Registers decimal) := by
  intro s e t hs _ h
  obtain rfl : s.next decimal e = t := Except.ok.inj h
  cases e with
  | enter => exact ⟨hs.requests, hs.users⟩
  | registerBtn => exact registerBtn_registers hs
  | completed i now createUser storing =>
    cases hrequest : s.requests[i]? with
    | none =>
      rw [next, hrequest]
      exact hs
    | some request =>
      rw [next_completed decimal hrequest]
      have hrest : Registers decimal { s with requests := s.requests.eraseIdx i } :=
        ⟨fun r hr => hs.requests r (List.mem_of_mem_eraseIdx hr), hs.users⟩
      exact completion_registers hrest (hs.requests request (List.mem_of_getElem? hrequest)) ..

/-- A run sends only requests whose entries are accepted, and leaves the `users` of registrations,
in the order of their accounts.  Every document decodes as a user with an account and with accepted
entries, and where no two accounts have the same id, no two documents are of the same user. -/
theorem run_registers {es : List RegisterEvent} (h : (step decimal).run initial es = .ok t) :
    (∀ request ∈ t.requests, CheckedRequest decimal request) ∧
      (∃ registrations, registerStep.run .empty registrations = .ok t.users ∧
        (registrations.map fun r => r.2.account).Sublist t.accounts) ∧
      (∀ d ∈ t.users.documents.rows, ∃ u, User.decode d = some u ∧ u.Checked ∧
        (u.userId, u.email) ∈ t.accounts) ∧
      ((t.accounts.map Prod.fst).Nodup → ∀ d ∈ t.users.documents.rows,
        ∀ d' ∈ t.users.documents.rows, d.string? "userId" = d'.string? "userId" → d = d') := by
  have hinitial : Registers decimal initial :=
    ⟨fun _ hr => absurd hr List.not_mem_nil, [], rfl, List.Sublist.refl _,
      fun _ hr => absurd hr List.not_mem_nil⟩
  obtain ⟨hrequests, registrations, hrun, haccounts, hchecked⟩ :=
    step_preserves_registers.run_any hinitial h
  refine ⟨hrequests, ⟨registrations, hrun, haccounts⟩, fun d hd => ?_, fun hids => ?_⟩
  · obtain ⟨r, hr, hfields⟩ := run_registered hrun d hd
    have hr' := hchecked r hr
    exact ⟨_, User.decode_of_fields hfields, ⟨hr'.firstName, hr'.lastName, hr'.email⟩,
      haccounts.subset (List.mem_map_of_mem hr)⟩
  · refine run_registered_distinct (hids.sublist ?_) hrun
    have huids := haccounts.map Prod.fst
    rwa [List.map_map] at huids

/-- Raj taps twice and types on; the second request is refused. -/
def Sample.twoTaps : List RegisterEvent :=
  [.enter ⟨" Raj", "Shah ", "raj@example.com", "abcdefg!", "abcdefg!"⟩, .registerBtn, .registerBtn,
    .enter ⟨"", "", "", "", ""⟩, .completed 1 1 (.ok "u1") (.stored "d1"),
    .completed 0 2 (.error .emailAlreadyInUse) .thrown]

theorem run_registers_twoTaps : ∃ t, (step Char.isDigit).run initial Sample.twoTaps = .ok t ∧
    t.users.documents.rows.map User.decode =
      [some ⟨some "d1", "u1", "Raj", "Shah", "raj@example.com"⟩] ∧
    ∀ d ∈ t.users.documents.rows, ∃ u, User.decode d = some u ∧ u.Checked ∧
      (u.userId, u.email) ∈ t.accounts :=
  ⟨_, rfl, rfl, (@run_registers Char.isDigit _ Sample.twoTaps rfl).2.2.1⟩

end RegisterViewController
end Info6350.FinalProject
