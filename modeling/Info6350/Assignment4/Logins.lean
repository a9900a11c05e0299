import Info6350.Assignment4.Program

/-! # Commands belong to the last login

Logout calls `loginMenu()` from inside the menu of the old account, whose loop stays on
the stack.  The loop above every other frame is the one that the last successful login
entered, and a call of `loginMenu()` never returns to the frames below it.
-/

namespace Info6350.Assignment4
open Library Swift Keyed

/-- What a step does to the control and the stack. -/
inductive Transfer (st : State) : Control → List Frame → Prop where
  | login (row a) : st.control = .loginMenu → st.globals.accounts[row]? = some a →
      st.process.stdin.head? = some a.username → st.process.stdin.tail.head? = some a.password →
      Transfer st (.printMenu row) (.whileTrue row :: st.stack)
  | refuse : st.control = .loginMenu → Transfer st .loginMenu (.loginMenu :: st.stack)
  | logout (row) : st.control = .printMenu row → Transfer st .loginMenu (.printMenu :: st.stack)
  | menuReturns (row) : st.control = .printMenu row → Transfer st .returned st.stack
  | loop (row stack) : st.control = .returned → st.stack = .whileTrue row :: stack →
      Transfer st (.printMenu row) st.stack
  | callReturns (frame stack) : st.control = .returned → (∀ row, frame ≠ .whileTrue row) →
      st.stack = frame :: stack → Transfer st .returned stack

theorem step_transfer {st st' : State} {u : Unit} (h : step st u = .ok st') :
    Transfer st st'.control st'.stack := by
  obtain ⟨p, control, stack⟩ := st
  cases control with
  | loginMenu =>
    obtain ⟨⟨account, q⟩, hq, h⟩ := bind_ok_iff.mp h
    obtain ⟨-, hlogin⟩ := loginMenu_ok hq
    cases account with
    | some row =>
      obtain rfl := Except.ok.inj h
      obtain ⟨a, hrow, hname, hpassword⟩ := hlogin row rfl
      exact .login row a rfl hrow hname hpassword
    | none =>
      obtain rfl := Except.ok.inj h
      exact .refuse rfl
  | printMenu row =>
    obtain ⟨account, -, h⟩ := bind_ok_iff.mp h
    obtain ⟨⟨control, q⟩, hq, h⟩ := bind_ok_iff.mp h
    have hcontrol : control = .loginMenu ∨ control = .returned := by
      cases hrole : account.role with
      | teamLeader =>
        rw [hrole] at hq
        exact (TeamLeader.printMenu_ok hq).2
      | teamMember =>
        rw [hrole] at hq
        exact (TeamMember.printMenu_ok hq).2
    rcases hcontrol with rfl | rfl
    · obtain rfl := Except.ok.inj h
      exact .logout row rfl
    · obtain rfl := Except.ok.inj h
      exact .menuReturns row rfl
  | returned =>
    cases stack with
    | nil => cases h
    | cons frame stack =>
      cases frame with
      | whileTrue row =>
        obtain rfl := Except.ok.inj h
        exact .loop row stack rfl rfl
      | _ =>
        obtain rfl := Except.ok.inj h
        exact .callReturns _ stack rfl (by simp) rfl

/-! ## The account on top -/

/-- Record the username and the password that a successful login entered. -/
def recordLogin (st : State) (_ : Unit) (st' : State) (last : Option (String × String)) :
    Option (String × String) :=
  match st.control, st'.control with
  | .loginMenu, .printMenu _ =>
    st.process.stdin.head?.bind fun userName => st.process.stdin.tail.head?.map (Prod.mk userName)
  | _, _ => last

/-- The account at a row is the one with this username and password. -/
def Globals.HasLogin (row : ℕ) (last : Option (String × String)) (g : Globals) : Prop :=
  ∃ a, g.accounts[row]? = some a ∧ last = some (a.username, a.password) ∧
    ∀ b ∈ g.accounts, b.username = a.username → b = a

/-- Outside `loginMenu()` the top of the stack is the loop over the account of the last login. -/
def State.LoggedIn (st : State) (last : Option (String × String)) : Prop :=
  st.control = .loginMenu ∨ ∃ row stack, st.stack = .whileTrue row :: stack ∧
    (∀ row', st.control = .printMenu row' → row' = row) ∧ st.globals.HasLogin row last

theorem Globals.WellFormed.username_inj {g : Globals} (hg : g.WellFormed) {a b : Account}
    (ha : a ∈ g.accounts) (hb : b ∈ g.accounts) (h : b.username = a.username) : b = a := by
  have hnames : g.accounts.map Account.username =
      (g.accounts.map Account.identity).map Account.username := by
    rw [List.map_map]
    rfl
  have hnodup : (g.accounts.map Account.username).Nodup := by
    rw [hnames, hg.accounts]
    decide
  exact List.inj_on_of_nodup_map hnodup hb ha h

/-- Commands change neither the usernames nor the passwords. -/
theorem Globals.HasLogin.of_wellFormed {g g' : Globals} (hg : g.WellFormed) (hg' : g'.WellFormed)
    {row : ℕ} {last : Option (String × String)} (h : g.HasLogin row last) :
    g'.HasLogin row last := by
  obtain ⟨a, hrow, hlast, -⟩ := h
  have hidentity : (g'.accounts.map Account.identity)[row]? = some a.identity := by
    rw [hg'.accounts, ← hg.accounts, List.getElem?_map, hrow]
    rfl
  rw [List.getElem?_map] at hidentity
  obtain ⟨a', hrow', heq⟩ := Option.map_eq_some_iff.mp hidentity
  have hname : a'.username = a.username := (congrArg Account.username heq :)
  have hpassword : a'.password = a.password := (congrArg Account.password heq :)
  refine ⟨a', hrow', by rw [hlast, hname, hpassword], fun b hb hb' => ?_⟩
  exact hg'.username_inj (List.mem_of_getElem? hrow') hb hb'

/-- The record is the one before, unless the step is a login. -/
theorem recordLogin_of_ne {st st' : State} {u : Unit} {last : Option (String × String)}
    (h : st.control ≠ .loginMenu) : recordLogin st u st' last = last := by
  unfold recordLogin
  split
  · contradiction
  · rfl

theorem step_loggedIn {st st' : State} {u : Unit} {last : Option (String × String)}
    (hg : st.globals.WellFormed) (hst : st.LoggedIn last) (h : step st u = .ok st') :
    st'.LoggedIn (recordLogin st u st' last) := by
  have hg' : st'.globals.WellFormed := step_preserves_wellFormed st u st' hg trivial h
  have htop : st.control ≠ .loginMenu → ∃ row stack, st.stack = .whileTrue row :: stack ∧
      (∀ row', st.control = .printMenu row' → row' = row) ∧
      st'.globals.HasLogin row (recordLogin st u st' last) := by
    intro hcontrol
    obtain ⟨row, stack, hstack, hrow, hlogin⟩ := hst.resolve_left hcontrol
    rw [recordLogin_of_ne hcontrol]
    exact ⟨row, stack, hstack, hrow, hlogin.of_wellFormed hg hg'⟩
  have htransfer := step_transfer h
  generalize hcontrol' : st'.control = control' at htransfer
  generalize hstack' : st'.stack = stack' at htransfer
  cases htransfer with
  | login row a hcontrol hrow hname hpassword =>
    refine .inr ⟨row, st.stack, hstack', fun row' h' => ?_, ?_⟩
    · exact (Control.printMenu.inj (hcontrol'.symm.trans h')).symm
    · have hrecord : recordLogin st u st' last = some (a.username, a.password) := by
        simp [recordLogin, hcontrol, hcontrol', hname, hpassword]
      rw [hrecord]
      refine Globals.HasLogin.of_wellFormed hg hg' ⟨a, hrow, rfl, fun b hb hb' => ?_⟩
      exact hg.username_inj (List.mem_of_getElem? hrow) hb hb'
  | refuse => exact .inl hcontrol'
  | logout => exact .inl hcontrol'
  | menuReturns row hcontrol =>
    obtain ⟨row, stack, hstack, -, hlogin⟩ := htop (by simp [hcontrol])
    exact .inr ⟨row, stack, hstack'.trans hstack, by simp [hcontrol'], hlogin⟩
  | loop row stack hcontrol htop' =>
    obtain ⟨row', stack', hstack, -, hlogin⟩ := htop (by simp [hcontrol])
    obtain ⟨hframe, -⟩ := List.cons.inj (htop'.symm.trans hstack)
    obtain rfl := Frame.whileTrue.inj hframe
    refine .inr ⟨row, stack', hstack'.trans hstack, fun row' h' => ?_, hlogin⟩
    exact (Control.printMenu.inj (hcontrol'.symm.trans h')).symm
  | callReturns frame stack hcontrol hframe htop' =>
    obtain ⟨row, stack', hstack, -⟩ := htop (by simp [hcontrol])
    obtain ⟨htop', -⟩ := List.cons.inj (htop'.symm.trans hstack)
    exact absurd htop' (hframe row)

/-! ## The frames below a call -/

/-- `loginMenu()` was called on the stack `stack` and has not returned: without frames of its own
it is about to begin, and a menu that is shown is that of a loop of its own. -/
def Suspended (stack : List Frame) (st : State) : Prop :=
  ∃ above, st.stack = above ++ stack ∧ (above = [] → st.control = .loginMenu) ∧
    ∀ row, st.control = .printMenu row → above.head? = some (.whileTrue row)

theorem step_suspended {stack : List Frame} {st st' : State} {u : Unit}
    {last : Option (String × String)} (hst : st.LoggedIn last) (hstack : Suspended stack st)
    (h : step st u = .ok st') : Suspended stack st' := by
  obtain ⟨above, habove, hnil, hmenu⟩ := hstack
  have htransfer := step_transfer h
  generalize hcontrol' : st'.control = control' at htransfer
  generalize hstack' : st'.stack = stack' at htransfer
  cases htransfer with
  | login row =>
    refine ⟨.whileTrue row :: above, by rw [hstack', habove]; rfl, by simp, fun row' h' => ?_⟩
    rw [Control.printMenu.inj (hcontrol'.symm.trans h')]
    rfl
  | refuse =>
    exact ⟨.loginMenu :: above, by rw [hstack', habove]; rfl, by simp, by simp [hcontrol']⟩
  | logout =>
    exact ⟨.printMenu :: above, by rw [hstack', habove]; rfl, by simp, by simp [hcontrol']⟩
  | menuReturns row hcontrol =>
    refine ⟨above, hstack'.trans habove, fun hempty => ?_, by simp [hcontrol']⟩
    exact absurd (hcontrol.symm.trans (hnil hempty)) (by simp)
  | loop row below hcontrol htop =>
    cases above with
    | nil => exact absurd (hcontrol.symm.trans (hnil rfl)) (by simp)
    | cons frame above =>
      refine ⟨frame :: above, hstack'.trans habove, by simp, fun row' h' => ?_⟩
      obtain ⟨rfl, -⟩ := List.cons.inj (htop.symm.trans habove)
      rw [Control.printMenu.inj (hcontrol'.symm.trans h')]
      rfl
  | callReturns frame below hcontrol hframe htop =>
    obtain ⟨row, stack', hloop, -⟩ := hst.resolve_left (by simp [hcontrol])
    obtain ⟨hloop, -⟩ := List.cons.inj (htop.symm.trans hloop)
    exact absurd hloop (hframe row)

/-! ## Runs -/

/-- The machine that records the last login. -/
def loginStep : Machine (State × Option (String × String)) Unit Halt := step.withHistory recordLogin

/-- The invariant of the runs. -/
def Attributed (s : State × Option (String × String)) : Prop :=
  s.1.globals.WellFormed ∧ s.1.LoggedIn s.2

theorem loginStep_preserves_attributed : loginStep.Preserves Machine.AnyStep Attributed := by
  rintro ⟨st, last⟩ u ⟨st', last'⟩ ⟨hg, hst⟩ - h
  obtain ⟨h, hlast⟩ := (Machine.withHistory_ok_iff _ _).mp h
  refine ⟨step_preserves_wellFormed st u st' hg trivial h, ?_⟩
  rw [hlast]
  exact step_loggedIn hg hst h

theorem loginStep_preserves_suspended (stack : List Frame) :
    loginStep.Preserves Machine.AnyStep fun s => Attributed s ∧ Suspended stack s.1 := by
  rintro ⟨st, last⟩ u ⟨st', last'⟩ ⟨hst, hstack⟩ - h
  refine ⟨loginStep_preserves_attributed _ u _ hst trivial h, ?_⟩
  exact step_suspended hst.2 hstack ((Machine.withHistory_ok_iff _ _).mp h).1

theorem run_attributed {stdin : List String} {ticks : List Unit} {st : State}
    {last : Option (String × String)}
    (h : loginStep.run (launch stdin, none) ticks = .ok (st, last)) : Attributed (st, last) :=
  loginStep_preserves_attributed.run_any (s := (launch stdin, none))
    ⟨Globals.wellFormed_initial, .inl rfl⟩ h

/-- A menu is shown from the loop over its account. -/
theorem run_whileTrue {stdin : List String} {ticks : List Unit} {st : State}
    (h : step.run (launch stdin) ticks = .ok st) {row : ℕ} (hcontrol : st.control = .printMenu row) :
    st.stack.head? = some (.whileTrue row) := by
  obtain ⟨last, hlast⟩ := Machine.exists_run_withHistory step recordLogin h none
  obtain ⟨row', stack, hstack, hrow, -⟩ :=
    (run_attributed hlast).2.resolve_left (by simp [hcontrol])
  rw [hstack, hrow row hcontrol]
  rfl

/-- Commands are executed from a menu. -/
theorem State.control_of_command {st : State} (h : st.command ≠ .other) :
    ∃ row, st.control = .printMenu row := by
  unfold State.command at h
  split at h
  · exact ⟨_, ‹_›⟩
  · exact absurd rfl h

/-- The menu that executes a command is that of the account of the last login; and from a call of
`loginMenu()` on no frame below it is ever resumed. -/
theorem run_lastLogin {stdin : List String} {ticks : List Unit} {st : State}
    {last : Option (String × String)}
    (h : loginStep.run (launch stdin, none) ticks = .ok (st, last)) :
    (st.command ≠ .other → ∃ row, st.control = .printMenu row) ∧
      (∀ row, st.control = .printMenu row → st.globals.HasLogin row last) ∧
      (st.control = .loginMenu → ∀ ticks' st' last',
        loginStep.run (st, last) ticks' = .ok (st', last') → Suspended st.stack st') := by
  have hst := run_attributed h
  refine ⟨State.control_of_command, ?_, ?_⟩
  · intro row hrow
    obtain ⟨row', stack, -, hrow', hlogin⟩ := hst.2.resolve_left (by simp [hrow])
    rw [hrow' row hrow]
    exact hlogin
  · intro hcontrol ticks' st' last' h'
    have hbegin : Suspended st.stack st := ⟨[], rfl, fun _ => hcontrol, by simp [hcontrol]⟩
    exact ((loginStep_preserves_suspended st.stack).run_any
      (s := (st, last)) ⟨hst, hbegin⟩ h').2

/-- Gaurav logs in and out; then a wrong username, a wrong password and Raj's login follow. -/
def Sample.logins : List String :=
  ["gaurav", "gaurav", "6", "nobody", "raj", "raj", "andy", "raj", "raj", "1"]

theorem run_lastLogin_raj :
    ∃ st last st' last', loginStep.run (launch Sample.logins, none) [(), ()] = .ok (st, last) ∧
      loginStep.run (launch Sample.logins, none) (List.replicate 5 ()) = .ok (st', last') ∧
      st.stack = [.printMenu, .whileTrue 0] ∧ Suspended st.stack st' ∧
      st'.control = .printMenu 2 ∧ last' = some ("raj", "raj") ∧ st'.globals.HasLogin 2 last' :=
  ⟨_, _, _, _, rfl, rfl, rfl,
    (@run_lastLogin Sample.logins [(), ()] _ _ rfl).2.2 rfl [(), (), ()] _ _ rfl, rfl, rfl,
    (@run_lastLogin Sample.logins (List.replicate 5 ()) _ _ rfl).2.1 2 rfl⟩

end Info6350.Assignment4
