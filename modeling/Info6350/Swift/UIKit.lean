import Info6350.Swift.Basic

/-! # Text fields, alerts and handlers

A handler checks its inputs one after another.  The first check that fails shows
an error alert and returns, a bad subscript or an overflow traps, and otherwise
the handler runs to its last statement.  A form is the family of text fields of a
screen; the user types in the enabled ones and the program writes to all of them.
-/

namespace Info6350.Swift
open Library

structure UITextField where
  text : Option String
  isEnabled : Bool
deriving DecidableEq, Repr

/-- A text field as the storyboard loads it. -/
def UITextField.blank : UITextField := ⟨some "", true⟩

/-- The arguments of `showAlert(title:message:)`. -/
structure Alert where
  title : String
  message : String
deriving DecidableEq, Repr

/-- How a handler ends before its last statement: with an alert, by a `return`
without one, or by a trap. -/
inductive Exit where
  | alert (a : Alert)
  | silent
  | trap (t : Trap)
deriving DecidableEq, Repr

abbrev Handler (α : Type*) := Except Exit α

section Checks
variable {α : Type*} {message : String}

def fail (message : String) : Handler α := .error (.alert ⟨"Error", message⟩)

/-- `if c { showAlert(a); return }`. -/
def alertIf (c : Prop) [Decidable c] (a : Alert) : Handler Unit :=
  if c then .error (.alert a) else .ok ()

theorem alertIf_ok_iff {c : Prop} [Decidable c] {a : Alert} {u : Unit} :
    alertIf c a = .ok u ↔ ¬ c := by
  unfold alertIf
  split_ifs with h <;> simp [h]

/-- `if c { showAlert(title: "Error", message: message); return }`. -/
def refuseIf (c : Prop) [Decidable c] (message : String) : Handler Unit :=
  alertIf c ⟨"Error", message⟩

theorem refuseIf_ok_iff {c : Prop} [Decidable c] {u : Unit} :
    refuseIf c message = .ok u ↔ ¬ c :=
  alertIf_ok_iff

/-- `guard let text = tf.text else { ... }`. -/
def textOf (tf : UITextField) (message : String) : Handler String :=
  match tf.text with
  | some text => .ok text
  | none => fail message

theorem textOf_ok_iff {tf : UITextField} {text : String} :
    textOf tf message = .ok text ↔ tf.text = some text := by
  unfold textOf fail
  cases tf.text <;> simp

/-- The text of a field, refused with one message when it is nil or empty. -/
def nonEmptyText (tf : UITextField) (message : String) : Handler String :=
  textOf tf message >>= fun text => refuseIf (text = "") message >>= fun _ => .ok text

theorem nonEmptyText_ok_iff {tf : UITextField} {text : String} :
    nonEmptyText tf message = .ok text ↔ tf.text = some text ∧ text ≠ "" := by
  simp only [nonEmptyText, bind_ok_iff, textOf_ok_iff, refuseIf_ok_iff, Except.ok.injEq]
  constructor
  · rintro ⟨t, ht, _, hne, rfl⟩
    exact ⟨ht, hne⟩
  · rintro ⟨ht, hne⟩
    exact ⟨text, ht, (), hne, rfl⟩

/-- `Int(tf.text ?? "0")`. -/
def UITextField.int? (tf : UITextField) : Option ℤ := parseInt (tf.text.getD "0")

theorem UITextField.int?_of_text {tf : UITextField} {n m : ℤ} (h : tf.text = some (toString n)) :
    tf.int? = some m ↔ InRange n ∧ n = m := by
  rw [UITextField.int?, h, Option.getD_some, parseInt_toString, fits_eq_some_iff]

/-- `guard let n = Int(tf.text ?? "0") else { ... }`. -/
def intOf (tf : UITextField) (message : String) : Handler ℤ :=
  match tf.int? with
  | some n => .ok n
  | none => fail message

theorem intOf_ok_iff {tf : UITextField} {n : ℤ} :
    intOf tf message = .ok n ↔ tf.int? = some n := by
  unfold intOf fail
  cases tf.int? <;> simp

/-- An expression of the handler that may trap. -/
def trapping (x : Except Trap α) : Handler α := x.mapError .trap

theorem trapping_ok_iff {x : Except Trap α} {a : α} : trapping x = .ok a ↔ x = .ok a :=
  mapError_ok_iff

theorem trapping_error_iff {x : Except Trap α} {e : Exit} :
    trapping x = .error e ↔ ∃ t, x = .error t ∧ e = .trap t := by
  rcases x with t | b <;> simp [trapping, Except.mapError, eq_comm]

theorem trapping_trap_iff {x : Except Trap α} {t : Trap} :
    trapping x = .error (.trap t) ↔ x = .error t := by
  rcases x with t' | b <;> simp [trapping, Except.mapError]

/-- Every way in which the handler stops satisfies `E`. -/
def Stops (E : Exit → Prop) (h : Handler α) : Prop := ∀ e, h = .error e → E e

/-- A property of exits that failed checks satisfy. -/
class FailedChecks (E : Exit → Prop) : Prop where
  alert : ∀ message, E (.alert ⟨"Error", message⟩)

def Exit.Refusal : Exit → Prop
  | .alert a => a.title = "Error"
  | _ => True

def Exit.OverflowOnly : Exit → Prop
  | .trap t => t = .overflow
  | _ => True

def Exit.IndexOnly : Exit → Prop
  | .trap t => t = .indexOutOfRange
  | _ => True

def Exit.Trapless : Exit → Prop
  | .trap _ => False
  | _ => True

def Exit.Unsuccessful : Exit → Prop
  | .alert a => a.title ≠ "Success"
  | _ => True

instance : FailedChecks Exit.Refusal := ⟨fun _ => rfl⟩
instance : FailedChecks Exit.OverflowOnly := ⟨fun _ => trivial⟩
instance : FailedChecks Exit.IndexOnly := ⟨fun _ => trivial⟩
instance : FailedChecks Exit.Trapless := ⟨fun _ => trivial⟩

abbrev Refuses (h : Handler α) : Prop := Stops Exit.Refusal h

section Stops
variable {E : Exit → Prop}

theorem stops_ok (a : α) : Stops E (.ok a : Handler α) := fun _ h => by cases h

theorem stops_pure (a : α) : Stops E (pure a : Handler α) := stops_ok a

theorem Stops.bind {α β : Type} {h : Handler α} {f : α → Handler β} (hh : Stops E h)
    (hf : ∀ a, Stops E (f a)) : Stops E (h >>= f) := by
  intro e he
  rcases bind_error_iff.mp he with he | ⟨b, _, he⟩
  · exact hh e he
  · exact hf b e he

theorem Stops.mono {E' : Exit → Prop} {h : Handler α} (hh : Stops E h) (hE : ∀ e, E e → E' e) :
    Stops E' h :=
  fun e he => hE e (hh e he)

/-- After a handler that does not trap, a trap is one of what follows. -/
theorem Stops.bind_trap_iff {α β : Type} {h : Handler α} {f : α → Handler β} {t : Trap}
    (hh : Stops Exit.Trapless h) :
    (h >>= f) = .error (.trap t) ↔ ∃ a, h = .ok a ∧ f a = .error (.trap t) := by
  rw [bind_error_iff]
  exact or_iff_right fun herror => hh _ herror

theorem stops_alertIf {c : Prop} [Decidable c] {a : Alert} (ha : E (.alert a)) :
    Stops E (alertIf c a) := by
  unfold alertIf
  split_ifs
  · intro e he
    obtain rfl := Except.error.inj he
    exact ha
  · exact stops_ok ()

theorem stops_trapping {x : Except Trap α} (hx : ∀ t, x = .error t → E (.trap t)) :
    Stops E (trapping x) := by
  intro e he
  obtain ⟨t, ht, rfl⟩ := trapping_error_iff.mp he
  exact hx t ht

theorem stops_silent (hE : E .silent) : Stops E (.error .silent : Handler α) := by
  intro e he
  obtain rfl := Except.error.inj he
  exact hE

theorem refuses_silent : Refuses (.error .silent : Handler α) := stops_silent trivial

theorem refuses_trapping (x : Except Trap α) : Refuses (trapping x) :=
  stops_trapping fun _ _ => trivial

theorem Refuses.unsuccessful {h : Handler α} (hh : Refuses h) : Stops Exit.Unsuccessful h := by
  refine hh.mono fun e he => ?_
  cases e with
  | alert a =>
    have ha : a.title = "Error" := he
    change a.title ≠ "Success"
    rw [ha]
    decide
  | silent => trivial
  | trap t => trivial

variable [FailedChecks E]

theorem stops_fail (message : String) : Stops E (fail message : Handler α) := by
  intro e he
  obtain rfl := Except.error.inj he
  exact FailedChecks.alert message

theorem stops_refuseIf (c : Prop) [Decidable c] (message : String) :
    Stops E (refuseIf c message) :=
  stops_alertIf (FailedChecks.alert message)

theorem stops_textOf (tf : UITextField) (message : String) : Stops E (textOf tf message) := by
  unfold textOf
  cases tf.text with
  | none => exact stops_fail message
  | some text => exact stops_ok text

theorem stops_nonEmptyText (tf : UITextField) (message : String) :
    Stops E (nonEmptyText tf message) :=
  (stops_textOf tf message).bind fun _ => (stops_refuseIf _ message).bind fun _ => stops_ok _

theorem stops_intOf (tf : UITextField) (message : String) : Stops E (intOf tf message) := by
  unfold intOf
  cases tf.int? with
  | none => exact stops_fail message
  | some n => exact stops_ok n

theorem refuseIf_bind_trap_iff {β : Type} {c : Prop} [Decidable c] {h : Handler β} {t : Trap} :
    (refuseIf c message >>= fun _ => h) = .error (.trap t) ↔ ¬ c ∧ h = .error (.trap t) := by
  rw [(stops_refuseIf c message).bind_trap_iff]
  simp [refuseIf_ok_iff]

end Stops

/-- Run a handler for its effect: it finishes, it stays with the alerts shown, or it traps. -/
def settle {β : Type*} (finish : α → β) (stay : List Alert → β) : Handler α → Except Trap β
  | .ok a => .ok (finish a)
  | .error (.alert a) => .ok (stay [a])
  | .error .silent => .ok (stay [])
  | .error (.trap t) => .error t

theorem settle_ok {β : Type*} {finish : α → β} {stay : List Alert → β} {h : Handler α} {b : β}
    (hs : settle finish stay h = .ok b) :
    (∃ a, h = .ok a ∧ b = finish a) ∨ ∃ alerts, b = stay alerts := by
  rcases h with (a | _ | t) | a
  · exact .inr ⟨[a], (Except.ok.inj hs).symm⟩
  · exact .inr ⟨[], (Except.ok.inj hs).symm⟩
  · cases hs
  · exact .inl ⟨a, rfl, (Except.ok.inj hs).symm⟩

theorem settle_unsuccessful {β : Type*} {finish : α → β} {stay : List Alert → β} {h : Handler α}
    {b : β} (hh : Stops Exit.Unsuccessful h) (hs : settle finish stay h = .ok b) :
    (∃ a, h = .ok a ∧ b = finish a) ∨
      ∃ alerts, (∀ a ∈ alerts, a.title ≠ "Success") ∧ b = stay alerts := by
  rcases h with (a | _ | t) | a
  · have ha : a.title ≠ "Success" := hh _ rfl
    exact .inr ⟨[a], List.forall_mem_singleton.mpr ha, (Except.ok.inj hs).symm⟩
  · exact .inr ⟨[], List.forall_mem_nil _, (Except.ok.inj hs).symm⟩
  · cases hs
  · exact .inl ⟨a, rfl, (Except.ok.inj hs).symm⟩

/-- Only a trap of the handler stops the program. -/
theorem settle_error_iff {β : Type*} {finish : α → β} {stay : List Alert → β} {h : Handler α}
    {t : Trap} : settle finish stay h = .error t ↔ h = .error (.trap t) := by
  rcases h with (a | _ | t') | a <;> simp [settle]

theorem settle_ne_overflow {β : Type*} {finish : α → β} {stay : List Alert → β} {h : Handler α}
    (hh : Stops Exit.IndexOnly h) : settle finish stay h ≠ .error .overflow := by
  intro hs
  cases hh _ (settle_error_iff.mp hs)

theorem settle_inRange {β : Type*} {finish : α → β} {stay : List Alert → β} {h : Handler α}
    (hh : Stops Exit.OverflowOnly h) : settle finish stay h ≠ .error .indexOutOfRange := by
  intro hs
  cases hh _ (settle_error_iff.mp hs)

end Checks

/-- The text fields of a screen. -/
abbrev Form (φ : Type*) := φ → UITextField

namespace Form
variable {φ : Type*} [DecidableEq φ]

def blank : Form φ := fun _ => .blank

/-- The user types in a field; a disabled field cannot be edited. -/
def type (f : φ) (text : String) (form : Form φ) : Form φ :=
  if (form f).isEnabled then Function.update form f { form f with text := some text } else form

/-- The program assigns the text of a field. -/
def setText (f : φ) (text : String) (form : Form φ) : Form φ :=
  Function.update form f { form f with text := some text }

def disable (f : φ) (form : Form φ) : Form φ :=
  Function.update form f { form f with isEnabled := false }

theorem type_of_disabled {f : φ} {form : Form φ} (h : (form f).isEnabled = false)
    (text : String) : form.type f text = form := by
  simp [type, h]

theorem type_of_ne {f g : φ} (hg : g ≠ f) (text : String) (form : Form φ) :
    form.type f text g = form g := by
  unfold type
  split_ifs
  · exact Function.update_of_ne hg _ _
  · rfl

@[simp] theorem type_isEnabled (f g : φ) (text : String) (form : Form φ) :
    (form.type f text g).isEnabled = (form g).isEnabled := by
  unfold type
  split_ifs
  · by_cases hg : g = f
    · subst hg
      simp
    · simp [hg]
  · rfl

theorem type_text {f : φ} {form : Form φ} (h : (form f).isEnabled = true) (text : String) :
    (form.type f text f).text = some text := by
  simp [type, h]

@[simp] theorem setText_self (f : φ) (text : String) (form : Form φ) :
    (form.setText f text f).text = some text := by
  simp [setText]

@[simp] theorem setText_isEnabled (f g : φ) (text : String) (form : Form φ) :
    (form.setText f text g).isEnabled = (form g).isEnabled := by
  by_cases hg : g = f
  · subst hg
    simp [setText]
  · simp [setText, hg]

theorem setText_of_ne {f g : φ} (hg : g ≠ f) (text : String) (form : Form φ) :
    form.setText f text g = form g :=
  Function.update_of_ne hg _ _

@[simp] theorem disable_self (f : φ) (form : Form φ) :
    form.disable f f = { form f with isEnabled := false } :=
  Function.update_self _ _ _

end Form
end Info6350.Swift
