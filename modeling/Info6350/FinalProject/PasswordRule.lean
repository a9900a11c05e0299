import Info6350.Library.Regex

/-! # The password check

`Utilities.passwordValid` asks a regular expression for a lowercase letter and a special character
in at least eight characters; the message that is shown otherwise asks for a special character and
a number.
-/

namespace Info6350.FinalProject
open Library

/-! ## Character classes -/

/-- The line terminators, which `.` does not read. -/
def lineTerminator (c : Char) : Bool :=
  [0x0A, 0x0B, 0x0C, 0x0D, 0x85, 0x2028, 0x2029].contains c.toNat

/-- A range such as `a-z`. -/
def between (first last c : Char) : Bool :=
  decide (first.toNat ≤ c.toNat) && decide (c.toNat ≤ last.toNat)

theorem between_iff {first last c : Char} :
    between first last c = true ↔ first.toNat ≤ c.toNat ∧ c.toNat ≤ last.toNat := by
  simp [between]

theorem lineTerminator_of_printable {c : Char} (hle : 0x20 ≤ c.toNat) (hge : c.toNat ≤ 0x7E) :
    lineTerminator c = false := by
  simp [lineTerminator]
  omega

/-- `[$@$#!%*?&]`. -/
def special (c : Char) : Bool := "$@$#!%*?&".toList.contains c

section Password
variable (decimal : Char → Bool)

/-- `[A-Za-z\d$@$#!%*?&]`; what `\d` reads is in the tables of the regular expression engine. -/
def passwordChar (c : Char) : Bool :=
  between 'A' 'Z' c || between 'a' 'z' c || decimal c || special c

/-- `(?=.*[p])`. -/
def contains (p : Char → Bool) : Regex Char :=
  .ahead (.seq (.star (.chars fun c => !lineTerminator c)) (.chars p))

/-- `^(?=.*[a-z])(?=.*[$@$#!%*?&])[A-Za-z\d$@$#!%*?&]{8,}`. -/
def passwordRegex : Regex Char :=
  .seq .start (.seq (contains (between 'a' 'z')) (.seq (contains special)
    ((Regex.chars (passwordChar decimal)).atLeast 8)))

def passwordValid (password : String) : Bool :=
  (passwordRegex decimal).fullMatch password.toList

/-- The message of `validateFields`: "Password must be min 8 characters, contains a special
character and a number." -/
def PasswordRule (password : String) : Prop :=
  8 ≤ password.length ∧ (∃ c ∈ password.toList, special c) ∧ ∃ c ∈ password.toList, decimal c

variable {decimal}

theorem not_lineTerminator_of_passwordChar (hdecimal : ∀ c, decimal c → lineTerminator c = false)
    {c : Char} (h : passwordChar decimal c) : lineTerminator c = false := by
  unfold passwordChar at h
  simp only [Bool.or_eq_true] at h
  rcases h with ((h | h) | h) | h
  · obtain ⟨hle, hge⟩ := between_iff.mp h
    exact lineTerminator_of_printable (le_trans (by decide) hle) (hge.trans (by decide))
  · obtain ⟨hle, hge⟩ := between_iff.mp h
    exact lineTerminator_of_printable (le_trans (by decide) hle) (hge.trans (by decide))
  · exact hdecimal c h
  · have hmem : c ∈ "$@$#!%*?&".toList := List.contains_iff_mem.mp h
    fin_cases hmem <;> rfl

theorem passwordValid_iff (hdecimal : ∀ c, decimal c → lineTerminator c = false)
    {password : String} :
    passwordValid decimal password = true ↔
      (∀ c ∈ password.toList, passwordChar decimal c) ∧ 8 ≤ password.length ∧
        (∃ c ∈ password.toList, between 'a' 'z' c) ∧ ∃ c ∈ password.toList, special c := by
  have hahead : ∀ {p : Char → Bool} {s t : List Char}, (∀ c ∈ s, passwordChar decimal c) →
      ((contains p).Reads password.toList s t ↔ t = s ∧ ∃ c ∈ s, p c) := by
    intro p s t hs
    refine Regex.reads_ahead_iff fun c hc => ?_
    rw [not_lineTerminator_of_passwordChar hdecimal (hs c hc), Bool.not_false]
  rw [passwordValid, Regex.fullMatch_iff, ← String.length_toList]
  constructor
  · rintro ⟨s, ⟨-, rfl⟩, s₁, hlower, s₂, hspecial, hchars⟩
    obtain rfl := hlower.1
    obtain rfl := hspecial.1
    obtain ⟨u, hu, hlength, hall⟩ := Regex.reads_atLeast_chars_iff.mp hchars
    rw [List.append_nil] at hu
    subst hu
    exact ⟨hall, hlength, ((hahead hall).mp hlower).2, ((hahead hall).mp hspecial).2⟩
  · rintro ⟨hall, hlength, hlower, hspecial⟩
    refine ⟨_, ⟨rfl, rfl⟩, _, (hahead hall).mpr ⟨rfl, hlower⟩, _,
      (hahead hall).mpr ⟨rfl, hspecial⟩, ?_⟩
    exact Regex.reads_atLeast_chars_iff.mpr ⟨_, (List.append_nil _).symm, hlength, hall⟩

/-- On passwords of letters, digits and the special characters, the check is the rule exactly if a
password that is long enough and has a special character has a lowercase letter just when it has
a digit. -/
theorem passwordValid_iff_rule_iff (hdecimal : ∀ c, decimal c → lineTerminator c = false)
    {password : String} (hp : ∀ c ∈ password.toList, passwordChar decimal c) :
    (passwordValid decimal password = true ↔ PasswordRule decimal password) ↔
      (8 ≤ password.length → (∃ c ∈ password.toList, special c) →
        ((∃ c ∈ password.toList, between 'a' 'z' c) ↔ ∃ c ∈ password.toList, decimal c)) := by
  rw [passwordValid_iff hdecimal, PasswordRule, and_iff_right hp]
  constructor
  · intro h hlength hspecial
    exact ⟨fun hlower => (h.mp ⟨hlength, hlower, hspecial⟩).2.2,
      fun hdigit => (h.mpr ⟨hlength, hspecial, hdigit⟩).2.1⟩
  · intro h
    constructor
    · rintro ⟨hlength, hlower, hspecial⟩
      exact ⟨hlength, hspecial, (h hlength hspecial).mp hlower⟩
    · rintro ⟨hlength, hspecial, hdigit⟩
      exact ⟨hlength, (h hlength hspecial).mpr hdigit, hspecial⟩

end Password

/-- A password without a number is accepted, and one without a lowercase letter is refused. -/
theorem passwordValid_differs :
    passwordValid Char.isDigit "abcdefg!" = true ∧ ¬ PasswordRule Char.isDigit "abcdefg!" ∧
    passwordValid Char.isDigit "ABCDEF1!" = false ∧ PasswordRule Char.isDigit "ABCDEF1!" := by
  have hnumber : "abcdefg!".toList.any Char.isDigit = false := by decide
  refine ⟨by decide, fun h => ?_, by decide, by decide, ⟨'!', by decide, by decide⟩, '1', by decide,
    by decide⟩
  cases hnumber.symm.trans (List.any_eq_true.mpr h.2.2)

theorem lineTerminator_of_isDigit (c : Char) (h : c.isDigit) : lineTerminator c = false := by
  obtain ⟨hle, hge⟩ := Char.isDigit_iff_toNat.mp h
  exact lineTerminator_of_printable (le_trans (by decide) hle) (hge.trans (by decide))

theorem passwordValid_iff_rule_iff_abcdefg :
    (passwordValid Char.isDigit "abcdefg!" = true ↔ PasswordRule Char.isDigit "abcdefg!") ↔
      (8 ≤ "abcdefg!".length → (∃ c ∈ "abcdefg!".toList, special c) →
        ((∃ c ∈ "abcdefg!".toList, between 'a' 'z' c) ↔ ∃ c ∈ "abcdefg!".toList, c.isDigit)) :=
  @passwordValid_iff_rule_iff Char.isDigit lineTerminator_of_isDigit "abcdefg!"
    (List.all_eq_true.mp (by decide))

end Info6350.FinalProject
