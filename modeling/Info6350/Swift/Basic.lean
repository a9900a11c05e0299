import Info6350.Library.Machine
import Mathlib.Data.List.GetD
import Mathlib.Tactic

/-! # What the sources use of Swift

Integer arithmetic on 64 bits, array subscripts and forced unwrapping trap; `Int(text)` reads an
optional sign and decimal digits and is nil on anything else, overflow included.
-/

namespace Info6350.Swift
open Library

variable {α : Type*}

/-- The run-time errors that end a program. -/
inductive Trap where
  | indexOutOfRange
  | overflow
  | unwrappedNil
deriving DecidableEq, Repr

/-- The values of a 64-bit `Int`. -/
def InRange (n : ℤ) : Prop := -2 ^ 63 ≤ n ∧ n < 2 ^ 63

instance (n : ℤ) : Decidable (InRange n) := inferInstanceAs (Decidable (_ ∧ _))

/-- The result of an arithmetic operation, or the trap on overflow. -/
def checked (n : ℤ) : Except Trap ℤ := if InRange n then .ok n else .error .overflow

def addInt (a b : ℤ) : Except Trap ℤ := checked (a + b)

def mulInt (a b : ℤ) : Except Trap ℤ := checked (a * b)

theorem checked_ok_iff {n m : ℤ} : checked n = .ok m ↔ InRange n ∧ n = m := by
  unfold checked
  split_ifs with h <;> simp [h]

theorem checked_error {n : ℤ} {t : Trap} (h : checked n = .error t) : t = .overflow := by
  unfold checked at h
  split_ifs at h
  exact (Except.error.inj h).symm

theorem checked_overflow_iff {n : ℤ} : checked n = .error .overflow ↔ ¬ InRange n := by
  unfold checked
  split_ifs with h <;> simp [h]

theorem addInt_ok_iff {a b m : ℤ} : addInt a b = .ok m ↔ InRange (a + b) ∧ a + b = m :=
  checked_ok_iff

theorem mulInt_ok_iff {a b m : ℤ} : mulInt a b = .ok m ↔ InRange (a * b) ∧ a * b = m :=
  checked_ok_iff

/-- The array subscript `l[i]`. -/
def subscript (l : List α) (i : ℤ) : Except Trap α :=
  if i < 0 then .error .indexOutOfRange else
    match l[i.toNat]? with
    | some x => .ok x
    | none => .error .indexOutOfRange

theorem subscript_natCast (l : List α) (n : ℕ) {x : α} :
    subscript l n = .ok x ↔ l[n]? = some x := by
  have hn : ¬ (n : ℤ) < 0 := by omega
  rw [subscript, if_neg hn, Int.toNat_natCast]
  cases h : l[n]? <;> simp

theorem subscript_ok_iff {l : List α} {i : ℤ} {x : α} :
    subscript l i = .ok x ↔ ∃ n : ℕ, i = n ∧ l[n]? = some x := by
  constructor
  · intro h
    by_cases hi : i < 0
    · simp [subscript, hi] at h
    · have hi : ((i.toNat : ℕ) : ℤ) = i := Int.toNat_of_nonneg (by omega)
      refine ⟨i.toNat, hi.symm, ?_⟩
      rw [← hi] at h
      exact (subscript_natCast l _).mp h
  · rintro ⟨n, rfl, h⟩
    exact (subscript_natCast l n).mpr h

theorem subscript_mem {l : List α} {i : ℤ} {x : α} (h : subscript l i = .ok x) : x ∈ l := by
  obtain ⟨n, _, h⟩ := subscript_ok_iff.mp h
  exact List.mem_of_getElem? h

theorem subscript_error {l : List α} {i : ℤ} {t : Trap} (h : subscript l i = .error t) :
    t = .indexOutOfRange := by
  unfold subscript at h
  split_ifs at h
  · exact (Except.error.inj h).symm
  · split at h
    · cases h
    · exact (Except.error.inj h).symm

theorem subscript_error_iff {l : List α} {i : ℤ} {t : Trap} :
    subscript l i = .error t ↔ t = .indexOutOfRange ∧ ¬ (0 ≤ i ∧ i < l.length) := by
  constructor
  · intro h
    refine ⟨subscript_error h, fun ⟨h0, hlt⟩ => ?_⟩
    have hn : i.toNat < l.length := by omega
    have hok : subscript l i = .ok l[i.toNat] :=
      subscript_ok_iff.mpr ⟨i.toNat, (Int.toNat_of_nonneg h0).symm, List.getElem?_eq_getElem hn⟩
    rw [hok] at h
    cases h
  · rintro ⟨rfl, hi⟩
    cases h : subscript l i with
    | error t => rw [subscript_error h]
    | ok x =>
      obtain ⟨n, rfl, hx⟩ := subscript_ok_iff.mp h
      have hn : n < l.length := (List.getElem?_eq_some_iff.mp hx).choose
      exact absurd ⟨by omega, by exact_mod_cast hn⟩ hi

theorem subscript_natCast_error_iff {l : List α} {n : ℕ} {t : Trap} :
    subscript l n = .error t ↔ t = .indexOutOfRange ∧ ¬ n < l.length := by
  rw [subscript_error_iff]
  refine and_congr_right fun _ => not_congr ?_
  exact ⟨fun h => by exact_mod_cast h.2, fun h => ⟨by omega, by exact_mod_cast h⟩⟩

/-- Mutation in place through a subscript, `l[i].field = value`. -/
def modifyAt (l : List α) (i : ℤ) (f : α → α) : Except Trap (List α) :=
  (subscript l i).map fun x => l.set i.toNat (f x)

theorem modifyAt_ok_iff {l m : List α} {i : ℤ} {f : α → α} :
    modifyAt l i f = .ok m ↔ ∃ (n : ℕ) (x : α), i = n ∧ l[n]? = some x ∧ m = l.set n (f x) := by
  rw [modifyAt, map_ok_iff]
  constructor
  · rintro ⟨x, hs, rfl⟩
    obtain ⟨n, rfl, hx⟩ := subscript_ok_iff.mp hs
    exact ⟨n, x, rfl, hx, rfl⟩
  · rintro ⟨n, x, rfl, hx, rfl⟩
    exact ⟨x, (subscript_natCast l n).mpr hx, rfl⟩

theorem modifyAt_natCast {l m : List α} {n : ℕ} {f : α → α} :
    modifyAt l n f = .ok m ↔ n < l.length ∧ m = l.modify n f := by
  have hset : ∀ {x}, l[n]? = some x → l.set n (f x) = l.modify n f := by
    intro x hx
    have : Inhabited α := ⟨x⟩
    rw [List.modify_eq_set, hx, Option.getD_some]
  rw [modifyAt, map_ok_iff]
  constructor
  · rintro ⟨x, hs, rfl⟩
    have hx := (subscript_natCast l n).mp hs
    exact ⟨(List.getElem?_eq_some_iff.mp hx).choose, hset hx⟩
  · rintro ⟨hn, rfl⟩
    have hx := List.getElem?_eq_getElem hn
    exact ⟨_, (subscript_natCast l n).mpr hx, hset hx⟩

/-- `l.remove(at: i)`. -/
def removeAt (l : List α) (i : ℤ) : Except Trap (List α) :=
  (subscript l i).map fun _ => l.eraseIdx i.toNat

theorem removeAt_natCast {l m : List α} {n : ℕ} :
    removeAt l n = .ok m ↔ n < l.length ∧ m = l.eraseIdx n := by
  rw [removeAt, map_ok_iff]
  constructor
  · rintro ⟨x, hs, rfl⟩
    exact ⟨(List.getElem?_eq_some_iff.mp ((subscript_natCast l n).mp hs)).choose, rfl⟩
  · rintro ⟨hn, rfl⟩
    exact ⟨_, (subscript_natCast l n).mpr (List.getElem?_eq_getElem hn), rfl⟩

/-- Forced unwrapping, `x!`. -/
def unwrap : Option α → Except Trap α
  | some x => .ok x
  | none => .error .unwrappedNil

theorem unwrap_ok_iff {o : Option α} {x : α} : unwrap o = .ok x ↔ o = some x := by
  cases o <;> simp [unwrap]

def parseNat (digits : List Char) : Option ℕ :=
  if digits ≠ [] ∧ digits.all Char.isDigit then some (Nat.ofDigitChars 10 digits 0) else none

def fits (n : ℤ) : Option ℤ := if InRange n then some n else none

theorem fits_eq_some_iff {n m : ℤ} : fits n = some m ↔ InRange n ∧ n = m := by
  unfold fits
  split_ifs with h <;> simp [h]

/-- The failable initialiser `Int(text)`. -/
def parseInt (text : String) : Option ℤ :=
  match text.toList with
  | '-' :: digits => (parseNat digits).bind fun n => fits (-n)
  | '+' :: digits => (parseNat digits).bind fun n => fits n
  | digits => (parseNat digits).bind fun n => fits n

example : parseInt "+12" = some 12 ∧ parseInt "-7" = some (-7) ∧ parseInt "1a" = none ∧
    parseInt "" = none ∧ parseInt "9223372036854775808" = none := by decide

/-! Decimal texts are read back. -/

theorem parseNat_toDigits (n : ℕ) : parseNat (Nat.toDigits 10 n) = some n := by
  have hdigits : (Nat.toDigits 10 n).all Char.isDigit = true :=
    List.all_eq_true.mpr fun c hc => Nat.isDigit_of_mem_toDigits (by decide) (by decide) hc
  rw [parseNat, if_pos ⟨Nat.toDigits_ne_nil, hdigits⟩, Nat.ofDigitChars_ten_toDigits]

theorem parseInt_repr (n : ℕ) : parseInt n.repr = fits n := by
  have hdigit : ∀ c ∈ Nat.toDigits 10 n, c.isDigit = true :=
    fun c hc => Nat.isDigit_of_mem_toDigits (by decide) (by decide) hc
  have hparse := parseNat_toDigits n
  unfold parseInt
  rw [Nat.toList_repr]
  split
  · rename_i digits hsign
    exact absurd (hdigit '-' (hsign ▸ List.mem_cons_self)) (by decide)
  · rename_i digits hsign
    exact absurd (hdigit '+' (hsign ▸ List.mem_cons_self)) (by decide)
  · rw [hparse, Option.bind_some]

theorem parseInt_neg_repr (n : ℕ) : parseInt ("-" ++ n.repr) = fits (-n) := by
  unfold parseInt
  rw [String.toList_append, Nat.toList_repr]
  change (parseNat (Nat.toDigits 10 n)).bind _ = _
  rw [parseNat_toDigits, Option.bind_some]

/-- The text of an integer is read back, unless it does not fit. -/
theorem parseInt_toString (n : ℤ) : parseInt (toString n) = fits n := by
  rw [Int.toString_eq_repr, Int.repr_eq_if]
  split_ifs with hn
  · rw [parseInt_repr, Int.toNat_of_nonneg hn]
  · rw [parseInt_neg_repr, Int.toNat_of_nonneg (by omega), neg_neg]

end Info6350.Swift
