import Info6350.Swift.Basic

/-! # Console programs

A program reads lines from the standard input and prints to the standard output; its
global variables are a value of a type that each program chooses.  At the end of the
input `readLine()` returns nil, as often as it is called.
-/

namespace Info6350.Swift
open Library

/-- Why a process ends: `exit(0)`, the end of the script, or a trap. -/
inductive Halt where
  | exit
  | trap (t : Trap)
deriving DecidableEq, Repr

/-- The global variables, the lines still to be read and the texts printed. -/
structure Process (σ : Type) where
  globals : σ
  stdin : List String
  stdout : List String

/-- A statement of a program with global variables `σ`. -/
abbrev Program (σ α : Type) := StateT (Process σ) (Except Halt) α

namespace Program
variable {σ α β : Type}

def print (text : String) : Program σ Unit :=
  modify fun p => { p with stdout := p.stdout ++ [text] }

def printAll (texts : List String) : Program σ Unit :=
  modify fun p => { p with stdout := p.stdout ++ texts }

def readLine : Program σ (Option String) :=
  modifyGet fun p => (p.stdin.head?, { p with stdin := p.stdin.tail })

/-- `exit(0)`. -/
def exit : Program σ α := throw .exit

def globals : Program σ σ := modifyGet fun p => (p.globals, p)

def assign (g : σ) : Program σ Unit := modify fun p => { p with globals := g }

/-- An expression that may trap. -/
def evaluate (x : Except Trap α) : Program σ α := StateT.lift (x.mapError .trap)

section Run
variable {p p' : Process σ} {a : α} {b : β}

theorem bind_ok_iff {x : Program σ α} {f : α → Program σ β} :
    (x >>= f) p = .ok (b, p') ↔ ∃ a q, x p = .ok (a, q) ∧ f a q = .ok (b, p') := by
  change (x p >>= fun r => f r.1 r.2) = _ ↔ _
  rw [Library.bind_ok_iff]
  exact Prod.exists

theorem pure_ok_iff {a' : α} : (pure a : Program σ α) p = .ok (a', p') ↔ a = a' ∧ p = p' := by
  change Except.ok (a, p) = _ ↔ _
  simp

theorem evaluate_bind_ok_iff {x : Except Trap α} {f : α → Program σ β} :
    (evaluate x >>= f) p = .ok (b, p') ↔ ∃ a, x = .ok a ∧ f a p = .ok (b, p') := by
  rcases x with t | a
  · constructor
    · intro h
      cases h
    · rintro ⟨a, h, -⟩
      cases h
  · constructor
    · exact fun h => ⟨a, rfl, h⟩
    · rintro ⟨a', h, h'⟩
      cases h
      exact h'

theorem print_bind (text : String) (f : Unit → Program σ β) (p : Process σ) :
    (print text >>= f) p = f () { p with stdout := p.stdout ++ [text] } := rfl

theorem readLine_bind (f : Option String → Program σ β) (p : Process σ) :
    (readLine >>= f) p = f p.stdin.head? { p with stdin := p.stdin.tail } := rfl

theorem globals_bind (f : σ → Program σ β) (p : Process σ) :
    (globals >>= f) p = f p.globals p := rfl

end Run
end Program
end Info6350.Swift
