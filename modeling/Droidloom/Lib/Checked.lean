/-
  Code with its panics.

  A plain embedding of indexing, slicing and machine arithmetic is total, so it cannot say that the
  code does not panic.  Here each such operation has a second outcome, `Halt.panic`, beside the
  errors that the code itself returns.  `Agrees R x y` relates such a checked computation `x` to a
  plain one `y`: `x` does not panic, the two fail with the same error, and if they succeed then with
  results related by `R`.  A checked function is compared with the plain one by walking down both
  bodies at once; a rule discharges the bound of one operation.
-/
import Droidloom.Lib.Fallible

namespace Checked

open Fallible

inductive Halt (ε : Type)
  | error (e : ε)
  | panic
deriving DecidableEq, Repr

variable {ε α β γ δ : Type}

/-! ## Operations -/

/-- `usize::MAX`. -/
def USIZE_MAX : Nat := 18446744073709551615

def add (a b : Nat) : Except (Halt ε) Nat :=
  if a + b ≤ USIZE_MAX then .ok (a + b) else .error .panic

def mul (a b : Nat) : Except (Halt ε) Nat :=
  if a * b ≤ USIZE_MAX then .ok (a * b) else .error .panic

def sub (a b : Nat) : Except (Halt ε) Nat := if b ≤ a then .ok (a - b) else .error .panic

/-- `items[start..stop]`. -/
def slice (items : List α) (start stop : Nat) : Except (Halt ε) (List α) :=
  if start ≤ stop ∧ stop ≤ items.length then .ok ((items.take stop).drop start) else .error .panic

/-- `items[start..]`. -/
def sliceFrom (items : List α) (start : Nat) : Except (Halt ε) (List α) :=
  slice items start items.length

/-- `items[i]`. -/
def index (items : List α) (i : Nat) : Except (Halt ε) α :=
  match items[i]? with
  | some a => .ok a
  | none => .error .panic

/-- `items[i] = a`. -/
def store (items : List α) (i : Nat) (a : α) : Except (Halt ε) (List α) :=
  if i < items.length then .ok (items.set i a) else .error .panic

/-- A computation that cannot panic. -/
def lift (x : Except ε α) : Except (Halt ε) α := mapErr Halt.error x

section Results

variable {a b c : Nat}

end Results

/-! ## Agreement with plain code -/

/-- The checked `x` does not panic and ends as the plain `y` does. -/
def Agrees (R : α → β → Prop) (x : Except (Halt ε) α) (y : Except ε β) : Prop :=
  match x, y with
  | .ok a, .ok b => R a b
  | .error (.error e), .error e' => e = e'
  | _, _ => False

variable {R : α → β → Prop} {S : γ → δ → Prop} {x : Except (Halt ε) α} {y : Except ε β}

theorem Agrees.of_ok {a : α} (h : Agrees R x y) (hx : x = .ok a) : ∃ b, y = .ok b ∧ R a b := by
  subst hx
  cases y with
  | error e => exact h.elim
  | ok b => exact ⟨b, rfl, h⟩

/-- Both sides take one step. -/
theorem Agrees.bind {f : α → Except (Halt ε) γ} {g : β → Except ε δ} (h : Agrees R x y)
    (hf : ∀ a b, y = .ok b → R a b → Agrees S (f a) (g b)) : Agrees S (x >>= f) (y >>= g) := by
  cases x with
  | error e =>
    cases y with
    | error e' =>
      cases e with
      | error e => exact h
      | panic => exact h
    | ok b => cases e <;> exact h.elim
  | ok a =>
    cases y with
    | error e' => exact h.elim
    | ok b => exact hf a b rfl h

variable {g : Except ε δ}

end Checked
