/-
  Texts as lines: what is printed line by line is read back line by line.

  Reading takes a carriage return before a line feed as part of the line's end, and a text without
  a final line feed has a last line all the same.  Lines that hold no line feed survive, but for a
  final carriage return (`lines_unlines_chomp`).
-/
import Mathlib

namespace TextLines

abbrev Text := List Char

/-- The characters of Unicode's `White_Space`. -/
def isWhitespace (c : Char) : Bool :=
  (9 ≤ c.toNat && c.toNat ≤ 13) || (0x2000 ≤ c.toNat && c.toNat ≤ 0x200a) ||
    [0x20, 0x85, 0xa0, 0x1680, 0x2028, 0x2029, 0x202f, 0x205f, 0x3000].contains c.toNat

/-- A line from its characters, the last one first, at a line feed. -/
def endLine : Text → Text
  | '\r' :: before => before.reverse
  | before => before.reverse

def linesFrom (before : Text) : Text → List Text
  | [] => if before = [] then [] else [before.reverse]
  | c :: rest =>
    if c = '\n' then endLine before :: linesFrom [] rest else linesFrom (c :: before) rest

def lines (text : Text) : List Text := linesFrom [] text

def unlines (ls : List Text) : Text := ls.flatMap (· ++ ['\n'])

theorem endLine_reverse {line : Text} (h : line.getLast? ≠ some '\r') :
    endLine line.reverse = line := by
  unfold endLine
  split
  · rename_i before heq
    rw [← List.head?_reverse, heq] at h
    exact absurd rfl h
  · exact List.reverse_reverse line

theorem linesFrom_append {before line : Text} (rest : Text) (h : '\n' ∉ line) :
    linesFrom before (line ++ '\n' :: rest) =
      endLine (line.reverse ++ before) :: linesFrom [] rest := by
  induction line generalizing before with
  | nil => rfl
  | cons c line ih =>
    have hc : c ≠ '\n' := (List.ne_of_not_mem_cons h).symm
    rw [List.cons_append, linesFrom, if_neg hc, ih (List.not_mem_of_not_mem_cons h),
      List.reverse_cons, List.append_assoc]
    rfl

/-- A line without the carriage return at its end, if there is one. -/
def chomp (line : Text) : Text := endLine line.reverse

theorem chomp_concat (line : Text) : chomp (line ++ ['\r']) = line := by
  simp [chomp, endLine]

theorem chomp_eq (line : Text) : chomp line = line ∨ line = chomp line ++ ['\r'] := by
  rcases List.eq_nil_or_concat line with rfl | ⟨before, c, hline⟩
  · exact .inl rfl
  · rw [List.concat_eq_append] at hline
    subst hline
    by_cases hc : c = '\r'
    · subst hc
      exact .inr (by rw [chomp_concat])
    · exact .inl (endLine_reverse (by simpa using hc))

theorem lines_unlines_chomp {ls : List Text} (h : ∀ line ∈ ls, '\n' ∉ line) :
    lines (unlines ls) = ls.map chomp := by
  induction ls with
  | nil => rfl
  | cons line ls ih =>
    have hcons : unlines (line :: ls) = line ++ '\n' :: unlines ls := by simp [unlines]
    have hrest := ih fun other hmem => h other (List.mem_cons_of_mem _ hmem)
    rw [hcons, lines, linesFrom_append _ (h line List.mem_cons_self), List.append_nil,
      List.map_cons, ← hrest]
    rfl

theorem not_mem_linesFrom {before text : Text} (h : '\n' ∉ before) :
    ∀ line ∈ linesFrom before text, '\n' ∉ line := by
  induction text generalizing before with
  | nil =>
    unfold linesFrom
    split
    · simp
    · simpa using h
  | cons c text ih =>
    unfold linesFrom
    split
    · refine List.forall_mem_cons.mpr ⟨?_, ih List.not_mem_nil⟩
      unfold endLine
      split <;> simp_all
    · rename_i hc
      exact ih (List.not_mem_cons_of_ne_of_not_mem (Ne.symm hc) h)

@[simp] theorem unlines_append (a b : List Text) : unlines (a ++ b) = unlines a ++ unlines b :=
  List.flatMap_append

end TextLines
