/-
  Cutting a text: at a character, at its blanks, into words.

  What is cut from a text and joined again reads as before: a cut finds its own separator
  (`splitOnce_append`, `rsplitOnce_append`), trimming twice trims once (`trim_trim`), and words
  joined by single blanks are found again (`words_join`).
-/
import Droidloom.Lib.TextLines

namespace TextLines

/-! ## At a character -/

section SplitOnce
variable {α : Type} [DecidableEq α] {c : α}

/-- What is before and after the first such character. -/
def splitOnce (c : α) : List α → Option (List α × List α)
  | [] => none
  | x :: rest =>
    if x = c then some ([], rest) else (splitOnce c rest).map fun cut => (x :: cut.1, cut.2)

theorem splitOnce_append {before : List α} (h : c ∉ before) (after : List α) :
    splitOnce c (before ++ c :: after) = some (before, after) := by
  induction before with
  | nil => simp [splitOnce]
  | cons x before ih =>
    have hx : x ≠ c := (List.ne_of_not_mem_cons h).symm
    rw [List.cons_append, splitOnce, if_neg hx, ih (List.not_mem_of_not_mem_cons h)]
    rfl

theorem splitOnce_eq_some {text before after : List α}
    (h : splitOnce c text = some (before, after)) : text = before ++ c :: after ∧ c ∉ before := by
  induction text generalizing before with
  | nil => cases h
  | cons x rest ih =>
    rw [splitOnce] at h
    split at h
    · rename_i hx
      obtain ⟨rfl, rfl⟩ := Prod.mk.inj (Option.some.inj h)
      exact ⟨by rw [hx]; rfl, List.not_mem_nil⟩
    · rename_i hx
      obtain ⟨⟨before', after'⟩, hcut, heq⟩ := Option.map_eq_some_iff.mp h
      obtain ⟨rfl, rfl⟩ := Prod.mk.inj heq
      obtain ⟨rfl, hnot⟩ := ih hcut
      exact ⟨rfl, List.not_mem_cons_of_ne_of_not_mem (Ne.symm hx) hnot⟩

theorem splitOnce_concat {d : α} (hne : d ≠ c) (line : List α) :
    splitOnce c (line ++ [d]) = (splitOnce c line).map fun cut => (cut.1, cut.2 ++ [d]) := by
  induction line with
  | nil => simp [splitOnce, hne]
  | cons x line ih =>
    rw [List.cons_append, splitOnce, splitOnce]
    split
    · rfl
    · rw [ih, Option.map_map, Option.map_map]
      rfl

end SplitOnce

/-- What is before and after the last such character. -/
def rsplitOnce (c : Char) (text : Text) : Option (Text × Text) :=
  (splitOnce c text.reverse).map fun cut => (cut.2.reverse, cut.1.reverse)

theorem rsplitOnce_append {c : Char} {after : Text} (before : Text) (h : c ∉ after) :
    rsplitOnce c (before ++ c :: after) = some (before, after) := by
  have hreverse : (before ++ c :: after).reverse = after.reverse ++ c :: before.reverse := by simp
  rw [rsplitOnce, hreverse, splitOnce_append (by simpa using h)]
  simp

theorem rsplitOnce_eq_some {c : Char} {text before after : Text}
    (h : rsplitOnce c text = some (before, after)) : text = before ++ c :: after := by
  obtain ⟨⟨last, first⟩, hcut, heq⟩ := Option.map_eq_some_iff.mp h
  obtain ⟨rfl, rfl⟩ := Prod.mk.inj heq
  have hreverse := congrArg List.reverse (splitOnce_eq_some hcut).1
  simpa using hreverse

def stripPrefix (start text : Text) : Option Text :=
  if start.isPrefixOf text then some (text.drop start.length) else none

def stripSuffix (final text : Text) : Option Text :=
  if final.isSuffixOf text then some (text.take (text.length - final.length)) else none

/-! ## Blanks -/

def trim (text : Text) : Text := (text.rdropWhile isWhitespace).dropWhile isWhitespace

/-- Neither the first nor the last character is blank. -/
def Trimmed (text : Text) : Prop :=
  (∀ c ∈ text.head?, isWhitespace c = false) ∧ ∀ c ∈ text.getLast?, isWhitespace c = false

theorem trim_eq_self {text : Text} (h : Trimmed text) : trim text = text := by
  have hlast : text.rdropWhile isWhitespace = text := by
    refine List.rdropWhile_eq_self_iff.mpr fun hne => ?_
    rw [h.2 _ (List.getLast?_eq_some_getLast hne)]
    exact Bool.false_ne_true
  rw [trim, hlast]
  cases text with
  | nil => rfl
  | cons c text => rw [List.dropWhile_cons_of_neg (by rw [h.1 c rfl]; exact Bool.false_ne_true)]

theorem trimmed_trim (text : Text) : Trimmed (trim text) := by
  have hhead : ∀ t : Text, ∀ c ∈ (t.dropWhile isWhitespace).head?, isWhitespace c = false := by
    intro t c hc
    have hfind := List.head?_dropWhile_not isWhitespace t
    rw [Option.mem_def.mp hc] at hfind
    simpa using hfind
  refine ⟨hhead _, fun c hc => ?_⟩
  -- the last character of what remains is that of the text cut at its end
  have hsuffix : trim text <:+ text.rdropWhile isWhitespace := List.dropWhile_suffix _
  obtain ⟨blanks, hblanks⟩ := hsuffix
  have hne : trim text ≠ [] := by
    intro hnil
    rw [hnil] at hc
    cases hc
  have hlast : (text.rdropWhile isWhitespace).getLast? = some c := by
    rw [← hblanks, List.getLast?_append_of_ne_nil _ hne]
    exact hc
  refine hhead text.reverse c ?_
  rw [List.rdropWhile, List.getLast?_reverse] at hlast
  exact hlast

theorem trim_trim (text : Text) : trim (trim text) = trim text := trim_eq_self (trimmed_trim text)

theorem trim_concat {c : Char} (text : Text) (h : isWhitespace c = true) :
    trim (text ++ [c]) = trim text := by
  rw [trim, List.rdropWhile_concat_pos _ _ _ h, trim]

/-! ## Words -/

/-- The words from the characters of the one at hand, the last one first. -/
def wordsFrom (word : Text) : Text → List Text
  | [] => if word = [] then [] else [word.reverse]
  | c :: rest =>
    if isWhitespace c then
      if word = [] then wordsFrom [] rest else word.reverse :: wordsFrom [] rest
    else wordsFrom (c :: word) rest

def words (text : Text) : List Text := wordsFrom [] text

def joinWords (ws : List Text) : Text := [' '].intercalate ws

structure IsWord (word : Text) : Prop where
  nonempty : word ≠ []
  solid : ∀ c ∈ word, isWhitespace c = false

theorem wordsFrom_append {word text : Text} (h : ∀ c ∈ text, isWhitespace c = false)
    (rest : Text) : wordsFrom word (text ++ rest) = wordsFrom (text.reverse ++ word) rest := by
  induction text generalizing word with
  | nil => rfl
  | cons c text ih =>
    have hc : ¬ isWhitespace c := by simp [h c List.mem_cons_self]
    rw [List.cons_append, wordsFrom, if_neg hc, ih fun d hd => h d (List.mem_cons_of_mem _ hd),
      List.reverse_cons, List.append_assoc]
    rfl

theorem isWord_of_mem_wordsFrom {word text : Text} (hword : ∀ c ∈ word, isWhitespace c = false) :
    ∀ w ∈ wordsFrom word text, IsWord w := by
  have hreverse : ∀ word : Text, (∀ c ∈ word, isWhitespace c = false) → word ≠ [] →
      IsWord word.reverse := fun word hsolid hne =>
    ⟨by simpa using hne, fun c hc => hsolid c (List.mem_reverse.mp hc)⟩
  induction text generalizing word with
  | nil =>
    intro w hw
    unfold wordsFrom at hw
    split at hw
    · cases hw
    · rw [List.mem_singleton.mp hw]
      exact hreverse word hword ‹_›
  | cons c rest ih =>
    unfold wordsFrom
    split
    · split
      · exact ih (by simp)
      · exact List.forall_mem_cons.mpr ⟨hreverse word hword ‹_›, ih (by simp)⟩
    · rename_i hc
      exact ih (List.forall_mem_cons.mpr ⟨by simpa using hc, hword⟩)

/-- **Words survive**. -/
theorem words_join {ws : List Text} (h : ∀ w ∈ ws, IsWord w) : words (joinWords ws) = ws := by
  unfold words joinWords
  induction ws with
  | nil => rfl
  | cons w ws ih =>
    have hw := h w List.mem_cons_self
    have hrest := ih fun other hmem => h other (List.mem_cons_of_mem _ hmem)
    have hne : w.reverse ≠ [] := by simpa using hw.nonempty
    cases ws with
    | nil =>
      have hone : wordsFrom [] (w ++ []) = wordsFrom (w.reverse ++ []) [] :=
        wordsFrom_append hw.solid []
      rw [List.append_nil, List.append_nil] at hone
      rw [List.intercalate_singleton, hone, wordsFrom, if_neg hne, List.reverse_reverse]
    | cons next ws =>
      rw [List.intercalate_cons_cons, List.append_assoc, wordsFrom_append hw.solid,
        List.append_nil, List.singleton_append, wordsFrom, if_pos (by decide), if_neg hne, hrest,
        List.reverse_reverse]

theorem trimmed_joinWords {ws : List Text} (h : ∀ w ∈ ws, IsWord w) : Trimmed (joinWords ws) := by
  unfold joinWords
  constructor
  · intro c hc
    cases ws with
    | nil => cases hc
    | cons w ws =>
      have hw := h w List.mem_cons_self
      have hhead : ([' '].intercalate (w :: ws)).head? = w.head? := by
        cases ws with
        | nil => rw [List.intercalate_singleton]
        | cons next ws =>
          rw [List.intercalate_cons_cons, List.append_assoc,
            List.head?_append_of_ne_nil _ hw.nonempty]
      rw [hhead] at hc
      exact hw.solid c (List.mem_of_head? hc)
  · induction ws with
    | nil => intro c hc; cases hc
    | cons w ws ih =>
      have hw := h w List.mem_cons_self
      cases ws with
      | nil =>
        rw [List.intercalate_singleton]
        exact fun c hc => hw.solid c (List.mem_of_getLast? hc)
      | cons next ws =>
        have hnext := h next (List.mem_cons_of_mem _ List.mem_cons_self)
        have hne : [' '].intercalate (next :: ws) ≠ [] := by
          cases ws with
          | nil => simpa [List.intercalate_singleton] using hnext.nonempty
          | cons other ws => simp [List.intercalate_cons_cons]
        rw [List.intercalate_cons_cons, List.getLast?_append_of_ne_nil _ hne]
        exact ih fun other hmem => h other (List.mem_cons_of_mem _ hmem)

end TextLines
