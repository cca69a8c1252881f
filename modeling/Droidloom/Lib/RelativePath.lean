/-
  Relative paths: lists of names, and their texts with slashes between.

  A text and the list of its components are two views of one path.  Splitting a text and joining
  the parts gives the text back, always; joining names and splitting the text gives the names back
  as long as no name is empty or has a slash (`Named`).  A name BETWEEN two slashes of the text is
  one that is neither the first nor the last component.
-/
import Mathlib

namespace RelativePath

abbrev Text := List Char

abbrev Path := List Text

def render (path : Path) : Text := ['/'].intercalate path

/-- The components of a text; the empty text has none. -/
def components (text : Text) : Path := if text = [] then [] else text.splitOn '/'

/-- No name is empty or has a slash. -/
def Named (path : Path) : Prop := ∀ name ∈ path, name ≠ [] ∧ '/' ∉ name

theorem render_singleton (name : Text) : render [name] = name := by
  simp [render, List.intercalate]

/-- A path is above another: names that it lacks, behind it, make the other. -/
def Above (path below : Path) : Prop := path ≠ [] ∧ ∃ rest, rest ≠ [] ∧ below = path ++ rest

/-! ## Two views of a path -/

theorem render_components (text : Text) : render (components text) = text := by
  unfold components
  split
  case isTrue hempty =>
    rw [hempty]
    rfl
  case isFalse => exact List.intercalate_splitOn '/'

theorem components_injective : Function.Injective components :=
  Function.LeftInverse.injective render_components

theorem render_ne_nil {path : Path} (h : Named path) (hne : path ≠ []) : render path ≠ [] := by
  match path, hne with
  | [name], _ =>
    rw [render_singleton]
    exact (h name List.mem_cons_self).1
  | name :: second :: rest, _ => simp [render, List.intercalate]

theorem components_render {path : Path} (h : Named path) : components (render path) = path := by
  by_cases hempty : path = []
  · subst hempty
    rfl
  · rw [components, if_neg (render_ne_nil h hempty)]
    exact List.splitOn_intercalate '/' (fun name hname => (h name hname).2) hempty

theorem render_eq_iff {path : Path} (h : Named path) {text : Text} :
    render path = text ↔ path = components text := by
  constructor
  · rintro rfl
    exact (components_render h).symm
  · rintro rfl
    exact render_components text

theorem render_append {front back : Path} (hfront : front ≠ []) (hback : back ≠ []) :
    render (front ++ back) = render front ++ '/' :: render back := by
  induction front with
  | nil => exact absurd rfl hfront
  | cons name rest ih =>
    cases rest with
    | nil =>
      obtain ⟨second, more, rfl⟩ := List.exists_cons_of_ne_nil hback
      simp [render, List.intercalate]
    | cons second more =>
      have hstep := ih (List.cons_ne_nil _ _)
      simp only [render, List.intercalate, List.cons_append, List.intersperse_cons_cons,
        List.flatten_cons, List.append_assoc] at hstep ⊢
      rw [hstep]

/-- **A name between two slashes** is a component that is neither the first nor the last. -/
theorem slashed_infix_iff {path : Path} (h : Named path) {name : Text} (hname : '/' ∉ name) :
    '/' :: (name ++ ['/']) <:+: render path ↔
      ∃ front back, front ≠ [] ∧ back ≠ [] ∧ path = front ++ name :: back := by
  constructor
  · rintro ⟨before, after, htext⟩
    have hne : path ≠ [] := by
      rintro rfl
      simp [render, List.intercalate] at htext
    have hsplit : (render path).splitOn '/' = path :=
      List.splitOn_intercalate '/' (fun part hpart => (h part hpart).2) hne
    have hcut : ∀ front back : Text,
        (front ++ '/' :: back).splitOn '/' = front.splitOn '/' ++ back.splitOn '/' :=
      fun front back => List.splitOnP_append_cons front back (by simp)
    have hsingle : (render [name]).splitOn '/' = [name] :=
      List.splitOn_intercalate '/' (by simpa using hname) (List.cons_ne_nil _ _)
    rw [render_singleton] at hsingle
    refine ⟨before.splitOn '/', after.splitOn '/', List.splitOn_ne_nil _ _,
      List.splitOn_ne_nil _ _, ?_⟩
    have hassoc : render path = before ++ '/' :: (name ++ '/' :: after) := by
      rw [← htext]
      simp
    rw [← hsplit, hassoc, hcut, hcut, hsingle]
    rfl
  · rintro ⟨front, back, hfront, hback, rfl⟩
    have hrest : render ([name] ++ back) = render [name] ++ '/' :: render back :=
      render_append (List.cons_ne_nil name []) hback
    rw [render_singleton, List.singleton_append] at hrest
    refine ⟨render front, render back, ?_⟩
    rw [render_append hfront (List.cons_ne_nil _ _), hrest]
    simp

theorem slash_not_mem_splitOn (text : Text) : ∀ name ∈ text.splitOn '/', '/' ∉ name := by
  induction text with
  | nil => simp
  | cons c rest ih =>
    rw [List.splitOn_cons_eq_if_modifyHead]
    split
    case isTrue =>
      intro name hname
      rcases List.mem_cons.1 hname with rfl | hlater
      · exact List.not_mem_nil
      · exact ih name hlater
    case isFalse hc =>
      obtain ⟨first, more, hsplit⟩ := List.exists_cons_of_ne_nil (List.splitOn_ne_nil '/' rest)
      rw [hsplit, List.modifyHead_cons]
      rw [hsplit] at ih
      intro name hname
      rcases List.mem_cons.1 hname with rfl | hlater
      · have hfirst := ih first List.mem_cons_self
        have hc : '/' ≠ c := fun heq => hc (by rw [heq]; exact beq_self_eq_true c)
        simp [hc, hfirst]
      · exact ih name (List.mem_cons_of_mem _ hlater)

theorem Named.of_above {path below : Path} (h : Named below) (habove : Above path below) :
    Named path := by
  obtain ⟨-, rest, -, rfl⟩ := habove
  exact fun name hname => h name (List.mem_append_left _ hname)

/-! ## Ancestors -/

/-- The paths above one that is given innermost name first, the nearest first; the top is none. -/
def ancestors : List Text → List Path
  | _ :: parent :: rest => (parent :: rest).reverse :: ancestors (parent :: rest)
  | _ => []

theorem mem_ancestors {path : Path} : ∀ {reversed : List Text},
    path ∈ ancestors reversed ↔ Above path reversed.reverse
  | [] => by
    simp only [ancestors, List.not_mem_nil, List.reverse_nil, false_iff]
    rintro ⟨hne, rest, -, heq⟩
    exact hne (List.append_eq_nil_iff.1 heq.symm).1
  | [name] => by
    simp only [ancestors, List.not_mem_nil, List.reverse_singleton, false_iff]
    rintro ⟨hne, rest, hrest, heq⟩
    have hlength := congrArg List.length heq
    rw [List.length_append, List.length_singleton] at hlength
    have hpath := List.length_pos_iff.2 hne
    have hmore := List.length_pos_iff.2 hrest
    omega
  | name :: parent :: rest => by
    rw [ancestors, List.mem_cons, mem_ancestors]
    have hreverse : (name :: parent :: rest).reverse = (parent :: rest).reverse ++ [name] :=
      List.reverse_cons
    constructor
    · rintro (rfl | ⟨hne, more, hmore, heq⟩)
      · exact ⟨by simp, [name], List.cons_ne_nil _ _, hreverse⟩
      · refine ⟨hne, more ++ [name], by simp, ?_⟩
        rw [hreverse, heq, List.append_assoc]
    · rintro ⟨hne, more, hmore, heq⟩
      rw [hreverse] at heq
      -- the last name of what is missing is the innermost one
      obtain ⟨front, last, rfl⟩ : ∃ front last, more = front ++ [last] :=
        ⟨more.dropLast, more.getLast hmore, (List.dropLast_append_getLast hmore).symm⟩
      rw [← List.append_assoc] at heq
      obtain ⟨hfront, -⟩ := List.append_inj' heq rfl
      by_cases hempty : front = []
      · subst hempty
        rw [List.append_nil] at hfront
        exact .inl hfront.symm
      · exact .inr ⟨hne, front, hempty, hfront⟩

end RelativePath
