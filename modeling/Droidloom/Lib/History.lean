/-
  Histories: lists that grow at their end.

  What a run is judged by is often said entry by entry, each entry relative to the history before it
  (`Along`).  A history that has just grown can be cut at the new entry or before it (`concat_cut`),
  so that such a property needs to be shown of the new entry only (`Along.concat`).  A run is the
  fold of a step over a history: what each step keeps, the run keeps (`Along.foldl`).  `Since P Q` is
  the past-time operator: some entry satisfies `P`, and none after it satisfies `Q`.
-/
import Mathlib

namespace History

variable {α : Type*} {log before after : List α} {x e : α}

/-- A history that grew by one entry, cut at some entry. -/
theorem concat_cut (h : log ++ [e] = before ++ x :: after) :
    (after = [] ∧ e = x ∧ log = before) ∨
      ∃ init, after = init ++ [e] ∧ log = before ++ x :: init := by
  rcases List.eq_nil_or_concat' after with rfl | ⟨init, y, rfl⟩
  · obtain ⟨hl, he⟩ := List.append_inj' h rfl
    exact .inl ⟨rfl, List.singleton_inj.mp he, hl⟩
  · have h' : log ++ [e] = (before ++ x :: init) ++ [y] := by simpa using h
    obtain ⟨hl, he⟩ := List.append_inj' h' rfl
    exact .inr ⟨init, by rw [List.singleton_inj.mp he], hl⟩

/-- Every entry satisfies `P`, given the history before it. -/
def Along (P : List α → α → Prop) (log : List α) : Prop :=
  ∀ before x after, log = before ++ x :: after → P before x

variable {P : List α → α → Prop}

theorem along_nil : Along P ([] : List α) := by
  intro before x after h
  simp at h

theorem Along.concat (h : Along P log) (hlast : P log e) : Along P (log ++ [e]) := by
  intro before x after heq
  rcases concat_cut heq with ⟨-, rfl, rfl⟩ | ⟨init, -, hlog⟩
  · exact hlast
  · exact h before x init hlog

theorem Along.init (h : Along P (log ++ [e])) : Along P log := by
  intro before x after heq
  exact h before x (after ++ [e]) (by simp [heq])

theorem Along.last (h : Along P (log ++ [e])) : P log e := h log e [] rfl

/-- A run whose steps all satisfy `Q`, at the states they are taken in, keeps what such a step
    keeps. -/
theorem Along.foldl {σ : Type*} {step : σ → α → σ} {s : σ} {Q : σ → α → Prop} {I : σ → Prop}
    (h : Along (fun before x => Q (before.foldl step s) x) log) (hstart : I s)
    (hstep : ∀ s x, Q s x → I s → I (step s x)) : I (log.foldl step s) := by
  induction log using List.reverseRecOn with
  | nil => exact hstart
  | append_singleton log x ih =>
    rw [List.foldl_concat]
    exact hstep _ x h.last (ih h.init)

/-- To check a run, check its first step and then the run from the state it leads to. -/
theorem along_foldl_cons {σ : Type*} {step : σ → α → σ} {s : σ} {Q : σ → α → Prop}
    {xs : List α} : Along (fun before y => Q (before.foldl step s) y) (x :: xs) ↔
      Q s x ∧ Along (fun before y => Q (before.foldl step (step s x)) y) xs := by
  constructor
  · intro h
    exact ⟨h [] x xs rfl, fun before y after heq => h (x :: before) y after (by rw [heq]; rfl)⟩
  · rintro ⟨hfirst, hrest⟩ before y after heq
    rcases before with _ | ⟨z, before⟩
    · cases heq
      exact hfirst
    · cases heq
      exact hrest before y after rfl

/-- So a run can be checked by evaluation. -/
def decidableAlong {σ : Type*} (step : σ → α → σ) (Q : σ → α → Prop)
    [∀ s x, Decidable (Q s x)] (s : σ) :
    (log : List α) → Decidable (Along (fun before x => Q (before.foldl step s) x) log)
  | [] => .isTrue along_nil
  | x :: xs =>
    have := decidableAlong step Q (step s x) xs
    decidable_of_iff (Q s x ∧ Along (fun before y => Q (before.foldl step (step s x)) y) xs)
      along_foldl_cons.symm

/-! ## Since -/

section Since

variable {P Q : α → Prop}

/-- Some entry satisfies `P` and no entry after it satisfies `Q`. -/
def Since (P Q : α → Prop) (log : List α) : Prop :=
  ∃ before x after, log = before ++ x :: after ∧ P x ∧ ∀ y ∈ after, ¬ Q y

theorem not_since_nil : ¬ Since P Q ([] : List α) := by
  rintro ⟨before, x, after, h, -⟩
  simp at h

theorem since_concat : Since P Q (log ++ [e]) ↔ P e ∨ Since P Q log ∧ ¬ Q e := by
  constructor
  · rintro ⟨before, x, after, heq, hx, hafter⟩
    rcases concat_cut heq with ⟨-, rfl, -⟩ | ⟨init, rfl, hlog⟩
    · exact .inl hx
    · exact .inr ⟨⟨before, x, init, hlog, hx, fun y hy => hafter y (by simp [hy])⟩,
        hafter e (by simp)⟩
  · rintro (he | ⟨⟨before, x, after, rfl, hx, hafter⟩, he⟩)
    · exact ⟨log, e, [], rfl, he, by simp⟩
    · refine ⟨before, x, after ++ [e], by simp, hx, fun y hy => ?_⟩
      rcases List.mem_append.mp hy with hy | hy
      · exact hafter y hy
      · rw [List.mem_singleton.mp hy]
        exact he

theorem Since.exists_mem (h : Since P Q log) : ∃ x ∈ log, P x := by
  obtain ⟨before, x, after, rfl, hx, -⟩ := h
  exact ⟨x, by simp, hx⟩

end Since

end History
