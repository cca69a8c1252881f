/-
  Batches over independent parts.

  A state is seen part by part, through `view`.  Each command names one part (`key`); it may change
  that part and what it answers may depend on that part, and on nothing else.  Then each part sees
  of a batch only the commands that name it (`run_own`), whatever stands between them.
-/
import Mathlib

namespace Isolation

variable {σ κ ν γ α : Type}

/-- A system of independent parts. -/
structure Parts (σ κ ν γ α : Type) where
  key : γ → κ
  view : κ → σ → ν
  step : σ → γ → σ × List α
  frame : ∀ s c d, key c ≠ d → view d (step s c).1 = view d s
  keyed : ∀ s s' c, view (key c) s = view (key c) s' →
    view (key c) (step s c).1 = view (key c) (step s' c).1 ∧ (step s c).2 = (step s' c).2

variable (P : Parts σ κ ν γ α)

/-- The batch, with each answer beside its command. -/
def run (s : σ) : List γ → σ × List (γ × α)
  | [] => (s, [])
  | c :: cs =>
    let rest := run (P.step s c).1 cs
    (rest.1, (P.step s c).2.map (fun a => (c, a)) ++ rest.2)

@[simp] theorem run_nil (s : σ) : run P s [] = (s, []) := rfl

theorem run_cons (s : σ) (c : γ) (cs : List γ) :
    run P s (c :: cs) = ((run P (P.step s c).1 cs).1,
      (P.step s c).2.map (fun a => (c, a)) ++ (run P (P.step s c).1 cs).2) := rfl

/-- Every answer comes from a step of its command. -/
theorem exists_step_of_mem_run {c : γ} {a : α} (cs : List γ) : ∀ s : σ, (c, a) ∈ (run P s cs).2 →
    c ∈ cs ∧ ∃ s', a ∈ (P.step s' c).2 := by
  induction cs with
  | nil => intro s h; cases h
  | cons c' cs ih =>
    intro s h
    rw [run_cons] at h
    rcases List.mem_append.mp h with hfirst | hrest
    · obtain ⟨a', ha', heq⟩ := List.mem_map.mp hfirst
      obtain ⟨rfl, rfl⟩ := Prod.mk.inj heq
      exact ⟨List.mem_cons_self, s, ha'⟩
    · obtain ⟨hmem, hstep⟩ := ih _ hrest
      exact ⟨List.mem_cons_of_mem _ hmem, hstep⟩

variable [DecidableEq κ] (d : κ)

/-- A part cannot tell the batch from its own commands. -/
theorem run_own (cs : List γ) : ∀ s s' : σ, P.view d s = P.view d s' →
    P.view d (run P s cs).1 = P.view d (run P s' (cs.filter (P.key · = d))).1 ∧
      (run P s cs).2.filter (fun x => P.key x.1 = d) =
        (run P s' (cs.filter (P.key · = d))).2 := by
  induction cs with
  | nil => exact fun s s' h => ⟨h, rfl⟩
  | cons c cs ih =>
    intro s s' h
    rw [run_cons, List.filter_append]
    by_cases hc : P.key c = d
    · -- its own command does the same in both states
      subst hc
      obtain ⟨hview, hanswers⟩ := P.keyed s s' c h
      obtain ⟨hstate, hrest⟩ := ih (P.step s c).1 (P.step s' c).1 hview
      rw [List.filter_cons_of_pos (by simp), run_cons]
      refine ⟨hstate, ?_⟩
      simp only []
      rw [hrest, hanswers, List.filter_eq_self.mpr]
      intro x hx
      obtain ⟨a, -, rfl⟩ := List.mem_map.mp hx
      simp
    · -- a foreign command is not seen
      obtain ⟨hstate, hrest⟩ := ih (P.step s c).1 s' ((P.frame s c d hc).trans h)
      rw [List.filter_cons_of_neg (by simpa using hc)]
      refine ⟨hstate, ?_⟩
      rw [hrest, List.filter_eq_nil_iff.mpr, List.nil_append]
      intro x hx
      obtain ⟨a, -, rfl⟩ := List.mem_map.mp hx
      simpa using hc

end Isolation
