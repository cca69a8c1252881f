/-
  Mounting at the places of a tree and unmounting again.

  Places are ordered: `a ≤ b` says that `b` is `a` or lies below it.  A mount covers its target and
  everything below, earlier mounts included, so a place is served by the last mount made at it or
  above it (`serving`).  Every mount serves its own target exactly if none has a target at or above
  that of an earlier one (`serving_getElem_iff`).

  Unmounting removes the last mount in place at a target.  It is safe if whatever else is at the
  target or below it was made earlier (`Unwinds`): then what is removed is what the target shows,
  and nothing made on it is left.  Mounts are unwound from the end; a block in the middle can go
  before what follows it if none of that lies at or below the block (`Unwinds.block`).
-/
import Mathlib

namespace MountStack

variable {α : Type*} [Preorder α]

/-! ## What is visible -/

/-- No mount is made at or above the target of an earlier one. -/
def NoneHidden (targets : List α) : Prop :=
  targets.Pairwise fun earlier later => ¬ later ≤ earlier

instance [DecidableLE α] (targets : List α) : Decidable (NoneHidden targets) :=
  inferInstanceAs (Decidable (targets.Pairwise fun earlier later => ¬ later ≤ earlier))

/-- The number of the mount that serves a place: the last one at it or above it. -/
def serving [DecidableLE α] (place : α) : List α → Option Nat
  | [] => none
  | target :: targets =>
    match serving place targets with
    | some i => some (i + 1)
    | none => if target ≤ place then some 0 else none

section Serving

variable [DecidableLE α]

theorem serving_eq_none {place : α} {targets : List α} :
    serving place targets = none ↔ ∀ target ∈ targets, ¬ target ≤ place := by
  induction targets with
  | nil => simp [serving]
  | cons target targets ih =>
    rw [serving]
    cases hrest : serving place targets with
    | none =>
      have hall := ih.mp hrest
      by_cases hle : target ≤ place
      · simp [hle]
      · simpa [hle] using hall
    | some i =>
      have hnot : ¬ ∀ target ∈ targets, ¬ target ≤ place := by
        rw [← ih, hrest]
        simp
      simp only [reduceCtorEq, List.mem_cons, forall_eq_or_imp, false_iff]
      exact fun h => hnot h.2

theorem serving_cons_zero {place target : α} {targets : List α} :
    serving place (target :: targets) = some 0 ↔
      target ≤ place ∧ serving place targets = none := by
  rw [serving]
  cases serving place targets with
  | none => simp
  | some i => simp

theorem serving_cons_succ {place target : α} {targets : List α} {i : Nat} :
    serving place (target :: targets) = some (i + 1) ↔ serving place targets = some i := by
  rw [serving]
  cases serving place targets with
  | none => by_cases hle : target ≤ place <;> simp [hle]
  | some j => simp

/-- **Visible mounts.**  All mounts serve their own targets exactly if none is hidden. -/
theorem serving_getElem_iff {targets : List α} :
    (∀ i (h : i < targets.length), serving targets[i] targets = some i) ↔ NoneHidden targets := by
  induction targets with
  | nil => simp [NoneHidden]
  | cons target targets ih =>
    rw [NoneHidden, List.pairwise_cons]
    constructor
    · intro h
      have hfirst := serving_cons_zero.mp (h 0 (by simp))
      refine ⟨serving_eq_none.mp hfirst.2, ih.mp fun i hi => ?_⟩
      exact serving_cons_succ.mp (h (i + 1) (by simpa using hi))
    · rintro ⟨hfirst, hrest⟩ i hi
      cases i with
      | zero => exact serving_cons_zero.mpr ⟨le_rfl, serving_eq_none.mpr hfirst⟩
      | succ i => exact serving_cons_succ.mpr (ih.mpr hrest i (by simpa using hi))

end Serving

theorem noneHidden_append {as bs : List α} : NoneHidden (as ++ bs) ↔
    NoneHidden as ∧ NoneHidden bs ∧ ∀ a ∈ as, ∀ b ∈ bs, ¬ b ≤ a := List.pairwise_append

/-! ## Unwinding -/

/-- Removing the targets of the second list in turn empties the first: each time the last mount at
    the target goes, and no later one lies at the target or below it. -/
inductive Unwinds : List α → List α → Prop
  | nil : Unwinds [] []
  | unmount {before after rest : List α} {target : α} : (∀ later ∈ after, ¬ target ≤ later) →
      Unwinds (before ++ after) rest → Unwinds (before ++ target :: after) (target :: rest)

/-- Each mount is removed once. -/
theorem Unwinds.perm {mounts unmounts : List α} (h : Unwinds mounts unmounts) :
    unmounts.Perm mounts := by
  induction h with
  | nil => exact .nil
  | unmount _ _ ih => exact (ih.cons _).trans List.perm_middle.symm

/-- **A block goes**, last mount first, before everything made after it that is not below it. -/
theorem Unwinds.block (before block after : List α) {rest : List α}
    (hclear : ∀ target ∈ block, ∀ later ∈ after, ¬ target ≤ later)
    (h : Unwinds (before ++ after) rest) :
    Unwinds (before ++ block ++ after) (block.reverse ++ rest) := by
  induction block using List.reverseRecOn generalizing rest with
  | nil => simpa using h
  | append_singleton block target ih =>
    have hrest : Unwinds (before ++ block ++ after) (block.reverse ++ rest) :=
      ih (fun t ht => hclear t (by simp [ht])) h
    have hlast : ∀ later ∈ after, ¬ target ≤ later := hclear target (by simp)
    have hstep := Unwinds.unmount hlast hrest
    simpa using hstep

/-- What was mounted last can always go. -/
theorem Unwinds.last {before rest : List α} (h : Unwinds before rest) (block : List α) :
    Unwinds (before ++ block) (block.reverse ++ rest) := by
  have hblock : Unwinds (before ++ block ++ []) (block.reverse ++ rest) :=
    Unwinds.block before block [] (by simp) (by simpa using h)
  simpa using hblock

end MountStack
