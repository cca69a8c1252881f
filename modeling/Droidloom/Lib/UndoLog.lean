/-
  A log of stages applied and reversed under keys.

  Each entry says which stage was applied or reversed under which key, and whether that worked.
  `held` reads off a log the stages that are applied and not yet reversed under a key, NEWEST FIRST;
  `Obeys P log` says that every entry was allowed by `P` when it was written, given the log before
  it.  A pass that reverses held stages one by one keeps those whose reversal failed
  (`held_reverse`), wherever in the list they stand.
-/
import Droidloom.Lib.History

namespace UndoLog

inductive Kind
  | apply
  | reverse
deriving DecidableEq, Repr

structure Entry (κ ι : Type) where
  kind : Kind
  key : κ
  stage : ι
  ok : Bool
deriving DecidableEq, Repr

variable {κ ι : Type}

/-! ## What was allowed when it was written -/

def Obeys (P : List (Entry κ ι) → Entry κ ι → Prop) (log : List (Entry κ ι)) : Prop :=
  ∀ before entry after, log = before ++ entry :: after → P before entry

variable {P : List (Entry κ ι) → Entry κ ι → Prop} {log more : List (Entry κ ι)} {entry : Entry κ ι}

theorem obeys_nil : Obeys P ([] : List (Entry κ ι)) := by
  intro before entry after h
  simp at h

theorem Obeys.snoc (h : Obeys P log) (hentry : P log entry) : Obeys P (log ++ [entry]) :=
  History.Along.concat h hentry

/-! ## The stages that are held -/

variable [DecidableEq κ] [DecidableEq ι]

def settle (key : κ) (held : List ι) (entry : Entry κ ι) : List ι :=
  if entry.key = key ∧ entry.ok then
    match entry.kind with
    | .apply => entry.stage :: held
    | .reverse => held.erase entry.stage
  else held

def held (key : κ) (log : List (Entry κ ι)) : List ι :=
  log.foldl (settle key) []

variable {key : κ} {stage : ι}

@[simp] theorem held_nil : held key ([] : List (Entry κ ι)) = [] := rfl

theorem held_snoc : held key (log ++ [entry]) = settle key (held key log) entry := by
  simp [held]

theorem held_snoc_other (h : entry.key ≠ key) : held key (log ++ [entry]) = held key log := by
  rw [held_snoc, settle, if_neg fun hc => h hc.1]

theorem held_snoc_failed (h : entry.ok = false) : held key (log ++ [entry]) = held key log := by
  rw [held_snoc, settle, if_neg (by simp [h])]

theorem held_apply : held key (log ++ [⟨.apply, key, stage, true⟩]) = stage :: held key log := by
  simp [held_snoc, settle]

/-- A stage reversed in the middle of a pass: those before it could not be reversed. -/
theorem held_reverse {failed rest : List ι} (hheld : held key log = failed ++ stage :: rest)
    (hnodup : (failed ++ stage :: rest).Nodup) :
    held key (log ++ [⟨.reverse, key, stage, true⟩]) = failed ++ rest := by
  have hnot : stage ∉ failed := by
    intro hmem
    exact (List.nodup_append.mp hnodup).2.2 stage hmem stage (by simp) rfl
  simp [held_snoc, settle, hheld, List.erase_append_right _ hnot]

end UndoLog
