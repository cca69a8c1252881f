/-
  The lifecycle transaction of a cell (`droidloom-supervisor`, `lib.rs`): nine construction stages
  applied in a fixed order, reversed newest first when one fails or the cell is torn down.

  The backend is any type with `apply` and `rollback`, so either may fail at any call.  What the
  transaction does to it is read off a backend that writes a log of its calls (`Recorded`).
  `Owned` is the invariant between two calls: the record of a cell is what the log says is still
  applied, oldest first, and there is no empty record.

  The two loops are followed call by call (`rollbackLoop_ends`, `construct_ends`), with the log's
  rule `Allowed` checked at every call; `Pass` is what one start or teardown does, and
  `transaction_kept` collects it over every run.
-/
import Droidloom.Lib.Triple
import Droidloom.Lib.UndoLog
import Droidloom.Supervisor.Daemon

namespace Droidloom.Lifecycle

open Fallible Triple UndoLog
open Droidloom.Supervisor (CellSpec)
open Std (ExtTreeMap)

/-! ## The program -/

inductive LifecycleStep
  | reserveIdentity
  | createNamespaces
  | populateIdMaps
  | assembleMountsAndDevices
  | createBinderContexts
  | createNetworkPolicy
  | applyResourceLimits
  | startAndroidInit
  | publishHandle
deriving DecidableEq, Repr

def CONSTRUCTION_ORDER : List LifecycleStep :=
  [.reserveIdentity, .createNamespaces, .populateIdMaps, .assembleMountsAndDevices,
    .createBinderContexts, .createNetworkPolicy, .applyResourceLimits, .startAndroidInit,
    .publishHandle]

/-- Linux-specific operations behind the transaction. -/
class CellBackend (B : Type) (Spec : outParam Type) where
  Error : Type
  /-- The rendered error. -/
  text : Error → String
  apply : Spec → LifecycleStep → EStateM Error B Unit
  rollback : Spec → LifecycleStep → EStateM Error B Unit

abbrev CellId := String

structure CellRecord (Spec : Type) where
  spec : Spec
  completed : List LifecycleStep

structure ActiveCell where
  id : CellId
  hostUid : UInt32
deriving DecidableEq, Repr

inductive StartError (ε : Type)
  | invalidSpec (problems : String)
  | alreadyExists (id : CellId)
  | backend (cell : CellId) (step : LifecycleStep) (source : ε)
      (rollbackFailures : List (LifecycleStep × String))

structure TeardownError where
  cell : CellId
  failures : List (LifecycleStep × String)

structure TeardownReport where
  alreadyAbsent : Bool
  reversedSteps : Nat
deriving DecidableEq, Repr

structure Supervisor (B Spec : Type) where
  backend : B
  cells : ExtTreeMap CellId (CellRecord Spec) compare := ∅

namespace Supervisor

variable {B Spec ε : Type} [CellBackend B Spec]

/-- One call on the backend, and its answer. -/
def call (x : EStateM (CellBackend.Error B) B Unit) :
    EStateM ε (Supervisor B Spec) (Except (CellBackend.Error B) Unit) :=
  attempt (zoom (·.backend) (fun backend s => { s with backend }) id x)

def rollbackLoop (spec : Spec) :
    List LifecycleStep → List LifecycleStep → List (LifecycleStep × String) →
      EStateM ε (Supervisor B Spec) (List LifecycleStep × List (LifecycleStep × String))
  | [], retained, failures => return (retained.reverse, failures)
  | step :: rest, retained, failures => do
    match ← call (CellBackend.rollback spec step) with
    | .ok _ => rollbackLoop spec rest retained failures
    | .error e =>
      rollbackLoop spec rest (retained ++ [step]) (failures ++ [(step, CellBackend.text e)])

def rollbackSteps (spec : Spec) (completed : List LifecycleStep) :
    EStateM ε (Supervisor B Spec) (List LifecycleStep × List (LifecycleStep × String)) :=
  rollbackLoop spec completed.reverse [] []

/-- A failed construction leaves a record only of what could not be reversed. -/
def retain (id : CellId) (spec : Spec) (retained : List LifecycleStep) (s : Supervisor B Spec) :
    Supervisor B Spec :=
  if retained.isEmpty then s
  else { s with cells := s.cells.insert id { spec, completed := retained } }

variable [CellSpec Spec]

def construct (spec : Spec) : List LifecycleStep → List LifecycleStep →
    EStateM (StartError (CellBackend.Error B)) (Supervisor B Spec) ActiveCell
  | completed, [] => do
    modify fun s => { s with cells := s.cells.insert (CellSpec.id spec) { spec, completed } }
    return { id := CellSpec.id spec, hostUid := CellSpec.hostUid spec }
  | completed, step :: rest => do
    match ← call (CellBackend.apply spec step) with
    | .ok _ => construct spec (completed ++ [step]) rest
    | .error source =>
      let (retained, rollbackFailures) ← rollbackSteps spec completed
      modify (retain (CellSpec.id spec) spec retained)
      throw (.backend (CellSpec.id spec) step source rollbackFailures)

/-- Apply all construction stages and publish the lifecycle handle. -/
def start (spec : Spec) :
    EStateM (StartError (CellBackend.Error B)) (Supervisor B Spec) ActiveCell := do
  mapErr .invalidSpec (CellSpec.validate spec)
  let s ← get
  rejectIf (CellSpec.id spec ∈ s.cells) (.alreadyExists (CellSpec.id spec))
  construct spec [] CONSTRUCTION_ORDER

omit [CellSpec Spec]

/-- The record after a rollback of it. -/
def settleRecord (id : CellId) (retained : List LifecycleStep) (s : Supervisor B Spec) :
    Supervisor B Spec :=
  if retained.isEmpty then { s with cells := s.cells.erase id }
  else match s.cells[id]? with
    | some record => { s with cells := s.cells.insert id { record with completed := retained } }
    | none => s

def rollbackRecord (id : CellId) :
    EStateM ε (Supervisor B Spec) (List (LifecycleStep × String)) := do
  let s ← get
  match s.cells[id]? with
  | none => return []
  | some record =>
    let (retained, failures) ← rollbackSteps record.spec record.completed
    modify (settleRecord id retained)
    return failures

/-- Reverse every owned stage; failed ones remain recorded. -/
def teardown (id : CellId) : EStateM TeardownError (Supervisor B Spec) TeardownReport := do
  let s ← get
  match s.cells[id]? with
  | none => return { alreadyAbsent := true, reversedSteps := 0 }
  | some record =>
    let failures ← rollbackRecord id
    rejectIf (failures ≠ []) { cell := id, failures }
    return { alreadyAbsent := false, reversedSteps := record.completed.length }

end Supervisor

/-! ## The backend that keeps a log -/

abbrev Log := List (Entry CellId LifecycleStep)

structure Recorded (B : Type) where
  inner : B
  log : Log := []

variable {B Spec ε : Type}

def Recorded.write (kind : Kind) (cell : CellId) (step : LifecycleStep) (x : EStateM ε B Unit) :
    EStateM ε (Recorded B) Unit :=
  fun s => match x s.inner with
    | .ok _ inner => .ok () { inner, log := s.log ++ [⟨kind, cell, step, true⟩] }
    | .error e inner => .error e { inner, log := s.log ++ [⟨kind, cell, step, false⟩] }

instance [CellSpec Spec] [CellBackend B Spec] : CellBackend (Recorded B) Spec where
  Error := CellBackend.Error B
  text := CellBackend.text (B := B)
  apply spec step := Recorded.write .apply (CellSpec.id spec) step (CellBackend.apply spec step)
  rollback spec step :=
    Recorded.write .reverse (CellSpec.id spec) step (CellBackend.rollback spec step)

/-- What the log allows: a stage is reversed only while it is applied, and the handle is published
    only over all the other stages. -/
def Allowed (log : Log) (entry : Entry CellId LifecycleStep) : Prop :=
  match entry.kind with
  | .reverse => entry.stage ∈ held entry.key log
  | .apply => entry.stage = .publishHandle →
      ∀ step, step ≠ .publishHandle → step ∈ held entry.key log

inductive Request (Spec : Type)
  | start (spec : Spec)
  | teardown (id : CellId)

variable [CellSpec Spec]

/-- The only cell that a request is about. -/
def Request.cell : Request Spec → CellId
  | .start spec => CellSpec.id spec
  | .teardown id => id

section Runs

variable [CellBackend B Spec]

def Request.serve (request : Request Spec) (s : Supervisor B Spec) : Supervisor B Spec :=
  match request with
  | .start spec => final (Supervisor.start spec) s
  | .teardown id => final (Supervisor.teardown id) s

def run (backend : B) (requests : List (Request Spec)) : Supervisor B Spec :=
  requests.foldl (fun s request => request.serve s) { backend }

end Runs

/-! ## Following the two loops -/

section Loops

variable [CellBackend B Spec] {s s' : Supervisor (Recorded B) Spec} {spec : Spec}
  {step : LifecycleStep} {E : Supervisor (Recorded B) Spec → Prop}

abbrev Supervisor.log (s : Supervisor (Recorded B) Spec) : Log := s.backend.log

/-- A call leaves the records alone and is logged with its answer. -/
structure Called (kind : Kind) (cell : CellId) (step : LifecycleStep)
    (s : Supervisor (Recorded B) Spec) (ok : Bool) (s' : Supervisor (Recorded B) Spec) : Prop where
  cells : s'.cells = s.cells
  log : s'.log = s.log ++ [⟨kind, cell, step, ok⟩]

theorem call_ends {kind : Kind} {cell : CellId} {x : EStateM (CellBackend.Error B) B Unit} :
    Ends (Supervisor.call (Recorded.write kind cell step x) : EStateM ε _ _) s
      (fun answer s' => Called kind cell step s answer.isOk s') E := by
  unfold Ends Supervisor.call attempt zoom Recorded.write
  cases x s.backend.inner with
  | ok _ _ => exact ⟨rfl, rfl⟩
  | error _ _ => exact ⟨rfl, rfl⟩

/-- What the rollback of the stages of a cell leaves behind. -/
structure RolledBack (cell : CellId) (steps : List LifecycleStep)
    (s : Supervisor (Recorded B) Spec) (retained : List LifecycleStep)
    (failures : List (LifecycleStep × String)) (s' : Supervisor (Recorded B) Spec) : Prop where
  cells : s'.cells = s.cells
  obeys : Obeys Allowed s'.log
  retained : retained = (held cell s'.log).reverse
  failures : failures.map Prod.fst = held cell s'.log
  fewer : (held cell s'.log).Sublist (held cell s.log)
  others : ∀ id, id ≠ cell → held id s'.log = held id s.log
  calls : ∃ calls, s'.log = s.log ++ calls ∧ calls.map (·.stage) = steps ∧
    ∀ entry ∈ calls, entry.kind = .reverse ∧ entry.key = cell

/-- The loop of `rollback_steps`: what is held is what it could not reverse so far and what it has
    still to visit. -/
theorem rollbackLoop_ends (steps retained : List LifecycleStep)
    (failures : List (LifecycleStep × String)) (hobeys : Obeys Allowed s.log)
    (hheld : held (CellSpec.id spec) s.log = retained ++ steps)
    (hnodup : (retained ++ steps).Nodup) (hfailures : failures.map Prod.fst = retained) :
    Ends (Supervisor.rollbackLoop spec steps retained failures : EStateM ε _ _) s
      (fun out s' => RolledBack (CellSpec.id spec) steps s out.1 out.2 s') E := by
  induction steps generalizing retained failures s with
  | nil =>
    rw [List.append_nil] at hheld
    exact ends_pure
      { cells := rfl
        obeys := hobeys
        retained := by rw [hheld]
        failures := by rw [hheld, hfailures]
        fewer := List.Sublist.refl _
        others := fun _ _ => rfl
        calls := ⟨[], by simp, rfl, by simp⟩ }
  | cons step rest ih =>
    unfold Supervisor.rollbackLoop
    refine ends_bind call_ends fun answer s₁ h₁ => ?_
    have hallowed : Allowed s.log ⟨.reverse, CellSpec.id spec, step, answer.isOk⟩ := by
      show step ∈ held (CellSpec.id spec) s.log
      rw [hheld]
      simp
    have hobeys₁ : Obeys Allowed s₁.log := h₁.log ▸ hobeys.snoc hallowed
    -- whatever the answer, the rest of the loop starts from this one call
    have hlater : ∀ {out : List LifecycleStep × List (LifecycleStep × String)}
        {s' : Supervisor (Recorded B) Spec},
        (held (CellSpec.id spec) s₁.log).Sublist (held (CellSpec.id spec) s.log) →
        RolledBack (CellSpec.id spec) rest s₁ out.1 out.2 s' →
        RolledBack (CellSpec.id spec) (step :: rest) s out.1 out.2 s' := by
      intro out s' hfewer h'
      obtain ⟨calls, hlog, hstages, hkinds⟩ := h'.calls
      exact
        { cells := h'.cells.trans h₁.cells
          obeys := h'.obeys
          retained := h'.retained
          failures := h'.failures
          fewer := h'.fewer.trans hfewer
          others := fun id hid => by
            rw [h'.others id hid, h₁.log, held_snoc_other (Ne.symm hid)]
          calls := ⟨⟨.reverse, CellSpec.id spec, step, answer.isOk⟩ :: calls,
            by rw [hlog, h₁.log]; simp, by simp [hstages], by simpa using hkinds⟩ }
    cases answer with
    | ok _ =>
      have hheld₁ : held (CellSpec.id spec) s₁.log = retained ++ rest := by
        rw [h₁.log]
        exact held_reverse hheld hnodup
      have hfewer : (retained ++ rest).Sublist (retained ++ step :: rest) :=
        (List.sublist_cons_self step rest).append_left retained
      refine (ih retained failures hobeys₁ hheld₁ (hnodup.sublist hfewer) hfailures).mono
        (fun out s' h' => hlater ?_ h') fun _ h' => h'
      rw [hheld₁, hheld]
      exact hfewer
    | error e =>
      have hsame : held (CellSpec.id spec) s₁.log = held (CellSpec.id spec) s.log := by
        rw [h₁.log]
        exact held_snoc_failed rfl
      have hheld₁ : held (CellSpec.id spec) s₁.log = retained ++ [step] ++ rest := by
        rw [hsame, hheld]
        simp
      refine (ih (retained ++ [step]) _ hobeys₁ hheld₁ (by simpa using hnodup) ?_).mono
        (fun out s' h' => hlater ?_ h') fun _ h' => h'
      · rw [List.map_append, hfailures]
        rfl
      · rw [hsame]

theorem rollbackSteps_ends {completed : List LifecycleStep} (hobeys : Obeys Allowed s.log)
    (hheld : held (CellSpec.id spec) s.log = completed.reverse) (hnodup : completed.Nodup) :
    Ends (Supervisor.rollbackSteps spec completed : EStateM ε _ _) s
      (fun out s' => RolledBack (CellSpec.id spec) completed.reverse s out.1 out.2 s') E :=
  rollbackLoop_ends _ [] [] hobeys hheld (by simpa using hnodup) rfl

/-- What the supervisor keeps about a cell between two calls. -/
structure Owned (s : Supervisor (Recorded B) Spec) (id : CellId) : Prop where
  ordered : (held id s.log).reverse.Sublist CONSTRUCTION_ORDER
  present : id ∈ s.cells ↔ held id s.log ≠ []
  listed : ∀ record, s.cells[id]? = some record → record.completed = (held id s.log).reverse
  named : ∀ record, s.cells[id]? = some record → CellSpec.id record.spec = id

/-- What one start or teardown does: stages are applied, then stages are reversed, and these are
    all that the cell holds, newest first. -/
structure Pass (cell : CellId) (s s' : Supervisor (Recorded B) Spec) : Prop where
  obeys : Obeys Allowed s'.log
  owned : Owned s' cell
  records : ∀ id, id ≠ cell → s'.cells[id]? = s.cells[id]?
  others : ∀ id, id ≠ cell → held id s'.log = held id s.log
  calls : ∃ applied reversed, s'.log = s.log ++ applied ++ reversed ∧
    (∀ entry ∈ applied, entry.kind = .apply ∧ entry.key = cell) ∧
    (∀ entry ∈ reversed, entry.kind = .reverse ∧ entry.key = cell) ∧
    (reversed = [] ∨ reversed.map (·.stage) = held cell (s.log ++ applied))

theorem CONSTRUCTION_ORDER_nodup : CONSTRUCTION_ORDER.Nodup := by decide

theorem mem_CONSTRUCTION_ORDER (step : LifecycleStep) : step ∈ CONSTRUCTION_ORDER := by
  cases step <;> decide

/-- Everything but the handle is before it in the order. -/
theorem before_publishHandle {completed rest : List LifecycleStep}
    (horder : completed ++ .publishHandle :: rest = CONSTRUCTION_ORDER) {step : LifecycleStep}
    (hstep : step ≠ .publishHandle) : step ∈ completed := by
  have hlast : CONSTRUCTION_ORDER = CONSTRUCTION_ORDER.dropLast ++ [.publishHandle] := rfl
  have hmem : step ∈ completed ++ .publishHandle :: rest := horder ▸ mem_CONSTRUCTION_ORDER step
  have hrest : rest = [] := by
    rcases List.eq_nil_or_concat rest with rfl | ⟨front, last, rfl⟩
    · rfl
    · -- the last element is the handle, which would then be there twice
      have heq : (completed ++ .publishHandle :: front) ++ [last] =
          CONSTRUCTION_ORDER.dropLast ++ [.publishHandle] := by
        rw [← hlast, ← horder]
        simp
      obtain ⟨-, hh⟩ := List.append_inj' heq rfl
      cases hh
      have hnodup := CONSTRUCTION_ORDER_nodup
      rw [← horder] at hnodup
      simp [List.nodup_append] at hnodup
  simpa [hrest, hstep] using hmem

omit [CellBackend B Spec] in
/-- The record of a cell that could not be built is what its rollback left behind. -/
theorem RolledBack.retain_owned {steps retained : List LifecycleStep}
    {failures : List (LifecycleStep × String)}
    (h : RolledBack (CellSpec.id spec) steps s retained failures s')
    (habsent : CellSpec.id spec ∉ s.cells)
    (hordered : (held (CellSpec.id spec) s'.log).reverse.Sublist CONSTRUCTION_ORDER) :
    Owned (Supervisor.retain (CellSpec.id spec) spec retained s') (CellSpec.id spec) := by
  have hlog : (Supervisor.retain (CellSpec.id spec) spec retained s').log = s'.log := by
    unfold Supervisor.retain
    split <;> rfl
  by_cases hempty : held (CellSpec.id spec) s'.log = []
  · have hnone : retained = [] := by simp [h.retained, hempty]
    have hcells : (Supervisor.retain (CellSpec.id spec) spec retained s').cells = s.cells := by
      simp [Supervisor.retain, hnone, h.cells]
    have hlookup : s.cells[CellSpec.id spec]? = none := by grind
    constructor
    case ordered => rw [hlog]; exact hordered
    case present => rw [hlog, hcells]; simp [habsent, hempty]
    case listed => intro record hrecord; simp [hcells, hlookup] at hrecord
    case named => intro record hrecord; simp [hcells, hlookup] at hrecord
  · have hsome : retained ≠ [] := by simp [h.retained, hempty]
    have hcells : (Supervisor.retain (CellSpec.id spec) spec retained s').cells =
        s.cells.insert (CellSpec.id spec) { spec, completed := retained } := by
      simp [Supervisor.retain, hsome, h.cells]
    have hlookup : ∀ record, (s.cells.insert (CellSpec.id spec)
        { spec, completed := retained })[CellSpec.id spec]? = some record →
        record = { spec, completed := retained } := by
      intro record hrecord
      simpa [eq_comm] using hrecord
    constructor
    case ordered => rw [hlog]; exact hordered
    case present => rw [hlog, hcells]; simp [hempty]
    case listed =>
      intro record hrecord
      rw [hcells] at hrecord
      rw [hlookup record hrecord, hlog]
      exact h.retained
    case named =>
      intro record hrecord
      rw [hcells] at hrecord
      rw [hlookup record hrecord]

omit [CellBackend B Spec] in
theorem retain_other {retained : List LifecycleStep} {id : CellId} (hid : id ≠ CellSpec.id spec) :
    (Supervisor.retain (CellSpec.id spec) spec retained s).cells[id]? = s.cells[id]? := by
  unfold Supervisor.retain
  split
  · rfl
  · simp only
    grind

/-- The loop of `start`: what is held are the stages applied so far. -/
theorem construct_ends (completed remaining : List LifecycleStep)
    (horder : completed ++ remaining = CONSTRUCTION_ORDER) (hobeys : Obeys Allowed s.log)
    (hheld : held (CellSpec.id spec) s.log = completed.reverse)
    (habsent : CellSpec.id spec ∉ s.cells) :
    Ends (Supervisor.construct spec completed remaining) s
      (fun _ s' => Pass (CellSpec.id spec) s s') fun s' => Pass (CellSpec.id spec) s s' := by
  induction remaining generalizing completed s with
  | nil =>
    rw [List.append_nil] at horder
    subst horder
    refine ends_modify_bind (ends_pure ⟨hobeys, ?_, ?_, fun _ _ => rfl, ⟨[], [], ?_⟩⟩)
    · have hlookup : ∀ record, (s.cells.insert (CellSpec.id spec)
          { spec, completed := CONSTRUCTION_ORDER })[CellSpec.id spec]? = some record →
          record = { spec, completed := CONSTRUCTION_ORDER } := by
        intro record hrecord
        simpa [eq_comm] using hrecord
      constructor
      case ordered =>
        show (held (CellSpec.id spec) s.log).reverse.Sublist CONSTRUCTION_ORDER
        rw [hheld, List.reverse_reverse]
      case present =>
        show CellSpec.id spec ∈ s.cells.insert _ _ ↔ held (CellSpec.id spec) s.log ≠ []
        rw [hheld]
        simp [CONSTRUCTION_ORDER]
      case listed =>
        intro record hrecord
        show record.completed = (held (CellSpec.id spec) s.log).reverse
        rw [hlookup record hrecord, hheld, List.reverse_reverse]
      case named =>
        intro record hrecord
        rw [hlookup record hrecord]
    · intro id hid
      simp only
      grind
    · simp
  | cons step rest ih =>
    unfold Supervisor.construct
    refine ends_bind call_ends fun answer s₁ h₁ => ?_
    have hallowed : Allowed s.log ⟨.apply, CellSpec.id spec, step, answer.isOk⟩ := by
      intro hpublish other hother
      show other ∈ held (CellSpec.id spec) s.log
      cases hpublish
      rw [hheld, List.mem_reverse]
      exact before_publishHandle horder hother
    have hobeys₁ : Obeys Allowed s₁.log := h₁.log ▸ hobeys.snoc hallowed
    have habsent₁ : CellSpec.id spec ∉ s₁.cells := h₁.cells ▸ habsent
    have hothers₁ : ∀ id, id ≠ CellSpec.id spec → held id s₁.log = held id s.log := by
      intro id hid
      rw [h₁.log, held_snoc_other (Ne.symm hid)]
    cases answer with
    | ok _ =>
      have hheld₁ : held (CellSpec.id spec) s₁.log = (completed ++ [step]).reverse := by
        rw [h₁.log, List.reverse_append, ← hheld]
        exact held_apply
      have hlater : ∀ s', Pass (CellSpec.id spec) s₁ s' → Pass (CellSpec.id spec) s s' := by
        intro s' h'
        obtain ⟨applied, reversed, hlog, happlied, hreversed, hnewest⟩ := h'.calls
        refine ⟨h'.obeys, h'.owned, fun id hid => ?_, fun id hid => ?_,
          ⟨⟨.apply, CellSpec.id spec, step, true⟩ :: applied, reversed, ?_, ?_, hreversed, ?_⟩⟩
        · rw [h'.records id hid, h₁.cells]
        · rw [h'.others id hid, hothers₁ id hid]
        · rw [hlog, h₁.log]
          simp [Except.isOk, Except.toBool]
        · simpa using happlied
        · rw [h₁.log] at hnewest
          simpa [Except.isOk, Except.toBool] using hnewest
      exact (ih (completed ++ [step]) (by simpa using horder) hobeys₁ hheld₁ habsent₁).mono
        (fun _ s' h' => hlater s' h') fun s' h' => hlater s' h'
    | error source =>
      have hheld₁ : held (CellSpec.id spec) s₁.log = completed.reverse := by
        rw [h₁.log, ← hheld]
        exact held_snoc_failed rfl
      have hsub : completed.Sublist CONSTRUCTION_ORDER :=
        horder ▸ List.sublist_append_left completed (step :: rest)
      have hnodup : completed.Nodup := CONSTRUCTION_ORDER_nodup.sublist hsub
      refine ends_bind (rollbackSteps_ends hobeys₁ hheld₁ hnodup) fun out s₂ h₂ => ?_
      refine ends_modify_bind (ends_throw ?_)
      have hordered : (held (CellSpec.id spec) s₂.log).reverse.Sublist CONSTRUCTION_ORDER := by
        have hfewer := h₂.fewer
        rw [hheld₁] at hfewer
        have hreversed := List.reverse_sublist.mpr hfewer
        rw [List.reverse_reverse] at hreversed
        exact hreversed.trans hsub
      have hlog₂ : (Supervisor.retain (CellSpec.id spec) spec out.1 s₂).log = s₂.log := by
        unfold Supervisor.retain
        split <;> rfl
      obtain ⟨calls, hlog, hstages, hkinds⟩ := h₂.calls
      refine ⟨hlog₂ ▸ h₂.obeys, h₂.retain_owned habsent₁ hordered, fun id hid => ?_,
        fun id hid => ?_, ⟨[⟨.apply, CellSpec.id spec, step, false⟩], calls, ?_, by simp, hkinds, ?_⟩⟩
      · rw [retain_other hid, h₂.cells, h₁.cells]
      · rw [hlog₂, h₂.others id hid, hothers₁ id hid]
      · rw [hlog₂, hlog, h₁.log]
        rfl
      · right
        rw [hstages, ← hheld₁, h₁.log]
        rfl

/-- A start that is refused leaves everything as it was; any other is one pass. -/
theorem start_ends (hobeys : Obeys Allowed s.log) (howned : Owned s (CellSpec.id spec)) :
    Ends (Supervisor.start spec) s (fun _ s' => Pass (CellSpec.id spec) s s')
      fun s' => Pass (CellSpec.id spec) s s' := by
  have hsame : Pass (CellSpec.id spec) s s :=
    ⟨hobeys, howned, fun _ _ => rfl, fun _ _ => rfl, ⟨[], [], by simp⟩⟩
  refine ends_bind (Q := fun _ s' => s' = s) (ends_mapErr (fun _ _ => hsame) fun _ _ => rfl) ?_
  rintro _ s rfl
  refine ends_get_bind (ends_bind (Q := fun _ s' => s' = s ∧ CellSpec.id spec ∉ s.cells)
    (ends_rejectIf (fun _ => hsame) fun habsent => ⟨rfl, habsent⟩) ?_)
  rintro _ s ⟨rfl, habsent⟩
  have hnone : held (CellSpec.id spec) s.log = [] := by
    by_contra hne
    exact habsent (howned.present.mpr hne)
  exact construct_ends [] CONSTRUCTION_ORDER rfl hobeys hnone habsent

omit [CellSpec Spec] [CellBackend B Spec] in
theorem settleRecord_log {id : CellId} {retained : List LifecycleStep} :
    (Supervisor.settleRecord id retained s).log = s.log := by
  unfold Supervisor.settleRecord
  split
  · rfl
  · split <;> rfl

omit [CellSpec Spec] [CellBackend B Spec] in
theorem settleRecord_other {id other : CellId} {retained : List LifecycleStep} (h : other ≠ id) :
    (Supervisor.settleRecord id retained s).cells[other]? = s.cells[other]? := by
  unfold Supervisor.settleRecord
  split
  · simp only
    grind
  · split
    · simp only
      grind
    · rfl

omit [CellBackend B Spec] in
/-- The record that a rollback leaves is again what the cell holds. -/
theorem RolledBack.settleRecord_owned {id : CellId} {record : CellRecord Spec}
    {steps retained : List LifecycleStep} {failures : List (LifecycleStep × String)}
    (h : RolledBack id steps s retained failures s') (howned : Owned s id)
    (hrecord : s.cells[id]? = some record) :
    Owned (Supervisor.settleRecord id retained s') id := by
  have hordered : (held id s'.log).reverse.Sublist CONSTRUCTION_ORDER :=
    (List.reverse_sublist.mpr h.fewer).trans howned.ordered
  by_cases hempty : held id s'.log = []
  · have hcells : (Supervisor.settleRecord id retained s').cells = s.cells.erase id := by
      simp [Supervisor.settleRecord, h.retained, hempty, h.cells]
    constructor
    case ordered => rw [settleRecord_log]; exact hordered
    case present => rw [settleRecord_log, hcells]; simp [hempty]
    case listed => intro r hr; simp [hcells] at hr
    case named => intro r hr; simp [hcells] at hr
  · have hcells : (Supervisor.settleRecord id retained s').cells =
        s.cells.insert id { record with completed := retained } := by
      simp [Supervisor.settleRecord, h.retained, hempty, h.cells, hrecord]
    have hlookup : ∀ r, (s.cells.insert id { record with completed := retained })[id]? = some r →
        r = { record with completed := retained } := by
      intro r hr
      simpa [eq_comm] using hr
    constructor
    case ordered => rw [settleRecord_log]; exact hordered
    case present => rw [settleRecord_log, hcells]; simp [hempty]
    case listed =>
      intro r hr
      rw [hcells] at hr
      rw [hlookup r hr, settleRecord_log]
      exact h.retained
    case named =>
      intro r hr
      rw [hcells] at hr
      rw [hlookup r hr]
      exact howned.named record hrecord

/-- A teardown is one pass, and succeeds exactly when the cell holds nothing after it. -/
theorem teardown_ends {id : CellId} (hobeys : Obeys Allowed s.log) (howned : Owned s id) :
    Ends (Supervisor.teardown id) s (fun _ s' => Pass id s s' ∧ held id s'.log = [])
      fun s' => Pass id s s' ∧ held id s'.log ≠ [] := by
  refine ends_get_bind ?_
  cases hrecord : s.cells[id]? with
  | none =>
    refine ends_pure
      ⟨⟨hobeys, howned, fun _ _ => rfl, fun _ _ => rfl, ⟨[], [], by simp⟩⟩, ?_⟩
    by_contra hne
    have hmem := howned.present.mpr hne
    grind
  | some record =>
    have hnamed := howned.named record hrecord
    have hlisted := howned.listed record hrecord
    have hnodup : record.completed.Nodup :=
      CONSTRUCTION_ORDER_nodup.sublist (hlisted ▸ howned.ordered)
    have hheld : held (CellSpec.id record.spec) s.log = record.completed.reverse := by
      rw [hnamed, hlisted, List.reverse_reverse]
    refine ends_bind (Q := fun failures s' => Pass id s s' ∧
      failures.map Prod.fst = held id s'.log) ?_ ?_
    · unfold Supervisor.rollbackRecord
      refine ends_get_bind ?_
      rw [hrecord]
      refine ends_bind (rollbackSteps_ends hobeys hheld hnodup) fun out s₁ h₁ => ?_
      refine ends_modify_bind (ends_pure ?_)
      rw [hnamed] at h₁
      obtain ⟨calls, hlog, hstages, hkinds⟩ := h₁.calls
      refine ⟨⟨settleRecord_log (s := s₁) ▸ h₁.obeys, h₁.settleRecord_owned howned hrecord,
        fun other hother => ?_, fun other hother => ?_, ⟨[], calls, ?_, by simp, hkinds, ?_⟩⟩, ?_⟩
      · rw [settleRecord_other hother, h₁.cells]
      · rw [settleRecord_log, h₁.others other hother]
      · rw [settleRecord_log, hlog]
        simp
      · right
        rw [hstages, List.append_nil, ← hnamed, hheld]
      · rw [settleRecord_log, h₁.failures]
    · rintro failures s' ⟨hpass, hfailures⟩
      refine ends_bind (Q := fun _ s'' => s'' = s' ∧ failures = [])
        (ends_rejectIf (fun hne => ⟨hpass, ?_⟩) fun hnil => ⟨rfl, not_not.mp hnil⟩) ?_
      · rw [← hfailures]
        simpa using hne
      · rintro _ _ ⟨rfl, rfl⟩
        exact ends_pure ⟨hpass, hfailures.symm⟩

/-! ## Whole runs -/

theorem serve_pass {request : Request Spec} (hobeys : Obeys Allowed s.log)
    (howned : Owned s request.cell) : Pass request.cell s (request.serve s) := by
  cases request with
  | start spec => exact (start_ends hobeys howned).final fun _ _ h => h
  | teardown id =>
    exact ((teardown_ends hobeys howned).mono (fun _ _ h => h.1) fun _ h => h.1).final
      fun _ _ h => h

omit [CellBackend B Spec] in
/-- A cell that the request is not about is owned as before. -/
theorem Pass.owned_other {cell id : CellId} (h : Pass cell s s') (hid : id ≠ cell)
    (howned : Owned s id) : Owned s' id := by
  have hheld := h.others id hid
  have hrecord := h.records id hid
  have hpresent : id ∈ s'.cells ↔ id ∈ s.cells := by
    rw [ExtTreeMap.mem_iff_isSome_getElem?, ExtTreeMap.mem_iff_isSome_getElem?, hrecord]
  exact
    { ordered := hheld ▸ howned.ordered
      present := by rw [hpresent, hheld]; exact howned.present
      listed := by rw [hrecord, hheld]; exact howned.listed
      named := by rw [hrecord]; exact howned.named }

omit [CellBackend B Spec] in
theorem owned_new (backend : B) (id : CellId) :
    Owned ({ backend := { inner := backend } } : Supervisor (Recorded B) Spec) id where
  ordered := List.nil_sublist _
  present := by simp [Supervisor.log]
  listed := by simp
  named := by simp

theorem run_owned (backend : B) (requests : List (Request Spec)) :
    Obeys Allowed (run ({ inner := backend } : Recorded B) requests).log ∧
      ∀ id, Owned (run ({ inner := backend } : Recorded B) requests) id := by
  unfold run
  suffices hfrom : ∀ s : Supervisor (Recorded B) Spec, Obeys Allowed s.log → (∀ id, Owned s id) →
      Obeys Allowed (requests.foldl (fun s request => request.serve s) s).log ∧
        ∀ id, Owned (requests.foldl (fun s request => request.serve s) s) id from
    hfrom _ obeys_nil (owned_new backend)
  induction requests with
  | nil => exact fun s hobeys howned => ⟨hobeys, howned⟩
  | cons request rest ih =>
    intro s hobeys howned
    have hpass := serve_pass hobeys (howned request.cell)
    refine ih _ hpass.obeys fun id => ?_
    by_cases hid : id = request.cell
    · exact hid ▸ hpass.owned
    · exact hpass.owned_other hid (howned id)

omit [CellBackend B Spec] in
theorem Owned.record_eq {id : CellId} (h : Owned s id) : (s.cells[id]?).map (·.completed) =
    if held id s.log = [] then none else some (held id s.log).reverse := by
  cases hrecord : s.cells[id]? with
  | none =>
    have habsent : id ∉ s.cells := by grind
    rw [if_pos (not_not.mp (mt h.present.mpr habsent))]
    rfl
  | some record =>
    have hmem : id ∈ s.cells := by grind
    rw [if_neg (h.present.mp hmem)]
    exact congrArg some (h.listed record hrecord)

theorem start_refused (howned : Owned s (CellSpec.id spec))
    (h : held (CellSpec.id spec) s.log ≠ [] ∨ ∃ e, CellSpec.validate spec = .error e) :
    ∃ e, Supervisor.start spec s = .error e s := by
  unfold Supervisor.start
  cases hvalid : CellSpec.validate spec with
  | error problems => exact ⟨.invalidSpec problems, rfl⟩
  | ok _ =>
    have hheld : held (CellSpec.id spec) s.log ≠ [] := by
      rcases h with hheld | ⟨e, he⟩
      · exact hheld
      · rw [hvalid] at he
        cases he
    rw [mapErr_bind_run rfl, get_bind_run, rejectIf_bind_throw (howned.present.mpr hheld)]
    exact ⟨_, rfl⟩

theorem teardown_ok_iff {id : CellId}
    (h : Ends (Supervisor.teardown id) s (fun _ s' => Pass id s s' ∧ held id s'.log = [])
      fun s' => Pass id s s' ∧ held id s'.log ≠ []) :
    (∃ report s', Supervisor.teardown id s = .ok report s') ↔
      held id ((Request.teardown id).serve s).log = [] := by
  show _ ↔ held id (final (Supervisor.teardown id) s).log = []
  unfold Ends at h
  unfold final
  cases hrun : Supervisor.teardown id s with
  | ok report s' =>
    rw [hrun] at h
    exact ⟨fun _ => h.2, fun _ => ⟨report, s', rfl⟩⟩
  | error e s' =>
    rw [hrun] at h
    exact ⟨fun ⟨_, _, heq⟩ => (by cases heq), fun hempty => absurd hempty h.2⟩

/-- **The lifecycle transaction.**  For every backend and every run of starts and teardowns:

    * a stage is reversed only while it is applied under its cell, and the handle is published only
      over all the other stages;
    * the record of a cell is its applied stages, oldest first, which is construction order, and
      there is a record exactly when there are any;
    * a pass of the next call applies, then reverses all that the cell holds, newest first;
    * a start is refused, with no call on the backend, while stages remain or for an invalid spec;
    * a teardown succeeds exactly when nothing remains;
    * the records of the other cells are not touched. -/
theorem transaction_kept (backend : B) (requests : List (Request Spec)) :
    let s := run ({ inner := backend } : Recorded B) requests
    (∀ before entry after, s.log = before ++ entry :: after → entry.kind = .reverse →
      entry.stage ∈ held entry.key before) ∧
    (∀ before entry after, s.log = before ++ entry :: after → entry.kind = .apply →
      entry.stage = .publishHandle →
      ∀ step, step ≠ .publishHandle → step ∈ held entry.key before) ∧
    (∀ id, (held id s.log).reverse.Sublist CONSTRUCTION_ORDER ∧
      (s.cells[id]?).map (·.completed) =
        if held id s.log = [] then none else some (held id s.log).reverse) ∧
    (∀ request : Request Spec, ∃ applied reversed,
      (request.serve s).log = s.log ++ applied ++ reversed ∧
      (∀ entry ∈ applied, entry.kind = .apply ∧ entry.key = request.cell) ∧
      (∀ entry ∈ reversed, entry.kind = .reverse ∧ entry.key = request.cell) ∧
      (reversed = [] ∨ reversed.map (·.stage) = held request.cell (s.log ++ applied))) ∧
    (∀ spec, held (CellSpec.id spec) s.log ≠ [] ∨ (∃ e, CellSpec.validate spec = .error e) →
      ∃ e, Supervisor.start spec s = .error e s) ∧
    (∀ id, (∃ report s', Supervisor.teardown id s = .ok report s') ↔
      held id ((Request.teardown id).serve s).log = []) ∧
    ∀ (request : Request Spec) (id : CellId), id ≠ request.cell →
      (request.serve s).cells[id]? = s.cells[id]? := by
  intro s
  obtain ⟨hobeys, howned⟩ := run_owned backend requests
  refine ⟨?_, ?_, fun id => ⟨(howned id).ordered, ?_⟩, fun request => ?_, fun spec hrefused => ?_,
    fun id => ?_, fun request id hid => ?_⟩
  · intro before entry after hlog hkind
    have hallowed := hobeys before entry after hlog
    unfold Allowed at hallowed
    rwa [hkind] at hallowed
  · intro before entry after hlog hkind
    have hallowed := hobeys before entry after hlog
    unfold Allowed at hallowed
    rwa [hkind] at hallowed
  · exact (howned id).record_eq
  · exact (serve_pass hobeys (howned request.cell)).calls
  · exact start_refused (howned (CellSpec.id spec)) hrefused
  · exact teardown_ok_iff (teardown_ends hobeys (howned id))
  · exact (serve_pass hobeys (howned request.cell)).records id hid

end Loops

end Droidloom.Lifecycle
