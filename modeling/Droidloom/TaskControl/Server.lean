/-
  The task-control server, one request at a time (`TaskCoordinator`, `control.rs`).

  `registry` numbers the windows; the three `direct` maps are the allowlist of framework tasks.
  A publication first looks for the task's window: the same incarnation gets it again, another
  incarnation has it removed, and only then is a new one reserved, staged, configured and bound.
  What the Composer and the presenter answer on the way is a parameter (`Peers`): each of their
  calls may fail, and the server's own cleanup after such a failure is part of the model.

  A process starts with an empty registry.  Its first object number is a parameter of its own.
-/
import Droidloom.Graphics.TaskRegistry

namespace Droidloom.TaskControl

open Std Fallible Graphics

inductive ControlErrorCode
  | protocol
  | invalidRequest
  | notFound
  | conflict
  | configureTimeout
  | backend
deriving DecidableEq, Repr

/-- `control_error`, which reads the code off the message of the error. -/
def controlError : TaskControlError → ControlErrorCode
  | .unknownObject _ => .notFound
  | .unknownTask _ => .notFound
  | .duplicateTask _ => .conflict
  | .invalidPhase _ _ _ => .conflict
  | .taskLimit => .invalidRequest
  | .identifierExhausted => .invalidRequest
  | .invalidSpec (.unknownTask _) => .notFound
  | .invalidSpec (.unknownDisplay _) => .notFound
  | .invalidSpec (.duplicateTask _) => .conflict
  | .invalidSpec (.duplicateDisplay _) => .conflict
  | .invalidSpec (.displayAlreadyBound _) => .conflict
  | .invalidSpec _ => .invalidRequest

/-- Whether each call on the Composer and on the presenter succeeds during a request. -/
structure Peers where
  stageTask : Bool := true
  registerTask : Bool := true
  configured : Bool := true
  bindTask : Bool := true
  bindDirectTask : Bool := true
  bindInputRoute : Bool := true
  requestActivation : Bool := true
  requestTaskRemoval : Bool := true
  removeDisplay : Bool := true
  unregisterTask : Bool := true

structure ControlServer where
  registry : TaskControlRegistry := {}
  retired : Finset TaskObjectId := ∅
  directTasks : ExtTreeMap TaskId TaskObjectId compare := ∅
  directAndroidDisplays : ExtTreeMap TaskObjectId UInt32 compare := ∅
  directIncarnations : ExtTreeMap TaskObjectId UInt64 compare := ∅

namespace ControlServer

abbrev Method := EStateM ControlErrorCode ControlServer

def onRegistry {α : Type} (x : TaskControlRegistry.Method α) : Method α :=
  zoom (·.registry) (fun registry s => { s with registry }) controlError x

/-- `let _ = …`: the outcome is dropped, the effect is kept. -/
def quietly {α : Type} (x : Method α) : Method Unit :=
  fun s => .ok () (Triple.final x s)

def forgetDirect (s : ControlServer) (object : TaskObjectId) : ControlServer :=
  { s with
    directAndroidDisplays := s.directAndroidDisplays.erase object
    directIncarnations := s.directIncarnations.erase object
    directTasks := s.directTasks.filter fun _ owned => owned ≠ object }

def retire (s : ControlServer) (object : TaskObjectId) : ControlServer :=
  { s with retired := insert object s.retired }

def removeInternal (peers : Peers) (object : TaskObjectId) : Method Unit := do
  let registration ← mapErr controlError ((← get).registry.lookup object)
  if registration.phase = .reserved then
    let _ ← onRegistry (TaskControlRegistry.cancelReservation object)
    modify fun s => (s.forgetDirect object).retire object
  else
    if registration.phase ≠ .removing then onRegistry (TaskControlRegistry.beginRemoval object)
    rejectIf (¬ peers.requestTaskRemoval) .backend
    rejectIf (¬ peers.removeDisplay) .backend
    rejectIf (¬ peers.unregisterTask) .backend
    let _ ← onRegistry (TaskControlRegistry.finishRemoval object)
    modify fun s =>
      (if object ∈ s.directAndroidDisplays then s.forgetDirect object else s).retire object

def remove (peers : Peers) (object : TaskObjectId) : Method Unit := do
  if object ∈ (← get).retired then return () else removeInternal peers object

/-- A direct task enters the allowlist with its window. -/
def enroll (s : ControlServer) (task : TaskId) (object : TaskObjectId) (androidDisplay : UInt32)
    (incarnation : Option UInt64) : ControlServer :=
  { s with
    directTasks := s.directTasks.insert task object
    directAndroidDisplays := s.directAndroidDisplays.insert object androidDisplay
    directIncarnations :=
      incarnation.elim s.directIncarnations fun i => s.directIncarnations.insert object i }

/-- The cleanup of a reservation that could not be staged. -/
def dismiss (s : ControlServer) (task : TaskId) (object : TaskObjectId) : ControlServer :=
  { s with
    directTasks := s.directTasks.erase task
    directAndroidDisplays := s.directAndroidDisplays.erase object
    directIncarnations := s.directIncarnations.erase object }

/-- `reserve_with_kind` for a direct task. -/
def reserveDirect (peers : Peers) (package : String) (task : TaskId) (androidDisplay : UInt32)
    (incarnation : Option UInt64) : Method TaskRegistration := do
  let registration ← onRegistry (TaskControlRegistry.reserve package)
  let object := registration.object
  if task ∈ (← get).directTasks then
    quietly (onRegistry (TaskControlRegistry.cancelReservation object))
    throw .conflict
  modify (·.enroll task object androidDisplay incarnation)
  if ¬ peers.stageTask then
    quietly (onRegistry (TaskControlRegistry.cancelReservation object))
    modify (·.dismiss task object)
    throw .backend
  onRegistry (TaskControlRegistry.markStaged object)
  if ¬ peers.registerTask then
    quietly (onRegistry (TaskControlRegistry.beginRemoval object))
    quietly (onRegistry (TaskControlRegistry.finishRemoval object))
    modify fun s => (s.retire object).dismiss task object
    throw .backend
  -- the event pump marks the display connected, or the wait times out
  if ¬ peers.configured then
    quietly (removeInternal peers object)
    throw .configureTimeout
  onRegistry (TaskControlRegistry.markConnected object)
  return registration

/-- The window that a publication of the task gets back, or the one it has to replace. -/
def findDirect (s : ControlServer) (task : TaskId) (package : String) (androidDisplay : UInt32)
    (incarnation : Option UInt64) :
    Except ControlErrorCode (Option (TaskRegistration × Bool)) :=
  match s.directTasks[task]? with
  | none => return none
  | some existing => do
    let registration ← mapErr (fun _ => .backend) (s.registry.lookup existing)
    if incarnation.isSome ∧ s.directIncarnations[existing]? ≠ incarnation then
      return some (registration, true)
    rejectIf (registration.reservation.package ≠ package ∨
      registration.androidDisplay ≠ some androidDisplay) .backend
    return some (registration, false)

def reserveAndBind (peers : Peers) (task : TaskId) (package : String) (androidDisplay : UInt32)
    (incarnation : Option UInt64) : Method (TaskObjectId × DisplayId) := do
  let registration ← reserveDirect peers package task androidDisplay incarnation
  rejectIf (¬ peers.bindTask) .backend
  rejectIf (¬ peers.bindDirectTask) .backend
  let _ ← onRegistry (TaskControlRegistry.bindTask registration.object task androidDisplay)
  return (registration.object, registration.reservation.display)

def registerDirectTask (peers : Peers) (task : TaskId) (package : String)
    (androidDisplay : UInt32) (incarnation : Option UInt64) :
    Method (TaskObjectId × DisplayId) := do
  rejectIf (task = 0 ∨ task > 0x7fffffff) .backend
  match ← mapErr id ((← get).findDirect task package androidDisplay incarnation) with
  | some (registration, false) => return (registration.object, registration.reservation.display)
  | some (registration, true) =>
    removeInternal peers registration.object
    reserveAndBind peers task package androidDisplay incarnation
  | none => reserveAndBind peers task package androidDisplay incarnation

/-- Every failure of `register_direct_task` is reported as one of the backend. -/
def registerDirect (peers : Peers) (package : String) (task : TaskId) (androidDisplay : UInt32)
    (incarnation : Option UInt64) (activate : Bool) : Method (TaskObjectId × DisplayId) := do
  rejectIf (androidDisplay > 0x7fffffff) .invalidRequest
  let (object, display) ← zoom id (fun s _ => s) (fun _ => .backend)
    (registerDirectTask peers task package androidDisplay incarnation)
  rejectIf (¬ peers.bindInputRoute) .backend
  rejectIf (activate ∧ ¬ peers.requestActivation) .backend
  return (object, display)

end ControlServer

/-! ## Requests and replies -/

inductive ControlRequest
  | publishFramework (requestId : UInt64) (package : String) (task : TaskId)
      (androidDisplay : UInt32) (incarnation : UInt64) (activate : Bool)
  | remove (requestId : UInt64) (object : TaskObjectId)

inductive ControlResponse
  | bound (requestId : UInt64) (object : TaskObjectId) (task : TaskId) (display : DisplayId)
      (androidDisplay : UInt32)
  | removed (requestId : UInt64) (object : TaskObjectId)
  | error (requestId : UInt64) (code : ControlErrorCode)
deriving DecidableEq, Repr

namespace ControlServer

/-- `handle`, with the error response that `serve_connection` makes of a failure. -/
def handle (s : ControlServer) (peers : Peers) :
    ControlRequest → ControlResponse × ControlServer
  | .publishFramework requestId package task androidDisplay incarnation activate =>
    match registerDirect peers package task androidDisplay (some incarnation) activate s with
    | .ok (object, display) s' => (.bound requestId object task display androidDisplay, s')
    | .error code s' => (.error requestId code, s')
  | .remove requestId object =>
    match remove peers object s with
    | .ok _ s' => (.removed requestId object, s')
    | .error code s' => (.error requestId code, s')

/-- A fresh process. -/
def start (firstObject : UInt64) : Except TaskControlError ControlServer := do
  let registry ← TaskControlRegistry.withFirstIds 1 firstObject
  return { registry }

end ControlServer

end Droidloom.TaskControl
