/-
  The Composer's record of one task display (`droidloom-transport`, `droidloom-composer`).

  `PresentationState` is the Android twin of the host's `TaskPresentationState`: a frame enters
  `inFlight` when Surface Flinger's target is submitted and leaves it when the host's release
  arrives, or at once when the submission could not be sent.  The window of the display cannot be
  removed before the last frame has left.

  The layers of a display are validated generation by generation.  A present through them is the
  last step of a command; in the direct path Surface Flinger has submitted its own target before,
  and no layer operation touches a frame.
-/
import Droidloom.Lib.Triple
import Droidloom.Protocol.TaskState

namespace Droidloom.Graphics

open Std Fallible Triple

abbrev DisplayId := UInt64
abbrev TaskId := UInt64

/-! ## The presentation state -/

structure Configure where
  serial : UInt32
  width : UInt32
  height : UInt32
  refreshMillihz : UInt32
deriving DecidableEq, Repr

structure AcceptedFrame where
  frameId : FrameId
  buffer : BufferMetadata
  damage : List Damage
  requiresAcquireFence : Bool
deriving DecidableEq, Repr

structure ReleasedFrame where
  frameId : FrameId
  bufferId : BufferId
  hasReleaseFence : Bool
deriving DecidableEq, Repr

structure PresentationState where
  feedback : Finset FormatModifier := ∅
  latestConfigure : Option Configure := none
  acknowledgedSerial : Option UInt32 := none
  inFlight : ExtTreeMap FrameId BufferId compare := ∅
  busyBuffers : Finset BufferId := ∅
  nextFrameId : UInt64 := 0

/-- `u64::checked_add(1)`. -/
def checkedSucc (n : UInt64) : Option UInt64 :=
  if n = 0xffffffffffffffff then none else some (n + 1)

theorem lt_of_checkedSucc {n m : UInt64} (h : checkedSucc n = some m) : n < m := by
  unfold checkedSucc at h
  split at h
  · cases h
  · rename_i hn
    obtain rfl := Option.some.inj h
    have hne : n.toNat ≠ 18446744073709551615 := fun h => hn (UInt64.toNat_inj.mp h)
    have hlt := n.toNat_lt
    rw [UInt64.lt_iff_toNat_lt, UInt64.toNat_add]
    show n.toNat < (n.toNat + 1) % 2 ^ 64
    rw [Nat.mod_eq_of_lt (by omega)]
    omega

def damageFits (damage : Damage) (buffer : BufferMetadata) : Bool :=
  damage.width > 0 && damage.height > 0 &&
    (checkedAdd damage.x damage.width).any (· ≤ buffer.width) &&
    (checkedAdd damage.y damage.height).any (· ≤ buffer.height)

/-- The two ends check a damage rectangle alike. -/
theorem damageFits_eq (damage : Damage) (buffer : BufferMetadata) :
    damageFits damage buffer = TaskState.damageInside buffer.width buffer.height damage := by
  have hpos (v : UInt32) : decide (v > 0) = decide (v ≠ 0) := by
    rw [decide_eq_decide, gt_iff_lt, UInt32.lt_iff_toNat_lt, ← UInt32.toNat_inj.ne]
    exact Nat.pos_iff_ne_zero
  unfold damageFits TaskState.damageInside
  rw [hpos, hpos]
  simp only [Bool.decide_and, Bool.decide_eq_true, Bool.and_assoc]

namespace PresentationState

abbrev Method := EStateM TransportError PresentationState

def replaceFeedback (s : PresentationState) (formats : List FormatModifier) : PresentationState :=
  { s with feedback := formats.toFinset }

/-- A new serial invalidates an earlier acknowledgement. -/
def configure (s : PresentationState) (configure : Configure) : PresentationState :=
  { s with
    acknowledgedSerial :=
      if s.latestConfigure.map (·.serial) ≠ some configure.serial then none
      else s.acknowledgedSerial
    latestConfigure := some configure }

def acknowledge (serial : UInt32) : Method Unit := do
  let s ← get
  rejectIf (s.latestConfigure.map (·.serial) ≠ some serial) (.invalidSerial serial)
  set { s with acknowledgedSerial := some serial }

def submit (buffer : BufferMetadata) (damage : List Damage) (hasAcquireFence : Bool) :
    Method AcceptedFrame := do
  let s ← get
  let configure ← okOr s.latestConfigure .unconfigured
  rejectIf (s.acknowledgedSerial ≠ some configure.serial) .unconfigured
  mapErr id buffer.validate
  rejectIf ((buffer.width, buffer.height) ≠ (configure.width, configure.height))
    (.sizeMismatch configure.width configure.height buffer.width buffer.height)
  rejectIf (buffer.format ∉ s.feedback)
    (.unsupportedFormat buffer.format.fourcc buffer.format.modifier)
  rejectIf (¬ hasAcquireFence) .missingFence
  rejectIf (buffer.id ∈ s.busyBuffers) (.bufferInFlight buffer.id)
  rejectIf (damage.any fun rect => ¬ damageFits rect buffer) .invalidDamage
  let nextFrameId ← okOr (checkedSucc s.nextFrameId) .frameIdExhausted
  set { s with
    nextFrameId
    busyBuffers := insert buffer.id s.busyBuffers
    inFlight := s.inFlight.insert nextFrameId buffer.id }
  return { frameId := nextFrameId, buffer, damage, requiresAcquireFence := true }

/-- A frame leaves the collections together with its buffer. -/
def forget (s : PresentationState) (frame : FrameId) (buffer : BufferId) : PresentationState :=
  { s with inFlight := s.inFlight.erase frame, busyBuffers := s.busyBuffers.erase buffer }

def release (frame : FrameId) (hasReleaseFence : Bool) : Method ReleasedFrame := do
  let s ← get
  rejectIf (¬ hasReleaseFence) .missingFence
  let buffer ← okOr s.inFlight[frame]? (.unknownFrame frame)
  set (s.forget frame buffer)
  return { frameId := frame, bufferId := buffer, hasReleaseFence := true }

/-- Valid only before the host may have received the frame's present. -/
def cancelUnsubmitted (frame : FrameId) : Method BufferId := do
  let s ← get
  let buffer ← okOr s.inFlight[frame]? (.unknownFrame frame)
  set (s.forget frame buffer)
  return buffer

def inFlightCount (s : PresentationState) : Nat := s.inFlight.size

/-! ### What each operation can do -/

variable {s : PresentationState}

theorem acknowledge_spec {serial : UInt32} :
    Atomic (acknowledge serial) s fun _ s' =>
      s.latestConfigure.map (·.serial) = some serial ∧
      s' = { s with acknowledgedSerial := some serial } :=
  atomic_get_bind (atomic_rejectIf_bind fun h => atomic_set ⟨not_not.mp h, rfl⟩)

/-- The guards of `submit` that the host checks again, and the frame number it hands out. -/
structure CanSubmit (s : PresentationState) (buffer : BufferMetadata) (damage : List Damage)
    (configure : Configure) (frame : FrameId) : Prop where
  configure_eq : s.latestConfigure = some configure
  acknowledged : s.acknowledgedSerial = some configure.serial
  size_eq : (buffer.width, buffer.height) = (configure.width, configure.height)
  format_mem : buffer.format ∈ s.feedback
  not_busy : buffer.id ∉ s.busyBuffers
  damage_fits : damage.all fun rect => damageFits rect buffer
  fresh : s.nextFrameId < frame

/-- The state after an accepted submission. -/
def accept (s : PresentationState) (frame : FrameId) (buffer : BufferId) : PresentationState :=
  { s with
    nextFrameId := frame
    busyBuffers := insert buffer s.busyBuffers
    inFlight := s.inFlight.insert frame buffer }

theorem submit_spec {buffer : BufferMetadata} {damage : List Damage} {hasAcquireFence : Bool} :
    Atomic (submit buffer damage hasAcquireFence) s fun accepted s' =>
      ∃ configure, CanSubmit s buffer damage configure accepted.frameId ∧
        accepted = { frameId := accepted.frameId, buffer, damage, requiresAcquireFence := true } ∧
        s' = s.accept accepted.frameId buffer.id := by
  refine atomic_get_bind (atomic_okOr_bind fun configure hconfigure =>
    atomic_rejectIf_bind fun hack => atomic_mapErr_bind fun _ _ =>
    atomic_rejectIf_bind fun hsize => atomic_rejectIf_bind fun hformat =>
    atomic_rejectIf_bind fun _ => atomic_rejectIf_bind fun hbusy =>
    atomic_rejectIf_bind fun hdamage => atomic_okOr_bind fun frame hframe =>
    atomic_set_pure ⟨configure, ?_, rfl, rfl⟩)
  rw [not_not] at hack hsize hformat
  refine ⟨hconfigure, hack, hsize, hformat, hbusy, ?_, lt_of_checkedSucc hframe⟩
  simpa using hdamage

theorem release_spec {frame : FrameId} {hasReleaseFence : Bool} :
    Atomic (release frame hasReleaseFence) s fun released s' =>
      s.inFlight[frame]? = some released.bufferId ∧ released.frameId = frame ∧
      s' = s.forget frame released.bufferId :=
  atomic_get_bind (atomic_rejectIf_bind fun _ => atomic_okOr_bind fun _ hb =>
    atomic_set_pure ⟨hb, rfl, rfl⟩)

theorem cancelUnsubmitted_spec {frame : FrameId} :
    Atomic (cancelUnsubmitted frame) s fun buffer s' =>
      s.inFlight[frame]? = some buffer ∧ s' = s.forget frame buffer :=
  atomic_get_bind (atomic_okOr_bind fun _ hb => atomic_set_pure ⟨hb, rfl⟩)

end PresentationState

/-! ## The Composer -/

inductive PowerMode
  | off
  | on
  | doze
  | dozeSuspend
deriving DecidableEq, Repr

structure VsyncSample where
  display : DisplayId
  timestampNanos : UInt64
  periodNanos : UInt64
deriving DecidableEq, Repr

abbrev LayerId := UInt64

inductive Composition
  | client
  | device
  | solidColor
  | cursor
  | sideband
deriving DecidableEq, Repr

structure LayerState where
  id : LayerId
  requestedComposition : Composition
  z : Int32
  protectedContent : Bool
deriving DecidableEq, Repr

structure CompositionChange where
  layer : LayerId
  composition : Composition
deriving DecidableEq, Repr

structure ClientTarget where
  buffer : BufferMetadata
  damage : List Damage
  hasAcquireFence : Bool
deriving DecidableEq, Repr

inductive ComposerError
  | unknownDisplay (expected actual : DisplayId)
  | duplicateLayer (layer : LayerId)
  | unknownLayer (layer : LayerId)
  | notValidated
  | changesNotAccepted
  | missingClientTarget
  | protectedContent (layer : LayerId)
  | displayOff
  | unsupportedPowerMode (mode : PowerMode)
  | missingRefreshRate
  | transport (error : TransportError)
deriving DecidableEq, Repr

structure Composer where
  display : DisplayId
  layers : ExtTreeMap LayerId LayerState compare := ∅
  generation : UInt64 := 0
  validatedGeneration : Option UInt64 := none
  changesAccepted : Bool := false
  clientTarget : Option ClientTarget := none
  transport : PresentationState := {}
  powerMode : PowerMode := .off
  vsyncEnabled : Bool := false
  refreshMillihz : UInt32 := 0
  lastPresentationNanos : Option UInt64 := none

namespace Composer

abbrev Method := EStateM ComposerError Composer

/-- A call on `self.transport`, with `?`. -/
def onTransport {α : Type} : PresentationState.Method α → Method α :=
  zoom (·.transport) (fun t c => { c with transport := t }) .transport

def requireDisplay (c : Composer) (display : DisplayId) : Method Unit :=
  rejectIf (display ≠ c.display) (.unknownDisplay c.display display)

def replaceFeedback (c : Composer) (formats : List FormatModifier) : Composer :=
  { c with transport := c.transport.replaceFeedback formats }

def configure (c : Composer) (configure : Configure) : Composer :=
  { c with
    refreshMillihz := configure.refreshMillihz
    transport := c.transport.configure configure }

def setPowerMode (display : DisplayId) (mode : PowerMode) : Method Unit := do
  let c ← get
  c.requireDisplay display
  match mode with
  | .off => set { c with powerMode := mode, vsyncEnabled := false }
  | .on => set { c with powerMode := mode }
  | .doze | .dozeSuspend => throw (.unsupportedPowerMode mode)

def setVsyncEnabled (display : DisplayId) (enabled : Bool) : Method Unit := do
  let c ← get
  c.requireDisplay display
  rejectIf (enabled ∧ c.powerMode ≠ .on) .displayOff
  set { c with vsyncEnabled := enabled }

/-- A sample at or before the latest one repeats a refresh and produces no callback. -/
def presentationSample (timestampNanos : UInt64) : Method (Option VsyncSample) := do
  let c ← get
  if c.lastPresentationNanos.any (timestampNanos ≤ ·) then return none
  let c := { c with lastPresentationNanos := some timestampNanos }
  set c
  if c.powerMode ≠ .on ∨ ¬ c.vsyncEnabled then return none
  rejectIf (c.refreshMillihz = 0) .missingRefreshRate
  return some {
    display := c.display
    timestampNanos
    periodNanos := 1000000000000 / c.refreshMillihz.toUInt64 }

def acknowledgeConfigure (serial : UInt32) : Method Unit :=
  onTransport (PresentationState.acknowledge serial)

/-- Surface Flinger rendered the whole display image into a host target. -/
def submitRenderedTarget (display : DisplayId) (target : ClientTarget) : Method AcceptedFrame := do
  let c ← get
  c.requireDisplay display
  rejectIf (c.powerMode ≠ .on) .displayOff
  onTransport (PresentationState.submit target.buffer target.damage target.hasAcquireFence)

def releasePresentedTarget (frame : FrameId) (hasReleaseFence : Bool) : Method ReleasedFrame :=
  onTransport (PresentationState.release frame hasReleaseFence)

def cancelUnsubmittedTarget (frame : FrameId) : Method BufferId :=
  onTransport (PresentationState.cancelUnsubmitted frame)

/-! ### Layers -/

/-- A change of the layers needs a new validation. -/
def invalidate (c : Composer) : Composer :=
  { c with
    generation := (checkedSucc c.generation).getD c.generation
    validatedGeneration := none
    changesAccepted := false }

def requireCurrentValidation (c : Composer) (display : DisplayId) : Method Unit := do
  c.requireDisplay display
  rejectIf (c.validatedGeneration ≠ some c.generation) .notValidated

def createLayer (display : DisplayId) (layer : LayerState) : Method Unit := do
  let c ← get
  c.requireDisplay display
  rejectIf (layer.id ∈ c.layers) (.duplicateLayer layer.id)
  set (invalidate { c with layers := c.layers.insert layer.id layer })

/-- A patch that changes nothing keeps the validation. -/
def updateLayer (display : DisplayId) (layer : LayerState) : Method Unit := do
  let c ← get
  c.requireDisplay display
  let existing ← okOr c.layers[layer.id]? (.unknownLayer layer.id)
  if existing ≠ layer then set (invalidate { c with layers := c.layers.insert layer.id layer })

def layerState (display : DisplayId) (layer : LayerId) : Method LayerState := do
  let c ← get
  c.requireDisplay display
  okOr c.layers[layer]? (.unknownLayer layer)

def destroyLayer (display : DisplayId) (layer : LayerId) : Method Unit := do
  let c ← get
  c.requireDisplay display
  rejectIf (layer ∉ c.layers) (.unknownLayer layer)
  set (invalidate { c with layers := c.layers.erase layer })

/-- Every layer is corrected to client composition; protected content fails. -/
def validateDisplay (display : DisplayId) : Method (List CompositionChange) := do
  let c ← get
  c.requireDisplay display
  let layers := c.layers.toList.map (·.2)
  match layers.find? (·.protectedContent) with
  | some layer => throw (.protectedContent layer.id)
  | none =>
    let changes : List CompositionChange :=
      (layers.filter (·.requestedComposition ≠ .client)).map (⟨·.id, .client⟩)
    set { c with
      validatedGeneration := some c.generation
      changesAccepted := changes.isEmpty }
    return changes

def acceptDisplayChanges (display : DisplayId) : Method Unit := do
  let c ← get
  c.requireCurrentValidation display
  rejectIf (c.powerMode ≠ .on) .displayOff
  let layers := c.layers.map fun _ layer => { layer with requestedComposition := .client }
  set { c with layers, changesAccepted := true }

def setClientTarget (display : DisplayId) (target : ClientTarget) : Method Unit := do
  let c ← get
  c.requireDisplay display
  set { c with clientTarget := some target }

/-- The target is taken even when the transport then refuses it. -/
def presentDisplay (display : DisplayId) : Method AcceptedFrame := do
  let c ← get
  c.requireCurrentValidation display
  rejectIf (¬ c.changesAccepted) .changesNotAccepted
  let target ← okOr c.clientTarget .missingClientTarget
  set { c with clientTarget := none }
  let frame ←
    onTransport (PresentationState.submit target.buffer target.damage target.hasAcquireFence)
  modify fun c => { c with validatedGeneration := none, changesAccepted := false }
  return frame

/-- Surface Flinger's own target has been submitted before. -/
def presentDisplayDirect (display : DisplayId) : Method Unit := do
  let c ← get
  c.requireCurrentValidation display
  rejectIf (¬ c.changesAccepted) .changesNotAccepted
  rejectIf (c.powerMode ≠ .on) .displayOff
  set { c with validatedGeneration := none, changesAccepted := false }

def inFlightCount (c : Composer) : Nat := c.transport.inFlightCount

def inFlightBuffer (c : Composer) (frame : FrameId) : Option BufferId :=
  c.transport.inFlight[frame]?

/-! ### What each operation can do -/

variable {c : Composer} {α : Type}

theorem onTransport_spec {x : PresentationState.Method α} {Q : α → PresentationState → Prop}
    (hx : Atomic x c.transport Q) :
    Atomic (onTransport x) c fun a c' => ∃ t, Q a t ∧ c' = { c with transport := t } :=
  atomic_zoom rfl (hx.mono fun _ t ht => ⟨t, ht, rfl⟩)

theorem setPowerMode_spec {display : DisplayId} {mode : PowerMode} :
    Atomic (setPowerMode display mode) c fun _ c' => c'.transport = c.transport := by
  refine atomic_get_bind (atomic_rejectIf_bind fun _ => ?_)
  cases mode with
  | off => exact atomic_set rfl
  | on => exact atomic_set rfl
  | doze => exact atomic_throw _
  | dozeSuspend => exact atomic_throw _

theorem setVsyncEnabled_spec {display : DisplayId} {enabled : Bool} :
    Atomic (setVsyncEnabled display enabled) c fun _ c' => c'.transport = c.transport :=
  atomic_get_bind (atomic_rejectIf_bind fun _ => atomic_rejectIf_bind fun _ => atomic_set rfl)

/-- Also a sample that fails half-way keeps to the timing fields. -/
theorem presentationSample_spec {timestampNanos : UInt64} :
    Ends (presentationSample timestampNanos) c (fun _ c' => c'.transport = c.transport)
      (fun c' => c'.transport = c.transport) := by
  refine ends_get_bind (ends_ite (fun _ => ends_pure rfl) fun _ => ?_)
  refine ends_set_bind (ends_ite (fun _ => ends_pure rfl) fun _ => ?_)
  exact ends_bind (Q := fun _ c' => c'.transport = c.transport)
    (ends_rejectIf (fun _ => rfl) fun _ => rfl) fun _ _ h => ends_pure h

end Composer

/-! ## The task windows of a session -/

def MAX_TASK_WINDOWS : Nat := 4096

inductive TaskWindowError
  | windowLimit
  | invalidTask
  | invalidDisplay
  | duplicateTask (task : TaskId)
  | duplicateDisplay (display : DisplayId)
  | unknownTask (task : TaskId)
  | unknownDisplay (display : DisplayId)
  | displayAlreadyBound (display : DisplayId)
  | invalidPackage
  | buffersInFlight (task : TaskId) (buffers : Nat)
  | displayBuffersInFlight (display : DisplayId) (buffers : Nat)
deriving DecidableEq, Repr

structure ReservedTaskWindowSpec where
  display : DisplayId
  package : String
deriving DecidableEq, Repr

def ReservedTaskWindowSpec.validate (reservation : ReservedTaskWindowSpec) :
    Except TaskWindowError Unit := do
  rejectIf (reservation.display = 0) .invalidDisplay
  rejectIf (¬ validPackage reservation.package) .invalidPackage

structure TaskWindowSpec where
  task : TaskId
  display : DisplayId
  package : String
deriving DecidableEq, Repr

def TaskWindowSpec.validate (spec : TaskWindowSpec) : Except TaskWindowError Unit := do
  rejectIf (spec.task = 0) .invalidTask
  ReservedTaskWindowSpec.validate { display := spec.display, package := spec.package }

structure TaskWindow where
  reservation : ReservedTaskWindowSpec
  spec : Option TaskWindowSpec
  composer : Composer

structure TaskWindowSet where
  windows : ExtTreeMap DisplayId TaskWindow compare := ∅
  tasks : ExtTreeMap TaskId DisplayId compare := ∅

namespace TaskWindowSet

abbrev Method := EStateM TaskWindowError TaskWindowSet

/-- A display is staged before Android has created its activity task. -/
def reserve (reservation : ReservedTaskWindowSpec) : Method Unit := do
  let s ← get
  rejectIf (s.windows.size ≥ MAX_TASK_WINDOWS) .windowLimit
  mapErr id reservation.validate
  rejectIf (reservation.display ∈ s.windows) (.duplicateDisplay reservation.display)
  let window : TaskWindow :=
    { reservation, spec := none, composer := { display := reservation.display } }
  set { s with windows := s.windows.insert reservation.display window }

def bindTask (display : DisplayId) (task : TaskId) : Method TaskWindowSpec := do
  let s ← get
  rejectIf (task = 0) .invalidTask
  rejectIf (task ∈ s.tasks) (.duplicateTask task)
  let window ← okOr s.windows[display]? (.unknownDisplay display)
  match window.spec with
  | some spec =>
    rejectIf (spec.task ≠ task) (.displayAlreadyBound display)
    return spec
  | none =>
    let spec := { task, display, package := window.reservation.package }
    set { s with
      windows := s.windows.insert display { window with spec := some spec }
      tasks := s.tasks.insert task display }
    return spec

/-- A window with its task at once; a task that cannot be bound takes the window with it. -/
def create (spec : TaskWindowSpec) : Method Unit := do
  mapErr id spec.validate
  reserve { display := spec.display, package := spec.package }
  match ← attempt (bindTask spec.display spec.task) with
  | .ok _ => return ()
  | .error e =>
    modify fun s => { s with windows := s.windows.erase spec.display }
    throw e

/-- Refused while the host still owns a frame of the display. -/
def removeDisplay (display : DisplayId) : Method (Option TaskWindowSpec) := do
  let s ← get
  let window ← okOr s.windows[display]? (.unknownDisplay display)
  let buffers := window.composer.inFlightCount
  rejectIf (buffers ≠ 0) (.displayBuffersInFlight display buffers)
  set { s with
    windows := s.windows.erase display
    tasks := window.spec.elim s.tasks fun spec => s.tasks.erase spec.task }
  return window.spec

def remove (task : TaskId) : Method TaskWindowSpec := do
  let s ← get
  let display ← okOr s.tasks[task]? (.unknownTask task)
  let window ← okOr s.windows[display]? (.unknownTask task)
  let buffers := window.composer.inFlightCount
  rejectIf (buffers ≠ 0) (.buffersInFlight task buffers)
  let spec ← removeDisplay display
  okOr spec (.unknownTask task)

/-- `composer_for_display_mut` and a call on that Composer, whatever the call answers. -/
def borrow (display : DisplayId) (x : Composer.Method Unit) : Method Unit := do
  let s ← get
  let window ← okOr s.windows[display]? (.unknownDisplay display)
  let window := { window with composer := final x window.composer }
  set { s with windows := s.windows.insert display window }

/-- `composer_mut` and a call on that Composer. -/
def borrowFor (task : TaskId) (x : Composer.Method Unit) : Method Unit := do
  let s ← get
  let display ← okOr s.tasks[task]? (.unknownTask task)
  let window ← okOr s.windows[display]? (.unknownTask task)
  let window := { window with composer := final x window.composer }
  set { s with windows := s.windows.insert display window }

/-! ### What each operation can do -/

variable {s : TaskWindowSet}

/-- A staged window has no task and a fresh Composer. -/
def staged (reservation : ReservedTaskWindowSpec) : TaskWindow :=
  { reservation, spec := none, composer := { display := reservation.display } }

/-- The set with a window more, or a window replaced. -/
def put (s : TaskWindowSet) (display : DisplayId) (window : TaskWindow) : TaskWindowSet :=
  { s with windows := s.windows.insert display window }

theorem reserve_spec {reservation : ReservedTaskWindowSpec} :
    Atomic (reserve reservation) s fun _ s' =>
      reservation.display ∉ s.windows ∧ s' = s.put reservation.display (staged reservation) :=
  atomic_get_bind (atomic_rejectIf_bind fun _ => atomic_mapErr_bind fun _ _ =>
    atomic_rejectIf_bind fun h => atomic_set ⟨h, rfl⟩)

/-- A window with its task. -/
def assigned (s : TaskWindowSet) (display : DisplayId) (window : TaskWindow) (task : TaskId) :
    TaskWindowSet :=
  let spec := { task, display, package := window.reservation.package }
  { windows := s.windows.insert display { window with spec := some spec }
    tasks := s.tasks.insert task display }

/-- A display that has the task already is left alone; one without a task gets it. -/
theorem bindTask_spec {display : DisplayId} {task : TaskId} :
    Atomic (bindTask display task) s fun _ s' =>
      task ∉ s.tasks ∧ ∃ window, s.windows[display]? = some window ∧
        ((∃ spec, window.spec = some spec ∧ spec.task = task ∧ s' = s) ∨
          window.spec = none ∧ s' = s.assigned display window task) := by
  refine atomic_get_bind (atomic_rejectIf_bind fun _ => atomic_rejectIf_bind fun hfree =>
    atomic_okOr_bind fun window hw => ?_)
  cases hspec : window.spec with
  | some spec =>
    refine atomic_rejectIf_bind fun htask => atomic_pure ⟨hfree, window, hw, .inl ?_⟩
    exact ⟨spec, hspec, not_not.mp htask, rfl⟩
  | none => exact atomic_set_pure ⟨hfree, window, hw, .inr ⟨hspec, rfl⟩⟩

/-- The set without a window. -/
def without (s : TaskWindowSet) (display : DisplayId) (window : TaskWindow) : TaskWindowSet :=
  { s with
    windows := s.windows.erase display
    tasks := window.spec.elim s.tasks fun spec => s.tasks.erase spec.task }

theorem removeDisplay_spec {display : DisplayId} :
    Atomic (removeDisplay display) s fun spec s' =>
      ∃ window, s.windows[display]? = some window ∧ window.composer.inFlightCount = 0 ∧
        spec = window.spec ∧ s' = s.without display window :=
  atomic_get_bind (atomic_okOr_bind fun window hw => atomic_rejectIf_bind fun h =>
    atomic_set_pure ⟨window, hw, not_not.mp h, rfl, rfl⟩)

end TaskWindowSet

end Droidloom.Graphics
