/-
  Android's end of the connection (`DenialPresentationSink`, `DenialTaskBinding`).

  A task display has a CHANNEL in the sink (protocol object, timeline points, the host's render
  targets) and a WINDOW in the Composer session.  Surface Flinger acquires an idle target, renders
  into it and submits it: the window records the frame, the channel numbers its timeline point and
  sends `Present`.  A submission that fails half-way takes both records back.

  Methods of one display work on a `Slot`: the channel, its window if the session has one, and the
  messages to the host that have not been read.
-/
import Droidloom.Graphics.Composer

namespace Droidloom

/-- The task that a host message is for: `task_object`. -/
def DenialMessage.taskObject : DenialMessage → Option TaskObjectId
  | .formatFeedback object .. | .registerRenderTarget object .. | .unregisterRenderTarget object _
  | .configure object .. | .insets object .. | .visibility object .. | .close object
  | .bufferReleased object .. | .presented object .. | .scenePresented object ..
  | .input object .. => some object
  | .error object .. => object
  | .serverHello .. | .requestInputChannel _ | .displayPower _ | .ping _ | .frameGrant .. => none

namespace Graphics

open Std Fallible Triple

/-! ## Data -/

/-- A packet as the socket delivers it. -/
structure Received where
  message : AndroidMessage
  descriptors : List DescriptorKind

/-- Requests for render targets: one for each configure serial. -/
structure RenderTargetDemand where
  serial : Option UInt32 := none
  requested : Option UInt32 := none
deriving DecidableEq, Repr

structure DenialTaskBinding where
  object : TaskObjectId
  task : Option TaskId
  display : DisplayId
  package : String
  acknowledgedConfigure : Option UInt32
  nextTimelinePoint : UInt64
  pendingReleasePoints : ExtTreeMap FrameId UInt64 compare
  destroyRequested : Bool

/-- A target of the host as Surface Flinger sees it. -/
structure HostRenderTarget where
  configureSerial : UInt32
  metadata : BufferMetadata
  reserved : Bool
  busy : Bool
  /-- The host gave up the target while a render or a displayed frame still owned it. -/
  revoked : Bool
deriving DecidableEq, Repr

structure TaskChannel where
  binding : DenialTaskBinding
  renderTargets : ExtTreeMap BufferId HostRenderTarget compare := ∅
  frameTargets : ExtTreeMap FrameId BufferId compare := ∅
  /-- The opaque-coverage proof last sent to the host. -/
  contentOpaque : Option Bool := none
  androidDisplayExtent : Option (UInt32 × UInt32) := none
  targetDemand : RenderTargetDemand := {}

/-- What the Composer made of a host event. -/
inductive AppliedDenialEvent
  | formatFeedback (generation : UInt32)
  | configure (serial width height scaleNumerator scaleDenominator : UInt32)
      (transform : Transform) (refreshMillihz : UInt32)
  | insets (left top right bottom : UInt32)
  | visibility (visibility : Visibility) (focused : Bool)
  | close
  | bufferReleased (released : ReleasedFrame)
  | presented (sample : Option VsyncSample)
  | input (serial timestampNanos : UInt64) (event : InputEvent)
deriving DecidableEq, Repr

inductive DenialBridgeError
  | wrongObject (expected actual : TaskObjectId)
  | unexpectedMessage
  | releaseMismatch
  | timelineExhausted
  | task (error : TaskWindowError)
  | composer (error : ComposerError)
deriving DecidableEq, Repr

inductive DenialSinkError
  | duplicateDisplay (display : DisplayId)
  | duplicateObject (object : TaskObjectId)
  | unknownDisplay (display : DisplayId)
  | unknownObject (object : TaskObjectId)
  | connectionMessage
  | bufferMetadataMismatch (buffer : BufferId)
  | planeDescriptorMismatch
  | duplicateRenderTarget (buffer : BufferId)
  | unknownRenderTarget (buffer : BufferId)
  | noRenderTarget (display : DisplayId)
  | poisoned
  | bridge (error : DenialBridgeError)
  | ipc
  | syncobj
  | graphics (message : String)
  | composer (error : ComposerError)
deriving DecidableEq, Repr

namespace DenialTaskBinding

def new (object : TaskObjectId) (reservation : ReservedTaskWindowSpec) :
    Except DenialBridgeError DenialTaskBinding := do
  rejectIf (object = 0) .unexpectedMessage
  return {
    object
    task := none
    display := reservation.display
    package := reservation.package
    acknowledgedConfigure := none
    nextTimelinePoint := 0
    pendingReleasePoints := ∅
    destroyRequested := false }

end DenialTaskBinding

/-! ## Methods of one display -/

structure Slot where
  channel : TaskChannel
  window : Option TaskWindow
  sent : List Received

namespace Slot

abbrev Method := EStateM DenialSinkError Slot

def withBinding (binding : DenialTaskBinding) (s : Slot) : Slot :=
  { s with channel := { s.channel with binding } }

/-- `composer_for_display_mut`, and a method of the Composer. -/
def onComposer {α : Type} (x : Composer.Method α) : Method α := fun s =>
  match s.window with
  | none => .error (.bridge (.task (.unknownDisplay s.channel.binding.display))) s
  | some window =>
    match x window.composer with
    | .ok a composer => .ok a { s with window := some { window with composer } }
    | .error e composer =>
      .error (.bridge (.composer e)) { s with window := some { window with composer } }

/-! ### Life of a channel -/

/-- `DenialTaskBinding::acknowledge_configure`: the record is sent by the sink. -/
def bindingAcknowledge (serial : UInt32) : Method AndroidMessage := do
  onComposer (Composer.acknowledgeConfigure serial)
  modify fun s => s.withBinding { s.channel.binding with acknowledgedConfigure := some serial }
  return .ackConfigure (← get).channel.binding.object serial

/-! ### Host events -/

/-- `DenialTaskBinding::apply_event`. -/
def applyEvent (message : DenialMessage) : Method AppliedDenialEvent := do
  let s ← get
  let object ← okOr message.taskObject (.bridge .unexpectedMessage)
  rejectIf (object ≠ s.channel.binding.object)
    (.bridge (.wrongObject s.channel.binding.object object))
  match message with
  | .formatFeedback _ generation formats =>
    onComposer (modify (·.replaceFeedback formats))
    return .formatFeedback generation
  | .configure _ serial width height scaleNumerator scaleDenominator transform refreshMillihz =>
    onComposer (modify (·.configure ⟨serial, width, height, refreshMillihz⟩))
    modify fun s => s.withBinding { s.channel.binding with acknowledgedConfigure := none }
    return .configure serial width height scaleNumerator scaleDenominator transform refreshMillihz
  | .insets _ left top right bottom => return .insets left top right bottom
  | .visibility _ visibility focused => return .visibility visibility focused
  | .close _ => return .close
  | .bufferReleased _ frame buffer releasePoint =>
    rejectIf (s.channel.binding.pendingReleasePoints[frame]? ≠ some releasePoint)
      (.bridge .releaseMismatch)
    let window ← okOr s.window (.bridge (.task (.unknownDisplay s.channel.binding.display)))
    rejectIf (window.composer.inFlightBuffer frame ≠ some buffer) (.bridge .releaseMismatch)
    let released ← onComposer (Composer.releasePresentedTarget frame true)
    modify fun s => s.withBinding { s.channel.binding with
      pendingReleasePoints := s.channel.binding.pendingReleasePoints.erase frame }
    return .bufferReleased released
  | .presented _ _ timestampNanos .. | .scenePresented _ _ timestampNanos .. =>
    let sample ← onComposer (Composer.presentationSample timestampNanos)
    return .presented sample
  | .input _ serial timestampNanos event => return .input serial timestampNanos event
  | _ => throw (.bridge .unexpectedMessage)

/-! ### Submission -/

/-- `prepare_present`: the next timeline point, and the record that carries it. -/
def preparePresent (display : DisplayId) (frame : AcceptedFrame) :
    Method (AndroidMessage × UInt64) := do
  let s ← get
  let binding := s.channel.binding
  rejectIf (binding.destroyRequested ∨ display ≠ binding.display) (.bridge .unexpectedMessage)
  let serial ← okOr binding.acknowledgedConfigure (.bridge .unexpectedMessage)
  let point ← okOr (checkedSucc binding.nextTimelinePoint) (.bridge .timelineExhausted)
  rejectIf (frame.frameId ∈ binding.pendingReleasePoints) (.bridge .unexpectedMessage)
  set (s.withBinding { binding with
    nextTimelinePoint := point
    pendingReleasePoints := binding.pendingReleasePoints.insert frame.frameId point })
  return (.present binding.object frame.frameId frame.buffer.id serial point point frame.damage,
    point)

/-- `cancel_unsubmitted_present`: the point stays consumed. -/
def cancelUnsubmittedPresent (frame : FrameId) (releasePoint : UInt64) : Method Unit := do
  let s ← get
  let binding := s.channel.binding
  rejectIf (binding.pendingReleasePoints[frame]? ≠ some releasePoint) (.bridge .releaseMismatch)
  set (s.withBinding { binding with
    pendingReleasePoints := binding.pendingReleasePoints.erase frame })

end Slot

end Graphics

end Droidloom
