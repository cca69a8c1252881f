/-
  The data of the wire contract between Android and the host compositor
  (`droidloom-denial-protocol`, with the buffer types it takes from `droidloom-transport`).

  Every numeric field has the width the source gives it (`UInt32`, `UInt64`, …), so that a value
  of these types IS a value of the source's and no theorem about messages carries a range
  hypothesis.  Identities are plain words: they key maps and are compared, nothing else.
-/
import Mathlib

namespace Droidloom

/-! ## Identities and buffers -/

abbrev BufferId := UInt64
abbrev FrameId := UInt64
/-- Names one native task window of a connection; 0 is the connection itself. -/
abbrev TaskObjectId := UInt64
abbrev AndroidTaskId := UInt64
abbrev AndroidDisplayId := UInt64

structure FormatModifier where
  fourcc : UInt32
  modifier : UInt64
deriving DecidableEq, Repr

structure PlaneMetadata where
  index : UInt32
  offset : UInt32
  stride : UInt32
deriving DecidableEq, Repr

structure BufferMetadata where
  id : BufferId
  width : UInt32
  height : UInt32
  format : FormatModifier
  planes : List PlaneMetadata
deriving DecidableEq, Repr

structure Damage where
  x : UInt32
  y : UInt32
  width : UInt32
  height : UInt32
deriving DecidableEq, Repr

/-! ## Limits and bit sets -/

def PROTOCOL_MAJOR : UInt16 := 1
def PROTOCOL_MINOR : UInt16 := 9
def HEADER_BYTES : Nat := 32
def MAX_PACKET_BYTES : Nat := 65536
def MAX_PACKAGE_BYTES : Nat := 255
def MAX_ERROR_BYTES : Nat := 1024
def MAX_FORMATS : Nat := 256
def MAX_DAMAGE_RECTS : Nat := 256
def MAX_TASK_OBJECTS : UInt32 := 4096
def MAX_BUFFERS_PER_TASK : UInt32 := 256

namespace capability

def TASK_WINDOWS : UInt64 := (1 : UInt64) <<< 0
def CACHED_DMABUF_IMPORT : UInt64 := (1 : UInt64) <<< 1
def SYNCOBJ_TIMELINES : UInt64 := (1 : UInt64) <<< 2
def PRESENTATION_TIMING : UInt64 := (1 : UInt64) <<< 3
def INPUT : UInt64 := (1 : UInt64) <<< 4
def HOST_RENDER_TARGETS : UInt64 := (1 : UInt64) <<< 6
def DROIDLOOM_COMPOSITION : UInt64 := (1 : UInt64) <<< 7
def DISPLAY_POWER : UInt64 := (1 : UInt64) <<< 9

/-- Capabilities that every version-1 session needs. -/
def REQUIRED_V1 : UInt64 :=
  TASK_WINDOWS ||| CACHED_DMABUF_IMPORT ||| SYNCOBJ_TIMELINES ||| PRESENTATION_TIMING |||
    INPUT ||| HOST_RENDER_TARGETS ||| DROIDLOOM_COMPOSITION ||| DISPLAY_POWER

end capability

/-- `presentation_flag::KNOWN`: displayed, direct scanout, composited. -/
def presentationFlagKnown : UInt32 := 0b001 ||| 0b010 ||| 0b100

/-! ## Enumerations -/

inductive DescriptorKind
  | inputChannel
  | dmabufPlane
  | layerStream
  | acquireTimeline
  | releaseTimeline
deriving DecidableEq, Repr

inductive Transform
  | normal
  | rotate90
  | rotate180
  | rotate270
deriving DecidableEq, Repr

inductive Visibility
  | hidden
  | visible
  | obscured
deriving DecidableEq, Repr

inductive TouchAction
  | down
  | motion
  | up
  | cancel
deriving DecidableEq, Repr

inductive KeyAction
  | down
  | up
deriving DecidableEq, Repr

inductive NavigationAction
  | back
  | home
  | overview
deriving DecidableEq, Repr

/-- Coordinates are signed 16.16 logical units. -/
inductive InputEvent
  | touch (action : TouchAction) (pointerId : UInt32) (xFixed yFixed : Int32) (pressure : UInt16)
  | key (action : KeyAction) (keycode : UInt32) (repeatCount : UInt16)
  | navigation (action : NavigationAction)
deriving DecidableEq, Repr

inductive ProtocolErrorCode
  | incompatible
  | invalidMessage
  | duplicateObject
  | unknownObject
  | resourceLimit
  | invalidState
  | protectedContent
  | unsupportedFormat
deriving DecidableEq, Repr

/-! ## Messages -/

inductive AndroidMessage
  | requestRenderTargets (object : TaskObjectId) (configureSerial : UInt32)
  | bindInputChannel (generation : UInt64) (wire : UInt16)
  | bindInputRoute (object : TaskObjectId) (display : UInt32) (incarnation : UInt64)
  | clientHello (minMajor maxMajor : UInt16) (capabilities : UInt64)
  | createTask (object : TaskObjectId) (display : AndroidDisplayId) (package : String)
  | bindTask (object : TaskObjectId) (task : AndroidTaskId)
  | destroyTask (object : TaskObjectId)
  | bindTimelines (object : TaskObjectId)
  | ackConfigure (object : TaskObjectId) (serial : UInt32)
  | registerBuffer (object : TaskObjectId) (buffer : BufferMetadata)
  | unregisterBuffer (object : TaskObjectId) (buffer : BufferId)
  | present (object : TaskObjectId) (frame : FrameId) (buffer : BufferId)
      (configureSerial : UInt32) (acquirePoint releasePoint : UInt64) (damage : List Damage)
  | bindLayerStream (object : TaskObjectId)
  | setContentState (object : TaskObjectId) (flags : UInt32)
  | setFrameRate (object : TaskObjectId) (millihz : UInt32)
  | requestActivation (object : TaskObjectId)
  | pong (cookie : UInt64)
deriving DecidableEq, Repr

inductive DenialMessage
  | requestInputChannel (generation : UInt64)
  | serverHello (major minor : UInt16) (capabilities : UInt64)
      (maxTaskObjects maxBuffersPerTask maxDamageRects : UInt32)
  | displayPower (powered : Bool)
  | formatFeedback (object : TaskObjectId) (generation : UInt32) (formats : List FormatModifier)
  | registerRenderTarget (object : TaskObjectId) (configureSerial : UInt32)
      (buffer : BufferMetadata)
  | unregisterRenderTarget (object : TaskObjectId) (buffer : BufferId)
  | configure (object : TaskObjectId) (serial width height : UInt32)
      (scaleNumerator scaleDenominator : UInt32) (transform : Transform) (refreshMillihz : UInt32)
  | insets (object : TaskObjectId) (left top right bottom : UInt32)
  | visibility (object : TaskObjectId) (visibility : Visibility) (focused : Bool)
  | close (object : TaskObjectId)
  | bufferReleased (object : TaskObjectId) (frame : FrameId) (buffer : BufferId)
      (releasePoint : UInt64)
  | presented (object : TaskObjectId) (frame : FrameId) (timestampNanos : UInt64)
      (refreshPeriodNanos sequence : UInt64) (flags : UInt32)
  | scenePresented (object : TaskObjectId) (scene timestampNanos : UInt64)
      (refreshPeriodNanos sequence : UInt64)
  | input (object : TaskObjectId) (serial timestampNanos : UInt64) (event : InputEvent)
  | error (object : Option TaskObjectId) (code : ProtocolErrorCode) (offendingOpcode : UInt16)
      (message : String)
  | ping (cookie : UInt64)
  | frameGrant (latchNanos targetNanos periodNanos : UInt64)
deriving DecidableEq, Repr

/-! ## Errors -/

inductive TransportError
  | unconfigured
  | invalidSerial (serial : UInt32)
  | sizeMismatch (expectedWidth expectedHeight actualWidth actualHeight : UInt32)
  | unsupportedFormat (fourcc : UInt32) (modifier : UInt64)
  | bufferInFlight (buffer : BufferId)
  | unknownFrame (frame : FrameId)
  | missingFence
  | invalidBuffer (reason : String)
  | invalidDamage
  | frameIdExhausted
deriving DecidableEq, Repr

inductive WireError
  | shortHeader
  | packetTooLarge
  | invalidMagic
  | unsupportedVersion (major minor : UInt16)
  | lengthMismatch
  | unsupportedHeaderBits
  | unknownOpcode (opcode : UInt16)
  | descriptorCount (expected actual : Nat)
  | truncated
  | trailingBytes
  | invalidString (field : String)
  | invalidObject
  | invalidEnum (field : String) (value : UInt64)
  | limit (field : String)
  | transport (error : TransportError)
deriving DecidableEq, Repr

inductive TaskStateError
  | wrongObject (expected actual : TaskObjectId)
  | timelinesAlreadyBound
  | timelinesUnbound
  | feedbackRegression (previous actual : UInt32)
  | missingConfigure
  | staleConfigure (expected actual : UInt32)
  | unacknowledgedConfigure
  | duplicateBuffer (buffer : BufferId)
  | bufferLimit
  | unknownBuffer (buffer : BufferId)
  | bufferInFlight (buffer : BufferId)
  | duplicateFrame (frame : FrameId)
  | unknownFrame (frame : FrameId)
  | releaseMismatch
  | timelineRegression (timeline : String) (previous actual : UInt64)
  | sizeMismatch
  | unsupportedFormat
  | invalidDamage
  | wire (error : WireError)
deriving DecidableEq, Repr

end Droidloom
