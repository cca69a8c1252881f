/-
  The host-to-Android direction of the wire contract: `decode_denial`.

  `readDenial` follows the match of the source.  Only `RegisterRenderTarget` carries descriptors,
  and only `Error` may or may not name a task: the connection object 0 stands for "no task" there.
-/
import Droidloom.Protocol.Packet

namespace Droidloom.Wire

open Fallible ByteCodec

/-! ## Opcodes -/

inductive DenialOpcode
  | serverHello
  | formatFeedback
  | configure
  | insets
  | visibility
  | close
  | bufferReleased
  | presented
  | input
  | error
  | ping
  | registerRenderTarget
  | unregisterRenderTarget
  | displayPower
  | requestInputChannel
  | scenePresented
  | frameGrant
deriving DecidableEq, Repr

def DenialOpcode.word : DenialOpcode → UInt16
  | .serverHello => OP_SERVER_HELLO
  | .formatFeedback => OP_FORMAT_FEEDBACK
  | .configure => OP_CONFIGURE
  | .insets => OP_INSETS
  | .visibility => OP_VISIBILITY
  | .close => OP_CLOSE
  | .bufferReleased => OP_BUFFER_RELEASED
  | .presented => OP_PRESENTED
  | .input => OP_INPUT
  | .error => OP_ERROR
  | .ping => OP_PING
  | .registerRenderTarget => OP_REGISTER_RENDER_TARGET
  | .unregisterRenderTarget => OP_UNREGISTER_RENDER_TARGET
  | .displayPower => OP_DISPLAY_POWER
  | .requestInputChannel => OP_REQUEST_INPUT_CHANNEL
  | .scenePresented => OP_SCENE_PRESENTED
  | .frameGrant => OP_FRAME_GRANT

def denialOpcodes : List DenialOpcode :=
  [.serverHello, .requestInputChannel, .displayPower, .formatFeedback, .registerRenderTarget,
    .unregisterRenderTarget, .configure, .insets, .visibility, .close, .bufferReleased, .presented,
    .scenePresented, .input, .error, .ping, .frameGrant]

/-! ## Decoder -/

def readFormat : Reader WireError FormatModifier := do
  let fourcc ← readU32 .truncated
  let modifier ← readU64 .truncated
  let format : FormatModifier := { fourcc, modifier }
  check (rejectIf (format.modifier = 0xffffffffffffffff)
    (.invalidEnum "DRM modifier" format.modifier))
  return format

/-- The `match` of `decode_denial`. -/
def readDenial : DenialOpcode → UInt64 → Reader WireError (DenialMessage × List DescriptorKind)
  | .serverHello, object => do
    check (requireConnection object)
    let major ← readU16 .truncated
    let minor ← readU16 .truncated
    let capabilities ← readU64 .truncated
    let maxTaskObjects ← readU32 .truncated
    let maxBuffersPerTask ← readU32 .truncated
    let maxDamageRects ← readU32 .truncated
    check (validateServerHello major minor capabilities maxTaskObjects maxBuffersPerTask
      maxDamageRects)
    return (.serverHello major minor capabilities maxTaskObjects maxBuffersPerTask maxDamageRects,
      [])
  | .requestInputChannel, object => do
    check (requireConnection object)
    let generation ← readU64 .truncated
    check (nonzero "input generation" generation)
    return (.requestInputChannel generation, [])
  | .displayPower, object => do
    check (requireConnection object)
    let code ← readU8 .truncated
    let powered ← check (decodeBool code "display power")
    return (.displayPower powered, [])
  | .formatFeedback, object => do
    let _ ← check (validObject object)
    let generation ← readU32 .truncated
    check (nonzero "feedback generation" generation.toUInt64)
    let count ← readU16 .truncated
    check (rejectIf (count.toNat = 0 ∨ count.toNat > MAX_FORMATS) (.limit "format feedback"))
    let formats ← readMany readFormat count.toNat
    return (.formatFeedback object generation formats, [])
  | .registerRenderTarget, object => do
    let _ ← check (validObject object)
    let configureSerial ← readU32 .truncated
    check (nonzero "configure serial" configureSerial.toUInt64)
    let buffer ← decodeBuffer
    return (.registerRenderTarget object configureSerial buffer,
      List.replicate buffer.planes.length .dmabufPlane)
  | .unregisterRenderTarget, object => do
    let _ ← check (validObject object)
    let buffer ← readU64 .truncated
    check (nonzero "render-target ID" buffer)
    return (.unregisterRenderTarget object buffer, [])
  | .configure, object => do
    let _ ← check (validObject object)
    let serial ← readU32 .truncated
    let width ← readU32 .truncated
    let height ← readU32 .truncated
    let scaleNumerator ← readU32 .truncated
    let scaleDenominator ← readU32 .truncated
    let code ← readU8 .truncated
    let transform ← check (decodeTransform code)
    let refreshMillihz ← readU32 .truncated
    check (validateConfigure serial width height scaleNumerator scaleDenominator refreshMillihz)
    return (.configure object serial width height scaleNumerator scaleDenominator transform
      refreshMillihz, [])
  | .insets, object => do
    let _ ← check (validObject object)
    let left ← readU32 .truncated
    let top ← readU32 .truncated
    let right ← readU32 .truncated
    let bottom ← readU32 .truncated
    return (.insets object left top right bottom, [])
  | .visibility, object => do
    let _ ← check (validObject object)
    let code ← readU8 .truncated
    let visibility ← check (decodeVisibility code)
    let focus ← readU8 .truncated
    let focused ← check (decodeBool focus "focus")
    return (.visibility object visibility focused, [])
  | .close, object => do
    let _ ← check (validObject object)
    return (.close object, [])
  | .bufferReleased, object => do
    let _ ← check (validObject object)
    let frame ← readU64 .truncated
    let buffer ← readU64 .truncated
    let releasePoint ← readU64 .truncated
    check (nonzero "frame ID" frame)
    check (nonzero "buffer ID" buffer)
    check (nonzero "release point" releasePoint)
    return (.bufferReleased object frame buffer releasePoint, [])
  | .presented, object => do
    let _ ← check (validObject object)
    let frame ← readU64 .truncated
    let timestampNanos ← readU64 .truncated
    let refreshPeriodNanos ← readU64 .truncated
    let sequence ← readU64 .truncated
    let flags ← readU32 .truncated
    check (nonzero "frame ID" frame)
    check (nonzero "refresh period" refreshPeriodNanos)
    check (knownBits "presentation flags" flags.toUInt64 presentationFlagKnown.toUInt64)
    return (.presented object frame timestampNanos refreshPeriodNanos sequence flags, [])
  | .scenePresented, object => do
    let _ ← check (validObject object)
    let scene ← readU64 .truncated
    let timestampNanos ← readU64 .truncated
    let refreshPeriodNanos ← readU64 .truncated
    let sequence ← readU64 .truncated
    check (nonzero "scene ID" scene)
    check (nonzero "presentation timestamp" timestampNanos)
    check (nonzero "refresh period" refreshPeriodNanos)
    return (.scenePresented object scene timestampNanos refreshPeriodNanos sequence, [])
  | .input, object => do
    let _ ← check (validObject object)
    let serial ← readU64 .truncated
    check (nonzero "input serial" serial)
    let timestampNanos ← readU64 .truncated
    let event ← decodeInput
    return (.input object serial timestampNanos event, [])
  | .error, object => do
    let word ← readU16 .truncated
    let code ← check (decodeErrorCode word)
    let offendingOpcode ← readU16 .truncated
    let message ← readString MAX_ERROR_BYTES "error"
    return (.error (if object ≠ 0 then some object else none) code offendingOpcode message, [])
  | .ping, object => do
    check (requireConnection object)
    let cookie ← readU64 .truncated
    return (.ping cookie, [])
  | .frameGrant, object => do
    check (requireConnection object)
    let latchNanos ← readU64 .truncated
    let targetNanos ← readU64 .truncated
    let periodNanos ← readU64 .truncated
    check (frameGrant latchNanos targetNanos periodNanos)
    return (.frameGrant latchNanos targetNanos periodNanos, [])

def decodeDenial : Bytes → Nat → Except WireError (DecodedPacket DenialMessage) :=
  decodePacket denialOpcodes DenialOpcode.word readDenial

end Droidloom.Wire
