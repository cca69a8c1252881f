/-
  DLOM packets: the 32-byte header, and the passage from payloads to packets that both directions
  of the protocol share.  `decodePacket` is the common frame of the decoders: it is parameterized by
  what a direction reads from its payloads.
-/
import Droidloom.Protocol.Wire

namespace Droidloom.Wire

open Fallible ByteCodec

/-! ## The header -/

/-- The marker "DLOM". -/
def MAGIC : Bytes := [0x44, 0x4c, 0x4f, 0x4d]

structure DecodedPacket (α : Type) where
  message : α
  descriptors : List DescriptorKind
deriving DecidableEq, Repr

structure Header where
  opcode : UInt16
  fdCount : Nat
  object : UInt64
  payload : Bytes
deriving DecidableEq, Repr

def OP_SERVER_HELLO : UInt16 := 0x8001
def OP_FORMAT_FEEDBACK : UInt16 := 0x8002
def OP_CONFIGURE : UInt16 := 0x8003
def OP_INSETS : UInt16 := 0x8004
def OP_VISIBILITY : UInt16 := 0x8005
def OP_CLOSE : UInt16 := 0x8006
def OP_BUFFER_RELEASED : UInt16 := 0x8007
def OP_PRESENTED : UInt16 := 0x8008
def OP_INPUT : UInt16 := 0x8009
def OP_ERROR : UInt16 := 0x800a
def OP_PING : UInt16 := 0x800b
def OP_REGISTER_RENDER_TARGET : UInt16 := 0x800c
def OP_UNREGISTER_RENDER_TARGET : UInt16 := 0x800d
def OP_DISPLAY_POWER : UInt16 := 0x800e
def OP_REQUEST_INPUT_CHANNEL : UInt16 := 0x800f
def OP_SCENE_PRESENTED : UInt16 := 0x8010
def OP_FRAME_GRANT : UInt16 := 0x8011

structure HeaderFields where
  opcode : UInt16
  fdCount : UInt16
  flags : UInt32
  object : UInt64
  payloadLength : UInt32
  reserved : UInt32

/-- The reads of `parse_header` after the magic. -/
def readHeaderFields : Reader WireError HeaderFields := do
  let major ← readU16 .truncated
  let minor ← readU16 .truncated
  check (rejectIf (major ≠ PROTOCOL_MAJOR ∨ minor > PROTOCOL_MINOR)
    (.unsupportedVersion major minor))
  let opcode ← readU16 .truncated
  let fdCount ← readU16 .truncated
  let flags ← readU32 .truncated
  let object ← readU64 .truncated
  let payloadLength ← readU32 .truncated
  let reserved ← readU32 .truncated
  return { opcode, fdCount, flags, object, payloadLength, reserved }

/-- `Reader::finish`. -/
def finish (remaining : Bytes) : Except WireError Unit :=
  rejectIf (remaining ≠ []) .trailingBytes

def parseHeader (packet : Bytes) (receivedDescriptors : Nat) : Except WireError Header := do
  rejectIf (packet.length < HEADER_BYTES) .shortHeader
  rejectIf (packet.length > MAX_PACKET_BYTES) .packetTooLarge
  rejectIf (packet.take 4 ≠ MAGIC) .invalidMagic
  let (fields, remaining) ← readHeaderFields.run ((packet.take HEADER_BYTES).drop 4)
  finish remaining
  rejectIf (fields.flags ≠ 0 ∨ fields.reserved ≠ 0) .unsupportedHeaderBits
  rejectIf (packet.length ≠ HEADER_BYTES + fields.payloadLength.toNat) .lengthMismatch
  rejectIf (fields.fdCount.toNat ≠ receivedDescriptors)
    (.descriptorCount fields.fdCount.toNat receivedDescriptors)
  return {
    opcode := fields.opcode
    fdCount := fields.fdCount.toNat
    object := fields.object
    payload := packet.drop HEADER_BYTES }

/-! ## Packets -/

def validateDescriptorLayout (headerCount receivedCount : Nat) (expected : List DescriptorKind) :
    Except WireError Unit :=
  rejectIf (headerCount ≠ expected.length ∨ receivedCount ≠ expected.length)
    (.descriptorCount expected.length receivedCount)

variable {Op Message : Type}

def decodePacket (opcodes : List Op) (word : Op → UInt16)
    (read : Op → UInt64 → Reader WireError (Message × List DescriptorKind))
    (packet : Bytes) (receivedDescriptors : Nat) : Except WireError (DecodedPacket Message) := do
  let header ← parseHeader packet receivedDescriptors
  let opcode ← okOr (opcodes.find? fun op => word op = header.opcode)
    (.unknownOpcode header.opcode)
  let ((message, descriptors), remaining) ← (read opcode header.object).run header.payload
  finish remaining
  validateDescriptorLayout header.fdCount receivedDescriptors descriptors
  return { message, descriptors }

/-- Equal packets up to the two bytes of the header's minor version. -/
def SameButMinor (a b : Bytes) : Prop :=
  a.length = b.length ∧ a.take 6 = b.take 6 ∧ a.drop 8 = b.drop 8

end Droidloom.Wire
