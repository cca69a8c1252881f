/-
  The field checks of the wire contract.

  The decoders and the host's task state all go through these functions; each one either accepts
  with `ok` or names the field it refuses.
-/
import Droidloom.Lib.Fallible
import Droidloom.Protocol.Message

namespace Droidloom

open Fallible

/-- `u32::checked_add`. -/
def checkedAdd (a b : UInt32) : Option UInt32 :=
  if a.toNat + b.toNat < 2 ^ 32 then some (a + b) else none

/-! ## Scalars -/

def nonzero (field : String) (value : UInt64) : Except WireError Unit :=
  if value = 0 then .error (.invalidEnum field value) else .ok ()

def validObject (object : TaskObjectId) : Except WireError UInt64 :=
  if object = 0 then .error .invalidObject else .ok object

def requireConnection (object : UInt64) : Except WireError Unit :=
  if object = 0 then .ok () else .error .invalidObject

def knownBits (field : String) (value known : UInt64) : Except WireError Unit :=
  if value &&& ~~~known = 0 then .ok () else .error (.invalidEnum field value)

def frameGrant (latch target period : UInt64) : Except WireError Unit := do
  nonzero "grant latch" latch
  nonzero "grant period" period
  rejectIf (target ≤ latch) (.invalidEnum "grant target" target)

/-! ## Records -/

def validateServerHello (major minor : UInt16) (capabilities : UInt64)
    (maxTaskObjects maxBuffersPerTask maxDamageRects : UInt32) : Except WireError Unit :=
  if major ≠ PROTOCOL_MAJOR ∨ minor > PROTOCOL_MINOR then
    .error (.unsupportedVersion major minor)
  else if capabilities &&& capability.REQUIRED_V1 ≠ capability.REQUIRED_V1 then
    .error (.invalidEnum "required capabilities" capabilities)
  else if maxTaskObjects = 0 ∨ maxTaskObjects > MAX_TASK_OBJECTS then
    .error (.limit "task objects")
  else if maxBuffersPerTask = 0 ∨ maxBuffersPerTask > MAX_BUFFERS_PER_TASK then
    .error (.limit "buffers per task")
  else if maxDamageRects = 0 ∨ maxDamageRects.toNat > MAX_DAMAGE_RECTS then
    .error (.limit "damage rectangles")
  else .ok ()

def validateConfigure (serial width height scaleNumerator scaleDenominator : UInt32)
    (refreshMillihz : UInt32) : Except WireError Unit :=
  if serial = 0 ∨ width = 0 ∨ height = 0 ∨ width > 16384 ∨ height > 16384 ∨
      scaleNumerator = 0 ∨ scaleDenominator = 0 ∨ refreshMillihz = 0 ∨
      refreshMillihz > 1000000 then
    .error (.limit "configure")
  else .ok ()

/-- The plane loop of `BufferMetadata.validate`; `expected` is the enumeration index. -/
def validatePlanes : Nat → List PlaneMetadata → Except TransportError Unit
  | _, [] => .ok ()
  | expected, plane :: planes =>
    if plane.index.toNat ≠ expected then
      .error (.invalidBuffer "plane indices must be dense and start at zero")
    else if plane.stride = 0 then .error (.invalidBuffer "plane stride must be non-zero")
    else validatePlanes (expected + 1) planes

def BufferMetadata.validate (buffer : BufferMetadata) : Except TransportError Unit :=
  if buffer.width = 0 ∨ buffer.height = 0 then
    .error (.invalidBuffer "dimensions must be non-zero")
  else if buffer.width > 16384 ∨ buffer.height > 16384 then
    .error (.invalidBuffer "dimensions exceed the v1 16384-pixel bound")
  else if buffer.planes = [] ∨ buffer.planes.length > 4 then
    .error (.invalidBuffer "DMA-BUFs require one through four planes")
  else validatePlanes 0 buffer.planes

/-- `package.split('.').all(…)`: every part is non-empty and consists of ASCII letters, digits
    and underscores, byte by byte. -/
def validPackage (package : String) : Bool :=
  package ≠ "" && package.utf8ByteSize ≤ MAX_PACKAGE_BYTES &&
    (package.toList.splitOn '.').all fun part =>
      !part.isEmpty && (part.flatMap String.utf8EncodeChar).all fun byte =>
        (48 ≤ byte && byte ≤ 57) || (65 ≤ byte && byte ≤ 90) || (97 ≤ byte && byte ≤ 122) ||
          byte = 95

end Droidloom
