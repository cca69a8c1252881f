/-
  The building blocks of DLOM payloads: enumeration bytes, bounded strings, buffer metadata and
  input events.
-/
import Droidloom.Lib.ByteCodec
import Droidloom.Protocol.Validate

namespace Droidloom.Wire

open Fallible ByteCodec

/-! ## Enumerations -/

def Transform.code : Transform → UInt8
  | .normal => 0
  | .rotate90 => 1
  | .rotate180 => 2
  | .rotate270 => 3

def Visibility.code : Visibility → UInt8
  | .hidden => 0
  | .visible => 1
  | .obscured => 2

def TouchAction.code : TouchAction → UInt8
  | .down => 0
  | .motion => 1
  | .up => 2
  | .cancel => 3

def KeyAction.code : KeyAction → UInt8
  | .down => 0
  | .up => 1

def NavigationAction.code : NavigationAction → UInt8
  | .back => 0
  | .home => 1
  | .overview => 2

def ProtocolErrorCode.code : ProtocolErrorCode → UInt16
  | .incompatible => 1
  | .invalidMessage => 2
  | .duplicateObject => 3
  | .unknownObject => 4
  | .resourceLimit => 5
  | .invalidState => 6
  | .protectedContent => 7
  | .unsupportedFormat => 8

/-- `u8::from(bool)`. -/
def boolCode (b : Bool) : UInt8 := if b then 1 else 0

/-- The `decode_enum!` family: look the word up among the variants' codes. -/
def decodeEnum {ω α : Type} [DecidableEq ω] (widen : ω → UInt64) (code : α → ω) (variants : List α)
    (field : String) (value : ω) : Except WireError α :=
  match variants.find? fun a => code a = value with
  | some a => .ok a
  | none => .error (.invalidEnum field (widen value))

theorem find?_code_eq_some {ω α : Type} [DecidableEq ω] {code : α → ω} {variants : List α}
    (hinj : Function.Injective code) (hall : ∀ a, a ∈ variants) {value : ω} {a : α} :
    variants.find? (fun a => code a = value) = some a ↔ value = code a := by
  constructor
  · intro h
    have := List.find?_some h
    exact (of_decide_eq_true this).symm
  · rintro rfl
    cases hf : variants.find? (fun b => code b = code a) with
    | none => exact absurd (List.find?_eq_none.mp hf a (hall a)) (by simp)
    | some b =>
      have := List.find?_some hf
      rw [hinj (of_decide_eq_true this)]

def decodeBool (value : UInt8) (field : String) : Except WireError Bool :=
  decodeEnum UInt8.toUInt64 boolCode [false, true] field value

def decodeTransform : UInt8 → Except WireError Transform :=
  decodeEnum UInt8.toUInt64 Transform.code [.normal, .rotate90, .rotate180, .rotate270] "transform"

def decodeVisibility : UInt8 → Except WireError Visibility :=
  decodeEnum UInt8.toUInt64 Visibility.code [.hidden, .visible, .obscured] "visibility"

def decodeTouchAction : UInt8 → Except WireError TouchAction :=
  decodeEnum UInt8.toUInt64 TouchAction.code [.down, .motion, .up, .cancel] "touch action"

def decodeKeyAction : UInt8 → Except WireError KeyAction :=
  decodeEnum UInt8.toUInt64 KeyAction.code [.down, .up] "key action"

def decodeNavigationAction : UInt8 → Except WireError NavigationAction :=
  decodeEnum UInt8.toUInt64 NavigationAction.code [.back, .home, .overview] "navigation action"

def decodeErrorCode : UInt16 → Except WireError ProtocolErrorCode :=
  decodeEnum UInt16.toUInt64 ProtocolErrorCode.code
    [.incompatible, .invalidMessage, .duplicateObject, .unknownObject, .resourceLimit,
      .invalidState, .protectedContent, .unsupportedFormat] "protocol error"

/-! ## Strings -/

/-- `Reader::string`. -/
def readString (limit : Nat) (field : String) : Reader WireError String := do
  let length ← readU16 .truncated
  check (rejectIf (length.toNat > limit) (.invalidString field))
  let bytes ← take .truncated length.toNat
  check (okOr (fromUtf8 bytes) (.invalidString field))

/-- The bytes of a string: its length as a word, then its UTF-8. -/
def stringBytes (value : String) : Bytes := u16 (UInt16.ofNat value.utf8ByteSize) ++ utf8 value

theorem length_stringBytes (value : String) :
    (stringBytes value).length = 2 + value.utf8ByteSize := by
  simp [stringBytes]

/-! ## Buffer metadata -/

def decodePlane : Reader WireError PlaneMetadata := do
  let index ← readU32 .truncated
  let offset ← readU32 .truncated
  let stride ← readU32 .truncated
  return { index, offset, stride }

def decodeBuffer : Reader WireError BufferMetadata := do
  let id ← readU64 .truncated
  let width ← readU32 .truncated
  let height ← readU32 .truncated
  let fourcc ← readU32 .truncated
  let modifier ← readU64 .truncated
  let count ← readU8 .truncated
  check (rejectIf (count.toNat = 0 ∨ count.toNat > 4) (.limit "DMA-BUF planes"))
  let planes ← readMany decodePlane count.toNat
  let buffer : BufferMetadata := { id, width, height, format := { fourcc, modifier }, planes }
  check (mapErr .transport buffer.validate)
  check (rejectIf (buffer.id = 0 ∨ buffer.format.modifier = 0xffffffffffffffff)
    (.invalidEnum "buffer identity or modifier" buffer.id))
  return buffer

/-! ## Input events -/

def decodeInput : Reader WireError InputEvent := do
  let kind ← readU8 .truncated
  if kind = 0 then do
    let code ← readU8 .truncated
    let action ← check (decodeTouchAction code)
    let pointerId ← readU32 .truncated
    let xFixed ← readI32 .truncated
    let yFixed ← readI32 .truncated
    let pressure ← readU16 .truncated
    return .touch action pointerId xFixed yFixed pressure
  else if kind = 1 then do
    let code ← readU8 .truncated
    let action ← check (decodeKeyAction code)
    let keycode ← readU32 .truncated
    let repeatCount ← readU16 .truncated
    return .key action keycode repeatCount
  else if kind = 2 then do
    let code ← readU8 .truncated
    let action ← check (decodeNavigationAction code)
    return .navigation action
  else throw (.invalidEnum "input event" kind.toUInt64)

end Droidloom.Wire
