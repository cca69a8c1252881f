/-
  Task-control records (`lib.rs`): the 24-byte header and the sixteen opcodes of the two
  directions.

  The encoder and the decoder validate separately, each in its own order.  What they agree on is
  stated per opcode, by `writeRequest_of_read` / `readRequest_of_write` and their counterparts for
  responses; `RecordCodec` carries both inverse directions from payloads to records, once for
  both.  Only the minor version is written and never read.
-/
import Droidloom.Protocol.Packet
import Droidloom.TaskControl.Commands
import Droidloom.TaskControl.Server

namespace Droidloom.TaskControl.Codec

open Fallible ByteCodec

/-! ## Records -/

/-- The marker "DLTC". -/
def MAGIC : Bytes := [0x44, 0x4c, 0x54, 0x43]

def PROTOCOL_MAJOR : UInt16 := 3
def PROTOCOL_MINOR : UInt16 := 2
def HEADER_BYTES : Nat := 24
def MAX_RECORD_BYTES : Nat := 4096
def MAX_PACKAGE_BYTES : Nat := 255
def MAX_ERROR_BYTES : Nat := 1024

/-- `i64::MAX as u64`. -/
def I64_MAX : UInt64 := 0x7fffffffffffffff

inductive ControlRequest
  | publishFramework (requestId : UInt64) (package : String) (task : UInt64)
      (androidDisplay : UInt32) (incarnation : UInt64) (activate : Bool)
  | subscribe (requestId : UInt64)
  | acknowledge (requestId : UInt64)
  | hello (minMajor maxMajor : UInt16)
  | reserve (requestId : UInt64) (package : String)
  | bind (requestId object task : UInt64) (androidDisplay : UInt32)
  | registerDirect (requestId : UInt64) (package : String) (task : UInt64)
      (androidDisplay : UInt32)
  | publishDirect (requestId : UInt64) (package : String) (task : UInt64)
      (androidDisplay : UInt32) (activate : Bool)
  | remove (requestId object : UInt64)
deriving DecidableEq, Repr

inductive ControlResponse
  | subscribed (requestId : UInt64)
  | taskCommand (requestId : UInt64) (command : TaskCommand)
  | serverHello (major minor : UInt16)
  | reserved (requestId object display : UInt64)
  | bound (requestId object task display : UInt64) (androidDisplay : UInt32)
  | removed (requestId object : UInt64)
  | error (requestId : UInt64) (code : ControlErrorCode) (message : String)
deriving DecidableEq, Repr

inductive CodecError
  | truncated
  | invalidMagic
  | unsupportedMajor (major : UInt16)
  | unknownOpcode (opcode : UInt16)
  | invalidHeader
  | invalidValue (what : String)
  | invalidUtf8
deriving DecidableEq, Repr

/-- The error of `TaskCommand::validate`, whose module knows no other one. -/
def ofCommandError : TaskControl.CodecError → CodecError
  | .invalidValue what => .invalidValue what

inductive RequestOpcode
  | hello
  | reserve
  | bind
  | remove
  | registerDirect
  | publishDirect
  | subscribe
  | acknowledge
  | publishFramework
deriving DecidableEq, Repr

def RequestOpcode.word : RequestOpcode → UInt16
  | .hello => 0x0001
  | .reserve => 0x0002
  | .bind => 0x0003
  | .remove => 0x0004
  | .registerDirect => 0x0005
  | .publishDirect => 0x0006
  | .subscribe => 0x0007
  | .acknowledge => 0x0008
  | .publishFramework => 0x0009

def requestOpcodes : List RequestOpcode :=
  [.hello, .reserve, .bind, .remove, .registerDirect, .publishDirect, .subscribe, .acknowledge,
    .publishFramework]

inductive ResponseOpcode
  | serverHello
  | reserved
  | bound
  | removed
  | subscribed
  | taskCommand
  | error
deriving DecidableEq, Repr

def ResponseOpcode.word : ResponseOpcode → UInt16
  | .serverHello => 0x8001
  | .reserved => 0x8002
  | .bound => 0x8003
  | .removed => 0x8004
  | .subscribed => 0x8005
  | .taskCommand => 0x8006
  | .error => 0x80ff

def responseOpcodes : List ResponseOpcode :=
  [.serverHello, .reserved, .bound, .removed, .subscribed, .taskCommand, .error]

/-! ## The header -/

def headerBytes (minor opcode : UInt16) (payloadLength : UInt32) (requestId : UInt64) : Bytes :=
  MAGIC ++ u16 PROTOCOL_MAJOR ++ u16 minor ++ u16 opcode ++ u16 0 ++ u32 payloadLength ++
    u64 requestId

@[simp] theorem length_headerBytes (minor opcode : UInt16) (payloadLength : UInt32)
    (requestId : UInt64) :
    (headerBytes minor opcode payloadLength requestId).length = HEADER_BYTES := by
  simp [headerBytes, MAGIC, HEADER_BYTES]

def encode (opcode : UInt16) (requestId : UInt64) (payload : Bytes) : Except CodecError Bytes := do
  let total := HEADER_BYTES + payload.length
  rejectIf (total > MAX_RECORD_BYTES) .invalidHeader
  rejectIf (payload.length > 0xffffffff) .invalidHeader
  return headerBytes PROTOCOL_MINOR opcode (UInt32.ofNat payload.length) requestId ++ payload

structure Header where
  opcode : UInt16
  requestId : UInt64
  payload : Bytes
deriving DecidableEq, Repr

/-- `decode_header`: the two bytes of the minor version, 6 and 7, are never looked at. -/
def decodeHeader (record : Bytes) : Except CodecError Header := do
  rejectIf (record.length < HEADER_BYTES ∨ record.length > MAX_RECORD_BYTES) .truncated
  rejectIf (record.take 4 ≠ MAGIC) .invalidMagic
  let major := UInt16.ofNat (field record 4 2)
  rejectIf (major ≠ PROTOCOL_MAJOR) (.unsupportedMajor major)
  let reserved := field record 10 2
  let payloadLength := field record 12 4
  rejectIf (reserved ≠ 0 ∨ HEADER_BYTES + payloadLength ≠ record.length) .invalidHeader
  return {
    opcode := UInt16.ofNat (field record 8 2)
    requestId := UInt64.ofNat (field record 16 8)
    payload := record.drop HEADER_BYTES }

/-! ## Payloads -/

/-- `Writer::string`. -/
def writeString (value : String) (maximum : Nat) : Except CodecError Bytes := do
  rejectIf (value.isEmpty ∨ value.utf8ByteSize > maximum) (.invalidValue "text")
  rejectIf (value.utf8ByteSize > 0xffff) (.invalidValue "text")
  return u16 (UInt16.ofNat value.utf8ByteSize) ++ utf8 value

/-- `Reader::string`. -/
def readString (maximum : Nat) : Reader CodecError String := do
  let length ← readU16 .truncated
  check (rejectIf (length = 0 ∨ length.toNat > maximum) (.invalidValue "text"))
  let bytes ← take .truncated length.toNat
  check (okOr (fromUtf8 bytes) .invalidUtf8)

def required (field : String) (value : UInt64) : Except CodecError UInt64 :=
  if value = 0 then .error (.invalidValue field) else .ok value

def nonzero (field : String) (value : UInt64) : Except CodecError Unit := do
  let _ ← required field value
  return ()

def requiredRequest (value : UInt64) : Except CodecError UInt64 :=
  required "request identity" value

def requireResponseIds (requestId : UInt64) (identities : List UInt64) :
    Except CodecError Unit := do
  let _ ← requiredRequest requestId
  rejectIf (identities.contains 0) (.invalidValue "response identity")

/-- `u32::from(activate)`. -/
def activateWord (activate : Bool) : UInt32 := if activate then 1 else 0

/-- What an encoder's `match` yields. -/
structure Body (Op : Type) where
  opcode : Op
  requestId : UInt64
  payload : Bytes

/-- The `match` of `encode_request`. -/
def writeRequest : ControlRequest → Except CodecError (Body RequestOpcode)
  | .publishFramework requestId package task androidDisplay incarnation activate => do
    nonzero "request identity" requestId
    nonzero "task identity" task
    nonzero "task incarnation" incarnation
    rejectIf (incarnation > I64_MAX ∨ !validPackage package)
      (.invalidValue "framework task identity")
    let name ← writeString package MAX_PACKAGE_BYTES
    return ⟨.publishFramework, requestId,
      name ++ (u64 task ++ (u32 androidDisplay ++ (u64 incarnation ++
        u32 (activateWord activate))))⟩
  | .subscribe requestId => do
    nonzero "request identity" requestId
    return ⟨.subscribe, requestId, []⟩
  | .acknowledge requestId => do
    nonzero "request identity" requestId
    return ⟨.acknowledge, requestId, []⟩
  | .hello minMajor maxMajor => do
    rejectIf (minMajor = 0 ∨ minMajor > maxMajor) (.invalidValue "version range")
    return ⟨.hello, 0, u16 minMajor ++ u16 maxMajor⟩
  | .reserve requestId package => do
    nonzero "request identity" requestId
    rejectIf (!validPackage package) (.invalidValue "package")
    let name ← writeString package MAX_PACKAGE_BYTES
    return ⟨.reserve, requestId, name⟩
  | .bind requestId object task androidDisplay => do
    nonzero "request identity" requestId
    nonzero "object identity" object
    nonzero "task identity" task
    return ⟨.bind, requestId, u64 object ++ (u64 task ++ u32 androidDisplay)⟩
  | .registerDirect requestId package task androidDisplay => do
    nonzero "request identity" requestId
    nonzero "task identity" task
    rejectIf (!validPackage package) (.invalidValue "package")
    let name ← writeString package MAX_PACKAGE_BYTES
    return ⟨.registerDirect, requestId, name ++ (u64 task ++ u32 androidDisplay)⟩
  | .remove requestId object => do
    nonzero "request identity" requestId
    nonzero "object identity" object
    return ⟨.remove, requestId, u64 object⟩
  | .publishDirect requestId package task androidDisplay activate => do
    nonzero "request identity" requestId
    nonzero "task identity" task
    rejectIf (!validPackage package) (.invalidValue "package")
    let name ← writeString package MAX_PACKAGE_BYTES
    return ⟨.publishDirect, requestId,
      name ++ (u64 task ++ (u32 androidDisplay ++ u32 (activateWord activate)))⟩

/-- `payload.string(MAX_PACKAGE_BYTES)?` with the check that follows it. -/
def readPackage : Reader CodecError String := do
  let package ← readString MAX_PACKAGE_BYTES
  check (rejectIf (!validPackage package) (.invalidValue "package"))
  return package

def readRequired (field : String) : Reader CodecError UInt64 := do
  let value ← readU64 .truncated
  check (required field value)

def readIncarnation (opcode : RequestOpcode) : Reader CodecError (Option UInt64) :=
  if opcode = .publishFramework then do
    let incarnation ← readRequired "task incarnation"
    check (rejectIf (incarnation > I64_MAX) (.invalidValue "task incarnation"))
    return some incarnation
  else
    return none

def readActivation : Reader CodecError Bool := do
  let flags ← readU32 .truncated
  if flags = 0 then return false
  else if flags = 1 then return true
  else throw (.invalidValue "activation flags")

/-- The `match` of `decode_request`. -/
def readRequest (opcode : RequestOpcode) (requestId : UInt64) : Reader CodecError ControlRequest :=
  match opcode with
  | .subscribe => do
    let requestId ← check (requiredRequest requestId)
    return .subscribe requestId
  | .acknowledge => do
    let requestId ← check (requiredRequest requestId)
    return .acknowledge requestId
  | .hello => do
    check (rejectIf (requestId ≠ 0) .invalidHeader)
    let minMajor ← readU16 .truncated
    let maxMajor ← readU16 .truncated
    check (rejectIf (minMajor = 0 ∨ minMajor > maxMajor) (.invalidValue "version range"))
    return .hello minMajor maxMajor
  | .reserve => do
    check (nonzero "request identity" requestId)
    let package ← readPackage
    return .reserve requestId package
  | .bind => do
    let requestId ← check (requiredRequest requestId)
    let object ← readRequired "object identity"
    let task ← readRequired "task identity"
    let androidDisplay ← readU32 .truncated
    return .bind requestId object task androidDisplay
  | .registerDirect => do
    let requestId ← check (requiredRequest requestId)
    let package ← readPackage
    let task ← readRequired "task identity"
    let androidDisplay ← readU32 .truncated
    return .registerDirect requestId package task androidDisplay
  | .remove => do
    let requestId ← check (requiredRequest requestId)
    let object ← readRequired "object identity"
    return .remove requestId object
  | .publishDirect | .publishFramework => do
    let requestId ← check (requiredRequest requestId)
    let package ← readPackage
    let task ← readRequired "task identity"
    let androidDisplay ← readU32 .truncated
    let incarnation ← readIncarnation opcode
    let activate ← readActivation
    match incarnation with
    | some incarnation =>
      return .publishFramework requestId package task androidDisplay incarnation activate
    | none => return .publishDirect requestId package task androidDisplay activate

/-- `code as u16`. -/
def errorWord : ControlErrorCode → UInt16
  | .protocol => 1
  | .invalidRequest => 2
  | .notFound => 3
  | .conflict => 4
  | .configureTimeout => 5
  | .backend => 6

/-- `ControlErrorCode::try_from`. -/
def errorOfWord (value : UInt16) : Except CodecError ControlErrorCode :=
  if value = 1 then .ok .protocol
  else if value = 2 then .ok .invalidRequest
  else if value = 3 then .ok .notFound
  else if value = 4 then .ok .conflict
  else if value = 5 then .ok .configureTimeout
  else if value = 6 then .ok .backend
  else .error (.invalidValue "control error code")

/-- The kind, width and height of an action. -/
def actionWords : TaskAction → UInt32 × UInt32 × UInt32
  | .focus => (1, 0, 0)
  | .resize width height => (2, width, height)
  | .close => (3, 0, 0)

def actionOfWords (kind width height : UInt32) : Except CodecError TaskAction :=
  if kind = 1 ∧ width = 0 ∧ height = 0 then .ok .focus
  else if kind = 2 then .ok (.resize width height)
  else if kind = 3 ∧ width = 0 ∧ height = 0 then .ok .close
  else .error (.invalidValue "task command action")

def commandBytes (command : TaskCommand) : Bytes :=
  let words := actionWords command.action
  u64 command.object ++ (u64 command.task ++ (u64 command.incarnation ++
    (u32 command.androidDisplay ++ (u32 words.1 ++ (u32 words.2.1 ++ u32 words.2.2)))))

/-- The `match` of `encode_response`. -/
def writeResponse : ControlResponse → Except CodecError (Body ResponseOpcode)
  | .subscribed requestId => do
    nonzero "request identity" requestId
    return ⟨.subscribed, requestId, []⟩
  | .taskCommand requestId command => do
    nonzero "request identity" requestId
    rejectIf (requestId > I64_MAX) (.invalidValue "task command serial")
    mapErr ofCommandError command.validate
    return ⟨.taskCommand, requestId, commandBytes command⟩
  | .serverHello major minor => do
    rejectIf (major = 0) (.invalidValue "selected version")
    return ⟨.serverHello, 0, u16 major ++ u16 minor⟩
  | .reserved requestId object display => do
    requireResponseIds requestId [object, display]
    return ⟨.reserved, requestId, u64 object ++ u64 display⟩
  | .bound requestId object task display androidDisplay => do
    requireResponseIds requestId [object, task, display]
    return ⟨.bound, requestId, u64 object ++ (u64 task ++ (u64 display ++ u32 androidDisplay))⟩
  | .removed requestId object => do
    requireResponseIds requestId [object]
    return ⟨.removed, requestId, u64 object⟩
  | .error requestId code message => do
    rejectIf (message.isEmpty ∨ message.utf8ByteSize > MAX_ERROR_BYTES)
      (.invalidValue "error text")
    let text ← writeString message MAX_ERROR_BYTES
    return ⟨.error, requestId, u16 (errorWord code) ++ text⟩

/-- The payload of a task command, after the check of its serial. -/
def readCommand : Reader CodecError TaskCommand := do
  let object ← readU64 .truncated
  let task ← readU64 .truncated
  let incarnation ← readU64 .truncated
  let androidDisplay ← readU32 .truncated
  let kind ← readU32 .truncated
  let width ← readU32 .truncated
  let height ← readU32 .truncated
  let action ← check (actionOfWords kind width height)
  let command : TaskCommand := { object, task, incarnation, androidDisplay, action }
  check (mapErr ofCommandError command.validate)
  return command

/-- The `match` of `decode_response`. -/
def readResponse (opcode : ResponseOpcode) (requestId : UInt64) :
    Reader CodecError ControlResponse :=
  match opcode with
  | .subscribed => do
    let requestId ← check (requiredRequest requestId)
    return .subscribed requestId
  | .taskCommand => do
    let requestId ← check (requiredRequest requestId)
    check (rejectIf (requestId > I64_MAX) (.invalidValue "task command serial"))
    let command ← readCommand
    return .taskCommand requestId command
  | .serverHello => do
    check (rejectIf (requestId ≠ 0) .invalidHeader)
    let major ← readU16 .truncated
    check (rejectIf (major = 0) (.invalidValue "selected major"))
    let minor ← readU16 .truncated
    return .serverHello major minor
  | .reserved => do
    let requestId ← check (requiredRequest requestId)
    let object ← readRequired "object identity"
    let display ← readRequired "display identity"
    return .reserved requestId object display
  | .bound => do
    let requestId ← check (requiredRequest requestId)
    let object ← readRequired "object identity"
    let task ← readRequired "task identity"
    let display ← readRequired "display identity"
    let androidDisplay ← readU32 .truncated
    return .bound requestId object task display androidDisplay
  | .removed => do
    let requestId ← check (requiredRequest requestId)
    let object ← readRequired "object identity"
    return .removed requestId object
  | .error => do
    let word ← readU16 .truncated
    let code ← check (errorOfWord word)
    let message ← readString MAX_ERROR_BYTES
    return .error requestId code message

/-! ## Whole records -/

section Records

variable {Op Message : Type}

/-- The common frame of `encode_request` and `encode_response`. -/
def encodeRecord (word : Op → UInt16) (write : Message → Except CodecError (Body Op))
    (message : Message) : Except CodecError Bytes := do
  let body ← write message
  encode (word body.opcode) body.requestId body.payload

/-- `Reader::finish`. -/
def finish (remaining : Bytes) : Except CodecError Unit :=
  rejectIf (remaining ≠ []) .invalidHeader

/-- The common frame of `decode_request` and `decode_response`. -/
def decodeRecord (opcodes : List Op) (word : Op → UInt16)
    (read : Op → UInt64 → Reader CodecError Message) (record : Bytes) :
    Except CodecError Message := do
  let header ← decodeHeader record
  let opcode ← okOr (opcodes.find? fun op => word op = header.opcode)
    (.unknownOpcode header.opcode)
  let (message, remaining) ← (read opcode header.requestId).run header.payload
  finish remaining
  return message

end Records

def encodeRequest : ControlRequest → Except CodecError Bytes :=
  encodeRecord RequestOpcode.word writeRequest

def decodeRequest : Bytes → Except CodecError ControlRequest :=
  decodeRecord requestOpcodes RequestOpcode.word readRequest

def encodeResponse : ControlResponse → Except CodecError Bytes :=
  encodeRecord ResponseOpcode.word writeResponse

def decodeResponse : Bytes → Except CodecError ControlResponse :=
  decodeRecord responseOpcodes ResponseOpcode.word readResponse

/-! ## The header codec -/

/-- A record whose header is `headerBytes` and whose size is within the limit. -/
structure Framed (record : Bytes) (minor : UInt16) (h : Header) : Prop where
  size_le : HEADER_BYTES + h.payload.length ≤ MAX_RECORD_BYTES
  bytes_eq : record = headerBytes minor h.opcode (UInt32.ofNat h.payload.length) h.requestId ++
    h.payload

/-- A record that is long enough is its marker, its header words and what follows them. -/
theorem record_split {record : Bytes} (hlen : HEADER_BYTES ≤ record.length) :
    record = record.take 4 ++ (u16 (UInt16.ofNat (field record 4 2)) ++
      (u16 (UInt16.ofNat (field record 6 2)) ++ (u16 (UInt16.ofNat (field record 8 2)) ++
        (u16 (UInt16.ofNat (field record 10 2)) ++ (u32 (UInt32.ofNat (field record 12 4)) ++
          (u64 (UInt64.ofNat (field record 16 8)) ++ record.drop HEADER_BYTES)))))) := by
  rw [HEADER_BYTES] at *
  rw [← drop_u64 (by omega), ← drop_u32 (by omega), ← drop_u16 (by omega), ← drop_u16 (by omega),
    ← drop_u16 (by omega), ← drop_u16 (by omega), List.take_append_drop]

/-- The decoder finds each word where `headerBytes` put it. -/
theorem field_headerBytes {record payload : Bytes} {minor opcode : UInt16} {length : UInt32}
    {requestId : UInt64} (h : record = headerBytes minor opcode length requestId ++ payload) :
    record.take 4 = MAGIC ∧ field record 4 2 = PROTOCOL_MAJOR.toNat ∧
    field record 8 2 = opcode.toNat ∧ field record 10 2 = 0 ∧ field record 12 4 = length.toNat ∧
    field record 16 8 = requestId.toNat ∧ record.drop HEADER_BYTES = payload := by
  subst h
  simp [field, headerBytes, MAGIC, HEADER_BYTES, List.drop_append, List.take_append,
    List.drop_eq_nil_of_le]

/-- **The header codec**: what `decode_header` accepts is what `encode` writes, up to the minor
    version. -/
theorem decodeHeader_eq_ok {record : Bytes} {h : Header} :
    decodeHeader record = .ok h ↔ ∃ minor, Framed record minor h := by
  simp only [decodeHeader, bind_eq_ok, rejectIf_eq_ok, exists_const, pure_eq_ok, not_or, ne_eq,
    not_not, Nat.not_lt]
  constructor
  · rintro ⟨⟨hlen, hmax⟩, hmagic, hmajor, ⟨hreserved, hsize⟩, rfl⟩
    have hsplit := record_split hlen
    have hpayload : UInt32.ofNat (record.drop HEADER_BYTES).length =
        UInt32.ofNat (field record 12 4) := by
      rw [List.length_drop]
      congr 1
      omega
    refine ⟨UInt16.ofNat (field record 6 2), ?_, ?_⟩
    · rw [List.length_drop]
      omega
    · rw [hmagic, hmajor, hreserved] at hsplit
      rw [hpayload]
      simpa [headerBytes] using hsplit
  · rintro ⟨minor, hsize, hbytes⟩
    obtain ⟨hmagic, hmajor, hopcode, hreserved, hlength, hid, hdrop⟩ := field_headerBytes hbytes
    have hn : (UInt32.ofNat h.payload.length).toNat = h.payload.length :=
      UInt32.toNat_ofNat_of_lt' (by
        show _ < 4294967296
        simp only [MAX_RECORD_BYTES] at hsize
        omega)
    have htotal : record.length = HEADER_BYTES + h.payload.length := by
      rw [hbytes, List.length_append, length_headerBytes]
    refine ⟨⟨by omega, by omega⟩, hmagic, ?_, ⟨hreserved, by rw [hlength, hn, htotal]⟩, ?_⟩
    · rw [hmajor, UInt16.ofNat_toNat]
    · rw [hopcode, hid, hdrop, UInt16.ofNat_toNat, UInt64.ofNat_toNat]

theorem sameButMinor_headerBytes (minor minor' opcode : UInt16) (length : UInt32)
    (requestId : UInt64) (payload : Bytes) :
    Wire.SameButMinor (headerBytes minor opcode length requestId ++ payload)
      (headerBytes minor' opcode length requestId ++ payload) := by
  simp [Wire.SameButMinor, headerBytes, MAGIC, List.drop_append, List.drop_eq_nil_of_le]

/-! ## From payloads to records -/

section Records

variable {Op Message : Type}

/-- The obligations of one direction. -/
structure RecordCodec (opcodes : List Op) (word : Op → UInt16)
    (write : Message → Except CodecError (Body Op))
    (read : Op → UInt64 → Reader CodecError Message) : Prop where
  word_injective : Function.Injective word
  opcodes_complete : ∀ op, op ∈ opcodes
  /-- The reader accepts exactly the written payloads. -/
  read_iff : ∀ op requestId payload message,
    (read op requestId).run payload = .ok (message, []) ↔
      write message = .ok ⟨op, requestId, payload⟩
  /-- Payloads fit into a record. -/
  bounded : ∀ message body, write message = .ok body →
    HEADER_BYTES + body.payload.length ≤ MAX_RECORD_BYTES

/-- An encoder and a decoder that are exact inverses, up to the minor version of a header. -/
structure ExactCodec (encode : Message → Except CodecError Bytes)
    (decode : Bytes → Except CodecError Message) : Prop where
  /-- What was encoded is decoded. -/
  decode_encode : ∀ message record, encode message = .ok record → decode record = .ok message
  /-- What was decoded is encoded again, into the same bytes. -/
  encode_decode : ∀ record message, decode record = .ok message →
    ∃ record', encode message = .ok record' ∧ Wire.SameButMinor record' record
  /-- The encoder accepts exactly the messages that the decoder can produce. -/
  same_domain : ∀ message, (∃ record, encode message = .ok record) ↔
    ∃ record, decode record = .ok message

variable {opcodes : List Op} {word : Op → UInt16} {write : Message → Except CodecError (Body Op)}
  {read : Op → UInt64 → Reader CodecError Message}

namespace RecordCodec

theorem encode_eq_ok_iff (hc : RecordCodec opcodes word write read) {message : Message}
    {record : Bytes} :
    encodeRecord word write message = .ok record ↔ ∃ body, write message = .ok body ∧
      record = headerBytes PROTOCOL_MINOR (word body.opcode) (UInt32.ofNat body.payload.length)
        body.requestId ++ body.payload := by
  simp only [encodeRecord, encode, bind_eq_ok, rejectIf_eq_ok, exists_const, pure_eq_ok]
  constructor
  · rintro ⟨body, hw, -, -, rfl⟩
    exact ⟨body, hw, rfl⟩
  · rintro ⟨body, hw, rfl⟩
    have hsize := hc.bounded message body hw
    have hbig : body.payload.length ≤ 0xffffffff := by
      simp only [MAX_RECORD_BYTES] at hsize
      omega
    exact ⟨body, hw, by omega, by omega, rfl⟩

theorem decode_eq_ok_iff (hc : RecordCodec opcodes word write read) {record : Bytes}
    {message : Message} :
    decodeRecord opcodes word read record = .ok message ↔ ∃ body minor,
      write message = .ok body ∧
        Framed record minor ⟨word body.opcode, body.requestId, body.payload⟩ := by
  simp only [decodeRecord, bind_eq_ok, decodeHeader_eq_ok, okOr_eq_ok, Prod.exists, finish,
    rejectIf_eq_ok, pure_eq_ok, exists_const, ne_eq, not_not,
    Wire.find?_code_eq_some hc.word_injective hc.opcodes_complete]
  constructor
  · rintro ⟨⟨opcode, requestId, payload⟩, ⟨minor, hframed⟩, op, rfl, m, _, hread, rfl, rfl⟩
    exact ⟨⟨op, requestId, payload⟩, minor, (hc.read_iff ..).mp hread, hframed⟩
  · rintro ⟨body, minor, hwrite, hframed⟩
    exact ⟨_, ⟨minor, hframed⟩, body.opcode, rfl, message, [], (hc.read_iff ..).mpr hwrite, rfl,
      rfl⟩

/-- A payload codec makes a record codec that is exact. -/
theorem exact (hc : RecordCodec opcodes word write read) :
    ExactCodec (encodeRecord word write) (decodeRecord opcodes word read) := by
  have decode_encode : ∀ message record, encodeRecord word write message = .ok record →
      decodeRecord opcodes word read record = .ok message := by
    intro message record h
    obtain ⟨body, hw, rfl⟩ := hc.encode_eq_ok_iff.mp h
    exact hc.decode_eq_ok_iff.mpr ⟨body, PROTOCOL_MINOR, hw, ⟨hc.bounded message body hw, rfl⟩⟩
  have encode_decode : ∀ record message, decodeRecord opcodes word read record = .ok message →
      ∃ record', encodeRecord word write message = .ok record' ∧
        Wire.SameButMinor record' record := by
    intro record message h
    obtain ⟨body, minor, hw, hframed⟩ := hc.decode_eq_ok_iff.mp h
    refine ⟨_, hc.encode_eq_ok_iff.mpr ⟨body, hw, rfl⟩, ?_⟩
    rw [hframed.bytes_eq]
    exact sameButMinor_headerBytes ..
  refine ⟨decode_encode, encode_decode, fun message => ⟨?_, ?_⟩⟩
  · rintro ⟨record, h⟩
    exact ⟨record, decode_encode message record h⟩
  · rintro ⟨record, h⟩
    obtain ⟨record', h', -⟩ := encode_decode record message h
    exact ⟨record', h'⟩

end RecordCodec

end Records

/-! ## Fields -/

@[simp] theorem required_eq_ok {what : String} {value v : UInt64} :
    required what value = .ok v ↔ value ≠ 0 ∧ value = v := by
  unfold required
  split <;> simp [*]

@[simp] theorem nonzero_eq_ok {what : String} {value : UInt64} {u : Unit} :
    nonzero what value = .ok u ↔ value ≠ 0 := by
  simp [nonzero, -bind_pure_comp]

@[simp] theorem requiredRequest_eq_ok {value v : UInt64} :
    requiredRequest value = .ok v ↔ value ≠ 0 ∧ value = v :=
  required_eq_ok

@[simp] theorem requireResponseIds_eq_ok {requestId : UInt64} {identities : List UInt64}
    {u : Unit} :
    requireResponseIds requestId identities = .ok u ↔
      requestId ≠ 0 ∧ ∀ identity ∈ identities, identity ≠ 0 := by
  simp [requireResponseIds, List.forall_mem_ne']

@[simp] theorem readRequired_eq_ok {what : String} {value : UInt64} {bs rest : Bytes} :
    (readRequired what).run bs = .ok (value, rest) ↔ value ≠ 0 ∧ bs = u64 value ++ rest := by
  simp only [readRequired, reader_bind_eq_ok, readU64_eq_ok, check_eq_ok, required_eq_ok]
  constructor
  · rintro ⟨_, _, rfl, ⟨hv, rfl⟩, rfl⟩
    exact ⟨hv, rfl⟩
  · rintro ⟨hv, rfl⟩
    exact ⟨value, rest, rfl, ⟨hv, rfl⟩, rfl⟩

@[simp] theorem readActivation_eq_ok {activate : Bool} {bs rest : Bytes} :
    readActivation.run bs = .ok (activate, rest) ↔ bs = u32 (activateWord activate) ++ rest := by
  simp only [readActivation, reader_bind_eq_ok, readU32_eq_ok]
  constructor
  · rintro ⟨flags, mid, rfl, h⟩
    by_cases h0 : flags = 0
    · rw [if_pos h0, reader_pure_eq_ok] at h
      obtain ⟨rfl, rfl⟩ := h
      rw [h0]; rfl
    · by_cases h1 : flags = 1
      · rw [if_neg h0, if_pos h1, reader_pure_eq_ok] at h
        obtain ⟨rfl, rfl⟩ := h
        rw [h1]; rfl
      · rw [if_neg h0, if_neg h1, reader_throw_eq_ok] at h
        exact h.elim
  · rintro rfl
    refine ⟨activateWord activate, rest, rfl, ?_⟩
    cases activate <;> simp [activateWord]

/-- Only a framework publication carries an incarnation. -/
@[simp] theorem readIncarnation_publishFramework {incarnation : Option UInt64} {bs rest : Bytes} :
    (readIncarnation .publishFramework).run bs = .ok (incarnation, rest) ↔
      ∃ value, incarnation = some value ∧ value ≠ 0 ∧ value ≤ I64_MAX ∧
        bs = u64 value ++ rest := by
  simp only [readIncarnation, if_true, reader_bind_eq_ok, readRequired_eq_ok, check_eq_ok,
    rejectIf_eq_ok, reader_pure_eq_ok, exists_const, UInt64.not_lt]
  constructor
  · rintro ⟨value, mid, ⟨h0, rfl⟩, _, ⟨hmax, rfl⟩, rfl, rfl⟩
    exact ⟨value, rfl, h0, hmax, rfl⟩
  · rintro ⟨value, rfl, h0, hmax, rfl⟩
    exact ⟨value, rest, ⟨h0, rfl⟩, rest, ⟨hmax, rfl⟩, rfl, rfl⟩

@[simp] theorem readIncarnation_publishDirect {incarnation : Option UInt64} {bs rest : Bytes} :
    (readIncarnation .publishDirect).run bs = .ok (incarnation, rest) ↔
      incarnation = none ∧ bs = rest := by
  rw [readIncarnation, if_neg (by decide), reader_pure_eq_ok, eq_comm]

theorem writeString_eq_ok {value : String} {maximum : Nat} {bs : Bytes}
    (hmax : maximum ≤ 0xffff) :
    writeString value maximum = .ok bs ↔
      value ≠ "" ∧ value.utf8ByteSize ≤ maximum ∧ bs = Wire.stringBytes value := by
  simp only [writeString, bind_eq_ok, rejectIf_eq_ok, pure_eq_ok, exists_const, not_or,
    Wire.stringBytes, String.isEmpty_iff]
  constructor
  · rintro ⟨⟨h0, hle⟩, -, rfl⟩
    exact ⟨h0, by omega, rfl⟩
  · rintro ⟨h0, hle, rfl⟩
    exact ⟨⟨h0, by omega⟩, by omega, rfl⟩

theorem readString_eq_ok {value : String} {maximum : Nat} {bs rest : Bytes}
    (hmax : maximum ≤ 0xffff) :
    (readString maximum).run bs = .ok (value, rest) ↔
      value ≠ "" ∧ value.utf8ByteSize ≤ maximum ∧ bs = Wire.stringBytes value ++ rest := by
  simp only [readString, reader_bind_eq_ok, readU16_eq_ok, check_eq_ok, rejectIf_eq_ok, take_eq_ok,
    okOr_eq_ok, fromUtf8_eq_some, Wire.stringBytes, not_or, ne_eq,
    ← String.utf8ByteSize_eq_zero_iff, ← UInt16.toNat_inj]
  constructor
  · rintro ⟨length, _, rfl, -, _, ⟨⟨h0, hle⟩, rfl⟩, bytes, _, ⟨hlen, rfl⟩, rfl, rfl⟩
    rw [length_utf8] at hlen
    rw [UInt16.toNat_zero] at h0
    exact ⟨by omega, by omega, by rw [hlen, UInt16.ofNat_toNat, List.append_assoc]⟩
  · rintro ⟨h0, hle, rfl⟩
    have hn : (UInt16.ofNat value.utf8ByteSize).toNat = value.utf8ByteSize :=
      UInt16.toNat_ofNat_of_lt' (by show _ < 65536; omega)
    exact ⟨_, _, List.append_assoc .., (), _, ⟨by rw [hn, UInt16.toNat_zero]; omega, rfl⟩,
      utf8 value, rest, ⟨by rw [hn, length_utf8], rfl⟩, rfl, rfl⟩

theorem maxPackageBytes_le : MAX_PACKAGE_BYTES ≤ 0xffff := by decide

theorem maxErrorBytes_le : MAX_ERROR_BYTES ≤ 0xffff := by decide

/-- A valid package passes the checks of `Writer::string`. -/
theorem validPackage_text {package : String} (h : validPackage package) :
    package ≠ "" ∧ package.utf8ByteSize ≤ MAX_PACKAGE_BYTES := by
  simp only [validPackage, Bool.and_eq_true, decide_eq_true_eq] at h
  exact h.1

@[simp] theorem writePackage_eq_ok {package : String} {bs : Bytes} (h : validPackage package) :
    writeString package MAX_PACKAGE_BYTES = .ok bs ↔ bs = Wire.stringBytes package := by
  rw [writeString_eq_ok maxPackageBytes_le]
  simp [validPackage_text h]

@[simp] theorem readPackage_eq_ok {package : String} {bs rest : Bytes} :
    readPackage.run bs = .ok (package, rest) ↔
      validPackage package ∧ bs = Wire.stringBytes package ++ rest := by
  simp only [readPackage, reader_bind_eq_ok, readString_eq_ok maxPackageBytes_le, check_eq_ok,
    rejectIf_eq_ok, reader_pure_eq_ok, Bool.not_eq_true', Bool.not_eq_false, exists_const]
  constructor
  · rintro ⟨_, _, ⟨-, -, rfl⟩, _, ⟨hv, rfl⟩, rfl, rfl⟩
    exact ⟨hv, rfl⟩
  · rintro ⟨hv, rfl⟩
    obtain ⟨h0, hle⟩ := validPackage_text hv
    exact ⟨package, rest, ⟨h0, hle, rfl⟩, rest, ⟨hv, rfl⟩, rfl, rfl⟩

/-! ## Requests -/

/-- An accepted payload is the one the encoder writes.  The cases follow the decoder's match. -/
theorem writeRequest_of_read {op : RequestOpcode} {requestId : UInt64} {payload : Bytes}
    {request : ControlRequest} (h : (readRequest op requestId).run payload = .ok (request, [])) :
    writeRequest request = .ok ⟨op, requestId, payload⟩ := by
  cases op with
  | subscribe | acknowledge =>
    simp [readRequest, -bind_pure_comp] at h
    obtain ⟨⟨hid, rfl⟩, rfl⟩ := h
    simp [writeRequest, -bind_pure_comp, hid]
  | hello =>
    simp [readRequest, -bind_pure_comp] at h
    obtain ⟨rfl, minMajor, maxMajor, rfl, ⟨h0, hle⟩, rfl⟩ := h
    simp [writeRequest, -bind_pure_comp, h0, hle]
  | reserve =>
    simp [readRequest, -bind_pure_comp] at h
    obtain ⟨hid, package, ⟨hp, rfl⟩, rfl⟩ := h
    simp [writeRequest, -bind_pure_comp, hid, hp]
  | bind =>
    simp [readRequest, -bind_pure_comp] at h
    obtain ⟨hid, object, task, androidDisplay, ⟨hobject, rfl⟩, htask, rfl⟩ := h
    simp [writeRequest, -bind_pure_comp, hid, hobject, htask]
  | registerDirect =>
    simp [readRequest, -bind_pure_comp] at h
    obtain ⟨hid, package, task, androidDisplay, ⟨hp, rfl⟩, htask, rfl⟩ := h
    simp [writeRequest, -bind_pure_comp, hid, hp, htask]
  | remove =>
    simp [readRequest, -bind_pure_comp] at h
    obtain ⟨hid, object, ⟨hobject, rfl⟩, rfl⟩ := h
    simp [writeRequest, -bind_pure_comp, hid, hobject]
  | publishDirect =>
    simp [readRequest, -bind_pure_comp] at h
    obtain ⟨hid, package, task, androidDisplay, _, ⟨hp, rfl⟩, htask,
      ⟨rfl, rfl⟩ | ⟨rfl, rfl⟩⟩ := h
    all_goals simp [writeRequest, -bind_pure_comp, hid, hp, htask]
  | publishFramework =>
    simp [readRequest, -bind_pure_comp] at h
    obtain ⟨hid, package, task, androidDisplay, _, incarnation, ⟨hp, rfl⟩, htask, ⟨h0, hmax⟩,
      ⟨rfl, rfl⟩ | ⟨rfl, rfl⟩⟩ := h
    all_goals simp [writeRequest, -bind_pure_comp, hid, hp, htask, h0, hmax]

/-- A written payload is accepted, and gives the request back. -/
theorem readRequest_of_write {op : RequestOpcode} {requestId : UInt64} {payload : Bytes}
    {request : ControlRequest} (h : writeRequest request = .ok ⟨op, requestId, payload⟩) :
    (readRequest op requestId).run payload = .ok (request, []) := by
  cases request with
  | subscribe | acknowledge =>
    simp [writeRequest, -bind_pure_comp] at h
    obtain ⟨hid, rfl, rfl, rfl⟩ := h
    simp [readRequest, -bind_pure_comp, hid]
  | hello minMajor maxMajor =>
    simp [writeRequest, -bind_pure_comp] at h
    obtain ⟨⟨h0, hle⟩, rfl, rfl, rfl⟩ := h
    simp [readRequest, -bind_pure_comp, h0, hle]
  | reserve requestId package =>
    simp [writeRequest, -bind_pure_comp, writeString_eq_ok maxPackageBytes_le] at h
    obtain ⟨hid, hp, -, rfl, rfl, rfl⟩ := h
    simp [readRequest, -bind_pure_comp, hid, hp]
  | bind requestId object task androidDisplay =>
    simp [writeRequest, -bind_pure_comp] at h
    obtain ⟨hid, hobject, htask, rfl, rfl, rfl⟩ := h
    simp [readRequest, -bind_pure_comp, hid, hobject, htask]
  | registerDirect requestId package task androidDisplay =>
    simp [writeRequest, -bind_pure_comp, writeString_eq_ok maxPackageBytes_le] at h
    obtain ⟨hid, htask, hp, -, rfl, rfl, rfl⟩ := h
    simp [readRequest, -bind_pure_comp, hid, hp, htask]
  | remove requestId object =>
    simp [writeRequest, -bind_pure_comp] at h
    obtain ⟨hid, hobject, rfl, rfl, rfl⟩ := h
    simp [readRequest, -bind_pure_comp, hid, hobject]
  | publishDirect requestId package task androidDisplay activate =>
    simp [writeRequest, -bind_pure_comp, writeString_eq_ok maxPackageBytes_le] at h
    obtain ⟨hid, htask, hp, -, rfl, rfl, rfl⟩ := h
    cases activate <;> simp [readRequest, -bind_pure_comp, hid, hp, htask]
  | publishFramework requestId package task androidDisplay incarnation activate =>
    simp [writeRequest, -bind_pure_comp, writeString_eq_ok maxPackageBytes_le] at h
    obtain ⟨hid, htask, h0, ⟨hmax, hp⟩, -, rfl, rfl, rfl⟩ := h
    cases activate <;> simp [readRequest, -bind_pure_comp, hid, hp, htask, h0, hmax]

/-- The largest request payload is a framework publication. -/
theorem writeRequest_bounded {request : ControlRequest} {body : Body RequestOpcode}
    (h : writeRequest request = .ok body) :
    HEADER_BYTES + body.payload.length ≤ MAX_RECORD_BYTES := by
  have hlimits : HEADER_BYTES + (2 + MAX_PACKAGE_BYTES) + 24 ≤ MAX_RECORD_BYTES := by decide
  cases request with
  | subscribe | acknowledge | hello =>
    simp [writeRequest, -bind_pure_comp] at h
    obtain ⟨-, rfl⟩ := h
    simp [HEADER_BYTES, MAX_RECORD_BYTES]
  | remove =>
    simp [writeRequest, -bind_pure_comp] at h
    obtain ⟨-, -, rfl⟩ := h
    simp [HEADER_BYTES, MAX_RECORD_BYTES]
  | bind =>
    simp [writeRequest, -bind_pure_comp] at h
    obtain ⟨-, -, -, rfl⟩ := h
    simp [HEADER_BYTES, MAX_RECORD_BYTES]
  | reserve =>
    simp [writeRequest, -bind_pure_comp, writeString_eq_ok maxPackageBytes_le] at h
    obtain ⟨-, -, ⟨-, hlen⟩, rfl⟩ := h
    simp only [Wire.length_stringBytes]
    omega
  | registerDirect | publishDirect =>
    simp [writeRequest, -bind_pure_comp, writeString_eq_ok maxPackageBytes_le] at h
    obtain ⟨-, -, -, ⟨-, hlen⟩, rfl⟩ := h
    simp only [List.length_append, Wire.length_stringBytes, length_u64, length_u32]
    omega
  | publishFramework =>
    simp [writeRequest, -bind_pure_comp, writeString_eq_ok maxPackageBytes_le] at h
    obtain ⟨-, -, -, -, ⟨-, hlen⟩, rfl⟩ := h
    simp only [List.length_append, Wire.length_stringBytes, length_u64, length_u32]
    omega

/-- **Requests**: the decoder accepts exactly the written payloads. -/
theorem request_recordCodec :
    RecordCodec requestOpcodes RequestOpcode.word writeRequest readRequest where
  word_injective := by
    intro a b h
    cases a <;> cases b <;> first | rfl | exact absurd h (by decide)
  opcodes_complete op := by cases op <;> decide
  read_iff _ _ _ _ := ⟨writeRequest_of_read, readRequest_of_write⟩
  bounded _ _ := writeRequest_bounded

/-! ## Responses -/

@[simp] theorem errorOfWord_eq_ok {value : UInt16} {code : ControlErrorCode} :
    errorOfWord value = .ok code ↔ value = errorWord code := by
  constructor
  · intro h
    simp only [errorOfWord] at h
    split_ifs at h with h1 h2 h3 h4 h5 h6
    all_goals
      simp only [Except.ok.injEq] at h
      subst h
      assumption
  · rintro rfl
    cases code <;> rfl

@[simp] theorem actionOfWords_eq_ok {kind width height : UInt32} {action : TaskAction} :
    actionOfWords kind width height = .ok action ↔
      (kind, width, height) = actionWords action := by
  constructor
  · intro h
    simp only [actionOfWords] at h
    split_ifs at h with h1 h2 h3
    · simp only [Except.ok.injEq] at h
      simp [← h, actionWords, h1]
    · simp only [Except.ok.injEq] at h
      simp [← h, actionWords, h2]
    · simp only [Except.ok.injEq] at h
      simp [← h, actionWords, h3]
  · intro h
    cases action <;> simp_all [actionWords, actionOfWords]

@[simp] theorem readCommand_eq_ok {command : TaskCommand} {bs rest : Bytes} :
    readCommand.run bs = .ok (command, rest) ↔
      command.validate = .ok () ∧ bs = commandBytes command ++ rest := by
  simp only [readCommand, reader_bind_eq_ok, readU64_eq_ok, readU32_eq_ok, check_eq_ok,
    actionOfWords_eq_ok, mapErr_eq_ok, reader_pure_eq_ok, commandBytes]
  constructor
  · rintro ⟨object, _, rfl, task, _, rfl, incarnation, _, rfl, androidDisplay, _, rfl, kind, _, rfl,
      width, _, rfl, height, _, rfl, action, _, ⟨haction, rfl⟩, _, _, ⟨hvalid, rfl⟩, rfl, rfl⟩
    exact ⟨hvalid, by simp [← haction]⟩
  · rintro ⟨hvalid, rfl⟩
    exact ⟨command.object, _, by simp only [List.append_assoc], command.task, _, rfl,
      command.incarnation, _, rfl, command.androidDisplay, _, rfl,
      (actionWords command.action).1, _, rfl, (actionWords command.action).2.1, _, rfl,
      (actionWords command.action).2.2, rest, rfl, command.action, rest, ⟨rfl, rfl⟩, (), rest,
      ⟨hvalid, rfl⟩, rfl, rfl⟩

theorem writeResponse_of_read {op : ResponseOpcode} {requestId : UInt64} {payload : Bytes}
    {response : ControlResponse}
    (h : (readResponse op requestId).run payload = .ok (response, [])) :
    writeResponse response = .ok ⟨op, requestId, payload⟩ := by
  cases op with
  | subscribed =>
    simp [readResponse, -bind_pure_comp] at h
    obtain ⟨⟨hid, rfl⟩, rfl⟩ := h
    simp [writeResponse, -bind_pure_comp, hid]
  | taskCommand =>
    simp [readResponse, -bind_pure_comp] at h
    obtain ⟨hid, hmax, command, ⟨hvalid, rfl⟩, rfl⟩ := h
    simp [writeResponse, -bind_pure_comp, hid, hmax, hvalid]
  | serverHello =>
    simp [readResponse, -bind_pure_comp] at h
    obtain ⟨rfl, major, minor, rfl, h0, rfl⟩ := h
    simp [writeResponse, -bind_pure_comp, h0]
  | reserved =>
    simp [readResponse, -bind_pure_comp] at h
    obtain ⟨hid, object, display, ⟨hobject, rfl⟩, hdisplay, rfl⟩ := h
    simp [writeResponse, -bind_pure_comp, hid, hobject, hdisplay]
  | bound =>
    simp [readResponse, -bind_pure_comp] at h
    obtain ⟨hid, object, task, display, androidDisplay, ⟨hobject, rfl⟩, htask, hdisplay, rfl⟩ := h
    simp [writeResponse, -bind_pure_comp, hid, hobject, htask, hdisplay]
  | removed =>
    simp [readResponse, -bind_pure_comp] at h
    obtain ⟨hid, object, ⟨hobject, rfl⟩, rfl⟩ := h
    simp [writeResponse, -bind_pure_comp, hid, hobject]
  | error =>
    simp [readResponse, -bind_pure_comp, readString_eq_ok maxErrorBytes_le] at h
    obtain ⟨code, message, rfl, ⟨h0, hle⟩, rfl⟩ := h
    simp [writeResponse, -bind_pure_comp, writeString_eq_ok maxErrorBytes_le, h0, hle]

theorem readResponse_of_write {op : ResponseOpcode} {requestId : UInt64} {payload : Bytes}
    {response : ControlResponse} (h : writeResponse response = .ok ⟨op, requestId, payload⟩) :
    (readResponse op requestId).run payload = .ok (response, []) := by
  cases response with
  | subscribed =>
    simp [writeResponse, -bind_pure_comp] at h
    obtain ⟨hid, rfl, rfl, rfl⟩ := h
    simp [readResponse, -bind_pure_comp, hid]
  | taskCommand requestId command =>
    simp [writeResponse, -bind_pure_comp] at h
    obtain ⟨hid, hmax, ⟨_, hvalid⟩, rfl, rfl, rfl⟩ := h
    simp [readResponse, -bind_pure_comp, hid, hmax, hvalid]
  | serverHello major minor =>
    simp [writeResponse, -bind_pure_comp] at h
    obtain ⟨h0, rfl, rfl, rfl⟩ := h
    simp [readResponse, -bind_pure_comp, h0]
  | reserved requestId object display =>
    simp [writeResponse, -bind_pure_comp] at h
    obtain ⟨⟨hid, hobject, hdisplay⟩, rfl, rfl, rfl⟩ := h
    simp [readResponse, -bind_pure_comp, hid, hobject, hdisplay]
  | bound requestId object task display androidDisplay =>
    simp [writeResponse, -bind_pure_comp] at h
    obtain ⟨⟨hid, hobject, htask, hdisplay⟩, rfl, rfl, rfl⟩ := h
    simp [readResponse, -bind_pure_comp, hid, hobject, htask, hdisplay]
  | removed requestId object =>
    simp [writeResponse, -bind_pure_comp] at h
    obtain ⟨⟨hid, hobject⟩, rfl, rfl, rfl⟩ := h
    simp [readResponse, -bind_pure_comp, hid, hobject]
  | error requestId code message =>
    simp [writeResponse, -bind_pure_comp, writeString_eq_ok maxErrorBytes_le] at h
    obtain ⟨⟨h0, hle⟩, rfl, rfl, rfl⟩ := h
    simp [readResponse, -bind_pure_comp, readString_eq_ok maxErrorBytes_le, h0, hle]

theorem length_commandBytes (command : TaskCommand) : (commandBytes command).length = 40 := by
  simp [commandBytes]

/-- The largest response payload is an error with its text. -/
theorem writeResponse_bounded {response : ControlResponse} {body : Body ResponseOpcode}
    (h : writeResponse response = .ok body) :
    HEADER_BYTES + body.payload.length ≤ MAX_RECORD_BYTES := by
  have hlimits : HEADER_BYTES + (2 + MAX_ERROR_BYTES) + 2 ≤ MAX_RECORD_BYTES := by decide
  cases response with
  | subscribed | serverHello | reserved | bound | removed =>
    simp [writeResponse, -bind_pure_comp] at h
    obtain ⟨-, rfl⟩ := h
    simp [HEADER_BYTES, MAX_RECORD_BYTES]
  | taskCommand =>
    simp [writeResponse, -bind_pure_comp] at h
    obtain ⟨-, -, -, rfl⟩ := h
    simp [length_commandBytes, HEADER_BYTES, MAX_RECORD_BYTES]
  | error =>
    simp [writeResponse, -bind_pure_comp, writeString_eq_ok maxErrorBytes_le] at h
    obtain ⟨⟨-, hlen⟩, -, rfl⟩ := h
    simp only [List.length_append, Wire.length_stringBytes, length_u16]
    omega

/-- **Responses**: likewise. -/
theorem response_recordCodec :
    RecordCodec responseOpcodes ResponseOpcode.word writeResponse readResponse where
  word_injective := by
    intro a b h
    cases a <;> cases b <;> first | rfl | exact absurd h (by decide)
  opcodes_complete op := by cases op <;> decide
  read_iff _ _ _ _ := ⟨writeResponse_of_read, readResponse_of_write⟩
  bounded _ _ := writeResponse_bounded

/-- **The task-control codec is exact in both directions**: what was encoded decodes to the same
    value; what decodes is encoded again, into the same bytes but for the minor version; so each
    encoder accepts exactly the values that its decoder can produce. -/
theorem control_codec_exact :
    ExactCodec encodeRequest decodeRequest ∧ ExactCodec encodeResponse decodeResponse :=
  ⟨request_recordCodec.exact, response_recordCodec.exact⟩

end Droidloom.TaskControl.Codec
