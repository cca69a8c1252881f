/-
  The clipboard's byte stream (`droidloom-wayland/src/clipboard/wire.rs`).

  A clip is sent as a `Begin` message with its description, the contents of its files in chunks that
  name the file they belong to, and an `End` message.  A frame is a big-endian length, a kind and a
  body; messages are compact JSON texts.  The receiver keeps the clip that has begun, and hands it
  over when its end arrives and every file has the declared size.  It stops at the first error.
-/
import Droidloom.Lib.ByteCodec
import Droidloom.Lib.History
import Droidloom.Lib.JsonText
import Droidloom.Desktop.Clipboard

namespace Droidloom.ClipWire

open ByteCodec Fallible History JsonText
open Clipboard (Blob Description Clip)

def MAX_TEXT : Nat := 1024 * 1024
def MAX_BYTES : Nat := 256 * 1024 * 1024
def MAX_FILES : Nat := 64
def MAX_FRAME : Nat := 3 * MAX_TEXT + 65536
def CHUNK : Nat := 65536

inductive Error
  | invalid
  | unexpectedEof
  | json
  | io
deriving DecidableEq, Repr

/-! ## Descriptions -/

/-- `char::is_control` -/
def isControl (c : Char) : Bool := c.toNat < 0x20 || (0x7f ≤ c.toNat && c.toNat ≤ 0x9f)

def validateBlobs : Nat → List Blob → Except Error Unit
  | _, [] => pure ()
  | total, b :: blobs => do
    rejectIf (total + b.size ≥ 2 ^ 64) .invalid
    rejectIf (total + b.size > MAX_BYTES ∨ b.name.utf8ByteSize > 255 ∨ b.mime.utf8ByteSize > 128 ∨
      ¬ b.mime.toList.contains '/' ∨ b.mime.toList.any isControl) .invalid
    validateBlobs (total + b.size) blobs

/-- `Description::validate` -/
def validate (description : Description) : Except Error Unit := do
  rejectIf (description.id = "" ∨ description.id.utf8ByteSize > 96 ∨
    ¬ (description.id.toList.all fun c => c.isAlphanum || c = '-') ∨
    (description.text.any fun s => decide (s.utf8ByteSize > MAX_TEXT)) ∨
    (description.html.any fun s => decide (s.utf8ByteSize > MAX_TEXT)) ∨
    description.blobs.length > MAX_FILES) .invalid
  validateBlobs 0 description.blobs

/-! ## Messages -/

inductive Message
  | hello (abi : Nat)
  | sync (revision : Nat)
  | begin (clip : Description)
  | end (id : String)
  | ack (id : String)
deriving DecidableEq, Repr

def blobText (b : Blob) : List Char :=
  '\x7b' :: (key "mime" ++ (quoted b.mime ++ (',' :: (key "name" ++ (quoted b.name ++
    (',' :: (key "size" ++ number '\x7d' b.size)))))))

def descriptionText (d : Description) : List Char :=
  '\x7b' :: (key "id" ++ (quoted d.id ++ (',' :: (key "base" ++ (number ',' d.base ++
    (key "text" ++ (optional quoted d.text ++ (',' :: (key "html" ++ (optional quoted d.html ++
    (',' :: (key "blobs" ++ ('[' :: (items blobText d.blobs ++ ['\x7d']))))))))))))))

def Message.tag : Message → String
  | .hello _ => "hello"
  | .sync _ => "sync"
  | .begin _ => "begin"
  | .end _ => "end"
  | .ack _ => "ack"

def Message.fieldText : Message → List Char
  | .hello abi => key "abi" ++ number '\x7d' abi
  | .sync revision => key "revision" ++ number '\x7d' revision
  | .begin clip => key "clip" ++ (descriptionText clip ++ ['\x7d'])
  | .end id => key "id" ++ (quoted id ++ ['\x7d'])
  | .ack id => key "id" ++ (quoted id ++ ['\x7d'])

/-- What `serde_json` writes: the variant's name as `type`, then its field. -/
def messageText (m : Message) : List Char :=
  '\x7b' :: (key "type" ++ (quoted m.tag ++ (',' :: m.fieldText)))

def encode (m : Message) : Bytes := utf8 (String.ofList (messageText m))

/-! ## Sending -/

/-- A writer that takes everything: its state is what has been written. -/
abbrev Writer := EStateM Error Bytes

def frameBytes (kind : UInt8) (bytes : Bytes) : Bytes :=
  beBytes 4 (bytes.length + 1) ++ kind :: bytes

def frame (kind : UInt8) (bytes : Bytes) : Writer Unit := do
  rejectIf (bytes.length + 1 > MAX_FRAME) .invalid
  modify (· ++ frameBytes kind bytes)

def sendMessage (m : Message) : Writer Unit := frame 1 (encode m)

/-- What the reads of a file return one after the other: each call returns some of the remaining
    bytes, at most `CHUNK`, and at least one while there are any. -/
def chunks (reads : Bytes → Nat) (rest : Bytes) : List Bytes :=
  if h : rest = [] then []
  else
    rest.take (max 1 (min (reads rest) CHUNK)) ::
      chunks reads (rest.drop (max 1 (min (reads rest) CHUNK)))
termination_by rest.length
decreasing_by
  have hpos : 0 < rest.length := List.length_pos_of_ne_nil h
  rw [List.length_drop]
  omega

def sendChunks (index : Nat) : List Bytes → Writer Unit
  | [] => pure ()
  | chunk :: rest => do
    frame 2 (beBytes 4 index ++ chunk)
    sendChunks index rest

def sendFiles (reads : Nat → Bytes → Nat) : Nat → List (Blob × Bytes) → Writer Unit
  | _, [] => pure ()
  | index, (blob, file) :: rest => do
    sendChunks index (chunks (reads index) (file.take blob.size))
    rejectIf ((file.take blob.size).length ≠ blob.size) .invalid
    sendFiles reads (index + 1) rest

/-- `send_clip` -/
def sendClip (reads : Nat → Bytes → Nat) (clip : Clip) : Writer Unit := do
  mapErr id (validate clip.description)
  rejectIf (clip.files.length ≠ clip.description.blobs.length) .invalid
  sendMessage (.begin clip.description)
  sendFiles reads 0 (clip.description.blobs.zip clip.files)
  sendMessage (.end clip.description.id)

/-! ## Receiving -/

/-- `safe_name` -/
def safeName (name : String) : String :=
  let s := String.ofList
    ((name.toList.filter fun c => ! isControl c && c ≠ '/' && c ≠ '\\').take 100)
  if s = "" ∨ s = "." ∨ s = ".." then "clipboard.bin" else s

/-- The file system of the receiver's directory: the six characters put into the name of a
    temporary file, and which names it accepts. -/
structure Files where
  random : Nat → String
  accepts : String → Bool
  random_size : ∀ i, (random i).utf8ByteSize = 6

def Files.name (files : Files) (index : Nat) (blob : Blob) : String :=
  "clip-" ++ files.random index ++ "-" ++ safeName blob.name

def createFiles (files : Files) : Nat → List Blob → Except Error (List Bytes)
  | _, [] => pure []
  | index, blob :: blobs => do
    rejectIf (¬ files.accepts (files.name index blob)) .io
    let rest ← createFiles files (index + 1) blobs
    return [] :: rest

structure Pending where
  description : Description
  files : List Bytes
  counts : List Nat

inductive Received
  | message (message : Message)
  | clip (clip : Clip)
deriving DecidableEq, Repr

/-- A frame's body, read as what its kind says. -/
inductive Frame
  | chunk (index : Nat) (data : Bytes)
  | message (message : Message)

/-- The next frame of the stream, and the rest. -/
def readFrame (stream : Bytes) : Except Error (Bytes × Bytes) := do
  rejectIf (stream.length < 4) .unexpectedEof
  let length := ofBeBytes (stream.take 4)
  rejectIf (length = 0 ∨ length > MAX_FRAME) .invalid
  rejectIf ((stream.drop 4).length < length) .unexpectedEof
  return ((stream.drop 4).take length, (stream.drop 4).drop length)

section Receiver

variable (decode : Bytes → Option Message) (files : Files)

def parse : Bytes → Except Error Frame
  | [] => .error .invalid
  | kind :: body =>
    if kind = 2 then
      if body.length < 4 ∨ body.length > CHUNK + 4 then .error .invalid
      else .ok (.chunk (ofBeBytes (body.take 4)) (body.drop 4))
    else if kind ≠ 1 then .error .invalid
    else
      match decode body with
      | none => .error .json
      | some m => .ok (.message m)

/-- A chunk for the clip that has begun. -/
def Pending.write (p : Pending) (index : Nat) (data : Bytes) : Except Error Pending := do
  rejectIf (index ≥ p.files.length) .invalid
  let count := p.counts.getD index 0 + data.length
  rejectIf (count ≥ 2 ^ 64) .invalid
  rejectIf (count > (p.description.blobs.map Blob.size).getD index 0) .invalid
  return { p with
    files := p.files.modify index (· ++ data)
    counts := p.counts.set index count }

def finish (p : Pending) (id : String) : Except Error Clip := do
  rejectIf (id ≠ p.description.id ∨ ((p.counts.zip p.description.blobs).any fun x =>
    decide (x.1 ≠ x.2.size))) .invalid
  return { description := p.description, files := p.files }

/-- One successful call of `Receiver::read`: what it returns, and the clip that has begun. -/
def handle (pending : Option Pending) :
    Frame → Except Error (Option Received × Option Pending)
  | .chunk index data => do
    let p ← okOr pending .invalid
    let p ← p.write index data
    return (none, some p)
  | .message (.begin clip) => do
    validate clip
    let created ← createFiles files 0 clip.blobs
    return (none, some
      { description := clip, files := created, counts := List.replicate clip.blobs.length 0 })
  | .message (.end id) => do
    let p ← okOr pending .invalid
    let clip ← finish p id
    return (some (.clip clip), none)
  | .message m => return (some (.message m), pending)

theorem readFrame_lt {stream bytes rest : Bytes} (h : readFrame stream = .ok (bytes, rest)) :
    rest.length < stream.length := by
  simp only [readFrame, bind_eq_ok, rejectIf_eq_ok, pure_eq_ok, Prod.mk.injEq] at h
  obtain ⟨-, hlong, -, hlength, -, -, -, rfl⟩ := h
  simp only [List.length_drop]
  omega

/-- **The receiver's loop**: the frames it reads from the stream until the first error, each with
    what that read returned. -/
def receive (pending : Option Pending) (stream : Bytes) : List (Frame × Option Received) :=
  match h : readFrame stream with
  | .error _ => []
  | .ok (bytes, rest) =>
    match parse decode bytes with
    | .error _ => []
    | .ok f =>
      match handle files pending f with
      | .error _ => []
      | .ok (result, pending) => (f, result) :: receive pending rest
termination_by stream.length
decreasing_by exact readFrame_lt h

/-- What the receiver returns. -/
def received (log : List (Frame × Option Received)) : List Received := log.filterMap Prod.snd

end Receiver

/-! ## Texts of different messages differ -/

end Droidloom.ClipWire
