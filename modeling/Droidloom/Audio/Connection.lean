/-
  One audio stream between Android's client and the host's broker (`droidloom-audio-client`,
  `droidloom-audio`, `droidloom-audio-protocol`).

  The client makes one call at a time: it sends a numbered request and waits for the reply, at most
  for the socket's time-out.  The broker answers requests in the order they were sent; every refusal
  is an error reply after which it closes the connection.

  The model starts after the opening handshake, with the format, the generation and the feature both
  sides settled on.  The audio graph is what it answers to each request (`Stream`).  A reply in
  flight is kept with the request it was made for; the code does not see that companion.
-/
import Droidloom.Lib.Triple

namespace Droidloom.Audio

def BUFFERS : Nat := 4
def MAX_FRAMES : Nat := 8192
def RATE : Nat := 48000
def START : Nat := 1
def PAUSE : Nat := 2
def DRAIN : Nat := 4
def STANDBY : Nat := 5

def EPIPE : Int := 32
def EPROTO : Int := 71
def ENOTSUP : Int := 95

/-- An error of either side: one with an errno, or one with a text only. -/
inductive IoError
  | os (code : Int)
  | invalid (message : String)
deriving DecidableEq, Repr

/-! ## Records -/

inductive Op
  | acquire | submit | control | status | error | ack | acquirePosition | submitPosition
deriving DecidableEq, Repr

abbrev Values := Vector Nat 5

def Values.zero : Values := #v[0, 0, 0, 0, 0]

structure Record where
  op : Op
  request : Nat
  generation : Nat
  values : Values
deriving DecidableEq

/-- One buffer's samples: a slot of the pool, a byte offset into it and a number of frames. -/
structure Region where
  slot : Nat
  frames : Nat
  offset : Nat
deriving DecidableEq, Repr

structure Position where
  frames : Nat
  monotonicNs : Nat
  latencyNs : Nat
  discontinuities : Nat
deriving DecidableEq, Repr

/-- Slot and frame count in 16 bits each, the byte offset in 32. -/
def packCredit (region : Region) : Except IoError Nat :=
  if BUFFERS ≤ region.slot ∨ region.frames = 0 ∨ MAX_FRAMES < region.frames then
    .error (.invalid "invalid audio credit")
  else .ok (region.slot ||| region.frames <<< 16 ||| region.offset <<< 32)

def unpackCredit (value : Nat) : Except IoError Region := do
  let region : Region :=
    ⟨value &&& 0xffff, (value >>> 16) &&& 0xffff, (value >>> 32) % 2 ^ 32⟩
  let _ ← packCredit region
  return region

inductive Direction
  | playback | capture
deriving DecidableEq, Repr

/-- The negotiated format, with the bounds that `validate` checks before a stream is opened. -/
structure Format where
  direction : Direction
  rate : Nat
  channels : Nat
  frames : Nat
  rate_eq : rate = RATE
  channels_range : 1 ≤ channels ∧ channels ≤ 2
  frames_range : 128 ≤ frames ∧ frames ≤ MAX_FRAMES

namespace Format

def frameBytes (format : Format) : Nat := format.channels * 2

def bytes (format : Format) : Nat := format.frames * format.frameBytes

end Format

/-- What the handshake settled: both sides hold the same copy for the life of the connection. -/
structure Session where
  format : Format
  generation : Nat
  burstPosition : Bool

/-! ## The broker -/

/-- The audio graph's answers while one request is handled. -/
structure Stream where
  acquire : Except IoError Region
  submit : Except IoError Unit
  control : Except IoError Unit
  position : Except IoError Position

structure Broker where
  previousRequest : Nat
  held : Option Region
  active : Bool
  closed : Bool
deriving DecidableEq

namespace Broker

/-- The reply to a request and the broker after it. -/
abbrev Reply := Op × Values × Broker

/-- The operations with a position need the feature of the handshake. -/
def offered (session : Session) (op basic : Op) : Bool := op = basic || session.burstPosition

def statusValues (position : Position) : Values :=
  #v[position.frames, position.monotonicNs, position.latencyNs, position.discontinuities, 0]

/-- A region that the pool has and that the request allows. -/
def fits (session : Session) (region : Region) (frames : Nat) : Bool :=
  region.slot < BUFFERS && region.frames ≠ 0 && region.frames ≤ frames &&
    region.offset % session.format.frameBytes = 0 &&
    region.offset + region.frames * session.format.frameBytes ≤ session.format.bytes

def acquire (session : Session) (stream : Stream) (b : Broker) (request : Record) :
    Except IoError Reply := do
  let region ← stream.acquire
  if ¬ fits session region request.values[0] then
    throw (.invalid "PipeWire returned an invalid sample region")
  else if request.op = .acquirePosition then
    let position ← stream.position
    let credit ← packCredit region
    return (request.op, #v[credit, position.frames, position.monotonicNs, position.latencyNs,
      position.discontinuities], { b with held := some region })
  else
    return (request.op, #v[region.slot, region.frames, region.offset, session.format.frames, 0],
      { b with held := some region })

def submit (stream : Stream) (b : Broker) (request : Record) : Except IoError Reply :=
  match b.held with
  | none => throw (.invalid "no audio credit")
  | some region =>
    if request.values[0] ≠ region.slot ∨ region.frames < request.values[1] then
      throw (.invalid "invalid slot or submit exceeds credit")
    else do
      stream.submit
      if request.op = .submitPosition then
        let position ← stream.position
        return (.status, statusValues position, { b with held := none })
      else return (.ack, Values.zero, { b with held := none })

def control (session : Session) (stream : Stream) (b : Broker) (request : Record) :
    Except IoError Reply :=
  let command := request.values[0]
  if command = DRAIN ∧ session.format.direction = .capture then throw (.os ENOTSUP)
  else do
    stream.control
    let active :=
      if command = START ∨ command = PAUSE ∨ command = STANDBY then decide (command = START)
      else b.active
    return (.ack, Values.zero, { b with active })

def position (stream : Stream) (b : Broker) : Except IoError Reply := do
  let position ← stream.position
  return (.status, statusValues position, b)

def unsupported : Except IoError Reply :=
  throw (.invalid "invalid audio operation or stream state")

/-- One request's operation, under the guards of the broker's `match`. -/
def handle (session : Session) (stream : Stream) (b : Broker) (request : Record) :
    Except IoError Reply :=
  match request.op with
  | .acquire | .acquirePosition =>
    if offered session request.op .acquire ∧ b.active ∧ b.held = none ∧
        request.values = #v[request.values[0], 0, 0, 0, 0] ∧ 0 < request.values[0] ∧
        request.values[0] ≤ session.format.frames then
      b.acquire session stream request
    else unsupported
  | .submit | .submitPosition =>
    if offered session request.op .submit ∧
        request.values = #v[request.values[0], request.values[1], 0, 0, 0] then
      b.submit stream request
    else unsupported
  | .control =>
    if b.held = none ∧ request.values = #v[request.values[0], 0, 0, 0, 0] ∧
        START ≤ request.values[0] ∧ request.values[0] ≤ STANDBY then
      b.control session stream request
    else unsupported
  | .status => if request.values = Values.zero then b.position stream else unsupported
  | .error | .ack => unsupported

def errorCode : IoError → Nat
  | .os code => (code % 2 ^ 64).toNat
  | .invalid _ => EPROTO.toNat

def errorReply (request : Record) (error : IoError) : Record :=
  { request with op := .error, values := #v[errorCode error, 0, 0, 0, 0] }

/-- One request: the broker after it and the reply it sent. -/
def serve (session : Session) (stream : Stream) (b : Broker) (request : Record) :
    Broker × Record :=
  if request.generation ≠ session.generation ∨ request.request ≤ b.previousRequest then
    ({ b with closed := true },
      errorReply request (.invalid "stale audio generation or request"))
  else
    let b := { b with previousRequest := request.request }
    match b.handle session stream request with
    | .ok (op, values, b) => (b, { request with op, values })
    | .error error => ({ b with closed := true }, errorReply request error)

end Broker

/-! ## The client -/

inductive Call
  | acquire (frames : Nat)
  | submit (frames : Nat)
  | control (command : Nat)
  /-- `fresh`: the stored position is younger than its lifetime when the call looks at it. -/
  | position (fresh : Bool)
deriving DecidableEq, Repr

inductive Answer
  | region (region : Region)
  | done
  | position (position : Position)
deriving DecidableEq, Repr

structure Client where
  request : Nat
  region : Option Region
  positionSnapshot : Option Position
deriving DecidableEq

namespace Client

def acquireOp (session : Session) : Op :=
  if session.burstPosition then .acquirePosition else .acquire

def submitOp (session : Session) : Op :=
  if session.burstPosition then .submitPosition else .submit

/-- What a call does before its exchange: refuse, answer from the stored position, or ask. -/
inductive Opening
  | refused (error : IoError)
  | cached (position : Position)
  | ask (op : Op) (values : Values)

def opening (session : Session) (c : Client) : Call → Opening
  | .acquire frames =>
    if c.region.isSome ∨ frames = 0 then
      .refused (.invalid "audio buffer already held or zero burst")
    else .ask (acquireOp session) #v[min frames session.format.frames, 0, 0, 0, 0]
  | .submit frames =>
    match c.region with
    | none => .refused (.invalid "no acquired audio buffer")
    | some region =>
      if region.frames < frames then .refused (.invalid "submit exceeds buffer credit")
      else .ask (submitOp session) #v[region.slot, frames, 0, 0, 0]
  | .control command =>
    if c.region.isSome then .refused (.invalid "control while holding sample memory")
    else .ask .control #v[command, 0, 0, 0, 0]
  | .position fresh =>
    match c.positionSnapshot with
    | some position => if fresh then .cached position else .ask .status Values.zero
    | none => .ask .status Values.zero

/-- The record of an exchange under the next number, while there is one. -/
def ask (session : Session) (c : Client) (op : Op) (values : Values) :
    Except IoError (Client × Record) :=
  if c.request + 1 < 2 ^ 32 then
    .ok ({ c with request := c.request + 1 }, ⟨op, c.request + 1, session.generation, values⟩)
  else .error (.invalid "audio request exhausted")

def checkError (reply : Record) : Except IoError Unit :=
  if reply.op = .error then
    if 1 ≤ reply.values[0] ∧ reply.values[0] ≤ 4095 then .error (.os reply.values[0])
    else .error (.invalid "invalid audio error code")
  else .ok ()

/-- The second half of an exchange: a reply has to carry the number just sent. -/
def correlate (session : Session) (c : Client) (reply : Record) : Except IoError Unit :=
  if reply.request ≠ c.request ∨ reply.generation ≠ session.generation then
    .error (.invalid "uncorrelated audio reply or unexpected descriptors")
  else checkError reply

def decodePosition (reply : Record) : Except IoError Position :=
  if reply.op ≠ .status ∨ reply.values[4] ≠ 0 then .error (.invalid "invalid position response")
  else .ok ⟨reply.values[0], reply.values[1], reply.values[2], reply.values[3]⟩

/-- The region an acquire reply names, packed into one field where positions travel with it. -/
def replyRegion (session : Session) (reply : Record) : Except IoError Region :=
  if session.burstPosition then unpackCredit reply.values[0]
  else if reply.values[3] ≠ session.format.frames ∨ reply.values[4] ≠ 0 then
    .error (.invalid "invalid buffer response")
  else .ok ⟨reply.values[0], reply.values[1], reply.values[2]⟩

def acquired (session : Session) (c : Client) (frames : Nat) (reply : Record) :
    Except IoError (Answer × Client) :=
  if reply.op ≠ acquireOp session then .error (.invalid "invalid buffer response")
  else do
    let region ← replyRegion session reply
    if BUFFERS ≤ region.slot ∨ region.frames = 0 ∨ frames < region.frames ∨
        session.format.frames < region.frames ∨
        region.offset % session.format.frameBytes ≠ 0 ∨
        session.format.bytes < region.offset + region.frames * session.format.frameBytes then
      throw (.invalid "audio region exceeds registered allocation")
    else
      let positionSnapshot :=
        if session.burstPosition then
          some ⟨reply.values[1], reply.values[2], reply.values[3], reply.values[4]⟩
        else c.positionSnapshot
      return (.region region, { c with region := some region, positionSnapshot })

def submitted (session : Session) (c : Client) (reply : Record) :
    Except IoError (Answer × Client) :=
  if session.burstPosition then do
    let position ← decodePosition reply
    return (.done, { c with region := none, positionSnapshot := some position })
  else if reply.op ≠ .ack ∨ reply.values ≠ Values.zero then
    .error (.invalid "invalid submit acknowledgement")
  else .ok (.done, { c with region := none })

def controlled (c : Client) (reply : Record) : Except IoError (Answer × Client) :=
  if reply.op ≠ .ack ∨ reply.values ≠ Values.zero then
    .error (.invalid "invalid control acknowledgement")
  else .ok (.done, c)

/-- The rest of a call once a reply has arrived. -/
def conclude (session : Session) (c : Client) (call : Call) (reply : Record) :
    Except IoError (Answer × Client) := do
  c.correlate session reply
  match call with
  | .acquire frames => c.acquired session frames reply
  | .submit _ => c.submitted session reply
  | .control _ => c.controlled reply
  | .position _ => do
    let position ← decodePosition reply
    return (.position position, c)

end Client

/-! ## The connection -/

/-- A call that waits for its reply, and the request it sent. -/
structure Exchange where
  call : Call
  record : Record
deriving DecidableEq

/-- A reply on its way to the client, with the request the broker made it for. -/
structure InFlight where
  request : Record
  reply : Record
deriving DecidableEq

structure Connection where
  client : Client
  pending : Option Exchange
  /-- Oldest first, as `replies`. -/
  requests : List Record
  replies : List InFlight
  broker : Broker
deriving DecidableEq

inductive Step
  | call (call : Call)
  | serve (stream : Stream)
  | receive
  | timeout

/-- What a step did to a call. -/
inductive Event
  | idle
  | refused (error : IoError)
  | cached (position : Position)
  | unsent (error : IoError)
  | sent (exchange : Exchange)
  | accepted (exchange : Exchange) (message : InFlight) (answer : Answer)
  | rejected (exchange : Exchange) (message : InFlight) (error : IoError)
  | timedOut (exchange : Exchange)
  | hungUp (exchange : Exchange)
deriving DecidableEq

namespace Event

/-- The call returned its result. -/
def succeeded : Event → Bool
  | cached _ | accepted _ _ _ => true
  | _ => false

/-- A request was sent and its reply was not accepted. -/
def failed : Event → Bool
  | rejected _ _ _ | timedOut _ | hungUp _ => true
  | _ => false

def isAccepted : Event → Bool
  | accepted _ _ _ => true
  | _ => false

def isTimeout : Event → Bool
  | timedOut _ => true
  | _ => false

end Event

namespace Connection

def opened : Connection where
  client := ⟨1, none, none⟩
  pending := none
  requests := []
  replies := []
  broker := ⟨1, none, false, false⟩

/-- A call up to its sending; a socket the broker has closed takes no request. -/
def begin (session : Session) (s : Connection) (call : Call) : Connection × Event :=
  match s.client.opening session call with
  | .refused error => (s, .refused error)
  | .cached position => (s, .cached position)
  | .ask op values =>
    let client := { s.client with positionSnapshot := none }
    match client.ask session op values with
    | .error error => ({ s with client }, .unsent error)
    | .ok (client, record) =>
      if s.broker.closed then ({ s with client }, .unsent (.os EPIPE))
      else
        ({ s with client, pending := some ⟨call, record⟩, requests := s.requests ++ [record] },
          .sent ⟨call, record⟩)

/-- The oldest reply ends the call that waits. -/
def receive (session : Session) (s : Connection) (exchange : Exchange) : Connection × Event :=
  match s.replies with
  | [] =>
    if s.broker.closed then ({ s with pending := none }, .hungUp exchange) else (s, .idle)
  | message :: replies =>
    match s.client.conclude session exchange.call message.reply with
    | .ok (answer, client) =>
      ({ s with client, pending := none, replies }, .accepted exchange message answer)
    | .error error =>
      ({ s with pending := none, replies }, .rejected exchange message error)

/-- The broker takes the oldest request; what it had not read when it closes is gone. -/
def serve (session : Session) (s : Connection) (stream : Stream) : Connection :=
  match s.broker.closed, s.requests with
  | false, request :: requests =>
    let (broker, reply) := s.broker.serve session stream request
    { s with broker, requests, replies := s.replies ++ [⟨request, reply⟩] }
  | _, _ => s

def step (session : Session) (s : Connection) : Step → Connection × Event
  | .call call =>
    match s.pending with
    | none => s.begin session call
    | some _ => (s, .idle)
  | .serve stream => (s.serve session stream, .idle)
  | .receive =>
    match s.pending with
    | some exchange => s.receive session exchange
    | none => (s, .idle)
  | .timeout =>
    match s.pending with
    | some exchange => ({ s with pending := none }, .timedOut exchange)
    | none => (s, .idle)

/-- A run from the handshake: the connection after it and what happened, in order. -/
def run (session : Session) : List Step → Connection × List Event :=
  List.foldl (fun state step =>
    let next := state.1.step session step
    (next.1, state.2 ++ [next.2])) (opened, [])

end Connection

end Droidloom.Audio

/-! ## The broker against any client -/

namespace Droidloom.Audio.Credits

open Fallible Triple

/-- What a record asks for: the operations of the handshake are known to the decoder as well. -/
inductive Kind
  | opening
  | config
  | op (op : Op)
deriving DecidableEq, Repr

structure Request where
  kind : Kind
  number : Nat
  generation : Nat
  values : Values
deriving DecidableEq

/-- A call to the audio graph. -/
inductive Ask
  | acquire (frames : Nat)
  | submit (slot frames : Nat)
  | control (command : Nat)
  | position
deriving DecidableEq, Repr

inductive Event
  /-- A record was received; `fresh` if it is of this generation and newer than the last one. -/
  | arrived (number : Nat) (fresh : Bool)
  | asked (ask : Ask)
  | replied (reply : Record)
deriving DecidableEq

/-- The graph's answers, which may depend on everything that happened, and whether the socket takes
    a reply. -/
structure World where
  acquire : List Event → Except IoError Region
  submit : List Event → Except IoError Unit
  control : List Event → Except IoError Unit
  position : List Event → Except IoError Position
  send : List Event → Record → Except IoError Unit

structure Conn where
  previousRequest : Nat
  held : Option Region := none
  active : Bool := false
  closed : Bool := false
  log : List Event := []

def Conn.note (s : Conn) (e : Event) : Conn := { s with log := s.log ++ [e] }

abbrev Act := EStateM IoError Conn

def ask {α : Type} (call : Ask) (answer : List Event → Except IoError α) : Act α := do
  modify (·.note (.asked call))
  let s ← get
  mapErr id (answer s.log)

def reply (world : World) (request : Request) (op : Op) (values : Values) : Act Unit := do
  let record : Record := ⟨op, request.number, request.generation, values⟩
  let s ← get
  mapErr id (world.send s.log record)
  modify (·.note (.replied record))

/-- The fields of the reply to an acquired region. -/
def acquireValues (session : Session) (world : World) (op : Op) (region : Region) : Act Values :=
  if op = .acquirePosition then do
    let position ← ask .position world.position
    let credit ← mapErr id (packCredit region)
    return #v[credit, position.frames, position.monotonicNs, position.latencyNs,
      position.discontinuities]
  else pure #v[region.slot, region.frames, region.offset, session.format.frames, 0]

def acquire (session : Session) (world : World) (request : Request) (op : Op) : Act Unit := do
  let region ← ask (.acquire request.values[0]) world.acquire
  rejectIf (¬ Broker.fits session region request.values[0])
    (.invalid "PipeWire returned an invalid sample region")
  let values ← acquireValues session world op region
  reply world request op values
  modify fun s => { s with held := some region }

def submit (world : World) (request : Request) (op : Op) : Act Unit := do
  let s ← get
  let region ← okOr s.held (.invalid "no audio credit")
  rejectIf (request.values[0] ≠ region.slot ∨ region.frames < request.values[1])
    (.invalid "invalid slot or submit exceeds credit")
  ask (.submit region.slot request.values[1]) world.submit
  modify fun s => { s with held := none }
  if op = .submitPosition then do
    let position ← ask .position world.position
    reply world request .status (Broker.statusValues position)
  else reply world request .ack Values.zero

def control (session : Session) (world : World) (request : Request) : Act Unit := do
  let command := request.values[0]
  rejectIf (command = DRAIN ∧ session.format.direction = .capture) (.os ENOTSUP)
  ask (.control command) world.control
  modify fun s =>
    { s with
      active :=
        if command = START ∨ command = PAUSE ∨ command = STANDBY then decide (command = START)
        else s.active }
  reply world request .ack Values.zero

def status (world : World) (request : Request) : Act Unit := do
  let position ← ask .position world.position
  reply world request .status (Broker.statusValues position)

def unsupported : Act Unit := throw (.invalid "invalid audio operation or stream state")

/-- One request's operation, under the guards of the broker's `match`. -/
def handle (session : Session) (world : World) (request : Request) : Act Unit := do
  let s ← get
  match request.kind with
  | .op .acquire | .op .acquirePosition =>
    let op := if request.kind = .op .acquire then Op.acquire else .acquirePosition
    if Broker.offered session op .acquire ∧ s.active ∧ s.held = none ∧
        request.values = #v[request.values[0], 0, 0, 0, 0] ∧ 0 < request.values[0] ∧
        request.values[0] ≤ session.format.frames then
      acquire session world request op
    else unsupported
  | .op .submit | .op .submitPosition =>
    let op := if request.kind = .op .submit then Op.submit else .submitPosition
    if Broker.offered session op .submit ∧
        request.values = #v[request.values[0], request.values[1], 0, 0, 0] then
      submit world request op
    else unsupported
  | .op .control =>
    if s.held = none ∧ request.values = #v[request.values[0], 0, 0, 0, 0] ∧
        START ≤ request.values[0] ∧ request.values[0] ≤ STANDBY then
      control session world request
    else unsupported
  | .op .status => if request.values = Values.zero then status world request else unsupported
  | .op .error | .op .ack | .opening | .config => unsupported

/-- The error reply is sent if the socket takes it; either way the connection is over. -/
def fail (world : World) (request : Request) (error : IoError) (s : Conn) : Conn :=
  { final (reply world request .error #v[Broker.errorCode error, 0, 0, 0, 0]) s with
    closed := true }

def serve (session : Session) (world : World) (request : Request) (s : Conn) : Conn :=
  if request.generation ≠ session.generation ∨ request.number ≤ s.previousRequest then
    fail world request (.invalid "stale audio generation or request")
      (s.note (.arrived request.number false))
  else
    let s := { s with previousRequest := request.number }.note (.arrived request.number true)
    match handle session world request s with
    | .ok _ s => s
    | .error error s => fail world request error s

/-- What a receive returns. -/
inductive Packet
  /-- Nothing came before the time-out. -/
  | idle
  /-- A socket failure, attached descriptors, or bytes that are no record. -/
  | refused
  | record (request : Request)

def step (session : Session) (world : World) (s : Conn) (packet : Packet) : Conn :=
  if s.closed then s
  else
    match packet with
    | .idle => s
    | .refused => { s with closed := true }
    | .record request => serve session world request s

/-- A connection whose handshake used the number `opened`. -/
def run (session : Session) (world : World) (opened : Nat) (packets : List Packet) : Conn :=
  packets.foldl (step session world) { previousRequest := opened }

namespace Event

/-- The region that a reply hands out. -/
def grants : Event → Option Region
  | .replied reply =>
    match reply.op with
    | .acquire => some ⟨reply.values[0], reply.values[1], reply.values[2]⟩
    | .acquirePosition => (unpackCredit reply.values[0]).toOption
    | _ => none
  | _ => none

def isSubmit : Event → Bool
  | .asked (.submit _ _) => true
  | _ => false

def isError : Event → Bool
  | .replied reply => reply.op = .error
  | _ => false

def stops (e : Event) : Prop :=
  e = .asked (.control PAUSE) ∨ e = .asked (.control STANDBY)

def arrival : Event → Option Nat
  | .arrived number _ => some number
  | _ => none

def answer : Event → Option Nat
  | .replied reply => some reply.request
  | _ => none

end Event

end Droidloom.Audio.Credits
