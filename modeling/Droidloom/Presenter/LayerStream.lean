/-
  The host end of a task's layer stream (`droidloom-wayland`, `layers.rs` and `imports.rs`).

  SurfaceFlinger registers buffers, stages layers and commits scenes; the host shows them on
  subsurfaces and reports when the compositor has stopped reading a buffer.  A READ is one
  attachment of a buffer: it has a ticket, chosen by SurfaceFlinger, and a release point on one of
  the buffer's timelines (its LANE).  A scene whose buffer is still read may have to wait; then the
  commit is parked, and every release pass tries it again.

  An error of a method ends the presenter, so a run ends with its first error.  Failures of the
  kernel and of the compositor are such errors and are left out; what they answer is an input.  The
  same holds of the other state of the task (`TaskView`).  The carrier behind the layers, the
  presentation feedback and the reports about stalled scenes are left out.

  `attached`, `received` and `sent` record the run: every read that was started, every request that
  was taken from the socket, and every record that was sent on either socket.
-/
import Droidloom.Lib.SwapRemove
import Droidloom.Graphics.Composer
import Droidloom.Presenter.LayerScene

namespace Droidloom.Layers

open Std Fallible SwapRemove Graphics

def MAX_LANES : Nat := 4

inductive PresenterError
  | configuration (message : String)
  | panic (message : String)
deriving DecidableEq, Repr

/-! ## Geometry and views -/

structure Geometry where
  above : Option UInt64
  destination : Rect Int32
  source : Rect UInt32
  transform : UInt32
  alpha : UInt32
  isOpaque : Bool
deriving DecidableEq, Repr

/-- A physical edge in logical pixels, rounded. -/
def edge (v : Int32) (logical physical : UInt32) : Int32 :=
  Int32.ofInt (Int.tdiv (v.toInt * logical.toNat + (physical.toNat / 2 : Nat)) physical.toNat)

def Geometry.new (l : Layer) (above : Option UInt64) (logical physical : UInt32 × UInt32) :
    Geometry :=
  let d := l.destination
  let dx := edge d.x logical.1 physical.1
  let dy := edge d.y logical.2 physical.2
  { above
    destination :=
      ⟨dx, dy, max (edge (d.x + d.w) logical.1 physical.1 - dx) 1,
        max (edge (d.y + d.h) logical.2 physical.2 - dy) 1⟩
    source := if l.buffer = 0 then ⟨0, 0, 256, 256⟩ else l.source
    transform := l.transform
    alpha := l.alpha
    isOpaque := l.isOpaque && l.alpha = 0xffffffff }

inductive Content
  | buffer (id ticket : UInt64)
  | solid (color : UInt32)
deriving DecidableEq, Repr

def Content.new (l : Layer) : Content :=
  if l.buffer = 0 then .solid l.color else .buffer l.buffer l.ticket

structure View where
  content : Option Content := none
  geometry : Option Geometry := none
deriving DecidableEq, Repr

namespace View

def source (view : View) : Option (UInt64 × UInt64) :=
  match view.content with
  | some (.buffer id ticket) => some (id, ticket)
  | _ => none

def hide (view : View) : View := { view with content := none }

end View

/-! ## Sources and reads -/

structure Read where
  buffer : UInt64
  lane : Nat
  ticket : UInt64
  point : UInt64
  fenceSent : Bool
deriving DecidableEq, Repr

/-- One timeline for reads of an allocation. -/
structure Lane where
  nextPoint : UInt64 := 0
deriving DecidableEq, Repr

structure Source where
  metadata : Buffer
  imported : Bool
  lanes : List Lane
  ticket : Option UInt64
deriving DecidableEq, Repr

namespace Source

/-- A lane with no read in flight, if any. -/
def freeLane (source : Source) (id : UInt64) (reads : List Read) : Option Nat :=
  (List.range source.lanes.length).find? fun lane =>
    !reads.any fun r => r.buffer = id ∧ r.lane = lane

def spareTimeline (source : Source) (id : UInt64) (reads : List Read) : Bool :=
  source.lanes.length < MAX_LANES || (source.freeLane id reads).isSome

end Source

/-! ## The stream -/

structure PendingCommit where
  scene : Option UInt64
  serial : UInt32
  width : UInt32
  height : UInt32
  count : UInt32
deriving DecidableEq, Repr

/-- An import that awaits the compositor; legacy imports have no attempt number. -/
structure Pending where
  buffer : UInt64
  attempt : Option UInt64
  params : Nat
deriving DecidableEq, Repr

structure BatchLayer where
  layer : Layer
  fenceIndex : Option Nat
deriving DecidableEq, Repr

/-- The requests, with what their descriptors are used for: whether a layer has an acquire fence,
    or how many fences a batch brings. -/
inductive Request
  | config
  | subscribeConfig
  | register (metadata : Buffer)
  | registerAsync (attempt : UInt64) (metadata : Buffer)
  | unregister (id : UInt64)
  | stage (layer : Layer) (acquire : Bool)
  | stageAsync (layer : Layer) (acquire : Bool)
  | stageBatch (layers : List BatchLayer) (fences : Nat)
  | commitBatch (scene : UInt64) (serial width height count : UInt32) (layers : List BatchLayer)
      (fences : Nat)
  | commit (serial width height count : UInt32)
  | commitAsync (scene : UInt64) (serial width height count : UInt32)
  | abort
deriving DecidableEq, Repr

/-- What the host sends.  `Released` carries its ticket only; the rest is what it rests on, the
    read's timeline and the point which that had reached. -/
inductive Reply
  | ack (code : Int)
  | config (words : List UInt32)
  | configUpdate (revision : UInt64) (words : List UInt32)
  | importResult (attempt buffer : UInt64) (code : Int)
  | commitResult (scene : UInt64) (code : Int)
  | releaseFence (ticket : UInt64)
  | released (ticket buffer : UInt64) (lane : Nat) (signalled : UInt64)
deriving DecidableEq, Repr

structure ConfigPublisher where
  revision : UInt64 := 0
  current : List UInt32 := [0, 0, 0, 0]
  subscribed : Bool := false
deriving DecidableEq, Repr

structure Stream where
  buffers : ExtTreeMap UInt64 Source compare := ∅
  staged : Staging := {}
  waiting : Option PendingCommit := none
  views : ExtTreeMap UInt64 View compare := ∅
  spareViews : List View := []
  reads : List Read := []
  imports : List Pending := []
  params : Nat := 0
  active : Bool := false
  connected : Bool := true
  lastTicket : UInt64 := 0
  lastScene : UInt64 := 0
  lastImport : UInt64 := 0
  configuration : ConfigPublisher := {}
  attached : List Read := []
  received : List Request := []
  sent : List Reply := []

/-- What a scene is checked against in the rest of the task. -/
structure TaskView where
  /-- The compositor has the alpha modifier. -/
  alpha : Bool
  acceptsPresent : Bool
  configureSerial : UInt32
  bufferSize : UInt32 × UInt32
  logicalSize : Option (UInt32 × UInt32)
  /-- The task has an exact frame timeline. -/
  exactTimeline : Bool
  feedbackFull : Bool
  /-- `timeline.reserve` yields a target. -/
  granted : Bool
deriving DecidableEq, Repr

/-- What the kernel says about the timelines of the buffers. -/
structure Kernel where
  signalled : UInt64 → Nat → UInt64
  /-- `try_export_release_fence` yields a fence. -/
  available : UInt64 → Nat → UInt64 → Bool

namespace Stream

abbrev Method := EStateM PresenterError Stream

def send (reply : Reply) : Method Unit := modify fun s => { s with sent := s.sent ++ [reply] }

/-- The result of an import: on the event socket if it has an attempt number, else the Ack. -/
def answerImport (attempt : Option UInt64) (buffer : UInt64) (code : Int) : Method Unit :=
  match attempt with
  | some attempt => send (.importResult attempt buffer code)
  | none => send (.ack code)

/-- The result of a commit: on the event socket if it has a scene number, else the Ack. -/
def answerCommit (scene : Option UInt64) (code : Int) : Method Unit :=
  match scene with
  | some scene => send (.commitResult scene code)
  | none => send (.ack code)

/-! ## Staging, parking and hiding -/

/-- The descriptors of a batch are moved out one by one: each fence goes to one layer. -/
def stageBatch : List BatchLayer → List Nat → Staging → Staging
  | [], _, staged => staged
  | entry :: layers, fences, staged =>
    let acquire : Bool := (entry.fenceIndex).any (· ∈ fences)
    let fences := (entry.fenceIndex).elim fences fences.erase
    stageBatch layers fences (staged.push entry.layer acquire).2

def park (commit : PendingCommit) : Method Unit := modify fun s => { s with waiting := some commit }

def abortTimelineWait : Method Unit := do
  let s ← get
  match s.waiting with
  | some commit =>
    set { s with waiting := none, staged := s.staged.clear }
    answerCommit commit.scene (-11)
  | none => return ()

def hide (s : Stream) : Stream :=
  if s.active then { s with views := s.views.map fun _ view => view.hide, active := false } else s

/-- A view that is not part of the scene keeps its subsurface for a later layer. -/
def recycleViews (ids : List UInt64) (s : Stream) : Stream :=
  { s with
    views := s.views.filter fun id _ => id ∈ ids
    spareViews := s.spareViews ++
      ((s.views.filter fun id _ => id ∉ ids).values.map fun view =>
        { view.hide with geometry := none }) }

/-- `view_for_layer`: the layer's own view, a spare one or a new one. -/
def viewForLayer (s : Stream) (id : UInt64) : View × List View :=
  match s.views[id]? with
  | some view => (view, s.spareViews)
  | none => (s.spareViews.getLast?.getD {}, s.spareViews.dropLast)

/-! ## Releasing -/

/-- The reads that share a release point. -/
def onPoint (read r : Read) : Bool :=
  r.buffer = read.buffer ∧ r.lane = read.lane ∧ r.point = read.point

/-- A point exports once, so its fence serves every ticket that still waits for one there. -/
def sendFences (read : Read) (s : Stream) : Stream :=
  let due := s.reads.filter fun r => onPoint read r && !r.fenceSent
  let mark (r : Read) : Read := if onPoint read r then { r with fenceSent := true } else r
  { s with
    sent := s.sent ++ due.map fun r => .releaseFence r.ticket
    reads := s.reads.map mark }

def exportFence (kernel : Kernel) (read : Read) : Method Unit := do
  let s ← get
  if s.connected ∧ ¬ read.fenceSent ∧ kernel.available read.buffer read.lane read.point then
    set (sendFences read s)
  else return ()

/-- The end of a read: it is reported and forgotten.  After a disconnect the report is only tried,
    which `sent` does not tell apart. -/
def complete (index : Nat) (read : Read) (signalled : UInt64) (s : Stream) : Stream :=
  { s with
    sent := s.sent ++ [.released read.ticket read.buffer read.lane signalled]
    buffers := s.buffers.modify read.buffer fun source =>
      if source.ticket = some read.ticket then { source with ticket := none } else source
    reads := swapRemove s.reads index }

/-- One round of the loop; the result is the index of the next read to look at. -/
def releaseOne (kernel : Kernel) (index : Nat) : Method Nat := do
  let s ← get
  let read ← okOr s.reads[index]? (.panic "index out of bounds")
  let source ← okOr s.buffers[read.buffer]? (.panic "read owns source")
  rejectIf (¬ read.lane < source.lanes.length) (.panic "index out of bounds")
  exportFence kernel read
  if kernel.signalled read.buffer read.lane < read.point then return index + 1
  else
    modify (complete index read (kernel.signalled read.buffer read.lane))
    return index

/-- `while index < self.reads.len()`: every round passes a read or removes one, so there are as
    many rounds as reads.  `kernel n` answers in the round after which `n` reads are left. -/
def releaseLoop (kernel : Nat → Kernel) : Nat → Nat → Method Unit
  | 0, _ => return ()
  | n + 1, index => do
    let next ← releaseOne (kernel n) index
    releaseLoop kernel n next

def release (kernel : Nat → Kernel) : Method Unit := do
  let s ← get
  releaseLoop kernel s.reads.length 0

/-! ## Committing a scene -/

/-- A new read runs on a free lane, or on a new one. -/
def startRead (l : Layer) (b : Source) : Method Unit := do
  let s ← get
  let lane := (b.freeLane l.buffer s.reads).getD b.lanes.length
  let lanes := if (b.freeLane l.buffer s.reads).isSome then b.lanes else b.lanes ++ [⟨0⟩]
  let next ← okOr lanes[lane]? (.panic "index out of bounds")
  let acquire ← okOr (checkedSucc next.nextPoint) (.configuration "layer timeline exhausted")
  let release ← okOr (checkedSucc acquire) (.configuration "layer timeline exhausted")
  let read : Read := ⟨l.buffer, lane, l.ticket, release, false⟩
  let started : Source := { b with lanes := lanes.set lane ⟨release⟩, ticket := some l.ticket }
  set { s with
    buffers := s.buffers.insert l.buffer started
    lastTicket := max s.lastTicket l.ticket
    reads := s.reads ++ [read]
    attached := s.attached ++ [read] }

def notOutstanding : PresenterError := .configuration "relabelled layer read is not outstanding"

/-- The read that the view shows goes on under a new ticket. -/
def relabelRead (l : Layer) (b : Source) (held : UInt64) : Method Unit := do
  let s ← get
  let old ← okOr (s.reads.find? fun r => r.buffer = l.buffer ∧ r.ticket = held) notOutstanding
  let read : Read := ⟨l.buffer, old.lane, l.ticket, old.point, old.fenceSent⟩
  let relabelled : Source := { b with ticket := some l.ticket }
  set { s with
    buffers := s.buffers.insert l.buffer relabelled
    lastTicket := max s.lastTicket l.ticket
    reads := s.reads ++ [read]
    attached := s.attached ++ [read] }

/-- What a changed layer does to the reads. -/
def readLayer (l : Layer) (view : View) : Method Unit := do
  if l.buffer = 0 then return ()
  else
    let s ← get
    let b ← okOr s.buffers[l.buffer]? (.panic "unwrap on None")
    match b.ticket with
    | some held =>
      if held = l.ticket then return ()
      else if view.source = some (l.buffer, held) then relabelRead l b held
      else startRead l b
    | none => startRead l b

/-- One layer of the scene; an unchanged view keeps its state and its read. -/
def attachLayer (logical physical : UInt32 × UInt32) (previous : Option UInt64) (l : Layer) :
    Method Unit := do
  let s ← get
  let (view, spareViews) := s.viewForLayer l.id
  let geometry := Geometry.new l previous logical physical
  if view.geometry = some geometry ∧ view.content = some (Content.new l) then
    set { s with views := s.views.insert l.id view, spareViews }
  else
    let shown : View := { content := some (Content.new l), geometry := some geometry }
    readLayer l view
    modify fun s => { s with views := s.views.insert l.id shown, spareViews }

def attachLayers (logical physical : UInt32 × UInt32) : Option UInt64 → List Layer → Method Unit
  | _, [] => return ()
  | previous, l :: layers => do
    attachLayer logical physical previous l
    attachLayers logical physical (some l.id) layers

def commitLayers (task : TaskView) (size : UInt32 × UInt32) : Method Unit := do
  let logical ← okOr task.logicalSize (.configuration "layer task has no logical size")
  let s ← get
  let layers := s.staged.layers.map (·.1)
  set (recycleViews (layers.map (·.id)) { s with staged := s.staged.clear })
  attachLayers logical size none layers
  modify fun s => { s with active := true }

/-- Every edge of every layer falls on a logical pixel. -/
def exactGeometry (task : TaskView) (layers : List (Layer × Bool)) (width height : UInt32) : Bool :=
  layers.all fun (l, _) =>
    match task.logicalSize with
    | none => false
    | some (lw, lh) =>
      let exact (edge : Int) (logical physical : UInt32) : Bool :=
        physical > 0 ∧ (edge * logical.toNat) % physical.toNat = 0
      exact l.destination.x.toInt lw width && exact l.destination.y.toInt lh height &&
        exact (l.destination.x.toInt + l.destination.w.toInt) lw width &&
        exact (l.destination.y.toInt + l.destination.h.toInt) lh height

def sourceState (s : Stream) (id : UInt64) : Option SourceState :=
  (s.buffers[id]?).map fun b =>
    { buffer := b.metadata, imported := b.imported, ticket := b.ticket,
      spareTimeline := b.spareTimeline id s.reads }

def attachedTo (s : Stream) (id : UInt64) : Option (UInt64 × UInt64) :=
  (s.views[id]?).bind View.source

def status (s : Stream) (task : TaskView) (commit : PendingCommit) : SceneStatus :=
  if ¬ s.staged.failed ∧ task.alpha ∧ task.acceptsPresent ∧ task.configureSerial = commit.serial ∧
      task.bufferSize = (commit.width, commit.height) ∧
      exactGeometry task s.staged.layers commit.width commit.height then
    assessScene commit.width commit.height s.lastTicket s.sourceState s.attachedTo s.staged.layers
      commit.count
  else .invalid

/-- Only a scene with a number waits for a busy buffer; every ready scene may have to wait for
    the compositor. -/
def submitLayerScene (task : TaskView) (commit : PendingCommit) : Method Unit := do
  let s ← get
  if s.status task commit = .busy ∧ commit.scene.isSome then park commit
  else if s.status task commit ≠ .ready then
    set { s with staged := s.staged.clear }
    answerCommit commit.scene (-95)
  else if task.exactTimeline ∧ task.feedbackFull then park commit
  else if ¬ task.granted then park commit
  else
    commitLayers task (commit.width, commit.height)
    answerCommit commit.scene 0

/-! ## Requests -/

def importsBlocked (s : Stream) : Bool := s.imports.any (·.attempt.isNone)

def importsContain (s : Stream) (id : UInt64) : Bool := s.imports.any (·.buffer = id)

def register (supported : Bool) (metadata : Buffer) (attempt : Option UInt64) : Method Unit := do
  let s ← get
  if ¬ supported ∨ s.buffers.size ≥ MAX_BUFFERS ∨ metadata.id ∈ s.buffers ∨
      s.imports.length ≥ MAX_IMPORTS then
    answerImport attempt metadata.id (-95)
  else
    rejectIf (s.importsBlocked ∨ s.importsContain metadata.id) (.panic "assertion failed")
    let source : Source := { metadata, imported := false, lanes := [⟨0⟩], ticket := none }
    let pending : Pending := ⟨metadata.id, attempt, s.params⟩
    set { s with
      buffers := s.buffers.insert metadata.id source
      imports := s.imports ++ [pending]
      params := s.params + 1 }

/-- Any read in flight keeps the allocation, not only the newest. -/
def unregister (id : UInt64) : Method Unit := do
  let s ← get
  if s.importsContain id ∨ id ∉ s.buffers ∨ s.reads.any (·.buffer = id) then send (.ack (-16))
  else
    set { s with buffers := s.buffers.erase id }
    send (.ack 0)

def stage (layer : Layer) (acquire : Bool) : Method Unit := do
  let s ← get
  let (accepted, staged) := s.staged.push layer acquire
  set { s with staged }
  send (.ack (if accepted then 0 else -7))

def abort : Method Unit := do
  let s ← get
  set { s with staged := s.staged.clear, waiting := none }
  match s.waiting.bind (·.scene) with
  | some scene =>
    send (.commitResult scene (-95))
    send (.ack 0)
  | none => send (.ack 0)

def layerConfig (task : TaskView) : List UInt32 :=
  [if task.alpha && task.acceptsPresent then 127 else 8, task.configureSerial, task.bufferSize.1,
    task.bufferSize.2]

/-- `ConfigPublisher::refresh`: whether the configuration is a new one. -/
def refresh (current : List UInt32) : Method Bool := do
  let s ← get
  if s.configuration.revision ≠ 0 ∧ s.configuration.current = current then return false
  else
    let revision ← okOr (checkedSucc s.configuration.revision)
      (.configuration "layer configuration revision exhausted")
    set { s with configuration := { s.configuration with revision, current } }
    return true

def subscribe (current : List UInt32) : Method Unit := do
  let _ ← refresh current
  let s ← get
  set { s with configuration := { s.configuration with subscribed := true } }
  send (.configUpdate s.configuration.revision s.configuration.current)

/-- A configuration that has changed is sent to a subscribed peer. -/
def publishConfig (current : List UInt32) : Method Unit := do
  let changed ← refresh current
  let s ← get
  if changed ∧ s.configuration.subscribed then
    send (.configUpdate s.configuration.revision s.configuration.current)
  else return ()

/-- Scenes and import attempts are numbered upwards. -/
def claimIdentity (request : Request) : Method Unit := do
  let s ← get
  match request with
  | .commitAsync scene .. | .commitBatch scene .. =>
    rejectIf (scene ≤ s.lastScene) (.configuration "layer scene identity reused")
    set { s with lastScene := scene }
  | .registerAsync attempt _ =>
    rejectIf (attempt ≤ s.lastImport) (.configuration "layer import identity reused")
    set { s with lastImport := attempt }
  | _ => return ()

def perform (task : TaskView) (supported : Bool) : Request → Method Unit
  | .config => send (.config (layerConfig task))
  | .subscribeConfig => subscribe (layerConfig task)
  | .register metadata => register supported metadata none
  | .registerAsync attempt metadata => register supported metadata (some attempt)
  | .unregister id => unregister id
  | .stage layer acquire => stage layer acquire
  | .stageAsync layer acquire => modify fun s =>
      { s with staged := (s.staged.push layer acquire).2 }
  | .stageBatch layers fences => modify fun s =>
      { s with staged := stageBatch layers (List.range fences) s.staged }
  | .commitBatch scene serial width height count layers fences => do
    modify fun s => { s with staged := stageBatch layers (List.range fences) s.staged }
    submitLayerScene task ⟨some scene, serial, width, height, count⟩
  | .commit serial width height count =>
    submitLayerScene task ⟨none, serial, width, height, count⟩
  | .commitAsync scene serial width height count =>
    submitLayerScene task ⟨some scene, serial, width, height, count⟩
  | .abort => abort

/-- A waiting commit owns the staging area. -/
def Request.waits : Request → Bool
  | .config | .subscribeConfig | .abort => false
  | _ => true

def layerRequest (task : TaskView) (supported : Bool) (request : Request) : Method Unit := do
  let s ← get
  rejectIf (s.waiting.isSome ∧ Request.waits request) (.configuration "layer scene already waiting")
  claimIdentity request
  perform task supported request

/-! ## The stream as a system -/

/-- What the presenter's loop does to a stream. -/
inductive Event
  | request (request : Request) (task : TaskView) (supported : Bool)
  | peerClosed
  | releases (kernel : Nat → Kernel) (task : TaskView)
  | imported (params : Nat) (success : Bool)
  | hide
  | abortWait
  | publish (task : TaskView)

/-- A record is taken from the socket while the peer is there and no legacy import is pending. -/
def receive (task : TaskView) (supported : Bool) (request : Request) : Method Unit := do
  let s ← get
  if s.connected ∧ ¬ s.importsBlocked then
    set { s with received := s.received ++ [request] }
    layerRequest task supported request
  else return ()

def peerClosed (s : Stream) : Stream :=
  { s with connected := false, waiting := none, staged := s.staged.clear }.hide

/-- A release pass, and another attempt at the waiting scene. -/
def drainReleases (kernel : Nat → Kernel) (task : TaskView) : Method Unit := do
  release kernel
  let s ← get
  match s.waiting with
  | some commit =>
    set { s with waiting := none }
    submitLayerScene task commit
  | none => return ()

/-- The compositor has answered one import. -/
def layerImported (params : Nat) (success : Bool) : Method Unit := do
  let s ← get
  match s.imports.find? (·.params = params) with
  | none => return ()
  | some pending =>
    rejectIf (success ∧ pending.buffer ∉ s.buffers) (.panic "unwrap on None")
    let s := { s with
      imports := swapRemove s.imports (s.imports.idxOf pending)
      buffers := if success then
          s.buffers.modify pending.buffer fun source => { source with imported := true }
        else s.buffers.erase pending.buffer }
    set s
    if s.connected then answerImport pending.attempt pending.buffer (if success then 0 else -95)
    else return ()

def step : Event → Method Unit
  | .request request task supported => receive task supported request
  | .peerClosed => modify peerClosed
  | .releases kernel task => drainReleases kernel task
  | .imported params success => layerImported params success
  | .hide => modify hide
  | .abortWait => abortTimelineWait
  | .publish task => do
    let s ← get
    if s.connected then publishConfig (layerConfig task) else return ()

def run : List Event → Method Unit
  | [] => return ()
  | event :: events => do
    step event
    run events

end Stream

end Droidloom.Layers
