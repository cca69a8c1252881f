/-
  The layer stream with its descriptors (`droidloom-wayland`, `layers.rs`).

  `Stream` keeps of a staged layer only whether it came with an acquire fence.  Here the staging area
  holds the descriptors themselves, of any type `T`, and the requests come as packets: bytes, and the
  descriptors that were sent with them.  Everything that does not touch the staging area is the
  stream's own method (`lift`).

  `log` records the run: the requests that were received, every time that the staging area was
  cleared, and the commits that were accepted with the scenes that they showed.  From the requests
  alone, `stagedSince` says which layers were staged since the last clear, each with the descriptor
  that its record named.  The staging area holds the first 64 of them, and has failed when there were
  more (`FencedStaging.ofAttempts`); an accepted commit has shown all of them (`WholeScenes`).
-/
import Droidloom.Lib.History
import Droidloom.Presenter.LayerWire
import Droidloom.Presenter.LayerReplies

namespace Droidloom.Layers

open Std Fallible SwapRemove Triple History
open ByteCodec (Bytes)

/-! ## Staging with descriptors -/

/-- `Staging<OwnedFd>`. -/
structure FencedStaging (T : Type) where
  layers : List (Layer × Option T) := []
  failed : Bool := false

namespace FencedStaging
variable {T : Type}

def push (staged : FencedStaging T) (layer : Layer) (acquire : Option T) :
    Bool × FencedStaging T :=
  if staged.failed ∨ staged.layers.length = MAX_LAYERS then (false, { staged with failed := true })
  else (true, { staged with layers := staged.layers ++ [(layer, acquire)] })

/-- The descriptors of a packet, each of which is taken out once. -/
def slots (fds : List T) : List (Option T) :=
  (fds.take 4).map some ++ List.replicate (4 - fds.length) none

def stageBatch : List BatchLayer → List (Option T) → FencedStaging T → FencedStaging T
  | [], _, staged => staged
  | entry :: layers, descriptors, staged =>
    let fence := entry.fenceIndex.bind fun index => descriptors[index]?.join
    let descriptors := entry.fenceIndex.elim descriptors fun index => descriptors.set index none
    stageBatch layers descriptors (staged.push entry.layer fence).2

/-- The staging area as the rest of the stream sees it. -/
def forget (staged : FencedStaging T) : Staging :=
  ⟨staged.layers.map fun entry => (entry.1, entry.2.isSome), staged.failed⟩

/-- The staging area after these layers were staged. -/
def ofAttempts (attempts : List (Layer × Option T)) : FencedStaging T :=
  ⟨attempts.take MAX_LAYERS, MAX_LAYERS < attempts.length⟩

theorem push_ofAttempts (attempts : List (Layer × Option T)) (layer : Layer)
    (acquire : Option T) :
    (ofAttempts attempts).push layer acquire =
      (decide (attempts.length < MAX_LAYERS), ofAttempts (attempts ++ [(layer, acquire)])) := by
  unfold push ofAttempts
  rcases Nat.lt_or_ge attempts.length MAX_LAYERS with hroom | hfull
  · have htake : attempts.take MAX_LAYERS = attempts := List.take_of_length_le (by omega)
    have htake' : (attempts ++ [(layer, acquire)]).take MAX_LAYERS = attempts ++ [(layer, acquire)] :=
      List.take_of_length_le (by simp; omega)
    rw [if_neg (by simp [htake]; omega), htake, htake']
    simp [hroom]
    omega
  · have htake : (attempts ++ [(layer, acquire)]).take MAX_LAYERS = attempts.take MAX_LAYERS :=
      List.take_append_of_le_length hfull
    rw [if_pos (by simp; omega), htake]
    simp [hfull]

theorem slots_getElem? {fds : List T} (h : fds.length ≤ 4) (index : Nat) :
    (slots fds)[index]?.join = fds[index]? := by
  unfold slots
  rw [List.take_of_length_le h, List.getElem?_append, List.length_map]
  split
  · rename_i hlt
    simp [hlt]
  · rename_i hlt
    rw [List.getElem?_eq_none (Nat.not_lt.mp hlt), List.getElem?_replicate]
    split <;> rfl

/-- The layers of a batch, each with the descriptor that it names. -/
def namedBatch (fds : List T) (layers : List BatchLayer) : List (Layer × Option T) :=
  layers.map fun entry => (entry.layer, entry.fenceIndex.bind (fds[·]?))

/-- As long as no descriptor is named twice, every layer gets its own. -/
theorem stageBatch_ofAttempts {fds : List T} {layers : List BatchLayer}
    {descriptors : List (Option T)} {attempts : List (Layer × Option T)}
    (hnodup : (Wire.indices layers).Nodup)
    (hslots : ∀ i ∈ Wire.indices layers, descriptors[i]?.join = fds[i]?) :
    stageBatch layers descriptors (ofAttempts attempts) =
      ofAttempts (attempts ++ namedBatch fds layers) := by
  induction layers generalizing descriptors attempts with
  | nil => simp [stageBatch, namedBatch]
  | cons entry layers ih =>
    obtain ⟨layer, fenceIndex⟩ := entry
    unfold stageBatch
    cases fenceIndex with
    | none =>
      have hnamed : namedBatch fds (⟨layer, none⟩ :: layers) =
        (layer, none) :: namedBatch fds layers := rfl
      simp only [Option.bind_none, Option.elim_none, push_ofAttempts]
      rw [ih hnodup hslots, hnamed, List.append_assoc, List.singleton_append]
    | some index =>
      have hnamed : namedBatch fds (⟨layer, some index⟩ :: layers) =
        (layer, fds[index]?) :: namedBatch fds layers := rfl
      have hindices : Wire.indices (⟨layer, some index⟩ :: layers) =
        index :: Wire.indices layers := rfl
      rw [hindices] at hnodup hslots
      obtain ⟨hfresh, hnodup⟩ := List.nodup_cons.mp hnodup
      obtain ⟨hindex, hslots⟩ := List.forall_mem_cons.mp hslots
      simp only [Option.bind_some, Option.elim_some, push_ofAttempts, hindex]
      rw [ih hnodup, hnamed, List.append_assoc, List.singleton_append]
      -- the slot that was emptied belongs to no later layer
      intro i hi
      have hne : index ≠ i := fun heq => hfresh (heq ▸ hi)
      rw [List.getElem?_set_ne hne, hslots i hi]

end FencedStaging

/-! ## The stream's own methods -/

namespace Stream

/-- The staging area and the parked commit are untouched. -/
structure Aside (s s' : Stream) : Prop where
  staged : s'.staged = s.staged
  waiting : s'.waiting = s.waiting

theorem Aside.refl (s : Stream) : Aside s s := ⟨rfl, rfl⟩

theorem Aside.trans {s s' s'' : Stream} (h : Aside s s') (h' : Aside s' s'') : Aside s s'' :=
  ⟨h'.staged.trans h.staged, h'.waiting.trans h.waiting⟩

section Asides
variable {s : Stream} {F : PresenterError → Prop}

theorem send_aside (reply : Reply) : Yields (send reply) s (fun _ s' => Aside s s') F :=
  yields_modify ⟨rfl, rfl⟩

theorem answerImport_aside (attempt : Option UInt64) (buffer : UInt64) (code : Int) :
    Yields (answerImport attempt buffer code) s (fun _ s' => Aside s s') F := by
  cases attempt <;> exact send_aside _

theorem answerCommit_aside (scene : Option UInt64) (code : Int) :
    Yields (answerCommit scene code) s (fun _ s' => Aside s s') F := by
  cases scene <;> exact send_aside _

theorem readLayer_aside (l : Layer) (view : View) :
    Yields (readLayer l view) s (fun _ s' => Aside s s') fun _ => True := by
  refine yields_ite (fun _ => yields_pure (.refl s)) fun _ => yields_get_bind ?_
  refine yields_okOr_bind (fun _ => trivial) fun b _ => ?_
  have hstart : Yields (startRead l b) s (fun _ s' => Aside s s') fun _ => True := by
    refine (startRead_spec (fun _ _ => trivial) l b).mono fun _ s' hs' => ?_
    obtain ⟨read, b', -, rfl⟩ := hs'
    exact ⟨rfl, rfl⟩
  cases b.ticket with
  | none => exact hstart
  | some held =>
    refine yields_ite (fun _ => yields_pure (.refl s)) fun _ => yields_ite (fun _ => ?_) fun _ => hstart
    refine (relabelRead_spec fun _ => trivial).mono fun _ s' hs' => ?_
    obtain ⟨old, -, -, -, rfl⟩ := hs'
    exact ⟨rfl, rfl⟩

theorem attachLayers_aside (logical physical : UInt32 × UInt32) (layers : List Layer)
    (previous : Option UInt64) :
    Yields (attachLayers logical physical previous layers) s (fun _ s' => Aside s s')
      fun _ => True := by
  induction layers generalizing s previous with
  | nil => exact yields_pure (.refl s)
  | cons l layers ih =>
    have hlayer : Yields (attachLayer logical physical previous l) s (fun _ s' => Aside s s')
        fun _ => True := by
      refine yields_get_bind ?_
      generalize s.viewForLayer l.id = found
      obtain ⟨view, spareViews⟩ := found
      refine yields_ite (fun _ => yields_set ⟨rfl, rfl⟩) fun _ => ?_
      exact yields_bind (readLayer_aside l view) fun _ s' hs' =>
        yields_modify (hs'.trans ⟨rfl, rfl⟩)
    refine yields_bind hlayer fun _ s' hs' => ?_
    exact (ih (some l.id)).mono fun _ s'' hs'' => hs'.trans hs''

/-- The scene of a commit on the screen. -/
theorem showLayers_aside (logical size : UInt32 × UInt32) (layers : List Layer) :
    Yields (do
      modify (recycleViews (layers.map (·.id)))
      attachLayers logical size none layers
      modify fun s => { s with active := true } : Method Unit) s (fun _ s' => Aside s s')
      fun _ => True := by
  refine yields_modify_bind (yields_bind (attachLayers_aside logical size layers none)
    fun _ s' hs' => yields_modify ?_)
  exact ⟨hs'.staged, hs'.waiting⟩

theorem release_aside (kernel : Nat → Kernel) :
    Yields (release kernel) s (fun _ s' => Aside s s') fun _ => True := by
  refine yields_get_bind ?_
  generalize s.reads.length = n
  generalize 0 = index
  induction n generalizing s index with
  | zero => exact yields_pure (.refl s)
  | succ n ih =>
    refine yields_bind (releaseOne_spec (fun _ _ => trivial) (kernel n) index) fun next s' hs' => ?_
    refine (ih next).mono fun _ s'' hs'' => Aside.trans ?_ hs''
    cases hs' with
    | stays _ hfence _ => rcases hfence with rfl | ⟨rfl, -⟩ <;> exact ⟨rfl, rfl⟩
    | ends _ hfence _ => rcases hfence with rfl | ⟨rfl, -⟩ <;> exact ⟨rfl, rfl⟩

theorem refresh_aside (current : List UInt32) :
    Yields (refresh current) s (fun _ s' => Aside s s') fun _ => True := by
  refine yields_get_bind (yields_ite (fun _ => yields_pure (.refl s)) fun _ => ?_)
  refine yields_okOr_bind (fun _ => trivial) fun revision _ => ?_
  exact yields_set_bind (yields_pure ⟨rfl, rfl⟩)

theorem claimIdentity_aside (request : Request) :
    Yields (claimIdentity request) s (fun _ s' => Aside s s') fun _ => True := by
  refine yields_get_bind ?_
  cases request with
  | commitAsync scene => exact yields_rejectIf_bind (fun _ => trivial) fun _ => yields_set ⟨rfl, rfl⟩
  | commitBatch scene => exact yields_rejectIf_bind (fun _ => trivial) fun _ => yields_set ⟨rfl, rfl⟩
  | registerAsync attempt =>
    exact yields_rejectIf_bind (fun _ => trivial) fun _ => yields_set ⟨rfl, rfl⟩
  | _ => exact yields_pure (.refl s)

theorem register_aside (supported : Bool) (metadata : Buffer) (attempt : Option UInt64) :
    Yields (register supported metadata attempt) s (fun _ s' => Aside s s') fun _ => True := by
  refine yields_get_bind (yields_ite (fun _ => answerImport_aside _ _ _) fun _ => ?_)
  exact yields_rejectIf_bind (fun _ => trivial) fun _ => yields_set ⟨rfl, rfl⟩

theorem unregister_aside (id : UInt64) :
    Yields (unregister id) s (fun _ s' => Aside s s') F := by
  refine yields_get_bind (yields_ite (fun _ => send_aside _) fun _ => yields_set_bind ?_)
  exact (send_aside _).mono fun _ s' hs' => ⟨hs'.staged, hs'.waiting⟩

theorem subscribe_aside (current : List UInt32) :
    Yields (subscribe current) s (fun _ s' => Aside s s') fun _ => True := by
  refine yields_bind (refresh_aside current) fun _ s' hs' => yields_get_bind (yields_set_bind ?_)
  exact (send_aside _).mono fun _ s'' hs'' => hs'.trans ⟨hs''.staged, hs''.waiting⟩

theorem layerImported_aside (params : Nat) (success : Bool) :
    Yields (layerImported params success) s (fun _ s' => Aside s s') fun _ => True := by
  refine yields_get_bind ?_
  cases s.imports.find? (·.params = params) with
  | none => exact yields_pure (.refl s)
  | some pending =>
    refine yields_rejectIf_bind (fun _ => trivial) fun _ => yields_set_bind ?_
    refine yields_ite (fun _ => ?_) fun _ => yields_pure ⟨rfl, rfl⟩
    exact (answerImport_aside _ _ _).mono fun _ s' hs' => ⟨hs'.staged, hs'.waiting⟩

theorem hide_aside (s : Stream) : Aside s s.hide := by
  unfold hide
  split <;> exact ⟨rfl, rfl⟩

theorem publish_aside (task : TaskView) :
    Yields (step (.publish task)) s (fun _ s' => Aside s s') fun _ => True := by
  refine yields_get_bind (yields_ite (fun _ => ?_) fun _ => yields_pure (.refl s))
  refine yields_bind (refresh_aside _) fun _ s' hs' => yields_get_bind ?_
  refine yields_ite (fun _ => ?_) fun _ => yields_pure hs'
  exact (send_aside _).mono fun _ s'' hs'' => hs'.trans hs''

/-- Nothing is staged and no commit is parked. -/
def Vacant (s : Stream) : Prop := s.staged = {} ∧ s.waiting = none

theorem abort_vacant : Yields abort s (fun _ s' => Vacant s') F := by
  refine yields_get_bind (yields_set_bind ?_)
  cases s.waiting.bind (·.scene) with
  | none => exact yields_modify ⟨rfl, rfl⟩
  | some scene => exact yields_modify_bind (yields_modify ⟨rfl, rfl⟩)

theorem abortTimelineWait_vacant (hstaged : s.staged = {}) :
    Yields abortTimelineWait s (fun _ s' => Vacant s') F := by
  refine yields_get_bind ?_
  cases hwaiting : s.waiting with
  | none => exact yields_pure ⟨hstaged, hwaiting⟩
  | some commit =>
    exact yields_set_bind ((answerCommit_aside _ _).mono fun _ s' hs' => ⟨hs'.staged, hs'.waiting⟩)

theorem peerClosed_vacant (s : Stream) : Vacant s.peerClosed :=
  ⟨(hide_aside _).staged, (hide_aside _).waiting⟩

end Asides

end Stream

/-! ## The history of a run -/

/-- The layers that a request stages, each with the descriptor that its record names. -/
def Request.named {T : Type} (fds : List T) : Request → List (Layer × Option T)
  | .stage layer _ | .stageAsync layer _ => [(layer, fds.head?)]
  | .stageBatch layers _ | .commitBatch _ _ _ _ _ layers _ => FencedStaging.namedBatch fds layers
  | _ => []

/-- The commit that a request asks for. -/
def Request.pendingCommit : Request → Option PendingCommit
  | .commit serial width height count => some ⟨none, serial, width, height, count⟩
  | .commitAsync scene serial width height count | .commitBatch scene serial width height count .. =>
    some ⟨some scene, serial, width, height, count⟩
  | _ => none

inductive Entry (T : Type)
  | received (request : Request) (fds : List T)
  | cleared
  /-- The commit was answered with success, after these layers were shown. -/
  | accepted (commit : PendingCommit) (scene : List (Layer × Option T))
deriving DecidableEq, Repr

section Log
variable {T : Type}

/-- The layers staged since the staging area was last empty. -/
def stagedSince (log : List (Entry T)) : List (Layer × Option T) :=
  log.foldl (fun staged entry => match entry with
    | .received request fds => staged ++ request.named fds
    | .cleared | .accepted .. => []) []

def Asked (log : List (Entry T)) (commit : PendingCommit) : Prop :=
  ∃ request fds, .received request fds ∈ log ∧ request.pendingCommit = some commit

/-- Every accepted commit was asked for, and has shown all the layers that were staged for it: as
many as it asked for, none of them lost to the bound. -/
def WholeScenes (log : List (Entry T)) : Prop :=
  Along (fun before entry => ∀ commit scene, entry = .accepted commit scene →
    Asked before commit ∧ scene = stagedSince before ∧ scene.length = commit.count.toNat ∧
      scene.length ≤ MAX_LAYERS) log

@[simp] theorem stagedSince_received (log : List (Entry T)) (request : Request) (fds : List T) :
    stagedSince (log ++ [.received request fds]) = stagedSince log ++ request.named fds := by
  simp [stagedSince]

@[simp] theorem stagedSince_cleared (log : List (Entry T)) :
    stagedSince (log ++ [.cleared]) = [] := by
  simp [stagedSince]

@[simp] theorem stagedSince_accepted (log : List (Entry T)) (commit : PendingCommit)
    (scene : List (Layer × Option T)) : stagedSince (log ++ [.accepted commit scene]) = [] := by
  simp [stagedSince]

theorem Asked.concat {log : List (Entry T)} {commit : PendingCommit} (h : Asked log commit)
    (entry : Entry T) : Asked (log ++ [entry]) commit := by
  obtain ⟨request, fds, hmem, hcommit⟩ := h
  exact ⟨request, fds, List.mem_append_left _ hmem, hcommit⟩

/-- An entry that is not an accepted commit. -/
theorem WholeScenes.other {log : List (Entry T)} (h : WholeScenes log) {entry : Entry T}
    (hentry : ∀ commit scene, entry ≠ .accepted commit scene) : WholeScenes (log ++ [entry]) :=
  h.concat fun commit scene heq => absurd heq (hentry commit scene)

theorem WholeScenes.accept {log : List (Entry T)} (h : WholeScenes log) {commit : PendingCommit}
    (hasked : Asked log commit) (hcount : (stagedSince log).length = commit.count.toNat)
    (hbound : (stagedSince log).length ≤ MAX_LAYERS) :
    WholeScenes (log ++ [.accepted commit (stagedSince log)]) := by
  refine h.concat fun commit' scene heq => ?_
  cases heq
  exact ⟨hasked, rfl, hcount, hbound⟩

end Log

/-! ## The stream -/

structure FencedStream (T : Type) where
  stream : Stream := {}
  staged : FencedStaging T := {}
  log : List (Entry T) := []

namespace FencedStream
variable {T : Type}

abbrev Method (T : Type) := EStateM PresenterError (FencedStream T)

/-- The stream without the descriptors. -/
def forget (s : FencedStream T) : Stream := { s.stream with staged := s.staged.forget }

/-- A method that leaves the staging area alone. -/
def lift {α : Type} (x : Stream.Method α) : Method T α :=
  zoom forget (fun stream s => { s with stream }) id x

def clear : Method T Unit :=
  modify fun s => { s with staged := {}, log := s.log ++ [.cleared] }

def push (layer : Layer) (acquire : Option T) : Method T Bool := do
  let s ← get
  let (accepted, staged) := s.staged.push layer acquire
  set { s with staged }
  return accepted

/-- The staged layers are taken out with their descriptors and are shown. -/
def commitLayers (task : TaskView) (size : UInt32 × UInt32) :
    Method T (List (Layer × Option T)) := do
  let logical ← okOr task.logicalSize (.configuration "layer task has no logical size")
  let s ← get
  let scene := s.staged.layers
  let layers := scene.map (·.1)
  set { s with staged := {} }
  lift do
    modify (Stream.recycleViews (layers.map (·.id)))
    Stream.attachLayers logical size none layers
    modify fun s => { s with active := true }
  return scene

def accept (commit : PendingCommit) (scene : List (Layer × Option T)) : Method T Unit := do
  modify fun s => { s with log := s.log ++ [.accepted commit scene] }
  lift (Stream.answerCommit commit.scene 0)

def submitLayerScene (task : TaskView) (commit : PendingCommit) : Method T Unit := do
  let s ← get
  if s.forget.status task commit = .busy ∧ commit.scene.isSome then lift (Stream.park commit)
  else if s.forget.status task commit ≠ .ready then
    clear
    lift (Stream.answerCommit commit.scene (-95))
  else if task.exactTimeline ∧ task.feedbackFull then lift (Stream.park commit)
  else if ¬ task.granted then lift (Stream.park commit)
  else
    let scene ← commitLayers task (commit.width, commit.height)
    accept commit scene

def perform (task : TaskView) (supported : Bool) (fds : List T) : Request → Method T Unit
  | .stage layer _ => do
    let accepted ← push layer fds.head?
    lift (Stream.send (.ack (if accepted then 0 else -7)))
  | .stageAsync layer _ => do
    let _ ← push layer fds.head?
  | .stageBatch layers _ => modify fun s =>
      { s with staged := FencedStaging.stageBatch layers (FencedStaging.slots fds) s.staged }
  | .commitBatch scene serial width height count layers _ => do
    modify fun s => { s with staged := FencedStaging.stageBatch layers (FencedStaging.slots fds) s.staged }
    submitLayerScene task ⟨some scene, serial, width, height, count⟩
  | .commit serial width height count =>
    submitLayerScene task ⟨none, serial, width, height, count⟩
  | .commitAsync scene serial width height count =>
    submitLayerScene task ⟨some scene, serial, width, height, count⟩
  | .abort => do
    clear
    lift Stream.abort
  | request => lift (Stream.perform task supported request)

def layerRequest (task : TaskView) (supported : Bool) (request : Request) (fds : List T) :
    Method T Unit := do
  let s ← get
  rejectIf (s.stream.waiting.isSome ∧ Stream.Request.waits request)
    (.configuration "layer scene already waiting")
  lift (Stream.claimIdentity request)
  perform task supported fds request

/-- A packet is taken from the socket and decoded. -/
def receive (task : TaskView) (supported : Bool) (bytes : Bytes) (fds : List T) :
    Method T Unit := do
  let s ← get
  if s.stream.connected ∧ ¬ s.stream.importsBlocked then
    let request ← mapErr (fun _ => .configuration "invalid layer stream record")
      (Wire.decode bytes fds.length)
    modify fun s => { s with log := s.log ++ [.received request fds] }
    lift (modify fun s => { s with received := s.received ++ [request] })
    layerRequest task supported request fds
  else return ()

def drainReleases (kernel : Nat → Kernel) (task : TaskView) : Method T Unit := do
  lift (Stream.release kernel)
  let s ← get
  match s.stream.waiting with
  | some commit =>
    lift (modify fun s => { s with waiting := none })
    submitLayerScene task commit
  | none => return ()

def abortTimelineWait : Method T Unit := do
  let s ← get
  match s.stream.waiting with
  | some _ =>
    clear
    lift Stream.abortTimelineWait
  | none => return ()

inductive Event (T : Type)
  | record (bytes : Bytes) (fds : List T) (task : TaskView) (supported : Bool)
  | peerClosed
  | releases (kernel : Nat → Kernel) (task : TaskView)
  | imported (params : Nat) (success : Bool)
  | hide
  | abortWait
  | publish (task : TaskView)

def step : Event T → Method T Unit
  | .record bytes fds task supported => receive task supported bytes fds
  | .peerClosed => do
    clear
    lift (modify Stream.peerClosed)
  | .releases kernel task => drainReleases kernel task
  | .imported params success => lift (Stream.layerImported params success)
  | .hide => lift (modify Stream.hide)
  | .abortWait => abortTimelineWait
  | .publish task => lift (Stream.step (.publish task))

def run : List (Event T) → Method T Unit
  | [] => return ()
  | event :: events => do
    step event
    run events

/-! ## What the staging area holds -/

/-- The staging area holds what the log says was staged, but for the layers of the request in
progress; every accepted commit was whole; the parked commit was asked for. -/
structure Faithful (pending : List (Layer × Option T)) (s : FencedStream T) : Prop where
  staged : ∃ attempts, s.staged = .ofAttempts attempts ∧ stagedSince s.log = attempts ++ pending
  whole : WholeScenes s.log
  waiting : ∀ commit, s.stream.waiting = some commit → Asked s.log commit

section Steps
variable {s : FencedStream T} {pending : List (Layer × Option T)}

theorem Faithful.of_aside (h : Faithful pending s) {stream : Stream}
    (haside : Stream.Aside s.forget stream) : Faithful pending { s with stream } :=
  ⟨h.staged, h.whole, fun commit hcommit => h.waiting commit (haside.waiting ▸ hcommit)⟩

theorem Faithful.clear (h : Faithful pending s) :
    Faithful [] { s with staged := {}, log := s.log ++ [.cleared] } :=
  ⟨⟨[], rfl, by simp⟩, h.whole.other (by simp), fun commit hcommit => (h.waiting commit hcommit).concat _⟩

theorem lift_logged {α : Type} {x : Stream.Method α}
    (hx : Yields x s.forget (fun _ stream => Stream.Aside s.forget stream) fun _ => True)
    (h : Faithful pending s) :
    Yields (lift x) s (fun _ s' => Faithful pending s' ∧ s'.log = s.log) fun _ => True :=
  yields_zoom (hx.mono fun _ _ haside => ⟨h.of_aside haside, rfl⟩)

theorem lift_faithful {α : Type} {x : Stream.Method α}
    (hx : Yields x s.forget (fun _ stream => Stream.Aside s.forget stream) fun _ => True)
    (h : Faithful pending s) : Yields (lift x) s (fun _ s' => Faithful pending s') fun _ => True :=
  (lift_logged hx h).mono fun _ _ hs' => hs'.1

theorem park_faithful {commit : PendingCommit} (h : Faithful [] s) (hasked : Asked s.log commit) :
    Yields (lift (Stream.park commit)) s (fun _ s' => Faithful [] s') fun _ => True := by
  refine yields_zoom (yields_modify ⟨h.staged, h.whole, fun other hother => ?_⟩)
  cases hother
  exact hasked

/-- What a ready scene says about the staging area. -/
theorem status_ready {stream : Stream} {task : TaskView} {commit : PendingCommit}
    (h : stream.status task commit = .ready) :
    stream.staged.failed = false ∧ commit.count.toNat = stream.staged.layers.length := by
  unfold Stream.status at h
  split at h
  · rename_i hvalid
    refine ⟨by simpa using hvalid.1, ?_⟩
    unfold assessScene at h
    split at h
    · cases h
    · rename_i hcount
      simp only [not_or, not_not] at hcount
      exact hcount.2.1
  · cases h

/-- A scene that may be shown is all that was staged. -/
theorem Faithful.ready (h : Faithful [] s) {task : TaskView} {commit : PendingCommit}
    (hready : s.forget.status task commit = .ready) :
    s.staged.layers = stagedSince s.log ∧ (stagedSince s.log).length = commit.count.toNat ∧
      (stagedSince s.log).length ≤ MAX_LAYERS := by
  obtain ⟨attempts, hstaged, hlog⟩ := h.staged
  obtain ⟨hfailed, hcount⟩ := status_ready hready
  rw [List.append_nil] at hlog
  have hbound : attempts.length ≤ MAX_LAYERS := by
    have hfailed : s.staged.failed = false := hfailed
    rw [hstaged] at hfailed
    exact Nat.not_lt.mp (of_decide_eq_false hfailed)
  have hlayers : s.staged.layers = attempts := by
    rw [hstaged]
    exact List.take_of_length_le hbound
  have hlength : commit.count.toNat = s.staged.layers.length := by
    rw [hcount]
    exact List.length_map _
  rw [hlog, ← hlayers]
  exact ⟨rfl, hlength.symm, hlayers ▸ hbound⟩

theorem submitLayerScene_faithful {task : TaskView} {commit : PendingCommit} (h : Faithful [] s)
    (hasked : Asked s.log commit) :
    Yields (submitLayerScene task commit) s (fun _ s' => Faithful [] s') fun _ => True := by
  refine yields_get_bind (yields_ite (fun _ => park_faithful h hasked) fun _ => ?_)
  refine yields_ite (fun _ => ?_) fun hready => ?_
  · exact yields_modify_bind (lift_faithful (Stream.answerCommit_aside _ _) h.clear)
  refine yields_ite (fun _ => park_faithful h hasked) fun _ => ?_
  refine yields_ite (fun _ => park_faithful h hasked) fun _ => ?_
  obtain ⟨hscene, hcount, hbound⟩ := h.ready (not_not.mp hready)
  -- the scene leaves the staging area, and the log says so once it is shown
  refine yields_bind (Q := fun scene s' => scene = stagedSince s.log ∧ s'.log = s.log ∧
    s'.staged = {} ∧ s'.stream.waiting = s.stream.waiting) ?_ ?_
  · refine yields_okOr_bind (fun _ => trivial) fun logical _ => yields_get_bind (yields_set_bind ?_)
    refine yields_bind (yields_zoom ((Stream.showLayers_aside _ _ _).mono fun _ stream haside => ?_))
      fun _ s' hs' => yields_pure ⟨hscene, hs'⟩
    exact ⟨rfl, rfl, haside.waiting⟩
  · rintro scene s' ⟨rfl, hlog, hstaged, hwaiting⟩
    refine yields_modify_bind (lift_faithful (Stream.answerCommit_aside _ _) ?_)
    rw [← hlog] at hasked hcount hbound ⊢
    refine ⟨⟨[], hstaged, by simp⟩, ?_, fun other hother => ?_⟩
    · exact WholeScenes.accept (hlog ▸ h.whole) hasked hcount hbound
    · have hother : s'.stream.waiting = some other := hother
      rw [hwaiting] at hother
      exact (hlog ▸ h.waiting other hother).concat _

/-- The staging area is cleared, and no commit is parked afterwards. -/
theorem clear_faithful {x : Stream.Method Unit} (h : Faithful pending s)
    (hx : ∀ stream : Stream, stream.staged = {} →
      Yields x stream (fun _ stream' => stream'.Vacant) fun _ => True) :
    Yields (do clear; lift x) s (fun _ s' => Faithful [] s') fun _ => True := by
  refine yields_modify_bind (yields_zoom ((hx _ rfl).mono fun _ stream hvacant => ?_))
  refine ⟨h.clear.staged, h.clear.whole, fun commit hcommit => ?_⟩
  have hcommit : stream.waiting = some commit := hcommit
  rw [hvacant.2] at hcommit
  cases hcommit

/-- A layer that arrives by itself. -/
theorem push_faithful {layer : Layer} {acquire : Option T} (h : Faithful [(layer, acquire)] s) :
    Yields (push layer acquire) s (fun _ s' => Faithful [] s') fun _ => True := by
  obtain ⟨attempts, hstaged, hlog⟩ := h.staged
  refine yields_get_bind (yields_set_bind (yields_pure ⟨⟨attempts ++ [(layer, acquire)], ?_, ?_⟩,
    h.whole, h.waiting⟩))
  · show (s.staged.push layer acquire).2 = _
    rw [hstaged, FencedStaging.push_ofAttempts]
  · rw [List.append_nil]
    exact hlog

/-- The layers of a batch; the decoder has made sure that each names its own descriptor. -/
theorem stageBatch_faithful {layers : List BatchLayer} {fds : List T}
    (h : Faithful (FencedStaging.namedBatch fds layers) s) (hfew : fds.length ≤ 4)
    (hindices : (Wire.indices layers).Perm (List.range fds.length)) :
    Faithful [] { s with staged := s.staged.stageBatch layers (FencedStaging.slots fds) } := by
  obtain ⟨attempts, hstaged, hlog⟩ := h.staged
  refine ⟨⟨attempts ++ FencedStaging.namedBatch fds layers, ?_, by simpa using hlog⟩, h.whole,
    h.waiting⟩
  show s.staged.stageBatch layers (FencedStaging.slots fds) = _
  rw [hstaged]
  exact FencedStaging.stageBatch_ofAttempts (hindices.nodup_iff.mpr List.nodup_range)
    fun i _ => FencedStaging.slots_getElem? hfew i

theorem perform_faithful {task : TaskView} {supported : Bool} {request : Request} {fds : List T}
    (h : Faithful (request.named fds) s) (hfenced : Wire.WellFenced fds.length request)
    (hasked : ∀ commit, request.pendingCommit = some commit → Asked s.log commit) :
    Yields (perform task supported fds request) s (fun _ s' => Faithful [] s') fun _ => True := by
  cases request with
  | stage layer acquire =>
    exact yields_bind (push_faithful h) fun _ s' hs' => lift_faithful (Stream.send_aside _) hs'
  | stageAsync layer acquire =>
    exact yields_bind (push_faithful h) fun _ s' hs' => yields_pure hs'
  | stageBatch layers fences =>
    exact yields_modify (stageBatch_faithful h hfenced.2.1 hfenced.2.2)
  | commitBatch scene serial width height count layers fences =>
    refine yields_modify_bind (submitLayerScene_faithful ?_ (hasked _ rfl))
    exact stageBatch_faithful h hfenced.2.1 hfenced.2.2
  | commit serial width height count => exact submitLayerScene_faithful h (hasked _ rfl)
  | commitAsync scene serial width height count =>
    exact submitLayerScene_faithful h (hasked _ rfl)
  | abort => exact clear_faithful h fun _ _ => Stream.abort_vacant
  | config => exact lift_faithful (Stream.send_aside _) h
  | subscribeConfig => exact lift_faithful (Stream.subscribe_aside _) h
  | register metadata => exact lift_faithful (Stream.register_aside _ _ _) h
  | registerAsync attempt metadata => exact lift_faithful (Stream.register_aside _ _ _) h
  | unregister id => exact lift_faithful (Stream.unregister_aside _) h

theorem receive_faithful (task : TaskView) (supported : Bool) (bytes : Bytes) (fds : List T)
    (h : Faithful [] s) :
    Yields (receive task supported bytes fds) s (fun _ s' => Faithful [] s') fun _ => True := by
  refine yields_get_bind (yields_ite (fun _ => ?_) fun _ => yields_pure h)
  refine yields_mapErr_bind (fun _ _ => trivial) fun request hdecode => yields_modify_bind ?_
  have hreceived : Faithful (request.named fds)
      { s with log := s.log ++ [.received request fds] } := by
    obtain ⟨attempts, hstaged, hlog⟩ := h.staged
    refine ⟨⟨attempts, hstaged, by simp [hlog]⟩, h.whole.other (by simp), fun commit hcommit => ?_⟩
    exact (h.waiting commit hcommit).concat _
  have hasked : ∀ commit, request.pendingCommit = some commit →
      Asked (s.log ++ [.received request fds]) commit :=
    fun commit hcommit => ⟨request, fds, by simp, hcommit⟩
  have hcounted : Yields (lift (modify fun s => { s with received := s.received ++ [request] }))
      { s with log := s.log ++ [.received request fds] } _ _ :=
    lift_logged (yields_modify ⟨rfl, rfl⟩) hreceived
  refine yields_bind hcounted fun _ s' hs' => yields_get_bind ?_
  obtain ⟨hs', hlog⟩ := hs'
  refine yields_rejectIf_bind (fun _ => trivial) fun _ => ?_
  refine yields_bind (lift_logged (Stream.claimIdentity_aside request) hs') fun _ s'' hs'' => ?_
  obtain ⟨hs'', hlog'⟩ := hs''
  refine perform_faithful hs'' (Wire.decode_wellFenced hdecode) ?_
  rw [hlog', hlog]
  exact hasked

theorem drainReleases_faithful (kernel : Nat → Kernel) (task : TaskView) (h : Faithful [] s) :
    Yields (drainReleases kernel task) s (fun _ s' => Faithful [] s') fun _ => True := by
  refine yields_bind (lift_faithful (Stream.release_aside kernel) h) fun _ s' hs' =>
    yields_get_bind ?_
  cases hwaiting : s'.stream.waiting with
  | none => exact yields_pure hs'
  | some commit =>
    have hasked := hs'.waiting commit hwaiting
    refine yields_bind (Q := fun _ s'' => Faithful [] s'' ∧ s''.log = s'.log) ?_ fun _ s'' hs'' => ?_
    · refine yields_zoom (yields_modify ⟨⟨hs'.staged, hs'.whole, fun other hother => ?_⟩, rfl⟩)
      cases hother
    · exact submitLayerScene_faithful hs''.1 (hs''.2 ▸ hasked)

theorem step_faithful (event : Event T) (h : Faithful [] s) :
    Yields (step event) s (fun _ s' => Faithful [] s') fun _ => True := by
  cases event with
  | record bytes fds task supported => exact receive_faithful task supported bytes fds h
  | peerClosed => exact clear_faithful h fun stream _ => yields_modify stream.peerClosed_vacant
  | releases kernel task => exact drainReleases_faithful kernel task h
  | imported params success => exact lift_faithful (Stream.layerImported_aside params success) h
  | hide => exact lift_faithful (yields_modify (Stream.hide_aside _)) h
  | abortWait =>
    refine yields_get_bind ?_
    cases s.stream.waiting with
    | none => exact yields_pure h
    | some commit => exact clear_faithful h fun _ => Stream.abortTimelineWait_vacant
  | publish task => exact lift_faithful (Stream.publish_aside task) h

theorem run_faithful (events : List (Event T)) (h : Faithful [] s) :
    Yields (run events) s (fun _ s' => Faithful [] s') fun _ => True := by
  induction events generalizing s with
  | nil => exact yields_pure h
  | cons event events ih => exact yields_bind (step_faithful event h) fun _ s' hs' => ih hs'

end Steps

/-- **Staged scenes are all or nothing.**  After every run of a layer stream, the staging area holds
the first 64 of the layers that the packets have staged since the last clear, in order and each with
the descriptor that its record named, and it has failed exactly if there were more.  Every commit
that was accepted so far has shown exactly the layers staged for it, as many as it asked for, and
none of them had gone beyond the bound. -/
theorem staged_all_or_nothing (events : List (Event T)) (s : FencedStream T)
    (h : run events {} = .ok () s) :
    s.staged.layers = (stagedSince s.log).take MAX_LAYERS ∧
      (s.staged.failed = true ↔ MAX_LAYERS < (stagedSince s.log).length) ∧
      ∀ before commit scene after, s.log = before ++ .accepted commit scene :: after →
        Asked before commit ∧ scene = stagedSince before ∧ scene.length = commit.count.toNat ∧
          scene.length ≤ MAX_LAYERS := by
  have hstart : Faithful [] ({} : FencedStream T) :=
    ⟨⟨[], rfl, rfl⟩, along_nil, fun _ hcommit => by cases hcommit⟩
  have hend := (run_faithful events hstart).of_ok h
  obtain ⟨attempts, hstaged, hlog⟩ := hend.staged
  rw [List.append_nil] at hlog
  rw [hlog, hstaged]
  refine ⟨rfl, decide_eq_true_iff, fun before commit scene after heq => ?_⟩
  exact hend.whole before _ after heq commit scene rfl


/-- A packet as SurfaceFlinger sends it. -/
def packet (opcode : UInt32) (payload : Bytes) (descriptors : UInt32) : Bytes :=
  [0x44, 0x4c, 0x4c, 0x31] ++ ByteCodec.u32 opcode ++ ByteCodec.u32 (UInt32.ofNat payload.length) ++
    ByteCodec.u32 descriptors ++ payload

def words (values : List UInt32) : Bytes := values.flatMap ByteCodec.u32

/-- A buffer is registered and imported, and is shown with the fence that came in its batch. -/
def fencedRun : List (Event Nat) :=
  [.record (packet 2 (words [10, 0, 800, 600, 1, 0, 0, 0, 0, 1, 0, 3200]) 1) [40]
      Stream.readyTask true,
    .imported 0 true,
    .record (packet 11 (words [1, 1, 0, 10, 0, 3, 0, 0, 0, 800, 600, 0, 0, 204800, 153600, 0,
      0xffffffff, 1, 0, 0]) 1) [41] Stream.readyTask true,
    .record (packet 5 (words [1, 800, 600, 1]) 0) [] Stream.readyTask true]

/-- The commit gets its layer with descriptor 41. -/
theorem staged_all_or_nothing_fence :
    ∃ s, run fencedRun {} = .ok () s ∧
      s.log.getLast? = some (.accepted ⟨none, 1, 800, 600, 1⟩ [(Stream.fullLayer 3, some 41)]) ∧
      s.staged.layers = (stagedSince s.log).take MAX_LAYERS ∧
      (s.staged.failed = true ↔ MAX_LAYERS < (stagedSince s.log).length) ∧
      ∀ before commit scene after, s.log = before ++ .accepted commit scene :: after →
        Asked before commit ∧ scene = stagedSince before ∧ scene.length = commit.count.toNat ∧
          scene.length ≤ MAX_LAYERS := by
  have hrun : (match run fencedRun {} with
      | .ok _ s => decide (s.log.getLast? =
          some (.accepted ⟨none, 1, 800, 600, 1⟩ [(Stream.fullLayer 3, some 41)]))
      | .error _ _ => false) = true := by decide +kernel
  cases hs : run fencedRun {} with
  | ok u s =>
    rw [hs] at hrun
    exact ⟨s, rfl, of_decide_eq_true hrun, staged_all_or_nothing fencedRun s hs⟩
  | error e s =>
    rw [hs] at hrun
    cases hrun

end FencedStream

end Droidloom.Layers
