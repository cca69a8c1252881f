/-
  The host's presentation state for one Android task object (`TaskPresentationState`).

  Ten operations mutate the state; all of them are methods of `EStateM`, so an operation that
  fails COULD leave a half-updated state behind.  That none does is part of the specification of
  each operation (`…_spec`), stated with `Atomic`: it fails and changes nothing, or its guards hold
  and the new state is the given record.  Everything about whole runs is derived from those ten
  specifications.

  The crux of the invariant is the pair `inFlight` / `busyBuffers`: two collections that have to
  say the same thing, while `discardSupersededPresent` consumes timeline points and touches
  neither, and `release` / `cancelUnsubmitted` remove from both.
-/
import Droidloom.Protocol.Validate

namespace Droidloom

open Std Fallible

structure PendingWireFrame where
  buffer : BufferId
  releasePoint : UInt64
deriving DecidableEq, Repr

structure TaskPresentationState where
  object : TaskObjectId
  timelinesBound : Bool
  feedbackGeneration : UInt32
  feedback : Finset FormatModifier
  /-- Serial, width and height of the latest configure. -/
  configure : Option (UInt32 × UInt32 × UInt32)
  acknowledgedSerial : Option UInt32
  buffers : ExtTreeMap BufferId BufferMetadata compare
  inFlight : ExtTreeMap FrameId PendingWireFrame compare
  busyBuffers : Finset BufferId
  lastAcquirePoint : UInt64
  lastReleasePoint : UInt64

/-- Frame accepted by the host after all state checks. -/
structure AcceptedWireFrame where
  object : TaskObjectId
  frame : FrameId
  buffer : BufferId
  acquirePoint : UInt64
  releasePoint : UInt64
  damage : List Damage
deriving DecidableEq, Repr

namespace TaskState

abbrev Method := EStateM TaskStateError TaskPresentationState

/-! ## The operations -/

/-- `TaskPresentationState::new`. -/
def new (object : TaskObjectId) : Except TaskStateError TaskPresentationState := do
  let _ ← mapErr TaskStateError.wire (validObject object)
  return {
    object
    timelinesBound := false
    feedbackGeneration := 0
    feedback := ∅
    configure := none
    acknowledgedSerial := none
    buffers := ∅
    inFlight := ∅
    busyBuffers := ∅
    lastAcquirePoint := 0
    lastReleasePoint := 0 }

def bindTimelines : Method Unit := do
  let s ← get
  rejectIf s.timelinesBound .timelinesAlreadyBound
  set { s with timelinesBound := true }

def replaceFeedback (generation : UInt32) (formats : List FormatModifier) : Method Unit := do
  let s ← get
  rejectIf (generation ≤ s.feedbackGeneration)
    (.feedbackRegression s.feedbackGeneration generation)
  let feedback := formats.toFinset
  rejectIf (feedback = ∅ ∨ feedback.card > MAX_FORMATS) (.wire (.limit "format feedback"))
  rejectIf (∃ format ∈ feedback, format.modifier = 0xffffffffffffffff)
    (.wire (.invalidEnum "DRM modifier" 0xffffffffffffffff))
  set { s with feedbackGeneration := generation, feedback := feedback }

def configure (serial width height refreshMillihz : UInt32) : Method Unit := do
  let s ← get
  mapErr TaskStateError.wire (validateConfigure serial width height 1 1 refreshMillihz)
  set { s with
    acknowledgedSerial :=
      if s.configure.map Prod.fst ≠ some serial then none else s.acknowledgedSerial
    configure := some (serial, width, height) }

/-- Wrapping sequence order on configure serials. -/
def serialPrecedes (actual expected : UInt32) : Bool :=
  actual ≠ expected ∧ expected - actual < 0x80000000

/-- A superseded acknowledgement is accepted and acknowledges nothing. -/
def acknowledgeConfigure (serial : UInt32) : Method Unit := do
  let s ← get
  let (expected, _, _) ← okOr s.configure .missingConfigure
  if serial = expected then
    set { s with acknowledgedSerial := some serial }
  else do
    rejectIf (¬ serialPrecedes serial expected) (.staleConfigure expected serial)
    pure ()

def registerBuffer (buffer : BufferMetadata) : Method Unit := do
  let s ← get
  mapErr (TaskStateError.wire ∘ WireError.transport) buffer.validate
  rejectIf (buffer.id = 0 ∨ buffer.format.modifier = 0xffffffffffffffff)
    (.wire (.invalidEnum "buffer identity or modifier" buffer.id))
  rejectIf (buffer.id ∈ s.buffers) (.duplicateBuffer buffer.id)
  rejectIf (s.buffers.size ≥ MAX_BUFFERS_PER_TASK.toNat) .bufferLimit
  set { s with buffers := s.buffers.insert buffer.id buffer }

def unregisterBuffer (buffer : BufferId) : Method BufferMetadata := do
  let s ← get
  rejectIf (buffer ∈ s.busyBuffers) (.bufferInFlight buffer)
  let metadata ← okOr s.buffers[buffer]? (.unknownBuffer buffer)
  set { s with buffers := s.buffers.erase buffer }
  return metadata

def requireObject (s : TaskPresentationState) (object : TaskObjectId) : Method Unit :=
  rejectIf (object ≠ s.object) (.wrongObject s.object object)

def requireNewerPoint (timeline : String) (previous actual : UInt64) : Method Unit :=
  rejectIf (¬ actual > previous) (.timelineRegression timeline previous actual)

/-- A damage rectangle inside a `width` × `height` allocation. -/
def damageInside (width height : UInt32) (rect : Damage) : Bool :=
  rect.width ≠ 0 ∧ rect.height ≠ 0 ∧
    (checkedAdd rect.x rect.width).any (· ≤ width) ∧
    (checkedAdd rect.y rect.height).any (· ≤ height)

def present (object : TaskObjectId) (frame : FrameId) (buffer : BufferId)
    (configureSerial : UInt32) (acquirePoint releasePoint : UInt64) (damage : List Damage) :
    Method AcceptedWireFrame := do
  let s ← get
  requireObject s object
  rejectIf (¬ s.timelinesBound) .timelinesUnbound
  let (expectedSerial, width, height) ← okOr s.configure .missingConfigure
  rejectIf (configureSerial ≠ expectedSerial) (.staleConfigure expectedSerial configureSerial)
  rejectIf (s.acknowledgedSerial ≠ some expectedSerial) .unacknowledgedConfigure
  let metadata ← okOr s.buffers[buffer]? (.unknownBuffer buffer)
  rejectIf ((metadata.width, metadata.height) ≠ (width, height)) .sizeMismatch
  rejectIf (metadata.format ∉ s.feedback) .unsupportedFormat
  rejectIf (buffer ∈ s.busyBuffers) (.bufferInFlight buffer)
  rejectIf (frame ∈ s.inFlight) (.duplicateFrame frame)
  requireNewerPoint "acquire" s.lastAcquirePoint acquirePoint
  requireNewerPoint "release" s.lastReleasePoint releasePoint
  rejectIf (damage.length > MAX_DAMAGE_RECTS ∨ ¬ damage.all (damageInside width height))
    .invalidDamage
  set { s with
    lastAcquirePoint := acquirePoint
    lastReleasePoint := releasePoint
    busyBuffers := insert buffer s.busyBuffers
    inFlight := s.inFlight.insert frame { buffer, releasePoint } }
  return { object, frame, buffer, acquirePoint, releasePoint, damage }

/-- Consumes the points of a frame whose configure the host has superseded.  The buffer need not
    be registered any more. -/
def discardSupersededPresent (object : TaskObjectId) (frame : FrameId) (buffer : BufferId)
    (configureSerial : UInt32) (acquirePoint releasePoint : UInt64) : Method DenialMessage := do
  let s ← get
  requireObject s object
  rejectIf (¬ s.timelinesBound) .timelinesUnbound
  let (expectedSerial, _, _) ← okOr s.configure .missingConfigure
  rejectIf (¬ serialPrecedes configureSerial expectedSerial)
    (.staleConfigure expectedSerial configureSerial)
  rejectIf (buffer ∈ s.busyBuffers) (.bufferInFlight buffer)
  rejectIf (frame ∈ s.inFlight) (.duplicateFrame frame)
  requireNewerPoint "acquire" s.lastAcquirePoint acquirePoint
  requireNewerPoint "release" s.lastReleasePoint releasePoint
  set { s with lastAcquirePoint := acquirePoint, lastReleasePoint := releasePoint }
  return .bufferReleased s.object frame buffer releasePoint

def release (frame : FrameId) (buffer : BufferId) (releasePoint : UInt64) :
    Method DenialMessage := do
  let s ← get
  let pending ← okOr s.inFlight[frame]? (.unknownFrame frame)
  rejectIf (pending.buffer ≠ buffer ∨ pending.releasePoint ≠ releasePoint) .releaseMismatch
  set { s with inFlight := s.inFlight.erase frame, busyBuffers := s.busyBuffers.erase buffer }
  return .bufferReleased s.object frame buffer releasePoint

def cancelUnsubmitted (frame : FrameId) (buffer : BufferId) (releasePoint : UInt64) :
    Method Unit := do
  let s ← get
  let pending ← okOr s.inFlight[frame]? (.unknownFrame frame)
  rejectIf (pending.buffer ≠ buffer ∨ pending.releasePoint ≠ releasePoint) .releaseMismatch
  set { s with inFlight := s.inFlight.erase frame, busyBuffers := s.busyBuffers.erase buffer }

/-! ## What each operation can do -/

variable {s : TaskPresentationState}

theorem bindTimelines_spec :
    Atomic bindTimelines s fun _ s' =>
      s.timelinesBound = false ∧ s' = { s with timelinesBound := true } := by
  refine atomic_get_bind (atomic_rejectIf_bind fun hb => atomic_set ⟨by simpa using hb, rfl⟩)

theorem replaceFeedback_spec {generation : UInt32} {formats : List FormatModifier} :
    Atomic (replaceFeedback generation formats) s fun _ s' =>
      s.feedbackGeneration < generation ∧
      s' = { s with feedbackGeneration := generation, feedback := formats.toFinset } := by
  refine atomic_get_bind (atomic_rejectIf_bind fun hg => atomic_rejectIf_bind fun _ =>
    atomic_rejectIf_bind fun _ => atomic_set ⟨?_, rfl⟩)
  exact UInt32.not_le.mp hg

theorem configure_spec {serial width height refreshMillihz : UInt32} :
    Atomic (configure serial width height refreshMillihz) s fun _ s' =>
      s' = { s with
        acknowledgedSerial :=
          if s.configure.map Prod.fst ≠ some serial then none else s.acknowledgedSerial
        configure := some (serial, width, height) } :=
  atomic_get_bind (atomic_mapErr_bind fun _ _ => atomic_set rfl)

theorem acknowledgeConfigure_spec {serial : UInt32} :
    Atomic (acknowledgeConfigure serial) s fun _ s' =>
      ∃ expected width height, s.configure = some (expected, width, height) ∧
        (serial = expected ∧ s' = { s with acknowledgedSerial := some serial } ∨
          serialPrecedes serial expected ∧ s' = s) := by
  refine atomic_get_bind (atomic_okOr_bind fun c hc => ?_)
  obtain ⟨expected, width, height⟩ := c
  refine atomic_ite (fun he => atomic_set ⟨expected, width, height, hc, .inl ⟨he, rfl⟩⟩)
    fun _ => atomic_rejectIf_bind fun hp => atomic_pure ?_
  exact ⟨expected, width, height, hc, .inr ⟨by simpa using hp, rfl⟩⟩

theorem registerBuffer_spec {buffer : BufferMetadata} :
    Atomic (registerBuffer buffer) s fun _ s' =>
      buffer.id ∉ s.buffers ∧ s.buffers.size < MAX_BUFFERS_PER_TASK.toNat ∧
      s' = { s with buffers := s.buffers.insert buffer.id buffer } := by
  refine atomic_get_bind (atomic_mapErr_bind fun _ _ => atomic_rejectIf_bind fun _ =>
    atomic_rejectIf_bind fun hdup => atomic_rejectIf_bind fun hsize => atomic_set ?_)
  exact ⟨hdup, by omega, rfl⟩

theorem unregisterBuffer_spec {buffer : BufferId} :
    Atomic (unregisterBuffer buffer) s fun metadata s' =>
      buffer ∉ s.busyBuffers ∧ s.buffers[buffer]? = some metadata ∧
      s' = { s with buffers := s.buffers.erase buffer } :=
  atomic_get_bind (atomic_rejectIf_bind fun hbusy => atomic_okOr_bind fun _ hm =>
    atomic_set_pure ⟨hbusy, hm, rfl⟩)

/-- The guards of `present`, in the order the source checks them. -/
structure CanPresent (s : TaskPresentationState) (object : TaskObjectId) (frame : FrameId)
    (buffer : BufferId) (configureSerial : UInt32) (acquirePoint releasePoint : UInt64)
    (damage : List Damage) (width height : UInt32) (metadata : BufferMetadata) : Prop where
  object_eq : object = s.object
  timelines : s.timelinesBound
  configure_eq : s.configure = some (configureSerial, width, height)
  acknowledged : s.acknowledgedSerial = some configureSerial
  registered : s.buffers[buffer]? = some metadata
  size_eq : (metadata.width, metadata.height) = (width, height)
  format_mem : metadata.format ∈ s.feedback
  not_busy : buffer ∉ s.busyBuffers
  fresh : frame ∉ s.inFlight
  acquire_newer : s.lastAcquirePoint < acquirePoint
  release_newer : s.lastReleasePoint < releasePoint
  damage_len : damage.length ≤ MAX_DAMAGE_RECTS
  damage_inside : damage.all (damageInside width height)

/-- The state after an accepted frame. -/
def acceptFrame (s : TaskPresentationState) (frame : FrameId) (buffer : BufferId)
    (acquirePoint releasePoint : UInt64) : TaskPresentationState :=
  { s with
    lastAcquirePoint := acquirePoint
    lastReleasePoint := releasePoint
    busyBuffers := insert buffer s.busyBuffers
    inFlight := s.inFlight.insert frame { buffer, releasePoint } }

/-- The state after a released or cancelled frame. -/
def dropFrame (s : TaskPresentationState) (frame : FrameId) (buffer : BufferId) :
    TaskPresentationState :=
  { s with inFlight := s.inFlight.erase frame, busyBuffers := s.busyBuffers.erase buffer }

section Present

variable {object : TaskObjectId} {frame : FrameId} {buffer : BufferId} {configureSerial : UInt32}
  {acquirePoint releasePoint : UInt64} {damage : List Damage}

theorem present_spec :
    Atomic (present object frame buffer configureSerial acquirePoint releasePoint damage) s
      fun accepted s' =>
        (∃ width height metadata, CanPresent s object frame buffer configureSerial acquirePoint
          releasePoint damage width height metadata) ∧
        s' = acceptFrame s frame buffer acquirePoint releasePoint ∧
        accepted = { object, frame, buffer, acquirePoint, releasePoint, damage } := by
  refine atomic_get_bind (atomic_rejectIf_bind fun hobj => atomic_rejectIf_bind fun htl =>
    atomic_okOr_bind fun c hc => ?_)
  obtain ⟨expected, width, height⟩ := c
  refine atomic_rejectIf_bind fun hserial => atomic_rejectIf_bind fun hack =>
    atomic_okOr_bind fun metadata hm => atomic_rejectIf_bind fun hsize =>
    atomic_rejectIf_bind fun hformat => atomic_rejectIf_bind fun hbusy =>
    atomic_rejectIf_bind fun hfresh => atomic_rejectIf_bind fun hacq =>
    atomic_rejectIf_bind fun hrel => atomic_rejectIf_bind fun hdamage =>
    atomic_set_pure ⟨⟨width, height, metadata, ?_⟩, rfl, rfl⟩
  rw [not_not] at hobj htl hserial hack hsize hformat hacq hrel
  rw [not_or, not_not] at hdamage
  subst hserial
  exact ⟨hobj, htl, hc, hack, hm, hsize, hformat, hbusy, hfresh, hacq, hrel, by omega, hdamage.2⟩

theorem discardSupersededPresent_spec :
    Atomic (discardSupersededPresent object frame buffer configureSerial acquirePoint releasePoint)
      s fun message s' =>
        (object = s.object ∧ s.timelinesBound ∧ buffer ∉ s.busyBuffers ∧ frame ∉ s.inFlight ∧
          s.lastAcquirePoint < acquirePoint ∧ s.lastReleasePoint < releasePoint) ∧
        s' = { s with lastAcquirePoint := acquirePoint, lastReleasePoint := releasePoint } ∧
        message = .bufferReleased s.object frame buffer releasePoint := by
  refine atomic_get_bind (atomic_rejectIf_bind fun hobj => atomic_rejectIf_bind fun htl =>
    atomic_okOr_bind fun c hc => ?_)
  obtain ⟨expected, width, height⟩ := c
  refine atomic_rejectIf_bind fun _ => atomic_rejectIf_bind fun hbusy =>
    atomic_rejectIf_bind fun hfresh => atomic_rejectIf_bind fun hacq =>
    atomic_rejectIf_bind fun hrel => atomic_set_pure ⟨?_, rfl, rfl⟩
  rw [not_not] at hobj htl hacq hrel
  exact ⟨hobj, htl, hbusy, hfresh, hacq, hrel⟩

theorem release_spec :
    Atomic (release frame buffer releasePoint) s fun message s' =>
      s.inFlight[frame]? = some { buffer, releasePoint } ∧ s' = dropFrame s frame buffer ∧
      message = .bufferReleased s.object frame buffer releasePoint := by
  refine atomic_get_bind (atomic_okOr_bind fun pending hp => atomic_rejectIf_bind fun hne =>
    atomic_set_pure ⟨?_, rfl, rfl⟩)
  simp only [not_or, not_not] at hne
  obtain ⟨rfl, rfl⟩ := hne
  exact hp

theorem cancelUnsubmitted_spec :
    Atomic (cancelUnsubmitted frame buffer releasePoint) s fun _ s' =>
      s.inFlight[frame]? = some { buffer, releasePoint } ∧ s' = dropFrame s frame buffer := by
  refine atomic_get_bind (atomic_okOr_bind fun pending hp => atomic_rejectIf_bind fun hne =>
    atomic_set ⟨?_, rfl⟩)
  simp only [not_or, not_not] at hne
  obtain ⟨rfl, rfl⟩ := hne
  exact hp

end Present

/-! ## The invariant -/

structure Invariant (s : TaskPresentationState) : Prop where
  /-- Distinct frames in flight hold distinct buffers. -/
  distinct : ∀ (f g : FrameId) (p q : PendingWireFrame), s.inFlight[f]? = some p →
    s.inFlight[g]? = some q → p.buffer = q.buffer → f = g
  /-- The busy set is exactly the set of buffers of the frames in flight. -/
  busy_iff : ∀ b, b ∈ s.busyBuffers ↔
    ∃ (f : FrameId) (p : PendingWireFrame), s.inFlight[f]? = some p ∧ p.buffer = b
  registered : ∀ b ∈ s.busyBuffers, b ∈ s.buffers
  bounded : s.buffers.size ≤ MAX_BUFFERS_PER_TASK.toNat

/-- Only the collections matter to the invariant. -/
theorem Invariant.congr {s t : TaskPresentationState} (hs : Invariant s)
    (hf : t.inFlight = s.inFlight) (hb : t.busyBuffers = s.busyBuffers)
    (hr : t.buffers = s.buffers) : Invariant t := by
  obtain ⟨h1, h2, h3, h4⟩ := hs
  exact ⟨by rw [hf]; exact h1, by rw [hf, hb]; exact h2, by rw [hb, hr]; exact h3,
    by rw [hr]; exact h4⟩

theorem Invariant.insertBuffer (hs : Invariant s) {buffer : BufferMetadata}
    (hsize : s.buffers.size < MAX_BUFFERS_PER_TASK.toNat) :
    Invariant { s with buffers := s.buffers.insert buffer.id buffer } := by
  refine ⟨hs.distinct, hs.busy_iff, ?_, ?_⟩
  · intro b hb
    have := hs.registered b hb
    grind
  · have := ExtTreeMap.size_insert_le (t := s.buffers) (k := buffer.id) (v := buffer)
    show (s.buffers.insert buffer.id buffer).size ≤ _
    omega

theorem Invariant.eraseBuffer (hs : Invariant s) {buffer : BufferId}
    (hbusy : buffer ∉ s.busyBuffers) :
    Invariant { s with buffers := s.buffers.erase buffer } := by
  refine ⟨hs.distinct, hs.busy_iff, ?_, ?_⟩
  · intro b hb
    have hne : b ≠ buffer := fun h => hbusy (h ▸ hb)
    have := hs.registered b hb
    grind
  · have := ExtTreeMap.size_erase_le (t := s.buffers) (k := buffer)
    have := hs.bounded
    show (s.buffers.erase buffer).size ≤ _
    omega

/-- A frame enters both collections at once: its buffer was in neither. -/
theorem Invariant.acceptFrame (hs : Invariant s) {frame : FrameId} {buffer : BufferId}
    {acquirePoint releasePoint : UInt64} (hbusy : buffer ∉ s.busyBuffers)
    (hfresh : frame ∉ s.inFlight) (hreg : buffer ∈ s.buffers) :
    Invariant (acceptFrame s frame buffer acquirePoint releasePoint) := by
  have hnone : ∀ (f : FrameId) (p : PendingWireFrame), s.inFlight[f]? = some p →
      p.buffer ≠ buffer :=
    fun f p hp he => hbusy ((hs.busy_iff buffer).mpr ⟨f, p, hp, he⟩)
  refine ⟨?_, ?_, ?_, hs.bounded⟩
  · intro f g p q hp hq he
    simp only [TaskState.acceptFrame] at hp hq
    have := hs.distinct f g p q
    grind
  · intro b
    simp only [TaskState.acceptFrame, Finset.mem_insert, hs.busy_iff b]
    constructor
    · rintro (rfl | ⟨f, p, hp, rfl⟩)
      · exact ⟨frame, ⟨b, releasePoint⟩, by grind, rfl⟩
      · exact ⟨f, p, by grind, rfl⟩
    · rintro ⟨f, p, hp, rfl⟩
      by_cases hf : f = frame
      · left; grind
      · right; exact ⟨f, p, by grind, rfl⟩
  · intro b hb
    simp only [TaskState.acceptFrame, Finset.mem_insert] at hb ⊢
    rcases hb with rfl | hb
    · exact hreg
    · exact hs.registered b hb

/-- A frame leaves both collections at once: no other frame holds its buffer. -/
theorem Invariant.dropFrame (hs : Invariant s) {frame : FrameId} {pending : PendingWireFrame}
    (hp : s.inFlight[frame]? = some pending) : Invariant (dropFrame s frame pending.buffer) := by
  refine ⟨?_, ?_, ?_, hs.bounded⟩
  · intro f g p q hf hg he
    simp only [TaskState.dropFrame] at hf hg
    have := hs.distinct f g p q
    grind
  · intro b
    simp only [TaskState.dropFrame, Finset.mem_erase, hs.busy_iff b]
    constructor
    · rintro ⟨hne, f, p, hf, rfl⟩
      exact ⟨f, p, by grind, rfl⟩
    · rintro ⟨f, p, hf, rfl⟩
      have hff : f ≠ frame := by grind
      have hfp : s.inFlight[f]? = some p := by grind
      exact ⟨fun he => hff (hs.distinct _ _ _ _ hfp hp he), f, p, hfp, rfl⟩
  · intro b hb
    exact hs.registered b (Finset.mem_of_mem_erase hb)

/-! ## Runs -/

/-- One call of an operation, with its arguments. -/
inductive Operation
  | bindTimelines
  | replaceFeedback (generation : UInt32) (formats : List FormatModifier)
  | configure (serial width height refreshMillihz : UInt32)
  | acknowledgeConfigure (serial : UInt32)
  | registerBuffer (buffer : BufferMetadata)
  | unregisterBuffer (buffer : BufferId)
  | present (object : TaskObjectId) (frame : FrameId) (buffer : BufferId)
      (configureSerial : UInt32) (acquirePoint releasePoint : UInt64) (damage : List Damage)
  | discardSupersededPresent (object : TaskObjectId) (frame : FrameId) (buffer : BufferId)
      (configureSerial : UInt32) (acquirePoint releasePoint : UInt64)
  | release (frame : FrameId) (buffer : BufferId) (releasePoint : UInt64)
  | cancelUnsubmitted (frame : FrameId) (buffer : BufferId) (releasePoint : UInt64)

def Operation.perform : Operation → Method Unit
  | .bindTimelines => TaskState.bindTimelines
  | .replaceFeedback generation formats => TaskState.replaceFeedback generation formats
  | .configure serial width height refreshMillihz =>
    TaskState.configure serial width height refreshMillihz
  | .acknowledgeConfigure serial => TaskState.acknowledgeConfigure serial
  | .registerBuffer buffer => TaskState.registerBuffer buffer
  | .unregisterBuffer buffer => do let _ ← TaskState.unregisterBuffer buffer; pure ()
  | .present object frame buffer configureSerial acquirePoint releasePoint damage => do
    let _ ← TaskState.present object frame buffer configureSerial acquirePoint releasePoint damage
    pure ()
  | .discardSupersededPresent object frame buffer configureSerial acquirePoint releasePoint => do
    let _ ← TaskState.discardSupersededPresent object frame buffer configureSerial acquirePoint
      releasePoint
    pure ()
  | .release frame buffer releasePoint => do
    let _ ← TaskState.release frame buffer releasePoint
    pure ()
  | .cancelUnsubmitted frame buffer releasePoint =>
    TaskState.cancelUnsubmitted frame buffer releasePoint

/-- The acquire and release points that the operation consumes when it is accepted. -/
def Operation.points : Operation → List (UInt64 × UInt64)
  | .present _ _ _ _ acquirePoint releasePoint _ => [(acquirePoint, releasePoint)]
  | .discardSupersededPresent _ _ _ _ acquirePoint releasePoint => [(acquirePoint, releasePoint)]
  | _ => []

/-- One operation on the state, paired with the points consumed so far in acceptance order. -/
def execute (run : TaskPresentationState × List (UInt64 × UInt64)) (op : Operation) :
    TaskPresentationState × List (UInt64 × UInt64) :=
  match op.perform.run run.1 with
  | .ok _ s' => (s', run.2 ++ op.points)
  | .error _ s' => (s', run.2)

/-- `points` is strictly increasing and its last element is `last` (0 before the first one). -/
def EndsAt (points : List UInt64) (last : UInt64) : Prop :=
  points.Pairwise (· < ·) ∧ points.getLast?.getD 0 = last

theorem EndsAt.le {points : List UInt64} {last : UInt64} (h : EndsAt points last) :
    ∀ p ∈ points, p ≤ last := by
  obtain ⟨hsorted, hlast⟩ := h
  intro p hp
  rcases List.eq_nil_or_concat' points with rfl | ⟨init, x, rfl⟩
  · exact absurd hp List.not_mem_nil
  · rw [List.getLast?_concat, Option.getD_some] at hlast
    subst hlast
    rcases List.mem_append.mp hp with hp | hp
    · exact UInt64.le_of_lt ((List.pairwise_append.mp hsorted).2.2 p hp x (by simp))
    · rw [List.mem_singleton.mp hp]; exact UInt64.le_refl x

theorem EndsAt.append {points : List UInt64} {last p : UInt64} (h : EndsAt points last)
    (hp : last < p) : EndsAt (points ++ [p]) p := by
  refine ⟨List.pairwise_append.mpr ⟨h.1, List.pairwise_singleton _ _, ?_⟩, by simp⟩
  intro q hq r hr
  rw [List.mem_singleton.mp hr]
  exact UInt64.lt_of_le_of_lt (h.le q hq) hp

/-- The invariant of a run: the state's own, and the history of consumed points. -/
structure RunInvariant (run : TaskPresentationState × List (UInt64 × UInt64)) : Prop where
  state : Invariant run.1
  acquire : EndsAt (run.2.map Prod.fst) run.1.lastAcquirePoint
  release : EndsAt (run.2.map Prod.snd) run.1.lastReleasePoint

/-- What an accepted operation does to the invariant of a run. -/
theorem perform_spec (op : Operation) {s : TaskPresentationState}
    {points : List (UInt64 × UInt64)} (hinv : RunInvariant (s, points)) :
    Atomic op.perform s fun _ s' => RunInvariant (s', points ++ op.points) := by
  -- operations outside the two present paths consume no point
  have keep : ∀ {s' : TaskPresentationState}, Invariant s' →
      s'.lastAcquirePoint = s.lastAcquirePoint → s'.lastReleasePoint = s.lastReleasePoint →
      RunInvariant (s', points ++ []) := by
    intro s' hs' ha hr
    rw [List.append_nil]
    exact ⟨hs', by rw [ha]; exact hinv.acquire, by rw [hr]; exact hinv.release⟩
  cases op with
  | bindTimelines =>
    refine bindTimelines_spec.mono ?_
    rintro _ s' ⟨-, rfl⟩
    exact keep (hinv.state.congr rfl rfl rfl) rfl rfl
  | replaceFeedback generation formats =>
    refine replaceFeedback_spec.mono ?_
    rintro _ s' ⟨-, rfl⟩
    exact keep (hinv.state.congr rfl rfl rfl) rfl rfl
  | configure serial width height refreshMillihz =>
    refine configure_spec.mono ?_
    rintro _ s' rfl
    exact keep (hinv.state.congr rfl rfl rfl) rfl rfl
  | acknowledgeConfigure serial =>
    refine acknowledgeConfigure_spec.mono ?_
    rintro _ s' ⟨_, _, _, -, ⟨-, rfl⟩ | ⟨-, rfl⟩⟩
    · exact keep (hinv.state.congr rfl rfl rfl) rfl rfl
    · exact keep hinv.state rfl rfl
  | registerBuffer buffer =>
    refine registerBuffer_spec.mono ?_
    rintro _ s' ⟨-, hsize, rfl⟩
    exact keep (hinv.state.insertBuffer hsize) rfl rfl
  | unregisterBuffer buffer =>
    refine unregisterBuffer_spec.discard.mono ?_
    rintro _ s' ⟨_, hbusy, -, rfl⟩
    exact keep (hinv.state.eraseBuffer hbusy) rfl rfl
  | present object frame buffer configureSerial acquirePoint releasePoint damage =>
    refine present_spec.discard.mono ?_
    rintro _ s' ⟨_, ⟨_, _, metadata, hcan⟩, rfl, -⟩
    refine ⟨hinv.state.acceptFrame hcan.not_busy hcan.fresh ?_, ?_, ?_⟩
    · have := hcan.registered; grind
    · rw [List.map_append]; exact hinv.acquire.append hcan.acquire_newer
    · rw [List.map_append]; exact hinv.release.append hcan.release_newer
  | discardSupersededPresent object frame buffer configureSerial acquirePoint releasePoint =>
    refine discardSupersededPresent_spec.discard.mono ?_
    rintro _ s' ⟨_, ⟨-, -, -, -, hacq, hrel⟩, rfl, -⟩
    refine ⟨hinv.state.congr rfl rfl rfl, ?_, ?_⟩
    · rw [List.map_append]; exact hinv.acquire.append hacq
    · rw [List.map_append]; exact hinv.release.append hrel
  | release frame buffer releasePoint =>
    refine release_spec.discard.mono ?_
    rintro _ s' ⟨_, hp, rfl, -⟩
    exact keep (hinv.state.dropFrame hp) rfl rfl
  | cancelUnsubmitted frame buffer releasePoint =>
    refine cancelUnsubmitted_spec.mono ?_
    rintro _ s' ⟨hp, rfl⟩
    exact keep (hinv.state.dropFrame hp) rfl rfl

/-- A failing operation changes nothing, in whatever state it is called. -/
theorem perform_error (op : Operation) {s s' : TaskPresentationState} {e : TaskStateError}
    (h : op.perform.run s = .error e s') : s' = s := by
  cases op with
  | bindTimelines => exact bindTimelines_spec.of_error h
  | replaceFeedback => exact replaceFeedback_spec.of_error h
  | configure => exact configure_spec.of_error h
  | acknowledgeConfigure => exact acknowledgeConfigure_spec.of_error h
  | registerBuffer => exact registerBuffer_spec.of_error h
  | unregisterBuffer => exact unregisterBuffer_spec.discard.of_error h
  | present => exact present_spec.discard.of_error h
  | discardSupersededPresent => exact discardSupersededPresent_spec.discard.of_error h
  | release => exact release_spec.discard.of_error h
  | cancelUnsubmitted => exact cancelUnsubmitted_spec.of_error h

theorem RunInvariant.execute {run : TaskPresentationState × List (UInt64 × UInt64)}
    (hinv : RunInvariant run) (op : Operation) : RunInvariant (execute run op) := by
  have hspec := perform_spec op hinv
  unfold TaskState.execute
  cases hr : op.perform.run run.1 with
  | ok _ s' => exact hspec.of_ok hr
  | error e s' => rw [perform_error op hr]; exact hinv

theorem RunInvariant.foldl {run : TaskPresentationState × List (UInt64 × UInt64)}
    (hinv : RunInvariant run) (ops : List Operation) :
    RunInvariant (ops.foldl TaskState.execute run) := by
  induction ops generalizing run with
  | nil => exact hinv
  | cons op ops ih => exact ih (hinv.execute op)

theorem runInvariant_new {object : TaskObjectId} {s : TaskPresentationState}
    (h : new object = .ok s) : RunInvariant (s, []) := by
  simp only [new, bind_eq_ok, pure_eq_ok] at h
  obtain ⟨_, -, rfl⟩ := h
  refine ⟨⟨?_, ?_, ?_, ?_⟩, ⟨List.Pairwise.nil, rfl⟩, ⟨List.Pairwise.nil, rfl⟩⟩
  · intro f g p q hp
    simp at hp
  · intro b
    simp
  · intro b hb
    simp at hb
  · show (∅ : ExtTreeMap BufferId BufferMetadata compare).size ≤ _
    decide

/-- **The presentation state over whole runs.**  From a new state, whatever operations are called
    with whatever arguments: frames in flight and busy buffers agree, busy buffers are registered,
    the registration table is bounded, the points consumed so far increase strictly up to the two
    `last…Point` fields — and an operation that fails next leaves the whole state as it is. -/
theorem run_invariant {object : TaskObjectId} {s₀ : TaskPresentationState}
    (h : new object = .ok s₀) (ops : List Operation) :
    let run := ops.foldl TaskState.execute (s₀, [])
    Invariant run.1 ∧ EndsAt (run.2.map Prod.fst) run.1.lastAcquirePoint ∧
      EndsAt (run.2.map Prod.snd) run.1.lastReleasePoint ∧
      ∀ (op : Operation) (e : TaskStateError) (s' : TaskPresentationState),
        op.perform.run run.1 = .error e s' → s' = run.1 := by
  obtain ⟨h1, h2, h3⟩ := (runInvariant_new h).foldl ops
  exact ⟨h1, h2, h3, fun op e s' he => perform_error op he⟩

/-- Presents one frame and cancels it. -/
def cancelledRun : List Operation :=
  [.bindTimelines, .replaceFeedback 1 [⟨1, 0⟩], .configure 1 8 8 60000, .acknowledgeConfigure 1,
    .registerBuffer ⟨3, 8, 8, ⟨1, 0⟩, [⟨0, 0, 32⟩]⟩, .present 7 1 3 1 5 6 [⟨0, 0, 8, 8⟩],
    .cancelUnsubmitted 1 3 6]

/-- The points of a cancelled frame stay consumed. -/
theorem run_invariant_cancelledRun :
    ∃ s₀, new 7 = .ok s₀ ∧
      let run := cancelledRun.foldl TaskState.execute (s₀, [])
      run.2 = [(5, 6)] ∧ Invariant run.1 ∧
        EndsAt (run.2.map Prod.fst) run.1.lastAcquirePoint := by
  refine ⟨_, rfl, ?_, ?_⟩
  · decide +kernel
  · have h := @run_invariant 7 _ rfl cancelledRun
    exact ⟨h.1, h.2.1⟩

end TaskState

end Droidloom
