/-
  A task's binding and its Composer agree (`DenialTaskBinding`, `PresentationState`).

  The same facts are stored twice.  The Composer knows which configure is the latest and which frames
  are in flight; the binding knows which configure it acknowledged and which frames wait for a
  release point.  The two are updated by different calls, each of which can fail alone.

  A frame is in flight without a release point at two places only: between its submission and its
  `Present`, and between the two halves of a cancellation.  `Open` names that frame; at most one is
  open at a time, and other calls may fall in between.
-/
import Droidloom.Graphics.Transport
import Droidloom.Graphics.Presenting
import Droidloom.Graphics.Sink

namespace Droidloom.Graphics

open Std Fallible Triple

/-! ## The Composer's operations and its transport -/

namespace Composer

/-- Operations that leave the transport alone. -/
def Operation.apart : Operation → Bool
  | .setPowerMode _ _ | .setVsyncEnabled _ _ | .presentationSample _ | .createLayer _ _
  | .updateLayer _ _ | .layerState _ _ | .destroyLayer _ _ | .validateDisplay _
  | .acceptDisplayChanges _ | .setClientTarget _ _ | .presentDisplayDirect _ => true
  | _ => false

/-- The two operations that submit a frame. -/
def Operation.submits : Operation → Bool
  | .presentDisplay _ | .submitRenderedTarget _ _ => true
  | _ => false

variable {c : Composer}

/-- The transport is as before. -/
def SameTransport (c c' : Composer) : Prop := c'.transport = c.transport

theorem perform_apart {op : Operation} (h : op.apart = true) :
    Ends op.perform c (fun _ => SameTransport c) (SameTransport c) := by
  cases op with
  | setPowerMode display mode => exact ends_map (ends_of_atomic setPowerMode_spec rfl)
  | setVsyncEnabled display enabled => exact ends_map (ends_of_atomic setVsyncEnabled_spec rfl)
  | presentationSample timestampNanos => exact ends_map presentationSample_spec
  | createLayer display layer =>
    refine ends_map (ends_get_bind (ends_rejectIf_bind (fun _ => rfl) fun _ => ?_))
    exact ends_rejectIf_bind (fun _ => rfl) fun _ => ends_set rfl
  | updateLayer display layer =>
    refine ends_map (ends_get_bind (ends_rejectIf_bind (fun _ => rfl) fun _ => ?_))
    refine ends_bind (Q := fun _ c' => c' = c) (ends_okOr (fun _ => rfl) fun _ _ => rfl) ?_
    rintro existing _ rfl
    exact ends_ite (fun _ => ends_set rfl) fun _ => ends_pure rfl
  | layerState display layer =>
    refine ends_map (ends_get_bind (ends_rejectIf_bind (fun _ => rfl) fun _ => ?_))
    exact ends_okOr (fun _ => rfl) fun _ _ => rfl
  | destroyLayer display layer =>
    refine ends_map (ends_get_bind (ends_rejectIf_bind (fun _ => rfl) fun _ => ?_))
    exact ends_rejectIf_bind (fun _ => rfl) fun _ => ends_set rfl
  | validateDisplay display =>
    refine ends_map (ends_get_bind (ends_rejectIf_bind (fun _ => rfl) fun _ => ?_))
    dsimp only
    split
    · exact ends_throw rfl
    · exact ends_set_bind (ends_pure rfl)
  | acceptDisplayChanges display =>
    refine ends_map (ends_get_bind (requireCurrentValidation_then rfl fun _ _ => ?_))
    exact ends_rejectIf_bind (fun _ => rfl) fun _ => ends_set rfl
  | setClientTarget display target =>
    refine ends_map (ends_get_bind (ends_rejectIf_bind (fun _ => rfl) fun _ => ?_))
    exact ends_set rfl
  | presentDisplayDirect display =>
    refine ends_map (ends_get_bind (requireCurrentValidation_then rfl fun _ _ => ?_))
    refine ends_rejectIf_bind (fun _ => rfl) fun _ => ?_
    exact ends_rejectIf_bind (fun _ => rfl) fun _ => ends_set rfl
  | _ => cases h

/-- What an accepted frame tells of the transport before and after. -/
structure Accepted (t : PresentationState) (accepted : AcceptedFrame) (t' : PresentationState) :
    Prop where
  idle : accepted.buffer.id ∉ t.busyBuffers
  fresh : t.nextFrameId < accepted.frameId
  after : t' = t.accept accepted.frameId accepted.buffer.id

theorem accepted_of_submit {buffer : BufferMetadata} {damage : List Damage} {fence : Bool}
    {t : PresentationState} :
    Atomic (PresentationState.submit buffer damage fence) t fun accepted t' =>
      Accepted t accepted t' := by
  refine PresentationState.submit_spec.mono ?_
  rintro accepted t' ⟨configure, hcan, heq, rfl⟩
  have hbuffer : accepted.buffer = buffer := by rw [heq]
  refine ⟨hbuffer ▸ hcan.not_busy, hcan.fresh, by rw [hbuffer]⟩

theorem presentDisplay_accepts {display : DisplayId} :
    Ends (presentDisplay display) c (fun accepted c' => Accepted c.transport accepted c'.transport)
      (SameTransport c) := by
  refine ends_get_bind (requireCurrentValidation_then rfl fun _ _ => ?_)
  refine ends_rejectIf_bind (fun _ => rfl) fun _ => ?_
  refine ends_bind (Q := fun _ c' => c' = c) (ends_okOr (fun _ => rfl) fun _ _ => rfl) ?_
  rintro target _ rfl
  refine ends_set_bind (ends_bind (ends_of_atomic (onTransport_spec accepted_of_submit) rfl) ?_)
  rintro accepted _ ⟨t, ht, rfl⟩
  exact ends_modify_bind (ends_pure ht)

theorem submitRenderedTarget_accepts {display : DisplayId} {target : ClientTarget} :
    Ends (submitRenderedTarget display target) c
      (fun accepted c' => Accepted c.transport accepted c'.transport) (SameTransport c) := by
  refine ends_get_bind (ends_rejectIf_bind (fun _ => rfl) fun _ => ?_)
  refine ends_rejectIf_bind (fun _ => rfl) fun _ => ?_
  refine ends_of_atomic ((onTransport_spec accepted_of_submit).mono ?_) rfl
  rintro accepted _ ⟨t, ht, rfl⟩
  exact ht

theorem perform_submits {op : Operation} (h : op.submits = true) :
    Ends op.perform c
      (fun outcome c' => ∃ accepted, outcome = .frame accepted ∧
        Accepted c.transport accepted c'.transport) (SameTransport c) := by
  cases op with
  | presentDisplay display =>
    exact ends_map (presentDisplay_accepts.mono (fun a _ h => ⟨a, rfl, h⟩) fun _ h => h)
  | submitRenderedTarget display target =>
    exact ends_map (submitRenderedTarget_accepts.mono (fun a _ h => ⟨a, rfl, h⟩) fun _ h => h)
  | _ => cases h

theorem releasePresentedTarget_run {frame : FrameId} {buffer : BufferId}
    (h : c.transport.inFlight[frame]? = some buffer) :
    releasePresentedTarget frame true c =
      .ok { frameId := frame, bufferId := buffer, hasReleaseFence := true }
        { c with transport := c.transport.forget frame buffer } := by
  unfold releasePresentedTarget onTransport zoom PresentationState.release
  rw [get_bind_run, rejectIf_bind_run (by simp), okOr_bind_run h]
  rfl

theorem cancelUnsubmittedTarget_run {frame : FrameId} {buffer : BufferId}
    (h : c.transport.inFlight[frame]? = some buffer) :
    cancelUnsubmittedTarget frame c =
      .ok buffer { c with transport := c.transport.forget frame buffer } := by
  unfold cancelUnsubmittedTarget onTransport zoom PresentationState.cancelUnsubmitted
  rw [get_bind_run, okOr_bind_run h]
  rfl

end Composer

/-! ## The coupling -/

/-- What a `Present` record carries: its frame, its buffer and its timeline points. -/
structure Present where
  frame : FrameId
  buffer : BufferId
  acquirePoint : UInt64
  releasePoint : UInt64
deriving DecidableEq, Repr

def presentOf : AndroidMessage → Option Present
  | .present _ frame buffer _ acquirePoint releasePoint _ =>
    some ⟨frame, buffer, acquirePoint, releasePoint⟩
  | _ => none

/-- The frame that is in flight and has no release point. -/
inductive Open
  | settled
  /-- Accepted by the Composer, neither prepared nor cancelled. -/
  | submitted (accepted : AcceptedFrame)
  /-- Its present is cancelled, the Composer's frame not yet. -/
  | withdrawn (frame : FrameId)

def Open.frame : Open → Option FrameId
  | .settled => none
  | .submitted accepted => some accepted.frameId
  | .withdrawn frame => some frame

structure Coupled (b : DenialTaskBinding) (t : PresentationState) (o : Open)
    (presents : List Present) : Prop where
  consistent : t.Consistent
  acknowledged : ∀ serial, b.acknowledgedConfigure = some serial →
    t.latestConfigure.map (·.serial) = some serial ∧ t.acknowledgedSerial = some serial
  pending_iff : ∀ frame : FrameId, frame ∈ b.pendingReleasePoints ↔
    frame ∈ t.inFlight ∧ o.frame ≠ some frame
  held : ∀ frame, o.frame = some frame → frame ∈ t.inFlight
  submitted : ∀ accepted, o = .submitted accepted →
    t.inFlight[accepted.frameId]? = some accepted.buffer.id ∧
      ∀ p ∈ presents, p.frame < accepted.frameId
  points : TaskState.EndsAt (presents.map (·.releasePoint)) b.nextTimelinePoint
  paired : ∀ p ∈ presents, p.acquirePoint = p.releasePoint
  frames : (presents.map (·.frame)).Pairwise (· < ·)
  issued : ∀ p ∈ presents, p.frame ≤ t.nextFrameId
  own : ∀ (frame : FrameId) (point : UInt64), b.pendingReleasePoints[frame]? = some point →
    ∃ p ∈ presents, p.frame = frame ∧ p.releasePoint = point ∧ t.inFlight[frame]? = some p.buffer

namespace Coupled

variable {b : DenialTaskBinding} {t t' : PresentationState} {o : Open} {presents : List Present}

/-- The frames of the presents are distinct. -/
theorem present_ext (h : Coupled b t o presents) {p q : Present} (hp : p ∈ presents)
    (hq : q ∈ presents) (hframe : p.frame = q.frame) : p = q := by
  have hnodup : (presents.map (·.frame)).Nodup :=
    h.frames.imp fun hlt heq => by rw [heq] at hlt; exact UInt64.lt_irrefl _ hlt
  exact List.inj_on_of_nodup_map hnodup hp hq hframe

/-- **A pending point is the point of the frame's own present.** -/
theorem owned_iff (h : Coupled b t o presents) {frame : FrameId} {buffer : BufferId}
    {point : UInt64} :
    (b.pendingReleasePoints[frame]? = some point ∧ t.inFlight[frame]? = some buffer) ↔
      ⟨frame, buffer, point, point⟩ ∈ presents ∧ frame ∈ t.inFlight ∧ o.frame ≠ some frame := by
  constructor
  · rintro ⟨hpoint, hbuffer⟩
    obtain ⟨p, hp, rfl, rfl, hp'⟩ := h.own frame point hpoint
    obtain rfl : p.buffer = buffer := Option.some.inj (hp'.symm.trans hbuffer)
    have heq : (⟨p.frame, p.buffer, p.releasePoint, p.releasePoint⟩ : Present) = p :=
      congrArg (fun point => (⟨p.frame, p.buffer, point, p.releasePoint⟩ : Present))
        (h.paired p hp).symm
    have hpending : p.frame ∈ b.pendingReleasePoints :=
      ExtTreeMap.mem_iff_isSome_getElem?.mpr (by simp [hpoint])
    exact ⟨heq ▸ hp, (h.pending_iff p.frame).mp hpending⟩
  · rintro ⟨hmem, hflight⟩
    have hpending := (h.pending_iff frame).mpr hflight
    obtain ⟨point', hpoint⟩ := Option.isSome_iff_exists.mp
      (ExtTreeMap.mem_iff_isSome_getElem?.mp hpending)
    obtain ⟨p, hp, hframe, hpt, hbuffer⟩ := h.own frame point' hpoint
    obtain rfl := h.present_ext hp hmem hframe
    exact ⟨by rw [hpoint, ← hpt], hbuffer⟩

/-- The parts of the transport that the coupling reads are as before. -/
theorem of_eq (h : Coupled b t o presents) (hflight : t'.inFlight = t.inFlight)
    (hbusy : t'.busyBuffers = t.busyBuffers) (hnext : t'.nextFrameId = t.nextFrameId)
    (hlatest : t'.latestConfigure = t.latestConfigure)
    (hack : t'.acknowledgedSerial = t.acknowledgedSerial) : Coupled b t' o presents where
  consistent := h.consistent.of_eq hflight hbusy hnext
  acknowledged := by rw [hlatest, hack]; exact h.acknowledged
  pending_iff := by rw [hflight]; exact h.pending_iff
  held := by rw [hflight]; exact h.held
  submitted := by rw [hflight]; exact h.submitted
  points := h.points
  paired := h.paired
  frames := h.frames
  issued := by rw [hnext]; exact h.issued
  own := by rw [hflight]; exact h.own

/-- A configure resets the binding; the Composer may keep an acknowledgement of the same serial. -/
theorem configure (h : Coupled b t o presents) (latest : Configure) :
    Coupled { b with acknowledgedConfigure := none } (t.configure latest) o presents :=
  { h with
    consistent := h.consistent.of_eq rfl rfl rfl
    acknowledged := fun _ hserial => by cases hserial }

theorem acknowledge (h : Coupled b t o presents) {serial : UInt32}
    (hlatest : t.latestConfigure.map (·.serial) = some serial) :
    Coupled { b with acknowledgedConfigure := some serial }
      { t with acknowledgedSerial := some serial } o presents :=
  { h with
    consistent := h.consistent.of_eq rfl rfl rfl
    acknowledged := fun _ hserial => by
      obtain rfl := Option.some.inj hserial
      exact ⟨hlatest, rfl⟩ }

/-- A new frame is open. -/
theorem submit (h : Coupled b t .settled presents) {accepted : AcceptedFrame}
    (ha : Composer.Accepted t accepted t') : Coupled b t' (.submitted accepted) presents := by
  obtain ⟨hidle, hfresh, rfl⟩ := ha
  have hget : ∀ f : FrameId, (t.accept accepted.frameId accepted.buffer.id).inFlight[f]? =
      if f = accepted.frameId then some accepted.buffer.id else t.inFlight[f]? := by
    intro f
    show (t.inFlight.insert accepted.frameId accepted.buffer.id)[f]? = _
    grind
  have hnew : accepted.frameId ∉ t.inFlight := by
    intro hmem
    obtain ⟨buffer, hb⟩ := Option.isSome_iff_exists.mp
      (ExtTreeMap.mem_iff_isSome_getElem?.mp hmem)
    exact UInt64.not_lt.mpr (h.consistent.issued _ _ hb) hfresh
  refine { h with
    consistent := h.consistent.accept hidle hfresh
    pending_iff := fun frame => ?_
    held := fun frame hframe => ?_
    submitted := ?_
    issued := fun p hp => UInt64.le_of_lt (UInt64.lt_of_le_of_lt (h.issued p hp) hfresh)
    own := fun frame point hpoint => ?_ }
  · rw [h.pending_iff, ExtTreeMap.mem_iff_isSome_getElem?, ExtTreeMap.mem_iff_isSome_getElem?, hget]
    rw [ExtTreeMap.mem_iff_isSome_getElem?] at hnew
    by_cases heq : frame = accepted.frameId
    · subst heq
      simp [Open.frame, hnew]
    · simp [Open.frame, heq, Ne.symm heq]
  · obtain rfl := Option.some.inj hframe
    rw [ExtTreeMap.mem_iff_isSome_getElem?, hget, if_pos rfl]
    rfl
  · rintro _ ⟨⟩
    refine ⟨by rw [hget, if_pos rfl], fun p hp => UInt64.lt_of_le_of_lt (h.issued p hp) hfresh⟩
  · obtain ⟨p, hp, hframe, hpt, hflight⟩ := h.own frame point hpoint
    refine ⟨p, hp, hframe, hpt, ?_⟩
    rw [hget, if_neg]
    · exact hflight
    · rintro rfl
      exact hnew (ExtTreeMap.mem_iff_isSome_getElem?.mpr (by simp [hflight]))

/-- The open frame gets the next point. -/
theorem prepare {accepted : AcceptedFrame} (h : Coupled b t (.submitted accepted) presents)
    {point : UInt64} (hpoint : b.nextTimelinePoint < point) :
    Coupled { b with
        nextTimelinePoint := point
        pendingReleasePoints := b.pendingReleasePoints.insert accepted.frameId point }
      t .settled (presents ++ [⟨accepted.frameId, accepted.buffer.id, point, point⟩]) := by
  obtain ⟨hflight, hlast⟩ := h.submitted accepted rfl
  have hmem : accepted.frameId ∈ t.inFlight := h.held _ rfl
  refine { h with
    pending_iff := fun frame => ?_
    held := fun _ hframe => by cases hframe
    submitted := fun _ heq => by cases heq
    points := ?_
    paired := fun p hp => ?_
    frames := ?_
    issued := fun p hp => ?_
    own := fun frame point' hp => ?_ }
  · rw [ExtTreeMap.mem_insert, h.pending_iff]
    by_cases heq : accepted.frameId = frame
    · subst heq
      simp [Open.frame, hmem]
    · simp [Open.frame, heq]
  · rw [List.map_append]
    exact h.points.append hpoint
  · rcases List.mem_append.mp hp with hp | hp
    · exact h.paired p hp
    · rw [List.mem_singleton.mp hp]
  · rw [List.map_append, List.pairwise_append]
    refine ⟨h.frames, List.pairwise_singleton _ _, fun f hf g hg => ?_⟩
    obtain ⟨p, hp, rfl⟩ := List.mem_map.mp hf
    rw [List.mem_singleton.mp hg]
    exact hlast p hp
  · rcases List.mem_append.mp hp with hp | hp
    · exact h.issued p hp
    · rw [List.mem_singleton.mp hp]
      exact h.consistent.issued _ _ hflight
  · replace hp : (b.pendingReleasePoints.insert accepted.frameId point)[frame]? = some point' := hp
    rw [ExtTreeMap.getElem?_insert] at hp
    split at hp
    case isTrue heq =>
      obtain rfl := Std.compare_eq_iff_eq.mp heq
      obtain rfl := Option.some.inj hp
      exact ⟨_, List.mem_append_right _ (List.mem_singleton_self _), rfl, rfl, hflight⟩
    · obtain ⟨p, hmem, hrest⟩ := h.own frame point' hp
      exact ⟨p, List.mem_append_left _ hmem, hrest⟩

/-- The open frame leaves the Composer, whichever way it was open. -/
theorem drop (h : Coupled b t o presents) {frame : FrameId} {buffer : BufferId}
    (hopen : o.frame = some frame) (hflight : t.inFlight[frame]? = some buffer) :
    Coupled b (t.forget frame buffer) .settled presents := by
  refine { h with
    consistent := h.consistent.forget hflight
    pending_iff := fun f => ?_
    held := fun _ hframe => by cases hframe
    submitted := fun _ heq => by cases heq
    own := fun f point hp => ?_ }
  · show f ∈ b.pendingReleasePoints ↔ f ∈ t.inFlight.erase frame ∧ _
    rw [h.pending_iff, ExtTreeMap.mem_erase, hopen]
    simp [Open.frame, and_comm]
  · obtain ⟨p, hmem, hframe, hpt, hf⟩ := h.own f point hp
    refine ⟨p, hmem, hframe, hpt, ?_⟩
    have hne : frame ≠ f := by
      rintro rfl
      have hpending := (h.pending_iff frame).mp
        (ExtTreeMap.mem_iff_isSome_getElem?.mpr (by simp [hp]))
      exact hpending.2 hopen
    show (t.inFlight.erase frame)[f]? = _
    rw [ExtTreeMap.getElem?_erase, if_neg (by simpa using hne)]
    exact hf

/-- A cancelled present leaves its frame open. -/
theorem withdraw (h : Coupled b t .settled presents) {frame : FrameId} {point : UInt64}
    (hpoint : b.pendingReleasePoints[frame]? = some point) :
    Coupled { b with pendingReleasePoints := b.pendingReleasePoints.erase frame } t
      (.withdrawn frame) presents := by
  have hpending := (h.pending_iff frame).mp
    (ExtTreeMap.mem_iff_isSome_getElem?.mpr (by simp [hpoint]))
  refine { h with
    pending_iff := fun f => ?_
    held := fun f hf => ?_
    submitted := fun _ heq => by cases heq
    own := fun f point' hp => ?_ }
  · rw [ExtTreeMap.mem_erase, h.pending_iff]
    simp [Open.frame, and_comm]
  · obtain rfl := Option.some.inj hf
    exact hpending.1
  · replace hp : (b.pendingReleasePoints.erase frame)[f]? = some point' := hp
    rw [ExtTreeMap.getElem?_erase] at hp
    split at hp
    · cases hp
    · exact h.own f point' hp

/-- A release takes a frame and its point together. -/
theorem release (h : Coupled b t o presents) {frame : FrameId} {buffer : BufferId}
    (hopen : o.frame ≠ some frame) (hflight : t.inFlight[frame]? = some buffer) :
    Coupled { b with pendingReleasePoints := b.pendingReleasePoints.erase frame }
      (t.forget frame buffer) o presents := by
  have hget : ∀ f : FrameId, (t.inFlight.erase frame)[f]? =
      if frame = f then none else t.inFlight[f]? := by
    intro f
    grind
  refine { h with
    consistent := h.consistent.forget hflight
    pending_iff := fun f => ?_
    held := fun f hf => ?_
    submitted := fun accepted heq => ?_
    own := fun f point hp => ?_ }
  · show f ∈ b.pendingReleasePoints.erase frame ↔ f ∈ t.inFlight.erase frame ∧ _
    rw [ExtTreeMap.mem_erase, ExtTreeMap.mem_erase, h.pending_iff, and_assoc]
  · show f ∈ t.inFlight.erase frame
    rw [ExtTreeMap.mem_erase]
    refine ⟨?_, h.held f hf⟩
    simp only [ne_eq, Std.compare_eq_iff_eq]
    rintro rfl
    exact hopen hf
  · obtain ⟨hheld, hlast⟩ := h.submitted accepted heq
    refine ⟨?_, hlast⟩
    show (t.inFlight.erase frame)[accepted.frameId]? = _
    rw [hget, if_neg]
    · exact hheld
    · rintro rfl
      exact hopen (by rw [heq]; rfl)
  · replace hp : (b.pendingReleasePoints.erase frame)[f]? = some point := hp
    rw [ExtTreeMap.getElem?_erase] at hp
    split at hp
    · cases hp
    case isFalse hne =>
      obtain ⟨p, hmem, hframe, hpt, hf⟩ := h.own f point hp
      refine ⟨p, hmem, hframe, hpt, ?_⟩
      show (t.inFlight.erase frame)[f]? = _
      rw [hget, if_neg (by simpa using hne)]
      exact hf

end Coupled

/-! ## The methods of a slot -/

namespace Slot

variable {s : Slot} {o : Open} {presents : List Present} {α : Type}

def withComposer (s : Slot) (window : TaskWindow) (composer : Composer) : Slot :=
  { s with window := some { window with composer } }

theorem onComposer_run {x : Composer.Method α} {window : TaskWindow} {a : α} {c : Composer}
    (hw : s.window = some window) (hx : x window.composer = .ok a c) :
    onComposer x s = .ok a (s.withComposer window c) := by
  unfold onComposer
  rw [hw]
  dsimp only
  rw [hx]
  rfl

theorem onComposer_modify_bind {g : Composer → Composer} {f : PUnit → Method α}
    {R : α → Slot → Prop} {E : Slot → Prop} {window : TaskWindow} (hw : s.window = some window)
    (h : Ends (f ⟨⟩) (s.withComposer window (g window.composer)) R E) :
    Ends (onComposer (modify g) >>= f) s R E := by
  have hrun : onComposer (modify g) s = .ok ⟨⟩ (s.withComposer window (g window.composer)) :=
    onComposer_run hw rfl
  unfold Ends at h ⊢
  rw [bind_run_ok hrun]
  exact h

theorem onComposer_ends {x : Composer.Method α} {Q : α → Composer → Prop} {E : Composer → Prop}
    {window : TaskWindow} (hw : s.window = some window) (hx : Ends x window.composer Q E) :
    Ends (onComposer x) s (fun a s' => ∃ c, Q a c ∧ s' = s.withComposer window c)
      fun s' => ∃ c, E c ∧ s' = s.withComposer window c := by
  unfold Ends onComposer
  rw [hw]
  dsimp only
  cases hrun : x window.composer with
  | ok a c => exact ⟨c, hx.of_ok hrun, rfl⟩
  | error e c => exact ⟨c, hx.of_error hrun, rfl⟩

/-- The window is there, and its Composer agrees with the binding. -/
def Agrees (s : Slot) (o : Open) (presents : List Present) : Prop :=
  ∃ window, s.window = some window ∧
    Coupled s.channel.binding window.composer.transport o presents

/-- A method of the Composer that keeps the coupling. -/
theorem onComposer_agrees {x : Composer.Method α} {window : TaskWindow}
    {P : Composer → Prop} (hw : s.window = some window)
    (hx : Ends x window.composer (fun _ => P) P)
    (h : ∀ c, P c → Coupled s.channel.binding c.transport o presents) :
    Ends (onComposer x) s (fun _ s' => Agrees s' o presents) fun s' => Agrees s' o presents := by
  refine (onComposer_ends hw hx).mono ?_ ?_
  · rintro _ _ ⟨c, hc, rfl⟩
    exact ⟨_, rfl, h c hc⟩
  · rintro _ ⟨c, hc, rfl⟩
    exact ⟨_, rfl, h c hc⟩

/-- A release is accepted when frame, buffer and point are the ones recorded; a rejected one leaves
    no trace. -/
theorem bufferReleased_spec {object : TaskObjectId} {frame : FrameId} {buffer : BufferId}
    {point : UInt64} {window : TaskWindow} (hw : s.window = some window) :
    Atomic (applyEvent (.bufferReleased object frame buffer point)) s fun event s' =>
      (∃ released, event = .bufferReleased released) ∧
      object = s.channel.binding.object ∧
      s.channel.binding.pendingReleasePoints[frame]? = some point ∧
      window.composer.transport.inFlight[frame]? = some buffer ∧
      s' = (s.withComposer window { window.composer with
          transport := window.composer.transport.forget frame buffer }).withBinding
        { s.channel.binding with
          pendingReleasePoints := s.channel.binding.pendingReleasePoints.erase frame } := by
  refine atomic_get_bind (atomic_okOr_bind fun object' hobject => ?_)
  obtain rfl : object = object' := Option.some.inj hobject
  refine atomic_rejectIf_bind fun hmine => atomic_rejectIf_bind fun hpoint => ?_
  refine atomic_okOr_bind fun window' hw' => ?_
  obtain rfl : window = window' := Option.some.inj (hw.symm.trans hw')
  refine atomic_rejectIf_bind fun hbuffer => ?_
  rw [not_not] at hmine hpoint hbuffer
  unfold Atomic EStateM.run
  rw [bind_run_ok (onComposer_run hw (Composer.releasePresentedTarget_run hbuffer))]
  exact ⟨⟨_, rfl⟩, hmine, hpoint, hbuffer, rfl⟩

theorem bufferReleased_accepted {frame : FrameId} {buffer : BufferId} {point : UInt64}
    {window : TaskWindow} (hw : s.window = some window)
    (hpoint : s.channel.binding.pendingReleasePoints[frame]? = some point)
    (hflight : window.composer.transport.inFlight[frame]? = some buffer) :
    ∃ event s', applyEvent (.bufferReleased s.channel.binding.object frame buffer point) s =
      .ok event s' := by
  have hobject : (DenialMessage.bufferReleased s.channel.binding.object frame buffer
    point).taskObject = some s.channel.binding.object := rfl
  have hbuffer : ¬ window.composer.inFlightBuffer frame ≠ some buffer := not_not.mpr hflight
  unfold applyEvent
  rw [get_bind_run, okOr_bind_run hobject, rejectIf_bind_run (by simp)]
  dsimp only
  rw [rejectIf_bind_run (by simpa using hpoint), okOr_bind_run hw,
    rejectIf_bind_run hbuffer,
    bind_run_ok (onComposer_run hw (Composer.releasePresentedTarget_run hflight))]
  exact ⟨_, _, rfl⟩

/-- **Every host event keeps the agreement**, accepted or not. -/
theorem applyEvent_agrees (h : Agrees s o presents) (message : DenialMessage) :
    Ends (applyEvent message) s (fun _ s' => Agrees s' o presents)
      fun s' => Agrees s' o presents := by
  obtain ⟨window, hw, hc⟩ := id h
  by_cases hreleased : ∃ object frame buffer point,
      message = .bufferReleased object frame buffer point
  · obtain ⟨object, frame, buffer, point, rfl⟩ := hreleased
    refine ends_of_atomic ((bufferReleased_spec hw).mono ?_) h
    rintro _ _ ⟨-, -, hpoint, hflight, rfl⟩
    have hopen := ((hc.owned_iff).mp ⟨hpoint, hflight⟩).2.2
    exact ⟨_, rfl, hc.release hopen hflight⟩
  refine ends_get_bind (ends_bind (Q := fun _ s' => s' = s)
    (ends_okOr (fun _ => h) fun _ _ => rfl) ?_)
  rintro object _ rfl
  refine ends_rejectIf_bind (fun _ => h) fun _ => ?_
  cases message with
  | formatFeedback _ generation formats =>
    exact onComposer_modify_bind hw (ends_pure ⟨_, rfl, hc.of_eq rfl rfl rfl rfl rfl⟩)
  | configure _ serial width height scaleNumerator scaleDenominator transform refreshMillihz =>
    refine onComposer_modify_bind hw (ends_modify_bind (ends_pure ?_))
    exact ⟨_, rfl, hc.configure ⟨serial, width, height, refreshMillihz⟩⟩
  | bufferReleased object frame buffer point =>
    exact absurd ⟨object, frame, buffer, point, rfl⟩ hreleased
  | presented object frame timestampNanos refresh flags =>
    refine ends_bind (onComposer_agrees hw Composer.presentationSample_spec ?_) fun _ _ h' =>
      ends_pure h'
    intro c (hsame : c.transport = window.composer.transport)
    rw [hsame]
    exact hc
  | scenePresented object frame timestampNanos refresh flags =>
    refine ends_bind (onComposer_agrees hw Composer.presentationSample_spec ?_) fun _ _ h' =>
      ends_pure h'
    intro c (hsame : c.transport = window.composer.transport)
    rw [hsame]
    exact hc
  | insets => exact ends_pure h
  | visibility => exact ends_pure h
  | close => exact ends_pure h
  | input => exact ends_pure h
  | _ => exact ends_throw h

theorem bindingAcknowledge_agrees (h : Agrees s o presents) (serial : UInt32) :
    Ends (bindingAcknowledge serial) s (fun _ s' => Agrees s' o presents)
      fun s' => Agrees s' o presents := by
  obtain ⟨window, hw, hc⟩ := id h
  have hack := ends_of_atomic (E := fun c => c = window.composer)
    (Composer.onTransport_spec (@PresentationState.acknowledge_spec window.composer.transport serial))
    rfl
  refine ends_bind ((onComposer_ends hw hack).mono (fun _ _ h' => h') ?_) ?_
  · rintro _ ⟨_, rfl, rfl⟩
    exact ⟨_, rfl, hc⟩
  · rintro _ _ ⟨_, ⟨t, ⟨hlatest, rfl⟩, rfl⟩, rfl⟩
    exact ends_modify_bind (ends_get_bind (ends_pure ⟨_, rfl, hc.acknowledge hlatest⟩))

/-- The frame's point and record, or nothing. -/
theorem preparePresent_spec {display : DisplayId} {frame : AcceptedFrame} :
    Atomic (preparePresent display frame) s fun result s' =>
      s.channel.binding.nextTimelinePoint < result.2 ∧
      presentOf result.1 = some ⟨frame.frameId, frame.buffer.id, result.2, result.2⟩ ∧
      s' = s.withBinding { s.channel.binding with
        nextTimelinePoint := result.2
        pendingReleasePoints :=
          s.channel.binding.pendingReleasePoints.insert frame.frameId result.2 } :=
  atomic_get_bind (atomic_rejectIf_bind fun _ => atomic_okOr_bind fun _ _ =>
    atomic_okOr_bind fun _ hpoint => atomic_rejectIf_bind fun _ =>
    atomic_set_pure ⟨lt_of_checkedSucc hpoint, rfl, rfl⟩)

theorem cancelUnsubmittedPresent_spec {frame : FrameId} {point : UInt64} :
    Atomic (cancelUnsubmittedPresent frame point) s fun _ s' =>
      s.channel.binding.pendingReleasePoints[frame]? = some point ∧
      s' = s.withBinding { s.channel.binding with
        pendingReleasePoints := s.channel.binding.pendingReleasePoints.erase frame } :=
  atomic_get_bind (atomic_rejectIf_bind fun h => atomic_set ⟨not_not.mp h, rfl⟩)

/-- The Composer's half of a cancellation closes the open frame. -/
theorem cancelTarget_agrees (h : Agrees s o presents) {frame : FrameId}
    (hopen : o.frame = some frame) :
    Agrees (final (onComposer (Composer.cancelUnsubmittedTarget frame)) s) .settled presents := by
  obtain ⟨window, hw, hc⟩ := h
  obtain ⟨buffer, hflight⟩ := Option.isSome_iff_exists.mp
    (ExtTreeMap.mem_iff_isSome_getElem?.mp (hc.held frame hopen))
  unfold final
  rw [onComposer_run hw (Composer.cancelUnsubmittedTarget_run hflight)]
  exact ⟨_, rfl, hc.drop hopen hflight⟩

end Slot

/-! ## Runs -/

/-- A slot, the frame between two halves of an operation, and every `Present` so far. -/
structure Link where
  slot : Slot
  unsettled : Open
  presents : List Present

/-- A new binding and a new window. -/
structure Link.Initial (l : Link) : Prop where
  binding : ∃ object reservation, DenialTaskBinding.new object reservation =
    .ok l.slot.channel.binding
  window : ∃ window display, l.slot.window = some window ∧ window.composer = { display }
  settled : l.unsettled = .settled
  presents : l.presents = []

/-- **The calls on a binding and its Composer.**  A frame is submitted, or a present cancelled, only
    when no frame is open; everything else may happen at any time and may fail. -/
inductive Step (l : Link) : Link → Prop
  | apply (message : DenialMessage) :
      Step l { l with slot := final (Slot.applyEvent message) l.slot }
  | acknowledge (serial : UInt32) :
      Step l { l with slot := final (Slot.bindingAcknowledge serial) l.slot }
  | aside {op : Composer.Operation} (hop : op.apart = true) :
      Step l { l with slot := final (Slot.onComposer op.perform) l.slot }
  | refused {op : Composer.Operation} {e : DenialSinkError} {s : Slot} (hop : op.submits = true)
      (h : Slot.onComposer op.perform l.slot = .error e s) : Step l { l with slot := s }
  | submit {op : Composer.Operation} {accepted : AcceptedFrame} {s : Slot}
      (hop : op.submits = true) (hsettled : l.unsettled = .settled)
      (h : Slot.onComposer op.perform l.slot = .ok (.frame accepted) s) :
      Step l { l with slot := s, unsettled := .submitted accepted }
  | prepare {display : DisplayId} {accepted : AcceptedFrame} {message : AndroidMessage}
      {point : UInt64} {s : Slot} (hopen : l.unsettled = .submitted accepted)
      (h : Slot.preparePresent display accepted l.slot = .ok (message, point) s) :
      Step l ⟨s, .settled, l.presents ++ (presentOf message).toList⟩
  | unprepared {display : DisplayId} {accepted : AcceptedFrame} {e : DenialSinkError} {s : Slot}
      (h : Slot.preparePresent display accepted l.slot = .error e s) : Step l { l with slot := s }
  | withdraw {frame : FrameId} {point : UInt64} {s : Slot} (hsettled : l.unsettled = .settled)
      (h : Slot.cancelUnsubmittedPresent frame point l.slot = .ok () s) :
      Step l { l with slot := s, unsettled := .withdrawn frame }
  | unwithdrawn {frame : FrameId} {point : UInt64} {e : DenialSinkError} {s : Slot}
      (h : Slot.cancelUnsubmittedPresent frame point l.slot = .error e s) :
      Step l { l with slot := s }
  | cancel {frame : FrameId} (hopen : l.unsettled.frame = some frame) :
      Step l { l with
        slot := final (Slot.onComposer (Composer.cancelUnsubmittedTarget frame)) l.slot
        unsettled := .settled }

/-- The agreement of a link. -/
def Link.Agreed (l : Link) : Prop := l.slot.Agrees l.unsettled l.presents

theorem Link.Initial.agreed {l : Link} (h : l.Initial) : l.Agreed := by
  obtain ⟨⟨object, reservation, hnew⟩, ⟨window, display, hw, hcomposer⟩, hsettled, hpresents⟩ := h
  have hbinding : l.slot.channel.binding =
      { object, task := none, display := reservation.display, package := reservation.package,
        acknowledgedConfigure := none, nextTimelinePoint := 0, pendingReleasePoints := ∅,
        destroyRequested := false } := by
    unfold DenialTaskBinding.new at hnew
    simp only [bind_eq_ok, rejectIf_eq_ok, pure_eq_ok] at hnew
    obtain ⟨_, -, heq⟩ := hnew
    exact heq.symm
  refine ⟨window, hw, ?_⟩
  rw [hcomposer, hbinding, hsettled, hpresents]
  exact {
    consistent := PresentationState.consistent_new
    acknowledged := fun _ hserial => by cases hserial
    pending_iff := fun frame => by simp
    held := fun _ hframe => by cases hframe
    submitted := fun _ heq => by cases heq
    points := ⟨List.Pairwise.nil, rfl⟩
    paired := fun _ hp => by cases hp
    frames := List.Pairwise.nil
    issued := fun _ hp => by cases hp
    own := fun frame point hp => by simp at hp }

/-- **One call keeps the agreement.** -/
theorem Link.Agreed.step {l l' : Link} (h : l.Agreed) (hstep : Step l l') : l'.Agreed := by
  obtain ⟨window, hw, hc⟩ := id h
  cases hstep with
  | apply message => exact (Slot.applyEvent_agrees h message).final fun _ _ h' => h'
  | acknowledge serial => exact (Slot.bindingAcknowledge_agrees h serial).final fun _ _ h' => h'
  | aside hop =>
    refine (Slot.onComposer_agrees hw (Composer.perform_apart hop) ?_).final fun _ _ h' => h'
    intro c (hsame : c.transport = window.composer.transport)
    rw [hsame]
    exact hc
  | refused hop hrun =>
    obtain ⟨c, hsame, rfl⟩ := (Slot.onComposer_ends hw (Composer.perform_submits hop)).of_error hrun
    refine ⟨_, rfl, ?_⟩
    show Coupled l.slot.channel.binding c.transport l.unsettled l.presents
    rw [show c.transport = window.composer.transport from hsame]
    exact hc
  | submit hop hsettled hrun =>
    obtain ⟨c, ⟨_, hframe, haccepted⟩, rfl⟩ :=
      (Slot.onComposer_ends hw (Composer.perform_submits hop)).of_ok hrun
    cases hframe
    rw [hsettled] at hc
    exact ⟨_, rfl, hc.submit haccepted⟩
  | prepare hopen hrun =>
    obtain ⟨hpoint, hpresent, rfl⟩ := Slot.preparePresent_spec.of_ok hrun
    dsimp only at hpresent
    rw [hpresent]
    rw [hopen] at hc
    exact ⟨window, hw, hc.prepare hpoint⟩
  | unprepared hrun =>
    rw [Slot.preparePresent_spec.of_error hrun]
    exact h
  | withdraw hsettled hrun =>
    obtain ⟨hpoint, rfl⟩ := Slot.cancelUnsubmittedPresent_spec.of_ok hrun
    rw [hsettled] at hc
    exact ⟨window, hw, hc.withdraw hpoint⟩
  | unwithdrawn hrun =>
    rw [Slot.cancelUnsubmittedPresent_spec.of_error hrun]
    exact h
  | cancel hopen => exact Slot.cancelTarget_agrees h hopen

/-- **Binding and Composer agree after every run.**  An acknowledged configure of the binding is the
    Composer's latest one, acknowledged there too; the frames that wait for a release point are the
    frames in flight, up to the one that is open; the points of the presents increase strictly; and
    a release is accepted for exactly the frames in flight with their own buffer and point, and
    rejected without a trace otherwise. -/
theorem binding_agrees (start l : Link) (hstart : start.Initial)
    (hrun : Relation.ReflTransGen Step start l) :
    ∃ window, l.slot.window = some window ∧
      let b := l.slot.channel.binding
      let t := window.composer.transport
      (∀ serial, b.acknowledgedConfigure = some serial →
        t.latestConfigure.map (·.serial) = some serial ∧ t.acknowledgedSerial = some serial) ∧
      (∀ frame : FrameId, frame ∈ b.pendingReleasePoints ↔
        frame ∈ t.inFlight ∧ l.unsettled.frame ≠ some frame) ∧
      (TaskState.EndsAt (l.presents.map (·.releasePoint)) b.nextTimelinePoint ∧
        ∀ p ∈ l.presents, p.acquirePoint = p.releasePoint) ∧
      ∀ (object : TaskObjectId) (frame : FrameId) (buffer : BufferId) (point : UInt64),
        let released := Slot.applyEvent (.bufferReleased object frame buffer point)
        ((∃ event s', released l.slot = .ok event s') ↔
          object = b.object ∧ ⟨frame, buffer, point, point⟩ ∈ l.presents ∧ frame ∈ t.inFlight ∧
            l.unsettled.frame ≠ some frame) ∧
        ∀ e s', released l.slot = .error e s' → s' = l.slot := by
  obtain ⟨window, hw, hc⟩ := reached_invariant Link.Agreed Link.Agreed.step hstart.agreed hrun
  refine ⟨window, hw, hc.acknowledged, hc.pending_iff, ⟨hc.points, hc.paired⟩, ?_⟩
  intro object frame buffer point released
  refine ⟨⟨?_, ?_⟩, fun e s' he => (Slot.bufferReleased_spec hw).of_error he⟩
  · rintro ⟨event, s', hok⟩
    obtain ⟨-, hobject, hpoint, hflight, -⟩ := (Slot.bufferReleased_spec hw).of_ok hok
    exact ⟨hobject, hc.owned_iff.mp ⟨hpoint, hflight⟩⟩
  · rintro ⟨rfl, howned⟩
    obtain ⟨hpoint, hflight⟩ := hc.owned_iff.mpr howned
    exact Slot.bufferReleased_accepted hw hpoint hflight

/-- A new task on display 1. -/
def newLink : Link where
  slot := {
    channel := { binding := {
      object := 3, task := none, display := 1, package := "a.b", acknowledgedConfigure := none
      nextTimelinePoint := 0, pendingReleasePoints := ∅, destroyRequested := false } }
    window := some {
      reservation := { display := 1, package := "a.b" }, spec := none, composer := { display := 1 } }
    sent := [] }
  unsettled := .settled
  presents := []

/-- A configured target of the host. -/
def sampleTarget : ClientTarget where
  buffer := {
    id := 7, width := 64, height := 64, format := { fourcc := 0x34325258, modifier := 0 }
    planes := [{ index := 0, offset := 0, stride := 256 }] }
  damage := []
  hasAcquireFence := true

/-- One frame is submitted and prepared; its release is accepted. -/
theorem binding_agrees_frame :
    newLink.Initial ∧ ∃ l, Relation.ReflTransGen Step newLink l ∧ l.presents = [⟨1, 7, 1, 1⟩] ∧
      ∃ event s', Slot.applyEvent (.bufferReleased 3 1 7 1) l.slot = .ok event s' := by
  have hstart : newLink.Initial :=
    ⟨⟨3, ⟨1, "a.b"⟩, rfl⟩, ⟨_, 1, rfl, rfl⟩, rfl, rfl⟩
  have h₁ := Relation.ReflTransGen.single (@Step.aside newLink (.setPowerMode 1 .on) rfl)
  have h₂ := h₁.tail (.apply (.formatFeedback 3 1 [{ fourcc := 0x34325258, modifier := 0 }]))
  have h₃ := h₂.tail (.apply (.configure 3 1 64 64 1 1 .normal 60000))
  have h₄ := h₃.tail (.acknowledge 1)
  have h₅ := h₄.tail (@Step.submit _ (.submitRenderedTarget 1 sampleTarget) _ _ rfl rfl rfl)
  have h₆ := h₅.tail (@Step.prepare _ 1 _ _ _ _ rfl rfl)
  refine ⟨hstart, _, h₆, rfl, ?_⟩
  obtain ⟨window, hw, -, -, -, hreleased⟩ := binding_agrees newLink _ hstart h₆
  refine (hreleased 3 1 7 1).1.mpr ⟨rfl, ?_, ?_, by simp [Open.frame]⟩
  · exact List.mem_singleton_self _
  · cases hw
    decide +kernel

end Droidloom.Graphics
