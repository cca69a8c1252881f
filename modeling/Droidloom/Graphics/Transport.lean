/-
  The Composer's presentation state over whole runs (`PresentationState`).

  A frame number is handed out by a successful `submit` only, and is the successor of the last one,
  so that no release or cancellation can bring one back.  The map of frames in flight and the set of
  busy buffers are kept by separate statements of the code, which only ASSERTS that they agree; that
  they do is the invariant.
-/
import Droidloom.Graphics.Composer
import Droidloom.Protocol.Configures

namespace Droidloom.Graphics.PresentationState

open Std Fallible

variable {s : PresentationState}

/-! ## The invariant -/

/-- Frames in flight and busy buffers say the same, and no frame in flight is yet to come. -/
structure Consistent (s : PresentationState) : Prop where
  distinct : ∀ (f g : FrameId) (b : BufferId), s.inFlight[f]? = some b →
    s.inFlight[g]? = some b → f = g
  busy_iff : ∀ b, b ∈ s.busyBuffers ↔ ∃ f : FrameId, s.inFlight[f]? = some b
  issued : ∀ (f : FrameId) (b : BufferId), s.inFlight[f]? = some b → f ≤ s.nextFrameId

theorem consistent_new : Consistent {} where
  distinct := fun f g b h => by simp at h
  busy_iff := fun b => by simp
  issued := fun f b h => by simp at h

/-- Only the collections and the counter matter. -/
theorem Consistent.of_eq {t : PresentationState} (h : Consistent s)
    (hflight : t.inFlight = s.inFlight) (hbusy : t.busyBuffers = s.busyBuffers)
    (hnext : t.nextFrameId = s.nextFrameId) : Consistent t where
  distinct := by rw [hflight]; exact h.distinct
  busy_iff := by rw [hflight, hbusy]; exact h.busy_iff
  issued := by rw [hflight, hnext]; exact h.issued

/-- A new frame takes an idle buffer. -/
theorem Consistent.accept (h : Consistent s) {frame : FrameId} {buffer : BufferId}
    (hidle : buffer ∉ s.busyBuffers) (hfresh : s.nextFrameId < frame) :
    Consistent (s.accept frame buffer) := by
  have hother : ∀ f : FrameId, s.inFlight[f]? ≠ some buffer :=
    fun f hf => hidle ((h.busy_iff buffer).mpr ⟨f, hf⟩)
  have hold : ∀ (f : FrameId) (b : BufferId), s.inFlight[f]? = some b → f ≠ frame := by
    rintro f b hf rfl
    exact UInt64.not_lt.mpr (h.issued f b hf) hfresh
  have hget : ∀ f : FrameId, (s.inFlight.insert frame buffer)[f]? =
      if f = frame then some buffer else s.inFlight[f]? := by
    intro f
    grind
  refine ⟨fun f g b hf hg => ?_, fun b => ?_, fun f b hf => ?_⟩
  · have hf : (s.inFlight.insert frame buffer)[f]? = some b := hf
    have hg : (s.inFlight.insert frame buffer)[g]? = some b := hg
    have hsame := h.distinct f g b
    have hf' := hother f
    have hg' := hother g
    grind
  · show b ∈ insert buffer s.busyBuffers ↔
      ∃ f : FrameId, (s.inFlight.insert frame buffer)[f]? = some b
    rw [Finset.mem_insert, h.busy_iff]
    constructor
    · rintro (rfl | ⟨f, hf⟩)
      · exact ⟨frame, by rw [hget, if_pos rfl]⟩
      · exact ⟨f, by rw [hget, if_neg (hold f b hf)]; exact hf⟩
    · rintro ⟨f, hf⟩
      rw [hget] at hf
      split at hf
      · exact .inl (Option.some.inj hf).symm
      · exact .inr ⟨f, hf⟩
  · have hf : (s.inFlight.insert frame buffer)[f]? = some b := hf
    rw [hget] at hf
    show f ≤ frame
    split at hf
    case isTrue heq => exact heq ▸ UInt64.le_refl _
    · exact UInt64.le_of_lt (UInt64.lt_of_le_of_lt (h.issued f b hf) hfresh)

/-- A frame leaves together with its buffer, which no other frame holds. -/
theorem Consistent.forget (h : Consistent s) {frame : FrameId} {buffer : BufferId}
    (hframe : s.inFlight[frame]? = some buffer) : Consistent (s.forget frame buffer) := by
  have hget : ∀ f : FrameId, (s.inFlight.erase frame)[f]? =
      if f = frame then none else s.inFlight[f]? := by
    intro f
    grind
  refine ⟨fun f g b hf hg => ?_, fun b => ?_, fun f b hf => ?_⟩
  · have hf : (s.inFlight.erase frame)[f]? = some b := hf
    have hg : (s.inFlight.erase frame)[g]? = some b := hg
    exact h.distinct f g b (by grind) (by grind)
  · show b ∈ s.busyBuffers.erase buffer ↔ ∃ f : FrameId, (s.inFlight.erase frame)[f]? = some b
    rw [Finset.mem_erase, h.busy_iff]
    constructor
    · rintro ⟨hne, f, hf⟩
      refine ⟨f, ?_⟩
      rw [hget, if_neg]
      · exact hf
      · rintro rfl
        exact hne (Option.some.inj (hf.symm.trans hframe))
    · rintro ⟨f, hf⟩
      rw [hget] at hf
      split at hf
      · cases hf
      case isFalse hne =>
        refine ⟨?_, f, hf⟩
        rintro rfl
        exact hne (h.distinct f frame b hf hframe)
  · have hf : (s.inFlight.erase frame)[f]? = some b := hf
    rw [hget] at hf
    split at hf
    · cases hf
    · exact h.issued f b hf

/-! ## Runs -/

inductive Operation
  | replaceFeedback (formats : List FormatModifier)
  | configure (latest : Configure)
  | acknowledge (serial : UInt32)
  | submit (buffer : BufferMetadata) (damage : List Damage) (hasAcquireFence : Bool)
  | release (frame : FrameId) (hasReleaseFence : Bool)
  | cancelUnsubmitted (frame : FrameId)

/-- The operation, with the number of the frame that it submitted. -/
def Operation.perform : Operation → Method (Option FrameId)
  | .replaceFeedback formats => do
    modify fun s => s.replaceFeedback formats
    return none
  | .configure latest => do
    modify fun s => s.configure latest
    return none
  | .acknowledge serial => (fun _ => none) <$> PresentationState.acknowledge serial
  | .submit buffer damage hasAcquireFence =>
    (fun accepted => some accepted.frameId) <$>
      PresentationState.submit buffer damage hasAcquireFence
  | .release frame hasReleaseFence =>
    (fun _ => none) <$> PresentationState.release frame hasReleaseFence
  | .cancelUnsubmitted frame => (fun _ => none) <$> PresentationState.cancelUnsubmitted frame

/-- One operation, paired with the frame numbers handed out so far. -/
def execute (run : PresentationState × List FrameId) (op : Operation) :
    PresentationState × List FrameId :=
  match op.perform.run run.1 with
  | .ok frame s' => (s', run.2 ++ frame.toList)
  | .error _ s' => (s', run.2)

/-- **One operation**: it fails without a trace, or keeps the invariant and hands out no number but
    one above all before. -/
theorem perform_spec (h : Consistent s) (op : Operation) :
    Atomic op.perform s fun frame s' => Consistent s' ∧
      match frame with
      | none => s'.nextFrameId = s.nextFrameId
      | some number => s.nextFrameId < number ∧ s'.nextFrameId = number := by
  cases op with
  | replaceFeedback formats => exact ⟨h.of_eq rfl rfl rfl, rfl⟩
  | configure latest => exact ⟨h.of_eq rfl rfl rfl, rfl⟩
  | acknowledge serial =>
    refine atomic_map (acknowledge_spec.mono ?_)
    rintro _ s' ⟨-, rfl⟩
    exact ⟨h.of_eq rfl rfl rfl, rfl⟩
  | submit buffer damage hasAcquireFence =>
    refine atomic_map (submit_spec.mono ?_)
    rintro accepted s' ⟨_, hcan, -, rfl⟩
    exact ⟨h.accept hcan.not_busy hcan.fresh, hcan.fresh, rfl⟩
  | release frame hasReleaseFence =>
    refine atomic_map (release_spec.mono ?_)
    rintro _ s' ⟨hframe, -, rfl⟩
    exact ⟨h.forget hframe, rfl⟩
  | cancelUnsubmitted frame =>
    refine atomic_map (cancelUnsubmitted_spec.mono ?_)
    rintro _ s' ⟨hframe, rfl⟩
    exact ⟨h.forget hframe, rfl⟩

/-- The run's invariant: the state's own, and the numbers increase up to the counter. -/
structure RunKept (run : PresentationState × List FrameId) : Prop where
  state : Consistent run.1
  frames : TaskState.EndsAt run.2 run.1.nextFrameId

theorem RunKept.execute {run : PresentationState × List FrameId} (h : RunKept run)
    (op : Operation) : RunKept (execute run op) := by
  have hspec := perform_spec h.state op
  unfold PresentationState.execute
  cases hresult : op.perform.run run.1 with
  | error e s' =>
    rw [hspec.of_error hresult]
    exact h
  | ok frame s' =>
    obtain ⟨hstate, hframe⟩ := hspec.of_ok hresult
    cases frame with
    | none =>
      refine ⟨hstate, ?_⟩
      show TaskState.EndsAt (run.2 ++ []) s'.nextFrameId
      rw [List.append_nil, hframe]
      exact h.frames
    | some number =>
      refine ⟨hstate, ?_⟩
      show TaskState.EndsAt (run.2 ++ [number]) s'.nextFrameId
      rw [hframe.2]
      exact h.frames.append hframe.1

theorem runKept_foldl (ops : List Operation) {run : PresentationState × List FrameId}
    (h : RunKept run) : RunKept (ops.foldl execute run) := by
  induction ops generalizing run with
  | nil => exact h
  | cons op ops ih => exact ih (h.execute op)

/-! ## Submissions -/

/-- The fence that the adapter holds is asked for. -/
theorem submit_fenced {buffer : BufferMetadata} {damage : List Damage} {hasAcquireFence : Bool} :
    Atomic (submit buffer damage hasAcquireFence) s fun _ _ => hasAcquireFence = true := by
  refine atomic_get_bind (atomic_okOr_bind fun configure hconfigure =>
    atomic_rejectIf_bind fun _ => atomic_mapErr_bind fun _ _ =>
    atomic_rejectIf_bind fun _ => atomic_rejectIf_bind fun _ =>
    atomic_rejectIf_bind fun hfence => atomic_rejectIf_bind fun _ =>
    atomic_rejectIf_bind fun _ => atomic_okOr_bind fun frame _ => atomic_set_pure ?_)
  simpa using hfence

/-- What a submission that succeeds was checked for. -/
structure Submitted (s : PresentationState) (buffer : BufferMetadata) (damage : List Damage)
    (hasAcquireFence : Bool) (configure : Configure) : Prop where
  latest : s.latestConfigure = some configure
  acknowledged : s.acknowledgedSerial = some configure.serial
  size : buffer.width = configure.width ∧ buffer.height = configure.height
  format : buffer.format ∈ s.feedback
  fence : hasAcquireFence = true
  damage : ∀ rect ∈ damage, TaskState.Damage.Inside rect buffer.width buffer.height

theorem submitted_of_ok {buffer : BufferMetadata} {damage : List Damage} {hasAcquireFence : Bool}
    {accepted : AcceptedFrame} {s' : PresentationState}
    (h : (submit buffer damage hasAcquireFence).run s = .ok accepted s') :
    ∃ configure, Submitted s buffer damage hasAcquireFence configure := by
  obtain ⟨configure, hcan, -, -⟩ := submit_spec.of_ok h
  refine ⟨configure, hcan.configure_eq, hcan.acknowledged, by simpa using hcan.size_eq,
    hcan.format_mem, submit_fenced.of_ok h, fun rect hrect => ?_⟩
  have hfits := List.all_eq_true.mp hcan.damage_fits rect hrect
  rw [damageFits_eq] at hfits
  exact TaskState.inside_of_damageInside hfits

/-- **The presentation state over whole runs.**  After every sequence of operations the busy set is
    the set of the buffers in flight, each held by one frame; the numbers handed out increase
    strictly; a submission succeeds only at the size of the latest configure, acknowledged, with a
    supported format, a fence and damage inside; an operation that fails changes nothing; and a
    frame in flight has its buffer in the busy set. -/
theorem presentation_kept (ops : List Operation) :
    let run := ops.foldl execute ({}, [])
    Consistent run.1 ∧ TaskState.EndsAt run.2 run.1.nextFrameId ∧
      (∀ buffer damage hasAcquireFence accepted s',
        (submit buffer damage hasAcquireFence).run run.1 = .ok accepted s' →
          ∃ configure, Submitted run.1 buffer damage hasAcquireFence configure) ∧
      (∀ (op : Operation) (e : TransportError) (s' : PresentationState),
        op.perform.run run.1 = .error e s' → s' = run.1) ∧
      ∀ (frame : FrameId) (buffer : BufferId), run.1.inFlight[frame]? = some buffer →
        buffer ∈ run.1.busyBuffers := by
  have h := @runKept_foldl ops ({}, []) ⟨consistent_new, List.Pairwise.nil, rfl⟩
  intro run
  refine ⟨h.state, h.frames, fun _ _ _ _ _ => submitted_of_ok,
    fun op e s' he => (perform_spec h.state op).of_error he, fun frame buffer hframe => ?_⟩
  exact (h.state.busy_iff buffer).mpr ⟨frame, hframe⟩

end Droidloom.Graphics.PresentationState
