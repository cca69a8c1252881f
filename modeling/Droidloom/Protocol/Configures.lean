/-
  Presents, configures and acknowledgements over whole runs of `TaskPresentationState`.

  The fields of the state are read off the HISTORY of accepted operations, newest first: the last
  configure, the last feedback, which buffers are registered, which frames are in flight.  One field
  has no such reading.  `acknowledgedSerial` outlives a configure that repeats its serial, also one
  with another size, so that a present may be accepted at a size nobody acknowledged; it can not in
  a run whose configures keep the size of an acknowledged serial (`Operation.keepsSize`).

  Serials wrap.  What the host issues is counted here without a bound (`ticks`), and the code sees
  the count modulo 2^32: of the other 2^32 - 1 values, the 2^31 - 1 below the current serial are
  superseded and the 2^31 above it are in the future.
-/
import Droidloom.Protocol.TaskState

namespace Droidloom.TaskState

open Std Fallible

/-! ## Histories -/

/-- The size that an operation configures. -/
def Operation.size? : Operation → Option (UInt32 × UInt32)
  | .configure _ width height _ => some (width, height)
  | _ => none

/-- Serial, width and height of the latest configure. -/
def configured : List Operation → Option (UInt32 × UInt32 × UInt32)
  | [] => none
  | .configure serial width height _ :: _ => some (serial, width, height)
  | _ :: earlier => configured earlier

def latestFeedback : List Operation → Finset FormatModifier
  | [] => ∅
  | .replaceFeedback _ formats :: _ => formats.toFinset
  | _ :: earlier => latestFeedback earlier

def boundTimelines : List Operation → Bool
  | [] => false
  | .bindTimelines :: _ => true
  | _ :: earlier => boundTimelines earlier

/-- What a buffer was last registered as, unless it has been unregistered since. -/
def registration (buffer : BufferId) : List Operation → Option BufferMetadata
  | [] => none
  | .registerBuffer metadata :: earlier =>
    if metadata.id = buffer then some metadata else registration buffer earlier
  | .unregisterBuffer retired :: earlier =>
    if retired = buffer then none else registration buffer earlier
  | _ :: earlier => registration buffer earlier

/-- The frame as it was presented, unless it has been released or cancelled since. -/
def presented (frame : FrameId) : List Operation → Option PendingWireFrame
  | [] => none
  | .present _ shown buffer _ _ releasePoint _ :: earlier =>
    if shown = frame then some { buffer, releasePoint } else presented frame earlier
  | .release done _ _ :: earlier | .cancelUnsubmitted done _ _ :: earlier =>
    if done = frame then none else presented frame earlier
  | _ :: earlier => presented frame earlier

/-- The serial was acknowledged while the size was this one, and no configure has changed the size
    since. -/
def AcknowledgedAt (history : List Operation) (serial width height : UInt32) : Prop :=
  ∃ later earlier, history = later ++ .acknowledgeConfigure serial :: earlier ∧
    configured earlier = some (serial, width, height) ∧
    ∀ op ∈ later, ∀ size, op.size? = some size → size = (width, height)

/-- One operation on the state, paired with what was accepted so far, newest first. -/
def record (run : TaskPresentationState × List Operation) (op : Operation) :
    TaskPresentationState × List Operation :=
  match op.perform.run run.1 with
  | .ok _ s' => (s', op :: run.2)
  | .error _ s' => (s', run.2)

/-- A configure does not change the size of the serial that is acknowledged. -/
def Operation.keepsSize (s : TaskPresentationState) : Operation → Bool
  | .configure serial width height _ =>
    s.acknowledgedSerial ≠ some serial || s.configure = some (serial, width, height)
  | _ => true

/-- Every operation of a run keeps the size. -/
def keepsSizeAlong (run : TaskPresentationState × List Operation) : List Operation → Bool
  | [] => true
  | op :: ops => op.keepsSize run.1 && keepsSizeAlong (record run op) ops

/-! ## The state is its history -/

structure Recorded (history : List Operation) (s : TaskPresentationState) : Prop where
  configured : s.configure = configured history
  feedback : s.feedback = latestFeedback history
  timelines : s.timelinesBound = boundTimelines history
  registered : ∀ buffer : BufferId, s.buffers[buffer]? = registration buffer history
  inFlight : ∀ frame : FrameId, s.inFlight[frame]? = presented frame history

section Steps

variable {history : List Operation} {s : TaskPresentationState}

theorem Recorded.perform (h : Recorded history s) (op : Operation) :
    Atomic op.perform s fun _ s' => Recorded (op :: history) s' := by
  cases op with
  | bindTimelines =>
    refine bindTimelines_spec.mono ?_
    rintro _ s' ⟨-, rfl⟩
    exact ⟨h.configured, h.feedback, rfl, h.registered, h.inFlight⟩
  | replaceFeedback generation formats =>
    refine replaceFeedback_spec.mono ?_
    rintro _ s' ⟨-, rfl⟩
    exact ⟨h.configured, rfl, h.timelines, h.registered, h.inFlight⟩
  | configure serial width height refreshMillihz =>
    refine configure_spec.mono ?_
    rintro _ s' rfl
    exact ⟨rfl, h.feedback, h.timelines, h.registered, h.inFlight⟩
  | acknowledgeConfigure serial =>
    refine acknowledgeConfigure_spec.mono ?_
    rintro _ s' ⟨_, _, _, -, ⟨-, rfl⟩ | ⟨-, rfl⟩⟩
    · exact ⟨h.configured, h.feedback, h.timelines, h.registered, h.inFlight⟩
    · exact ⟨h.configured, h.feedback, h.timelines, h.registered, h.inFlight⟩
  | registerBuffer metadata =>
    refine registerBuffer_spec.mono ?_
    rintro _ s' ⟨-, -, rfl⟩
    refine ⟨h.configured, h.feedback, h.timelines, fun buffer => ?_, h.inFlight⟩
    have hold := h.registered buffer
    simp only [registration]
    grind
  | unregisterBuffer retired =>
    refine unregisterBuffer_spec.discard.mono ?_
    rintro _ s' ⟨_, -, -, rfl⟩
    refine ⟨h.configured, h.feedback, h.timelines, fun buffer => ?_, h.inFlight⟩
    have hold := h.registered buffer
    simp only [registration]
    grind
  | present object shown buffer configureSerial acquirePoint releasePoint damage =>
    refine present_spec.discard.mono ?_
    rintro _ s' ⟨_, -, rfl, -⟩
    refine ⟨h.configured, h.feedback, h.timelines, h.registered, fun frame => ?_⟩
    have hold := h.inFlight frame
    simp only [presented, acceptFrame]
    grind
  | discardSupersededPresent object frame buffer configureSerial acquirePoint releasePoint =>
    refine discardSupersededPresent_spec.discard.mono ?_
    rintro _ s' ⟨_, -, rfl, -⟩
    exact ⟨h.configured, h.feedback, h.timelines, h.registered, h.inFlight⟩
  | release done buffer releasePoint =>
    refine release_spec.discard.mono ?_
    rintro _ s' ⟨_, -, rfl, -⟩
    refine ⟨h.configured, h.feedback, h.timelines, h.registered, fun frame => ?_⟩
    have hold := h.inFlight frame
    simp only [presented, dropFrame]
    grind
  | cancelUnsubmitted done buffer releasePoint =>
    refine cancelUnsubmitted_spec.mono ?_
    rintro _ s' ⟨-, rfl⟩
    refine ⟨h.configured, h.feedback, h.timelines, h.registered, fun frame => ?_⟩
    have hold := h.inFlight frame
    simp only [presented, dropFrame]
    grind

/-- An acknowledged serial is the current one, and it was acknowledged at the current size. -/
def Acknowledged (history : List Operation) (s : TaskPresentationState) : Prop :=
  ∀ serial, s.acknowledgedSerial = some serial →
    ∃ width height, s.configure = some (serial, width, height) ∧
      AcknowledgedAt history serial width height

/-- What happened stays so when an operation follows that configures no other size. -/
theorem AcknowledgedAt.cons {serial width height : UInt32}
    (h : AcknowledgedAt history serial width height) {op : Operation}
    (hop : ∀ size, op.size? = some size → size = (width, height)) :
    AcknowledgedAt (op :: history) serial width height := by
  obtain ⟨later, earlier, rfl, hconfigured, hlater⟩ := h
  refine ⟨op :: later, earlier, rfl, hconfigured, fun other hmem => ?_⟩
  rcases List.mem_cons.mp hmem with rfl | hmem
  · exact hop
  · exact hlater other hmem

/-- An operation that is neither a configure nor an acknowledgement. -/
theorem Acknowledged.cons (h : Acknowledged history s) {op : Operation}
    {s' : TaskPresentationState} (hconfigure : s'.configure = s.configure)
    (hacknowledged : s'.acknowledgedSerial = s.acknowledgedSerial) (hop : op.size? = none) :
    Acknowledged (op :: history) s' := by
  intro serial hserial
  obtain ⟨width, height, hcurrent, hat⟩ := h serial (hacknowledged ▸ hserial)
  refine ⟨width, height, hconfigure.trans hcurrent, hat.cons fun size hsize => ?_⟩
  rw [hop] at hsize
  cases hsize

theorem Acknowledged.perform (h : Acknowledged history s) (hrecorded : Recorded history s)
    (op : Operation) (hkeeps : op.keepsSize s = true) :
    Atomic op.perform s fun _ s' => Acknowledged (op :: history) s' := by
  cases op with
  | configure serial width height refreshMillihz =>
    refine configure_spec.mono ?_
    rintro _ s' rfl acknowledged hacknowledged
    -- a new serial forgets the acknowledgement, so this one repeats the acknowledged serial
    simp only [Operation.keepsSize, Bool.or_eq_true, decide_eq_true_eq] at hkeeps
    split at hacknowledged
    · cases hacknowledged
    case isFalse hsame =>
      obtain ⟨width', height', hcurrent, hat⟩ := h acknowledged hacknowledged
      rw [hcurrent] at hsame
      obtain rfl : acknowledged = serial := by simpa using hsame
      rcases hkeeps with hother | hkept
      · exact absurd hacknowledged hother
      · rw [hcurrent] at hkept
        obtain ⟨rfl, rfl⟩ : width' = width ∧ height' = height := by simpa using hkept
        refine ⟨width', height', rfl, hat.cons fun size hsize => ?_⟩
        exact (Option.some.inj hsize).symm
  | acknowledgeConfigure serial =>
    refine acknowledgeConfigure_spec.mono ?_
    rintro _ s' ⟨expected, width, height, hcurrent, ⟨rfl, rfl⟩ | ⟨-, rfl⟩⟩
    · intro acknowledged hacknowledged
      obtain rfl : serial = acknowledged := Option.some.inj hacknowledged
      refine ⟨width, height, hcurrent, [], history, rfl, ?_, by simp⟩
      rw [← hrecorded.configured, hcurrent]
    · exact h.cons rfl rfl rfl
  | bindTimelines =>
    refine bindTimelines_spec.mono ?_
    rintro _ s' ⟨-, rfl⟩
    exact h.cons rfl rfl rfl
  | replaceFeedback generation formats =>
    refine replaceFeedback_spec.mono ?_
    rintro _ s' ⟨-, rfl⟩
    exact h.cons rfl rfl rfl
  | registerBuffer metadata =>
    refine registerBuffer_spec.mono ?_
    rintro _ s' ⟨-, -, rfl⟩
    exact h.cons rfl rfl rfl
  | unregisterBuffer retired =>
    refine unregisterBuffer_spec.discard.mono ?_
    rintro _ s' ⟨_, -, -, rfl⟩
    exact h.cons rfl rfl rfl
  | present object shown buffer configureSerial acquirePoint releasePoint damage =>
    refine present_spec.discard.mono ?_
    rintro _ s' ⟨_, -, rfl, -⟩
    exact h.cons rfl rfl rfl
  | discardSupersededPresent object frame buffer configureSerial acquirePoint releasePoint =>
    refine discardSupersededPresent_spec.discard.mono ?_
    rintro _ s' ⟨_, -, rfl, -⟩
    exact h.cons rfl rfl rfl
  | release done buffer releasePoint =>
    refine release_spec.discard.mono ?_
    rintro _ s' ⟨_, -, rfl, -⟩
    exact h.cons rfl rfl rfl
  | cancelUnsubmitted done buffer releasePoint =>
    refine cancelUnsubmitted_spec.mono ?_
    rintro _ s' ⟨-, rfl⟩
    exact h.cons rfl rfl rfl

end Steps

/-! ## Runs -/

section Runs

variable {run : TaskPresentationState × List Operation}

/-- What an accepted operation establishes holds of the run that recorded it. -/
theorem record_of_atomic {P : List Operation → TaskPresentationState → Prop} {op : Operation}
    (h : P run.2 run.1) (hop : Atomic op.perform run.1 fun _ s' => P (op :: run.2) s') :
    P (record run op).2 (record run op).1 := by
  unfold record
  cases hresult : op.perform.run run.1 with
  | ok _ s' => exact hop.of_ok hresult
  | error e s' => rw [perform_error op hresult]; exact h

theorem recorded_foldl (h : Recorded run.2 run.1) (ops : List Operation) :
    Recorded (ops.foldl record run).2 (ops.foldl record run).1 := by
  induction ops generalizing run with
  | nil => exact h
  | cons op ops ih => exact ih (record_of_atomic h (h.perform op))

theorem acknowledged_foldl (h : Acknowledged run.2 run.1) (hrecorded : Recorded run.2 run.1)
    (ops : List Operation) (hkeeps : keepsSizeAlong run ops = true) :
    Acknowledged (ops.foldl record run).2 (ops.foldl record run).1 := by
  induction ops generalizing run with
  | nil => exact h
  | cons op ops ih =>
    obtain ⟨hop, hops⟩ := (Bool.and_eq_true _ _).mp hkeeps
    exact ih (record_of_atomic h (h.perform hrecorded op hop))
      (record_of_atomic hrecorded (hrecorded.perform op)) hops

/-- Both kinds of run go through the same states. -/
theorem foldl_record_state (ops : List Operation) (s : TaskPresentationState)
    (history : List Operation) (points : List (UInt64 × UInt64)) :
    (ops.foldl record (s, history)).1 = (ops.foldl execute (s, points)).1 := by
  induction ops generalizing s history points with
  | nil => rfl
  | cons op ops ih =>
    simp only [List.foldl_cons]
    unfold record execute
    cases op.perform.run s with
    | ok _ s' => exact ih s' _ _
    | error e s' => exact ih s' _ _

variable {object : TaskObjectId} {s₀ : TaskPresentationState}

theorem recorded_new (h : new object = .ok s₀) : Recorded [] s₀ := by
  simp only [new, bind_eq_ok, pure_eq_ok] at h
  obtain ⟨_, -, rfl⟩ := h
  exact ⟨rfl, rfl, rfl, fun _ => by simp [registration], fun _ => by simp [presented]⟩

theorem acknowledged_new (h : new object = .ok s₀) : Acknowledged [] s₀ := by
  simp only [new, bind_eq_ok, pure_eq_ok] at h
  obtain ⟨_, -, rfl⟩ := h
  intro serial hserial
  cases hserial

end Runs

/-! ## Accepted presents -/

/-- A damage rectangle that has an area and lies in the given size. -/
def Damage.Inside (rect : Damage) (width height : UInt32) : Prop :=
  rect.width ≠ 0 ∧ rect.height ≠ 0 ∧ rect.x.toNat + rect.width.toNat ≤ width.toNat ∧
    rect.y.toNat + rect.height.toNat ≤ height.toNat

theorem checkedAdd_le {a b bound : UInt32} (h : (checkedAdd a b).any (· ≤ bound) = true) :
    a.toNat + b.toNat ≤ bound.toNat := by
  unfold checkedAdd at h
  split at h
  case isFalse => cases h
  case isTrue hsmall =>
    have hle : a + b ≤ bound := by simpa using h
    have hnat := UInt32.le_iff_toNat_le.mp hle
    rwa [UInt32.toNat_add, Nat.mod_eq_of_lt hsmall] at hnat

theorem inside_of_damageInside {width height : UInt32} {rect : Damage}
    (h : damageInside width height rect = true) : Damage.Inside rect width height := by
  simp only [damageInside, decide_eq_true_eq] at h
  exact ⟨h.1, h.2.1, checkedAdd_le h.2.2.1, checkedAdd_le h.2.2.2⟩

/-- What the history says of a present that is accepted. -/
structure Justified (history : List Operation) (buffer : BufferId) (serial : UInt32)
    (damage : List Damage) (width height : UInt32) (metadata : BufferMetadata) : Prop where
  configured : configured history = some (serial, width, height)
  acknowledged : AcknowledgedAt history serial width height
  registered : registration buffer history = some metadata
  size : metadata.width = width ∧ metadata.height = height
  format : metadata.format ∈ latestFeedback history
  damage : ∀ rect ∈ damage, Damage.Inside rect width height
  idle : ∀ frame pending, presented frame history = some pending → pending.buffer ≠ buffer
  timelines : boundTimelines history = true

/-- **Presents match an acknowledged size.**  In every run whose configures keep the size of an
    acknowledged serial, a present that is accepted names the current configure, whose serial was
    acknowledged after its size last changed; its buffer is registered at that size with a format
    of the latest feedback and idle, its damage lies inside, and the timelines are bound. -/
theorem present_matches_acknowledged {object : TaskObjectId} {s₀ : TaskPresentationState}
    (hnew : new object = .ok s₀) (ops : List Operation)
    (hkeeps : keepsSizeAlong (s₀, []) ops = true) (target : TaskObjectId) (frame : FrameId)
    (buffer : BufferId) (serial : UInt32) (acquirePoint releasePoint : UInt64)
    (damage : List Damage) (accepted : AcceptedWireFrame) (s' : TaskPresentationState)
    (hpresent : (present target frame buffer serial acquirePoint releasePoint damage).run
      (ops.foldl record (s₀, [])).1 = .ok accepted s') :
    ∃ width height metadata,
      Justified (ops.foldl record (s₀, [])).2 buffer serial damage width height metadata := by
  have hrecorded := @recorded_foldl (s₀, []) (recorded_new hnew) ops
  have hacknowledged := @acknowledged_foldl (s₀, []) (acknowledged_new hnew)
    (recorded_new hnew) ops hkeeps
  have hinvariant : Invariant (ops.foldl record (s₀, [])).1 := by
    rw [foldl_record_state ops s₀ [] []]
    exact ((runInvariant_new hnew).foldl ops).state
  generalize ops.foldl record (s₀, []) = run at *
  obtain ⟨⟨width, height, metadata, hcan⟩, -⟩ := present_spec.of_ok hpresent
  obtain ⟨width', height', hcurrent, hat⟩ := hacknowledged serial hcan.acknowledged
  rw [hcan.configure_eq] at hcurrent
  obtain ⟨rfl, rfl⟩ : width = width' ∧ height = height' := by simpa using hcurrent
  refine ⟨width, height, metadata, ?_⟩
  exact {
    configured := hrecorded.configured ▸ hcan.configure_eq
    acknowledged := hat
    registered := by rw [← hrecorded.registered]; exact hcan.registered
    size := by simpa using hcan.size_eq
    format := hrecorded.feedback ▸ hcan.format_mem
    damage := fun rect hrect =>
      inside_of_damageInside (List.all_eq_true.mp hcan.damage_inside rect hrect)
    idle := fun other pending hpending heq => by
      rw [← hrecorded.inFlight] at hpending
      exact hcan.not_busy ((hinvariant.busy_iff buffer).mpr ⟨other, pending, hpending, heq⟩)
    timelines := hrecorded.timelines ▸ hcan.timelines }

/-- A window of 8 × 8 is configured and acknowledged, then shown. -/
def acknowledgedRun : List Operation :=
  [.bindTimelines, .replaceFeedback 1 [⟨1, 0⟩], .configure 1 8 8 60000, .acknowledgeConfigure 1,
    .configure 1 8 8 90000, .registerBuffer ⟨3, 8, 8, ⟨1, 0⟩, [⟨0, 0, 32⟩]⟩]

/-- The repeated configure changes the refresh rate only, and the present is justified. -/
theorem present_matches_acknowledged_refresh :
    ∃ s₀, new 7 = .ok s₀ ∧ keepsSizeAlong (s₀, []) acknowledgedRun = true ∧
      ∃ width height metadata, Justified (acknowledgedRun.foldl record (s₀, [])).2 3 1
        [⟨0, 0, 8, 8⟩] width height metadata := by
  refine ⟨_, rfl, by decide +kernel, ?_⟩
  exact @present_matches_acknowledged 7 _ rfl acknowledgedRun (by decide +kernel) 7 1 3 1
    5 6 [⟨0, 0, 8, 8⟩] _ _ rfl

/-- The acknowledged serial is sent again with another size. -/
def resizedRun : List Operation :=
  [.bindTimelines, .replaceFeedback 1 [⟨1, 0⟩], .configure 1 8 8 60000, .acknowledgeConfigure 1,
    .configure 1 16 16 60000, .registerBuffer ⟨3, 16, 16, ⟨1, 0⟩, [⟨0, 0, 64⟩]⟩]

/-- A frame of the new size is accepted, although only the old size was acknowledged. -/
theorem present_of_unacknowledged_size :
    ∃ s₀ accepted s', new 7 = .ok s₀ ∧
      (present 7 1 3 1 5 6 []).run (resizedRun.foldl record (s₀, [])).1 = .ok accepted s' ∧
      ¬ ∃ width height metadata, Justified (resizedRun.foldl record (s₀, [])).2 3 1 [] width height
        metadata := by
  refine ⟨_, _, _, rfl, rfl, ?_⟩
  rintro ⟨width, height, metadata, h⟩
  -- the newest configure says 16 × 16, and the only acknowledgement stands before it
  have hconfigured : configured resizedRun.reverse = some (1, width, height) := h.configured
  obtain ⟨later, earlier, hsplit, hearlier, -⟩ := h.acknowledged
  have hsplit : resizedRun.reverse = later ++ .acknowledgeConfigure 1 :: earlier := hsplit
  obtain ⟨rfl, rfl⟩ : 16 = width ∧ 16 = height := by
    simpa [resizedRun, configured] using hconfigured
  rcases later with _ | ⟨a, _ | ⟨b, _ | ⟨c, _ | ⟨d, _ | ⟨e, _ | ⟨f, later⟩⟩⟩⟩⟩⟩ <;>
    simp [resizedRun] at hsplit
  obtain ⟨-, -, rfl⟩ := hsplit
  simp [configured] at hearlier

/-! ## Serials that wrap -/

/-- The serials of the accepted configures, newest first. -/
def serials (history : List Operation) : List UInt32 :=
  history.filterMap fun op => match op with
    | .configure serial _ _ _ => some serial
    | _ => none

/-- The configures carry a count that grows without a bound, modulo 2^32, and never zero.  A refresh
    repeats the count. -/
structure Issued (history : List Operation) (ticks : List Nat) : Prop where
  serials : serials history = ticks.map UInt32.ofNat
  increasing : ticks.Pairwise (· ≥ ·)
  nonzero : ∀ tick ∈ ticks, UInt32.ofNat tick ≠ 0

/-- An acknowledgement is accepted and changes nothing; a present is never accepted but, where it is
    in order otherwise, turned into a release. -/
structure Superseded (s : TaskPresentationState) (serial : UInt32) : Prop where
  acknowledge : (acknowledgeConfigure serial).run s = .ok () s
  refused : ∀ target frame buffer acquirePoint releasePoint damage accepted s',
    (present target frame buffer serial acquirePoint releasePoint damage).run s ≠ .ok accepted s'
  released : ∀ frame buffer acquirePoint releasePoint, s.timelinesBound = true →
    buffer ∉ s.busyBuffers → frame ∉ s.inFlight → s.lastAcquirePoint < acquirePoint →
    s.lastReleasePoint < releasePoint →
    (discardSupersededPresent s.object frame buffer serial acquirePoint releasePoint).run s =
      .ok (.bufferReleased s.object frame buffer releasePoint)
        { s with lastAcquirePoint := acquirePoint, lastReleasePoint := releasePoint }

/-- Everything that carries the serial is rejected against the current one. -/
structure Premature (s : TaskPresentationState) (current serial : UInt32) : Prop where
  acknowledge : (acknowledgeConfigure serial).run s = .error (.staleConfigure current serial) s
  refused : ∀ frame buffer acquirePoint releasePoint damage, s.timelinesBound = true →
    (present s.object frame buffer serial acquirePoint releasePoint damage).run s =
      .error (.staleConfigure current serial) s
  unreleased : ∀ frame buffer acquirePoint releasePoint, s.timelinesBound = true →
    (discardSupersededPresent s.object frame buffer serial acquirePoint releasePoint).run s =
      .error (.staleConfigure current serial) s

theorem toNat_sub_ofNat (a b : Nat) :
    (UInt32.ofNat a - UInt32.ofNat b).toNat = (2 ^ 32 - b % 2 ^ 32 + a % 2 ^ 32) % 2 ^ 32 := by
  rw [UInt32.toNat_sub, UInt32.toNat_ofNat', UInt32.toNat_ofNat']

/-- **The half range below** the current count precedes it. -/
theorem serialPrecedes_of_lt {current tick : Nat} (hlt : tick < current)
    (hnear : current - tick ≤ 2 ^ 31 - 1) :
    serialPrecedes (UInt32.ofNat tick) (UInt32.ofNat current) = true := by
  have hdiff := toNat_sub_ofNat current tick
  have hne : UInt32.ofNat tick ≠ UInt32.ofNat current := by
    intro heq
    rw [heq, UInt32.sub_self] at hdiff
    simp only [UInt32.toNat_zero] at hdiff
    omega
  have hhalf : UInt32.ofNat current - UInt32.ofNat tick < 0x80000000 := by
    rw [UInt32.lt_iff_toNat_lt, hdiff]
    show _ < 2147483648
    omega
  simp only [serialPrecedes, decide_eq_true_eq]
  exact ⟨hne, hhalf⟩

/-- **The half range above** it does not. -/
theorem not_serialPrecedes_of_gt {current tick : Nat} (hgt : current < tick)
    (hnear : tick - current ≤ 2 ^ 31) :
    UInt32.ofNat tick ≠ UInt32.ofNat current ∧
      serialPrecedes (UInt32.ofNat tick) (UInt32.ofNat current) = false := by
  have hdiff := toNat_sub_ofNat current tick
  have hne : UInt32.ofNat tick ≠ UInt32.ofNat current := by
    intro heq
    rw [heq, UInt32.sub_self] at hdiff
    simp only [UInt32.toNat_zero] at hdiff
    omega
  have hhalf : ¬ UInt32.ofNat current - UInt32.ofNat tick < 0x80000000 := by
    rw [UInt32.lt_iff_toNat_lt, hdiff]
    show ¬ _ < 2147483648
    omega
  simp only [serialPrecedes, decide_eq_false_iff_not]
  exact ⟨hne, fun h => hhalf h.2⟩

section Serials

variable {s : TaskPresentationState} {current serial width height : UInt32}

theorem superseded_of_precedes (hcurrent : s.configure = some (current, width, height))
    (hprecedes : serialPrecedes serial current = true) : Superseded s serial := by
  have hne : serial ≠ current := by
    simp only [serialPrecedes, decide_eq_true_eq] at hprecedes
    exact hprecedes.1
  constructor
  · unfold EStateM.run acknowledgeConfigure
    rw [get_bind_run, okOr_bind_run hcurrent]
    dsimp only
    rw [if_neg hne, rejectIf_bind_run (by simp [hprecedes])]
    rfl
  · intro target frame buffer acquirePoint releasePoint damage accepted s' h
    obtain ⟨⟨_, _, _, hcan⟩, -⟩ := present_spec.of_ok h
    have hsame := hcurrent.symm.trans hcan.configure_eq
    simp only [Option.some.injEq, Prod.mk.injEq] at hsame
    exact hne hsame.1.symm
  · intro frame buffer acquirePoint releasePoint htimelines hidle hfresh hacquire hrelease
    unfold EStateM.run discardSupersededPresent requireObject requireNewerPoint
    rw [get_bind_run, rejectIf_bind_run (by simp), rejectIf_bind_run (by simp [htimelines]),
      okOr_bind_run hcurrent]
    dsimp only
    rw [rejectIf_bind_run (by simp [hprecedes]), rejectIf_bind_run hidle,
      rejectIf_bind_run hfresh, rejectIf_bind_run (not_not.mpr hacquire),
      rejectIf_bind_run (not_not.mpr hrelease)]
    rfl

theorem premature_of_not_precedes (hcurrent : s.configure = some (current, width, height))
    (hne : serial ≠ current) (hprecedes : serialPrecedes serial current = false) :
    Premature s current serial := by
  constructor
  · unfold EStateM.run acknowledgeConfigure
    rw [get_bind_run, okOr_bind_run hcurrent]
    dsimp only
    rw [if_neg hne, rejectIf_bind_throw (by simp [hprecedes])]
  · intro frame buffer acquirePoint releasePoint damage htimelines
    unfold EStateM.run present requireObject
    rw [get_bind_run, rejectIf_bind_run (by simp), rejectIf_bind_run (by simp [htimelines]),
      okOr_bind_run hcurrent]
    dsimp only
    rw [rejectIf_bind_throw hne]
  · intro frame buffer acquirePoint releasePoint htimelines
    unfold EStateM.run discardSupersededPresent requireObject
    rw [get_bind_run, rejectIf_bind_run (by simp), rejectIf_bind_run (by simp [htimelines]),
      okOr_bind_run hcurrent]
    dsimp only
    rw [rejectIf_bind_throw (by simp [hprecedes])]

end Serials

/-- The newest serial is that of the current configure. -/
theorem configured_of_serials {history : List Operation} {serial : UInt32} {rest : List UInt32}
    (h : serials history = serial :: rest) :
    ∃ width height, configured history = some (serial, width, height) := by
  induction history with
  | nil => cases h
  | cons op earlier ih =>
    cases op with
    | configure serial' width height refreshMillihz =>
      obtain ⟨rfl, -⟩ : serial' = serial ∧ _ := List.cons.inj h
      exact ⟨width, height, rfl⟩
    | _ => exact ih h

/-- **Superseded and future serials, across every wrap.**  In every run whose configures carry a
    growing count modulo 2^32, a serial of the last 2^31 - 1 counts is superseded, and a serial of
    the next 2^31 counts is rejected as stale. -/
theorem serials_superseded {object : TaskObjectId} {s₀ : TaskPresentationState}
    (hnew : new object = .ok s₀) (ops : List Operation) {current : Nat} {earlier : List Nat}
    (hissued : Issued (ops.foldl record (s₀, [])).2 (current :: earlier)) :
    (∀ tick, tick < current → current - tick ≤ 2 ^ 31 - 1 →
      Superseded (ops.foldl record (s₀, [])).1 (UInt32.ofNat tick)) ∧
    (∀ tick, current < tick → tick - current ≤ 2 ^ 31 →
      Premature (ops.foldl record (s₀, [])).1 (UInt32.ofNat current) (UInt32.ofNat tick)) := by
  have hrecorded := @recorded_foldl (s₀, []) (recorded_new hnew) ops
  obtain ⟨width, height, hconfigured⟩ := configured_of_serials hissued.serials
  have hcurrent := hrecorded.configured.trans hconfigured
  refine ⟨fun tick hlt hnear => ?_, fun tick hgt hnear => ?_⟩
  · exact superseded_of_precedes hcurrent (serialPrecedes_of_lt hlt hnear)
  · obtain ⟨hne, hprecedes⟩ := not_serialPrecedes_of_gt hgt hnear
    exact premature_of_not_precedes hcurrent hne hprecedes

/-- The largest serial is followed by one; both ends of the two half ranges are as they should. -/
theorem serials_superseded_wrap :
    ∃ s₀, new 7 = .ok s₀ ∧
      let run := [Operation.configure 0xffffffff 8 8 60000, .configure 1 9 9 60000].foldl record
        (s₀, [])
      Issued run.2 [2 ^ 32 + 1, 2 ^ 32 - 1] ∧ Superseded run.1 0xffffffff ∧
        Superseded run.1 0x80000002 ∧ Premature run.1 1 0x80000001 := by
  have hissued : ∀ s₀, new 7 = .ok s₀ →
      Issued ([Operation.configure 0xffffffff 8 8 60000, .configure 1 9 9 60000].foldl record
        (s₀, [])).2 [2 ^ 32 + 1, 2 ^ 32 - 1] := by
    rintro s₀ h
    cases h
    exact ⟨rfl, by decide, by decide⟩
  have h := @serials_superseded 7 _ rfl [.configure 0xffffffff 8 8 60000, .configure 1 9 9 60000]
    _ _ (hissued _ rfl)
  have hcurrent : UInt32.ofNat (2 ^ 32 + 1) = 1 := by decide
  have hlast : UInt32.ofNat (2 ^ 32 + 1 + 2 ^ 31) = 0x80000001 := by decide
  have hpremature := h.2 (2 ^ 32 + 1 + 2 ^ 31) (by decide) (by decide)
  rw [hcurrent, hlast] at hpremature
  exact ⟨_, rfl, hissued _ rfl, h.1 (2 ^ 32 - 1) (by decide) (by decide),
    h.1 (2 ^ 31 + 2) (by decide) (by decide), hpremature⟩

end Droidloom.TaskState
