/-
  The vsync clock that Surface Flinger is driven by (`VsyncScheduler`).

  Without a host clock, a timer thread runs one periodic clock for every display.  A clock starts on
  the phase of the last presentation feedback, or a period after its start until feedback arrives;
  a wake-up delivers the point it was due at and moves on to the first point after now.  With a host
  clock there is no timer: every frame grant of the host is delivered as a vsync.

  1. **The grid** (`Clock.Ticking`, `Clock.Near`): between two (re-)phasings the delivered points
     increase, lie on one grid and are never early.  The next point is the first one after now only
     if no phase was taken from further ahead than a period: `next_vsync_after` returns a phase in
     the future as it is.
  2. **Grants** (`frameGrant_delivers_iff`): the sample time is computed with a sum that is not
     checked, and the decoder admits periods that overflow it.
-/
import Droidloom.Lib.History
import Droidloom.Lib.TimeGrid
import Droidloom.Protocol.DenialCodec
import Droidloom.Graphics.Composer

namespace Droidloom.Graphics

open Std Fallible History TimeGrid

/-! ## 64-bit times -/

/-- `u64::saturating_add` and `u64::saturating_mul`. -/
def saturatingAdd (a b : Nat) : Nat := min (a + b) (2 ^ 64 - 1)
def saturatingMul (a b : Nat) : Nat := min (a * b) (2 ^ 64 - 1)

theorem saturatingAdd_of_lt {a b : Nat} (h : a + b < 2 ^ 64) : saturatingAdd a b = a + b :=
  Nat.min_eq_left (by omega)

theorem saturatingMul_of_lt {a b : Nat} (h : a * b < 2 ^ 64) : saturatingMul a b = a * b :=
  Nat.min_eq_left (by omega)

/-- The first point of a phase's grid after `now`, unless the phase itself is in the future. -/
def nextVsyncAfter (now phase period : Nat) : Nat :=
  if phase > now then phase
  else saturatingAdd phase (saturatingMul (saturatingAdd ((now - phase) / period) 1) period)

/-- The sums of `nextVsyncAfter` fit 64 bits. -/
def NextFits (now phase period : Nat) : Prop :=
  phase ≤ now → phase + ((now - phase) / period + 1) * period < 2 ^ 64

instance (now phase period : Nat) : Decidable (NextFits now phase period) :=
  inferInstanceAs (Decidable (phase ≤ now → _ < 2 ^ 64))

/-- Periods within a percent of each other. -/
def periodsCompatible (first second : Nat) : Bool :=
  (first - second) + (second - first) ≤ max (first / 100) 1

section NextVsync
variable {now phase period : Nat}

theorem nextVsyncAfter_of_le (hfits : NextFits now phase period) (hp : 0 < period)
    (hle : phase ≤ now) :
    nextVsyncAfter now phase period = phase + ((now - phase) / period + 1) * period := by
  have hsum := hfits hle
  have hcount : (now - phase) / period + 1 ≤ ((now - phase) / period + 1) * period :=
    Nat.le_mul_of_pos_right _ hp
  rw [nextVsyncAfter, if_neg (Nat.not_lt.mpr hle), @saturatingAdd_of_lt _ 1 (by omega),
    saturatingMul_of_lt (by omega), saturatingAdd_of_lt hsum]

/-- The result is always on the phase's grid and after `now`. -/
theorem nextVsyncAfter_grid (hfits : NextFits now phase period) (hp : 0 < period) :
    nextVsyncAfter now phase period ≡ phase [MOD period] ∧
      now < nextVsyncAfter now phase period := by
  by_cases hle : phase ≤ now
  · rw [nextVsyncAfter_of_le hfits hp hle]
    have hnext := @isNext_of_le period now phase hp hle
    exact ⟨hnext.1.1, hnext.1.2⟩
  · rw [nextVsyncAfter, if_pos (Nat.not_le.mp hle)]
    exact ⟨rfl, Nat.not_le.mp hle⟩

/-- It is the next point unless the phase was more than a period ahead. -/
theorem nextVsyncAfter_le (hfits : NextFits now phase period) (hp : 0 < period)
    (htimely : phase ≤ now + period) : nextVsyncAfter now phase period ≤ now + period := by
  by_cases hle : phase ≤ now
  · rw [nextVsyncAfter_of_le hfits hp hle]
    exact ((isNext_iff hp).mp (isNext_of_le hp hle)).2.2
  · rwa [nextVsyncAfter, if_pos (Nat.not_le.mp hle)]

end NextVsync

/-! ## One display's clock -/

structure ScheduledVsync where
  periodNanos : Nat
  nextNanos : Nat
  /-- Whether a host sample at this period has set the phase. -/
  phased : Bool
deriving DecidableEq, Repr

/-- The phase that a clock of this period takes over from the last presentation. -/
def hostPhase (periodNanos : Nat) (phase : Option (Nat × Nat)) : Option Nat :=
  (phase.filter fun sample => periodsCompatible periodNanos sample.2).map Prod.fst

namespace ScheduledVsync

def start (now periodNanos : Nat) (phase : Option (Nat × Nat)) : ScheduledVsync :=
  match hostPhase periodNanos phase with
  | some phase => ⟨periodNanos, nextVsyncAfter now phase periodNanos, true⟩
  | none => ⟨periodNanos, saturatingAdd now periodNanos, false⟩

def takesPhase (s : ScheduledVsync) (periodNanos : Nat) : Bool :=
  ¬ s.phased ∧ periodsCompatible s.periodNanos periodNanos

def observe (s : ScheduledVsync) (now timestampNanos periodNanos : Nat) : ScheduledVsync :=
  if s.takesPhase periodNanos then
    { s with nextNanos := nextVsyncAfter now timestampNanos s.periodNanos, phased := true }
  else s

/-- The timer's turn for one display: what it delivers, and the clock afterwards. -/
def wake (s : ScheduledVsync) (now : Nat) : Option Nat × ScheduledVsync :=
  if s.nextNanos ≤ now then
    (some s.nextNanos, { s with nextNanos := nextVsyncAfter now s.nextNanos s.periodNanos })
  else (none, s)

end ScheduledVsync

/-- A display's clock with its history since it was last (re-)phased. -/
structure Clock extends ScheduledVsync where
  /-- The time whose grid it runs on. -/
  phase : Nat
  /-- When it was last set. -/
  since : Nat
  /-- The points delivered, each with the wake-up that delivered it. -/
  ticks : List (Nat × Nat)
deriving DecidableEq, Repr

namespace Clock

def start (now periodNanos : Nat) (phase : Option (Nat × Nat)) : Clock :=
  { ScheduledVsync.start now periodNanos phase with
    phase := (hostPhase periodNanos phase).getD now
    since := now
    ticks := [] }

def observe (c : Clock) (now timestampNanos periodNanos : Nat) : Clock :=
  if c.takesPhase periodNanos then
    { c.toScheduledVsync.observe now timestampNanos periodNanos with
      phase := timestampNanos
      since := now
      ticks := [] }
  else c

def wake (c : Clock) (now : Nat) : Clock :=
  { (c.toScheduledVsync.wake now).2 with
    phase := c.phase
    since := now
    ticks := c.ticks ++ (c.toScheduledVsync.wake now).1.toList.map fun t => (t, now) }

/-- **The clock runs on a grid**: what it delivered increases and was never early, and its next
    point is still to come. -/
structure Ticking (c : Clock) : Prop where
  period_pos : 0 < c.periodNanos
  next_grid : c.nextNanos ≡ c.phase [MOD c.periodNanos]
  next_later : c.since < c.nextNanos
  ticks_grid : ∀ tick ∈ c.ticks, tick.1 ≡ c.phase [MOD c.periodNanos] ∧ tick.1 ≤ tick.2
  ticks_increasing : (c.ticks.map Prod.fst).Pairwise (· < ·)
  ticks_before : ∀ tick ∈ c.ticks, tick.1 < c.nextNanos

/-- The next point is at most a period away from when the clock was last set. -/
def Near (c : Clock) : Prop := c.nextNanos ≤ c.since + c.periodNanos

/-- The sums made in starting a clock fit 64 bits. -/
def StartFits (now periodNanos : Nat) (phase : Option (Nat × Nat)) : Prop :=
  (∀ host ∈ hostPhase periodNanos phase, NextFits now host periodNanos) ∧
    (hostPhase periodNanos phase = none → now + periodNanos < 2 ^ 64)

instance (now periodNanos : Nat) (phase : Option (Nat × Nat)) :
    Decidable (StartFits now periodNanos phase) :=
  inferInstanceAs (Decidable ((∀ host ∈ hostPhase periodNanos phase, _) ∧ (_ → _ < 2 ^ 64)))

variable {c : Clock} {now periodNanos timestampNanos : Nat} {phase : Option (Nat × Nat)}

theorem start_ticking (hp : 0 < periodNanos) (hfits : StartFits now periodNanos phase) :
    (start now periodNanos phase).Ticking := by
  unfold start ScheduledVsync.start
  cases hhost : hostPhase periodNanos phase with
  | some host =>
    obtain ⟨hgrid, hlater⟩ := nextVsyncAfter_grid (hfits.1 host hhost) hp
    exact ⟨hp, hgrid, hlater, by simp, by simp, by simp⟩
  | none =>
    have hnext := saturatingAdd_of_lt (hfits.2 hhost)
    refine ⟨hp, ?_, ?_, by simp, by simp, by simp⟩
    · simp [hnext]
    · simp only [hnext]
      omega

theorem start_near (hp : 0 < periodNanos) (hfits : StartFits now periodNanos phase)
    (htimely : ∀ host ∈ hostPhase periodNanos phase, host ≤ now + periodNanos) :
    (start now periodNanos phase).Near := by
  unfold Near start ScheduledVsync.start
  cases hhost : hostPhase periodNanos phase with
  | some host => exact nextVsyncAfter_le (hfits.1 host hhost) hp (htimely host hhost)
  | none => exact Nat.min_le_left _ _

theorem observe_ticking (h : c.Ticking)
    (hfits : c.takesPhase periodNanos → NextFits now timestampNanos c.periodNanos) :
    (c.observe now timestampNanos periodNanos).Ticking := by
  unfold observe ScheduledVsync.observe
  split
  · rename_i htakes
    obtain ⟨hgrid, hlater⟩ := @nextVsyncAfter_grid now timestampNanos _ (hfits htakes) h.period_pos
    exact ⟨h.period_pos, hgrid, hlater, by simp, by simp, by simp⟩
  · exact h

theorem observe_near (h : c.Ticking) (hnear : c.Near)
    (hfits : c.takesPhase periodNanos → NextFits now timestampNanos c.periodNanos)
    (htimely : c.takesPhase periodNanos → timestampNanos ≤ now + c.periodNanos) :
    (c.observe now timestampNanos periodNanos).Near := by
  unfold observe ScheduledVsync.observe
  split
  · rename_i htakes
    exact nextVsyncAfter_le (hfits htakes) h.period_pos (htimely htakes)
  · exact hnear

/-- What a wake-up does: a due point is delivered and the clock moves past now, or nothing. -/
theorem wake_cases (c : Clock) (now : Nat) :
    (c.nextNanos ≤ now ∧ c.wake now =
      { c with nextNanos := nextVsyncAfter now c.nextNanos c.periodNanos, since := now,
               ticks := c.ticks ++ [(c.nextNanos, now)] }) ∨
    (now < c.nextNanos ∧ c.wake now = { c with since := now }) := by
  by_cases hdue : c.nextNanos ≤ now
  · refine .inl ⟨hdue, ?_⟩
    simp [wake, ScheduledVsync.wake, hdue]
  · refine .inr ⟨Nat.not_le.mp hdue, ?_⟩
    simp [wake, ScheduledVsync.wake, hdue]

theorem wake_ticking (h : c.Ticking) (hfits : NextFits now c.nextNanos c.periodNanos) :
    (c.wake now).Ticking := by
  rcases c.wake_cases now with ⟨hdue, heq⟩ | ⟨hearly, heq⟩
  · -- The delivered point is after all earlier ones, and before the new next one.
    obtain ⟨hgrid, hlater⟩ := nextVsyncAfter_grid hfits h.period_pos
    rw [heq]
    refine ⟨h.period_pos, hgrid.trans h.next_grid, hlater, ?_, ?_, ?_⟩
    · intro tick hmem
      rcases List.mem_append.mp hmem with hmem | hmem
      · exact h.ticks_grid tick hmem
      · rw [List.mem_singleton.mp hmem]
        exact ⟨h.next_grid, hdue⟩
    · simp only [List.map_append, List.map_cons, List.map_nil]
      refine List.pairwise_append.mpr ⟨h.ticks_increasing, by simp, ?_⟩
      intro earlier hmem later hlast
      obtain ⟨tick, htick, rfl⟩ := List.mem_map.mp hmem
      rw [List.mem_singleton.mp hlast]
      exact h.ticks_before tick htick
    · intro tick hmem
      have hnext : c.nextNanos < nextVsyncAfter now c.nextNanos c.periodNanos :=
        Nat.lt_of_le_of_lt hdue hlater
      rcases List.mem_append.mp hmem with hmem | hmem
      · exact (h.ticks_before tick hmem).trans hnext
      · rw [List.mem_singleton.mp hmem]
        exact hnext
  · rw [heq]
    exact ⟨h.period_pos, h.next_grid, hearly, h.ticks_grid, h.ticks_increasing, h.ticks_before⟩

/-- A clock that was near when it was set is near after every wake-up. -/
theorem wake_near (h : c.Ticking) (hnear : c.Near) (hsince : c.since ≤ now)
    (hfits : NextFits now c.nextNanos c.periodNanos) : (c.wake now).Near := by
  rcases c.wake_cases now with ⟨hdue, heq⟩ | ⟨hearly, heq⟩
  · rw [heq]
    exact nextVsyncAfter_le hfits h.period_pos (by omega)
  · rw [heq]
    unfold Near at hnear ⊢
    show c.nextNanos ≤ now + c.periodNanos
    omega

/-- Once near, the clock's next point is the first of its grid after the last wake-up. -/
theorem Ticking.isNext (h : c.Ticking) (hnear : c.Near) :
    IsNext c.periodNanos c.phase c.since c.nextNanos :=
  (isNext_iff h.period_pos).mpr ⟨h.next_grid, h.next_later, hnear⟩

end Clock

/-! ## The scheduler -/

/-- Vsyncs on their way to Surface Flinger: display, timestamp and period. -/
abbrev Due := DisplayId × Nat × Nat

structure VsyncScheduler where
  /-- With a host clock there is no timer thread. -/
  hostClock : Bool
  displays : ExtTreeMap DisplayId Clock compare := ∅
  presentationPhase : Option (Nat × Nat) := none
  /-- The latest time at which the scheduler was called. -/
  time : Nat := 0

inductive VsyncCall
  | setEnabled (now : Nat) (display : DisplayId) (enabled : Bool) (periodNanos : Nat)
  | updatePeriod (now : Nat) (display : DisplayId) (periodNanos : Nat)
  /-- Also what becomes of a display whose callback fails. -/
  | disable (display : DisplayId)
  | clear
  | observePresentation (now timestampNanos periodNanos : Nat)
  | wake (now : Nat)
deriving DecidableEq, Repr

/-- The host sample that a call brings: when, its timestamp and its period. -/
def VsyncCall.sample : VsyncCall → Option (Nat × Nat × Nat)
  | .observePresentation now timestampNanos periodNanos => some (now, timestampNanos, periodNanos)
  | _ => none

def VsyncCall.wakeTime : VsyncCall → Option Nat
  | .wake now => some now
  | _ => none

namespace VsyncScheduler

/-- Start a display's clock afresh. -/
def restart (s : VsyncScheduler) (now : Nat) (display : DisplayId) (periodNanos : Nat) :
    VsyncScheduler :=
  { s with
    displays := s.displays.insert display (.start now periodNanos s.presentationPhase)
    time := max s.time now }

/-- Surface Flinger switches a display's vsync.  A period of zero is refused. -/
def setEnabled (s : VsyncScheduler) (now : Nat) (display : DisplayId) (enabled : Bool)
    (periodNanos : Nat) : VsyncScheduler :=
  if periodNanos = 0 then s
  else if enabled then s.restart now display periodNanos
  else { s with displays := s.displays.erase display, time := max s.time now }

/-- A configure changes the period of a running clock, and never starts one. -/
def updatePeriod (s : VsyncScheduler) (now : Nat) (display : DisplayId) (periodNanos : Nat) :
    VsyncScheduler :=
  if periodNanos = 0 then s
  else match s.displays[display]? with
    | none => s
    | some active =>
      if active.periodNanos = periodNanos then s else s.restart now display periodNanos

/-- Presentation feedback moves only the clocks that have no phase yet. -/
def observePresentation (s : VsyncScheduler) (now timestampNanos periodNanos : Nat) :
    VsyncScheduler :=
  if periodNanos = 0 ∨ s.hostClock then s
  else
    { s with
      displays := s.displays.map fun _ c => c.observe now timestampNanos periodNanos
      presentationPhase := some (timestampNanos, periodNanos)
      time := max s.time now }

/-- One wake-up of the timer.  It looks at the earliest deadline first and goes back to sleep if
    that is in the future; then no clock is due. -/
def wake (s : VsyncScheduler) (now : Nat) : List Due × VsyncScheduler :=
  if s.hostClock then ([], s)
  else
    (s.displays.toList.filterMap fun (display, c) =>
        (c.toScheduledVsync.wake now).1.map fun t => (display, t, c.periodNanos),
      { s with displays := s.displays.map fun _ c => c.wake now, time := max s.time now })

def step (s : VsyncScheduler) : VsyncCall → VsyncScheduler
  | .setEnabled now display enabled periodNanos => s.setEnabled now display enabled periodNanos
  | .updatePeriod now display periodNanos => s.updatePeriod now display periodNanos
  | .disable display => { s with displays := s.displays.erase display }
  | .clear => { s with displays := ∅ }
  | .observePresentation now timestampNanos periodNanos =>
    s.observePresentation now timestampNanos periodNanos
  | .wake now => (s.wake now).2

def run (s : VsyncScheduler) (calls : List VsyncCall) : VsyncScheduler := calls.foldl step s

/-- The call starts a clock: when, and with which period. -/
def starts (s : VsyncScheduler) : VsyncCall → Option (Nat × Nat)
  | .setEnabled now _ enabled periodNanos =>
    if periodNanos ≠ 0 ∧ enabled then some (now, periodNanos) else none
  | .updatePeriod now display periodNanos =>
    if periodNanos ≠ 0 ∧ s.displays[display]?.any (·.periodNanos ≠ periodNanos) then
      some (now, periodNanos)
    else none
  | _ => none

variable {s : VsyncScheduler} {call : VsyncCall} {display : DisplayId} {c : Clock}

theorem time_le_step (s : VsyncScheduler) (call : VsyncCall) : s.time ≤ (s.step call).time := by
  cases call with
  | disable | clear => exact Nat.le_refl _
  | setEnabled now display enabled periodNanos =>
    simp only [step, setEnabled]
    split
    · exact Nat.le_refl _
    · split <;> exact Nat.le_max_left _ _
  | updatePeriod now display periodNanos =>
    simp only [step, updatePeriod]
    split
    · exact Nat.le_refl _
    · split
      · exact Nat.le_refl _
      · split
        · exact Nat.le_refl _
        · exact Nat.le_max_left _ _
  | observePresentation now timestampNanos periodNanos =>
    simp only [step, observePresentation]
    split
    · exact Nat.le_refl _
    · exact Nat.le_max_left _ _
  | wake now =>
    simp only [step, wake]
    split
    · exact Nat.le_refl _
    · exact Nat.le_max_left _ _

/-- How a call left the clock `c` of a display. -/
inductive Became (s : VsyncScheduler) (call : VsyncCall) (display : DisplayId) (c : Clock) : Prop
  | kept (h : s.displays[display]? = some c)
  | started (now periodNanos : Nat) (h : s.starts call = some (now, periodNanos))
      (hp : 0 < periodNanos) (hc : c = .start now periodNanos s.presentationPhase)
      (htime : now ≤ (s.step call).time)
  | observed (before : Clock) (now timestampNanos periodNanos : Nat)
      (hcall : call = .observePresentation now timestampNanos periodNanos)
      (h : s.displays[display]? = some before)
      (hc : c = before.observe now timestampNanos periodNanos)
      (htime : now ≤ (s.step call).time)
  | woken (before : Clock) (now : Nat) (hcall : call = .wake now)
      (h : s.displays[display]? = some before) (hc : c = before.wake now)
      (htime : now ≤ (s.step call).time)

/-- A clock after a restart is the new one or another display's. -/
theorem became_of_restart {now periodNanos : Nat} {target : DisplayId}
    (hstep : s.step call = s.restart now target periodNanos)
    (hstarts : s.starts call = some (now, periodNanos)) (hp : periodNanos ≠ 0)
    (h : (s.step call).displays[display]? = some c) : s.Became call display c := by
  have htime : now ≤ (s.step call).time := by
    rw [hstep]
    exact Nat.le_max_right _ _
  rw [hstep, restart, ExtTreeMap.getElem?_insert] at h
  split at h
  · cases h
    exact .started now periodNanos hstarts (Nat.pos_of_ne_zero hp) rfl htime
  · exact .kept h

theorem kept_of_erase {target : DisplayId} (h : (s.displays.erase target)[display]? = some c) :
    s.displays[display]? = some c := by
  rw [ExtTreeMap.getElem?_erase] at h
  split at h
  · cases h
  · exact h

/-- **What a call can do to a clock.** -/
theorem step_clock (h : (s.step call).displays[display]? = some c) : s.Became call display c := by
  cases call with
  | disable target => exact .kept (kept_of_erase h)
  | clear => simp [step] at h
  | setEnabled now target enabled periodNanos =>
    by_cases hp : periodNanos = 0
    · simp only [step, setEnabled, if_pos hp] at h
      exact .kept h
    · cases enabled with
      | false =>
        simp only [step, setEnabled, if_neg hp, Bool.false_eq_true, if_false] at h
        exact .kept (kept_of_erase h)
      | true =>
        have hstep : s.step (.setEnabled now target true periodNanos) =
            s.restart now target periodNanos := by
          simp [step, setEnabled, hp]
        exact became_of_restart hstep (by simp [starts, hp]) hp h
  | updatePeriod now target periodNanos =>
    by_cases hp : periodNanos = 0
    · simp only [step, updatePeriod, if_pos hp] at h
      exact .kept h
    · cases hactive : s.displays[target]? with
      | none =>
        simp only [step, updatePeriod, if_neg hp, hactive] at h
        exact .kept h
      | some active =>
        by_cases hsame : active.periodNanos = periodNanos
        · simp only [step, updatePeriod, if_neg hp, hactive, if_pos hsame] at h
          exact .kept h
        · have hstep : s.step (.updatePeriod now target periodNanos) =
              s.restart now target periodNanos := by
            simp [step, updatePeriod, hp, hactive, hsame]
          exact became_of_restart hstep (by simp [starts, hp, hactive, hsame]) hp h
  | observePresentation now timestampNanos periodNanos =>
    by_cases hoff : periodNanos = 0 ∨ s.hostClock
    · simp only [step, observePresentation, if_pos hoff] at h
      exact .kept h
    · have htime : now ≤ (s.step (.observePresentation now timestampNanos periodNanos)).time := by
        simp only [step, observePresentation, if_neg hoff]
        exact Nat.le_max_right _ _
      simp only [step, observePresentation, if_neg hoff, ExtTreeMap.getElem?_map,
        Option.map_eq_some_iff] at h
      obtain ⟨before, hbefore, rfl⟩ := h
      exact .observed before now timestampNanos periodNanos rfl hbefore rfl htime
  | wake now =>
    by_cases hoff : s.hostClock
    · simp only [step, wake, if_pos hoff] at h
      exact .kept h
    · have htime : now ≤ (s.step (.wake now)).time := by
        simp only [step, wake, if_neg hoff]
        exact Nat.le_max_right _ _
      simp only [step, wake, if_neg hoff, ExtTreeMap.getElem?_map, Option.map_eq_some_iff] at h
      obtain ⟨before, hbefore, rfl⟩ := h
      exact .woken before now rfl hbefore rfl htime

/-! ### What a run is assumed to do -/

/-- The timer wakes up after every earlier call (the other calls may be late: they read the clock
    before they get the lock), and no sum exceeds 64 bits. -/
def Regular (s : VsyncScheduler) (call : VsyncCall) : Prop :=
  (∀ start ∈ s.starts call, Clock.StartFits start.1 start.2 s.presentationPhase) ∧
  (∀ sample ∈ call.sample, ∀ entry ∈ s.displays.toList, entry.2.takesPhase sample.2.2 →
    NextFits sample.1 sample.2.1 entry.2.periodNanos) ∧
  ∀ now ∈ call.wakeTime, s.time ≤ now ∧
    ∀ entry ∈ s.displays.toList, NextFits now entry.2.nextNanos entry.2.periodNanos

/-- No clock is given a phase that is more than a period in the future. -/
def Timely (s : VsyncScheduler) (call : VsyncCall) : Prop :=
  (∀ start ∈ s.starts call, ∀ host ∈ hostPhase start.2 s.presentationPhase,
    host ≤ start.1 + start.2) ∧
  ∀ sample ∈ call.sample, ∀ entry ∈ s.displays.toList, entry.2.takesPhase sample.2.2 →
    sample.2.1 ≤ sample.1 + entry.2.periodNanos

instance (s : VsyncScheduler) (call : VsyncCall) : Decidable (s.Regular call) :=
  inferInstanceAs (Decidable ((∀ start ∈ s.starts call, _) ∧ (∀ sample ∈ call.sample, _) ∧
    ∀ now ∈ call.wakeTime, _))

instance (s : VsyncScheduler) (call : VsyncCall) : Decidable (s.Timely call) :=
  inferInstanceAs (Decidable ((∀ start ∈ s.starts call, _) ∧ ∀ sample ∈ call.sample, _))

/-- Every clock runs on its grid and was set in the past. -/
def Sound (s : VsyncScheduler) : Prop :=
  ∀ (display : DisplayId) (c : Clock), s.displays[display]? = some c →
    c.Ticking ∧ c.since ≤ s.time

def AllNear (s : VsyncScheduler) : Prop :=
  ∀ (display : DisplayId) (c : Clock), s.displays[display]? = some c → c.Near

theorem Sound.step (h : s.Sound) (hregular : s.Regular call) : (s.step call).Sound := by
  intro display c hc
  have htime := s.time_le_step call
  cases step_clock hc with
  | kept hkept =>
    obtain ⟨hticking, hsince⟩ := h display c hkept
    exact ⟨hticking, hsince.trans htime⟩
  | started now periodNanos hstarts hp heq hnow =>
    subst heq
    exact ⟨Clock.start_ticking hp (hregular.1 _ hstarts), hnow⟩
  | observed before now timestampNanos periodNanos hcall hbefore heq hnow =>
    subst hcall heq
    obtain ⟨hticking, hsince⟩ := h display before hbefore
    have hmem := ExtTreeMap.mem_toList_iff_getElem?_eq_some.mpr hbefore
    refine ⟨Clock.observe_ticking hticking (hregular.2.1 _ rfl _ hmem), ?_⟩
    unfold Clock.observe
    split
    · exact hnow
    · exact hsince.trans htime
  | woken before now hcall hbefore heq hnow =>
    subst hcall heq
    obtain ⟨hticking, -⟩ := h display before hbefore
    have hmem := ExtTreeMap.mem_toList_iff_getElem?_eq_some.mpr hbefore
    exact ⟨Clock.wake_ticking hticking ((hregular.2.2 now rfl).2 _ hmem), hnow⟩

theorem AllNear.step (hnear : s.AllNear) (h : s.Sound) (hregular : s.Regular call)
    (htimely : s.Timely call) : (s.step call).AllNear := by
  intro display c hc
  cases step_clock hc with
  | kept hkept => exact hnear display c hkept
  | started now periodNanos hstarts hp heq hnow =>
    subst heq
    exact Clock.start_near hp (hregular.1 _ hstarts) (htimely.1 _ hstarts)
  | observed before now timestampNanos periodNanos hcall hbefore heq hnow =>
    subst hcall heq
    have hmem := ExtTreeMap.mem_toList_iff_getElem?_eq_some.mpr hbefore
    exact Clock.observe_near (h display before hbefore).1 (hnear display before hbefore)
      (hregular.2.1 _ rfl _ hmem) (htimely.2 _ rfl _ hmem)
  | woken before now hcall hbefore heq hnow =>
    subst hcall heq
    obtain ⟨hticking, hsince⟩ := h display before hbefore
    have hmem := ExtTreeMap.mem_toList_iff_getElem?_eq_some.mpr hbefore
    obtain ⟨htime, hfits⟩ := hregular.2.2 now rfl
    exact Clock.wake_near hticking (hnear display before hbefore) (hsince.trans htime)
      (hfits _ hmem)

theorem Sound.run {calls : List VsyncCall} (h : s.Sound)
    (hregular : Along (fun done call => (s.run done).Regular call) calls) : (s.run calls).Sound :=
  @Along.foldl _ calls _ VsyncScheduler.step s Regular Sound hregular h
    (fun _ _ hcall hs => hs.step hcall)

theorem AllNear.run {calls : List VsyncCall} (h : s.Sound) (hnear : s.AllNear)
    (hcalls : Along (fun done call => (s.run done).Regular call ∧ (s.run done).Timely call) calls) :
    (s.run calls).Sound ∧ (s.run calls).AllNear :=
  @Along.foldl _ calls _ VsyncScheduler.step s (fun s call => s.Regular call ∧ s.Timely call)
    (fun s => s.Sound ∧ s.AllNear) hcalls ⟨h, hnear⟩
    (fun _ _ hcall hs => ⟨hs.1.step hcall.1, hs.2.step hs.1 hcall.1 hcall.2⟩)

theorem step_hostClock (s : VsyncScheduler) (call : VsyncCall) :
    (s.step call).hostClock = s.hostClock := by
  cases call with
  | disable | clear => rfl
  | setEnabled now display enabled periodNanos =>
    simp only [step, setEnabled]
    split
    · rfl
    · split <;> rfl
  | updatePeriod now display periodNanos =>
    simp only [step, updatePeriod]
    split
    · rfl
    · split
      · rfl
      · split <;> rfl
  | observePresentation now timestampNanos periodNanos =>
    simp only [step, observePresentation]
    split <;> rfl
  | wake now =>
    simp only [step, wake]
    split <;> rfl

/-- The timer thread's scheduler. -/
def timer : VsyncScheduler := { hostClock := false }

theorem run_timer_hostClock (calls : List VsyncCall) : (timer.run calls).hostClock = false := by
  induction calls using List.reverseRecOn with
  | nil => rfl
  | append_singleton calls call ih =>
    rw [run, List.foldl_concat, step_hostClock]
    exact ih

theorem timer_sound : timer.Sound := by
  intro display c hc
  simp [timer] at hc

/-- After a wake-up every clock has had its turn. -/
theorem woken_of_wake {now : Nat} (htimer : s.hostClock = false)
    (hc : (s.step (.wake now)).displays[display]? = some c) :
    ∃ before, s.displays[display]? = some before ∧ c = before.wake now := by
  simp only [step, wake, htimer, Bool.false_eq_true, if_false, ExtTreeMap.getElem?_map,
    Option.map_eq_some_iff] at hc
  obtain ⟨before, hbefore, rfl⟩ := hc
  exact ⟨before, hbefore, rfl⟩

/-- What a wake-up delivers for a display is the last entry of its clock's history. -/
theorem mem_ticks_of_due {now t periodNanos : Nat} {before : Clock} (htimer : s.hostClock = false)
    (hbefore : s.displays[display]? = some before)
    (hdue : (display, t, periodNanos) ∈ (s.wake now).1) : (t, now) ∈ (before.wake now).ticks := by
  simp only [wake, htimer, Bool.false_eq_true, if_false, List.mem_filterMap,
    Option.map_eq_some_iff] at hdue
  obtain ⟨⟨other, c⟩, hmem, delivered, hwake, heq⟩ := hdue
  cases heq
  rw [ExtTreeMap.mem_toList_iff_getElem?_eq_some, hbefore] at hmem
  cases hmem
  simp [Clock.wake, hwake]

/-- **The vsync grid.**  Between two (re-)phasings of a clock, what it delivers (each delivery is
    an entry of `ticks`) increases, lies on one grid and is never early.  If no phase is taken from
    more than a period ahead, its next point after a wake-up is the first of that grid after now. -/
theorem vsync_grid (calls : List VsyncCall)
    (hregular : Along (fun done call => (timer.run done).Regular call) calls)
    {display : DisplayId} {c : Clock} (hc : (timer.run calls).displays[display]? = some c) :
    (c.ticks.map Prod.fst).Pairwise (· < ·) ∧
    (∀ tick ∈ c.ticks, tick.1 ≡ c.phase [MOD c.periodNanos] ∧ tick.1 ≤ tick.2) ∧
    (∀ done now, calls = done ++ [.wake now] → ∀ t periodNanos,
      (display, t, periodNanos) ∈ ((timer.run done).wake now).1 → (t, now) ∈ c.ticks) ∧
    (Along (fun done call => (timer.run done).Timely call) calls →
      ∀ done now, calls = done ++ [.wake now] →
        IsNext c.periodNanos c.phase now c.nextNanos ∧ c.nextNanos ≤ now + c.periodNanos) := by
  have hticking := (timer_sound.run hregular display c hc).1
  have hwoken : ∀ done now, calls = done ++ [.wake now] →
      ∃ before, (timer.run done).displays[display]? = some before ∧ c = before.wake now := by
    intro done now heq
    rw [heq, run, List.foldl_concat] at hc
    exact woken_of_wake (run_timer_hostClock done) hc
  refine ⟨hticking.ticks_increasing, hticking.ticks_grid, ?_, ?_⟩
  · intro done now heq t periodNanos hdue
    obtain ⟨before, hbefore, rfl⟩ := hwoken done now heq
    exact mem_ticks_of_due (run_timer_hostClock done) hbefore hdue
  intro htimely done now heq
  have hboth : Along (fun done call => (timer.run done).Regular call ∧
      (timer.run done).Timely call) calls :=
    fun before call after h => ⟨hregular before call after h, htimely before call after h⟩
  have hnear := (AllNear.run timer_sound (by simp [AllNear, timer]) hboth).2 display c hc
  have hsince : c.since = now := by
    obtain ⟨before, -, rfl⟩ := hwoken done now heq
    rfl
  have hnext := hticking.isNext hnear
  rw [hsince] at hnext
  exact ⟨hnext, ((isNext_iff hticking.period_pos).mp hnext).2.2⟩

instance (s : VsyncScheduler) (calls : List VsyncCall) :
    Decidable (Along (fun done call => (s.run done).Regular call) calls) :=
  decidableAlong step Regular s calls

instance (s : VsyncScheduler) (calls : List VsyncCall) :
    Decidable (Along (fun done call => (s.run done).Timely call) calls) :=
  decidableAlong step Timely s calls

/-- A clock on the phase of a presentation that is over, woken late and then early. -/
def lateCalls : List VsyncCall :=
  [.observePresentation 95 90 10, .setEnabled 96 7 true 10, .wake 118, .wake 119]

theorem vsync_grid_late :
    Along (fun done call => (timer.run done).Regular call) lateCalls ∧
    Along (fun done call => (timer.run done).Timely call) lateCalls ∧
    ∃ c : Clock, (timer.run lateCalls).displays[(7 : DisplayId)]? = some c ∧
      c.ticks = [(100, 118)] ∧ IsNext c.periodNanos c.phase 119 c.nextNanos := by
  have hregular : Along (fun done call => (timer.run done).Regular call) lateCalls := by
    decide
  have htimely : Along (fun done call => (timer.run done).Timely call) lateCalls := by
    decide
  have hc : (timer.run lateCalls).displays[(7 : DisplayId)]? =
      some ⟨⟨10, 120, true⟩, 90, 119, [(100, 118)]⟩ := by
    decide
  refine ⟨hregular, htimely, _, hc, rfl, ?_⟩
  exact ((vsync_grid lateCalls hregular hc).2.2.2 htimely (lateCalls.take 3) 119 rfl).1

/-- Feedback that is stamped ten periods ahead, then a clock of the same period. -/
def aheadCalls : List VsyncCall :=
  [.observePresentation 0 100 10, .setEnabled 0 7 true 10, .wake 5]

/-- The clock sleeps through nine points of its grid. -/
theorem clock_sleeps_through_phase_ahead :
    Along (fun done call => (timer.run done).Regular call) aheadCalls ∧
    ∃ c : Clock, (timer.run aheadCalls).displays[(7 : DisplayId)]? = some c ∧
      c.periodNanos = 10 ∧ c.phase = 100 ∧ c.nextNanos = 100 ∧
      ¬ IsNext c.periodNanos c.phase 5 c.nextNanos := by
  have hc : (timer.run aheadCalls).displays[(7 : DisplayId)]? =
      some ⟨⟨10, 100, true⟩, 100, 5, []⟩ := by
    decide
  refine ⟨by decide, _, hc, rfl, rfl, rfl, ?_⟩
  rw [isNext_iff (by decide)]
  decide

/-! ## Host grants -/

/-- What the phase offset and the latch budget take off a grant's latch. -/
def SF_PHASE_OFFSET_NANOS : Nat := 1000000
def SF_LATCH_BUDGET_NANOS : Nat := 2000000

/-- A plain `+` on `u64`: out of range it panics, or wraps where overflow checks are off. -/
inductive Overflow
  | overflow
deriving DecidableEq, Repr

def plainAdd (a b : Nat) : Except Overflow Nat :=
  if a + b < 2 ^ 64 then .ok (a + b) else .error .overflow

/-- `deliver_vsyncs`: a vsync that Binder cannot express is not delivered. -/
def deliverVsyncs (due : List Due) : List Due :=
  due.filter fun (display, timestampNanos, periodNanos) =>
    display.toNat < 2 ^ 63 ∧ timestampNanos < 2 ^ 63 ∧ periodNanos < 2 ^ 31

/-- The displays at the grant's period, each with the sample time. -/
def granted (s : VsyncScheduler) (timestampNanos periodNanos : Nat) : List Due :=
  (s.displays.toList.filter fun entry => periodsCompatible entry.2.periodNanos periodNanos).map
    fun entry => (entry.1, timestampNanos, entry.2.periodNanos)

/-- What is delivered at a sample time, if there is one. -/
def atSample (s : VsyncScheduler) (timestampNanos : Option Nat) (periodNanos : Nat) : List Due :=
  match timestampNanos with
  | none => []
  | some timestampNanos => deliverVsyncs (s.granted timestampNanos periodNanos)

/-- `u64::checked_sub`. -/
def checkedSub (a b : Nat) : Option Nat := if b ≤ a then some (a - b) else none

/-- **A host grant as a vsync**, at the vblank before its latch and early by what Surface Flinger
    needs. -/
def frameGrant (s : VsyncScheduler) (latchNanos periodNanos : Nat) :
    Except Overflow (List Due) :=
  if ¬ s.hostClock then .ok []
  else do
    let offset ← plainAdd periodNanos SF_PHASE_OFFSET_NANOS
    let offset ← plainAdd offset SF_LATCH_BUDGET_NANOS
    return s.atSample (checkedSub latchNanos offset) periodNanos

/-- What a grant's sample time is before its latch. -/
def grantOffset (periodNanos : Nat) : Nat :=
  periodNanos + SF_PHASE_OFFSET_NANOS + SF_LATCH_BUDGET_NANOS

/-- The vsyncs delivered for a grant: its sample time to every display at its period, or nothing
    if that is before the clock's zero or the host does not drive the clock. -/
def Delivers (s : VsyncScheduler) (latchNanos periodNanos : Nat) (calls : List Due) : Prop :=
  (s.hostClock ∧ grantOffset periodNanos ≤ latchNanos ∧
    calls = deliverVsyncs (s.granted (latchNanos - grantOffset periodNanos) periodNanos)) ∨
  ((s.hostClock = false ∨ latchNanos < grantOffset periodNanos) ∧ calls = [])

theorem plainAdd_of_lt {a b : Nat} (h : a + b < 2 ^ 64) : plainAdd a b = .ok (a + b) := if_pos h

theorem plainAdd_of_le {a b : Nat} (h : 2 ^ 64 ≤ a + b) : plainAdd a b = .error .overflow :=
  if_neg (Nat.not_lt.mpr h)

/-- Without a host clock the grant is dropped before any sum is made. -/
theorem frameGrant_timer {s : VsyncScheduler} (htimer : s.hostClock = false)
    (latchNanos periodNanos : Nat) : s.frameGrant latchNanos periodNanos = .ok [] := by
  simp [frameGrant, htimer]

theorem frameGrant_fits {s : VsyncScheduler} {latchNanos periodNanos : Nat}
    (hhost : s.hostClock = true) (hfits : grantOffset periodNanos < 2 ^ 64) :
    s.frameGrant latchNanos periodNanos =
      .ok (s.atSample (checkedSub latchNanos (grantOffset periodNanos)) periodNanos) := by
  unfold grantOffset at hfits ⊢
  have hfirst : periodNanos + SF_PHASE_OFFSET_NANOS < 2 ^ 64 :=
    Nat.lt_of_le_of_lt (Nat.le_add_right _ _) hfits
  rw [frameGrant, hhost, if_neg (by simp), bind_eq_ok]
  exact ⟨_, plainAdd_of_lt hfirst, bind_eq_ok.mpr ⟨_, plainAdd_of_lt hfits, rfl⟩⟩

theorem frameGrant_overflows {s : VsyncScheduler} {latchNanos periodNanos : Nat}
    (hhost : s.hostClock = true) (hlarge : 2 ^ 64 ≤ grantOffset periodNanos) :
    s.frameGrant latchNanos periodNanos = .error .overflow := by
  unfold grantOffset at hlarge
  rw [frameGrant, hhost, if_neg (by simp), bind_eq_error]
  by_cases hfirst : periodNanos + SF_PHASE_OFFSET_NANOS < 2 ^ 64
  · exact .inr ⟨_, plainAdd_of_lt hfirst, bind_eq_error.mpr (.inl (plainAdd_of_le hlarge))⟩
  · exact .inl (plainAdd_of_le (Nat.not_lt.mp hfirst))

/-- **Host grants.**  A grant that the decoder accepts is delivered without overflow exactly if its
    period leaves room for Surface Flinger's offsets. -/
theorem frameGrant_delivers_iff {bytes : ByteCodec.Bytes} {descriptors : Nat}
    {packet : Wire.DecodedPacket DenialMessage} {latchNanos targetNanos periodNanos : UInt64}
    (_hpacket : Wire.decodeDenial bytes descriptors = .ok packet)
    (_hmessage : packet.message = .frameGrant latchNanos targetNanos periodNanos)
    (s : VsyncScheduler) :
    (∃ calls, s.frameGrant latchNanos.toNat periodNanos.toNat = .ok calls ∧
      s.Delivers latchNanos.toNat periodNanos.toNat calls) ↔
    (s.hostClock → grantOffset periodNanos.toNat < 2 ^ 64) := by
  cases hhost : s.hostClock with
  | false =>
    exact iff_of_true ⟨[], frameGrant_timer hhost _ _, .inr ⟨.inl hhost, rfl⟩⟩
      (fun h => (by cases h))
  | true =>
    constructor
    · rintro ⟨calls, hok, -⟩ -
      by_contra hlarge
      rw [frameGrant_overflows hhost (Nat.not_lt.mp hlarge)] at hok
      cases hok
    · intro hfits
      refine ⟨_, frameGrant_fits hhost (hfits rfl), ?_⟩
      by_cases hafter : grantOffset periodNanos.toNat ≤ latchNanos.toNat
      · rw [checkedSub, if_pos hafter]
        exact .inl ⟨hhost, hafter, rfl⟩
      · rw [checkedSub, if_neg hafter]
        exact .inr ⟨.inr (Nat.not_le.mp hafter), rfl⟩

/-- A grant with the longest period that the validator admits. -/
def longGrant : ByteCodec.Bytes :=
  [68, 76, 79, 77, 1, 0, 9, 0, 17, 128, 0, 0, 0, 0, 0, 0, 0, 0, 0, 0, 0, 0, 0, 0, 24, 0, 0, 0,
    0, 0, 0, 0, 1, 0, 0, 0, 0, 0, 0, 0, 2, 0, 0, 0, 0, 0, 0, 0, 255, 255, 255, 255, 255, 255,
    255, 255]

theorem longGrant_overflows :
    Wire.decodeDenial longGrant 0 = .ok ⟨.frameGrant 1 2 0xffffffffffffffff, []⟩ ∧
    frameGrant { hostClock := true } (1 : UInt64).toNat (0xffffffffffffffff : UInt64).toNat =
      .error .overflow := by
  refine ⟨by decide, by decide⟩

/-- A grant of a 60 Hz host. -/
def usualGrant : ByteCodec.Bytes :=
  [68, 76, 79, 77, 1, 0, 9, 0, 17, 128, 0, 0, 0, 0, 0, 0, 0, 0, 0, 0, 0, 0, 0, 0, 24, 0, 0, 0,
    0, 0, 0, 0, 0, 45, 49, 1, 0, 0, 0, 0, 128, 195, 201, 1, 0, 0, 0, 0, 42, 80, 254, 0, 0, 0,
    0, 0]

theorem frameGrant_delivers_iff_usual :
    Wire.decodeDenial usualGrant 0 = .ok ⟨.frameGrant 20000000 30000000 16666666, []⟩ ∧
    ((∃ calls, frameGrant { hostClock := true } (20000000 : UInt64).toNat
        (16666666 : UInt64).toNat = .ok calls ∧
      Delivers { hostClock := true } (20000000 : UInt64).toNat (16666666 : UInt64).toNat calls) ↔
    (true = true → grantOffset (16666666 : UInt64).toNat < 2 ^ 64)) := by
  have hpacket : Wire.decodeDenial usualGrant 0 =
      .ok ⟨.frameGrant 20000000 30000000 16666666, []⟩ := by
    decide
  exact ⟨hpacket, frameGrant_delivers_iff hpacket rfl _⟩

end VsyncScheduler

end Droidloom.Graphics
