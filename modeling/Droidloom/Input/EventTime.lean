/-
  Times of host input events on the monotonic clock that Android shares (`input_time.rs`).

  A compositor stamps an event with the low 32 bits of its millisecond time, and may send the full
  nanosecond time just before it.  Three parts turn these into the time an event is sent with:

  1. `unwrapMillis` puts the missing high bits back: the time next to the receipt that has the right
     low bits, or nothing if that is over a second away.
  2. `Stream` never lets the times of one stream run backwards.
  3. `Precise` queues the full times until their events are handled.  An event finds its own time
     by its milliseconds, and drops the older times on the way.

  The crux of 3 is `Lined`: the queue holds the times of exactly the events that were skipped since
  the last handled one, followed by those still waiting.
-/
import Mathlib

namespace Droidloom.Input

/-! ## Milliseconds to nanoseconds -/

/-- A compositor time further than this from receipt belongs to another clock. -/
def FOREIGN_CLOCK_MILLIS : Nat := 1000
/-- Nanoseconds in a millisecond. -/
def MILLI : Nat := 1000000

/-- `u64::checked_add_signed`. -/
def checkedAddSigned (a : Nat) (offset : Int) : Option Nat :=
  if 0 ≤ a + offset ∧ a + offset < 2 ^ 64 then some (a + offset).toNat else none

/-- `u64::checked_mul`. -/
def checkedMul (a b : Nat) : Option Nat := if a * b < 2 ^ 64 then some (a * b) else none

/-- The signed difference of two wrapping millisecond counters. -/
def wrappingOffset (millis nowMillis : UInt32) : Int := (millis - nowMillis).toInt32.toInt

/-- **The time nearest `now`** whose milliseconds are `millis` modulo `2^32`. -/
def unwrapMillis (millis : UInt32) (now : Nat) : Option Nat :=
  let nowMillis := now / MILLI
  let offset := wrappingOffset millis (UInt32.ofNat nowMillis)
  if offset.natAbs > FOREIGN_CLOCK_MILLIS then none
  else do
    let time ← checkedAddSigned nowMillis offset
    let time ← checkedMul time MILLI
    return min time now

/-- The offset is the one number of the signed range with the right remainder. -/
theorem wrappingOffset_eq_iff {millis : UInt32} {nowMillis : Nat} {offset : Int} :
    wrappingOffset millis (UInt32.ofNat nowMillis) = offset ↔ -2 ^ 31 ≤ offset ∧ offset < 2 ^ 31 ∧
      (2 ^ 32 : Int) ∣ offset - (millis.toNat - nowMillis) := by
  have hword : wrappingOffset millis (UInt32.ofNat nowMillis) =
      (millis.toBitVec - (UInt32.ofNat nowMillis).toBitVec).toInt := rfl
  rw [hword, BitVec.toInt_eq_toNat_bmod, Int.bmod_eq_iff (by norm_num), BitVec.toNat_sub]
  simp only [UInt32.toNat_toBitVec, UInt32.toNat_ofNat']
  omega

/-- `t`, in milliseconds, is at most a second from the receipt at `now`. -/
def NearReceipt (t now : Nat) : Prop :=
  t ≤ now / MILLI + FOREIGN_CLOCK_MILLIS ∧ now / MILLI ≤ t + FOREIGN_CLOCK_MILLIS

section Unwrap
variable {millis : UInt32} {now t : Nat}

/-- The counter difference of a time near the receipt is the true one, whatever wrapped. -/
theorem wrappingOffset_near (hnear : NearReceipt t now) (hlow : millis.toNat = t % 2 ^ 32) :
    wrappingOffset millis (UInt32.ofNat (now / MILLI)) = (t : Int) - (now / MILLI : Nat) := by
  obtain ⟨hlate, hearly⟩ := hnear
  simp only [FOREIGN_CLOCK_MILLIS] at hlate hearly
  rw [wrappingOffset_eq_iff, hlow]
  omega

/-- And only times near the receipt have an offset of at most a second. -/
theorem near_of_wrappingOffset {offset : Int}
    (hoffset : wrappingOffset millis (UInt32.ofNat (now / MILLI)) = offset)
    (hclose : offset.natAbs ≤ FOREIGN_CLOCK_MILLIS) (hpast : 0 ≤ (now / MILLI : Nat) + offset) :
    ∃ t, NearReceipt t now ∧ millis.toNat = t % 2 ^ 32 := by
  obtain ⟨-, -, hdvd⟩ := wrappingOffset_eq_iff.mp hoffset
  have hmillis := millis.toNat_lt
  refine ⟨((now / MILLI : Nat) + offset).toNat, ?_, ?_⟩
  · simp only [NearReceipt, FOREIGN_CLOCK_MILLIS] at hclose ⊢
    omega
  · omega

/-- A time within a second of the receipt is found again from its low 32 bits. -/
theorem unwrapMillis_near (hnow : now < 2 ^ 63) (hnear : NearReceipt t now)
    (hlow : millis.toNat = t % 2 ^ 32) :
    unwrapMillis millis now = some (min (t * MILLI) now) := by
  have hoffset := wrappingOffset_near hnear hlow
  obtain ⟨hlate, hearly⟩ := hnear
  simp only [FOREIGN_CLOCK_MILLIS] at hlate hearly
  -- Even a second after a receipt below 2^63 the product is far from 2^64.
  have hproduct : t * MILLI < 2 ^ 64 := by
    simp only [MILLI] at hlate ⊢
    omega
  have hsum : checkedAddSigned (now / MILLI) ((t : Int) - (now / MILLI : Nat)) = some t := by
    have hcancel : ((now / MILLI : Nat) : Int) + (t - (now / MILLI : Nat)) = t := by omega
    simp only [MILLI] at hproduct
    rw [checkedAddSigned, hcancel, if_pos (by omega), Int.toNat_natCast]
  have hmul : checkedMul t MILLI = some (t * MILLI) := if_pos hproduct
  have hclose : ¬ ((t : Int) - (now / MILLI : Nat)).natAbs > FOREIGN_CLOCK_MILLIS := by
    rw [FOREIGN_CLOCK_MILLIS]
    omega
  rw [unwrapMillis]
  simp only [hoffset]
  rw [if_neg hclose, hsum, Option.bind_eq_bind, Option.bind_some, hmul]
  rfl

/-- Low bits of no time within a second of the receipt belong to another clock. -/
theorem unwrapMillis_foreign (hforeign : ∀ t, NearReceipt t now → millis.toNat ≠ t % 2 ^ 32) :
    unwrapMillis millis now = none := by
  simp only [unwrapMillis]
  split
  · rfl
  · rename_i hclose
    -- In reach, but before the clock's zero: the sum is negative.
    have hpast : ¬ 0 ≤ ((now / MILLI : Nat) : Int) +
        wrappingOffset millis (UInt32.ofNat (now / MILLI)) := by
      intro hpast
      obtain ⟨t, hnear, hlow⟩ := near_of_wrappingOffset rfl (by omega) hpast
      exact hforeign t hnear hlow
    rw [checkedAddSigned, if_neg (fun h => hpast h.1)]
    rfl

theorem unwrapMillis_le {time : Nat} (h : unwrapMillis millis now = some time) : time ≤ now := by
  simp only [unwrapMillis] at h
  split at h
  · cases h
  · obtain ⟨_, -, h⟩ := Option.bind_eq_some_iff.mp h
    obtain ⟨_, -, h⟩ := Option.bind_eq_some_iff.mp h
    cases h
    exact Nat.min_le_right _ _

end Unwrap

/-! ## One stream's times -/

structure Stream where
  last : Nat := 0
deriving DecidableEq, Repr

def Stream.at (s : Stream) (time : Nat) : Nat × Stream := (max s.last time, ⟨max s.last time⟩)

/-- An event with the compositor's `millis` and, if it sent one, its full time `precise`. -/
def Stream.event (s : Stream) (millis : UInt32) (precise : Option Nat) (now : Nat) :
    Nat × Stream :=
  s.at (((precise.map (min · now)).or (unwrapMillis millis now)).getD now)

/-- An event without a compositor time. -/
def Stream.received (s : Stream) (now : Nat) : Nat × Stream := s.at now

inductive Arrival
  | event (millis : UInt32) (precise : Option Nat) (now : Nat)
  | received (now : Nat)
deriving DecidableEq, Repr

def Arrival.now : Arrival → Nat
  | .event _ _ now | .received now => now

def Stream.accept (s : Stream) : Arrival → Nat × Stream
  | .event millis precise now => s.event millis precise now
  | .received now => s.received now

/-- The times returned for a sequence of events. -/
def Stream.times (s : Stream) : List Arrival → List Nat
  | [] => []
  | a :: rest => (s.accept a).1 :: (s.accept a).2.times rest

/-- The latest receipt among `arrivals`. -/
def latestReceipt (arrivals : List Arrival) : Nat := (arrivals.map Arrival.now).foldl max 0

/-- **What an event can do**: its time is the running maximum, raised at most to the receipt. -/
theorem Stream.accept_spec (s : Stream) (a : Arrival) :
    ∃ time ≤ a.now, s.accept a = (max s.last time, ⟨max s.last time⟩) := by
  cases a with
  | received now => exact ⟨now, le_refl now, rfl⟩
  | event millis precise now =>
    refine ⟨_, ?_, rfl⟩
    cases precise with
    | some time => exact min_le_right time now
    | none =>
      cases h : unwrapMillis millis now with
      | none => exact le_refl now
      | some time => exact unwrapMillis_le h

theorem Stream.last_le_times (s : Stream) (arrivals : List Arrival) :
    ∀ time ∈ s.times arrivals, s.last ≤ time := by
  induction arrivals generalizing s with
  | nil => simp [Stream.times]
  | cons a rest ih =>
    obtain ⟨raised, -, haccept⟩ := s.accept_spec a
    intro time hmem
    rw [Stream.times, haccept, List.mem_cons] at hmem
    rcases hmem with rfl | hmem
    · exact le_max_left _ _
    · exact le_trans (le_max_left _ _) (ih _ time hmem)

theorem Stream.times_sorted (s : Stream) (arrivals : List Arrival) :
    (s.times arrivals).Pairwise (· ≤ ·) := by
  induction arrivals generalizing s with
  | nil => exact .nil
  | cons a rest ih =>
    obtain ⟨raised, -, haccept⟩ := s.accept_spec a
    rw [Stream.times, haccept]
    exact .cons (fun time hmem => Stream.last_le_times _ rest time hmem) (ih _)

theorem foldl_max_mono {x y : Nat} (h : x ≤ y) (times : List Nat) :
    times.foldl max x ≤ times.foldl max y := by
  induction times generalizing x y with
  | nil => exact h
  | cons z rest ih => exact ih (max_le_max_right z h)

/-- Each time is at most the greatest of the starting point and the receipts up to its event. -/
theorem Stream.times_le (s : Stream) (arrivals : List Arrival) (i : Nat)
    (h : i < (s.times arrivals).length) :
    (s.times arrivals)[i] ≤
      ((arrivals.take (i + 1)).map Arrival.now).foldl max s.last := by
  induction arrivals generalizing s i with
  | nil => simp [Stream.times] at h
  | cons a rest ih =>
    obtain ⟨raised, hraised, haccept⟩ := s.accept_spec a
    have hnext : max s.last raised ≤ max s.last a.now := max_le_max_left _ hraised
    cases i with
    | zero => simpa [Stream.times, haccept] using hnext
    | succ i =>
      simp only [Stream.times, haccept, List.getElem_cons_succ, List.take_succ_cons, List.map_cons,
        List.foldl_cons]
      refine le_trans (ih _ i (by simpa [Stream.times, haccept] using h)) ?_
      exact foldl_max_mono hnext _

/-- **Event times.**  The low 32 bits of a time within a second of its receipt give that time back,
    but never one after the receipt; all other bits give nothing; and the times of a stream never
    decrease or pass the latest receipt. -/
theorem event_times_reconstructed :
    (∀ (now : Nat) (millis : UInt32), now < 2 ^ 63 →
      (∀ t, NearReceipt t now → millis.toNat = t % 2 ^ 32 →
        unwrapMillis millis now = some (min (t * MILLI) now)) ∧
      ((∀ t, NearReceipt t now → millis.toNat ≠ t % 2 ^ 32) → unwrapMillis millis now = none)) ∧
    ∀ arrivals, (({} : Stream).times arrivals).Pairwise (· ≤ ·) ∧
      ∀ i (h : i < (({} : Stream).times arrivals).length),
        (({} : Stream).times arrivals)[i] ≤ latestReceipt (arrivals.take (i + 1)) := by
  refine ⟨fun now millis hnow => ⟨fun t hnear hlow => unwrapMillis_near hnow hnear hlow,
    unwrapMillis_foreign⟩, fun arrivals => ⟨Stream.times_sorted _ arrivals, fun i h => ?_⟩⟩
  exact Stream.times_le _ arrivals i h

/-- A time just before the counter wrapped, received just after. -/
theorem event_times_reconstructed_wrap : NearReceipt (2 ^ 32 - 2) ((2 ^ 32 + 3) * MILLI) ∧
    unwrapMillis 0xfffffffe ((2 ^ 32 + 3) * MILLI) =
      some (min ((2 ^ 32 - 2) * MILLI) ((2 ^ 32 + 3) * MILLI)) := by
  have hnear : NearReceipt (2 ^ 32 - 2) ((2 ^ 32 + 3) * MILLI) := by
    unfold NearReceipt
    decide
  exact ⟨hnear, (event_times_reconstructed.1 _ 0xfffffffe (by decide)).1 _ hnear (by decide)⟩

/-! ## Full times and their events -/

/-- Most full times that wait for their events. -/
def PRECISE_QUEUE : Nat := 64

/-- Full times in arrival order, each for the next event of its device. -/
structure Precise where
  queue : List Nat := []
deriving DecidableEq, Repr

def Precise.push (p : Precise) (nanos : Nat) : Precise :=
  if p.queue.length = PRECISE_QUEUE then ⟨p.queue.tail ++ [nanos]⟩ else ⟨p.queue ++ [nanos]⟩

/-- `(nanos / 1_000_000) as u32`. -/
def lowMillis (nanos : Nat) : UInt32 := UInt32.ofNat (nanos / MILLI)

/-- The loop of `Precise::take`: drop times until one has the right milliseconds. -/
def takeFrom (millis : UInt32) : List Nat → Option Nat × List Nat
  | [] => (none, [])
  | nanos :: rest => if lowMillis nanos = millis then (some nanos, rest) else takeFrom millis rest

def Precise.take (p : Precise) (millis : UInt32) : Option Nat × Precise :=
  ((takeFrom millis p.queue).1, ⟨(takeFrom millis p.queue).2⟩)

theorem Precise.push_of_lt {p : Precise} (h : p.queue.length < PRECISE_QUEUE) (nanos : Nat) :
    (p.push nanos).queue = p.queue ++ [nanos] := by
  rw [Precise.push, if_neg (Nat.ne_of_lt h)]

/-- The oldest time with the right milliseconds is taken; only older ones are dropped. -/
theorem takeFrom_append {millis : UInt32} {older rest : List Nat} {nanos : Nat}
    (hother : ∀ n ∈ older, lowMillis n ≠ millis) (hown : lowMillis nanos = millis) :
    takeFrom millis (older ++ nanos :: rest) = (some nanos, rest) := by
  induction older with
  | nil => rw [List.nil_append, takeFrom, if_pos hown]
  | cons n older ih =>
    rw [List.cons_append, takeFrom, if_neg (hother n List.mem_cons_self)]
    exact ih (fun m hm => hother m (List.mem_cons_of_mem n hm))

/-- A seat device whose events can carry full times. -/
inductive Device
  | keyboard
  | pointer
  | touch
deriving DecidableEq, Repr

/-- The presenter's part of `App`: the subscriptions' queues and the two streams of times. -/
structure InputTimes where
  timestamps : Device → Precise := fun _ => {}
  keyTimes : Stream := {}
  motionTimes : Stream := {}

/-- The nanoseconds that the three words of a full time make up. -/
def fullNanos (tvSecHi tvSecLo tvNsec : UInt32) : Nat :=
  (tvSecHi.toNat * 2 ^ 32 + tvSecLo.toNat) * 1000000000 + tvNsec.toNat

def InputTimes.push (app : InputTimes) (device : Device) (nanos : Nat) : InputTimes :=
  { app with
    timestamps := Function.update app.timestamps device ((app.timestamps device).push nanos) }

/-- `zwp_input_timestamps_v1.timestamp`: a time that does not fit 64 bits of nanoseconds is lost. -/
def InputTimes.timestamp (app : InputTimes) (device : Device) (tvSecHi tvSecLo tvNsec : UInt32) :
    InputTimes :=
  if fullNanos tvSecHi tvSecLo tvNsec < 2 ^ 64 then
    app.push device (fullNanos tvSecHi tvSecLo tvNsec)
  else app

/-- `App::input_time`: the time of an event of `device`, received at `now`. -/
def InputTimes.inputTime (app : InputTimes) (device : Device) (millis : UInt32) (now : Nat) :
    Nat × InputTimes :=
  let (precise, queue) := (app.timestamps device).take millis
  let app := { app with timestamps := Function.update app.timestamps device queue }
  match device with
  | .keyboard =>
    let (time, stream) := app.keyTimes.event millis precise now
    (time, { app with keyTimes := stream })
  | .pointer | .touch =>
    let (time, stream) := app.motionTimes.event millis precise now
    (time, { app with motionTimes := stream })

theorem InputTimes.inputTime_timestamps (app : InputTimes) (device : Device) (millis : UInt32)
    (now : Nat) : (app.inputTime device millis now).2.timestamps =
      Function.update app.timestamps device ((app.timestamps device).take millis).2 := by
  cases device <;> rfl

/-- A device event as the compositor sends it: its full time first, in three words that make up a
    64-bit number of nanoseconds, then the event with the low bits of its milliseconds.  The
    presenter asks for the time of the events that it handles. -/
structure DeviceEvent where
  tvSecHi : UInt32
  tvSecLo : UInt32
  tvNsec : UInt32
  handled : Bool
  fits : fullNanos tvSecHi tvSecLo tvNsec < 2 ^ 64

def DeviceEvent.nanos (e : DeviceEvent) : Nat := fullNanos e.tvSecHi e.tvSecLo e.tvNsec

def DeviceEvent.millis (e : DeviceEvent) : UInt32 := lowMillis e.nanos

/-- What the presenter was told for an event that it handled. -/
structure Answer where
  device : Device
  event : DeviceEvent
  precise : Option Nat

/-- The presenter with the events on their way to it.  The toolkit delivers the events of a device
    in order but may hold them (`wl_touch.frame`), so that times queue up ahead of their events. -/
structure Seat where
  app : InputTimes := {}
  /-- Sent by the compositor, its handler has not run yet. -/
  waiting : Device → List DeviceEvent := fun _ => []
  /-- Ignored since the last handled event of the device. -/
  skipped : Device → List DeviceEvent := fun _ => []
  answers : List Answer := []

inductive SeatStep
  /-- The compositor sends a full time and its event. -/
  | deliver (device : Device) (event : DeviceEvent)
  /-- The oldest waiting event of a device reaches the presenter at `now`. -/
  | process (device : Device) (now : Nat)

namespace Seat

def deliver (s : Seat) (device : Device) (event : DeviceEvent) : Seat :=
  { s with
    app := s.app.timestamp device event.tvSecHi event.tvSecLo event.tvNsec
    waiting := Function.update s.waiting device (s.waiting device ++ [event]) }

def handle (s : Seat) (device : Device) (event : DeviceEvent) (rest : List DeviceEvent)
    (now : Nat) : Seat :=
  { app := (s.app.inputTime device event.millis now).2
    waiting := Function.update s.waiting device rest
    skipped := Function.update s.skipped device []
    answers := s.answers ++
      [⟨device, event, ((s.app.timestamps device).take event.millis).1⟩] }

def ignore (s : Seat) (device : Device) (event : DeviceEvent) (rest : List DeviceEvent) : Seat :=
  { s with
    waiting := Function.update s.waiting device rest
    skipped := Function.update s.skipped device (s.skipped device ++ [event]) }

def step (s : Seat) : SeatStep → Seat
  | .deliver device event => s.deliver device event
  | .process device now =>
    match s.waiting device with
    | [] => s
    | event :: rest =>
      if event.handled then s.handle device event rest now else s.ignore device event rest

def run (s : Seat) : List SeatStep → Seat
  | [] => s
  | step :: rest => (s.step step).run rest

/-- What the compositor and the toolkit are trusted with: no more times queue up than the presenter
    keeps, and a handled event can be told by its milliseconds from the ignored events whose times
    are still ahead of its own. -/
def Fair (s : Seat) : SeatStep → Prop
  | .deliver device _ => (s.app.timestamps device).queue.length < PRECISE_QUEUE
  | .process device _ => ∀ event ∈ (s.waiting device).head?, event.handled →
      ∀ other ∈ s.skipped device, other.millis ≠ event.millis

def FairRun (s : Seat) : List SeatStep → Prop
  | [] => True
  | step :: rest => s.Fair step ∧ (s.step step).FairRun rest

instance (s : Seat) : (step : SeatStep) → Decidable (s.Fair step)
  | .deliver device _ =>
    inferInstanceAs (Decidable ((s.app.timestamps device).queue.length < PRECISE_QUEUE))
  | .process device _ =>
    inferInstanceAs (Decidable (∀ event ∈ (s.waiting device).head?, event.handled →
      ∀ other ∈ s.skipped device, other.millis ≠ event.millis))

instance decidableFairRun (s : Seat) : (steps : List SeatStep) → Decidable (s.FairRun steps)
  | [] => .isTrue trivial
  | step :: rest =>
    have := decidableFairRun (s.step step) rest
    inferInstanceAs (Decidable (s.Fair step ∧ (s.step step).FairRun rest))

/-- **The queue lines up with the events**: the times of those skipped since the last handled one,
    then of those waiting; and so far every answer was the event's own time. -/
structure Lined (s : Seat) : Prop where
  queue : ∀ device, (s.app.timestamps device).queue =
    (s.skipped device ++ s.waiting device).map DeviceEvent.nanos
  answers : ∀ a ∈ s.answers, a.precise = some a.event.nanos

variable {s : Seat} {device : Device} {event : DeviceEvent} {rest : List DeviceEvent}

theorem Lined.deliver (h : s.Lined)
    (hroom : (s.app.timestamps device).queue.length < PRECISE_QUEUE) :
    (s.deliver device event).Lined := by
  have hpush : s.app.timestamp device event.tvSecHi event.tvSecLo event.tvNsec =
      s.app.push device event.nanos := by
    rw [InputTimes.timestamp, if_pos event.fits, DeviceEvent.nanos]
  rw [Seat.deliver, hpush, InputTimes.push]
  refine ⟨fun d => ?_, h.answers⟩
  by_cases hd : d = device
  · subst hd
    simp only [Function.update_self, Precise.push_of_lt hroom, h.queue d, List.map_append,
      List.map_cons, List.map_nil, List.append_assoc]
  · simp only [Function.update_of_ne hd, h.queue d]

/-- The handled event's own time is the first in the queue that its milliseconds fit. -/
theorem Lined.take (h : s.Lined) (hwait : s.waiting device = event :: rest)
    (hapart : ∀ other ∈ s.skipped device, other.millis ≠ event.millis) :
    (s.app.timestamps device).take event.millis =
      (some event.nanos, ⟨rest.map DeviceEvent.nanos⟩) := by
  have hother : ∀ n ∈ (s.skipped device).map DeviceEvent.nanos, lowMillis n ≠ event.millis := by
    intro n hn
    obtain ⟨other, hmem, rfl⟩ := List.mem_map.mp hn
    exact hapart other hmem
  have hown : lowMillis event.nanos = event.millis := rfl
  rw [Precise.take, h.queue device, hwait, List.map_append, List.map_cons,
    takeFrom_append hother hown]

theorem Lined.handle (h : s.Lined) (hwait : s.waiting device = event :: rest)
    (hapart : ∀ other ∈ s.skipped device, other.millis ≠ event.millis) (now : Nat) :
    (s.handle device event rest now).Lined := by
  have htake := h.take hwait hapart
  constructor
  · intro d
    simp only [Seat.handle, InputTimes.inputTime_timestamps, htake]
    by_cases hd : d = device
    · subst hd
      simp
    · simp only [Function.update_of_ne hd, h.queue d]
  · intro a hmem
    simp only [Seat.handle, List.mem_append, List.mem_singleton, htake] at hmem
    rcases hmem with hmem | rfl
    · exact h.answers a hmem
    · rfl

/-- Ignoring an event leaves the queue alone: its time now counts as skipped. -/
theorem Lined.ignore (h : s.Lined) (hwait : s.waiting device = event :: rest) :
    (s.ignore device event rest).Lined := by
  refine ⟨fun d => ?_, h.answers⟩
  simp only [Seat.ignore]
  by_cases hd : d = device
  · subst hd
    simp [h.queue d, hwait]
  · simp only [Function.update_of_ne hd, h.queue d]

theorem Lined.step (h : s.Lined) (step : SeatStep) (hfair : s.Fair step) : (s.step step).Lined := by
  cases step with
  | deliver device event => exact h.deliver hfair
  | process device now =>
    simp only [Seat.step]
    split
    · exact h
    · rename_i event rest hwait
      split
      · rename_i hhandled
        exact h.handle hwait (hfair event (by rw [hwait]; rfl) hhandled) now
      · exact h.ignore hwait

theorem Lined.run (h : s.Lined) (steps : List SeatStep) (hfair : s.FairRun steps) :
    (s.run steps).Lined := by
  induction steps generalizing s with
  | nil => exact h
  | cons step rest ih => exact ih (h.step step hfair.1) hfair.2

theorem lined_start : ({} : Seat).Lined := ⟨fun _ => rfl, fun _ hmem => by cases hmem⟩

/-- **Full times pair with their own events**, however the devices' events interleave and whichever
    the presenter ignores. -/
theorem precise_times_paired (steps : List SeatStep) (hfair : ({} : Seat).FairRun steps) :
    ∀ a ∈ (({} : Seat).run steps).answers, a.precise = some a.event.nanos :=
  (lined_start.run steps hfair).answers

/-- An ignored touch a millisecond before a handled one, and a key between their handlers. -/
def sampleSteps : List SeatStep :=
  [.deliver .touch ⟨0, 4, 107000002, false, by decide +kernel⟩,
    .deliver .touch ⟨0, 4, 108000003, true, by decide +kernel⟩, .process .touch 4200000000,
    .deliver .keyboard ⟨0, 4, 108500000, true, by decide +kernel⟩, .process .keyboard 4200000001,
    .process .touch 4200000002]

theorem precise_times_paired_sample :
    ({} : Seat).FairRun sampleSteps ∧
      ∀ a ∈ (({} : Seat).run sampleSteps).answers, a.precise = some a.event.nanos :=
  ⟨by decide +kernel, precise_times_paired sampleSteps (by decide +kernel)⟩

end Seat

end Droidloom.Input
