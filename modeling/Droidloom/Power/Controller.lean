/-
  Performance hint sessions as utilization floors (`droidloom-power`).

  Each session names the threads that produce a client's frames and learns a floor from the work it
  reports; a thread gets the highest floor of the sessions that contain it.  The controller calls
  the actuator only for threads whose floor changed, and remembers what it applied.

  The actuator is an ORACLE over the history of its calls, so it may answer anything at any time.
  The code's `u32` additions and multiplications are checked: one that leaves 32 bits is an error.
  Instants are nanoseconds; session numbers, 64 bits wide in the code, are not bounded here.
-/
import Droidloom.Lib.Fallible

namespace Droidloom.Power

open Fallible
open Std (ExtTreeMap)

def UTIL_MAX : Nat := 1024
def MIN_RAISE : Nat := 16
def MAX_RAISE : Nat := 256
def DECAY : Nat := 4
def HINT_STEP : Nat := 128
def QUANTUM : Nat := 16
def STALE_PERIODS : Nat := 10
def MIN_STALE : Nat := 100 * 1000 * 1000
def MAX_STALE : Nat := 2 * 1000 * 1000 * 1000
def RESCAN : Nat := 1000 * 1000 * 1000
def INTERACTION_HOLD : Nat := 1500 * 1000 * 1000

/-! ## 32-bit arithmetic -/

inductive Overflow
  | overflow
deriving DecidableEq, Repr

def add32 (a b : Nat) : Except Overflow Nat :=
  if a + b < 2 ^ 32 then .ok (a + b) else .error .overflow

def mul32 (a b : Nat) : Except Overflow Nat :=
  if a * b < 2 ^ 32 then .ok (a * b) else .error .overflow

/-! ## Bounds from the CPU capacities -/

structure Policy where
  /-- Floor for upcoming work of unknown size. -/
  baseline : Nat
  /-- Floor that user interaction seeds. -/
  interaction : Nat
  /-- Highest floor. -/
  ceiling : Nat
deriving DecidableEq, Repr

/-- A CPU more in its tier. -/
def countTier (tiers : List (Nat × Nat)) (capacity : Nat) : List (Nat × Nat) :=
  if tiers.any (·.1 = capacity) then
    tiers.map fun tier => if tier.1 = capacity then (tier.1, tier.2 + 1) else tier
  else tiers ++ [(capacity, 1)]

/-- The tiers of the CPUs, smallest capacity first, with how many CPUs each has. -/
def tiersOf (capacities : List Nat) : List (Nat × Nat) :=
  ((((capacities.filter (0 < ·)).map (min · UTIL_MAX)).foldl countTier [])).insertionSort
    fun a b => a.1 ≤ b.1

/-- The capacity of the largest tier with at least two CPUs. -/
def wideOf (tiers : List (Nat × Nat)) : Nat :=
  ((tiers.reverse.find? (2 ≤ ·.2)).or tiers.getLast?).elim UTIL_MAX (·.1)

def baselineOf (tiers : List (Nat × Nat)) (ceiling : Nat) : Nat :=
  match tiers with
  | (little, _) :: _ :: _ =>
    if little < ceiling then min (little + UTIL_MAX / 16) ceiling else ceiling / 2
  | _ => ceiling / 2

def Policy.fromCapacities (capacities : List Nat) : Policy :=
  let tiers := tiersOf capacities
  let ceiling := wideOf tiers * 4 / 5
  let baseline := baselineOf tiers ceiling
  { baseline, interaction := (baseline + ceiling) / 2, ceiling }

/-! ## Sessions -/

structure Work where
  totalNs : Int
  cpuNs : Int
deriving DecidableEq, Repr

/-- The CPU part wins over wall time, where the client measured it. -/
def Work.spent (work : Work) : Int := if work.cpuNs > 0 then work.cpuNs else work.totalNs

inductive Hint
  | loadUp
  | loadDown
  | loadReset
  | loadResume
  | loadSpike
deriving DecidableEq, Repr

inductive ApplyError
  | gone
  | other (message : String)
deriving DecidableEq, Repr

structure Session where
  tgid : Int
  uid : Int
  tag : Int
  tids : List Int
  drivers : List Int
  targetNs : Int
  floor : Nat
  activeUntil : Option Nat
  scannedAt : Option Nat
  spike : Bool
  paused : Bool
  efficient : Bool
deriving DecidableEq, Repr

namespace Session

def threads (session : Session) : List Int := session.tids ++ session.drivers

def contains (session : Session) (tid : Int) : Bool :=
  session.tids.contains tid || session.drivers.contains tid

def activate (now : Nat) (session : Session) : Session :=
  let stale := min (max (session.targetNs.toNat * STALE_PERIODS) MIN_STALE) MAX_STALE
  { session with activeUntil := some (now + stale) }

def demand (session : Session) (ceiling : Nat) : Nat :=
  if session.paused || session.efficient || session.activeUntil.isNone then 0
  else if session.spike then ceiling
  else min session.floor ceiling

/-- A new session, before its first activation. -/
def opened (tgid uid tag : Int) (tids : List Int) (targetNs : Int) (floor : Nat) : Session :=
  { tgid, uid, tag, tids, drivers := [], targetNs, floor, activeUntil := none, scannedAt := none
    spike := false, paused := false, efficient := false }

/-- A thread that exited leaves the session. -/
def forget (tid : Int) (session : Session) : Session :=
  { session with
    tids := session.tids.filter (· ≠ tid)
    drivers := session.drivers.filter (· ≠ tid) }

end Session

/-- Half of the overrun's fraction of the target raises the floor; work well under it decays. -/
def adjust (floor : Nat) (work : Work) (targetNs : Int) (ceiling : Nat) : Except Overflow Nat :=
  if work.spent ≤ 0 ∨ targetNs ≤ 0 then .ok floor
  else if work.spent > targetNs then do
    let raise := ((work.spent - targetNs) * UTIL_MAX / (2 * targetNs)).toNat
    let raised ← add32 floor (min (max raise MIN_RAISE) MAX_RAISE)
    return min raised ceiling
  else if work.spent * 10 < targetNs * 7 then .ok (floor - DECAY)
  else .ok floor

def adjustAll (targetNs : Int) (ceiling : Nat) : Nat → List Work → Except Overflow Nat
  | floor, [] => .ok floor
  | floor, work :: rest => do
    let floor ← adjust floor work targetNs ceiling
    adjustAll targetNs ceiling floor rest

def unique (tids : List Int) : List Int :=
  ((tids.filter (0 < ·)).insertionSort (· ≤ ·)).dedup

/-! ## The controller -/

inductive Call
  | apply (tid : Int) (floor : Nat) (answer : Except ApplyError Unit)
  | driverThreads (tgid : Int)

/-- How an actuator answers, given its calls so far. -/
structure Actuator where
  apply : List Call → Int → Nat → Except ApplyError Unit
  driverThreads : List Call → Int → List Int

structure Controller where
  policy : Policy
  /-- The calls on the actuator, oldest first. -/
  calls : List Call := []
  sessions : ExtTreeMap Nat Session compare := ∅
  applied : ExtTreeMap Int Nat compare := ∅
  nextId : Nat := 1
  lowPower : Bool := false
  interactingUntil : Option Nat := none
  warned : Bool := false

namespace Controller

abbrev Method := EStateM Overflow Controller

/-- Lowest learned floor while an interaction hold lasts. -/
def held (s : Controller) (now : Nat) : Nat :=
  match s.interactingUntil with
  | some deadline => if now < deadline then s.policy.interaction else 0
  | none => 0

def ceiling (s : Controller) : Nat :=
  if s.lowPower then s.policy.baseline else s.policy.ceiling

/-- `sessions.values()`, in the order of their numbers. -/
def all (s : Controller) : List Session := s.sessions.toList.map (·.2)

/-- The highest demand of the sessions that contain a thread. -/
def demandOn (s : Controller) (tid : Int) : Nat :=
  ((s.all.filter (·.contains tid)).map (·.demand s.ceiling)).max?.getD 0

def update (id : Nat) (session : Session) (s : Controller) : Controller :=
  { s with sessions := s.sessions.insert id session }

def forget (tid : Int) (s : Controller) : Controller :=
  { s with
    applied := s.applied.erase tid
    sessions := s.sessions.map fun _ session => session.forget tid }

def called (call : Call) (s : Controller) : Controller :=
  { s with calls := s.calls ++ [call] }

/-- What the answer to `apply` does to the books. -/
def answered (tid : Int) (floor : Nat) (answer : Except ApplyError Unit) (s : Controller) :
    Controller :=
  match answer with
  | .ok _ => { s with
      applied := if floor = 0 then s.applied.erase tid else s.applied.insert tid floor }
  | .error .gone => s.forget tid
  | .error (.other _) => { s with warned := true }

def quantize (demand ceiling : Nat) : Except Overflow Nat :=
  if demand = 0 then .ok 0
  else do
    let rounded ← mul32 ((demand + QUANTUM - 1) / QUANTUM) QUANTUM
    return min rounded ceiling

section

variable (actuator : Actuator)

def syncThread (tid : Int) : Method Unit := do
  let s ← get
  let floor ← mapErr id (quantize (s.demandOn tid) s.ceiling)
  if floor = (s.applied[tid]?).getD 0 then
    return ()
  else
    let answer := actuator.apply s.calls tid floor
    set ((s.called (.apply tid floor answer)).answered tid floor answer)

def syncLoop : List Int → Method Unit
  | [] => return ()
  | tid :: rest => do
    syncThread actuator tid
    syncLoop rest

def sync (tids : List Int) : Method Unit :=
  syncLoop actuator (tids.insertionSort (· ≤ ·)).dedup

def syncSession (id : Nat) : Method Unit := do
  let s ← get
  match s.sessions[id]? with
  | some session => sync actuator session.threads
  | none => return ()

def syncAll : Method Unit := do
  let s ← get
  sync actuator (s.all.flatMap Session.threads ++ s.applied.keys)

/-- The driver queue threads of the session's process, those apart that its client named. -/
def rescan (id : Nat) (now : Nat) : Method Unit := do
  let s ← get
  match s.sessions[id]? with
  | none => return ()
  | some session =>
    let found := actuator.driverThreads s.calls session.tgid
    let drivers := (unique found).filter fun tid => !session.tids.contains tid
    let scanned := { session with drivers, scannedAt := some now }
    set ((s.called (.driverThreads session.tgid)).update id scanned)
    sync actuator (session.drivers.filter fun tid => !drivers.contains tid)

def create (tgid uid tag : Int) (tids : List Int) (targetNs : Int) (now : Nat) : Method Nat := do
  let s ← get
  let floor := max s.policy.baseline (s.held now)
  let session := Session.opened tgid uid tag (unique tids) targetNs floor
  set ({ s with nextId := s.nextId + 1 }.update s.nextId (session.activate now))
  rescan actuator s.nextId now
  syncSession actuator s.nextId
  return s.nextId

def close (id : Nat) : Method Unit := do
  let s ← get
  match s.sessions[id]? with
  | none => return ()
  | some session =>
    set { s with sessions := s.sessions.erase id }
    sync actuator session.threads

def setTarget (id : Nat) (targetNs : Int) : Method Unit := do
  let s ← get
  match s.sessions[id]? with
  | none => return ()
  | some session =>
    if targetNs > 0 then set (s.update id { session with targetNs }) else return ()

/-- The session after a report of completed work. -/
def learn (session : Session) (work : List Work) (ceiling held now : Nat) :
    Except Overflow Session :=
  if session.spike then .ok (({ session with spike := false }).activate now)
  else do
    let floor ← adjustAll session.targetNs ceiling session.floor work
    return ({ session with floor := max floor held }).activate now

/-- Driver queues start with their GL context, after the session exists. -/
def wantsRescan (session : Session) (ceiling now : Nat) : Bool :=
  decide (0 < session.demand ceiling) &&
    match session.scannedAt with
    | some scanned => decide (RESCAN ≤ now - scanned)
    | none => true

def report (id : Nat) (work : List Work) (now : Nat) : Method Unit := do
  let s ← get
  match s.sessions[id]? with
  | none => return ()
  | some session =>
    let learned ← mapErr (fun e : Overflow => e)
      (learn session work s.policy.ceiling (s.held now) now)
    set (s.update id learned)
    if wantsRescan learned s.policy.ceiling now then
      rescan actuator id now
      syncSession actuator id
    else
      syncSession actuator id

/-- The session after a CPU load hint. -/
def hinted (policy : Policy) (held : Nat) (session : Session) (now : Nat) :
    Hint → Except Overflow Session
  | .loadUp => do
    let raised ← add32 (max session.floor policy.baseline) HINT_STEP
    return ({ session with floor := min raised policy.ceiling }).activate now
  | .loadDown => .ok { session with floor := max (session.floor - HINT_STEP) held }
  | .loadReset => .ok (({ session with floor := max session.floor policy.baseline }).activate now)
  | .loadResume => .ok (session.activate now)
  | .loadSpike => .ok (({ session with spike := true }).activate now)

def hint (id : Nat) (hint : Hint) (now : Nat) : Method Unit := do
  let s ← get
  match s.sessions[id]? with
  | none => return ()
  | some session =>
    let session ← mapErr (fun e : Overflow => e) (hinted s.policy (s.held now) session now hint)
    set (s.update id session)
    if hint = .loadReset ∨ hint = .loadResume then
      rescan actuator id now
      syncSession actuator id
    else
      syncSession actuator id

/-- `if let Some(session)`: the session is changed and its threads are brought up to date. -/
def change (id : Nat) (f : Session → Session) : Method Unit := do
  let s ← get
  match s.sessions[id]? with
  | none => return ()
  | some session =>
    set (s.update id (f session))
    syncSession actuator id

def pause (id : Nat) : Method Unit :=
  change actuator id fun session => { session with paused := true }

def resume (id : Nat) (now : Nat) : Method Unit :=
  change actuator id fun session => ({ session with paused := false }).activate now

def setEfficient (id : Nat) (efficient : Bool) : Method Unit :=
  change actuator id fun session => { session with efficient }

def setThreads (id : Nat) (tids : List Int) (now : Nat) : Method Unit := do
  let s ← get
  match s.sessions[id]? with
  | none => return ()
  | some session =>
    set (s.update id { session with tids := unique tids })
    rescan actuator id now
    let after ← get
    sync actuator (session.threads ++ (after.sessions[id]?).elim [] Session.threads)

/-- What an interaction does to a session. -/
def seed (interaction now : Nat) (session : Session) : Session :=
  if !session.paused && !session.efficient then
    ({ session with floor := max session.floor interaction }).activate now
  else session

def interaction (now : Nat) : Method Unit := do
  modify fun s => { s with
    interactingUntil := some (now + INTERACTION_HOLD)
    sessions := s.sessions.map fun _ session => seed s.policy.interaction now session }
  syncAll actuator

def setLowPower (enabled : Bool) : Method Unit := do
  let s ← get
  if s.lowPower ≠ enabled then
    set { s with lowPower := enabled }
    syncAll actuator
  else
    return ()

def stale (now : Nat) (session : Session) : Bool :=
  session.activeUntil.any (· ≤ now)

def retire (now : Nat) (session : Session) : Session :=
  if stale now session then { session with activeUntil := none, spike := false } else session

/-- The next instant at which `expire` would remove a floor. -/
def nextDeadline (s : Controller) : Option Nat :=
  ((s.all.filter fun session => 0 < session.demand s.ceiling).filterMap
    (·.activeUntil)).min?

def expire (now : Nat) : Method (Option Nat) := do
  let s ← get
  set { s with sessions := s.sessions.map fun _ session => retire now session }
  sync actuator ((s.all.filter (stale now)).flatMap Session.threads)
  let s ← get
  return s.nextDeadline

end

end Controller

/-! ## Operations and runs -/

inductive Operation
  | create (tgid uid tag : Int) (tids : List Int) (targetNs : Int) (now : Nat)
  | close (id : Nat)
  | setTarget (id : Nat) (targetNs : Int)
  | report (id : Nat) (work : List Work) (now : Nat)
  | hint (id : Nat) (hint : Hint) (now : Nat)
  | pause (id : Nat)
  | resume (id : Nat) (now : Nat)
  | setThreads (id : Nat) (tids : List Int) (now : Nat)
  | setEfficient (id : Nat) (efficient : Bool)
  | interaction (now : Nat)
  | setLowPower (enabled : Bool)
  | expire (now : Nat)

def Operation.perform (actuator : Actuator) : Operation → Controller.Method Unit
  | .create tgid uid tag tids targetNs now => do
    let _ ← Controller.create actuator tgid uid tag tids targetNs now
  | .close id => Controller.close actuator id
  | .setTarget id targetNs => Controller.setTarget id targetNs
  | .report id work now => Controller.report actuator id work now
  | .hint id load now => Controller.hint actuator id load now
  | .pause id => Controller.pause actuator id
  | .resume id now => Controller.resume actuator id now
  | .setThreads id tids now => Controller.setThreads actuator id tids now
  | .setEfficient id efficient => Controller.setEfficient actuator id efficient
  | .interaction now => Controller.interaction actuator now
  | .setLowPower enabled => Controller.setLowPower actuator enabled
  | .expire now => do
    let _ ← Controller.expire actuator now

/-- A run of the controller; it ends where an operation overflows. -/
def performAll (actuator : Actuator) : List Operation → Controller.Method Unit
  | [] => return ()
  | operation :: rest => do
    operation.perform actuator
    performAll actuator rest

end Droidloom.Power
