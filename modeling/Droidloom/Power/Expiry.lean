/-
  The expiry thread of the power service (`droidloom-power-service`, `Shared`).

  Every client call runs one controller operation under a mutex and then wakes the expiry thread if
  a floor now ends EARLIER than the thread plans to wake.  The thread deactivates stale sessions,
  notes when it will wake and waits on the condition variable; the wait gives up the mutex and may
  end at any time, notified, timed out or neither.

  A step is one holder's turn with the mutex, or the end of a wait.  A call that overflows would
  panic and leave the mutex without waking anybody, so the argument needs that none does, WHATEVER
  the actuator answers: learned floors stay below the ceiling (`Bounded`), and a pass over threads
  only forgets some of them (`Pruned`).
-/
import Droidloom.Power.Floors

namespace Droidloom.Power

open Fallible Triple
open Std (ExtTreeMap)

/-! ## The service -/

/-- Where the expiry thread is. -/
inductive Expiry
  /-- It wants the mutex: at its start, and after it left a wait. -/
  | locking
  /-- It waits, for ever or until an instant; a notification may be on its way. -/
  | waiting (planned : Option Nat) (notified : Bool)
  /-- A panic ended it. -/
  | stopped
deriving DecidableEq, Repr

structure Shared where
  controller : Controller
  wakeAt : Option Nat
  expiry : Expiry

namespace Shared

def new (policy : Policy) : Shared where
  controller := { policy }
  wakeAt := none
  expiry := .locking

/-- `notify_one` is lost on a thread that does not wait. -/
def notify (s : Shared) : Shared :=
  match s.expiry with
  | .waiting planned _ => { s with expiry := .waiting planned true }
  | _ => s

/-- A floor ends before the thread plans to wake. -/
def early (s : Shared) : Bool :=
  s.controller.nextDeadline.any fun deadline => s.wakeAt.all fun wakeAt => deadline < wakeAt

section

variable (actuator : Actuator)

/-- `with`: one operation, and a notification where it brought a floor's end forward. -/
def call (s : Shared) (operation : Operation) : Shared :=
  match operation.perform actuator s.controller with
  | .ok _ controller =>
    let s := { s with controller }
    if s.early then s.notify else s
  | .error _ controller => { s with controller }

/-- A turn of `expire_forever`, from the mutex to the next wait. -/
def expire (s : Shared) (now : Nat) : Shared :=
  match Controller.expire actuator now s.controller with
  | .ok wakeAt controller =>
    { s with controller, wakeAt,
             expiry := .waiting (wakeAt.map fun deadline => now + (deadline - now)) false }
  | .error _ controller => { s with controller, expiry := .stopped }

inductive Step
  | call (operation : Operation)
  | expire (now : Nat)
  | wake

def step (s : Shared) : Step → Shared
  | .call operation => s.call actuator operation
  | .expire now =>
    match s.expiry with
    | .locking => s.expire actuator now
    | _ => s
  | .wake =>
    match s.expiry with
    | .waiting _ _ => { s with expiry := .locking }
    | _ => s

def run (s : Shared) (steps : List Step) : Shared := steps.foldl (step actuator) s

end

end Shared

/-! ## No operation overflows -/

namespace Controller

variable {s s' s'' : Controller}

/-- The policy's bounds are in order, and no session has learned more than the ceiling. -/
structure Bounded (s : Controller) : Prop where
  baseline : s.policy.baseline ≤ s.policy.ceiling
  interaction : s.policy.interaction ≤ s.policy.ceiling
  bound : s.policy.ceiling ≤ UTIL_MAX
  floor : ∀ (id : Nat) (session : Session), s.sessions[id]? = some session →
    session.floor ≤ s.policy.ceiling

theorem Bounded.ceiling_le (h : Bounded s) : s.ceiling ≤ UTIL_MAX := by
  unfold ceiling
  split
  · exact h.baseline.trans h.bound
  · exact h.bound

theorem Bounded.held_le (h : Bounded s) (now : Nat) : s.held now ≤ s.policy.ceiling := by
  unfold held
  split
  · split
    · exact h.interaction
    · exact Nat.zero_le _
  · exact Nat.zero_le _

/-- A pass over threads invents no session and keeps floors and deadlines. -/
structure Pruned (s s' : Controller) : Prop where
  policy : s'.policy = s.policy
  sessions : ∀ (id : Nat) (session' : Session), s'.sessions[id]? = some session' →
    ∃ session : Session, s.sessions[id]? = some session ∧
      session'.floor = session.floor ∧ session'.activeUntil = session.activeUntil

theorem Pruned.refl (s : Controller) : Pruned s s :=
  ⟨rfl, fun _ session hid => ⟨session, hid, rfl, rfl⟩⟩

theorem Pruned.trans (h : Pruned s s') (h' : Pruned s' s'') : Pruned s s'' where
  policy := h'.policy.trans h.policy
  sessions := fun id last hlast => by
    obtain ⟨next, hnext, hfloor', huntil'⟩ := h'.sessions id last hlast
    obtain ⟨first, hfirst, hfloor, huntil⟩ := h.sessions id next hnext
    exact ⟨first, hfirst, hfloor'.trans hfloor, huntil'.trans huntil⟩

theorem Bounded.pruned (h : Bounded s) (hpruned : Pruned s s') : Bounded s' where
  baseline := hpruned.policy ▸ h.baseline
  interaction := hpruned.policy ▸ h.interaction
  bound := hpruned.policy ▸ h.bound
  floor := fun id session' hid => by
    obtain ⟨session, hsession, hfloor, -⟩ := hpruned.sessions id session' hid
    rw [hfloor, hpruned.policy]
    exact h.floor id session hsession

/-- Other fields do not matter. -/
theorem Bounded.of_eq (h : Bounded s) (hpolicy : s'.policy = s.policy)
    (hsessions : s'.sessions = s.sessions) : Bounded s' :=
  h.pruned ⟨hpolicy, fun _ session hid => ⟨session, hsessions ▸ hid, rfl, rfl⟩⟩

theorem Bounded.update (h : Bounded s) (id : Nat) (session : Session)
    (hfloor : session.floor ≤ s.policy.ceiling) : Bounded (s.update id session) where
  baseline := h.baseline
  interaction := h.interaction
  bound := h.bound
  floor := fun j other hj => by
    have hj : (s.sessions.insert id session)[j]? = some other := hj
    show other.floor ≤ s.policy.ceiling
    by_cases heq : j = id
    · subst heq
      have hsame : session = other := by simpa using hj
      exact hsame ▸ hfloor
    · exact h.floor j other (by grind)

theorem Bounded.map_sessions (h : Bounded s) (f : Session → Session)
    (hfloor : ∀ session : Session, session.floor ≤ s.policy.ceiling →
      (f session).floor ≤ s.policy.ceiling) :
    Bounded { s with sessions := s.sessions.map fun _ session => f session } where
  baseline := h.baseline
  interaction := h.interaction
  bound := h.bound
  floor := fun id session' hid => by
    have hid : (s.sessions.map fun _ session => f session)[id]? = some session' := hid
    rw [ExtTreeMap.getElem?_map] at hid
    obtain ⟨session, hsession, rfl⟩ := Option.map_eq_some_iff.1 hid
    exact hfloor session (h.floor id session hsession)

/-- Whatever the actuator answers, a call only changes its books. -/
theorem pruned_answered (s : Controller) (call : Call) (tid : Int) (floor : Nat)
    (answer : Except ApplyError Unit) :
    Pruned s ((s.called call).answered tid floor answer) := by
  unfold answered
  split
  · exact ⟨rfl, fun _ session hid => ⟨session, hid, rfl, rfl⟩⟩
  · refine ⟨rfl, fun id session' hid => ?_⟩
    rw [getElem?_forget] at hid
    obtain ⟨session, hsession, rfl⟩ := Option.map_eq_some_iff.1 hid
    exact ⟨session, hsession, rfl, rfl⟩
  · exact ⟨rfl, fun _ session hid => ⟨session, hid, rfl, rfl⟩⟩

section

variable {actuator : Actuator}

theorem syncThread_pruned (h : Bounded s) (tid : Int) :
    Ends (syncThread actuator tid) s (fun _ s' => Pruned s s') fun _ => False := by
  unfold syncThread
  refine ends_get_bind ?_
  rw [quantize_eq demandOn_le_ceiling h.ceiling_le]
  refine ends_mapErr_ok_bind ?_
  refine ends_ite (fun _ => ends_pure (.refl s)) fun _ => ends_set ?_
  exact pruned_answered s _ tid _ _

theorem syncLoop_pruned (tids : List Int) : ∀ s, Bounded s →
    Ends (syncLoop actuator tids) s (fun _ s' => Pruned s s') fun _ => False := by
  induction tids with
  | nil => exact fun s _ => ends_pure (.refl s)
  | cons tid rest ih =>
    intro s h
    refine ends_bind (syncThread_pruned h tid) fun _ s₁ h₁ => ?_
    exact (ih s₁ (h.pruned h₁)).mono (fun _ _ h' => h₁.trans h') fun _ hfalse => hfalse

theorem sync_pruned (h : Bounded s) (tids : List Int) :
    Ends (sync actuator tids) s (fun _ s' => Pruned s s') fun _ => False :=
  syncLoop_pruned _ s h

theorem sync_bounded (h : Bounded s) (tids : List Int) :
    Ends (sync actuator tids) s (fun _ s' => Bounded s') fun _ => False :=
  (sync_pruned h tids).mono (fun _ _ hpruned => h.pruned hpruned) fun _ hfalse => hfalse

theorem syncSession_bounded (h : Bounded s) (id : Nat) :
    Ends (syncSession actuator id) s (fun _ s' => Bounded s') fun _ => False := by
  unfold syncSession
  refine ends_get_bind ?_
  split
  · exact sync_bounded h _
  · exact ends_pure h

theorem syncAll_bounded (h : Bounded s) :
    Ends (syncAll actuator) s (fun _ s' => Bounded s') fun _ => False :=
  ends_get_bind (sync_bounded h _)

theorem rescan_bounded (h : Bounded s) (id now : Nat) :
    Ends (rescan actuator id now) s (fun _ s' => Bounded s') fun _ => False := by
  unfold rescan
  refine ends_get_bind ?_
  split
  · exact ends_pure h
  case h_2 session hid =>
    refine ends_set_bind (sync_bounded ?_ _)
    have hcalled : Bounded (s.called (.driverThreads session.tgid)) := h.of_eq rfl rfl
    exact hcalled.update id _ (h.floor id session hid)

/-- A session's change, with or without a look for its driver threads. -/
theorem refresh_bounded (h : Bounded s) (id now : Nat) {c : Prop} [Decidable c] :
    Ends (if c then do
        rescan actuator id now
        syncSession actuator id
      else syncSession actuator id) s (fun _ s' => Bounded s') fun _ => False :=
  ends_ite
    (fun _ => ends_bind (rescan_bounded h id now) fun _ _ h' => syncSession_bounded h' id)
    fun _ => syncSession_bounded h id

theorem change_bounded (h : Bounded s) (id : Nat) {f : Session → Session}
    (hf : ∀ session, (f session).floor = session.floor) :
    Ends (change actuator id f) s (fun _ s' => Bounded s') fun _ => False := by
  unfold change
  refine ends_get_bind ?_
  split
  · exact ends_pure h
  case h_2 session hid =>
    refine ends_set_bind (syncSession_bounded ?_ id)
    exact h.update id _ (by rw [hf]; exact h.floor id session hid)

theorem create_bounded (h : Bounded s) (tgid uid tag : Int) (tids : List Int) (targetNs : Int)
    (now : Nat) : Ends (create actuator tgid uid tag tids targetNs now) s
      (fun _ s' => Bounded s') fun _ => False := by
  refine ends_get_bind (ends_set_bind ?_)
  have hnext : Bounded { s with nextId := s.nextId + 1 } := h.of_eq rfl rfl
  have hnew := hnext.update s.nextId ((Session.opened tgid uid tag (unique tids) targetNs
    (max s.policy.baseline (s.held now))).activate now) (max_le h.baseline (h.held_le now))
  refine ends_bind (rescan_bounded hnew s.nextId now) fun _ _ h₁ => ?_
  exact ends_bind (syncSession_bounded h₁ s.nextId) fun _ _ h₂ => ends_pure h₂

theorem close_bounded (h : Bounded s) (id : Nat) :
    Ends (close actuator id) s (fun _ s' => Bounded s') fun _ => False := by
  unfold close
  refine ends_get_bind ?_
  split
  · exact ends_pure h
  · have hpruned : Pruned s { s with sessions := s.sessions.erase id } := by
      refine ⟨rfl, fun j other hj => ?_⟩
      have hj : (s.sessions.erase id)[j]? = some other := hj
      exact ⟨other, by grind, rfl, rfl⟩
    exact ends_set_bind (sync_bounded (h.pruned hpruned) _)

theorem setTarget_bounded (h : Bounded s) (id : Nat) (targetNs : Int) :
    Ends (setTarget id targetNs) s (fun _ s' => Bounded s') fun _ => False := by
  unfold setTarget
  refine ends_get_bind ?_
  split
  · exact ends_pure h
  case h_2 session hid =>
    exact ends_ite (fun _ => ends_set (h.update id _ (h.floor id session hid))) fun _ => ends_pure h

theorem report_bounded (h : Bounded s) (id : Nat) (work : List Work) (now : Nat) :
    Ends (report actuator id work now) s (fun _ s' => Bounded s') fun _ => False := by
  unfold report
  refine ends_get_bind ?_
  split
  · exact ends_pure h
  case h_2 session hid =>
    obtain ⟨learned, hlearned, hkept⟩ :=
      learn_ok work now (h.floor id session hid) (h.held_le now) h.bound
    rw [hlearned]
    exact ends_mapErr_ok_bind (ends_set_bind (refresh_bounded (h.update id _ hkept.floor) id now))

theorem hint_bounded (h : Bounded s) (id : Nat) (load : Hint) (now : Nat) :
    Ends (hint actuator id load now) s (fun _ s' => Bounded s') fun _ => False := by
  unfold hint
  refine ends_get_bind ?_
  split
  · exact ends_pure h
  case h_2 session hid =>
    obtain ⟨new, hnew, hkept⟩ :=
      hinted_ok now load (h.floor id session hid) (h.held_le now) h.baseline h.bound
    rw [hnew]
    exact ends_mapErr_ok_bind (ends_set_bind (refresh_bounded (h.update id _ hkept.floor) id now))

theorem setThreads_bounded (h : Bounded s) (id : Nat) (tids : List Int) (now : Nat) :
    Ends (setThreads actuator id tids now) s (fun _ s' => Bounded s') fun _ => False := by
  unfold setThreads
  refine ends_get_bind ?_
  split
  · exact ends_pure h
  case h_2 session hid =>
    refine ends_set_bind (ends_bind (rescan_bounded ?_ id now) fun _ _ h' => ?_)
    · exact h.update id _ (h.floor id session hid)
    · exact ends_get_bind (sync_bounded h' _)

theorem interaction_bounded (h : Bounded s) (now : Nat) :
    Ends (interaction actuator now) s (fun _ s' => Bounded s') fun _ => False := by
  refine ends_modify_bind (syncAll_bounded ?_)
  refine Bounded.of_eq (h.map_sessions (seed s.policy.interaction now) fun session hfloor => ?_)
    rfl rfl
  unfold seed
  split
  · exact max_le hfloor h.interaction
  · exact hfloor

theorem setLowPower_bounded (h : Bounded s) (enabled : Bool) :
    Ends (setLowPower actuator enabled) s (fun _ s' => Bounded s') fun _ => False := by
  unfold setLowPower
  refine ends_get_bind ?_
  exact ends_ite (fun _ => ends_set_bind (syncAll_bounded (h.of_eq rfl rfl))) fun _ => ends_pure h

/-- What `expire` leaves: no deadline that has passed, and the next one is what it returns. -/
theorem expire_ends (h : Bounded s) (now : Nat) :
    Ends (expire actuator now) s (fun wakeAt s' => Bounded s' ∧ wakeAt = s'.nextDeadline ∧
      ∀ (id : Nat) (session : Session), s'.sessions[id]? = some session →
        ∀ deadline, session.activeUntil = some deadline → now < deadline) fun _ => False := by
  have hretire : ∀ session : Session, (retire now session).floor = session.floor := by
    intro session
    unfold retire
    split <;> rfl
  have hretired : Bounded { s with sessions := s.sessions.map fun _ session => retire now session } :=
    h.map_sessions _ fun session hfloor => by rw [hretire]; exact hfloor
  refine ends_get_bind (ends_set_bind (ends_bind (sync_pruned hretired _) fun _ s' hpruned => ?_))
  refine ends_get_bind (ends_pure ⟨hretired.pruned hpruned, rfl, ?_⟩)
  intro id session' hid deadline hdeadline
  obtain ⟨retired, hsession, -, huntil⟩ := hpruned.sessions id session' hid
  have hsession : (s.sessions.map fun _ session => retire now session)[id]? = some retired :=
    hsession
  rw [ExtTreeMap.getElem?_map] at hsession
  obtain ⟨session, -, rfl⟩ := Option.map_eq_some_iff.1 hsession
  rw [huntil] at hdeadline
  -- a session that still has its deadline was not stale
  unfold retire at hdeadline
  split at hdeadline
  · cases hdeadline
  case isFalse hfresh =>
    simp only [stale, hdeadline, Option.any_some, decide_eq_true_eq] at hfresh
    exact Nat.lt_of_not_le hfresh

theorem perform_bounded (h : Bounded s) (operation : Operation) :
    Ends (operation.perform actuator) s (fun _ s' => Bounded s') fun _ => False := by
  cases operation with
  | create tgid uid tag tids targetNs now =>
    exact ends_bind (create_bounded h tgid uid tag tids targetNs now) fun _ _ h' => ends_pure h'
  | close id => exact close_bounded h id
  | setTarget id targetNs => exact setTarget_bounded h id targetNs
  | report id work now => exact report_bounded h id work now
  | hint id load now => exact hint_bounded h id load now
  | pause id => exact change_bounded h id fun _ => rfl
  | resume id now => exact change_bounded h id fun _ => rfl
  | setThreads id tids now => exact setThreads_bounded h id tids now
  | setEfficient id efficient => exact change_bounded h id fun _ => rfl
  | interaction now => exact interaction_bounded h now
  | setLowPower enabled => exact setLowPower_bounded h enabled
  | expire now => exact ends_bind (expire_ends h now) fun _ _ h' => ends_pure h'.1

end

/-! ## Deadlines -/

/-- **The next deadline is the least** of the sessions that have a floor. -/
theorem nextDeadline_le {id : Nat} {session : Session} (hid : s.sessions[id]? = some session)
    (hdemand : 0 < session.demand s.ceiling) :
    ∃ next deadline, s.nextDeadline = some next ∧ session.activeUntil = some deadline ∧
      next ≤ deadline := by
  obtain ⟨deadline, hdeadline⟩ : ∃ deadline, session.activeUntil = some deadline := by
    cases huntil : session.activeUntil with
    | some deadline => exact ⟨deadline, rfl⟩
    | none => simp [Session.demand, huntil] at hdemand
  have hmem : deadline ∈ (s.all.filter fun session => 0 < session.demand s.ceiling).filterMap
      (·.activeUntil) := by
    refine List.mem_filterMap.2 ⟨session, List.mem_filter.2 ⟨mem_all.2 ⟨id, hid⟩, ?_⟩, hdeadline⟩
    exact decide_eq_true hdemand
  cases hnext : s.nextDeadline with
  | none =>
    have hempty := List.min?_eq_none_iff.1 hnext
    rw [hempty] at hmem
    cases hmem
  | some next => exact ⟨next, deadline, rfl, hdeadline, (List.le_min?_iff hnext).1 le_rfl _ hmem⟩

/-- The next deadline is one of a session's. -/
theorem nextDeadline_mem {next : Nat} (hnext : s.nextDeadline = some next) :
    ∃ (id : Nat) (session : Session), s.sessions[id]? = some session ∧
      session.activeUntil = some next := by
  have hmem := List.min?_mem hnext
  obtain ⟨session, hsession, huntil⟩ := List.mem_filterMap.1 hmem
  obtain ⟨id, hid⟩ := mem_all.1 (List.mem_filter.1 hsession).1
  exact ⟨id, session, hid, huntil⟩

/-- A pass after the last deadline leaves no session active. -/
theorem expire_last {actuator : Actuator} (h : Bounded s) {now : Nat}
    (hpast : ∀ (id : Nat) (session : Session), s.sessions[id]? = some session →
      ∀ deadline, session.activeUntil = some deadline → deadline ≤ now) :
    Ends (expire actuator now) s (fun wakeAt s' => wakeAt = s'.nextDeadline ∧
      ∀ (id : Nat) (session : Session), s'.sessions[id]? = some session →
        session.activeUntil = none) fun _ => False := by
  have hretired : Bounded { s with sessions := s.sessions.map fun _ session => retire now session } :=
    h.map_sessions _ fun session hfloor => by unfold retire; split <;> exact hfloor
  refine ends_get_bind (ends_set_bind (ends_bind (sync_pruned hretired _) fun _ s' hpruned => ?_))
  refine ends_get_bind (ends_pure ⟨rfl, fun id session' hid => ?_⟩)
  obtain ⟨retired, hsession, -, huntil⟩ := hpruned.sessions id session' hid
  obtain ⟨session, hold, rfl⟩ :=
    Option.map_eq_some_iff.1 (ExtTreeMap.getElem?_map.symm.trans hsession)
  rw [huntil, retire]
  split
  · rfl
  · next hfresh =>
    cases hdeadline : session.activeUntil with
    | none => rfl
    | some deadline =>
      have hdue := hpast id session hold deadline hdeadline
      simp [stale, hdeadline, hdue] at hfresh

/-- An actuator that fails for threads that are gone only. -/
def failsIfGone (gone : List Call → Int → Nat → Bool) (driverThreads : List Call → Int → List Int) :
    Actuator where
  apply calls tid floor := if gone calls tid floor then .error .gone else .ok ()
  driverThreads

/-- **No floor outlives the last deadline.**  After every run, a pass at or after all deadlines finds
    nothing left to wait for, and no thread that is not reported gone keeps a floor. -/
theorem floors_expire (capacities : List Nat) (gone : List Call → Int → Nat → Bool)
    (driverThreads : List Call → Int → List Int) (operations : List Operation) :
    ∃ s, performAll (failsIfGone gone driverThreads) operations
        { policy := Policy.fromCapacities capacities } = .ok () s ∧
      ∀ now, (∀ (id : Nat) (session : Session), s.sessions[id]? = some session →
          ∀ deadline, session.activeUntil = some deadline → deadline ≤ now) →
        ∃ s', expire (failsIfGone gone driverThreads) now s = .ok none s' ∧ s'.applied = ∅ ∧
          ∀ tid, ¬ ReportedGone s'.calls tid →
            lastGiven s'.calls tid = none ∨ lastGiven s'.calls tid = some 0 := by
  have hother : ∀ calls tid floor message,
      (failsIfGone gone driverThreads).apply calls tid floor ≠ .error (.other message) := by
    intro calls tid floor message
    unfold failsIfGone
    grind
  obtain ⟨_, s, hs, hinv⟩ := (performAll_inv hother operations _ (new_inv capacities)).succeeds
  refine ⟨s, hs, fun now hpast => ?_⟩
  have hbounded : Bounded s := ⟨hinv.base.baseline, hinv.base.interaction, hinv.base.bound,
    fun id session hid => (hinv.shaped id session hid).floor⟩
  obtain ⟨wakeAt, s', hs', hinv'⟩ := (expire_inv hother hinv now).succeeds
  obtain ⟨hwake, hidle⟩ := (expire_last hbounded hpast).of_ok hs'
  have hnone : s'.nextDeadline = none := by
    cases hnext : s'.nextDeadline with
    | none => rfl
    | some next =>
      obtain ⟨id, session, hid, huntil⟩ := nextDeadline_mem hnext
      rw [hidle id session hid] at huntil
      cases huntil
  have hunused (tid : Int) : s'.applied[tid]? = none := by
    have hdemand : s'.demandOn tid = 0 := by
      rw [demandOn_eq_zero_iff]
      intro id
      unfold contributionAt
      cases hid : s'.sessions[id]? with
      | none => rfl
      | some session => simp [Session.contribution, Session.demand, hidle id session hid]
    rw [hinv'.settled tid, if_pos hdemand]
  refine ⟨s', by rw [hs', hwake, hnone], ExtTreeMap.ext_getElem? fun tid => by simp [hunused], ?_⟩
  intro tid hgone
  have hgiven := hinv'.base.given tid hgone
  unfold Agrees at hgiven
  rwa [hunused] at hgiven

end Controller

namespace Shared

variable {actuator : Actuator} {s : Shared}

/-! ## No lost wake-up -/

/-- No floor ends before the thread plans to wake. -/
def Covered (s : Shared) : Prop :=
  ∀ next, s.controller.nextDeadline = some next → ∃ wakeAt, s.wakeAt = some wakeAt ∧ wakeAt ≤ next

theorem covered_of_not_early (h : s.early = false) : s.Covered := by
  intro next hnext
  unfold early at h
  rw [hnext] at h
  cases hwake : s.wakeAt with
  | none => simp [hwake] at h
  | some wakeAt => exact ⟨wakeAt, rfl, by simpa [hwake] using h⟩

/-- The thread lives, it plans what it noted, and while it waits unnotified no floor ends before. -/
structure Watchful (s : Shared) : Prop where
  bounded : s.controller.Bounded
  alive : s.expiry ≠ .stopped
  planned : ∀ planned notified, s.expiry = .waiting planned notified → planned = s.wakeAt
  covered : ∀ planned, s.expiry = .waiting planned false → s.Covered

theorem notify_fields (s : Shared) :
    s.notify.controller = s.controller ∧ s.notify.wakeAt = s.wakeAt ∧
      (s.expiry ≠ .stopped → s.notify.expiry ≠ .stopped) ∧
      (∀ planned notified, s.notify.expiry = .waiting planned notified →
        notified = true ∧ ∃ before, s.expiry = .waiting planned before) := by
  unfold notify
  split
  case h_1 planned before hwaiting =>
    refine ⟨rfl, rfl, fun _ h => (by cases h), fun p n h => ?_⟩
    obtain ⟨rfl, rfl⟩ : planned = p ∧ true = n := by simpa using h
    exact ⟨rfl, before, hwaiting⟩
  case h_2 hother =>
    exact ⟨rfl, rfl, id, fun p n h => absurd h (hother p n)⟩

theorem Watchful.call (h : Watchful s) (operation : Operation) :
    Watchful (s.call actuator operation) := by
  have hends : Ends (operation.perform actuator) s.controller (fun _ c => c.Bounded)
      fun _ => False := Controller.perform_bounded h.bounded operation
  unfold Shared.call
  unfold Ends at hends
  cases hresult : operation.perform actuator s.controller with
  | error e c => rw [hresult] at hends; exact absurd hends not_false
  | ok u c =>
    rw [hresult] at hends
    dsimp only
    split
    · -- the notification is on its way to a thread that waits; another one computes anew
      obtain ⟨hcontroller, hwake, halive, hnotified⟩ := notify_fields { s with controller := c }
      refine ⟨hcontroller ▸ hends, halive h.alive, fun p n hp => ?_, fun p hp => ?_⟩
      · obtain ⟨-, before, hbefore⟩ := hnotified p n hp
        rw [hwake]
        exact h.planned p before hbefore
      · exact absurd (hnotified p false hp).1 Bool.false_ne_true
    case isFalse hlate =>
      refine ⟨hends, h.alive, h.planned, fun p _ => covered_of_not_early ?_⟩
      simpa using hlate

theorem Watchful.expire (h : Watchful s) (now : Nat) : Watchful (s.expire actuator now) := by
  have hends := @Controller.expire_ends _ actuator h.bounded now
  unfold Shared.expire
  unfold Ends at hends
  cases hresult : Controller.expire actuator now s.controller with
  | error e c => rw [hresult] at hends; exact absurd hends not_false
  | ok wakeAt c =>
    rw [hresult] at hends
    obtain ⟨hbounded, rfl, hfuture⟩ := hends
    refine ⟨hbounded, fun hstop => (by cases hstop), fun p n hp => ?_,
      fun p _ next hnext => ⟨next, hnext, le_rfl⟩⟩
    -- a deadline in the future is reached after exactly the time that is left
    have hplan : c.nextDeadline.map (fun deadline => now + (deadline - now)) = c.nextDeadline := by
      cases hnext : c.nextDeadline with
      | none => rfl
      | some next =>
        obtain ⟨id, session, hid, huntil⟩ := Controller.nextDeadline_mem hnext
        have hlt := hfuture id session hid next huntil
        rw [Option.map_some, Nat.add_sub_cancel' hlt.le]
    obtain ⟨hp, -⟩ := Expiry.waiting.inj hp
    exact hp.symm.trans hplan

theorem Watchful.step (h : Watchful s) (step : Step) : Watchful (s.step actuator step) := by
  cases step with
  | call operation => exact h.call operation
  | expire now =>
    simp only [Shared.step]
    split
    · exact h.expire now
    · exact h
  | wake =>
    simp only [Shared.step]
    split
    · exact ⟨h.bounded, fun hstop => (by cases hstop), fun _ _ hp => (by cases hp),
        fun _ hp => (by cases hp)⟩
    · exact h

theorem watchful_run (steps : List Step) (h : Watchful s) : Watchful (s.run actuator steps) := by
  induction steps generalizing s with
  | nil => exact h
  | cons step rest ih => exact ih (h.step step)

theorem new_watchful (capacities : List Nat) :
    Watchful (new (Policy.fromCapacities capacities)) where
  bounded :=
    { baseline := (Controller.fromCapacities_ordered capacities).1
      interaction := (Controller.fromCapacities_ordered capacities).2.1
      bound := (Controller.fromCapacities_ordered capacities).2.2
      floor := fun id session hid => by simp [new] at hid }
  alive := fun h => by cases h
  planned := fun _ _ h => by cases h
  covered := fun _ h => by cases h

/-- **No deadline is missed.**  For every machine, every actuator and every interleaving of calls,
turns of the expiry thread and ends of its waits: the thread never stops, and while it waits with no
notification on its way, it plans to wake at the noted instant, every session with a floor has its
deadline at or after that instant, and none has a floor if the thread waits without a time-out. -/
theorem no_missed_deadline (capacities : List Nat) (actuator : Actuator) (steps : List Step) :
    ((new (Policy.fromCapacities capacities)).run actuator steps).expiry ≠ .stopped ∧
      ∀ planned, ((new (Policy.fromCapacities capacities)).run actuator steps).expiry =
          .waiting planned false →
        planned = ((new (Policy.fromCapacities capacities)).run actuator steps).wakeAt ∧
          ∀ (id : Nat) (session : Session),
            ((new (Policy.fromCapacities capacities)).run actuator steps).controller.sessions[id]? =
                some session →
            0 < session.demand
              ((new (Policy.fromCapacities capacities)).run actuator steps).controller.ceiling →
            ∃ wake deadline, planned = some wake ∧ session.activeUntil = some deadline ∧
              wake ≤ deadline := by
  have h := @watchful_run actuator _ steps (new_watchful capacities)
  generalize (new (Policy.fromCapacities capacities)).run actuator steps = s at h
  refine ⟨h.alive, fun planned hwaiting => ?_⟩
  have hplanned := h.planned planned false hwaiting
  refine ⟨hplanned, fun id session hid hdemand => ?_⟩
  obtain ⟨next, deadline, hnext, hdeadline, hle⟩ := Controller.nextDeadline_le hid hdemand
  obtain ⟨wake, hwake, hearly⟩ := h.covered planned hwaiting next hnext
  exact ⟨wake, deadline, hplanned.trans hwake, hdeadline, hearly.trans hle⟩

end Shared

end Droidloom.Power
