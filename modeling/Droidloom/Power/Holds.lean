/-
  Interaction holds and the deadlines that `expire` returns (`droidloom-power`).

  An interaction raises every critical session to the interaction floor and holds it there for a
  second and a half.  Reports let floors decay and hints lower them, so both are cut at the floor
  that is HELD: `held` is the interaction floor until the last interaction's deadline.

  1. What is applied to threads is no part of the argument.  `SameLoad` says that a pass over
     threads, or a look for driver threads, keeps everything of a session that its demand reads.
  2. The deadline of the hold is that of the LAST interaction of a run.  Where times do not
     decrease it is the latest of all, so a hold that lasts at all is the one the code looks at.
  3. `expire` retires the sessions that are due and returns the least deadline of those left that
     have a demand; before it, none of them is due.
-/
import Droidloom.Power.Expiry

namespace Droidloom.Power

open Fallible Triple
open Std (ExtTreeMap)

/-! ## What passes over threads keep -/

/-- A session without its threads: what its demand and its learning read. -/
def Session.load (session : Session) : Session :=
  { session with tids := [], drivers := [], scannedAt := none }

theorem Session.demand_load (session : Session) (ceiling : Nat) :
    session.load.demand ceiling = session.demand ceiling := rfl

namespace Controller

variable {s s' s'' : Controller}

/-- Two controllers that differ only in threads and in what was applied to them. -/
structure SameLoad (s s' : Controller) : Prop where
  policy : s'.policy = s.policy
  lowPower : s'.lowPower = s.lowPower
  interactingUntil : s'.interactingUntil = s.interactingUntil
  sessions : ∀ id : Nat, (s'.sessions[id]?).map Session.load = (s.sessions[id]?).map Session.load

theorem SameLoad.refl (s : Controller) : SameLoad s s := ⟨rfl, rfl, rfl, fun _ => rfl⟩

theorem SameLoad.trans (h : SameLoad s s') (h' : SameLoad s' s'') : SameLoad s s'' where
  policy := h'.policy.trans h.policy
  lowPower := h'.lowPower.trans h.lowPower
  interactingUntil := h'.interactingUntil.trans h.interactingUntil
  sessions := fun id => (h'.sessions id).trans (h.sessions id)

theorem SameLoad.ceiling (h : SameLoad s s') : s'.ceiling = s.ceiling := by
  unfold Controller.ceiling
  rw [h.lowPower, h.policy]

/-- Each session is still there, with the load it had. -/
theorem SameLoad.forward (h : SameLoad s s') {id : Nat} {session : Session}
    (hid : s.sessions[id]? = some session) :
    ∃ after : Session, s'.sessions[id]? = some after ∧ after.load = session.load := by
  have hload := h.sessions id
  rw [hid] at hload
  exact Option.map_eq_some_iff.1 hload

theorem SameLoad.backward (h : SameLoad s s') {id : Nat} {after : Session}
    (hid : s'.sessions[id]? = some after) :
    ∃ session : Session, s.sessions[id]? = some session ∧ session.load = after.load := by
  have hload := h.sessions id
  rw [hid] at hload
  exact Option.map_eq_some_iff.1 hload.symm

/-- A change of a session that its load does not show. -/
theorem sameLoad_update {id : Nat} {session : Session} (new : Session)
    (hid : s.sessions[id]? = some session)
    (hload : new.load = session.load) : SameLoad s (s.update id new) := by
  refine ⟨rfl, rfl, rfl, fun j => ?_⟩
  show ((s.sessions.insert id new)[j]?).map Session.load = _
  by_cases hj : j = id
  · subst hj
    rw [ExtTreeMap.getElem?_insert_self, hid]
    exact congrArg some hload
  · rw [ExtTreeMap.getElem?_insert, if_neg]
    rw [Std.LawfulEqCmp.compare_eq_iff_eq]
    exact fun heq => hj heq.symm

theorem sameLoad_answered (s : Controller) (call : Call) (tid : Int) (floor : Nat)
    (answer : Except ApplyError Unit) :
    SameLoad s ((s.called call).answered tid floor answer) := by
  unfold answered
  split
  · exact ⟨rfl, rfl, rfl, fun _ => rfl⟩
  · refine ⟨rfl, rfl, rfl, fun id => ?_⟩
    rw [getElem?_forget, Option.map_map]
    rfl
  · exact ⟨rfl, rfl, rfl, fun _ => rfl⟩

section

variable {actuator : Actuator}

theorem syncThread_sameLoad (h : s.ceiling ≤ UTIL_MAX) (tid : Int) :
    Ends (syncThread actuator tid) s (fun _ s' => SameLoad s s') fun _ => False := by
  unfold syncThread
  refine ends_get_bind ?_
  rw [quantize_eq demandOn_le_ceiling h]
  refine ends_mapErr_ok_bind ?_
  refine ends_ite (fun _ => ends_pure (.refl s)) fun _ => ends_set ?_
  exact sameLoad_answered s _ tid _ _

theorem syncLoop_sameLoad (tids : List Int) : ∀ s : Controller, s.ceiling ≤ UTIL_MAX →
    Ends (syncLoop actuator tids) s (fun _ s' => SameLoad s s') fun _ => False := by
  induction tids with
  | nil => exact fun s _ => ends_pure (.refl s)
  | cons tid rest ih =>
    intro s h
    refine ends_bind (syncThread_sameLoad h tid) fun _ s₁ h₁ => ?_
    have hceiling : s₁.ceiling ≤ UTIL_MAX := h₁.ceiling ▸ h
    exact (ih s₁ hceiling).mono (fun _ _ h' => h₁.trans h') fun _ hfalse => hfalse

theorem sync_sameLoad (h : s.ceiling ≤ UTIL_MAX) (tids : List Int) :
    Ends (sync actuator tids) s (fun _ s' => SameLoad s s') fun _ => False :=
  syncLoop_sameLoad _ s h

theorem syncSession_sameLoad (h : s.ceiling ≤ UTIL_MAX) (id : Nat) :
    Ends (syncSession actuator id) s (fun _ s' => SameLoad s s') fun _ => False := by
  unfold syncSession
  refine ends_get_bind ?_
  split
  · exact sync_sameLoad h _
  · exact ends_pure (.refl s)

theorem rescan_sameLoad (h : s.ceiling ≤ UTIL_MAX) (id now : Nat) :
    Ends (rescan actuator id now) s (fun _ s' => SameLoad s s') fun _ => False := by
  unfold rescan
  refine ends_get_bind ?_
  split
  · exact ends_pure (.refl s)
  case h_2 session hid =>
    refine ends_set_bind ?_
    have hcalled : SameLoad s (s.called (.driverThreads session.tgid)) :=
      ⟨rfl, rfl, rfl, fun _ => rfl⟩
    have hscanned := hcalled.trans (sameLoad_update { session with
      drivers := (unique (actuator.driverThreads s.calls session.tgid)).filter
        fun tid => !session.tids.contains tid
      scannedAt := some now } hid rfl)
    exact (sync_sameLoad (hscanned.ceiling ▸ h) _).mono (fun _ _ h' => hscanned.trans h')
      fun _ hfalse => hfalse

/-- The end of a report or a hint: the session's threads, and at times its drivers. -/
theorem refresh_sameLoad (h : s.ceiling ≤ UTIL_MAX) (id now : Nat) {c : Prop} [Decidable c] :
    Ends (if c then do
        rescan actuator id now
        syncSession actuator id
      else syncSession actuator id) s (fun _ s' => SameLoad s s') fun _ => False := by
  refine ends_ite (fun _ => ?_) fun _ => syncSession_sameLoad h id
  refine ends_bind (rescan_sameLoad h id now) fun _ s₁ h₁ => ?_
  exact (syncSession_sameLoad (h₁.ceiling ▸ h) id).mono (fun _ _ h' => h₁.trans h')
    fun _ hfalse => hfalse

end

/-! ## Held floors -/

/-- No session falls from a level to below it. -/
def KeepsLevel (level : Nat) (s s' : Controller) : Prop :=
  ∀ (id : Nat) (session : Session), s.sessions[id]? = some session → level ≤ session.floor →
    ∃ after : Session, s'.sessions[id]? = some after ∧ level ≤ after.floor

theorem SameLoad.floor_le {level : Nat} (h : SameLoad s s') {id : Nat} {session : Session}
    (hid : s.sessions[id]? = some session) (hlevel : level ≤ session.floor) :
    ∃ after : Session, s'.sessions[id]? = some after ∧ level ≤ after.floor := by
  obtain ⟨after, hafter, hload⟩ := h.forward hid
  have hfloor : after.floor = session.floor := congrArg (fun load => load.floor) hload
  exact ⟨after, hafter, hfloor ▸ hlevel⟩

theorem SameLoad.keepsLevel (h : SameLoad s s') (level : Nat) : KeepsLevel level s s' :=
  fun _ _ hid hlevel => h.floor_le hid hlevel

theorem getElem?_update_self (id : Nat) (session : Session) :
    (s.update id session).sessions[id]? = some session :=
  ExtTreeMap.getElem?_insert_self

theorem KeepsLevel.update {level id : Nat} {session new : Session}
    (hid : s.sessions[id]? = some session) (hnew : level ≤ session.floor → level ≤ new.floor) :
    KeepsLevel level s (s.update id new) := by
  intro j other hj hlevel
  by_cases hsame : j = id
  · subst hsame
    rw [hid] at hj
    cases hj
    exact ⟨new, getElem?_update_self j new, hnew hlevel⟩
  · refine ⟨other, ?_, hlevel⟩
    show (s.sessions.insert id new)[j]? = some other
    rw [ExtTreeMap.getElem?_insert, if_neg, hj]
    rw [Std.LawfulEqCmp.compare_eq_iff_eq]
    exact fun heq => hsame heq.symm

theorem KeepsLevel.trans {level : Nat} (h : KeepsLevel level s s') (h' : KeepsLevel level s' s'') :
    KeepsLevel level s s'' := by
  intro id session hid hlevel
  obtain ⟨next, hnext, hfloor⟩ := h id session hid hlevel
  exact h' id next hnext hfloor

/-- What is learned stays at the held floor, whatever the work was; a spike's end learns nothing. -/
theorem learn_floor {session learned : Session} {work : List Work} {ceiling held now : Nat}
    (h : learn session work ceiling held now = .ok learned) :
    (session.spike = false → held ≤ learned.floor) ∧
      (held ≤ session.floor → held ≤ learned.floor) := by
  unfold learn at h
  split at h
  case isTrue hspike =>
    cases h
    refine ⟨fun hcalm => ?_, fun hfloor => hfloor⟩
    exact absurd (hspike.symm.trans hcalm) (by decide)
  case isFalse =>
    obtain ⟨adjusted, -, h⟩ := bind_eq_ok.1 h
    cases h
    exact ⟨fun _ => le_max_right _ _, fun _ => le_max_right _ _⟩

theorem hinted_floor {policy : Policy} {session new : Session} {held now : Nat} {load : Hint}
    (h : hinted policy held session now load = .ok new) (hceiling : held ≤ policy.ceiling)
    (hfloor : held ≤ session.floor) : held ≤ new.floor := by
  cases load with
  | loadUp =>
    obtain ⟨raised, hraised, h⟩ := bind_eq_ok.1 h
    cases h
    unfold add32 at hraised
    split at hraised
    · cases hraised
      -- raised from a floor that is held already, and cut no lower than the held floor
      exact le_min (by omega) hceiling
    · cases hraised
  | loadDown => cases h; exact le_max_right _ _
  | loadReset => cases h; exact hfloor.trans (le_max_left _ _)
  | loadResume => cases h; exact hfloor
  | loadSpike => cases h; exact hfloor

section

variable {actuator : Actuator} (h : Bounded s)

include h

/-- **A report under a hold** lowers no session below the held floor, and unless it ends a spike it
    leaves its own session there. -/
theorem report_held (id : Nat) (work : List Work) (now : Nat) :
    Ends (report actuator id work now) s (fun _ s' => KeepsLevel (s.held now) s s' ∧
      ∀ session : Session, s.sessions[id]? = some session → session.spike = false →
        ∃ after : Session, s'.sessions[id]? = some after ∧ s.held now ≤ after.floor)
      fun _ => False := by
  unfold report
  refine ends_get_bind ?_
  split
  case h_1 hnone =>
    refine ends_pure ⟨(SameLoad.refl s).keepsLevel _, fun session hid => ?_⟩
    rw [hnone] at hid
    cases hid
  case h_2 session hid =>
    obtain ⟨learned, hlearned, -⟩ :=
      learn_ok work now (h.floor id session hid) (h.held_le now) h.bound
    obtain ⟨hcalm, hkept⟩ := learn_floor hlearned
    rw [hlearned]
    refine ends_mapErr_ok_bind (ends_set_bind ?_)
    have hceiling : (s.update id learned).ceiling ≤ UTIL_MAX := h.ceiling_le
    refine (refresh_sameLoad hceiling id now).mono (fun _ s' hsame => ?_) fun _ hfalse => hfalse
    refine ⟨(KeepsLevel.update hid hkept).trans (hsame.keepsLevel _), ?_⟩
    intro before hbefore hspike
    rw [hid] at hbefore
    cases hbefore
    exact hsame.floor_le (getElem?_update_self id learned) (hcalm hspike)

/-- **A hint under a hold** lowers no session below the held floor. -/
theorem hint_held (id : Nat) (load : Hint) (now : Nat) :
    Ends (hint actuator id load now) s (fun _ s' => KeepsLevel (s.held now) s s')
      fun _ => False := by
  unfold hint
  refine ends_get_bind ?_
  split
  · exact ends_pure ((SameLoad.refl s).keepsLevel _)
  case h_2 session hid =>
    obtain ⟨new, hnew, -⟩ :=
      hinted_ok now load (h.floor id session hid) (h.held_le now) h.baseline h.bound
    have hkept := hinted_floor hnew (h.held_le now)
    rw [hnew]
    refine ends_mapErr_ok_bind (ends_set_bind ?_)
    have hceiling : (s.update id new).ceiling ≤ UTIL_MAX := h.ceiling_le
    refine (refresh_sameLoad hceiling id now).mono (fun _ s' hsame => ?_) fun _ hfalse => hfalse
    exact (KeepsLevel.update hid hkept).trans (hsame.keepsLevel _)

end

/-! ## The hold of a run -/

/-- Only an interaction moves the deadline of the hold, and nothing the policy. -/
structure SameRules (s s' : Controller) (deadline : Option Nat) : Prop where
  policy : s'.policy = s.policy
  interactingUntil : s'.interactingUntil = deadline

/-- A pass over threads, after a change that kept the rules. -/
theorem SameRules.ends {s₁ : Controller} {deadline : Option Nat} {x : Method α}
    (h : SameRules s s₁ deadline)
    (hx : Ends x s₁ (fun _ s' => SameLoad s₁ s') fun _ => False) :
    Ends x s₁ (fun _ s' => SameRules s s' deadline) fun _ => False :=
  hx.mono (fun _ _ hsame =>
    ⟨hsame.policy.trans h.policy, hsame.interactingUntil.trans h.interactingUntil⟩)
    fun _ hfalse => hfalse

theorem SameRules.ceiling_le {deadline : Option Nat} (h : Bounded s)
    (hrules : SameRules s s' deadline) : s'.ceiling ≤ UTIL_MAX := by
  unfold ceiling
  rw [hrules.policy]
  split
  · exact h.baseline.trans h.bound
  · exact h.bound

end Controller

/-- The deadline of the hold after an operation. -/
def Operation.hold (deadline : Option Nat) : Operation → Option Nat
  | .interaction now => some (now + INTERACTION_HOLD)
  | _ => deadline

namespace Controller

variable {s : Controller} {actuator : Actuator}

section

variable {s₁ : Controller} {deadline : Option Nat} (h : Bounded s)
  (hrules : SameRules s s₁ deadline)

include h hrules

theorem sync_rules (tids : List Int) :
    Ends (sync actuator tids) s₁ (fun _ s' => SameRules s s' deadline) fun _ => False :=
  hrules.ends (sync_sameLoad (hrules.ceiling_le h) tids)

theorem syncSession_rules (id : Nat) :
    Ends (syncSession actuator id) s₁ (fun _ s' => SameRules s s' deadline) fun _ => False :=
  hrules.ends (syncSession_sameLoad (hrules.ceiling_le h) id)

theorem rescan_rules (id now : Nat) :
    Ends (rescan actuator id now) s₁ (fun _ s' => SameRules s s' deadline) fun _ => False :=
  hrules.ends (rescan_sameLoad (hrules.ceiling_le h) id now)

theorem refresh_rules (id now : Nat) {c : Prop} [Decidable c] :
    Ends (if c then do
        rescan actuator id now
        syncSession actuator id
      else syncSession actuator id) s₁ (fun _ s' => SameRules s s' deadline) fun _ => False :=
  hrules.ends (refresh_sameLoad (hrules.ceiling_le h) id now)

end

theorem change_rules (h : Bounded s) (id : Nat) (f : Session → Session) :
    Ends (change actuator id f) s (fun _ s' => SameRules s s' s.interactingUntil)
      fun _ => False := by
  refine ends_get_bind ?_
  split
  · exact ends_pure ⟨rfl, rfl⟩
  · refine ends_set_bind (syncSession_rules h ?_ id)
    exact ⟨rfl, rfl⟩

theorem perform_rules (h : Bounded s) (operation : Operation) :
    Ends (operation.perform actuator) s
      (fun _ s' => SameRules s s' (operation.hold s.interactingUntil)) fun _ => False := by
  cases operation with
  | create tgid uid tag tids targetNs now =>
    refine ends_bind (Q := fun _ s' => SameRules s s' s.interactingUntil) ?_
      fun _ _ hrules => ends_pure hrules
    refine ends_get_bind (ends_set_bind ?_)
    refine ends_bind (Q := fun _ s' => SameRules s s' s.interactingUntil)
      (rescan_rules h ?_ _ now) fun _ _ h₁ => ?_
    · exact ⟨rfl, rfl⟩
    · exact ends_bind (syncSession_rules h h₁ _) fun _ _ h₂ => ends_pure h₂
  | close id =>
    refine ends_get_bind ?_
    split
    · exact ends_pure ⟨rfl, rfl⟩
    · refine ends_set_bind (sync_rules h ?_ _)
      exact ⟨rfl, rfl⟩
  | setTarget id targetNs =>
    refine ends_get_bind ?_
    split
    · exact ends_pure ⟨rfl, rfl⟩
    · exact ends_ite (fun _ => ends_set ⟨rfl, rfl⟩) fun _ => ends_pure ⟨rfl, rfl⟩
  | report id work now =>
    refine ends_get_bind ?_
    split
    · exact ends_pure ⟨rfl, rfl⟩
    case h_2 session hid =>
      obtain ⟨learned, hlearned, -⟩ :=
        learn_ok work now (h.floor id session hid) (h.held_le now) h.bound
      rw [hlearned]
      refine ends_mapErr_ok_bind (ends_set_bind (refresh_rules h ?_ id now))
      exact ⟨rfl, rfl⟩
  | hint id load now =>
    refine ends_get_bind ?_
    split
    · exact ends_pure ⟨rfl, rfl⟩
    case h_2 session hid =>
      obtain ⟨new, hnew, -⟩ :=
        hinted_ok now load (h.floor id session hid) (h.held_le now) h.baseline h.bound
      rw [hnew]
      refine ends_mapErr_ok_bind (ends_set_bind (refresh_rules h ?_ id now))
      exact ⟨rfl, rfl⟩
  | pause id => exact change_rules h id _
  | resume id now => exact change_rules h id _
  | setThreads id tids now =>
    refine ends_get_bind ?_
    split
    · exact ends_pure ⟨rfl, rfl⟩
    · refine ends_set_bind (ends_bind (Q := fun _ s' => SameRules s s' s.interactingUntil)
        (rescan_rules h ?_ id now) fun _ _ h₁ => ?_)
      · exact ⟨rfl, rfl⟩
      · exact ends_get_bind (sync_rules h h₁ _)
  | setEfficient id efficient => exact change_rules h id _
  | interaction now =>
    refine ends_modify_bind (ends_get_bind (sync_rules h ?_ _))
    exact ⟨rfl, rfl⟩
  | setLowPower enabled =>
    refine ends_get_bind (ends_ite (fun _ => ?_) fun _ => ends_pure ⟨rfl, rfl⟩)
    refine ends_set_bind (ends_get_bind (sync_rules h ?_ _))
    exact ⟨rfl, rfl⟩
  | expire now =>
    refine ends_bind (Q := fun _ s' => SameRules s s' s.interactingUntil) ?_
      fun _ _ hrules => ends_pure hrules
    refine ends_get_bind (ends_set_bind ?_)
    refine ends_bind (Q := fun _ s' => SameRules s s' s.interactingUntil) (sync_rules h ?_ _)
      fun _ _ h₁ => ends_get_bind (ends_pure h₁)
    exact ⟨rfl, rfl⟩

/-- Every run ends, with the policy it began with and the hold of its last interaction. -/
theorem performAll_rules (operations : List Operation) : ∀ s : Controller, Bounded s →
    Ends (performAll actuator operations) s (fun _ s' => Bounded s' ∧
      SameRules s s' (operations.foldl Operation.hold s.interactingUntil)) fun _ => False := by
  induction operations with
  | nil => exact fun s h => ends_pure ⟨h, rfl, rfl⟩
  | cons operation rest ih =>
    intro s h
    refine ends_bind (((perform_bounded h operation).and (perform_rules h operation)).mono
      (fun _ _ hboth => hboth) fun _ hfalse => hfalse.1) fun _ s₁ ⟨h₁, hrules⟩ => ?_
    refine (ih s₁ h₁).mono (fun _ s' ⟨h', hrest⟩ => ⟨h', hrest.policy.trans hrules.policy, ?_⟩)
      fun _ hfalse => hfalse
    rw [hrest.interactingUntil, hrules.interactingUntil]
    rfl

end Controller

/-- The instant of an operation that has one. -/
def Operation.time : Operation → Option Nat
  | .create _ _ _ _ _ now => some now
  | .report _ _ now => some now
  | .hint _ _ now => some now
  | .resume _ now => some now
  | .setThreads _ _ now => some now
  | .interaction now => some now
  | .expire now => some now
  | .close _ | .setTarget _ _ | .pause _ | .setEfficient _ _ | .setLowPower _ => none

/-- Times do not decrease along a run. -/
def Timely (operations : List Operation) : Prop :=
  (operations.filterMap Operation.time).Pairwise (· ≤ ·)

instance (operations : List Operation) : Decidable (Timely operations) :=
  inferInstanceAs (Decidable (List.Pairwise _ _))

/-- An interaction hold lasts: an interaction of the run is not that long ago. -/
def Holding (operations : List Operation) (now : Nat) : Prop :=
  ∃ time, Operation.interaction time ∈ operations ∧ now < time + INTERACTION_HOLD

/-- The hold of a run is that of its last interaction. -/
theorem hold_append (before : List Operation) (last : Operation) (deadline : Option Nat) :
    (before ++ [last]).foldl Operation.hold deadline =
      last.hold (before.foldl Operation.hold deadline) := by
  rw [List.foldl_append]
  rfl

theorem Timely.init {before : List Operation} {last : Operation}
    (h : Timely (before ++ [last])) : Timely before := by
  unfold Timely at h
  rw [List.filterMap_append] at h
  exact (List.pairwise_append.1 h).1

/-- No interaction is later than the last operation. -/
theorem Timely.le_last {before : List Operation} {time now : Nat}
    (h : Timely (before ++ [.interaction now])) (hmem : Operation.interaction time ∈ before) :
    time ≤ now := by
  unfold Timely at h
  rw [List.filterMap_append] at h
  refine (List.pairwise_append.1 h).2.2 time (List.mem_filterMap.2 ⟨_, hmem, rfl⟩) now ?_
  exact List.mem_filterMap.2 ⟨.interaction now, List.mem_singleton.2 rfl, rfl⟩

/-- **Where times do not decrease, the last interaction's hold outlasts every other.** -/
theorem holding_last {operations : List Operation} (htimely : Timely operations) {now : Nat}
    (h : Holding operations now) (deadline : Option Nat) :
    ∃ last, operations.foldl Operation.hold deadline = some last ∧ now < last := by
  -- from the end: the last operation is an interaction, or it leaves the hold as it was
  induction operations using List.reverseRecOn with
  | nil =>
    obtain ⟨time, hmem, -⟩ := h
    cases hmem
  | append_singleton before operation ih =>
    obtain ⟨time, hmem, hnow⟩ := h
    rw [hold_append]
    rcases List.mem_append.1 hmem with hbefore | hlast
    · cases operation with
      | interaction later =>
        have hle := htimely.le_last hbefore
        exact ⟨later + INTERACTION_HOLD, rfl, by omega⟩
      | _ => exact ih htimely.init ⟨time, hbefore, hnow⟩
    · cases List.mem_singleton.1 hlast
      exact ⟨time + INTERACTION_HOLD, rfl, hnow⟩

namespace Controller

variable {s s' : Controller} {actuator : Actuator}

theorem held_of_lt {deadline now : Nat} (h : s.interactingUntil = some deadline)
    (hnow : now < deadline) : s.held now = s.policy.interaction := by
  unfold held
  rw [h]
  exact if_pos hnow

/-! ## Deadlines -/

theorem expire_retires (h : s.ceiling ≤ UTIL_MAX) (now : Nat) :
    Ends (expire actuator now) s (fun next s' => next = s'.nextDeadline ∧
      SameLoad { s with sessions := s.sessions.map fun _ session => retire now session } s')
      fun _ => False := by
  have hretired : ({ s with
      sessions := s.sessions.map fun _ session => retire now session } : Controller).ceiling ≤
        UTIL_MAX := h
  refine ends_get_bind (ends_set_bind (ends_bind (sync_sameLoad hretired _) fun _ s' hsame => ?_))
  exact ends_get_bind (ends_pure ⟨rfl, hsame⟩)

theorem retire_of_not_stale {now : Nat} {session : Session} (h : stale now session = false) :
    retire now session = session := by
  unfold retire
  rw [h]
  rfl

theorem retired_lt {now deadline : Nat} {session : Session}
    (h : (retire now session).activeUntil = some deadline) : now < deadline := by
  unfold retire at h
  split at h
  · cases h
  case isFalse hfresh =>
    simp only [stale, h, Option.any_some, decide_eq_true_eq] at hfresh
    exact Nat.lt_of_not_le hfresh

/-- The sessions that `expire` leaves active are not due. -/
theorem expired_lt {now : Nat} (h : SameLoad
      { s with sessions := s.sessions.map fun _ session => retire now session } s')
    {next : Nat} (hnext : s'.nextDeadline = some next) : now < next := by
  obtain ⟨id, after, hid, huntil⟩ := nextDeadline_mem hnext
  obtain ⟨retired, hretired, hload⟩ := h.backward hid
  have hretired : (s.sessions.map fun _ session => retire now session)[id]? = some retired :=
    hretired
  rw [ExtTreeMap.getElem?_map] at hretired
  obtain ⟨session, -, rfl⟩ := Option.map_eq_some_iff.1 hretired
  have hsame : (retire now session).activeUntil = after.activeUntil :=
    congrArg (fun load => load.activeUntil) hload
  exact retired_lt (hsame.trans huntil)

/-- **Before the returned instant, `expire` takes no floor away.** -/
theorem expire_early (h : s.ceiling ≤ UTIL_MAX) {time : Nat}
    (hearly : ∀ next, s.nextDeadline = some next → time < next) :
    Ends (expire actuator time) s (fun _ s' => ∀ (id : Nat) (session : Session),
      s.sessions[id]? = some session → 0 < session.demand s.ceiling →
        ∃ after : Session, s'.sessions[id]? = some after ∧
          after.activeUntil = session.activeUntil ∧
          after.demand s'.ceiling = session.demand s.ceiling) fun _ => False := by
  refine (expire_retires h time).mono (fun _ s' ⟨_, hsame⟩ id session hid hdemand => ?_)
    fun _ hfalse => hfalse
  obtain ⟨next, deadline, hnext, huntil, hle⟩ := nextDeadline_le hid hdemand
  have hfresh : stale time session = false := by
    have hlt := hearly next hnext
    unfold stale
    rw [huntil, Option.any_some, decide_eq_false_iff_not]
    omega
  have hretired : (s.sessions.map fun _ session => retire time session)[id]? = some session := by
    rw [ExtTreeMap.getElem?_map, hid]
    exact congrArg some (retire_of_not_stale hfresh)
  obtain ⟨after, hafter, hload⟩ := hsame.forward hretired
  refine ⟨after, hafter, congrArg (fun load => load.activeUntil) hload, ?_⟩
  rw [hsame.ceiling, ← after.demand_load, ← session.demand_load, hload]
  rfl

theorem policy_ceiling_le {capacities : List Nat}
    (h : s.policy = Policy.fromCapacities capacities) : s.ceiling ≤ UTIL_MAX := by
  obtain ⟨hbaseline, -, hceiling⟩ := fromCapacities_ordered capacities
  unfold ceiling
  rw [h]
  split
  · exact hbaseline.trans hceiling
  · exact hceiling

end Controller

open Controller in
/-- **Holds and deadlines.**  On every machine, with every actuator, in every run at times that do
    not decrease: while an interaction hold lasts, a report or a hint takes no session's floor from
    the interaction floor to below it, and a report leaves its session there, the one that ends a
    spike apart.  In every state of a controller, `expire` returns nothing or an instant after the
    present one, and at any time before it `expire` deactivates no session that has a demand; nor
    does it at any time, where it returned nothing. -/
theorem holds_and_deadlines (capacities : List Nat) (actuator : Actuator)
    (operations : List Operation) (htimely : Timely operations) :
    (∃ s, performAll actuator operations { policy := Policy.fromCapacities capacities } =
        .ok () s ∧
      ∀ now, Holding operations now →
        (∀ id work, ∃ s', report actuator id work now s = .ok () s' ∧
          KeepsLevel (Policy.fromCapacities capacities).interaction s s' ∧
          ∀ session : Session, s.sessions[id]? = some session → session.spike = false →
            ∃ after : Session, s'.sessions[id]? = some after ∧
              (Policy.fromCapacities capacities).interaction ≤ after.floor) ∧
        ∀ id load, ∃ s', hint actuator id load now s = .ok () s' ∧
          KeepsLevel (Policy.fromCapacities capacities).interaction s s') ∧
    ∀ s : Controller, s.policy = Policy.fromCapacities capacities → ∀ now,
      ∃ next s', expire actuator now s = .ok next s' ∧
        (∀ deadline, next = some deadline → now < deadline) ∧
        ∀ time, (∀ deadline, next = some deadline → time < deadline) →
          ∃ next' s'', expire actuator time s' = .ok next' s'' ∧
            ∀ (id : Nat) (session : Session), s'.sessions[id]? = some session →
              0 < session.demand s'.ceiling →
              ∃ after : Session, s''.sessions[id]? = some after ∧
                after.activeUntil = session.activeUntil ∧
                after.demand s''.ceiling = session.demand s'.ceiling := by
  constructor
  · have hbounded : Bounded { policy := Policy.fromCapacities capacities } :=
      (Shared.new_watchful capacities).bounded
    obtain ⟨_, s, hs, h, hrules⟩ := (performAll_rules operations _ hbounded).succeeds
    refine ⟨s, hs, fun now hholding => ?_⟩
    obtain ⟨last, hlast, hnow⟩ := holding_last htimely hholding none
    have hheld := held_of_lt (hrules.interactingUntil.trans hlast) hnow
    rw [hrules.policy] at hheld
    rw [← hheld]
    refine ⟨fun id work => ?_, fun id load => ?_⟩
    · obtain ⟨_, s', hs', hkept⟩ := (report_held h id work now).succeeds
      exact ⟨s', hs', hkept⟩
    · obtain ⟨_, s', hs', hkept⟩ := (hint_held h id load now).succeeds
      exact ⟨s', hs', hkept⟩
  · intro s hpolicy now
    have hceiling := policy_ceiling_le hpolicy
    obtain ⟨next, s', hs', hnext, hsame⟩ := (expire_retires hceiling now).succeeds
    subst hnext
    refine ⟨_, s', hs', fun deadline hdeadline => expired_lt hsame hdeadline, fun time hearly => ?_⟩
    have hceiling' : s'.ceiling ≤ UTIL_MAX := hsame.ceiling ▸ hceiling
    obtain ⟨next', s'', hs'', hkept⟩ := (expire_early hceiling' hearly).succeeds
    exact ⟨next', s'', hs'', hkept⟩

/-- A second after an interaction, ten empty frames leave the new session at the floor of 545. -/
theorem holds_and_deadlines_frames :
    let actuator : Actuator := { apply := fun _ _ _ => .ok (), driverThreads := fun _ _ => [] }
    let operations : List Operation :=
      [.create 10 10100 2 [10] 5833333 0, .interaction 1000]
    Timely operations ∧ Holding operations 1000001000 ∧
      ∃ s s', performAll actuator operations
          { policy := Policy.fromCapacities [364, 364, 829, 829] } = .ok () s ∧
        Controller.report actuator 1 (List.replicate 10 ⟨1, 1⟩) 1000001000 s = .ok () s' ∧
        ∃ after : Session, s'.sessions[1]? = some after ∧ 545 ≤ after.floor := by
  intro actuator operations
  have hholding : Holding operations 1000001000 :=
    ⟨1000, by simp [operations], by decide⟩
  obtain ⟨⟨s, hs, hheld⟩, -⟩ :=
    holds_and_deadlines [364, 364, 829, 829] actuator operations (by decide)
  obtain ⟨s', hs', -, hfloor⟩ := (hheld 1000001000 hholding).1 1 (List.replicate 10 ⟨1, 1⟩)
  have hsession : ((final (performAll actuator operations)
      { policy := Policy.fromCapacities [364, 364, 829, 829] }).sessions[1]?).map (·.spike) =
        some false := by decide +kernel
  rw [final, hs] at hsession
  obtain ⟨session, hid, hspike⟩ := Option.map_eq_some_iff.1 hsession
  have hlevel : (Policy.fromCapacities [364, 364, 829, 829]).interaction = 545 := by
    decide +kernel
  rw [hlevel] at hfloor
  exact ⟨by decide, hholding, s, s', hs, hs', hfloor session hid hspike⟩

end Droidloom.Power
