/-
  The applied floors match the demand, after every operation.

  An operation changes one session or all of them and then brings only the threads up to date that
  it believes affected.  `Settled s tid` is the equation for one thread; what is carried through an
  operation is the list of threads that may not be settled yet (`sync_settles`, `rescan_ends`).

  A thread's demand is the least bound of what each session contributes to it
  (`demandOn_le_iff`), so it stays as it was when no contribution changes (`demandOn_congr`), and a
  thread that is reported gone takes no other thread's floor with it (`syncThread_ends`).
-/
import Droidloom.Lib.Triple
import Droidloom.Power.Controller

namespace Droidloom.Power

open Fallible Triple
open Std (ExtTreeMap)

/-! ## The demand on a thread -/

namespace Session

/-- What a session asks for a thread. -/
def contribution (session : Session) (ceiling : Nat) (tid : Int) : Nat :=
  if session.contains tid then session.demand ceiling else 0

theorem contains_iff {session : Session} {tid : Int} :
    session.contains tid = true ↔ tid ∈ session.threads := by
  simp [contains, threads]

theorem contribution_of_not_mem {session : Session} {ceiling : Nat} {tid : Int}
    (h : tid ∉ session.threads) : session.contribution ceiling tid = 0 := by
  rw [contribution, if_neg (mt contains_iff.mp h)]

theorem demand_le (session : Session) (ceiling : Nat) : session.demand ceiling ≤ ceiling := by
  unfold demand
  split
  · exact Nat.zero_le _
  · split
    · exact le_rfl
    · exact min_le_right _ _

theorem contribution_le (session : Session) (ceiling : Nat) (tid : Int) :
    session.contribution ceiling tid ≤ ceiling := by
  unfold contribution
  split
  · exact session.demand_le ceiling
  · exact Nat.zero_le _

/-- The session without the threads that are gone. -/
def trim (gone : List Int) (session : Session) : Session :=
  { session with
    tids := session.tids.filter (· ∉ gone)
    drivers := session.drivers.filter (· ∉ gone) }

theorem trim_nil (session : Session) : session.trim [] = session := by
  simp [trim]

theorem trim_trim (gone gone' : List Int) (session : Session) :
    (session.trim gone).trim gone' = session.trim (gone ++ gone') := by
  simp [trim, List.filter_filter, Bool.and_comm]

theorem forget_eq_trim (tid : Int) (session : Session) :
    session.forget tid = session.trim [tid] := by
  simp [forget, trim]

theorem mem_trim_threads {gone : List Int} {session : Session} {tid : Int} :
    tid ∈ (session.trim gone).threads ↔ tid ∈ session.threads ∧ tid ∉ gone := by
  simp [trim, threads]
  tauto

theorem demand_trim (gone : List Int) (session : Session) (ceiling : Nat) :
    (session.trim gone).demand ceiling = session.demand ceiling := rfl

theorem contribution_trim_of_not_mem {gone : List Int} {session : Session} {ceiling : Nat}
    {tid : Int} (h : tid ∉ gone) :
    (session.trim gone).contribution ceiling tid = session.contribution ceiling tid := by
  have hiff : (session.trim gone).contains tid = true ↔ session.contains tid = true := by
    rw [contains_iff, contains_iff, mem_trim_threads]
    exact and_iff_left h
  unfold contribution
  rw [demand_trim]
  by_cases hc : session.contains tid = true
  · rw [if_pos hc, if_pos (hiff.mpr hc)]
  · rw [if_neg hc, if_neg (mt hiff.mp hc)]

/-- The shape of a session between two operations. -/
structure Shaped (session : Session) (ceiling : Nat) : Prop where
  tids : session.tids.Nodup
  drivers : session.drivers.Nodup
  apart : session.tids.Disjoint session.drivers
  floor : session.floor ≤ ceiling

theorem Shaped.trim {session : Session} {ceiling : Nat} (h : session.Shaped ceiling)
    (gone : List Int) : (session.trim gone).Shaped ceiling where
  tids := h.tids.filter _
  drivers := h.drivers.filter _
  apart := fun _ htid hdriver => h.apart (List.mem_of_mem_filter htid) (List.mem_of_mem_filter hdriver)
  floor := h.floor

end Session

namespace Controller

variable {s s' s'' : Controller} {tid : Int}

theorem mem_all {session : Session} :
    session ∈ s.all ↔ ∃ id : Nat, s.sessions[id]? = some session := by
  unfold all
  rw [List.mem_map]
  constructor
  · rintro ⟨⟨id, _⟩, hmem, rfl⟩
    exact ⟨id, ExtTreeMap.mem_toList_iff_getElem?_eq_some.mp hmem⟩
  · rintro ⟨id, hid⟩
    exact ⟨(id, session), ExtTreeMap.mem_toList_iff_getElem?_eq_some.mpr hid, rfl⟩

/-- What the session of a number contributes to a thread. -/
def contributionAt (s : Controller) (id : Nat) (tid : Int) : Nat :=
  (s.sessions[id]?).elim 0 (·.contribution s.ceiling tid)

theorem max_getD_le_iff {l : List Nat} {b : Nat} : l.max?.getD 0 ≤ b ↔ ∀ x ∈ l, x ≤ b := by
  cases hmax : l.max? with
  | none => simp [List.max?_eq_none_iff.mp hmax]
  | some m => exact List.max?_le_iff hmax

/-- **The demand is the least bound of the contributions.** -/
theorem demandOn_le_iff {b : Nat} :
    s.demandOn tid ≤ b ↔ ∀ id, s.contributionAt id tid ≤ b := by
  unfold demandOn
  rw [max_getD_le_iff]
  constructor
  · intro h id
    unfold contributionAt
    cases hid : s.sessions[id]? with
    | none => exact Nat.zero_le _
    | some session =>
      show session.contribution s.ceiling tid ≤ b
      unfold Session.contribution
      split
      · rename_i hc
        refine h _ (List.mem_map_of_mem (List.mem_filter.mpr ⟨mem_all.mpr ⟨id, hid⟩, hc⟩))
      · exact Nat.zero_le _
  · intro h x hx
    obtain ⟨session, hmem, rfl⟩ := List.mem_map.mp hx
    obtain ⟨hall, hc⟩ := List.mem_filter.mp hmem
    obtain ⟨id, hid⟩ := mem_all.mp hall
    have hle := h id
    rw [contributionAt, hid] at hle
    simpa [Session.contribution, hc] using hle

theorem demandOn_congr (h : ∀ id, s'.contributionAt id tid = s.contributionAt id tid) :
    s'.demandOn tid = s.demandOn tid := by
  refine eq_of_forall_ge_iff fun b => ?_
  rw [demandOn_le_iff, demandOn_le_iff]
  simp only [h]

theorem demandOn_eq_zero_iff : s.demandOn tid = 0 ↔ ∀ id, s.contributionAt id tid = 0 := by
  rw [← Nat.le_zero, demandOn_le_iff]
  simp

theorem demandOn_le_ceiling : s.demandOn tid ≤ s.ceiling := by
  rw [demandOn_le_iff]
  intro id
  unfold contributionAt
  cases s.sessions[id]? with
  | none => exact Nat.zero_le _
  | some session => exact session.contribution_le _ _

/-! ## The equation for one thread -/

/-- Demand rounded up to a multiple of the quantum. -/
def roundUp (demand : Nat) : Nat := (demand + QUANTUM - 1) / QUANTUM * QUANTUM

/-- The floor of a thread is the one its demand asks for. -/
def Settled (s : Controller) (tid : Int) : Prop :=
  s.applied[tid]? =
    if s.demandOn tid = 0 then none else some (min s.ceiling (roundUp (s.demandOn tid)))

theorem roundUp_lt (d : Nat) : roundUp d < d + QUANTUM := by
  unfold roundUp QUANTUM
  omega

theorem le_roundUp (d : Nat) : d ≤ roundUp d := by
  unfold roundUp QUANTUM
  omega

theorem settled_congr (happlied : s'.applied[tid]? = s.applied[tid]?)
    (hceiling : s'.ceiling = s.ceiling) (hdemand : s'.demandOn tid = s.demandOn tid) :
    Settled s' tid ↔ Settled s tid := by
  unfold Settled
  rw [happlied, hceiling, hdemand]

/-! ## What the actuator was given -/

/-- The last floor that the actuator accepted for a thread. -/
def lastGiven (calls : List Call) (tid : Int) : Option Nat :=
  calls.foldl (fun last call => match call with
    | .apply t floor (.ok _) => if t = tid then some floor else last
    | _ => last) none

def ReportedGone (calls : List Call) (tid : Int) : Prop :=
  ∃ floor, .apply tid floor (.error .gone) ∈ calls

/-- The books of the controller agree with what the actuator accepted. -/
def Agrees (s : Controller) (tid : Int) : Prop :=
  match s.applied[tid]? with
  | some floor => lastGiven s.calls tid = some floor
  | none => lastGiven s.calls tid = none ∨ lastGiven s.calls tid = some 0

theorem lastGiven_snoc_ok {calls : List Call} {floor : Nat} {u : Unit} :
    lastGiven (calls ++ [.apply tid floor (.ok u)]) tid = some floor := by
  simp [lastGiven]

theorem lastGiven_snoc_other {calls : List Call} {t : Int} {floor : Nat}
    {answer : Except ApplyError Unit} (h : t ≠ tid) :
    lastGiven (calls ++ [.apply t floor answer]) tid = lastGiven calls tid := by
  unfold lastGiven
  rw [List.foldl_append, List.foldl_cons, List.foldl_nil]
  cases answer with
  | ok _ => exact if_neg h
  | error _ => rfl

theorem lastGiven_snoc_driverThreads {calls : List Call} {tgid : Int} :
    lastGiven (calls ++ [.driverThreads tgid]) tid = lastGiven calls tid := by
  simp [lastGiven]

/-- What holds also in the middle of an operation. -/
structure Base (s : Controller) : Prop where
  baseline : s.policy.baseline ≤ s.policy.ceiling
  interaction : s.policy.interaction ≤ s.policy.ceiling
  bound : s.policy.ceiling ≤ UTIL_MAX
  fresh : ∀ id, id ∈ s.sessions → id < s.nextId
  positive : ∀ (tid : Int) (floor : Nat), s.applied[tid]? = some floor → 0 < floor
  given : ∀ tid, ¬ ReportedGone s.calls tid → Agrees s tid

theorem Base.ceiling_le (h : Base s) : s.ceiling ≤ UTIL_MAX := by
  unfold ceiling
  split
  · exact h.baseline.trans h.bound
  · exact h.bound

theorem quantize_eq {demand ceiling : Nat} (hdemand : demand ≤ ceiling) (hceiling : ceiling ≤ UTIL_MAX) :
    quantize demand ceiling =
      .ok (if demand = 0 then 0 else min ceiling (roundUp demand)) := by
  unfold quantize
  by_cases hzero : demand = 0
  · rw [if_pos hzero, if_pos hzero]
  · have hlt := roundUp_lt demand
    have hsmall : (demand + QUANTUM - 1) / QUANTUM * QUANTUM < 2 ^ 32 := by
      unfold roundUp at hlt
      unfold UTIL_MAX at hceiling
      unfold QUANTUM at hlt ⊢
      omega
    rw [if_neg hzero, if_neg hzero, mul32, if_pos hsmall, min_comm]
    rfl

/-! ## Bringing threads up to date -/

/-- What a pass over some threads does: it forgets the threads that are gone, and a thread that was
    settled stays so. -/
structure Synced (s s' : Controller) : Prop where
  base : Base s'
  policy : s'.policy = s.policy
  lowPower : s'.lowPower = s.lowPower
  gone : ∃ gone : List Int, (∀ tid ∈ gone, Settled s' tid) ∧
    ∀ id : Nat, s'.sessions[id]? = (s.sessions[id]?).map (Session.trim gone)
  kept : ∀ tid, Settled s tid → Settled s' tid

theorem Synced.refl (h : Base s) : Synced s s where
  base := h
  policy := rfl
  lowPower := rfl
  gone := ⟨[], by simp, fun id => by cases s.sessions[id]? <;> simp [Session.trim_nil]⟩
  kept := fun _ h => h

theorem Synced.trans (h : Synced s s') (h' : Synced s' s'') : Synced s s'' where
  base := h'.base
  policy := h'.policy.trans h.policy
  lowPower := h'.lowPower.trans h.lowPower
  gone := by
    obtain ⟨gone, hgone, hsessions⟩ := h.gone
    obtain ⟨gone', hgone', hsessions'⟩ := h'.gone
    refine ⟨gone ++ gone', fun tid hmem => ?_, fun id => ?_⟩
    · rcases List.mem_append.mp hmem with hmem | hmem
      · exact h'.kept tid (hgone tid hmem)
      · exact hgone' tid hmem
    · rw [hsessions', hsessions, Option.map_map]
      congr 1
      funext session
      exact Session.trim_trim gone gone' session
  kept := fun tid hs => h'.kept tid (h.kept tid hs)

theorem getElem?_forget (id : Nat) :
    (s.forget tid).sessions[id]? = (s.sessions[id]?).map (Session.trim [tid]) := by
  unfold forget
  rw [ExtTreeMap.getElem?_map]
  cases s.sessions[id]? with
  | none => rfl
  | some session => exact congrArg some (session.forget_eq_trim tid)

/-- Forgetting a thread is felt by no other one. -/
theorem demandOn_forget_other {t : Int} (h : t ≠ tid) :
    (s.forget tid).demandOn t = s.demandOn t := by
  refine demandOn_congr fun id => ?_
  unfold contributionAt
  rw [getElem?_forget]
  cases s.sessions[id]? with
  | none => rfl
  | some session => exact Session.contribution_trim_of_not_mem (by simpa using h)

theorem demandOn_forget_self : (s.forget tid).demandOn tid = 0 := by
  rw [demandOn_eq_zero_iff]
  intro id
  unfold contributionAt
  rw [getElem?_forget]
  cases s.sessions[id]? with
  | none => rfl
  | some session =>
    exact Session.contribution_of_not_mem (by simp [Session.mem_trim_threads])

theorem mem_sessions_of_trim {gone : List Int}
    (h : ∀ id : Nat, s'.sessions[id]? = (s.sessions[id]?).map (Session.trim gone)) {id : Nat}
    (hmem : id ∈ s'.sessions) : id ∈ s.sessions := by
  rw [ExtTreeMap.mem_iff_isSome_getElem?] at hmem ⊢
  rw [h id] at hmem
  simpa using hmem

section

variable {actuator : Actuator}
  (hother : ∀ calls tid floor message, actuator.apply calls tid floor ≠ .error (.other message))

/-- The entry that an accepted floor leaves. -/
theorem getElem?_accepted {applied : ExtTreeMap Int Nat compare} {floor : Nat} (t : Int) :
    (if floor = 0 then applied.erase tid else applied.insert tid floor)[t]? =
      if t = tid then (if floor = 0 then none else some floor) else applied[t]? := by
  split <;> grind

/-- An accepted floor is entered. -/
theorem accepted_synced (h : Base s) {u : Unit} :
    let floor := if s.demandOn tid = 0 then 0 else min s.ceiling (roundUp (s.demandOn tid))
    Synced s ((s.called (.apply tid floor (.ok u))).answered tid floor (.ok u)) ∧
      Settled ((s.called (.apply tid floor (.ok u))).answered tid floor (.ok u)) tid := by
  intro floor
  have hfloor : floor = 0 ↔ s.demandOn tid = 0 := by
    have hceiling : s.demandOn tid ≤ s.ceiling := demandOn_le_ceiling
    have hround := le_roundUp (s.demandOn tid)
    by_cases hzero : s.demandOn tid = 0
    · simp [floor, hzero]
    · simp only [floor, if_neg hzero, hzero, iff_false]
      omega
  generalize hs' : (s.called (.apply tid floor (.ok u))).answered tid floor (.ok u) = s'
  have happlied : ∀ t : Int, s'.applied[t]? =
      if t = tid then (if floor = 0 then none else some floor) else s.applied[t]? := by
    intro t
    rw [← hs']
    exact getElem?_accepted t
  have hcalls : s'.calls = s.calls ++ [.apply tid floor (.ok u)] := by rw [← hs']; rfl
  have hdemand : ∀ t, s'.demandOn t = s.demandOn t := by intro t; rw [← hs']; rfl
  have hceiling : s'.ceiling = s.ceiling := by rw [← hs']; rfl
  have hsettled : Settled s' tid := by
    unfold Settled
    rw [happlied, if_pos rfl, hdemand, hceiling]
    by_cases hzero : s.demandOn tid = 0
    · rw [if_pos (hfloor.mpr hzero), if_pos hzero]
    · rw [if_neg (mt hfloor.mp hzero), if_neg hzero]
      simp only [floor, if_neg hzero]
  refine ⟨⟨⟨?_, ?_, ?_, ?_, ?_, ?_⟩, ?_, ?_, ⟨[], by simp, fun id => ?_⟩, ?_⟩, hsettled⟩
  · rw [← hs']; exact h.baseline
  · rw [← hs']; exact h.interaction
  · rw [← hs']; exact h.bound
  · rw [← hs']; exact h.fresh
  · intro t v hv
    rw [happlied] at hv
    split at hv
    · split at hv
      · cases hv
      · cases hv
        omega
    · exact h.positive t v hv
  · intro t hgone
    have hnot : ¬ ReportedGone s.calls t := by
      rintro ⟨f, hf⟩
      exact hgone ⟨f, by rw [hcalls]; exact List.mem_append_left _ hf⟩
    unfold Agrees
    rw [happlied, hcalls]
    by_cases ht : t = tid
    · subst ht
      rw [if_pos rfl, lastGiven_snoc_ok]
      by_cases hzero : floor = 0
      · rw [if_pos hzero]
        exact .inr (congrArg some hzero)
      · rw [if_neg hzero]
    · rw [if_neg ht, lastGiven_snoc_other (Ne.symm ht)]
      exact h.given t hnot
  · rw [← hs']; rfl
  · rw [← hs']; rfl
  · rw [← hs']
    show s.sessions[id]? = _
    cases s.sessions[id]? <;> simp [Session.trim_nil]
  · intro t ht
    by_cases heq : t = tid
    · exact heq ▸ hsettled
    · refine (settled_congr ?_ hceiling (hdemand t)).mpr ht
      rw [happlied, if_neg heq]

/-- A thread that is gone leaves every session and has no floor. -/
theorem gone_synced (h : Base s) (floor : Nat) :
    Synced s ((s.called (.apply tid floor (.error .gone))).forget tid) ∧
      Settled ((s.called (.apply tid floor (.error .gone))).forget tid) tid := by
  generalize hs' : (s.called (.apply tid floor (.error .gone))).forget tid = s'
  have happlied : ∀ t : Int, s'.applied[t]? = if t = tid then none else s.applied[t]? := by
    intro t
    rw [← hs']
    show (s.applied.erase tid)[t]? = _
    grind
  have hcalls : s'.calls = s.calls ++ [.apply tid floor (.error .gone)] := by rw [← hs']; rfl
  have hceiling : s'.ceiling = s.ceiling := by rw [← hs']; rfl
  have hsessions : ∀ id : Nat, s'.sessions[id]? = (s.sessions[id]?).map (Session.trim [tid]) := by
    intro id
    rw [← hs']
    exact getElem?_forget id
  have hsettled : Settled s' tid := by
    unfold Settled
    rw [happlied, if_pos rfl, ← hs', demandOn_forget_self, if_pos rfl]
  refine ⟨⟨⟨?_, ?_, ?_, ?_, ?_, ?_⟩, ?_, ?_, ⟨[tid], ?_, hsessions⟩, ?_⟩, hsettled⟩
  · rw [← hs']; exact h.baseline
  · rw [← hs']; exact h.interaction
  · rw [← hs']; exact h.bound
  · intro id hid
    have hlt := h.fresh id (mem_sessions_of_trim hsessions hid)
    rw [← hs']
    exact hlt
  · intro t v hv
    rw [happlied] at hv
    split at hv
    · cases hv
    · exact h.positive t v hv
  · intro t hgone
    have ht : t ≠ tid := by
      rintro rfl
      exact hgone ⟨floor, by rw [hcalls]; simp⟩
    have hnot : ¬ ReportedGone s.calls t := by
      rintro ⟨f, hf⟩
      exact hgone ⟨f, by rw [hcalls]; exact List.mem_append_left _ hf⟩
    unfold Agrees
    rw [happlied, if_neg ht, hcalls, lastGiven_snoc_other (Ne.symm ht)]
    exact h.given t hnot
  · rw [← hs']; rfl
  · rw [← hs']; rfl
  · simpa using hsettled
  · intro t ht
    by_cases heq : t = tid
    · exact heq ▸ hsettled
    · refine (settled_congr ?_ hceiling ?_).mpr ht
      · rw [happlied, if_neg heq]
      · rw [← hs']
        exact demandOn_forget_other heq

include hother in
theorem syncThread_ends (h : Base s) (tid : Int) :
    Ends (syncThread actuator tid) s (fun _ s' => Synced s s' ∧ Settled s' tid)
      fun _ => False := by
  unfold syncThread
  refine ends_get_bind ?_
  rw [quantize_eq demandOn_le_ceiling h.ceiling_le]
  refine ends_bind (Q := fun floor s' => s' = s ∧
    floor = if s.demandOn tid = 0 then 0 else min s.ceiling (roundUp (s.demandOn tid)))
    (ends_mapErr (fun _ he => by cases he) fun _ ha => ⟨rfl, (Except.ok.inj ha).symm⟩) ?_
  rintro floor s ⟨rfl, hfloor⟩
  refine ends_ite (fun hsame => ends_pure ⟨.refl h, ?_⟩) fun _ => ends_set ?_
  · -- the entry is the floor already, and an entry is never zero
    unfold Settled
    cases hentry : s.applied[tid]? with
    | none =>
      rw [hentry] at hsame
      have hdemand : s.demandOn tid = 0 := by
        by_contra hne
        rw [hfloor, if_neg hne] at hsame
        have hceiling : s.demandOn tid ≤ s.ceiling := demandOn_le_ceiling
        have hround := le_roundUp (s.demandOn tid)
        simp only [Option.getD_none] at hsame
        omega
      rw [if_pos hdemand]
    | some entry =>
      have hpos := h.positive tid entry hentry
      rw [hentry] at hsame
      simp only [Option.getD_some] at hsame
      by_cases hdemand : s.demandOn tid = 0
      · rw [hfloor, if_pos hdemand] at hsame
        omega
      · rw [if_neg hdemand, ← hsame, hfloor, if_neg hdemand]
  · cases hanswer : actuator.apply s.calls tid floor with
    | ok u =>
      rw [hfloor]
      exact accepted_synced h
    | error e =>
      cases e with
      | gone => exact gone_synced h floor
      | other message => exact absurd hanswer (hother _ _ _ message)

include hother in
theorem syncLoop_ends (tids : List Int) :
    ∀ s, Base s → Ends (syncLoop actuator tids) s
      (fun _ s' => Synced s s' ∧ ∀ tid ∈ tids, Settled s' tid) fun _ => False := by
  induction tids with
  | nil => exact fun s h => ends_pure ⟨.refl h, by simp⟩
  | cons tid rest ih =>
    intro s h
    refine ends_bind (syncThread_ends hother h tid) fun _ s₁ h₁ => ?_
    refine (ih s₁ h₁.1.base).mono (fun _ s' h' => ⟨h₁.1.trans h'.1, ?_⟩) fun _ hfalse => hfalse
    intro t ht
    rcases List.mem_cons.mp ht with rfl | ht
    · exact h'.1.kept t h₁.2
    · exact h'.2 t ht

include hother in
/-- **A pass settles its threads**, and unsettles none. -/
theorem sync_settles (h : Base s) (tids : List Int) :
    Ends (sync actuator tids) s (fun _ s' => Synced s s' ∧ ∀ tid ∈ tids, Settled s' tid)
      fun _ => False :=
  (syncLoop_ends hother _ s h).mono
    (fun _ _ h' => ⟨h'.1, fun tid htid => h'.2 tid (by simpa using htid)⟩) fun _ hfalse => hfalse

end

/-! ## Learned floors stay below the ceiling -/

theorem add32_ok {a b : Nat} (h : a + b < 2 ^ 32) : add32 a b = .ok (a + b) := if_pos h

theorem adjust_ok {floor ceiling : Nat} (work : Work) (targetNs : Int) (hfloor : floor ≤ ceiling)
    (hceiling : ceiling ≤ UTIL_MAX) :
    ∃ adjusted, adjust floor work targetNs ceiling = .ok adjusted ∧ adjusted ≤ ceiling := by
  unfold adjust
  split
  · exact ⟨floor, rfl, hfloor⟩
  · split
    · have hsmall : ∀ raise, floor + min raise MAX_RAISE < 2 ^ 32 := by
        intro raise
        unfold UTIL_MAX at hceiling
        unfold MAX_RAISE
        omega
      simp only [add32_ok (hsmall _)]
      exact ⟨_, rfl, min_le_right _ _⟩
    · split
      · exact ⟨floor - DECAY, rfl, (Nat.sub_le _ _).trans hfloor⟩
      · exact ⟨floor, rfl, hfloor⟩

theorem adjustAll_ok {ceiling : Nat} (targetNs : Int) (hceiling : ceiling ≤ UTIL_MAX)
    (work : List Work) : ∀ floor, floor ≤ ceiling →
      ∃ adjusted, adjustAll targetNs ceiling floor work = .ok adjusted ∧ adjusted ≤ ceiling := by
  induction work with
  | nil => exact fun floor h => ⟨floor, rfl, h⟩
  | cons first rest ih =>
    intro floor hfloor
    obtain ⟨adjusted, hadjusted, hle⟩ := adjust_ok first targetNs hfloor hceiling
    unfold adjustAll
    rw [hadjusted]
    exact ih adjusted hle

theorem Base.held_le (h : Base s) (now : Nat) : s.held now ≤ s.policy.ceiling := by
  unfold held
  split
  · split
    · exact h.interaction
    · exact Nat.zero_le _
  · exact Nat.zero_le _

/-- What every change of a learned floor keeps. -/
structure Kept (session new : Session) (ceiling : Nat) : Prop where
  tids : new.tids = session.tids
  drivers : new.drivers = session.drivers
  floor : new.floor ≤ ceiling

theorem Kept.shaped {session new : Session} {ceiling : Nat} (h : Kept session new ceiling)
    (hshaped : session.Shaped ceiling) : new.Shaped ceiling where
  tids := h.tids ▸ hshaped.tids
  drivers := h.drivers ▸ hshaped.drivers
  apart := by rw [h.tids, h.drivers]; exact hshaped.apart
  floor := h.floor

theorem Kept.threads {session new : Session} {ceiling : Nat} (h : Kept session new ceiling) :
    new.threads = session.threads := by
  rw [Session.threads, Session.threads, h.tids, h.drivers]

theorem learn_ok {session : Session} {ceiling held : Nat} (work : List Work) (now : Nat)
    (hfloor : session.floor ≤ ceiling) (hheld : held ≤ ceiling) (hceiling : ceiling ≤ UTIL_MAX) :
    ∃ learned, learn session work ceiling held now = .ok learned ∧
      Kept session learned ceiling := by
  unfold learn
  split
  · exact ⟨_, rfl, rfl, rfl, hfloor⟩
  · obtain ⟨adjusted, hadjusted, hle⟩ :=
      adjustAll_ok session.targetNs hceiling work session.floor hfloor
    rw [hadjusted]
    exact ⟨_, rfl, rfl, rfl, max_le hle hheld⟩

theorem hinted_ok {policy : Policy} {session : Session} {held : Nat} (now : Nat) (load : Hint)
    (hfloor : session.floor ≤ policy.ceiling) (hheld : held ≤ policy.ceiling)
    (hbaseline : policy.baseline ≤ policy.ceiling) (hceiling : policy.ceiling ≤ UTIL_MAX) :
    ∃ new, hinted policy held session now load = .ok new ∧ Kept session new policy.ceiling := by
  cases load with
  | loadUp =>
    unfold hinted
    rw [add32_ok (by unfold UTIL_MAX at hceiling; unfold HINT_STEP; omega)]
    exact ⟨_, rfl, rfl, rfl, min_le_right _ _⟩
  | loadDown => exact ⟨_, rfl, rfl, rfl, max_le ((Nat.sub_le _ _).trans hfloor) hheld⟩
  | loadReset => exact ⟨_, rfl, rfl, rfl, max_le hfloor hbaseline⟩
  | loadResume => exact ⟨_, rfl, rfl, rfl, hfloor⟩
  | loadSpike => exact ⟨_, rfl, rfl, rfl, hfloor⟩

/-! ## The invariant -/

structure Inv (policy : Policy) (s : Controller) : Prop where
  base : Base s
  policy : s.policy = policy
  shaped : ∀ (id : Nat) (session : Session), s.sessions[id]? = some session →
    session.Shaped s.policy.ceiling
  settled : ∀ tid, Settled s tid

theorem contributionAt_update (id j : Nat) (session : Session) :
    (s.update id session).contributionAt j tid =
      if j = id then session.contribution s.ceiling tid else s.contributionAt j tid := by
  show ((s.sessions.insert id session)[j]?).elim 0 (·.contribution s.ceiling tid) = _
  unfold contributionAt
  split <;> grind

/-- A session that contributes to a thread what it did before leaves that thread alone. -/
theorem settled_update {id : Nat} {session : Session}
    (hsame : session.contribution s.ceiling tid = s.contributionAt id tid) (h : Settled s tid) :
    Settled (s.update id session) tid := by
  have hdemand : (s.update id session).demandOn tid = s.demandOn tid := by
    refine demandOn_congr fun j => ?_
    rw [contributionAt_update]
    by_cases hj : j = id
    · rw [if_pos hj, hj, hsame]
    · rw [if_neg hj]
  have happlied : (s.update id session).applied[tid]? = s.applied[tid]? := rfl
  exact (settled_congr happlied rfl hdemand).mpr h

theorem Base.update (h : Base s) {id : Nat} (hid : id < s.nextId) (session : Session) :
    Base (s.update id session) where
  baseline := h.baseline
  interaction := h.interaction
  bound := h.bound
  fresh := by
    intro j hj
    have hcases : j = id ∨ j ∈ s.sessions := by
      have hj : j ∈ s.sessions.insert id session := hj
      grind
    rcases hcases with rfl | hj
    · exact hid
    · exact h.fresh j hj
  positive := h.positive
  given := h.given

theorem Base.called_driverThreads (h : Base s) (tgid : Int) :
    Base (s.called (.driverThreads tgid)) where
  baseline := h.baseline
  interaction := h.interaction
  bound := h.bound
  fresh := h.fresh
  positive := h.positive
  given := by
    intro tid hgone
    have hnot : ¬ ReportedGone s.calls tid := by
      rintro ⟨floor, hfloor⟩
      exact hgone ⟨floor, List.mem_append_left _ hfloor⟩
    have hgiven : lastGiven (s.called (.driverThreads tgid)).calls tid = lastGiven s.calls tid :=
      lastGiven_snoc_driverThreads
    have hagrees := h.given tid hnot
    unfold Agrees at hagrees ⊢
    rw [hgiven]
    exact hagrees

theorem lt_nextId (h : Base s) {id : Nat} {session : Session}
    (hid : s.sessions[id]? = some session) : id < s.nextId :=
  h.fresh id (ExtTreeMap.mem_iff_isSome_getElem?.mpr (by simp [hid]))

theorem Synced.shaped (h : Synced s s')
    (hshaped : ∀ (id : Nat) (session : Session), s.sessions[id]? = some session →
      session.Shaped s.policy.ceiling) (id : Nat) (session : Session)
    (hid : s'.sessions[id]? = some session) : session.Shaped s'.policy.ceiling := by
  obtain ⟨gone, -, hsessions⟩ := h.gone
  rw [hsessions] at hid
  obtain ⟨before, hbefore, rfl⟩ := Option.map_eq_some_iff.mp hid
  rw [h.policy]
  exact (hshaped id before hbefore).trim gone

section

variable {actuator : Actuator} {policy : Policy}
  (hother : ∀ calls tid floor message, actuator.apply calls tid floor ≠ .error (.other message))

include hother in
/-- **The end of every operation**: the threads that may be behind are passed over. -/
theorem sync_inv (h : Base s) (hpolicy : s.policy = policy)
    (hshaped : ∀ (id : Nat) (session : Session), s.sessions[id]? = some session →
      session.Shaped s.policy.ceiling)
    {tids : List Int} (hrest : ∀ tid, Settled s tid ∨ tid ∈ tids) :
    Ends (sync actuator tids) s (fun _ s' => Inv policy s') fun _ => False := by
  refine (sync_settles hother h tids).mono (fun _ s' h' => ?_) fun _ hfalse => hfalse
  refine ⟨h'.1.base, h'.1.policy.trans hpolicy, h'.1.shaped hshaped, fun tid => ?_⟩
  rcases hrest tid with hs | hmem
  · exact h'.1.kept tid hs
  · exact h'.2 tid hmem

/-- In the middle of an operation on a session: only its threads, and `extra`, may be behind. -/
structure Pending (policy : Policy) (s : Controller) (id : Nat) (session : Session)
    (extra : Int → Prop) : Prop where
  base : Base s
  policy : s.policy = policy
  stored : s.sessions[id]? = some session
  tids : session.tids.Nodup
  floor : session.floor ≤ s.policy.ceiling
  others : ∀ (j : Nat) (other : Session), j ≠ id → s.sessions[j]? = some other →
    other.Shaped s.policy.ceiling
  rest : ∀ tid, Settled s tid ∨ tid ∈ session.threads ∨ extra tid

/-- A session that is stored anew, when all the threads were settled. -/
theorem Inv.pending (h : Inv policy s) {id : Nat} (hid : id < s.nextId) {new : Session}
    {extra : Int → Prop} (htids : new.tids.Nodup) (hfloor : new.floor ≤ s.policy.ceiling)
    (hextra : ∀ tid, tid ∉ new.threads → s.contributionAt id tid = 0 ∨ extra tid) :
    Pending policy (s.update id new) id new extra where
  base := h.base.update hid new
  policy := h.policy
  stored := by
    show (s.sessions.insert id new)[id]? = some new
    simp
  tids := htids
  floor := hfloor
  others := by
    intro j other hj hstored
    have hstored : (s.sessions.insert id new)[j]? = some other := hstored
    exact h.shaped j other (by grind)
  rest := by
    intro tid
    by_cases hmem : tid ∈ new.threads
    · exact .inr (.inl hmem)
    · rcases hextra tid hmem with hzero | hx
      · refine .inl (settled_update ?_ (h.settled tid))
        rw [hzero, Session.contribution_of_not_mem hmem]
      · exact .inr (.inr hx)

theorem contributionAt_of_not_mem {id : Nat} {session : Session}
    (hid : s.sessions[id]? = some session) (h : tid ∉ session.threads) :
    s.contributionAt id tid = 0 := by
  rw [contributionAt, hid]
  exact Session.contribution_of_not_mem h

/-- A session with the same threads is pending with no others. -/
theorem Inv.pending_kept (h : Inv policy s) {id : Nat} {session new : Session}
    (hid : s.sessions[id]? = some session) (hkept : Kept session new s.policy.ceiling) :
    Pending policy (s.update id new) id new fun _ => False :=
  h.pending (lt_nextId h.base hid) (hkept.tids ▸ (h.shaped id session hid).tids) hkept.floor
    fun _ hmem => .inl (contributionAt_of_not_mem hid (hkept.threads ▸ hmem))

theorem nodup_unique (tids : List Int) : (unique tids).Nodup := List.nodup_dedup _

include hother in
/-- A rescan replaces the driver threads and settles those that it drops; the threads that are
    behind are then the session's own. -/
theorem rescan_ends {id : Nat} {session : Session} {extra : Int → Prop}
    (h : Pending policy s id session extra) (now : Nat) :
    Ends (rescan actuator id now) s
      (fun _ s' => ∃ session', Pending policy s' id session' extra ∧
        session'.Shaped s'.policy.ceiling) fun _ => False := by
  unfold rescan
  refine ends_get_bind ?_
  rw [h.stored]
  simp only
  set drivers := (unique (actuator.driverThreads s.calls session.tgid)).filter
    fun tid => !session.tids.contains tid with hdrivers
  set scanned : Session := { session with drivers, scannedAt := some now } with hscanned
  set s₁ := (s.called (.driverThreads session.tgid)).update id scanned with hs₁
  refine ends_set_bind ?_
  have hbase : Base s₁ :=
    (h.base.called_driverThreads session.tgid).update (lt_nextId h.base h.stored) scanned
  have hstored : s₁.sessions[id]? = some scanned := by
    show (s.sessions.insert id scanned)[id]? = some scanned
    simp
  have hshaped : scanned.Shaped s.policy.ceiling :=
    { tids := h.tids
      drivers := (nodup_unique _).filter _
      apart := by
        intro tid htid hdriver
        have hnot := (List.mem_filter.mp hdriver).2
        have htid : tid ∈ session.tids := htid
        simp [htid] at hnot
      floor := h.floor }
  -- a thread that is in neither version of the session was not touched
  have hrest : ∀ tid, Settled s₁ tid ∨ tid ∈ scanned.threads ∨ tid ∈ session.drivers ∨
      extra tid := by
    intro tid
    by_cases hold : tid ∈ session.threads
    · rcases List.mem_append.mp hold with htid | hdriver
      · exact .inr (.inl (List.mem_append_left _ htid))
      · exact .inr (.inr (.inl hdriver))
    · by_cases hnew : tid ∈ scanned.threads
      · exact .inr (.inl hnew)
      · rcases h.rest tid with hs | hmem | hx
        · refine .inl (settled_update ?_ ((settled_congr (s := s) rfl rfl rfl).mpr hs))
          rw [Session.contribution_of_not_mem hnew]
          exact (contributionAt_of_not_mem h.stored hold).symm
        · exact absurd hmem hold
        · exact .inr (.inr (.inr hx))
  refine (sync_settles hother hbase _).mono (fun _ s' h' => ?_) fun _ hfalse => hfalse
  obtain ⟨gone, hgone, hsessions⟩ := h'.1.gone
  have hstored' : s'.sessions[id]? = some (scanned.trim gone) := by
    rw [hsessions, hstored]
    rfl
  have hshaped' : (scanned.trim gone).Shaped s'.policy.ceiling :=
    h'.1.policy ▸ hshaped.trim gone
  refine ⟨scanned.trim gone, ⟨h'.1.base, h'.1.policy.trans h.policy, hstored', hshaped'.tids,
    hshaped'.floor, fun j other hj hother' => ?_, fun tid => ?_⟩, hshaped'⟩
  · rw [hsessions] at hother'
    obtain ⟨before, hbefore, rfl⟩ := Option.map_eq_some_iff.mp hother'
    have hbefore : (s.sessions.insert id scanned)[j]? = some before := hbefore
    rw [h'.1.policy]
    exact (h.others j before hj (by grind)).trim gone
  · have hinside : tid ∈ scanned.threads →
        Settled s' tid ∨ tid ∈ (scanned.trim gone).threads ∨ extra tid := by
      intro hmem
      by_cases htid : tid ∈ gone
      · exact .inl (hgone tid htid)
      · exact .inr (.inl (Session.mem_trim_threads.mpr ⟨hmem, htid⟩))
    rcases hrest tid with hs | hmem | hdriver | hx
    · exact .inl (h'.1.kept tid hs)
    · exact hinside hmem
    · by_cases hstill : tid ∈ drivers
      · exact hinside (List.mem_append_right _ hstill)
      · refine .inl (h'.2 tid (List.mem_filter.mpr ⟨hdriver, ?_⟩))
        simpa using hstill
    · exact .inr (.inr hx)

include hother in
theorem syncSession_inv {id : Nat} {session : Session}
    (h : Pending policy s id session fun _ => False)
    (hshaped : session.Shaped s.policy.ceiling) :
    Ends (syncSession actuator id) s (fun _ s' => Inv policy s') fun _ => False := by
  unfold syncSession
  refine ends_get_bind ?_
  rw [h.stored]
  refine sync_inv hother h.base h.policy (fun j other hj => ?_) fun tid => ?_
  · by_cases heq : j = id
    · subst heq
      rw [h.stored] at hj
      cases hj
      exact hshaped
    · exact h.others j other heq hj
  · rcases h.rest tid with hs | hmem | hfalse
    · exact .inl hs
    · exact .inr hmem
    · exact absurd hfalse not_false

include hother in
/-- A session that was changed, with a rescan or without. -/
theorem refresh_inv {id : Nat} {session : Session} {c : Prop} [Decidable c]
    (h : Pending policy s id session fun _ => False)
    (hshaped : session.Shaped s.policy.ceiling) (now : Nat) :
    Ends (if c then do rescan actuator id now; syncSession actuator id
      else syncSession actuator id) s (fun _ s' => Inv policy s') fun _ => False :=
  ends_ite
    (fun _ => ends_bind (rescan_ends hother h now) fun _ _ ⟨_, hpending, hshaped'⟩ =>
      syncSession_inv hother hpending hshaped')
    fun _ => syncSession_inv hother h hshaped

include hother in
theorem syncAll_inv (h : Base s) (hpolicy : s.policy = policy)
    (hshaped : ∀ (id : Nat) (session : Session), s.sessions[id]? = some session →
      session.Shaped s.policy.ceiling) :
    Ends (syncAll actuator) s (fun _ s' => Inv policy s') fun _ => False := by
  refine ends_get_bind (sync_inv hother h hpolicy hshaped fun tid => ?_)
  by_cases hmem : tid ∈ s.all.flatMap Session.threads ++ s.applied.keys
  · exact .inr hmem
  · -- in no session and without an entry
    left
    rw [List.mem_append, not_or] at hmem
    have hdemand : s.demandOn tid = 0 := by
      rw [demandOn_eq_zero_iff]
      intro id
      unfold contributionAt
      cases hid : s.sessions[id]? with
      | none => rfl
      | some session =>
        refine Session.contribution_of_not_mem fun htid => hmem.1 ?_
        exact List.mem_flatMap.mpr ⟨session, mem_all.mpr ⟨id, hid⟩, htid⟩
    have hentry : s.applied[tid]? = none := by
      have hnot : tid ∉ s.applied := mt ExtTreeMap.mem_keys.mpr hmem.2
      grind
    unfold Settled
    rw [hdemand, if_pos rfl, hentry]

end

/-! ## Every operation keeps the invariant -/

section

variable {actuator : Actuator} {policy : Policy}
  (hother : ∀ calls tid floor message, actuator.apply calls tid floor ≠ .error (.other message))

/-- The same change of every session keeps what `Base` and the shapes say. -/
theorem Base.map_sessions (h : Base s) (f : Session → Session) :
    Base { s with sessions := s.sessions.map fun _ session => f session } where
  baseline := h.baseline
  interaction := h.interaction
  bound := h.bound
  fresh := by
    intro id hid
    have hid : id ∈ s.sessions.map fun _ session => f session := hid
    exact h.fresh id (by simpa using hid)
  positive := h.positive
  given := h.given

theorem shaped_map (hshaped : ∀ (id : Nat) (session : Session), s.sessions[id]? = some session →
      session.Shaped s.policy.ceiling) {f : Session → Session}
    (hf : ∀ session, session.Shaped s.policy.ceiling → (f session).Shaped s.policy.ceiling)
    (id : Nat) (session : Session)
    (hid : (s.sessions.map fun _ session => f session)[id]? = some session) :
    session.Shaped s.policy.ceiling := by
  rw [ExtTreeMap.getElem?_map] at hid
  obtain ⟨before, hbefore, rfl⟩ := Option.map_eq_some_iff.mp hid
  exact hf before (hshaped id before hbefore)

include hother in
theorem create_inv (h : Inv policy s) (tgid uid tag : Int) (tids : List Int) (targetNs : Int)
    (now : Nat) : Ends (create actuator tgid uid tag tids targetNs now) s
      (fun _ s' => Inv policy s') fun _ => False := by
  refine ends_get_bind ?_
  have hnone : s.sessions[s.nextId]? = none := by
    have hnot : s.nextId ∉ s.sessions := fun hmem => absurd (h.base.fresh _ hmem) (lt_irrefl _)
    grind
  have hnext : Inv policy { s with nextId := s.nextId + 1 } :=
    { base := { h.base with fresh := fun id hid => (h.base.fresh id hid).trans (Nat.lt_succ_self _) }
      policy := h.policy
      shaped := h.shaped
      settled := h.settled }
  have hpending : Pending policy ({ s with nextId := s.nextId + 1 }.update s.nextId _) s.nextId
      ((Session.opened tgid uid tag (unique tids) targetNs
        (max s.policy.baseline (s.held now))).activate now) fun _ => False :=
    hnext.pending (Nat.lt_succ_self s.nextId) (nodup_unique tids)
      (max_le h.base.baseline (h.base.held_le now))
      fun tid _ => .inl (by rw [contributionAt]; simp only [hnone]; rfl)
  refine ends_set_bind (ends_bind (rescan_ends hother hpending now) ?_)
  rintro _ s₁ ⟨session, hpending₁, hshaped₁⟩
  exact ends_bind (syncSession_inv hother hpending₁ hshaped₁) fun _ _ hinv => ends_pure hinv

include hother in
theorem close_inv (h : Inv policy s) (id : Nat) :
    Ends (close actuator id) s (fun _ s' => Inv policy s') fun _ => False := by
  unfold close
  refine ends_get_bind ?_
  cases hid : s.sessions[id]? with
  | none => exact ends_pure h
  | some session =>
    refine ends_set_bind ?_
    refine sync_inv (s := { s with sessions := s.sessions.erase id }) hother ?_ h.policy ?_
      fun tid => ?_
    · exact { h.base with fresh := fun j hj => h.base.fresh j (ExtTreeMap.mem_of_mem_erase hj) }
    · intro j other hj
      have hj : (s.sessions.erase id)[j]? = some other := hj
      exact h.shaped j other (by grind)
    · by_cases hmem : tid ∈ session.threads
      · exact .inr hmem
      · left
        refine (settled_congr (s := s) (by rfl) (by rfl) (demandOn_congr fun j => ?_)).mpr
          (h.settled tid)
        by_cases hj : j = id
        · subst hj
          rw [contributionAt_of_not_mem hid hmem]
          show ((s.sessions.erase j)[j]?).elim 0 _ = 0
          simp
        · show ((s.sessions.erase id)[j]?).elim 0 (·.contribution s.ceiling tid) = _
          unfold contributionAt
          grind

theorem setTarget_inv (h : Inv policy s) (id : Nat) (targetNs : Int) :
    Ends (setTarget id targetNs) s (fun _ s' => Inv policy s') fun _ => False := by
  unfold setTarget
  refine ends_get_bind ?_
  cases hid : s.sessions[id]? with
  | none => exact ends_pure h
  | some session =>
    refine ends_ite (fun _ => ends_set ?_) fun _ => ends_pure h
    have hshape := h.shaped id session hid
    refine ⟨h.base.update (lt_nextId h.base hid) _, h.policy, fun j other hj => ?_, fun tid => ?_⟩
    · have hj : (s.sessions.insert id { session with targetNs })[j]? = some other := hj
      by_cases heq : j = id
      · subst heq
        have hother : other = { session with targetNs } := by simpa [eq_comm] using hj
        subst hother
        exact ⟨hshape.tids, hshape.drivers, hshape.apart, hshape.floor⟩
      · exact h.shaped j other (by grind)
    · -- the demand of a session does not look at its target
      refine settled_update ?_ (h.settled tid)
      rw [contributionAt, hid]
      rfl

include hother in
theorem report_inv (h : Inv policy s) (id : Nat) (work : List Work) (now : Nat) :
    Ends (report actuator id work now) s (fun _ s' => Inv policy s') fun _ => False := by
  unfold report
  refine ends_get_bind ?_
  cases hid : s.sessions[id]? with
  | none => exact ends_pure h
  | some session =>
    have hshape := h.shaped id session hid
    obtain ⟨learned, hlearned, hkept⟩ :=
      learn_ok work now hshape.floor (h.base.held_le now) h.base.bound
    simp only [hlearned]
    refine ends_mapErr_ok_bind (ends_set_bind ?_)
    exact refresh_inv hother (h.pending_kept hid hkept) (hkept.shaped hshape) now

include hother in
theorem hint_inv (h : Inv policy s) (id : Nat) (load : Hint) (now : Nat) :
    Ends (hint actuator id load now) s (fun _ s' => Inv policy s') fun _ => False := by
  unfold hint
  refine ends_get_bind ?_
  cases hid : s.sessions[id]? with
  | none => exact ends_pure h
  | some session =>
    have hshape := h.shaped id session hid
    obtain ⟨new, hnew, hkept⟩ :=
      hinted_ok now load hshape.floor (h.base.held_le now) h.base.baseline h.base.bound
    simp only [hnew]
    refine ends_mapErr_ok_bind (ends_set_bind ?_)
    exact refresh_inv hother (h.pending_kept hid hkept) (hkept.shaped hshape) now

include hother in
/-- A change that leaves the threads and the learned floor of the session. -/
theorem change_inv (h : Inv policy s) (id : Nat) {f : Session → Session}
    (hf : ∀ session, (f session).tids = session.tids ∧ (f session).drivers = session.drivers ∧
      (f session).floor = session.floor) :
    Ends (change actuator id f) s (fun _ s' => Inv policy s') fun _ => False := by
  unfold change
  refine ends_get_bind ?_
  cases hid : s.sessions[id]? with
  | none => exact ends_pure h
  | some session =>
    have hshape := h.shaped id session hid
    obtain ⟨htids, hdrivers, hfloor⟩ := hf session
    have hkept : Kept session (f session) s.policy.ceiling :=
      ⟨htids, hdrivers, hfloor ▸ hshape.floor⟩
    exact ends_set_bind
      (syncSession_inv hother (h.pending_kept hid hkept) (hkept.shaped hshape))

include hother in
theorem setThreads_inv (h : Inv policy s) (id : Nat) (tids : List Int) (now : Nat) :
    Ends (setThreads actuator id tids now) s (fun _ s' => Inv policy s') fun _ => False := by
  unfold setThreads
  refine ends_get_bind ?_
  cases hid : s.sessions[id]? with
  | none => exact ends_pure h
  | some session =>
    -- what only the old session named is behind too
    have hpending : Pending policy (s.update id { session with tids := unique tids }) id
        { session with tids := unique tids } fun tid => tid ∈ session.threads := by
      refine h.pending (lt_nextId h.base hid) (nodup_unique tids) (h.shaped id session hid).floor ?_
      intro tid _
      by_cases hmem : tid ∈ session.threads
      · exact .inr hmem
      · exact .inl (contributionAt_of_not_mem hid hmem)
    refine ends_set_bind (ends_bind (rescan_ends hother hpending now) ?_)
    rintro _ s₁ ⟨scanned, hpending₁, hshaped₁⟩
    refine ends_get_bind ?_
    rw [hpending₁.stored]
    refine sync_inv hother hpending₁.base hpending₁.policy (fun j other hj => ?_) fun tid => ?_
    · by_cases heq : j = id
      · subst heq
        rw [hpending₁.stored] at hj
        cases hj
        exact hshaped₁
      · exact hpending₁.others j other heq hj
    · rcases hpending₁.rest tid with hs | hmem | hold
      · exact .inl hs
      · exact .inr (List.mem_append_right _ hmem)
      · exact .inr (List.mem_append_left _ hold)

theorem seed_shaped {session : Session} {ceiling floor : Nat} (h : session.Shaped ceiling)
    (hfloor : floor ≤ ceiling) (now : Nat) : (seed floor now session).Shaped ceiling := by
  unfold seed
  split
  · exact ⟨h.tids, h.drivers, h.apart, max_le h.floor hfloor⟩
  · exact h

include hother in
theorem interaction_inv (h : Inv policy s) (now : Nat) :
    Ends (interaction actuator now) s (fun _ s' => Inv policy s') fun _ => False := by
  refine ends_modify_bind (syncAll_inv hother ?_ h.policy ?_)
  · have hbase := h.base.map_sessions (seed s.policy.interaction now)
    exact ⟨hbase.baseline, hbase.interaction, hbase.bound, hbase.fresh, hbase.positive, hbase.given⟩
  · exact shaped_map h.shaped fun session hshape => seed_shaped hshape h.base.interaction now

include hother in
theorem setLowPower_inv (h : Inv policy s) (enabled : Bool) :
    Ends (setLowPower actuator enabled) s (fun _ s' => Inv policy s') fun _ => False := by
  refine ends_get_bind (ends_ite (fun _ => ?_) fun _ => ends_pure h)
  exact ends_set_bind (syncAll_inv hother { h.base with } h.policy h.shaped)

theorem retire_shaped {session : Session} {ceiling : Nat} (h : session.Shaped ceiling)
    (now : Nat) : (retire now session).Shaped ceiling := by
  unfold retire
  split
  · exact ⟨h.tids, h.drivers, h.apart, h.floor⟩
  · exact h

theorem retire_threads (now : Nat) (session : Session) :
    (retire now session).threads = session.threads := by
  unfold retire
  split <;> rfl

include hother in
theorem expire_inv (h : Inv policy s) (now : Nat) :
    Ends (expire actuator now) s (fun _ s' => Inv policy s') fun _ => False := by
  refine ends_get_bind (ends_set_bind (ends_bind (sync_inv hother (h.base.map_sessions _) h.policy
    (shaped_map h.shaped fun session hshape => retire_shaped hshape now) fun tid => ?_)
    fun _ s' hinv => ends_get_bind (ends_pure hinv)))
  by_cases hmem : tid ∈ (s.all.filter (stale now)).flatMap Session.threads
  · exact .inr hmem
  · left
    refine (settled_congr (s := s) (by rfl) (by rfl) (demandOn_congr fun id => ?_)).mpr
      (h.settled tid)
    unfold contributionAt
    show ((s.sessions.map fun _ session => retire now session)[id]?).elim 0 _ = _
    rw [ExtTreeMap.getElem?_map]
    cases hid : s.sessions[id]? with
    | none => rfl
    | some session =>
      show (retire now session).contribution s.ceiling tid = session.contribution s.ceiling tid
      by_cases hstale : stale now session = true
      · have hnot : tid ∉ session.threads := fun htid => hmem (List.mem_flatMap.mpr
          ⟨session, List.mem_filter.mpr ⟨mem_all.mpr ⟨id, hid⟩, hstale⟩, htid⟩)
        rw [Session.contribution_of_not_mem hnot,
          Session.contribution_of_not_mem (retire_threads now session ▸ hnot)]
      · rw [retire, if_neg hstale]

include hother in
theorem perform_inv (h : Inv policy s) (operation : Operation) :
    Ends (operation.perform actuator) s (fun _ s' => Inv policy s') fun _ => False := by
  cases operation with
  | create tgid uid tag tids targetNs now =>
    exact ends_bind (create_inv hother h tgid uid tag tids targetNs now)
      fun _ _ hinv => ends_pure hinv
  | close id => exact close_inv hother h id
  | setTarget id targetNs => exact setTarget_inv h id targetNs
  | report id work now => exact report_inv hother h id work now
  | hint id load now => exact hint_inv hother h id load now
  | pause id => exact change_inv hother h id fun _ => ⟨rfl, rfl, rfl⟩
  | resume id now => exact change_inv hother h id fun _ => ⟨rfl, rfl, rfl⟩
  | setThreads id tids now => exact setThreads_inv hother h id tids now
  | setEfficient id efficient => exact change_inv hother h id fun _ => ⟨rfl, rfl, rfl⟩
  | interaction now => exact interaction_inv hother h now
  | setLowPower enabled => exact setLowPower_inv hother h enabled
  | expire now => exact ends_bind (expire_inv hother h now) fun _ _ hinv => ends_pure hinv

include hother in
theorem performAll_inv (operations : List Operation) : ∀ s, Inv policy s →
    Ends (performAll actuator operations) s (fun _ s' => Inv policy s') fun _ => False := by
  induction operations with
  | nil => exact fun s h => ends_pure h
  | cons operation rest ih =>
    exact fun s h => ends_bind (perform_inv hother h operation) fun _ s' h' => ih s' h'

end

/-! ## The bounds that the capacities give -/

theorem countTier_le {tiers : List (Nat × Nat)} {capacity : Nat} (hcapacity : capacity ≤ UTIL_MAX)
    (h : ∀ tier ∈ tiers, tier.1 ≤ UTIL_MAX) :
    ∀ tier ∈ countTier tiers capacity, tier.1 ≤ UTIL_MAX := by
  intro tier htier
  unfold countTier at htier
  split at htier
  · obtain ⟨before, hbefore, rfl⟩ := List.mem_map.mp htier
    split
    · exact h before hbefore
    · exact h before hbefore
  · rcases List.mem_append.mp htier with hold | hnew
    · exact h tier hold
    · rw [List.mem_singleton.mp hnew]
      exact hcapacity

theorem tiersOf_le (capacities : List Nat) : ∀ tier ∈ tiersOf capacities, tier.1 ≤ UTIL_MAX := by
  have hfold : ∀ (l : List Nat), (∀ c ∈ l, c ≤ UTIL_MAX) → ∀ tiers : List (Nat × Nat),
      (∀ tier ∈ tiers, tier.1 ≤ UTIL_MAX) → ∀ tier ∈ l.foldl countTier tiers, tier.1 ≤ UTIL_MAX := by
    intro l
    induction l with
    | nil => exact fun _ _ h => h
    | cons c rest ih =>
      intro hl tiers h
      have hc := hl c (by simp)
      exact ih (fun c' hc' => hl c' (by simp [hc'])) _ (countTier_le hc h)
  intro tier htier
  unfold tiersOf at htier
  rw [List.mem_insertionSort] at htier
  refine hfold _ ?_ [] (by simp) tier htier
  intro c hc
  obtain ⟨capacity, -, rfl⟩ := List.mem_map.mp hc
  exact min_le_right _ _

theorem wideOf_le {tiers : List (Nat × Nat)} (h : ∀ tier ∈ tiers, tier.1 ≤ UTIL_MAX) :
    wideOf tiers ≤ UTIL_MAX := by
  unfold wideOf
  cases hfound : tiers.reverse.find? (2 ≤ ·.2) with
  | some tier =>
    have hmem := List.mem_of_find?_eq_some hfound
    exact h tier (by simpa using hmem)
  | none =>
    cases hlast : tiers.getLast? with
    | some tier => exact h tier (List.mem_of_getLast? hlast)
    | none => exact le_rfl

theorem baselineOf_le (tiers : List (Nat × Nat)) (ceiling : Nat) :
    baselineOf tiers ceiling ≤ ceiling := by
  unfold baselineOf
  split
  · split
    · exact min_le_right _ _
    · exact Nat.div_le_self _ _
  · exact Nat.div_le_self _ _

theorem fromCapacities_ordered (capacities : List Nat) :
    (Policy.fromCapacities capacities).baseline ≤ (Policy.fromCapacities capacities).ceiling ∧
    (Policy.fromCapacities capacities).interaction ≤ (Policy.fromCapacities capacities).ceiling ∧
    (Policy.fromCapacities capacities).ceiling ≤ UTIL_MAX := by
  have hwide := wideOf_le (tiersOf_le capacities)
  have hbaseline := baselineOf_le (tiersOf capacities) (wideOf (tiersOf capacities) * 4 / 5)
  refine ⟨hbaseline, ?_, ?_⟩
  · show (baselineOf (tiersOf capacities) (wideOf (tiersOf capacities) * 4 / 5) +
      wideOf (tiersOf capacities) * 4 / 5) / 2 ≤ wideOf (tiersOf capacities) * 4 / 5
    omega
  · show wideOf (tiersOf capacities) * 4 / 5 ≤ UTIL_MAX
    omega

theorem new_inv (capacities : List Nat) : Inv (Policy.fromCapacities capacities)
    { policy := Policy.fromCapacities capacities } where
  base :=
    { baseline := (fromCapacities_ordered capacities).1
      interaction := (fromCapacities_ordered capacities).2.1
      bound := (fromCapacities_ordered capacities).2.2
      fresh := by simp
      positive := by simp
      given := fun _ _ => .inl rfl }
  policy := rfl
  shaped := by simp
  settled := by
    intro tid
    have hdemand : ({ policy := Policy.fromCapacities capacities } : Controller).demandOn tid = 0 := by
      rw [demandOn_eq_zero_iff]
      intro id
      simp [contributionAt]
    unfold Settled
    rw [hdemand]
    simp

end Controller

open Controller in
/-- **The floors match the demand.**  For every machine, every actuator that fails only for threads
    that are gone, and every run: no 32-bit operation overflows; the applied floors are exactly the
    positive demands, rounded up and cut at the current ceiling; the actuator last accepted, for
    each thread it did not report gone, the floor in the books, or zero or nothing where there is
    none; no session names a thread twice, and none has learned more than the policy's ceiling. -/
theorem floors_match_demand (capacities : List Nat) (actuator : Actuator)
    (hother : ∀ calls tid floor message,
      actuator.apply calls tid floor ≠ .error (.other message)) (operations : List Operation) :
    ∃ s, performAll actuator operations { policy := Policy.fromCapacities capacities } = .ok () s ∧
      s.policy = Policy.fromCapacities capacities ∧
      (∀ tid : Int, s.applied[tid]? =
        if s.demandOn tid = 0 then none else some (min s.ceiling (roundUp (s.demandOn tid)))) ∧
      (∀ tid : Int, ¬ ReportedGone s.calls tid → match s.applied[tid]? with
        | some floor => lastGiven s.calls tid = some floor
        | none => lastGiven s.calls tid = none ∨ lastGiven s.calls tid = some 0) ∧
      ∀ (id : Nat) (session : Session), s.sessions[id]? = some session →
        session.tids.Nodup ∧ session.drivers.Nodup ∧ session.tids.Disjoint session.drivers ∧
          session.floor ≤ s.policy.ceiling := by
  obtain ⟨_, s, hs, hinv⟩ := (performAll_inv hother operations _ (new_inv capacities)).succeeds
  refine ⟨s, hs, hinv.policy, hinv.settled, hinv.base.given, fun id session hid => ?_⟩
  have hshape := hinv.shaped id session hid
  exact ⟨hshape.tids, hshape.drivers, hshape.apart, hshape.floor⟩

/-- Thread 11 is gone when its floor is first applied; thread 10 gets the baseline, rounded up. -/
theorem floors_match_demand_gone :
    let actuator : Actuator :=
      { apply := fun _ tid _ => if tid = 11 then .error .gone else .ok ()
        driverThreads := fun _ _ => [] }
    ∃ s, performAll actuator [.create 10 10100 2 [10, 11] 5833333 0]
        { policy := Policy.fromCapacities [364, 364, 829, 829] } = .ok () s ∧
      s.applied[(10 : Int)]? = some 432 ∧ s.applied[(11 : Int)]? = none := by
  intro actuator
  have hother : ∀ calls tid floor message,
      actuator.apply calls tid floor ≠ .error (.other message) := by
    intro calls tid floor message
    show (if tid = 11 then Except.error ApplyError.gone else Except.ok ()) ≠ _
    split <;> simp
  obtain ⟨s, hs, -⟩ := floors_match_demand [364, 364, 829, 829] actuator hother
    [.create 10 10100 2 [10, 11] 5833333 0]
  have hrun : (match performAll actuator [.create 10 10100 2 [10, 11] 5833333 0]
      { policy := Policy.fromCapacities [364, 364, 829, 829] } with
    | .ok _ s => decide (s.applied[(10 : Int)]? = some 432 ∧ s.applied[(11 : Int)]? = none)
    | .error _ _ => false) = true := by decide +kernel
  rw [hs] at hrun
  exact ⟨s, hs, of_decide_eq_true hrun⟩

end Droidloom.Power
