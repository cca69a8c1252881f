/-
  Frame grants of the host presenter (`frame_timeline.rs`).

  A compositor that offers the exact frame timeline grants presentation slots one by one.  A
  `Schedule` holds at most one OFFERED grant and a set of CONSUMED ones, and five counters that say
  how grants ended.  A grant leaves the schedule through six operations, three of which drop an
  offer without being asked about it, so that no grant is lost or counted twice is a statement
  about whole runs:

    * `live`     the grants a schedule still has to account for;
    * `counted`  what one operation ends, and how, read off the state before it;
    * `History`  the two sums along a run, next to the grants accepted and the grants consumed.

  The balance `accepted = counted + live` is an equality of MULTISETS of identities, because an
  identity comes back when an epoch number does.  Everything else is order: within one epoch the
  sequence floor only rises, so `consumed` never receives an identity that it already has.
-/
import Mathlib

namespace Droidloom.Presenter

structure Identity where
  epoch : UInt64
  sequence : UInt64
deriving DecidableEq, Repr

structure Grant where
  identity : Identity
  latchDeadlineNs : UInt64
  presentationTargetNs : UInt64
  refreshPeriodNs : UInt64
deriving DecidableEq, Repr

inductive Terminal
  | presented
  | skipped
  | missed
  | configure
  | epoch
deriving DecidableEq, Repr

instance : Fintype Terminal where
  elems := {.presented, .skipped, .missed, .configure, .epoch}
  complete t := by cases t <;> decide

structure Schedule where
  epoch : Option UInt64 := none
  lastSequence : UInt64 := 0
  offered : Option Grant := none
  consumed : Finset Identity := ∅
  /-- `[u64; 5]`, indexed by the terminal. -/
  terminal : Terminal → UInt64 := fun _ => 0

/-- `u64::saturating_add(1)`. -/
def saturatingSucc (n : UInt64) : UInt64 :=
  if n = 0xffffffffffffffff then n else n + 1

theorem saturatingSucc_toNat (n : UInt64) :
    (saturatingSucc n).toNat = min (n.toNat + 1) (2 ^ 64 - 1) := by
  have hlt := n.toNat_lt
  unfold saturatingSucc
  split
  · rename_i h
    rw [h]
    rfl
  · rename_i h
    have hne : n.toNat ≠ 18446744073709551615 := fun hn => h (UInt64.toNat_inj.mp hn)
    rw [UInt64.toNat_add]
    show (n.toNat + 1) % 2 ^ 64 = _
    omega

namespace Schedule

/-! ## The operations -/

def count (s : Schedule) (t : Terminal) : Schedule :=
  { s with terminal := Function.update s.terminal t (saturatingSucc (s.terminal t)) }

def finish (s : Schedule) (identity : Identity) (t : Terminal) : Schedule :=
  if identity ∈ s.consumed then { s with consumed := s.consumed.erase identity }.count t else s

/-- `if let Some(grant) = self.offered.take() { self.count(…) }`. -/
def takeOffer (s : Schedule) (t : Grant → Terminal) : Schedule :=
  match s.offered with
  | some grant => { s with offered := none }.count (t grant)
  | none => s

/-- `while self.consumed.pop_first().is_some() { self.count(t) }`: one count per element. -/
def popConsumed (s : Schedule) (t : Terminal) : Schedule :=
  (fun s => s.count t)^[s.consumed.card] { s with consumed := ∅ }

def clear (s : Schedule) (t : Terminal) : Schedule :=
  (s.takeOffer fun _ => t).popConsumed t

/-- `Schedule::epoch`. -/
def announce (s : Schedule) (epoch : UInt64) : Schedule :=
  if s.epoch ≠ some epoch then
    { s.clear .epoch with epoch := some epoch, lastSequence := 0 }
  else s

/-- The negation of the early return of `offer`. -/
def accepts (s : Schedule) (grant : Grant) : Bool :=
  s.epoch = some grant.identity.epoch ∧ s.lastSequence < grant.identity.sequence ∧
    grant.refreshPeriodNs ≠ 0 ∧ grant.latchDeadlineNs < grant.presentationTargetNs

/-- How a grant ends that a newer offer replaces. -/
def replacedBy (now : UInt64) (previous : Grant) : Terminal :=
  if now ≥ previous.latchDeadlineNs then .missed else .skipped

def offer (s : Schedule) (grant : Grant) (now : UInt64) : Schedule :=
  if s.accepts grant then
    { s.takeOffer (replacedBy now) with
      lastSequence := grant.identity.sequence
      offered := some grant }
  else s

def consume (s : Schedule) (now : UInt64) : Schedule × Option Grant :=
  match s.offered with
  | none => (s, none)
  | some grant =>
    if now ≥ grant.latchDeadlineNs then ({ s with offered := none }.count .missed, none)
    else ({ s with offered := none, consumed := insert grant.identity s.consumed }, some grant)

/-- The end of `Timeline::arm`: a grant offered but not taken is dropped. -/
def disarm (s : Schedule) : Schedule := s.takeOffer fun _ => .skipped

/-- `refresh_frame_timelines` moves the surface to another output. -/
def resubscribe (s : Schedule) (subscribed : Bool) : Schedule :=
  { (if subscribed ∨ s.epoch.isSome then s.clear .epoch else s) with
    epoch := none, lastSequence := 0 }

inductive Operation
  | announce (epoch : UInt64)
  | offer (grant : Grant) (now : UInt64)
  | consume (now : UInt64)
  | finish (identity : Identity) (terminal : Terminal)
  | clear (terminal : Terminal)
  | disarm
  | resubscribe (subscribed : Bool)

def step (s : Schedule) : Operation → Schedule
  | .announce epoch => s.announce epoch
  | .offer grant now => s.offer grant now
  | .consume now => (s.consume now).1
  | .finish identity t => s.finish identity t
  | .clear t => s.clear t
  | .disarm => s.disarm
  | .resubscribe subscribed => s.resubscribe subscribed

/-! ## What one operation accepts, ends and consumes -/

/-- The grants that a schedule still has to account for. -/
def live (s : Schedule) : Multiset Identity :=
  (s.offered.map (·.identity)).elim 0 (fun identity => {identity}) + s.consumed.val

/-- Whether the operation leaves the current epoch. -/
def leavesEpoch (s : Schedule) : Operation → Bool
  | .announce epoch => s.epoch ≠ some epoch
  | .resubscribe _ => true
  | _ => false

def accepted (s : Schedule) : Operation → List Grant
  | .offer grant _ => if s.accepts grant then [grant] else []
  | _ => []

/-- The offer that ends, with its terminal. -/
def endedOffer (s : Schedule) (t : Grant → Terminal) : Multiset (Identity × Terminal) :=
  match s.offered with
  | some grant => {(grant.identity, t grant)}
  | none => 0

def counted (s : Schedule) : Operation → Multiset (Identity × Terminal)
  | .announce epoch => if s.epoch ≠ some epoch then s.live.map (·, .epoch) else 0
  | .offer grant now => if s.accepts grant then s.endedOffer (replacedBy now) else 0
  | .consume now =>
    if s.offered.any (now ≥ ·.latchDeadlineNs) then s.endedOffer fun _ => .missed else 0
  | .finish identity t => if identity ∈ s.consumed then {(identity, t)} else 0
  | .clear t => s.live.map (·, t)
  | .disarm => s.endedOffer fun _ => .skipped
  | .resubscribe subscribed =>
    if subscribed ∨ s.epoch.isSome then s.live.map (·, .epoch) else 0

/-- The grant that the operation hands to the presenter, with the time. -/
def taken (s : Schedule) : Operation → List (Grant × UInt64)
  | .consume now => (s.consume now).2.toList.map (·, now)
  | _ => []

end Schedule

/-- A run of a schedule together with what happened along it.  `era` counts the epochs left. -/
structure History where
  schedule : Schedule := {}
  accepted : List Grant := []
  counted : Multiset (Identity × Terminal) := 0
  era : Nat := 0
  /-- Consumed grants with the era and the time, oldest first. -/
  taken : List (Nat × Grant × UInt64) := []

namespace History

def step (h : History) (op : Schedule.Operation) : History where
  schedule := h.schedule.step op
  accepted := h.accepted ++ h.schedule.accepted op
  counted := h.counted + h.schedule.counted op
  era := if h.schedule.leavesEpoch op then h.era + 1 else h.era
  taken := h.taken ++ (h.schedule.taken op).map (h.era, ·)

def run (ops : List Schedule.Operation) : History := ops.foldl step {}

end History

/-! ## The counters -/

/-- The counters say how many grants ended in each terminal, up to saturation. -/
def Tallied (terminal : Terminal → UInt64) (counted : Multiset (Identity × Terminal)) : Prop :=
  ∀ t, (terminal t).toNat = min (counted.countP (·.2 = t)) (2 ^ 64 - 1)

namespace Schedule

variable {s : Schedule} {C : Multiset (Identity × Terminal)}

theorem tallied_count (h : Tallied s.terminal C) (identity : Identity) (t : Terminal) :
    Tallied (s.count t).terminal (C + {(identity, t)}) := by
  intro t'
  rw [Multiset.countP_add, ← Multiset.cons_zero, Multiset.countP_cons, Multiset.countP_zero,
    Nat.zero_add]
  have ht' := h t'
  by_cases he : t' = t
  · subst he
    have hnext : (s.count t').terminal t' = saturatingSucc (s.terminal t') :=
      Function.update_self ..
    rw [hnext, saturatingSucc_toNat, ht']
    simp only [if_true]
    omega
  · have hsame : (s.count t).terminal t' = s.terminal t' := Function.update_of_ne he ..
    have hne : ¬ t = t' := fun h => he h.symm
    rw [hsame, ht']
    simp only [hne, if_false, Nat.add_zero]

theorem tallied_takeOffer (h : Tallied s.terminal C) (t : Grant → Terminal) :
    Tallied (s.takeOffer t).terminal (C + s.endedOffer t) := by
  unfold takeOffer endedOffer
  cases s.offered with
  | none => rw [Multiset.add_zero]; exact h
  | some grant =>
    exact tallied_count (s := { s with offered := none }) h grant.identity (t grant)

/-- One count per element, whatever the elements are. -/
theorem tallied_iterate (t : Terminal) (ids : List Identity) :
    ∀ {s : Schedule} {C : Multiset (Identity × Terminal)}, Tallied s.terminal C →
      Tallied ((fun s => s.count t)^[ids.length] s).terminal (C + (ids.map (·, t) : List _)) := by
  induction ids with
  | nil =>
    intro s C h
    simpa using h
  | cons identity ids ih =>
    intro s C h
    have hnext := ih (tallied_count h identity t)
    rw [List.length_cons, Function.iterate_succ_apply]
    rwa [List.map_cons, ← Multiset.cons_coe, ← Multiset.singleton_add, ← Multiset.add_assoc]

theorem tallied_popConsumed (h : Tallied s.terminal C) (t : Terminal) :
    Tallied (s.popConsumed t).terminal (C + s.consumed.val.map (·, t)) := by
  have hids := tallied_iterate t s.consumed.toList (s := { s with consumed := ∅ }) h
  rw [Finset.length_toList] at hids
  unfold popConsumed
  rwa [← Multiset.map_coe, Finset.coe_toList] at hids

/-- Counting touches the counters only. -/
theorem iterate_count_eq (n : Nat) (t : Terminal) : ∀ s : Schedule,
    (fun s => s.count t)^[n] s =
      { s with terminal := ((fun s => s.count t)^[n] s).terminal } := by
  induction n with
  | zero => intro s; rfl
  | succ n ih =>
    intro s
    rw [Function.iterate_succ_apply, ih (s.count t)]
    rfl

theorem takeOffer_eq (s : Schedule) (t : Grant → Terminal) :
    s.takeOffer t = { s with offered := none, terminal := (s.takeOffer t).terminal } := by
  obtain ⟨epoch, lastSequence, offered, consumed, terminal⟩ := s
  cases offered <;> rfl

theorem clear_eq (s : Schedule) (t : Terminal) :
    s.clear t = { s with offered := none, consumed := ∅, terminal := (s.clear t).terminal } := by
  unfold clear popConsumed
  rw [iterate_count_eq, takeOffer_eq]

theorem tallied_clear (h : Tallied s.terminal C) (t : Terminal) :
    Tallied (s.clear t).terminal (C + s.live.map (·, t)) := by
  have hconsumed : (s.takeOffer fun _ => t).consumed = s.consumed := by rw [takeOffer_eq]
  have hoffer : s.live.map (·, t) = (s.endedOffer fun _ => t) + s.consumed.val.map (·, t) := by
    unfold live endedOffer
    rw [Multiset.map_add]
    cases s.offered <;> rfl
  have hpop := tallied_popConsumed (tallied_takeOffer h fun _ => t) t
  rw [hconsumed, Multiset.add_assoc] at hpop
  rw [hoffer]
  exact hpop

/-- **Every operation counts what it ends**, and nothing else. -/
theorem tallied_step (h : Tallied s.terminal C) (op : Operation) :
    Tallied (s.step op).terminal (C + s.counted op) := by
  cases op with
  | announce epoch =>
    simp only [step, counted, announce]
    split
    · exact tallied_clear h .epoch
    · rwa [Multiset.add_zero]
  | offer grant now =>
    simp only [step, counted, offer]
    split
    · exact tallied_takeOffer h (replacedBy now)
    · rwa [Multiset.add_zero]
  | consume now =>
    simp only [step, counted, consume, endedOffer]
    cases s.offered with
    | none => simpa using h
    | some grant =>
      by_cases hlate : now ≥ grant.latchDeadlineNs
      · simp only [Option.any_some, hlate, decide_true, if_true]
        exact tallied_count (s := { s with offered := none }) h grant.identity .missed
      · simpa [hlate] using h
  | finish identity t =>
    simp only [step, counted, finish]
    split
    · exact tallied_count (s := { s with consumed := s.consumed.erase identity }) h identity t
    · rwa [Multiset.add_zero]
  | clear t => exact tallied_clear h t
  | disarm => exact tallied_takeOffer h fun _ => .skipped
  | resubscribe subscribed =>
    simp only [step, counted, resubscribe]
    split
    · exact tallied_clear h .epoch
    · rwa [Multiset.add_zero]

end Schedule

/-! ## Order within an epoch -/

/-- What ties the grants taken in the current epoch to the schedule. -/
structure Ordered (s : Schedule) (era : Nat) (taken : List (Nat × Grant × UInt64)) : Prop where
  offered : ∀ grant, s.offered = some grant →
    s.epoch = some grant.identity.epoch ∧ s.lastSequence = grant.identity.sequence
  /-- Grants taken in this epoch lie under the floor, strictly so while a grant is offered. -/
  floor : ∀ entry ∈ taken, entry.1 = era →
    s.epoch = some entry.2.1.identity.epoch ∧
      entry.2.1.identity.sequence ≤ s.lastSequence ∧
      ∀ grant, s.offered = some grant → entry.2.1.identity.sequence < grant.identity.sequence
  unfinished : ∀ identity ∈ s.consumed,
    ∃ entry ∈ taken, entry.1 = era ∧ entry.2.1.identity = identity
  past : ∀ entry ∈ taken, entry.1 ≤ era
  rising : taken.Pairwise fun a b => a.1 = b.1 →
    a.2.1.identity.epoch = b.2.1.identity.epoch ∧
      a.2.1.identity.sequence < b.2.1.identity.sequence
  timely : ∀ entry ∈ taken, entry.2.2 < entry.2.1.latchDeadlineNs

namespace Ordered

variable {s : Schedule} {era : Nat} {taken : List (Nat × Grant × UInt64)}

/-- An offered grant is newer than every consumed one. -/
theorem offered_notMem (ho : Ordered s era taken) {grant : Grant}
    (hg : s.offered = some grant) : grant.identity ∉ s.consumed := by
  intro hmem
  obtain ⟨entry, hentry, hera, heq⟩ := ho.unfinished _ hmem
  have hlt := (ho.floor entry hentry hera).2.2 grant hg
  rw [heq] at hlt
  exact UInt64.lt_irrefl _ hlt

/-- Without an epoch nothing is offered or consumed. -/
theorem unsubscribed (ho : Ordered s era taken) (hepoch : s.epoch = none) :
    s = { s with offered := none, consumed := ∅ } := by
  have hoffered : s.offered = none := by
    rcases hg : s.offered with _ | grant
    · rfl
    · cases hepoch.symm.trans (ho.offered grant hg).1
  have hconsumed : s.consumed = ∅ := by
    refine Finset.eq_empty_of_forall_notMem fun identity hid => ?_
    obtain ⟨entry, hentry, hera, -⟩ := ho.unfinished identity hid
    cases hepoch.symm.trans (ho.floor entry hentry hera).1
  rw [← hoffered, ← hconsumed]

/-- Dropping an offer, consumed grants or both keeps the order. -/
theorem shrink (ho : Ordered s era taken) {offered : Option Grant} {consumed : Finset Identity}
    {terminal : Terminal → UInt64}
    (hoffered : ∀ grant, offered = some grant → s.offered = some grant)
    (hconsumed : consumed ⊆ s.consumed) :
    Ordered { s with offered, consumed, terminal } era taken where
  offered grant hg := ho.offered grant (hoffered grant hg)
  floor entry hentry hera := by
    obtain ⟨hepoch, hle, hlt⟩ := ho.floor entry hentry hera
    exact ⟨hepoch, hle, fun grant hg => hlt grant (hoffered grant hg)⟩
  unfinished identity hid := ho.unfinished identity (hconsumed hid)
  past := ho.past
  rising := ho.rising
  timely := ho.timely

/-- A new epoch starts with nothing offered or consumed. -/
theorem newEra (ho : Ordered s era taken) {epoch : Option UInt64} {lastSequence : UInt64}
    {terminal : Terminal → UInt64} :
    Ordered { epoch, lastSequence, offered := none, consumed := ∅, terminal } (era + 1) taken where
  offered grant hg := by cases hg
  floor entry hentry hera := by
    have hle := ho.past entry hentry
    omega
  unfinished identity hid := absurd hid (Finset.notMem_empty _)
  past entry hentry := Nat.le_succ_of_le (ho.past entry hentry)
  rising := ho.rising
  timely := ho.timely

/-- An accepted offer raises the floor above everything taken. -/
theorem offer (ho : Ordered s era taken) {grant : Grant} {terminal : Terminal → UInt64}
    (hepoch : s.epoch = some grant.identity.epoch)
    (hlast : s.lastSequence < grant.identity.sequence) :
    Ordered { s with
      lastSequence := grant.identity.sequence, offered := some grant, terminal } era taken where
  offered other hg := by
    obtain rfl := Option.some.inj hg
    exact ⟨hepoch, rfl⟩
  floor entry hentry hera := by
    obtain ⟨he, hle, -⟩ := ho.floor entry hentry hera
    have hlt := UInt64.lt_of_le_of_lt hle hlast
    refine ⟨he, UInt64.le_of_lt hlt, fun other hg => ?_⟩
    obtain rfl := Option.some.inj hg
    exact hlt
  unfinished := ho.unfinished
  past := ho.past
  rising := ho.rising
  timely := ho.timely

/-- A consumed grant is newer than those taken before it in this epoch. -/
theorem consume (ho : Ordered s era taken) {grant : Grant} {now : UInt64}
    (hg : s.offered = some grant) (hnow : now < grant.latchDeadlineNs) :
    Ordered { s with offered := none, consumed := insert grant.identity s.consumed } era
      (taken ++ [(era, grant, now)]) := by
  obtain ⟨hepoch, hlast⟩ := ho.offered grant hg
  refine ⟨fun other hother => (by cases hother), ?_, ?_, ?_, ?_, ?_⟩
  · intro entry hentry hera
    rcases List.mem_append.mp hentry with hentry | hentry
    · obtain ⟨he, hle, -⟩ := ho.floor entry hentry hera
      exact ⟨he, hle, fun other hother => by cases hother⟩
    · obtain rfl := List.mem_singleton.mp hentry
      exact ⟨hepoch, UInt64.le_of_eq hlast.symm, fun other hother => by cases hother⟩
  · intro identity hid
    rcases Finset.mem_insert.mp hid with rfl | hid
    · exact ⟨(era, grant, now), by simp, rfl, rfl⟩
    · obtain ⟨entry, hentry, hrest⟩ := ho.unfinished identity hid
      exact ⟨entry, List.mem_append_left _ hentry, hrest⟩
  · intro entry hentry
    rcases List.mem_append.mp hentry with hentry | hentry
    · exact ho.past entry hentry
    · obtain rfl := List.mem_singleton.mp hentry
      exact Nat.le_refl _
  · refine List.pairwise_append.mpr ⟨ho.rising, List.pairwise_singleton _ _, ?_⟩
    intro entry hentry last hlastmem hera
    obtain rfl := List.mem_singleton.mp hlastmem
    obtain ⟨he, -, hlt⟩ := ho.floor entry hentry hera
    exact ⟨Option.some.inj (he.symm.trans hepoch), hlt grant hg⟩
  · intro entry hentry
    rcases List.mem_append.mp hentry with hentry | hentry
    · exact ho.timely entry hentry
    · obtain rfl := List.mem_singleton.mp hentry
      exact hnow

theorem step (ho : Ordered s era taken) (op : Schedule.Operation) :
    Ordered (s.step op) (if s.leavesEpoch op then era + 1 else era)
      (taken ++ (s.taken op).map (era, ·)) := by
  cases op with
  | announce epoch =>
    simp only [Schedule.step, Schedule.announce, Schedule.taken, List.map_nil, List.append_nil]
    by_cases he : s.epoch ≠ some epoch
    · have hleaves : s.leavesEpoch (.announce epoch) = true := decide_eq_true he
      rw [if_pos he, if_pos hleaves, Schedule.clear_eq]
      exact ho.newEra
    · have hleaves : ¬ s.leavesEpoch (.announce epoch) = true := fun h =>
        he (of_decide_eq_true h)
      rw [if_neg he, if_neg hleaves]
      exact ho
  | offer grant now =>
    simp only [Schedule.step, Schedule.offer, Schedule.taken, List.map_nil, List.append_nil]
    split
    · rename_i ha
      obtain ⟨hepoch, hlast, -, -⟩ := of_decide_eq_true ha
      rw [Schedule.takeOffer_eq]
      exact ho.offer hepoch hlast
    · exact ho
  | consume now =>
    simp only [Schedule.step, Schedule.taken, Schedule.consume]
    cases hg : s.offered with
    | none =>
      simp only [Option.toList_none, List.map_nil, List.append_nil]
      exact ho
    | some grant =>
      by_cases hlate : now ≥ grant.latchDeadlineNs
      · simp only [hlate, if_true, Option.toList_none, List.map_nil, List.append_nil]
        exact ho.shrink (fun _ h => by cases h) subset_rfl
      · simp only [hlate, if_false, Option.toList_some, List.map_cons, List.map_nil]
        exact ho.consume hg (UInt64.not_le.mp hlate)
  | finish identity t =>
    simp only [Schedule.step, Schedule.finish, Schedule.taken, List.map_nil, List.append_nil]
    split
    · exact ho.shrink (fun _ h => h) (Finset.erase_subset _ _)
    · exact ho
  | clear t =>
    simp only [Schedule.step, Schedule.taken, List.map_nil, List.append_nil]
    rw [Schedule.clear_eq]
    exact ho.shrink (fun _ h => by cases h) (Finset.empty_subset _)
  | disarm =>
    simp only [Schedule.step, Schedule.disarm, Schedule.taken, List.map_nil, List.append_nil]
    rw [Schedule.takeOffer_eq]
    exact ho.shrink (fun _ h => by cases h) subset_rfl
  | resubscribe subscribed =>
    simp only [Schedule.step, Schedule.resubscribe, Schedule.taken, List.map_nil,
      List.append_nil]
    split
    · rw [Schedule.clear_eq]
      exact ho.newEra
    · -- without an epoch nothing was ever offered, so there is nothing to clear
      rename_i hnone
      rw [ho.unsubscribed (by simpa using (not_or.mp hnone).2)]
      exact ho.newEra

/-- **Nothing is lost between the terminals**: what an operation accepts and what was live before
    it is what it ends and what is live after it. -/
theorem live_step (ho : Ordered s era taken) (op : Schedule.Operation) :
    (((s.accepted op).map (·.identity) : List Identity) : Multiset Identity) + s.live =
      (s.counted op).map Prod.fst + (s.step op).live := by
  have hclear (t : Terminal) : (s.live.map (·, t)).map Prod.fst = s.live := by
    rw [Multiset.map_map]
    exact Multiset.map_id _
  have hempty (t : Terminal) : (s.clear t).live = 0 := by
    rw [Schedule.clear_eq]
    rfl
  have hoffer (t : Grant → Terminal) :
      s.live = (s.endedOffer t).map Prod.fst + s.consumed.val := by
    unfold Schedule.live Schedule.endedOffer
    cases s.offered <;> rfl
  cases op with
  | announce epoch =>
    simp only [Schedule.accepted, Schedule.counted, Schedule.step, Schedule.announce]
    split
    · have hlive : ({ s.clear .epoch with epoch := some epoch, lastSequence := 0 } :
          Schedule).live = 0 := hempty .epoch
      rw [hclear, hlive, Multiset.add_zero]
      exact Multiset.zero_add _
    · rfl
  | offer grant now =>
    simp only [Schedule.accepted, Schedule.counted, Schedule.step, Schedule.offer]
    split
    · have hlive : ({ s.takeOffer (Schedule.replacedBy now) with
          lastSequence := grant.identity.sequence, offered := some grant } : Schedule).live =
          {grant.identity} + s.consumed.val := by
        rw [Schedule.takeOffer_eq]
        rfl
      rw [hlive, hoffer (Schedule.replacedBy now)]
      exact add_left_comm _ _ _
    · rfl
  | consume now =>
    simp only [Schedule.accepted, Schedule.counted, Schedule.step, Schedule.consume]
    cases hg : s.offered with
    | none => rfl
    | some grant =>
      by_cases hlate : now ≥ grant.latchDeadlineNs
      · simp only [Option.any_some, hlate, decide_true, if_true]
        have hlive : ({ s with offered := none }.count .missed).live = s.consumed.val :=
          Multiset.zero_add _
        rw [hlive, ← hoffer]
        exact Multiset.zero_add _
      · have hnew := Finset.insert_val_of_notMem (ho.offered_notMem hg)
        simp only [Option.any_some, hlate, decide_false, Bool.false_eq_true, if_false]
        unfold Schedule.live
        simp only [hg, Option.map_some, Option.elim, Option.map_none, hnew, List.map_nil,
          Multiset.coe_nil, Multiset.map_zero, Multiset.zero_add, Multiset.singleton_add]
  | finish identity t =>
    simp only [Schedule.accepted, Schedule.counted, Schedule.step, Schedule.finish]
    split
    · rename_i hmem
      have hcons : s.consumed.val = identity ::ₘ (s.consumed.erase identity).val :=
        (Multiset.cons_erase (Finset.mem_val.mpr hmem)).symm
      unfold Schedule.live
      rw [hcons]
      exact (Multiset.zero_add _).trans (add_left_comm _ {identity} _)
    · rfl
  | clear t =>
    simp only [Schedule.accepted, Schedule.counted, Schedule.step]
    rw [hclear, hempty, Multiset.add_zero]
    exact Multiset.zero_add _
  | disarm =>
    simp only [Schedule.accepted, Schedule.counted, Schedule.step, Schedule.disarm]
    have hlive : (s.takeOffer fun _ => .skipped).live = s.consumed.val := by
      rw [Schedule.takeOffer_eq]
      exact Multiset.zero_add _
    rw [hlive, ← hoffer]
    exact Multiset.zero_add _
  | resubscribe subscribed =>
    simp only [Schedule.accepted, Schedule.counted, Schedule.step, Schedule.resubscribe]
    split
    · have hlive : ({ s.clear .epoch with epoch := none, lastSequence := 0 } :
          Schedule).live = 0 := hempty .epoch
      rw [hclear, hlive, Multiset.add_zero]
      exact Multiset.zero_add _
    · rfl

end Ordered

/-! ## Whole runs -/

structure Accounted (h : History) : Prop where
  ordered : Ordered h.schedule h.era h.taken
  tallied : Tallied h.schedule.terminal h.counted
  balanced : ((h.accepted.map (·.identity) : List Identity) : Multiset Identity) =
    h.counted.map Prod.fst + h.schedule.live

theorem Accounted.step {h : History} (ha : Accounted h) (op : Schedule.Operation) :
    Accounted (h.step op) where
  ordered := ha.ordered.step op
  tallied := Schedule.tallied_step ha.tallied op
  balanced := by
    have hlive := ha.ordered.live_step op
    have hsum := ha.balanced
    simp only [History.step, List.map_append, Multiset.map_add, ← Multiset.coe_add]
    rw [hsum, Multiset.add_assoc, Multiset.add_comm h.schedule.live, hlive, Multiset.add_assoc]

theorem accounted_run (ops : List Schedule.Operation) : Accounted (History.run ops) := by
  have hfold : ∀ (ops : List Schedule.Operation) (h : History), Accounted h →
      Accounted (ops.foldl History.step h) := by
    intro ops
    induction ops with
    | nil => exact fun _ ha => ha
    | cons op ops ih => exact fun h ha => ih _ (ha.step op)
  refine hfold ops {} ⟨⟨?_, ?_, ?_, ?_, List.Pairwise.nil, ?_⟩, fun t => rfl, rfl⟩
  · intro grant hg; cases hg
  · intro entry hentry; cases hentry
  · intro identity hid; exact absurd hid (Finset.notMem_empty _)
  · intro entry hentry; cases hentry
  · intro entry hentry; cases hentry

theorem run_schedule (ops : List Schedule.Operation) :
    (History.run ops).schedule = ops.foldl Schedule.step {} := by
  have hfold : ∀ (ops : List Schedule.Operation) (h : History),
      (ops.foldl History.step h).schedule = ops.foldl Schedule.step h.schedule := by
    intro ops
    induction ops with
    | nil => exact fun _ => rfl
    | cons op ops ih => exact fun h => ih (h.step op)
  exact hfold ops {}

/-- Each ended grant is in exactly one terminal. -/
theorem sum_countP (C : Multiset (Identity × Terminal)) :
    ∑ t : Terminal, C.countP (·.2 = t) = C.card := by
  induction C using Multiset.induction with
  | empty => simp
  | cons entry C ih =>
    simp only [Multiset.countP_cons, Finset.sum_add_distrib, ih, Multiset.card_cons,
      Finset.sum_ite_eq, Finset.mem_univ, if_true]

/-- **Terminal accounting.**  Along every run each accepted grant has ended in exactly one terminal
    or is still offered or consumed; unless a counter saturates, the counters say how many ended in
    which; the grants taken within one epoch have strictly increasing sequences; and every one was
    taken before its latch deadline. -/
theorem grants_accounted (ops : List Schedule.Operation) :
    (History.run ops).schedule = ops.foldl Schedule.step {} ∧
    (((History.run ops).accepted.map (·.identity) : List Identity) : Multiset Identity) =
      (History.run ops).counted.map Prod.fst + (History.run ops).schedule.live ∧
    ((∀ t, (History.run ops).counted.countP (·.2 = t) < 2 ^ 64) →
      (∀ t, ((History.run ops).schedule.terminal t).toNat =
        (History.run ops).counted.countP (·.2 = t)) ∧
      (History.run ops).accepted.length =
        ∑ t, ((History.run ops).schedule.terminal t).toNat +
          (History.run ops).schedule.consumed.card +
          (if (History.run ops).schedule.offered.isSome then 1 else 0)) ∧
    (History.run ops).taken.Pairwise (fun a b => a.1 = b.1 →
      a.2.1.identity.sequence < b.2.1.identity.sequence ∧ a.2.1.identity ≠ b.2.1.identity) ∧
    ∀ entry ∈ (History.run ops).taken, entry.2.2 < entry.2.1.latchDeadlineNs := by
  have ha := accounted_run ops
  refine ⟨run_schedule ops, ha.balanced, fun hsat => ?_, ?_, ha.ordered.timely⟩
  · have hexact (t : Terminal) : ((History.run ops).schedule.terminal t).toNat =
        (History.run ops).counted.countP (·.2 = t) := by
      have htally := ha.tallied t
      have hlt := hsat t
      omega
    refine ⟨hexact, ?_⟩
    have hcard := congrArg Multiset.card ha.balanced
    simp only [Multiset.coe_card, List.length_map, Multiset.card_add, Multiset.card_map,
      Schedule.live] at hcard
    rw [hcard, Finset.sum_congr rfl fun t _ => hexact t, sum_countP]
    cases (History.run ops).schedule.offered with
    | none => simp
    | some grant => simp; omega
  · refine ha.ordered.rising.imp fun {a b} h hera => ?_
    obtain ⟨-, hlt⟩ := h hera
    exact ⟨hlt, fun he => UInt64.lt_irrefl _ (he ▸ hlt)⟩

end Droidloom.Presenter
