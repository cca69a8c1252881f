/-
  Every read is reported once.

  A ticket can be reported twice only if a read is reported and stays, or if a second read gets its
  ticket; it can be lost only if a read leaves the list unreported.  `Reported` keeps both apart:
  every read that was started is outstanding or reported, and never both.  Fences are reported per
  POINT, for all tickets that wait there, so for them the flag of each read has to agree with what
  was sent.

  Nothing here depends on when the timelines are observed: the points may advance during a pass.
-/
import Droidloom.Presenter.ReadLedger

namespace Droidloom.Layers

open Std Fallible SwapRemove Triple

namespace Reply

/-- The ticket whose read is reported as ended. -/
def completes : Reply → Option UInt64
  | .released ticket .. => some ticket
  | _ => none

/-- The ticket whose release fence is delivered. -/
def fences : Reply → Option UInt64
  | .releaseFence ticket => some ticket
  | _ => none

theorem Neutral.silent {reply : Reply} (h : reply.Neutral) :
    reply.completes = none ∧ reply.fences = none := by
  cases reply <;> first | exact ⟨rfl, rfl⟩ | exact h.elim

/-- The second record may follow the first: nothing about a ticket follows its end, and its fence is
    delivered once. -/
def MayFollow (first second : Reply) : Prop :=
  ∀ ticket, (first.completes = some ticket → second.completes ≠ some ticket ∧
    second.fences ≠ some ticket) ∧ (first.fences = some ticket → second.fences ≠ some ticket)

end Reply

namespace Stream

/-! ## What the records say -/

structure Reported (s : Stream) : Prop where
  ledger : Ledger s
  accounted : ∀ read ∈ s.attached, (∃ r ∈ s.outstanding, r.ticket = read.ticket) ∨
    ∃ reply ∈ s.sent, reply.completes = some read.ticket
  gone : ∀ reply ∈ s.sent, ∀ ticket, reply.completes = some ticket →
    ∀ r ∈ s.outstanding, r.ticket ≠ ticket
  reached : ∀ ticket buffer lane signalled, .released ticket buffer lane signalled ∈ s.sent →
    ∃ read ∈ s.attached, read.ticket = ticket ∧ read.buffer = buffer ∧ read.lane = lane ∧
      read.point ≤ signalled
  fenced : ∀ reply ∈ s.sent, ∀ ticket, reply.fences = some ticket →
    (∃ read ∈ s.attached, read.ticket = ticket) ∧
      ∀ r ∈ s.reads, r.ticket = ticket → r.fenceSent = true
  orderly : s.sent.Pairwise Reply.MayFollow

namespace Reported

variable {s s' : Stream}

/-- A record of an ended read names a ticket that was attached. -/
theorem known (h : Reported s) {reply : Reply} (hreply : reply ∈ s.sent) {ticket : UInt64}
    (hends : reply.completes = some ticket) : ∃ read ∈ s.attached, read.ticket = ticket := by
  cases reply with
  | released t buffer lane signalled =>
    obtain rfl := Option.some.inj hends
    obtain ⟨read, hread, hticket, -⟩ := h.reached t buffer lane signalled hreply
    exact ⟨read, hread, hticket⟩
  | _ => cases hends

theorem quiet (h : Reported s) (hs : Quiet s s') : Reported s' := by
  have hout : s'.outstanding = s.outstanding := by
    rw [outstanding, outstanding, hs.reads]
  obtain ⟨replies, hsent, hneutral⟩ := hs.sent
  have hold : ∀ reply ∈ s'.sent, ∀ ticket,
      reply.completes = some ticket ∨ reply.fences = some ticket → reply ∈ s.sent := by
    intro reply hreply ticket habout
    rw [hsent] at hreply
    rcases List.mem_append.mp hreply with hold | hnew
    · exact hold
    · obtain ⟨hends, hfences⟩ := (hneutral reply hnew).silent
      rw [hends, hfences] at habout
      rcases habout with habout | habout <;> cases habout
  have hkept : ∀ reply ∈ s.sent, reply ∈ s'.sent := by
    intro reply hreply
    rw [hsent]
    exact List.mem_append_left _ hreply
  refine ⟨h.ledger.quiet hs, fun read hread => ?_, fun reply hreply ticket hends => ?_,
    fun ticket buffer lane signalled hreply => ?_, fun reply hreply ticket hfences => ?_, ?_⟩
  · rw [hs.attached] at hread
    rw [hout]
    refine (h.accounted read hread).imp_right ?_
    rintro ⟨reply, hreply, hends⟩
    exact ⟨reply, hkept reply hreply, hends⟩
  · rw [hout]
    exact h.gone reply (hold reply hreply ticket (.inl hends)) ticket hends
  · rw [hs.attached]
    exact h.reached _ _ _ _ (hold _ hreply ticket (.inl rfl))
  · rw [hs.attached, hs.reads]
    exact h.fenced reply (hold reply hreply ticket (.inr hfences)) ticket hfences
  · rw [hsent]
    refine List.pairwise_append.mpr ⟨h.orderly, ?_, fun first _ second hsecond ticket => ?_⟩
    · refine List.pairwise_of_forall_mem_list fun first hfirst second _ ticket => ?_
      obtain ⟨hends, hfences⟩ := (hneutral first hfirst).silent
      rw [hends, hfences]
      exact ⟨fun hnone => (by cases hnone), fun hnone => (by cases hnone)⟩
    · obtain ⟨hends, hfences⟩ := (hneutral second hsecond).silent
      rw [hends, hfences]
      exact ⟨fun _ => ⟨by simp, by simp⟩, fun _ => by simp⟩

/-- A step that only changes sources and imports. -/
theorem sources (h : Reported s) (hledger : Ledger s') (hreads : s'.reads = s.reads)
    (hattached : s'.attached = s.attached) (hsent : s'.sent = s.sent) : Reported s' := by
  have hout : s'.outstanding = s.outstanding := by
    rw [outstanding, outstanding, hreads]
  refine ⟨hledger, ?_, ?_, ?_, ?_, ?_⟩
  · rw [hattached, hout, hsent]
    exact h.accounted
  · rw [hout, hsent]
    exact h.gone
  · rw [hattached, hsent]
    exact h.reached
  · rw [hattached, hreads, hsent]
    exact h.fenced
  · rw [hsent]
    exact h.orderly

/-- A read is entered under a ticket that no record is about. -/
theorem extend (h : Reported s) {l : Layer} {b : Source} {read : Read}
    (hledger : Ledger (s.recorded l b read)) (hticket : read.ticket = l.ticket)
    (hfresh : s.Fresh l) : Reported (s.recorded l b read) := by
  have hout : ∀ r, r ∈ (s.recorded l b read).outstanding ↔ r ∈ s.outstanding ∨ r = read.unfenced := by
    intro r
    simp [outstanding, recorded]
  refine ⟨hledger, fun a ha => ?_, fun reply hreply ticket hends r hr => ?_,
    fun ticket buffer lane signalled hreply => ?_, fun reply hreply ticket hfences => ?_, h.orderly⟩
  · rcases List.mem_append.mp ha with hold | hnew
    · refine (h.accounted a hold).imp_left ?_
      rintro ⟨r, hr, heq⟩
      exact ⟨r, (hout r).mpr (.inl hr), heq⟩
    · rw [List.mem_singleton.mp hnew]
      exact .inl ⟨read.unfenced, (hout _).mpr (.inr rfl), rfl⟩
  · rcases (hout r).mp hr with hold | rfl
    · exact h.gone reply hreply ticket hends r hold
    · obtain ⟨a, ha, rfl⟩ := h.known hreply hends
      show read.ticket ≠ a.ticket
      rw [hticket]
      exact (hfresh a ha).symm
  · obtain ⟨a, ha, hrest⟩ := h.reached ticket buffer lane signalled hreply
    exact ⟨a, List.mem_append_left _ ha, hrest⟩
  · obtain ⟨⟨a, ha, rfl⟩, hreads⟩ := h.fenced reply hreply ticket hfences
    refine ⟨⟨a, List.mem_append_left _ ha, rfl⟩, fun r hr heq => ?_⟩
    rcases List.mem_append.mp hr with hold | hnew
    · exact hreads r hold heq
    · rw [List.mem_singleton.mp hnew, hticket] at heq
      exact absurd heq.symm (hfresh a ha)

/-! ## Fences -/

theorem distinct_reads (h : Ledger s) : (s.reads.map (·.ticket)).Nodup := by
  have := h.distinct
  rwa [outstanding, List.map_map] at this

theorem sendFences (h : Reported s) (read : Read) : Reported (sendFences read s) := by
  have hout := outstanding_sendFences read s
  have hnodup := distinct_reads h.ledger
  have hdue : ∀ reply ∈ (s.reads.filter fun r => onPoint read r && !r.fenceSent).map
      (fun r => Reply.releaseFence r.ticket), ∃ r ∈ s.reads, onPoint read r = true ∧
        r.fenceSent = false ∧ reply = .releaseFence r.ticket := by
    intro reply hreply
    obtain ⟨r, hr, rfl⟩ := List.mem_map.mp hreply
    obtain ⟨hmem, hcond⟩ := List.mem_filter.mp hr
    rw [Bool.and_eq_true, Bool.not_eq_true'] at hcond
    exact ⟨r, hmem, hcond.1, hcond.2, rfl⟩
  have hsent : ∀ reply ∈ (Stream.sendFences read s).sent, reply ∈ s.sent ∨
      ∃ r ∈ s.reads, onPoint read r = true ∧ r.fenceSent = false ∧
        reply = .releaseFence r.ticket := by
    intro reply hreply
    exact (List.mem_append.mp hreply).imp_right (hdue reply)
  refine ⟨h.ledger.sendFences read, fun a ha => ?_, fun reply hreply ticket hends => ?_,
    fun ticket buffer lane signalled hreply => ?_, fun reply hreply ticket hfences => ?_, ?_⟩
  · rw [hout]
    refine (h.accounted a ha).imp_right fun ⟨reply, hreply, hends⟩ => ?_
    exact ⟨reply, List.mem_append_left _ hreply, hends⟩
  · rw [hout]
    rcases hsent reply hreply with hold | ⟨r, -, -, -, rfl⟩
    · exact h.gone reply hold ticket hends
    · cases hends
  · rcases hsent _ hreply with hold | ⟨r, -, -, -, heq⟩
    · exact h.reached ticket buffer lane signalled hold
    · cases heq
  · rcases hsent reply hreply with hold | ⟨r, hr, hon, -, rfl⟩
    · obtain ⟨hknown, hreads⟩ := h.fenced reply hold ticket hfences
      refine ⟨hknown, fun r' hr' heq => ?_⟩
      obtain ⟨r, hr, rfl⟩ := List.mem_map.mp hr'
      split at heq <;> rename_i hon
      · simp [hon]
      · simp [hon, hreads r hr heq]
    · obtain rfl := Option.some.inj hfences
      obtain ⟨a, ha, heq⟩ := List.mem_map.mp (h.ledger.started r.unfenced (List.mem_map_of_mem hr))
      refine ⟨⟨a, ha, congrArg (·.ticket) heq⟩, fun r' hr' htickets => ?_⟩
      obtain ⟨r₀, hr₀, rfl⟩ := List.mem_map.mp hr'
      have hsame : r₀ = r := by
        refine List.inj_on_of_nodup_map hnodup hr₀ hr ?_
        split at htickets <;> exact htickets
      simp [hsame, hon]
  · refine List.pairwise_append.mpr ⟨h.orderly, ?_, fun first hfirst second hsecond ticket => ?_⟩
    · rw [List.pairwise_map]
      have hpairs : (s.reads.filter fun r => onPoint read r && !r.fenceSent).Pairwise
          fun r r' => r.ticket ≠ r'.ticket :=
        (List.pairwise_map.mp hnodup).filter _
      refine hpairs.imp fun hne ticket => ⟨fun hends => (by cases hends), fun hfences heq => ?_⟩
      exact hne ((Option.some.inj hfences).trans (Option.some.inj heq).symm)
    · obtain ⟨r, hr, -, hunsent, rfl⟩ := hdue second hsecond
      refine ⟨fun hends => ⟨by simp [Reply.completes], fun heq => ?_⟩, fun hfences heq => ?_⟩
      · exact h.gone first hfirst ticket hends r.unfenced (List.mem_map_of_mem hr)
          (Option.some.inj heq)
      · have hflag := (h.fenced first hfirst ticket hfences).2 r hr (Option.some.inj heq)
        rw [hunsent] at hflag
        cases hflag

/-! ## The end of a read -/

theorem complete (h : Reported s) {index : Nat} {read : Read}
    (hread : s.outstanding[index]? = some read.unfenced) {signalled : UInt64}
    (hpoint : read.point ≤ signalled) : Reported (complete index read signalled s) := by
  have hmem : ∀ r, r ∈ (Stream.complete index read signalled s).outstanding ↔
      r ∈ s.outstanding ∧ r.ticket ≠ read.ticket := by
    intro r
    rw [outstanding_complete]
    exact mem_swapRemove h.ledger.distinct hread
  have hin : read.unfenced ∈ s.outstanding := List.mem_of_getElem? hread
  have hsent : ∀ reply ∈ (Stream.complete index read signalled s).sent, reply ∈ s.sent ∨
      reply = .released read.ticket read.buffer read.lane signalled := by
    intro reply hreply
    exact (List.mem_append.mp hreply).imp_right List.mem_singleton.mp
  refine ⟨h.ledger.complete hread signalled, fun a ha => ?_, fun reply hreply ticket hends r hr => ?_,
    fun ticket buffer lane p hreply => ?_, fun reply hreply ticket hfences => ?_, ?_⟩
  · by_cases heq : a.ticket = read.ticket
    · exact .inr ⟨.released read.ticket read.buffer read.lane signalled,
        List.mem_append_right _ List.mem_cons_self, by rw [heq]; rfl⟩
    · rcases h.accounted a ha with ⟨r, hr, hrt⟩ | ⟨reply, hreply, hends⟩
      · exact .inl ⟨r, (hmem r).mpr ⟨hr, fun h' => heq (hrt.symm.trans h')⟩, hrt⟩
      · exact .inr ⟨reply, List.mem_append_left _ hreply, hends⟩
  · obtain ⟨hold, hne⟩ := (hmem r).mp hr
    rcases hsent reply hreply with hin' | rfl
    · exact h.gone reply hin' ticket hends r hold
    · rw [← Option.some.inj hends]
      exact hne
  · rcases hsent _ hreply with hold | heq
    · exact h.reached ticket buffer lane p hold
    · obtain ⟨a, ha, hsame⟩ := List.mem_map.mp (h.ledger.started _ hin)
      injection heq with h₁ h₂ h₃ h₄
      subst h₁ h₂ h₃ h₄
      have hfields : a.ticket = read.ticket ∧ a.buffer = read.buffer ∧ a.lane = read.lane ∧
          a.point = read.point :=
        ⟨congrArg (·.ticket) hsame, congrArg (·.buffer) hsame, congrArg (·.lane) hsame,
          congrArg (·.point) hsame⟩
      exact ⟨a, ha, hfields.1, hfields.2.1, hfields.2.2.1, hfields.2.2.2 ▸ hpoint⟩
  · rcases hsent reply hreply with hold | rfl
    · obtain ⟨hknown, hreads⟩ := h.fenced reply hold ticket hfences
      refine ⟨hknown, fun r hr => hreads r ?_⟩
      obtain ⟨old, hold, -⟩ : ∃ old, s.reads[index]? = some old ∧ old.unfenced = read.unfenced := by
        rw [outstanding, List.getElem?_map] at hread
        exact Option.map_eq_some_iff.mp hread
      exact ((mem_swapRemove (distinct_reads h.ledger) hold).mp hr).1
    · cases hfences
  · refine List.pairwise_append.mpr ⟨h.orderly, List.pairwise_singleton _ _, ?_⟩
    intro first hfirst second hsecond ticket
    rw [List.mem_singleton.mp hsecond]
    refine ⟨fun hends => ⟨fun heq => ?_, by simp [Reply.fences]⟩, fun _ => by simp [Reply.fences]⟩
    exact h.gone first hfirst ticket hends read.unfenced hin (Option.some.inj heq)

theorem round (h : Reported s) {kernel : Kernel} {index next : Nat}
    (hround : Round kernel index s next s') : Reported s' := by
  have hfence : ∀ {read : Read} {s₁ : Stream},
      s₁ = s ∨ s₁ = Stream.sendFences read s ∧ s.connected = true →
      Reported s₁ ∧ s₁.outstanding = s.outstanding := by
    rintro read s₁ (rfl | ⟨rfl, -⟩)
    · exact ⟨h, rfl⟩
    · exact ⟨h.sendFences read, outstanding_sendFences read s⟩
  cases hround with
  | stays hread hs₁ hpoint => exact (hfence hs₁).1
  | ends hread hs₁ hpoint =>
    obtain ⟨hreported, hout⟩ := hfence hs₁
    exact hreported.complete (hout ▸ getElem?_outstanding hread) hpoint

theorem release (h : Reported s) (kernel : Nat → Kernel) :
    Yields (release kernel) s (fun _ s' => Reported s') fun _ => True := by
  refine yields_get_bind ?_
  generalize s.reads.length = n
  generalize 0 = index
  induction n generalizing s index with
  | zero => exact yields_pure h
  | succ n ih =>
    refine yields_bind (releaseOne_spec (fun _ _ => trivial) (kernel n) index) fun next s' hs' => ?_
    exact ih (h.round hs') next

theorem bound : Reported {} := by
  refine ⟨Ledger.bound, ?_, ?_, ?_, ?_, ?_⟩ <;> simp [outstanding]

end Reported

/-! ## Whole runs -/

theorem reported_invariant : Invariant Reported (fun _ => True) fun _ => True where
  errors _ _ := trivial
  bounded h := h.ledger.bounded
  quiet h hs := h.quiet hs
  register attempt h hunknown := h.sources (h.ledger.register attempt hunknown) rfl rfl rfl
  unregister h hpending hidle := h.sources (h.ledger.unregister hpending hidle) rfl rfl rfl
  imported success h hp := h.sources (h.ledger.imported success hp) rfl rfl rfl
  start {s l b} h hb himported hfresh _ := by
    refine (startRead_spec (fun _ _ => trivial) l b).mono fun _ s' hs' => ?_
    obtain ⟨read, b', hstarted, rfl⟩ := hs'
    exact h.extend (h.ledger.start hb himported hfresh hstarted) hstarted.ticket hfresh
  relabel {s l b held} h hb himported _ hfresh := by
    refine (relabelRead_spec fun _ => trivial).mono fun _ s' hs' => ?_
    obtain ⟨old, hold, hbuffer, -, rfl⟩ := hs'
    exact h.extend (h.ledger.relabel hb himported hfresh hold hbuffer) rfl hfresh
  release _ h := h.release _

/-- What SurfaceFlinger may rely on. -/
structure ExactlyOnce (s : Stream) : Prop where
  /-- No ticket is attached twice. -/
  tickets : (s.attached.map (·.ticket)).Nodup
  released : (s.sent.filterMap Reply.completes).Nodup
  /-- A read is reported when its point has signalled. -/
  signalled : ∀ ticket buffer lane point, .released ticket buffer lane point ∈ s.sent →
    ∃ read ∈ s.attached, read.ticket = ticket ∧ read.buffer = buffer ∧ read.lane = lane ∧
      read.point ≤ point
  /-- A read that was started is outstanding or reported, and not both. -/
  accounted : ∀ read ∈ s.attached,
    Xor (read.ticket ∈ s.reads.map (·.ticket)) (read.ticket ∈ s.sent.filterMap Reply.completes)
  fences : (s.sent.filterMap Reply.fences).Nodup
  fenceFirst : ∀ before after, s.sent = before ++ after →
    ∀ ticket ∈ before.filterMap Reply.completes, ticket ∉ after.filterMap Reply.fences
  /-- The source of an outstanding read stays. -/
  owned : ∀ read ∈ s.reads, read.buffer ∈ s.buffers ∧
    ∀ task supported s', step (.request (.unregister read.buffer) task supported) s = .ok () s' →
      s'.buffers[read.buffer]? = s.buffers[read.buffer]?

theorem unregister_owned {s s' : Stream} {read : Read} (hread : read ∈ s.reads) {task : TaskView}
    {supported : Bool}
    (h : step (.request (.unregister read.buffer) task supported) s = .ok () s') :
    s'.buffers[read.buffer]? = s.buffers[read.buffer]? := by
  have hkept : Yields (step (.request (.unregister read.buffer) task supported)) s
      (fun _ s' => s'.buffers = s.buffers) fun _ => True := by
    refine yields_get_bind (yields_ite (fun _ => ?_) fun _ => yields_pure rfl)
    refine yields_set_bind (yields_get_bind (yields_rejectIf_bind (fun _ => trivial) fun _ => ?_))
    refine yields_get_bind (yields_get_bind (yields_ite (fun _ => yields_modify rfl) fun hidle => ?_))
    refine absurd ?_ hidle
    exact .inr (.inr (List.any_eq_true.mpr ⟨read, hread, by simp⟩))
  unfold Yields at hkept
  rw [h] at hkept
  rw [hkept]

theorem Reported.exactlyOnce {s : Stream} (h : Reported s) : ExactlyOnce s := by
  have hends : ∀ ticket, ticket ∈ s.sent.filterMap Reply.completes ↔
      ∃ reply ∈ s.sent, reply.completes = some ticket := fun ticket => List.mem_filterMap
  refine ⟨h.ledger.tickets, ?_, h.reached, fun read hread => ?_, ?_, ?_, fun read hread => ⟨?_, ?_⟩⟩
  · rw [List.Nodup, List.pairwise_filterMap]
    refine h.orderly.imp fun hfollow ticket hticket ticket' hticket' heq => ?_
    exact ((hfollow ticket).1 hticket).1 (heq ▸ hticket')
  · have hexclusive : ¬ (read.ticket ∈ s.reads.map (·.ticket) ∧
        read.ticket ∈ s.sent.filterMap Reply.completes) := by
      rintro ⟨hopen, hclosed⟩
      obtain ⟨r, hr, heq⟩ := List.mem_map.mp hopen
      obtain ⟨reply, hreply, hreplied⟩ := (hends _).mp hclosed
      exact h.gone reply hreply _ hreplied r.unfenced (List.mem_map_of_mem hr) heq
    rcases h.accounted read hread with ⟨r, hr, heq⟩ | hclosed
    · obtain ⟨own, hown, rfl⟩ := List.mem_map.mp hr
      have hopen : read.ticket ∈ s.reads.map (·.ticket) := List.mem_map.mpr ⟨own, hown, heq⟩
      exact .inl ⟨hopen, fun hclosed => hexclusive ⟨hopen, hclosed⟩⟩
    · exact .inr ⟨(hends _).mpr hclosed, fun hopen => hexclusive ⟨hopen, (hends _).mpr hclosed⟩⟩
  · rw [List.Nodup, List.pairwise_filterMap]
    refine h.orderly.imp fun hfollow ticket hticket ticket' hticket' heq => ?_
    exact (hfollow ticket).2 hticket (heq ▸ hticket')
  · intro before after hsplit ticket hbefore hafter
    obtain ⟨first, hfirst, hreplied⟩ := List.mem_filterMap.mp hbefore
    obtain ⟨second, hsecond, hfences⟩ := List.mem_filterMap.mp hafter
    have hfollow := (List.pairwise_append.mp (hsplit ▸ h.orderly)).2.2 first hfirst second hsecond
    exact ((hfollow ticket).1 hreplied).2 hfences
  · obtain ⟨b, hb, -⟩ := h.ledger.owned read.unfenced (List.mem_map_of_mem hread)
    have hb' : s.buffers[read.buffer]? = some b := hb
    grind
  · intro task supported s' hstep
    exact unregister_owned hread hstep

/-- **Every read is reported exactly once**, in every run. -/
theorem released_exactly_once {events : List Event} {s : Stream}
    (h : run events {} = .ok () s) : ExactlyOnce s := by
  have hpasses : ∀ event ∈ events, event.Passes fun _ => True := by
    intro event _
    cases event <;> trivial
  have hkept := run_keeps reported_invariant hpasses Reported.bound
  unfold Yields at hkept
  rw [h] at hkept
  exact hkept.exactlyOnce

theorem released_exactly_once_relabelRun :
    ∃ s, run relabelRun {} = .ok () s ∧ s.sent.filterMap Reply.completes = [1, 2] ∧
      ExactlyOnce s := by
  have hcheck : succeeds relabelRun
      (fun s => s.sent.filterMap Reply.completes = [1, 2]) = true := by decide +kernel
  unfold succeeds at hcheck
  cases hrun : run relabelRun {} with
  | error e s => rw [hrun] at hcheck; cases hcheck
  | ok u s =>
    rw [hrun] at hcheck
    exact ⟨s, rfl, of_decide_eq_true hcheck, released_exactly_once hrun⟩

end Stream

end Droidloom.Layers
