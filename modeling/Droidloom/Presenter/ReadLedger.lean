/-
  The read ledger of a layer stream.

  A source remembers the ticket of its newest read only, while older reads of the same buffer may
  still be in flight on other lanes, and relabelled reads share one release point.  What keeps this
  honest:

    * `Ledger`  every read belongs to an imported source and one of its lanes, and has a ticket that
      no other read ever had;
    * `Lanes done`  the newest read is outstanding, a source without one has a lane whose reads are
      all `done`, and the reads of a lane wait for one point.

  Between release passes nothing is `done`.  During a pass a source can lose its ticket before the
  older labels of the same read are gone.  With the points observed once per pass they go in the
  same pass: with `done` what the observed points have reached, `Lanes done` holds between any two
  rounds, and after the last round no read that is left is `done`.
-/
import Droidloom.Presenter.LayerRun

namespace Droidloom.Layers

open Std Fallible SwapRemove Triple

theorem ticket_le_max (a b : UInt64) : a ≤ max a b ∧ b ≤ max a b := by
  show a ≤ (if a ≤ b then b else a) ∧ b ≤ if a ≤ b then b else a
  split
  · rename_i h
    exact ⟨h, UInt64.le_refl b⟩
  · rename_i h
    exact ⟨UInt64.le_refl a, UInt64.le_of_lt (UInt64.not_le.mp h)⟩

/-- The read without the flag whether its fence was sent. -/
def Read.unfenced (read : Read) : Read := { read with fenceSent := false }

namespace Stream

def outstanding (s : Stream) : List Read := s.reads.map Read.unfenced

/-! ## What the steps do to the reads -/

/-- A read is entered, and its source knows it as the newest one. -/
def recorded (s : Stream) (l : Layer) (source : Source) (read : Read) : Stream :=
  { s with
    buffers := s.buffers.insert l.buffer source
    lastTicket := max s.lastTicket l.ticket
    reads := s.reads ++ [read]
    attached := s.attached ++ [read] }

theorem freeLane_eq_some {b : Source} {id : UInt64} {reads : List Read} {lane : Nat}
    (h : b.freeLane id reads = some lane) :
    lane < b.lanes.length ∧ ∀ r ∈ reads, ¬ (r.buffer = id ∧ r.lane = lane) := by
  unfold Source.freeLane at h
  refine ⟨List.mem_range.mp (List.mem_of_find?_eq_some h), fun r hr hon => ?_⟩
  have hfree := List.find?_some h
  simp only [Bool.not_eq_true', List.any_eq_false, decide_eq_true_eq] at hfree
  exact hfree r hr hon

theorem freeLane_eq_none {b : Source} {id : UInt64} {reads : List Read}
    (h : b.freeLane id reads = none) {lane : Nat} (hlane : lane < b.lanes.length) :
    ∃ r ∈ reads, r.buffer = id ∧ r.lane = lane := by
  unfold Source.freeLane at h
  have hbusy := List.find?_eq_none.mp h lane (List.mem_range.mpr hlane)
  simpa using hbusy

/-- A new read of the layer, and its source afterwards. -/
structure Started (s : Stream) (l : Layer) (b : Source) (read : Read) (b' : Source) : Prop where
  buffer : read.buffer = l.buffer
  ticket : read.ticket = l.ticket
  unsent : read.fenceSent = false
  imported : b'.imported = b.imported
  newest : b'.ticket = some l.ticket
  lane : read.lane < b'.lanes.length
  lanes : b'.lanes.length = b.lanes.length ∧ b.freeLane l.buffer s.reads = some read.lane ∨
    b'.lanes.length = b.lanes.length + 1 ∧ b.freeLane l.buffer s.reads = none ∧
      read.lane = b.lanes.length

theorem startRead_spec {s : Stream} {F : PresenterError → Prop}
    (herrors : ∀ e, e ≠ notOutstanding → F e) (l : Layer) (b : Source) :
    Yields (startRead l b) s (fun _ s' => ∃ read b', Started s l b read b' ∧
      s' = s.recorded l b' read) F := by
  refine yields_get_bind (yields_okOr_bind (fun _ => herrors _ (by decide)) fun next hnext => ?_)
  refine yields_okOr_bind (fun _ => herrors _ (by decide)) fun acquire _ => ?_
  refine yields_okOr_bind (fun _ => herrors _ (by decide)) fun release _ => ?_
  refine yields_set ⟨_, _, ?_, rfl⟩
  refine ⟨rfl, rfl, rfl, rfl, rfl, ?_, ?_⟩
  · obtain ⟨hlt, -⟩ := List.getElem?_eq_some_iff.mp hnext
    simpa using hlt
  · cases hfree : b.freeLane l.buffer s.reads with
    | none => exact .inr ⟨by simp, rfl, rfl⟩
    | some lane => exact .inl ⟨by simp, rfl⟩

theorem relabelRead_spec {s : Stream} {F : PresenterError → Prop} {l : Layer} {b : Source}
    {held : UInt64} (hmissing : (∀ r ∈ s.reads, ¬ (r.buffer = l.buffer ∧ r.ticket = held)) →
      F notOutstanding) :
    Yields (relabelRead l b held) s (fun _ s' => ∃ old ∈ s.reads, old.buffer = l.buffer ∧
      old.ticket = held ∧ s' = s.recorded l { b with ticket := some l.ticket }
        ⟨l.buffer, old.lane, l.ticket, old.point, old.fenceSent⟩) F := by
  refine yields_get_bind (yields_okOr_bind (fun hnone => hmissing fun r hr => ?_) fun old hold => ?_)
  · simpa using List.find?_eq_none.mp hnone r hr
  · obtain ⟨hbuffer, hticket⟩ : old.buffer = l.buffer ∧ old.ticket = held := by
      simpa using List.find?_some hold
    exact yields_set ⟨old, List.mem_of_find?_eq_some hold, hbuffer, hticket, rfl⟩

/-- One round of a release pass: perhaps a fence, and then the read stays or ends. -/
inductive Round (kernel : Kernel) (index : Nat) (s : Stream) : Nat → Stream → Prop
  | stays {read : Read} {s' : Stream} (hread : s.reads[index]? = some read)
      (hfence : s' = s ∨ s' = sendFences read s ∧ s.connected = true)
      (hpoint : kernel.signalled read.buffer read.lane < read.point) :
      Round kernel index s (index + 1) s'
  | ends {read : Read} {s' : Stream} (hread : s.reads[index]? = some read)
      (hfence : s' = s ∨ s' = sendFences read s ∧ s.connected = true)
      (hpoint : read.point ≤ kernel.signalled read.buffer read.lane) :
      Round kernel index s index
        (complete index read (kernel.signalled read.buffer read.lane) s')

theorem releaseOne_spec {s : Stream} {F : PresenterError → Prop}
    (herrors : ∀ e, e ≠ notOutstanding → F e) (kernel : Kernel) (index : Nat) :
    Yields (releaseOne kernel index) s (fun next s' => Round kernel index s next s') F := by
  refine yields_get_bind (yields_okOr_bind (fun _ => herrors _ (by decide)) fun read hread => ?_)
  refine yields_okOr_bind (fun _ => herrors _ (by decide)) fun source _ => ?_
  refine yields_rejectIf_bind (fun _ => herrors _ (by decide)) fun _ => ?_
  refine yields_bind (Q := fun _ s' => s' = s ∨ s' = sendFences read s ∧ s.connected = true) ?_
    fun _ s' hs' => ?_
  · refine yields_get_bind (yields_ite (fun hfence => ?_) fun _ => yields_pure (.inl rfl))
    exact yields_set (.inr ⟨rfl, hfence.1⟩)
  · refine yields_ite (fun hlt => yields_pure (.stays hread hs' hlt)) fun hle => ?_
    exact yields_modify_bind (yields_pure (.ends hread hs' (UInt64.not_lt.mp hle)))

/-- Sending fences changes no read but for its flag. -/
theorem outstanding_sendFences (read : Read) (s : Stream) :
    (sendFences read s).outstanding = s.outstanding := by
  simp only [outstanding, sendFences, List.map_map]
  refine List.map_congr_left fun r _ => ?_
  simp only [Function.comp]
  split <;> rfl

theorem outstanding_complete (index : Nat) (read : Read) (signalled : UInt64) (s : Stream) :
    (complete index read signalled s).outstanding = swapRemove s.outstanding index :=
  map_swapRemove _ _ _

theorem getElem?_outstanding {s : Stream} {index : Nat} {read : Read}
    (h : s.reads[index]? = some read) : s.outstanding[index]? = some read.unfenced := by
  rw [outstanding, List.getElem?_map, h]
  rfl

/-! ## Who owns a read -/

structure Ledger (s : Stream) : Prop where
  owned : ∀ r ∈ s.outstanding, ∃ b, s.buffers[r.buffer]? = some b ∧ b.imported = true ∧
    r.lane < b.lanes.length
  pending : ∀ p ∈ s.imports, ∃ b, s.buffers[p.buffer]? = some b ∧ b.imported = false
  imports : (s.imports.map (·.buffer)).Nodup
  started : ∀ r ∈ s.outstanding, r ∈ s.attached.map Read.unfenced
  tickets : (s.attached.map (·.ticket)).Nodup
  bounded : ∀ read ∈ s.attached, read.ticket ≤ s.lastTicket
  distinct : (s.outstanding.map (·.ticket)).Nodup

namespace Ledger

variable {s s' : Stream}

theorem quiet (h : Ledger s) (hs : Quiet s s') : Ledger s' := by
  have hout : s'.outstanding = s.outstanding := by
    rw [outstanding, outstanding, hs.reads]
  refine ⟨?_, ?_, ?_, ?_, ?_, ?_, ?_⟩
  · rw [hout, hs.buffers]
    exact h.owned
  · rw [hs.imports, hs.buffers]
    exact h.pending
  · rw [hs.imports]
    exact h.imports
  · rw [hout, hs.attached]
    exact h.started
  · rw [hs.attached]
    exact h.tickets
  · rw [hs.attached, hs.lastTicket]
    exact h.bounded
  · rw [hout]
    exact h.distinct

theorem register (h : Ledger s) {metadata : Buffer} (attempt : Option UInt64)
    (hunknown : metadata.id ∉ s.buffers) : Ledger (s.registered metadata attempt) := by
  have hkept : ∀ (id : UInt64) (b : Source), s.buffers[id]? = some b →
      (s.registered metadata attempt).buffers[id]? = some b := by
    intro id b hb
    simp only [registered]
    grind
  refine ⟨fun r hr => ?_, fun p hp => ?_, ?_, h.started, h.tickets, h.bounded, h.distinct⟩
  · obtain ⟨b, hb, hrest⟩ := h.owned r hr
    exact ⟨b, hkept _ b hb, hrest⟩
  · rcases List.mem_append.mp hp with hold | hnew
    · obtain ⟨b, hb, hrest⟩ := h.pending p hold
      exact ⟨b, hkept _ b hb, hrest⟩
    · rw [List.mem_singleton.mp hnew]
      exact ⟨⟨metadata, false, [⟨0⟩], none⟩, by simp [registered], rfl⟩
  · simp only [registered, List.map_append, List.map_cons, List.map_nil]
    refine List.nodup_append'.mpr ⟨h.imports, by simp, ?_⟩
    rw [List.disjoint_singleton]
    intro hmem
    obtain ⟨p, hp, heq⟩ := List.mem_map.mp hmem
    obtain ⟨b, hb, -⟩ := h.pending p hp
    grind

theorem unregister (h : Ledger s) {id : UInt64} (hpending : s.importsContain id = false)
    (hidle : ∀ read ∈ s.reads, read.buffer ≠ id) :
    Ledger { s with buffers := s.buffers.erase id } := by
  refine ⟨fun r hr => ?_, fun p hp => ?_, h.imports, h.started, h.tickets, h.bounded, h.distinct⟩
  · obtain ⟨b, hb, hrest⟩ := h.owned r hr
    obtain ⟨read, hread, rfl⟩ := List.mem_map.mp hr
    have hne : read.buffer ≠ id := hidle read hread
    exact ⟨b, by simp only [Read.unfenced] at hb ⊢; grind, hrest⟩
  · obtain ⟨b, hb, hrest⟩ := h.pending p hp
    have hne : p.buffer ≠ id := by
      simp only [importsContain, List.any_eq_false, decide_eq_true_eq] at hpending
      exact hpending p hp
    exact ⟨b, by simp only []; grind, hrest⟩

theorem imported (h : Ledger s) {pending : Pending} (success : Bool) (hp : pending ∈ s.imports) :
    Ledger (s.importAnswered pending success) := by
  have hindex : s.imports[s.imports.idxOf pending]? = some pending :=
    List.getElem?_idxOf hp
  have hmem : ∀ p, p ∈ (s.importAnswered pending success).imports ↔
      p ∈ s.imports ∧ p.buffer ≠ pending.buffer := fun p => mem_swapRemove h.imports hindex
  obtain ⟨own, hown, hunimported⟩ := h.pending pending hp
  -- a buffer that is not imported yet has no reads
  have hidle : ∀ r ∈ s.outstanding, r.buffer ≠ pending.buffer := by
    intro r hr heq
    obtain ⟨b, hb, himported, -⟩ := h.owned r hr
    rw [heq, hown] at hb
    rw [← Option.some.inj hb, hunimported] at himported
    cases himported
  have hkept : ∀ id : UInt64, id ≠ pending.buffer →
      (s.importAnswered pending success).buffers[id]? = s.buffers[id]? := by
    intro id hne
    cases success with
    | true =>
      simp only [importAnswered, if_true]
      rw [ExtTreeMap.getElem?_modify, if_neg (by simpa using Ne.symm hne)]
    | false => simp only [importAnswered, Bool.false_eq_true, if_false]; grind
  refine ⟨fun r hr => ?_, fun p hp => ?_, nodup_swapRemove h.imports hindex, h.started, h.tickets,
    h.bounded, h.distinct⟩
  · rw [hkept _ (hidle r hr)]
    exact h.owned r hr
  · obtain ⟨hold, hne⟩ := (hmem p).mp hp
    rw [hkept _ hne]
    exact h.pending p hold

/-- A new entry: its buffer, its lane and its ticket. -/
theorem extend (h : Ledger s) {b old : Source} {l : Layer} {read : Read}
    (hbuffer : read.buffer = l.buffer) (hticket : read.ticket = l.ticket)
    (hlane : read.lane < b.lanes.length) (hlanes : old.lanes.length ≤ b.lanes.length)
    (himported : b.imported = true) (hold : s.buffers[l.buffer]? = some old)
    (himp : old.imported = true) (hfresh : s.Fresh l) : Ledger (s.recorded l b read) := by
  have hout : ∀ r ∈ (s.reads ++ [read]).map Read.unfenced, r ∈ s.outstanding ∨ r = read.unfenced := by
    intro r hr
    rw [List.map_append, List.mem_append] at hr
    exact hr.imp_right fun hr => List.mem_singleton.mp hr
  refine ⟨fun r hr => ?_, fun p hp => ?_, h.imports, fun r hr => ?_, ?_, fun a ha => ?_, ?_⟩
  · by_cases heq : r.buffer = l.buffer
    · rcases hout r hr with hmem | rfl
      · obtain ⟨old', hold', -, hlt⟩ := h.owned r hmem
        rw [heq, hold] at hold'
        rw [← Option.some.inj hold'] at hlt
        rw [heq]
        exact ⟨b, by simp [recorded], himported, Nat.lt_of_lt_of_le hlt hlanes⟩
      · rw [heq]
        exact ⟨b, by simp [recorded], himported, hlane⟩
    · rcases hout r hr with hmem | rfl
      · obtain ⟨own, hown, hrest⟩ := h.owned r hmem
        exact ⟨own, by simp only [recorded]; grind, hrest⟩
      · exact absurd hbuffer heq
  · obtain ⟨own, hown, hunimported⟩ := h.pending p hp
    have hne : p.buffer ≠ l.buffer := by
      intro heq
      rw [heq, hold] at hown
      rw [← Option.some.inj hown, himp] at hunimported
      cases hunimported
    exact ⟨own, by simp only [recorded]; grind, hunimported⟩
  · show r ∈ (s.attached ++ [read]).map Read.unfenced
    rw [List.map_append, List.mem_append]
    rcases hout r hr with hmem | rfl
    · exact .inl (h.started r hmem)
    · exact .inr (by simp)
  · show ((s.attached ++ [read]).map (·.ticket)).Nodup
    rw [List.map_append]
    refine List.nodup_append'.mpr ⟨h.tickets, by simp, ?_⟩
    simp only [List.map_cons, List.map_nil, List.disjoint_singleton, List.mem_map, not_exists,
      not_and]
    intro a ha
    rw [hticket]
    exact hfresh a ha
  · rcases List.mem_append.mp ha with hmem | hnew
    · exact UInt64.le_trans (h.bounded a hmem) ((ticket_le_max _ _).1)
    · rw [List.mem_singleton.mp hnew, hticket]
      exact (ticket_le_max _ _).2
  · show (((s.reads ++ [read]).map Read.unfenced).map (·.ticket)).Nodup
    rw [List.map_append, List.map_append]
    refine List.nodup_append'.mpr ⟨h.distinct, by simp, ?_⟩
    simp only [List.map_cons, List.map_nil, List.disjoint_singleton, List.mem_map, not_exists,
      not_and]
    intro r hr
    obtain ⟨a, ha, heq⟩ := List.mem_map.mp (h.started r (List.mem_map.mpr hr))
    have hfresh' : a.ticket ≠ l.ticket := hfresh a ha
    rw [← heq]
    show a.ticket ≠ read.ticket
    rwa [hticket]

theorem start (h : Ledger s) {l : Layer} {b b' : Source} {read : Read}
    (hb : s.buffers[l.buffer]? = some b) (himported : b.imported = true) (hfresh : s.Fresh l)
    (hstarted : Started s l b read b') : Ledger (s.recorded l b' read) := by
  refine h.extend hstarted.buffer hstarted.ticket hstarted.lane ?_
    (hstarted.imported.trans himported) hb himported hfresh
  rcases hstarted.lanes with ⟨heq, -⟩ | ⟨heq, -⟩ <;> omega

theorem relabel (h : Ledger s) {l : Layer} {b : Source} {old : Read}
    (hb : s.buffers[l.buffer]? = some b) (himported : b.imported = true) (hfresh : s.Fresh l)
    (hold : old ∈ s.reads) (hbuffer : old.buffer = l.buffer) :
    Ledger (s.recorded l { b with ticket := some l.ticket }
      ⟨l.buffer, old.lane, l.ticket, old.point, old.fenceSent⟩) := by
  refine h.extend rfl rfl ?_ (Nat.le_refl b.lanes.length) himported hb himported hfresh
  obtain ⟨b', hb', -, hlt⟩ := h.owned old.unfenced (List.mem_map_of_mem hold)
  have hb'' : s.buffers[l.buffer]? = some b' := hbuffer ▸ hb'
  rw [hb] at hb''
  rw [Option.some.inj hb'']
  exact hlt

theorem sendFences (h : Ledger s) (read : Read) : Ledger (sendFences read s) := by
  have hout := outstanding_sendFences read s
  refine ⟨?_, h.pending, h.imports, ?_, h.tickets, h.bounded, ?_⟩
  · rw [hout]
    exact h.owned
  · rw [hout]
    exact h.started
  · rw [hout]
    exact h.distinct

/-- The source of a completed read keeps all but its ticket. -/
theorem getElem?_complete {index : Nat} {read : Read} {signalled : UInt64} {id : UInt64} {b : Source}
    (h : (complete index read signalled s).buffers[id]? = some b) :
    ∃ old, s.buffers[id]? = some old ∧ b.imported = old.imported ∧ b.lanes = old.lanes ∧
      b.ticket = if id = read.buffer ∧ old.ticket = some read.ticket then none else old.ticket := by
  unfold complete at h
  rw [ExtTreeMap.getElem?_modify] at h
  by_cases heq : id = read.buffer
  · subst heq
    simp only [compare_self, if_true] at h
    obtain ⟨old, hold, rfl⟩ := Option.map_eq_some_iff.mp h
    refine ⟨old, hold, ?_, ?_, ?_⟩ <;> split <;> simp_all
  · rw [if_neg (by simpa using Ne.symm heq)] at h
    exact ⟨b, h, rfl, rfl, by simp [heq]⟩

theorem complete (h : Ledger s) {index : Nat} {read : Read}
    (hread : s.outstanding[index]? = some read.unfenced) (signalled : UInt64) :
    Ledger (complete index read signalled s) := by
  have hmem : ∀ r ∈ (Stream.complete index read signalled s).outstanding, r ∈ s.outstanding := by
    intro r hr
    rw [outstanding_complete, mem_swapRemove h.distinct hread] at hr
    exact hr.1
  have hkept : ∀ (id : UInt64) (old : Source), s.buffers[id]? = some old →
      ∃ b, (Stream.complete index read signalled s).buffers[id]? = some b ∧
        b.imported = old.imported ∧ b.lanes = old.lanes := by
    intro id old hold
    have hsome : ((Stream.complete index read signalled s).buffers[id]?).isSome := by
      simp only [Stream.complete, ExtTreeMap.getElem?_modify]
      split
      · rename_i heq
        rw [← LawfulEqCmp.compare_eq_iff_eq.mp heq] at hold
        simp [hold]
      · simp [hold]
    obtain ⟨b, hb⟩ := Option.isSome_iff_exists.mp hsome
    obtain ⟨old', hold', himported, hlanes, -⟩ := getElem?_complete hb
    rw [hold] at hold'
    obtain rfl := Option.some.inj hold'
    exact ⟨b, hb, himported, hlanes⟩
  refine ⟨fun r hr => ?_, fun p hp => ?_, h.imports, fun r hr => h.started r (hmem r hr), h.tickets,
    h.bounded, ?_⟩
  · obtain ⟨old, hold, himported, hlt⟩ := h.owned r (hmem r hr)
    obtain ⟨b, hb, himp, hlanes⟩ := hkept _ old hold
    exact ⟨b, hb, himp.trans himported, hlanes ▸ hlt⟩
  · obtain ⟨old, hold, hunimported⟩ := h.pending p hp
    obtain ⟨b, hb, himp, -⟩ := hkept _ old hold
    exact ⟨b, hb, himp.trans hunimported⟩
  · rw [outstanding_complete]
    exact nodup_swapRemove h.distinct hread

theorem bound : Ledger {} := by
  refine ⟨?_, ?_, ?_, ?_, ?_, ?_, ?_⟩ <;> simp [outstanding]

end Ledger

/-! ## The lanes -/

structure Lanes (done : Read → Prop) (s : Stream) : Prop where
  newest : ∀ (id : UInt64) (b : Source) (t : UInt64), s.buffers[id]? = some b → b.ticket = some t →
    ∃ r ∈ s.outstanding, r.buffer = id ∧ r.ticket = t
  free : ∀ (id : UInt64) (b : Source), s.buffers[id]? = some b → b.ticket = none →
    ∃ lane < b.lanes.length, ∀ r ∈ s.outstanding, r.buffer = id → r.lane = lane → done r
  points : ∀ r ∈ s.outstanding, ∀ r' ∈ s.outstanding, r.buffer = r'.buffer → r.lane = r'.lane →
    r.point = r'.point
  count : ∀ (id : UInt64) (b : Source), s.buffers[id]? = some b → b.lanes.length ≤ MAX_LANES

namespace Lanes

variable {done : Read → Prop} {s s' : Stream}

theorem congr (h : Lanes done s) (hbuffers : s'.buffers = s.buffers)
    (hout : s'.outstanding = s.outstanding) : Lanes done s' := by
  refine ⟨?_, ?_, ?_, ?_⟩
  · rw [hbuffers, hout]
    exact h.newest
  · rw [hbuffers, hout]
    exact h.free
  · rw [hout]
    exact h.points
  · rw [hbuffers]
    exact h.count

/-- What is done only matters for the reads that are there. -/
theorem mono {done' : Read → Prop} (h : Lanes done s)
    (hdone : ∀ r ∈ s.outstanding, done r → done' r) : Lanes done' s := by
  refine ⟨h.newest, fun id b hb hnone => ?_, h.points, h.count⟩
  obtain ⟨lane, hlane, hreads⟩ := h.free id b hb hnone
  exact ⟨lane, hlane, fun r hr hbuffer hlane => hdone r hr (hreads r hr hbuffer hlane)⟩

/-- Sources of which nothing is read may come and go. -/
theorem sources (h : Lanes done s) (hout : s'.outstanding = s.outstanding)
    (hsource : ∀ (id : UInt64) (b : Source), s'.buffers[id]? = some b →
      (∃ old, s.buffers[id]? = some old ∧ b.ticket = old.ticket ∧ b.lanes = old.lanes) ∨
      b.ticket = none ∧ b.lanes.length = 1 ∧ ∀ r ∈ s.outstanding, r.buffer ≠ id) :
    Lanes done s' := by
  refine ⟨fun id b t hb ht => ?_, fun id b hb hnone => ?_, by rw [hout]; exact h.points,
    fun id b hb => ?_⟩
  · rw [hout]
    rcases hsource id b hb with ⟨old, hold, hticket, -⟩ | ⟨hnone, -⟩
    · exact h.newest id old t hold (hticket ▸ ht)
    · rw [hnone] at ht
      cases ht
  · rw [hout]
    rcases hsource id b hb with ⟨old, hold, hticket, hlanes⟩ | ⟨-, hlanes, hidle⟩
    · rw [hlanes]
      exact h.free id old hold (hticket ▸ hnone)
    · exact ⟨0, by omega, fun r hr hbuffer => absurd hbuffer (hidle r hr)⟩
  · rcases hsource id b hb with ⟨old, hold, -, hlanes⟩ | ⟨-, hlanes, -⟩
    · rw [hlanes]
      exact h.count id old hold
    · rw [hlanes]
      decide

/-- A read is entered on a lane where nothing is read, or where its point is read already. -/
theorem extend (h : Lanes done s) {l : Layer} {b : Source} {read : Read}
    (hbuffer : read.buffer = l.buffer) (hticket : read.ticket = l.ticket)
    (hnewest : b.ticket = some l.ticket) (hcount : b.lanes.length ≤ MAX_LANES)
    (hlane : ∀ r ∈ s.outstanding, r.buffer = l.buffer → r.lane = read.lane →
      r.point = read.point) : Lanes done (s.recorded l b read) := by
  have hout : (s.recorded l b read).outstanding = s.outstanding ++ [read.unfenced] := by
    simp [outstanding, recorded]
  have hmem : ∀ r, r ∈ (s.recorded l b read).outstanding ↔ r ∈ s.outstanding ∨ r = read.unfenced := by
    intro r
    rw [hout, List.mem_append, List.mem_singleton]
  have hsource : ∀ (id : UInt64) (b' : Source), (s.recorded l b read).buffers[id]? = some b' →
      id = l.buffer ∧ b' = b ∨ id ≠ l.buffer ∧ s.buffers[id]? = some b' := by
    intro id b' hb'
    simp only [recorded] at hb'
    grind
  refine ⟨fun id b' t hb' ht => ?_, fun id b' hb' hnone => ?_, fun r hr r' hr' hb hl => ?_,
    fun id b' hb' => ?_⟩
  · rcases hsource id b' hb' with ⟨rfl, rfl⟩ | ⟨-, hold⟩
    · refine ⟨read.unfenced, (hmem _).mpr (.inr rfl), hbuffer, ?_⟩
      exact hticket.trans (Option.some.inj (hnewest.symm.trans ht))
    · obtain ⟨r, hr, hrest⟩ := h.newest id b' t hold ht
      exact ⟨r, (hmem r).mpr (.inl hr), hrest⟩
  · rcases hsource id b' hb' with ⟨rfl, rfl⟩ | ⟨hne, hold⟩
    · rw [hnewest] at hnone
      cases hnone
    · obtain ⟨lane, hlt, hreads⟩ := h.free id b' hold hnone
      refine ⟨lane, hlt, fun r hr hb hl => ?_⟩
      rcases (hmem r).mp hr with hin | rfl
      · exact hreads r hin hb hl
      · exact absurd (hb.symm.trans hbuffer) hne
  · rcases (hmem r).mp hr with hin | rfl <;> rcases (hmem r').mp hr' with hin' | rfl
    · exact h.points r hin r' hin' hb hl
    · exact hlane r hin (hb.trans hbuffer) hl
    · exact (hlane r' hin' (hb.symm.trans hbuffer) hl.symm).symm
    · rfl
  · rcases hsource id b' hb' with ⟨-, rfl⟩ | ⟨-, hold⟩
    · exact hcount
    · exact h.count id b' hold

/-- **A new read finds a lane of its own**, and there are never more than `MAX_LANES`. -/
theorem start (h : Lanes (fun _ => False) s) (hledger : Ledger s) {l : Layer} {b b' : Source}
    {read : Read} (hb : s.buffers[l.buffer]? = some b)
    (htimeline : b.ticket = none ∨ b.spareTimeline l.buffer s.reads = true)
    (hstarted : Started s l b read b') : Lanes (fun _ => False) (s.recorded l b' read) := by
  refine h.extend hstarted.buffer hstarted.ticket hstarted.newest ?_ fun r hr hbuffer hlane => ?_
  · rcases hstarted.lanes with ⟨hlen, -⟩ | ⟨hlen, hfull, -⟩
    · rw [hlen]
      exact h.count _ b hb
    · rcases htimeline with hnone | hspare
      · -- a source without a newest read has a free lane
        obtain ⟨lane, hlt, hreads⟩ := h.free _ b hb hnone
        obtain ⟨r, hr, hbuffer, hlane⟩ := freeLane_eq_none hfull hlt
        exact (hreads r.unfenced (List.mem_map_of_mem hr) hbuffer hlane).elim
      · simp only [Source.spareTimeline, hfull, Option.isSome_none, Bool.or_false,
          decide_eq_true_eq] at hspare
        omega
  · exfalso
    obtain ⟨old, hold, rfl⟩ := List.mem_map.mp hr
    rcases hstarted.lanes with ⟨-, hfree⟩ | ⟨-, -, hnew⟩
    · exact (freeLane_eq_some hfree).2 old hold ⟨hbuffer, hlane⟩
    · obtain ⟨own, hown, -, hlt⟩ := hledger.owned _ hr
      rw [hbuffer, hb] at hown
      rw [← Option.some.inj hown, hlane, hnew] at hlt
      exact Nat.lt_irrefl _ hlt

theorem relabel (h : Lanes done s) {l : Layer} {b : Source} {old : Read}
    (hb : s.buffers[l.buffer]? = some b) (hold : old ∈ s.reads) (hbuffer : old.buffer = l.buffer) :
    Lanes done (s.recorded l { b with ticket := some l.ticket }
      ⟨l.buffer, old.lane, l.ticket, old.point, old.fenceSent⟩) := by
  refine h.extend rfl rfl rfl (h.count _ b hb) fun r hr hr' hlane => ?_
  exact h.points r hr old.unfenced (List.mem_map_of_mem hold) (hr'.trans hbuffer.symm) hlane

/-- The end of a read whose point is reached, between two rounds. -/
theorem complete {σ : UInt64 → Nat → UInt64} (h : Lanes (fun r => r.point ≤ σ r.buffer r.lane) s)
    (hledger : Ledger s) {index : Nat} {read : Read}
    (hread : s.outstanding[index]? = some read.unfenced)
    (hpoint : read.point ≤ σ read.buffer read.lane) (signalled : UInt64) :
    Lanes (fun r => r.point ≤ σ r.buffer r.lane) (complete index read signalled s) := by
  have hmem : ∀ r, r ∈ (Stream.complete index read signalled s).outstanding ↔
      r ∈ s.outstanding ∧ r.ticket ≠ read.ticket := by
    intro r
    rw [outstanding_complete]
    exact mem_swapRemove hledger.distinct hread
  have hin : read.unfenced ∈ s.outstanding := List.mem_of_getElem? hread
  refine ⟨fun id b t hb ht => ?_, fun id b hb hnone => ?_, fun r hr r' hr' => ?_, fun id b hb => ?_⟩
  · obtain ⟨old, hold, -, -, hticket⟩ := Ledger.getElem?_complete hb
    split at hticket
    · rw [hticket] at ht
      cases ht
    · rename_i hother
      rw [hticket] at ht
      obtain ⟨r, hr, hrid, hrt⟩ := h.newest id old t hold ht
      refine ⟨r, (hmem r).mpr ⟨hr, fun heq => hother ?_⟩, hrid, hrt⟩
      -- a read with this ticket is the completed one
      have hsame : r = read.unfenced :=
        List.inj_on_of_nodup_map hledger.distinct hr hin heq
      rw [hsame] at hrid
      exact ⟨hrid.symm, by rw [ht, ← hrt, heq]⟩
  · obtain ⟨old, hold, -, hlanes, hticket⟩ := Ledger.getElem?_complete hb
    rw [hlanes]
    split at hticket
    · rename_i hown
      obtain ⟨rfl, -⟩ := hown
      obtain ⟨own, hownb, -, hlt⟩ := hledger.owned _ hin
      have hsame : own = old := Option.some.inj (hownb.symm.trans hold)
      refine ⟨read.lane, hsame ▸ hlt, fun r hr hbuffer hlane => ?_⟩
      have heq := h.points r ((hmem r).mp hr).1 read.unfenced hin hbuffer hlane
      rw [heq, hbuffer, hlane]
      exact hpoint
    · obtain ⟨lane, hlt, hreads⟩ := h.free id old hold (hticket ▸ hnone)
      exact ⟨lane, hlt, fun r hr => hreads r ((hmem r).mp hr).1⟩
  · exact h.points r ((hmem r).mp hr).1 r' ((hmem r').mp hr').1
  · obtain ⟨old, hold, -, hlanes, -⟩ := Ledger.getElem?_complete hb
    rw [hlanes]
    exact h.count id old hold

theorem bound : Lanes done {} := by
  refine ⟨?_, ?_, ?_, ?_⟩ <;> simp [outstanding]

end Lanes

/-! ## A release pass -/

/-- The timelines are observed once per pass. -/
def ObservedOnce (kernel : Nat → Kernel) : Prop :=
  ∀ n m, (kernel n).signalled = (kernel m).signalled

/-- The pass after some rounds: the reads before `index` stay. -/
structure Passing (σ : UInt64 → Nat → UInt64) (n index : Nat) (s : Stream) : Prop where
  ledger : Ledger s
  lanes : Lanes (fun r => r.point ≤ σ r.buffer r.lane) s
  left : n + index = s.outstanding.length
  stay : ∀ r ∈ s.outstanding.take index, σ r.buffer r.lane < r.point

theorem Passing.fence {σ : UInt64 → Nat → UInt64} {n index : Nat} {s s' : Stream} {read : Read}
    (h : Passing σ n index s) (hfence : s' = s ∨ s' = sendFences read s ∧ s.connected = true) :
    Passing σ n index s' := by
  rcases hfence with rfl | ⟨rfl, -⟩
  · exact h
  · have hout := outstanding_sendFences read s
    exact ⟨h.ledger.sendFences read, h.lanes.congr rfl hout, hout ▸ h.left, hout ▸ h.stay⟩

theorem Passing.round {kernel : Kernel} {n index next : Nat} {s s' : Stream}
    (h : Passing kernel.signalled (n + 1) index s) (hround : Round kernel index s next s') :
    Passing kernel.signalled n next s' := by
  cases hround with
  | @stays read _ hread hfence hpoint =>
    have hget := getElem?_outstanding hread
    have h' := h.fence hfence
    have hout : s'.outstanding = s.outstanding := by
      rcases hfence with rfl | ⟨rfl, -⟩
      · rfl
      · exact outstanding_sendFences read s
    refine ⟨h'.ledger, h'.lanes, ?_, ?_⟩
    · have := h'.left
      omega
    · intro r hr
      rw [hout, List.take_add_one, hget] at hr
      rcases List.mem_append.mp hr with hold | hnew
      · exact h.stay r hold
      · rw [List.mem_singleton.mp hnew]
        exact hpoint
  | @ends read s₁ hread hfence hpoint =>
    have h' := h.fence hfence
    have hget : s₁.outstanding[index]? = some read.unfenced := by
      rcases hfence with rfl | ⟨rfl, -⟩
      · exact getElem?_outstanding hread
      · rw [outstanding_sendFences]
        exact getElem?_outstanding hread
    refine ⟨h'.ledger.complete hget _, h'.lanes.complete h'.ledger hget hpoint _, ?_, ?_⟩
    · have hlen := length_swapRemove hget
      have := h'.left
      rw [outstanding_complete]
      omega
    · rw [outstanding_complete, take_swapRemove (List.getElem?_eq_some_iff.mp hget).1]
      exact h'.stay

/-- **A pass ends with every read looked at**: what is left is not done. -/
theorem releaseLoop_passes {F : PresenterError → Prop} (herrors : ∀ e, e ≠ notOutstanding → F e)
    {kernel : Nat → Kernel} {σ : UInt64 → Nat → UInt64} (hkernel : ∀ n, (kernel n).signalled = σ)
    {n index : Nat} {s : Stream} (h : Passing σ n index s) :
    Yields (releaseLoop kernel n index) s (fun _ s' => ∃ last, Passing σ 0 last s') F := by
  induction n generalizing index s with
  | zero => exact yields_pure ⟨index, h⟩
  | succ n ih =>
    refine yields_bind (releaseOne_spec herrors (kernel n) index) fun next s' hround => ih ?_
    have hpassing : Passing (kernel n).signalled (n + 1) index s := (hkernel n).symm ▸ h
    exact hkernel n ▸ hpassing.round hround

theorem release_keeps {F : PresenterError → Prop} (herrors : ∀ e, e ≠ notOutstanding → F e)
    {kernel : Nat → Kernel} (honce : ObservedOnce kernel) {s : Stream} (hledger : Ledger s)
    (hlanes : Lanes (fun _ => False) s) :
    Yields (release kernel) s (fun _ s' => Ledger s' ∧ Lanes (fun _ => False) s') F := by
  refine yields_get_bind ?_
  have hstart : Passing (kernel 0).signalled s.reads.length 0 s :=
    ⟨hledger, hlanes.mono fun _ _ h => h.elim, by simp [outstanding], by simp⟩
  refine (releaseLoop_passes herrors (fun n => honce n 0) hstart).mono fun _ s' hs' => ?_
  obtain ⟨last, hpassed⟩ := hs'
  refine ⟨hpassed.ledger, hpassed.lanes.mono fun r hr hdone => ?_⟩
  have hall : s'.outstanding.take last = s'.outstanding := by
    rw [← Nat.zero_add last, hpassed.left, List.take_length]
  exact absurd hdone (UInt64.not_le.mpr (hpassed.stay r (hall.symm ▸ hr)))

/-! ## Whole runs -/

/-- The ledger and the lanes, between any two events of the presenter's loop. -/
theorem ledger_invariant : Invariant (fun s => Ledger s ∧ Lanes (fun _ => False) s)
    (fun e => e ≠ notOutstanding) ObservedOnce where
  errors e he := he
  bounded h := h.1.bounded
  quiet h hs := ⟨h.1.quiet hs, h.2.congr hs.buffers (by rw [outstanding, outstanding, hs.reads])⟩
  register {s metadata} attempt h hunknown := by
    refine ⟨h.1.register attempt hunknown, h.2.sources rfl fun id b hb => ?_⟩
    simp only [registered] at hb
    by_cases heq : id = metadata.id
    · refine .inr ?_
      have hidle : ∀ r ∈ s.outstanding, r.buffer ≠ id := by
        rintro r hr rfl
        obtain ⟨own, hown, -⟩ := h.1.owned r hr
        grind
      subst heq
      rw [ExtTreeMap.getElem?_insert_self] at hb
      rw [← Option.some.inj hb]
      exact ⟨rfl, rfl, hidle⟩
    · exact .inl ⟨b, by grind, rfl, rfl⟩
  unregister {s id} h hpending hidle := by
    refine ⟨h.1.unregister hpending hidle, h.2.sources rfl fun other b hb => ?_⟩
    exact .inl ⟨b, by simp only [] at hb; grind, rfl, rfl⟩
  imported {s pending} success h hp := by
    refine ⟨h.1.imported success hp, h.2.sources rfl fun id b hb => .inl ?_⟩
    cases success with
    | true =>
      simp only [importAnswered, if_true, ExtTreeMap.getElem?_modify] at hb
      split at hb
      · rename_i heq
        obtain ⟨old, hold, rfl⟩ := Option.map_eq_some_iff.mp hb
        exact ⟨old, LawfulEqCmp.compare_eq_iff_eq.mp heq ▸ hold, rfl, rfl⟩
      · exact ⟨b, hb, rfl, rfl⟩
    | false =>
      simp only [importAnswered, Bool.false_eq_true, if_false] at hb
      exact ⟨b, by grind, rfl, rfl⟩
  start {s l b} h hb himported hfresh htimeline := by
    refine (startRead_spec (fun e he => he) l b).mono fun _ s' hs' => ?_
    obtain ⟨read, b', hstarted, rfl⟩ := hs'
    exact ⟨h.1.start hb himported hfresh hstarted, h.2.start h.1 hb htimeline hstarted⟩
  relabel {s l b held} h hb himported hheld hfresh := by
    refine (relabelRead_spec fun hmissing => ?_).mono fun _ s' hs' => ?_
    · -- the newest read of a source is outstanding
      obtain ⟨r, hr, hrest⟩ := h.2.newest _ b held hb hheld
      obtain ⟨read, hread, rfl⟩ := List.mem_map.mp hr
      exact absurd hrest (hmissing read hread)
    · obtain ⟨old, hold, hbuffer, -, rfl⟩ := hs'
      exact ⟨h.1.relabel hb himported hfresh hold hbuffer, h.2.relabel hb hold hbuffer⟩
  release honce h := release_keeps (fun e he => he) honce h.1 h.2

/-- What the ledger says of the reads and sources themselves. -/
structure ReadLedger (s : Stream) : Prop where
  newest : ∀ (id : UInt64) (b : Source) (t : UInt64), s.buffers[id]? = some b → b.ticket = some t →
    ∃ r ∈ s.reads, r.buffer = id ∧ r.ticket = t
  free : ∀ (id : UInt64) (b : Source), s.buffers[id]? = some b → b.ticket = none →
    ∃ lane < b.lanes.length, ∀ r ∈ s.reads, ¬ (r.buffer = id ∧ r.lane = lane)
  points : ∀ r ∈ s.reads, ∀ r' ∈ s.reads, r.buffer = r'.buffer → r.lane = r'.lane →
    r.point = r'.point
  count : ∀ (id : UInt64) (b : Source), s.buffers[id]? = some b → b.lanes.length ≤ MAX_LANES

theorem Lanes.readLedger {s : Stream} (h : Lanes (fun _ => False) s) : ReadLedger s := by
  refine ⟨fun id b t hb ht => ?_, fun id b hb hnone => ?_, fun r hr r' hr' => ?_, h.count⟩
  · obtain ⟨r, hr, hrest⟩ := h.newest id b t hb ht
    obtain ⟨read, hread, rfl⟩ := List.mem_map.mp hr
    exact ⟨read, hread, hrest⟩
  · obtain ⟨lane, hlt, hreads⟩ := h.free id b hb hnone
    exact ⟨lane, hlt, fun r hr hon => hreads r.unfenced (List.mem_map_of_mem hr) hon.1 hon.2⟩
  · exact h.points r.unfenced (List.mem_map_of_mem hr) r'.unfenced (List.mem_map_of_mem hr')

/-- **The read ledger.**  In every run in which the points are observed once per release pass, the
    ledger holds in every state reached, and no commit misses the read that it relabels. -/
theorem read_ledger {events : List Event} (honce : ∀ event ∈ events, event.Passes ObservedOnce) :
    (∀ s, run events {} = .ok () s → ReadLedger s) ∧
      ∀ e s, run events {} = .error e s → e ≠ notOutstanding := by
  have h := run_keeps ledger_invariant honce ⟨Ledger.bound, Lanes.bound⟩
  unfold Yields at h
  refine ⟨fun s hs => ?_, fun e s hs => ?_⟩
  · rw [hs] at h
    exact h.2.readLedger
  · rw [hs] at h
    exact h

/-! ## A run that relabels a read and then ends it -/

def readyTask : TaskView :=
  { alpha := true, acceptsPresent := true, configureSerial := 1, bufferSize := (800, 600),
    logicalSize := some (800, 600), exactTimeline := false, feedbackFull := false, granted := true }

/-- Buffer 10 on layer 1, over the whole task. -/
def fullLayer (ticket : UInt64) : Layer :=
  { id := 1, buffer := 10, ticket, destination := ⟨0, 0, 800, 600⟩,
    source := ⟨0, 0, 204800, 153600⟩, transform := 0, alpha := 0xffffffff, isOpaque := true,
    color := 0 }

/-- Both commits of the same content, the second under a new ticket. -/
def relabelRun : List Event :=
  [.request (.registerAsync 1 ⟨10, 800, 600, 0, 0⟩) readyTask true, .imported 0 true,
    .request (.stageAsync (fullLayer 1) false) readyTask true,
    .request (.commitAsync 1 1 800 600 1) readyTask true,
    .request (.stageAsync (fullLayer 2) false) readyTask true,
    .request (.commitAsync 2 1 800 600 1) readyTask true,
    .releases (fun _ => ⟨fun _ _ => 2, fun _ _ _ => true⟩) readyTask]

/-- Whether the run succeeds, with a check of the stream it leaves. -/
def succeeds (events : List Event) (check : Stream → Bool) : Bool :=
  match run events {} with
  | .ok _ s => check s
  | .error .. => false

theorem read_ledger_relabelRun :
    succeeds relabelRun (fun s => s.attached.map (·.ticket) = [1, 2] ∧ s.reads = []) = true ∧
      ∀ s, run relabelRun {} = .ok () s → ReadLedger s :=
  ⟨by decide +kernel, (read_ledger (by simp [relabelRun, Event.Passes, ObservedOnce])).1⟩

end Stream

end Droidloom.Layers
