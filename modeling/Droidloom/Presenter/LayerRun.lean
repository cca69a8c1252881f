/-
  Invariants of whole runs of a layer stream.

  Of everything a stream does, six kinds of step touch its sources and reads: a buffer is registered,
  unregistered or imported, a read is started or relabelled, and a release pass ends reads.  The rest
  is `Quiet`.  `Invariant` lists what has to be shown of a property for those six; `run_keeps` then
  says that the property holds along every run.

  The work is in the commit.  The scene was assessed as a whole, on a snapshot, but its layers are
  attached one after the other, and each changes the sources, the reads and the views.  `Prepared` is
  what a layer that is still to come needs, and it survives the layers before it because a ready
  scene names every view, buffer and new ticket once (`Prepared.after`).
-/
import Droidloom.Presenter.LayerStream

namespace Droidloom.Layers

open Std Fallible SwapRemove Triple

/-- A record that is neither about a read's fence nor about its end. -/
def Reply.Neutral : Reply → Prop
  | .releaseFence _ | .released .. => False
  | _ => True

namespace Stream

/-! ## Quiet steps -/

/-- Sources, reads and imports are untouched. -/
structure Quiet (s s' : Stream) : Prop where
  buffers : s'.buffers = s.buffers
  reads : s'.reads = s.reads
  imports : s'.imports = s.imports
  lastTicket : s'.lastTicket = s.lastTicket
  attached : s'.attached = s.attached
  sent : ∃ replies, s'.sent = s.sent ++ replies ∧ ∀ reply ∈ replies, Reply.Neutral reply

namespace Quiet

variable {s s' s'' : Stream}

theorem of_eq (hbuffers : s'.buffers = s.buffers) (hreads : s'.reads = s.reads)
    (himports : s'.imports = s.imports) (hlast : s'.lastTicket = s.lastTicket)
    (hattached : s'.attached = s.attached) (hsent : s'.sent = s.sent) : Quiet s s' :=
  ⟨hbuffers, hreads, himports, hlast, hattached, [], by simpa using hsent, by simp⟩

theorem refl (s : Stream) : Quiet s s := of_eq rfl rfl rfl rfl rfl rfl

theorem trans (h : Quiet s s') (h' : Quiet s' s'') : Quiet s s'' := by
  obtain ⟨replies, hsent, hneutral⟩ := h.sent
  obtain ⟨replies', hsent', hneutral'⟩ := h'.sent
  refine ⟨h'.buffers.trans h.buffers, h'.reads.trans h.reads, h'.imports.trans h.imports,
    h'.lastTicket.trans h.lastTicket, h'.attached.trans h.attached, replies ++ replies', ?_, ?_⟩
  · rw [hsent', hsent, List.append_assoc]
  · intro reply hreply
    exact (List.mem_append.mp hreply).elim (hneutral reply) (hneutral' reply)

/-- A quiet step before, seen from the stream after it. -/
theorem shift (h : Quiet s' s'') (hbuffers : s'.buffers = s.buffers) (hreads : s'.reads = s.reads)
    (himports : s'.imports = s.imports) (hlast : s'.lastTicket = s.lastTicket)
    (hattached : s'.attached = s.attached) (hsent : s'.sent = s.sent) : Quiet s s'' :=
  (of_eq hbuffers hreads himports hlast hattached hsent).trans h

theorem send {reply : Reply} (h : reply.Neutral) (s : Stream) :
    Quiet s { s with sent := s.sent ++ [reply] } :=
  ⟨rfl, rfl, rfl, rfl, rfl, [reply], rfl, by simpa using h⟩

end Quiet

section
variable {s : Stream} {F : PresenterError → Prop}

theorem yields_send {reply : Reply} (h : reply.Neutral) :
    Yields (send reply) s (fun _ s' => Quiet s s') F :=
  yields_modify (.send h s)

theorem answerImport_quiet (attempt : Option UInt64) (buffer : UInt64) (code : Int) :
    Yields (answerImport attempt buffer code) s (fun _ s' => Quiet s s') F := by
  cases attempt <;> exact yields_send trivial

theorem answerCommit_quiet (scene : Option UInt64) (code : Int) :
    Yields (answerCommit scene code) s (fun _ s' => Quiet s s') F := by
  cases scene <;> exact yields_send trivial

theorem park_quiet (commit : PendingCommit) :
    Yields (park commit) s (fun _ s' => Quiet s s') F :=
  yields_modify (.of_eq rfl rfl rfl rfl rfl rfl)

theorem hide_quiet (s : Stream) : Quiet s s.hide := by
  unfold hide
  split <;> exact .of_eq rfl rfl rfl rfl rfl rfl

theorem peerClosed_quiet (s : Stream) : Quiet s s.peerClosed :=
  (hide_quiet _).shift rfl rfl rfl rfl rfl rfl

theorem abortTimelineWait_quiet : Yields abortTimelineWait s (fun _ s' => Quiet s s') F := by
  refine yields_get_bind ?_
  cases s.waiting with
  | none => exact yields_pure (.refl s)
  | some commit =>
    refine yields_set_bind ((answerCommit_quiet commit.scene (-11)).mono fun _ s' hs' => ?_)
    exact hs'.shift rfl rfl rfl rfl rfl rfl

theorem stage_quiet (layer : Layer) (acquire : Bool) :
    Yields (stage layer acquire) s (fun _ s' => Quiet s s') F := by
  refine yields_get_bind (yields_set_bind ((yields_send (by exact trivial)).mono fun _ s' hs' => ?_))
  exact hs'.shift rfl rfl rfl rfl rfl rfl

theorem abort_quiet : Yields abort s (fun _ s' => Quiet s s') F := by
  refine yields_get_bind (yields_set_bind ?_)
  have hcleared : Quiet s { s with staged := s.staged.clear, waiting := none } :=
    .of_eq rfl rfl rfl rfl rfl rfl
  cases s.waiting.bind (·.scene) with
  | none => exact (yields_send (by exact trivial)).mono fun _ s' hs' => hcleared.trans hs'
  | some scene =>
    refine yields_bind (yields_send (by exact trivial)) fun _ s' hs' => ?_
    exact (yields_send (by exact trivial)).mono fun _ s'' hs'' => (hcleared.trans hs').trans hs''

theorem refresh_quiet (herrors : ∀ e, e ≠ notOutstanding → F e) (current : List UInt32) :
    Yields (refresh current) s (fun _ s' => Quiet s s') F := by
  refine yields_get_bind (yields_ite (fun _ => yields_pure (.refl s)) fun _ => ?_)
  refine yields_okOr_bind (fun _ => herrors _ (by decide)) fun revision _ => ?_
  exact yields_set_bind (yields_pure (.of_eq rfl rfl rfl rfl rfl rfl))

theorem subscribe_quiet (herrors : ∀ e, e ≠ notOutstanding → F e) (current : List UInt32) :
    Yields (subscribe current) s (fun _ s' => Quiet s s') F := by
  refine yields_bind (refresh_quiet herrors current) fun _ s' hs' => yields_get_bind ?_
  refine yields_set_bind ((yields_send (by exact trivial)).mono fun _ s'' hs'' => hs'.trans ?_)
  exact hs''.shift rfl rfl rfl rfl rfl rfl

theorem publishConfig_quiet (herrors : ∀ e, e ≠ notOutstanding → F e) (current : List UInt32) :
    Yields (publishConfig current) s (fun _ s' => Quiet s s') F := by
  refine yields_bind (refresh_quiet herrors current) fun _ s' hs' => yields_get_bind ?_
  refine yields_ite (fun _ => ?_) fun _ => yields_pure hs'
  exact (yields_send (by exact trivial)).mono fun _ s'' hs'' => hs'.trans hs''

theorem claimIdentity_quiet (herrors : ∀ e, e ≠ notOutstanding → F e) (request : Request) :
    Yields (claimIdentity request) s (fun _ s' => Quiet s s') F := by
  refine yields_get_bind ?_
  have hset : ∀ s' : Stream, s'.buffers = s.buffers → s'.reads = s.reads →
      s'.imports = s.imports → s'.lastTicket = s.lastTicket → s'.attached = s.attached →
      s'.sent = s.sent → Yields (set s' : Method Unit) s (fun _ s'' => Quiet s s'') F :=
    fun s' h₁ h₂ h₃ h₄ h₅ h₆ => yields_set (.of_eq h₁ h₂ h₃ h₄ h₅ h₆)
  cases request with
  | commitAsync scene =>
    exact yields_rejectIf_bind (fun _ => herrors _ (by decide)) fun _ =>
      hset _ rfl rfl rfl rfl rfl rfl
  | commitBatch scene =>
    exact yields_rejectIf_bind (fun _ => herrors _ (by decide)) fun _ =>
      hset _ rfl rfl rfl rfl rfl rfl
  | registerAsync attempt =>
    exact yields_rejectIf_bind (fun _ => herrors _ (by decide)) fun _ =>
      hset _ rfl rfl rfl rfl rfl rfl
  | _ => exact yields_pure (.refl s)

end

/-! ## What has to be shown of an invariant -/

/-- The stream after a registration that the compositor has not answered yet. -/
def registered (s : Stream) (metadata : Buffer) (attempt : Option UInt64) : Stream :=
  let source : Source := { metadata, imported := false, lanes := [⟨0⟩], ticket := none }
  let pending : Pending := ⟨metadata.id, attempt, s.params⟩
  { s with
    buffers := s.buffers.insert metadata.id source
    imports := s.imports ++ [pending]
    params := s.params + 1 }

/-- The stream after the compositor has answered an import. -/
def importAnswered (s : Stream) (pending : Pending) (success : Bool) : Stream :=
  { s with
    imports := swapRemove s.imports (s.imports.idxOf pending)
    buffers := if success then
        s.buffers.modify pending.buffer fun source => { source with imported := true }
      else s.buffers.erase pending.buffer }

/-- No read was ever started under the layer's ticket. -/
def Fresh (s : Stream) (l : Layer) : Prop := ∀ read ∈ s.attached, read.ticket ≠ l.ticket

/-- `I` holds along every run whose release passes are `Steady`; `F` is what such a run may fail
    with. -/
structure Invariant (I : Stream → Prop) (F : PresenterError → Prop)
    (Steady : (Nat → Kernel) → Prop) : Prop where
  errors : ∀ e, e ≠ notOutstanding → F e
  bounded : ∀ {s : Stream}, I s → ∀ read ∈ s.attached, read.ticket ≤ s.lastTicket
  quiet : ∀ {s s' : Stream}, I s → Quiet s s' → I s'
  register : ∀ {s : Stream} {metadata : Buffer} (attempt : Option UInt64), I s →
    metadata.id ∉ s.buffers → I (s.registered metadata attempt)
  unregister : ∀ {s : Stream} {id : UInt64}, I s → s.importsContain id = false →
    (∀ read ∈ s.reads, read.buffer ≠ id) → I { s with buffers := s.buffers.erase id }
  imported : ∀ {s : Stream} {pending : Pending} (success : Bool), I s → pending ∈ s.imports →
    I (s.importAnswered pending success)
  start : ∀ {s : Stream} {l : Layer} {b : Source}, I s → s.buffers[l.buffer]? = some b →
    b.imported = true → s.Fresh l →
    (b.ticket = none ∨ b.spareTimeline l.buffer s.reads = true) →
    Yields (startRead l b) s (fun _ s' => I s') F
  relabel : ∀ {s : Stream} {l : Layer} {b : Source} {held : UInt64}, I s →
    s.buffers[l.buffer]? = some b → b.imported = true → b.ticket = some held → s.Fresh l →
    Yields (relabelRead l b held) s (fun _ s' => I s') F
  release : ∀ {s : Stream} {kernel : Nat → Kernel}, Steady kernel → I s →
    Yields (release kernel) s (fun _ s' => I s') F

/-! ## The layers of a scene -/

/-- What a layer that is still to be attached relies on. -/
structure Prepared (s : Stream) (l : Layer) : Prop where
  imported : l.buffer ≠ 0 → ∃ b, s.buffers[l.buffer]? = some b ∧ b.imported = true
  fresh : IsNew s.sourceState l → s.Fresh l
  timeline : ∀ b, IsNew s.sourceState l → s.sourceState l.buffer = some b →
    waits s.attachedTo l b = false

/-- The read of one layer: it belongs to the layer's buffer and has its ticket. -/
structure ReadFor (l : Layer) (s s' : Stream) : Prop where
  buffers : ∀ id : UInt64, id ≠ l.buffer → s'.buffers[id]? = s.buffers[id]?
  reads : ∀ id : UInt64, id ≠ l.buffer → ∀ lane, (s'.reads.any fun r => r.buffer = id ∧ r.lane = lane) =
    s.reads.any fun r => r.buffer = id ∧ r.lane = lane
  attached : ∀ read ∈ s'.attached, read ∈ s.attached ∨ IsNew s.sourceState l ∧ read.ticket = l.ticket
  views : s'.views = s.views

theorem ReadFor.refl (l : Layer) (s : Stream) : ReadFor l s s :=
  ⟨fun _ _ => rfl, fun _ _ _ => rfl, fun _ h => .inl h, rfl⟩

section Scene
variable {s s' : Stream} {l : Layer}

theorem startRead_frame {b : Source} (hnew : IsNew s.sourceState l) :
    Yields (startRead l b) s (fun _ s' => ReadFor l s s') fun _ => True := by
  refine yields_get_bind (yields_okOr_bind (fun _ => trivial) fun next _ => ?_)
  refine yields_okOr_bind (fun _ => trivial) fun acquire _ => ?_
  refine yields_okOr_bind (fun _ => trivial) fun release _ => ?_
  refine yields_set ⟨fun id hid => ?_, fun id hid lane => ?_, fun read hread => ?_, rfl⟩
  · simp only []
    grind
  · simp [Ne.symm hid]
  · rcases List.mem_append.mp hread with hold | hadded
    · exact .inl hold
    · rw [List.mem_singleton.mp hadded]
      exact .inr ⟨hnew, rfl⟩

theorem relabelRead_frame {b : Source} {held : UInt64} (hnew : IsNew s.sourceState l) :
    Yields (relabelRead l b held) s (fun _ s' => ReadFor l s s') fun _ => True := by
  refine yields_get_bind (yields_okOr_bind (fun _ => trivial) fun old _ => ?_)
  refine yields_set ⟨fun id hid => ?_, fun id hid lane => ?_, fun read hread => ?_, rfl⟩
  · simp only []
    grind
  · simp [Ne.symm hid]
  · rcases List.mem_append.mp hread with hold | hadded
    · exact .inl hold
    · rw [List.mem_singleton.mp hadded]
      exact .inr ⟨hnew, rfl⟩

theorem sourceState_congr {id : UInt64} (hbuffers : s'.buffers[id]? = s.buffers[id]?)
    (hreads : ∀ lane, (s'.reads.any fun r => r.buffer = id ∧ r.lane = lane) =
      s.reads.any fun r => r.buffer = id ∧ r.lane = lane) :
    s'.sourceState id = s.sourceState id := by
  unfold sourceState
  rw [hbuffers]
  cases s.buffers[id]? with
  | none => rfl
  | some b => simp only [Option.map_some, Source.spareTimeline, Source.freeLane, hreads]

/-- Two layers of a ready scene, the first of which is attached first. -/
structure Apart (s : Stream) (l l' : Layer) : Prop where
  id : l.id ≠ l'.id
  buffer : l.buffer = l'.buffer → l.buffer = 0
  ticket : IsNew s.sourceState l → IsNew s.sourceState l' → l.ticket ≠ l'.ticket

/-- **The layers before it do not disturb a layer of a ready scene.** -/
theorem Prepared.after {l' : Layer} (h : Prepared s l') (hread : ReadFor l s s')
    (hapart : Apart s l l') :
    Prepared s' l' ∧ (IsNew s'.sourceState l' → IsNew s.sourceState l') := by
  by_cases hsolid : l'.buffer = 0
  · exact ⟨⟨fun hne => absurd hsolid hne, fun hnew => absurd hsolid hnew.1,
      fun _ hnew => absurd hsolid hnew.1⟩, fun hnew => absurd hsolid hnew.1⟩
  have hne : l'.buffer ≠ l.buffer := by
    intro heq
    exact hsolid (heq.trans (hapart.buffer heq.symm))
  have hstate : s'.sourceState l'.buffer = s.sourceState l'.buffer :=
    sourceState_congr (hread.buffers _ hne) (hread.reads _ hne)
  have hnew : IsNew s'.sourceState l' ↔ IsNew s.sourceState l' := by
    unfold IsNew
    rw [hstate]
  refine ⟨⟨?_, fun hn => ?_, fun b hn hb => ?_⟩, hnew.mp⟩
  · rw [hread.buffers _ hne]
    exact h.imported
  · intro read hmem
    rcases hread.attached read hmem with hold | ⟨hl, heq⟩
    · exact h.fresh (hnew.mp hn) read hold
    · rw [heq]
      exact hapart.ticket hl (hnew.mp hn)
  · have hattached : s'.attachedTo = s.attachedTo := by
      unfold attachedTo
      rw [hread.views]
    rw [hattached]
    exact h.timeline b (hnew.mp hn) (hstate ▸ hb)

/-- Changes of other views do not disturb a layer either. -/
theorem Prepared.congr {s : Stream} (h : Prepared s l) (s' : Stream)
    (hbuffers : s'.buffers = s.buffers) (hreads : s'.reads = s.reads)
    (hattached : s'.attached = s.attached) (hview : s'.views[l.id]? = s.views[l.id]?) :
    Prepared s' l ∧ s'.sourceState = s.sourceState := by
  have hstate : s'.sourceState = s.sourceState := by
    funext id
    exact sourceState_congr (by rw [hbuffers]) (by simp [hreads])
  refine ⟨⟨by rw [hbuffers]; exact h.imported, ?_, ?_⟩, hstate⟩
  · rw [hstate]
    intro hnew read hread
    exact h.fresh hnew read (hattached ▸ hread)
  · rw [hstate]
    intro b hnew hb
    have := h.timeline b hnew hb
    unfold waits attachedTo at this ⊢
    rwa [hview]

end Scene

section Keeps
variable {I : Stream → Prop} {F : PresenterError → Prop} {Steady : (Nat → Kernel) → Prop}
  (inv : Invariant I F Steady) {s : Stream}
include inv

theorem readLayer_keeps {l : Layer} {view : View} (h : I s) (hl : Prepared s l)
    (hview : ∀ held, s.attachedTo l.id = some (l.buffer, held) →
      view.source = some (l.buffer, held)) :
    Yields (readLayer l view) s (fun _ s' => I s' ∧ ReadFor l s s') F := by
  refine yields_ite (fun _ => yields_pure ⟨h, .refl l s⟩) fun hbuffer => yields_get_bind ?_
  obtain ⟨b, hb, himported⟩ := hl.imported hbuffer
  refine yields_okOr_bind (fun hnone => absurd (hnone.symm.trans hb) (by simp)) fun b' hb' => ?_
  obtain rfl := Option.some.inj (hb'.symm.trans hb)
  have hstate : s.sourceState l.buffer = some ⟨b'.metadata, b'.imported, b'.ticket,
      b'.spareTimeline l.buffer s.reads⟩ := by
    rw [sourceState, hb]
    rfl
  have hnew : b'.ticket ≠ some l.ticket → IsNew s.sourceState l :=
    fun hne => ⟨hbuffer, _, hstate, hne⟩
  cases hticket : b'.ticket with
  | none =>
    have hl' := hnew (by simp [hticket])
    exact (inv.start h hb himported (hl.fresh hl') (.inl hticket)).and (startRead_frame hl')
  | some held =>
    refine yields_ite (fun _ => yields_pure ⟨h, .refl l s⟩) fun hne => ?_
    have hl' := hnew (by simpa [hticket] using hne)
    refine yields_ite (fun _ => ?_) fun hother => ?_
    · exact (inv.relabel h hb himported hticket (hl.fresh hl')).and (relabelRead_frame hl')
    · -- the view shows another read, so the assessment found a spare timeline
      have hwaits := hl.timeline _ hl' hstate
      have hspare : b'.spareTimeline l.buffer s.reads = true := by
        by_contra hfull
        rw [Bool.not_eq_true] at hfull
        simp only [waits, hfull, hticket, Bool.not_false, Bool.true_and, Option.any_some,
          decide_eq_false_iff_not, not_not] at hwaits
        exact hother (hview held hwaits)
      exact (inv.start h hb himported (hl.fresh hl') (.inr hspare)).and (startRead_frame hl')

theorem attachLayer_keeps (logical physical : UInt32 × UInt32) (previous : Option UInt64)
    {l : Layer} (h : I s) (hl : Prepared s l) :
    Yields (attachLayer logical physical previous l) s (fun _ s' => I s' ∧
      ∀ l' : Layer, Prepared s l' → Apart s l l' →
        Prepared s' l' ∧ (IsNew s'.sourceState l' → IsNew s.sourceState l')) F := by
  refine yields_get_bind ?_
  have hview : ∀ held, s.attachedTo l.id = some (l.buffer, held) →
      (s.viewForLayer l.id).1.source = some (l.buffer, held) := by
    intro held hattached
    unfold attachedTo at hattached
    unfold viewForLayer
    cases hv : s.views[l.id]? with
    | none => rw [hv] at hattached; cases hattached
    | some view => rw [hv] at hattached; exact hattached
  generalize s.viewForLayer l.id = found at hview
  obtain ⟨view, spareViews⟩ := found
  refine yields_ite (fun _ => ?_) fun _ => ?_
  · refine yields_set ⟨inv.quiet h (.of_eq rfl rfl rfl rfl rfl rfl), ?_⟩
    intro l' hl' hapart
    have hid := hapart.id
    obtain ⟨hprepared, hstate⟩ := hl'.congr
      { s with views := s.views.insert l.id view, spareViews } rfl rfl rfl (by simp only []; grind)
    exact ⟨hprepared, fun hnew => hstate ▸ hnew⟩
  · refine yields_bind (readLayer_keeps inv h hl hview) fun _ s' hs' => ?_
    refine yields_modify ⟨inv.quiet hs'.1 (.of_eq rfl rfl rfl rfl rfl rfl), ?_⟩
    intro l' hl' hapart
    have hid := hapart.id
    obtain ⟨hafter, hnew⟩ := hl'.after hs'.2 hapart
    obtain ⟨hprepared, hstate⟩ := hafter.congr
      { s' with views := s'.views.insert l.id ⟨some (Content.new l),
          some (Geometry.new l previous logical physical)⟩, spareViews }
      rfl rfl rfl (by simp only []; grind)
    exact ⟨hprepared, fun hn => hnew (hstate ▸ hn)⟩

/-- The whole scene; `New` is what the assessment took for a new read. -/
theorem attachLayers_keeps (New : Layer → Prop) (logical physical : UInt32 × UInt32)
    {layers : List Layer} (previous : Option UInt64) (h : I s)
    (hlayers : ∀ l ∈ layers, Prepared s l ∧ (IsNew s.sourceState l → New l))
    (hids : (layers.map (·.id)).Nodup)
    (hbuffers : layers.Pairwise fun l l' => l.buffer = l'.buffer → l.buffer = 0)
    (htickets : layers.Pairwise fun l l' => New l → New l' → l.ticket ≠ l'.ticket) :
    Yields (attachLayers logical physical previous layers) s (fun _ s' => I s') F := by
  induction layers generalizing s previous with
  | nil => exact yields_pure h
  | cons l layers ih =>
    rw [List.forall_mem_cons] at hlayers
    rw [List.map_cons, List.nodup_cons] at hids
    rw [List.pairwise_cons] at hbuffers htickets
    refine yields_bind (attachLayer_keeps inv logical physical previous h hlayers.1.1)
      fun _ s' hs' => ih (some l.id) hs'.1 (fun l' hl' => ?_) hids.2 hbuffers.2 htickets.2
    obtain ⟨hprepared, hnew⟩ := hlayers.2 l' hl'
    have hapart : Apart s l l' := by
      refine ⟨fun heq => hids.1 (heq ▸ List.mem_map_of_mem hl'), hbuffers.1 l' hl', ?_⟩
      intro hl hl''
      exact htickets.1 l' hl' (hlayers.1.2 hl) (hnew hl'')
    obtain ⟨hafter, hkept⟩ := hs'.2 l' hprepared hapart
    exact ⟨hafter, fun hn => hnew (hkept hn)⟩

theorem commitLayers_keeps {task : TaskView} {commit : PendingCommit} (h : I s)
    (hready : s.status task commit = .ready) :
    Yields (commitLayers task (commit.width, commit.height)) s (fun _ s' => I s') F := by
  refine yields_okOr_bind (fun _ => inv.errors _ (by decide)) fun logical _ => ?_
  refine yields_get_bind (yields_set_bind ?_)
  have hscene : SceneReady s.lastTicket s.sourceState s.attachedTo
      (s.staged.layers.map (·.1)) := by
    unfold status at hready
    split at hready
    · exact assessScene_ready hready
    · cases hready
  have hquiet : Quiet s (recycleViews ((s.staged.layers.map (·.1)).map (·.id))
      { s with staged := s.staged.clear }) := .of_eq rfl rfl rfl rfl rfl rfl
  refine yields_bind (attachLayers_keeps inv (IsNew s.sourceState) logical _ none
    (inv.quiet h hquiet) (fun l hl => ?_) hscene.ids hscene.buffers hscene.tickets)
    fun _ s' hs' => yields_modify (inv.quiet hs' (.of_eq rfl rfl rfl rfl rfl rfl))
  have hadmitted := hscene.admitted l hl
  have hprepared : Prepared s l := by
    refine ⟨fun hne => ?_, fun hnew read hread => ?_, hadmitted.timeline⟩
    · obtain ⟨state, hstate, himported⟩ := hadmitted.imported hne
      obtain ⟨b, hb, rfl⟩ := Option.map_eq_some_iff.mp hstate
      exact ⟨b, hb, himported⟩
    · have hle := inv.bounded h read hread
      have hlt := hadmitted.fresh hnew
      rintro heq
      exact absurd (heq ▸ hle) (UInt64.not_le.mpr hlt)
  -- a layer of the scene keeps its view when the others are recycled
  have hview : (recycleViews ((s.staged.layers.map (·.1)).map (·.id))
      { s with staged := s.staged.clear }).views[l.id]? = s.views[l.id]? := by
    have hmem : l.id ∈ (s.staged.layers.map (·.1)).map (·.id) := List.mem_map_of_mem hl
    simp only [recycleViews]
    grind
  obtain ⟨hrecycled, hstate⟩ := hprepared.congr _ hquiet.buffers hquiet.reads hquiet.attached hview
  exact ⟨hrecycled, fun hnew => hstate ▸ hnew⟩

theorem submitLayerScene_keeps (task : TaskView) (commit : PendingCommit) (h : I s) :
    Yields (submitLayerScene task commit) s (fun _ s' => I s') F := by
  refine yields_get_bind (yields_ite (fun _ => ?_) fun _ => yields_ite (fun _ => ?_) fun hready =>
    yields_ite (fun _ => ?_) fun _ => yields_ite (fun _ => ?_) fun _ => ?_)
  · exact (park_quiet commit).mono fun _ s' hs' => inv.quiet h hs'
  · refine yields_set_bind ((answerCommit_quiet commit.scene (-95)).mono fun _ s' hs' => ?_)
    exact inv.quiet h (hs'.shift rfl rfl rfl rfl rfl rfl)
  · exact (park_quiet commit).mono fun _ s' hs' => inv.quiet h hs'
  · exact (park_quiet commit).mono fun _ s' hs' => inv.quiet h hs'
  · rw [not_not] at hready
    refine yields_bind (commitLayers_keeps inv h hready) fun _ s' hs' => ?_
    exact (answerCommit_quiet commit.scene 0).mono fun _ s'' hs'' => inv.quiet hs' hs''

/-! ## Requests and events -/

theorem register_keeps (supported : Bool) (metadata : Buffer) (attempt : Option UInt64) (h : I s) :
    Yields (register supported metadata attempt) s (fun _ s' => I s') F := by
  refine yields_get_bind (yields_ite (fun _ => ?_) fun hfree => ?_)
  · exact (answerImport_quiet attempt metadata.id (-95)).mono fun _ s' hs' => inv.quiet h hs'
  · refine yields_rejectIf_bind (fun _ => inv.errors _ (by decide)) fun _ => ?_
    have hunknown : metadata.id ∉ s.buffers := by
      intro hmem
      exact hfree (.inr (.inr (.inl hmem)))
    exact yields_set (inv.register attempt h hunknown)

theorem unregister_keeps (id : UInt64) (h : I s) :
    Yields (unregister id) s (fun _ s' => I s') F := by
  refine yields_get_bind (yields_ite (fun _ => ?_) fun hidle => yields_set_bind ?_)
  · exact Yields.mono (yields_send (by exact trivial)) fun _ s' hs' => inv.quiet h hs'
  · simp only [not_or, Bool.not_eq_true, List.any_eq_false, decide_eq_true_eq] at hidle
    have hunregistered := inv.unregister h hidle.1 hidle.2.2
    exact Yields.mono (yields_send (by exact trivial)) fun _ s' hs' => inv.quiet hunregistered hs'

theorem perform_keeps (task : TaskView) (supported : Bool) (request : Request) (h : I s) :
    Yields (perform task supported request) s (fun _ s' => I s') F := by
  have hquiet : ∀ {x : Method Unit}, Yields x s (fun _ s' => Quiet s s') F →
      Yields x s (fun _ s' => I s') F := fun hx => hx.mono fun _ s' hs' => inv.quiet h hs'
  cases request with
  | config => exact hquiet (yields_send (by exact trivial))
  | subscribeConfig => exact hquiet (subscribe_quiet inv.errors _)
  | register metadata => exact register_keeps inv supported metadata none h
  | registerAsync attempt metadata => exact register_keeps inv supported metadata (some attempt) h
  | unregister id => exact unregister_keeps inv id h
  | stage layer acquire => exact hquiet (stage_quiet layer acquire)
  | stageAsync layer acquire => exact hquiet (yields_modify (.of_eq rfl rfl rfl rfl rfl rfl))
  | stageBatch layers fences => exact hquiet (yields_modify (.of_eq rfl rfl rfl rfl rfl rfl))
  | commitBatch scene serial width height count layers fences =>
    refine yields_modify_bind (submitLayerScene_keeps inv task _ (inv.quiet h ?_))
    exact .of_eq rfl rfl rfl rfl rfl rfl
  | commit serial width height count => exact submitLayerScene_keeps inv task _ h
  | commitAsync scene serial width height count => exact submitLayerScene_keeps inv task _ h
  | abort => exact hquiet abort_quiet

theorem receive_keeps (task : TaskView) (supported : Bool) (request : Request) (h : I s) :
    Yields (receive task supported request) s (fun _ s' => I s') F := by
  refine yields_get_bind (yields_ite (fun _ => ?_) fun _ => yields_pure h)
  refine yields_set_bind (yields_get_bind (yields_rejectIf_bind
    (fun _ => inv.errors _ (by decide)) fun _ => ?_))
  have hreceived : I { s with received := s.received ++ [request] } :=
    inv.quiet h (.of_eq rfl rfl rfl rfl rfl rfl)
  refine yields_bind (claimIdentity_quiet inv.errors request) fun _ s' hs' => ?_
  exact perform_keeps inv task supported request (inv.quiet hreceived hs')

theorem layerImported_keeps (params : Nat) (success : Bool) (h : I s) :
    Yields (layerImported params success) s (fun _ s' => I s') F := by
  refine yields_get_bind ?_
  cases hfind : s.imports.find? (·.params = params) with
  | none => exact yields_pure h
  | some pending =>
    refine yields_rejectIf_bind (fun _ => inv.errors _ (by decide)) fun _ => yields_set_bind ?_
    have hanswered := inv.imported success h (List.mem_of_find?_eq_some hfind)
    refine yields_ite (fun _ => ?_) fun _ => yields_pure hanswered
    exact (answerImport_quiet _ _ _).mono fun _ s' hs' => inv.quiet hanswered hs'

theorem drainReleases_keeps {kernel : Nat → Kernel} (task : TaskView) (hsteady : Steady kernel)
    (h : I s) : Yields (drainReleases kernel task) s (fun _ s' => I s') F := by
  refine yields_bind (inv.release hsteady h) fun _ s' hs' => yields_get_bind ?_
  cases s'.waiting with
  | none => exact yields_pure hs'
  | some commit =>
    refine yields_set_bind (submitLayerScene_keeps inv task commit (inv.quiet hs' ?_))
    exact .of_eq rfl rfl rfl rfl rfl rfl

end Keeps

/-- The release passes of the event are `Steady`. -/
def Event.Passes (Steady : (Nat → Kernel) → Prop) : Event → Prop
  | .releases kernel _ => Steady kernel
  | _ => True

theorem step_keeps {I : Stream → Prop} {F : PresenterError → Prop}
    {Steady : (Nat → Kernel) → Prop} (inv : Invariant I F Steady) {s : Stream} {event : Event}
    (hsteady : event.Passes Steady) (h : I s) : Yields (step event) s (fun _ s' => I s') F := by
  have hquiet : ∀ {x : Method Unit}, Yields x s (fun _ s' => Quiet s s') F →
      Yields x s (fun _ s' => I s') F := fun hx => hx.mono fun _ s' hs' => inv.quiet h hs'
  cases event with
  | request request task supported => exact receive_keeps inv task supported request h
  | peerClosed => exact hquiet (yields_modify (peerClosed_quiet s))
  | releases kernel task => exact drainReleases_keeps inv task hsteady h
  | imported params success => exact layerImported_keeps inv params success h
  | hide => exact hquiet (yields_modify (hide_quiet s))
  | abortWait => exact hquiet abortTimelineWait_quiet
  | publish task =>
    refine hquiet (yields_get_bind (yields_ite (fun _ => ?_) fun _ => yields_pure (.refl s)))
    exact publishConfig_quiet inv.errors _

/-- **An invariant holds along every run.** -/
theorem run_keeps {I : Stream → Prop} {F : PresenterError → Prop}
    {Steady : (Nat → Kernel) → Prop} (inv : Invariant I F Steady) {s : Stream}
    {events : List Event} (hsteady : ∀ event ∈ events, event.Passes Steady) (h : I s) :
    Yields (run events) s (fun _ s' => I s') F := by
  induction events generalizing s with
  | nil => exact yields_pure h
  | cons event events ih =>
    rw [List.forall_mem_cons] at hsteady
    exact yields_bind (step_keeps inv hsteady.1 h) fun _ s' hs' => ih hsteady.2 hs'

end Stream

end Droidloom.Layers
