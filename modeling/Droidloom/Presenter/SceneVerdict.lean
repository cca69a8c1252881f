/-
  The verdict on a scene, without the loop (`assess_scene`).

  The code walks over the layers once, with three sets, a flag and an early exit at the first thing
  that is wrong.  Here the same verdict is said of the scene as a whole:

  * `LayerFault`: what is wrong with one layer, seen alone;
  * `Clash`: what two layers of a scene must not share;
  * `LayerWaits`: the new read of a layer that cannot start yet.

  None of the three looks at a position, so the verdict cannot depend on the order of the layers.
  The loop's sets come in through `Sound`: the rest of the scene is faultless, free of clashes and
  uses nothing that the sets already hold (`Sound.cons_iff` is one turn of the loop).
-/
import Droidloom.Presenter.LayerScene

namespace Droidloom.Layers

section Verdict
variable (width height : UInt32) (lastTicket : UInt64) (source : UInt64 → Option SourceState)
  (attached : UInt64 → Option (UInt64 × UInt64))

/-! ## One layer, and two -/

/-- What can be wrong with a layer and the source it names. -/
inductive LayerFault (l : Layer) (hasAcquire : Bool) : Prop
  | malformed (h : l.validate width height ((source l.buffer).map (·.buffer)) = false)
  | solidFence (hsolid : l.buffer = 0) (hfence : hasAcquire = true)
  | unknown (hbuffer : l.buffer ≠ 0) (h : source l.buffer = none)
  | unimported (b : SourceState) (hbuffer : l.buffer ≠ 0) (hb : source l.buffer = some b)
      (h : b.imported = false)
  | repeated (b : SourceState) (hbuffer : l.buffer ≠ 0) (hb : source l.buffer = some b)
      (hticket : b.ticket = some l.ticket)
      (h : hasAcquire = true ∨ attached l.id ≠ some (l.buffer, l.ticket))
  | stale (hnew : IsNew source l) (h : l.ticket ≤ lastTicket)

/-- Two layers of a scene share an id, an allocation or a new ticket. -/
def Clash (l l' : Layer) : Prop :=
  l.id = l'.id ∨ (l.buffer ≠ 0 ∧ l.buffer = l'.buffer) ∨
    (IsNew source l ∧ IsNew source l' ∧ l.ticket = l'.ticket)

/-- The layer needs a new read of a source that holds another ticket, one that the layer does not
show, and that has no spare timeline. -/
def LayerWaits (l : Layer) : Prop :=
  IsNew source l ∧ ∃ b held, source l.buffer = some b ∧ b.spareTimeline = false ∧
    b.ticket = some held ∧ attached l.id ≠ some (l.buffer, held)

/-! ## The scene -/

/-- The scene is refused. -/
def SceneInvalid (layers : List (Layer × Bool)) (count : UInt32) : Prop :=
  count = 0 ∨ count.toNat > MAX_LAYERS ∨ count.toNat ≠ layers.length ∨
    ¬ layers.Pairwise (fun entry other => ¬ Clash source entry.1 other.1) ∨
    ∃ entry ∈ layers, LayerFault width height lastTicket source attached entry.1 entry.2

/-- Some layer of the scene has to wait for the read before its own. -/
def SceneWaits (layers : List (Layer × Bool)) : Prop :=
  ∃ entry ∈ layers, LayerWaits source attached entry.1

/-- The layers are in order, and use nothing of what the loop has already seen. -/
structure Sound (ids buffers tickets : Finset UInt64) (layers : List (Layer × Bool)) : Prop where
  faultless : ∀ entry ∈ layers,
    ¬ LayerFault width height lastTicket source attached entry.1 entry.2
  apart : layers.Pairwise fun entry other => ¬ Clash source entry.1 other.1
  unused : Unused source ids buffers tickets (layers.map (·.1))

variable {width height lastTicket source attached}

theorem Clash.symm {l l' : Layer} (h : Clash source l l') : Clash source l' l := by
  rcases h with hid | ⟨hbuffer, heq⟩ | ⟨hnew, hnew', heq⟩
  · exact .inl hid.symm
  · exact .inr (.inl ⟨heq ▸ hbuffer, heq.symm⟩)
  · exact .inr (.inr ⟨hnew', hnew, heq.symm⟩)

theorem isNew_iff {l : Layer} {b : SourceState} (hbuffer : l.buffer ≠ 0)
    (hb : source l.buffer = some b) : IsNew source l ↔ b.ticket ≠ some l.ticket := by
  refine ⟨?_, fun hticket => ⟨hbuffer, b, hb, hticket⟩⟩
  rintro ⟨-, b', hb', hticket⟩
  rw [hb] at hb'
  exact Option.some.inj hb' ▸ hticket

/-- The loop's test for a new read is the declared one. -/
theorem waits_iff {l : Layer} {b : SourceState} (hnew : IsNew source l)
    (hb : source l.buffer = some b) : waits attached l b = true ↔ LayerWaits source attached l := by
  unfold waits LayerWaits
  rw [Bool.and_eq_true, Bool.not_eq_true', Option.any_eq_true_iff_get]
  constructor
  · rintro ⟨hspare, hsome, hshown⟩
    exact ⟨hnew, b, b.ticket.get hsome, hb, hspare, (Option.some_get hsome).symm,
      of_decide_eq_true hshown⟩
  · rintro ⟨-, b', held, hb', hspare, hheld, hshown⟩
    obtain rfl : b = b' := Option.some.inj (hb.symm.trans hb')
    exact ⟨hspare, by rw [hheld]; rfl, by simpa only [hheld, Option.get_some, decide_eq_true_eq]⟩

theorem sceneWaits_cons {entry : Layer × Bool} {layers : List (Layer × Bool)} :
    SceneWaits source attached (entry :: layers) ↔
      LayerWaits source attached entry.1 ∨ SceneWaits source attached layers := by
  unfold SceneWaits
  rw [List.exists_mem_cons_iff]

/-! ## The loop -/

/-- One layer more is seen: what it uses is now in the sets. -/
theorem unused_cons_iff {ids buffers tickets ids' buffers' tickets' : Finset UInt64} {l : Layer}
    {layers : List Layer} (hids : ∀ x, x ∈ ids' ↔ x = l.id ∨ x ∈ ids)
    (hbuffers : ∀ x, x ∈ buffers' ↔ (l.buffer ≠ 0 ∧ x = l.buffer) ∨ x ∈ buffers)
    (htickets : ∀ x, x ∈ tickets' ↔ (IsNew source l ∧ x = l.ticket) ∨ x ∈ tickets) :
    Unused source ids' buffers' tickets' layers ↔
      Unused source ids buffers tickets layers ∧ ∀ l' ∈ layers, ¬ Clash source l l' := by
  constructor
  · intro h
    refine ⟨⟨?_, ?_, ?_⟩, ?_⟩
    · exact fun l' hl' hmem => h.ids l' hl' ((hids _).mpr (.inr hmem))
    · exact fun l' hl' hne hmem => h.buffers l' hl' hne ((hbuffers _).mpr (.inr hmem))
    · exact fun l' hl' hnew hmem => h.tickets l' hl' hnew ((htickets _).mpr (.inr hmem))
    · rintro l' hl' (hid | ⟨hne, heq⟩ | ⟨hnew, hnew', heq⟩)
      · exact h.ids l' hl' ((hids _).mpr (.inl hid.symm))
      · exact h.buffers l' hl' (heq ▸ hne) ((hbuffers _).mpr (.inl ⟨hne, heq.symm⟩))
      · exact h.tickets l' hl' hnew' ((htickets _).mpr (.inl ⟨hnew, heq.symm⟩))
  · rintro ⟨h, hclash⟩
    refine ⟨fun l' hl' hmem => ?_, fun l' hl' hne hmem => ?_, fun l' hl' hnew hmem => ?_⟩
    · rcases (hids _).mp hmem with heq | hmem
      · exact hclash l' hl' (.inl heq.symm)
      · exact h.ids l' hl' hmem
    · rcases (hbuffers _).mp hmem with ⟨hne', heq⟩ | hmem
      · exact hclash l' hl' (.inr (.inl ⟨hne', heq.symm⟩))
      · exact h.buffers l' hl' hne hmem
    · rcases (htickets _).mp hmem with ⟨hnew', heq⟩ | hmem
      · exact hclash l' hl' (.inr (.inr ⟨hnew', hnew, heq.symm⟩))
      · exact h.tickets l' hl' hnew hmem

/-- **One turn of the loop.**  The scene is sound when its first layer is, uses nothing seen before,
and the rest is sound for the sets with that layer in them. -/
theorem Sound.cons_iff {ids buffers tickets ids' buffers' tickets' : Finset UInt64} {l : Layer}
    {hasAcquire : Bool} {layers : List (Layer × Bool)} (hids : ∀ x, x ∈ ids' ↔ x = l.id ∨ x ∈ ids)
    (hbuffers : ∀ x, x ∈ buffers' ↔ (l.buffer ≠ 0 ∧ x = l.buffer) ∨ x ∈ buffers)
    (htickets : ∀ x, x ∈ tickets' ↔ (IsNew source l ∧ x = l.ticket) ∨ x ∈ tickets) :
    Sound width height lastTicket source attached ids buffers tickets ((l, hasAcquire) :: layers) ↔
      (¬ LayerFault width height lastTicket source attached l hasAcquire ∧ l.id ∉ ids ∧
        (l.buffer ≠ 0 → l.buffer ∉ buffers) ∧ (IsNew source l → l.ticket ∉ tickets)) ∧
      Sound width height lastTicket source attached ids' buffers' tickets' layers := by
  have hstep : Unused source ids' buffers' tickets' (layers.map (·.1)) ↔ _ :=
    unused_cons_iff hids hbuffers htickets
  constructor
  · rintro ⟨hfault, hapart, hunused⟩
    obtain ⟨hclash, hapart⟩ := List.pairwise_cons.mp hapart
    obtain ⟨hid, hrestIds⟩ := List.forall_mem_cons.mp hunused.ids
    obtain ⟨hbuffer, hrestBuffers⟩ := List.forall_mem_cons.mp hunused.buffers
    obtain ⟨hticket, hrestTickets⟩ := List.forall_mem_cons.mp hunused.tickets
    obtain ⟨hl, hrest⟩ := List.forall_mem_cons.mp hfault
    refine ⟨⟨hl, hid, hbuffer, hticket⟩, hrest, hapart, hstep.mpr ⟨⟨hrestIds, hrestBuffers,
      hrestTickets⟩, ?_⟩⟩
    exact List.forall_mem_map.mpr hclash
  · rintro ⟨⟨hl, hid, hbuffer, hticket⟩, hrest, hapart, hunused⟩
    obtain ⟨hunused, hclash⟩ := hstep.mp hunused
    have hclash : ∀ other ∈ layers, ¬ Clash source l other.1 :=
      fun other hother => hclash other.1 (List.mem_map_of_mem hother)
    exact ⟨List.forall_mem_cons.mpr ⟨hl, hrest⟩, List.pairwise_cons.mpr ⟨hclash, hapart⟩,
      hunused.cons hid hbuffer hticket⟩

/-- A layer that the loop lets pass has no fault. -/
theorem not_layerFault {l : Layer} {hasAcquire : Bool}
    (hvalid : l.validate width height ((source l.buffer).map (·.buffer)) = true)
    (hsolid : l.buffer = 0 → hasAcquire = false)
    (hsource : l.buffer ≠ 0 → ∃ b, source l.buffer = some b ∧ b.imported = true ∧
      (b.ticket = some l.ticket →
        hasAcquire = false ∧ attached l.id = some (l.buffer, l.ticket)))
    (hfresh : IsNew source l → lastTicket < l.ticket) :
    ¬ LayerFault width height lastTicket source attached l hasAcquire := by
  rintro (h | ⟨h, hfence⟩ | ⟨hbuffer, h⟩ | ⟨b, hbuffer, hb, h⟩ | ⟨b, hbuffer, hb, hticket, h⟩ |
    ⟨hnew, h⟩)
  · rw [h] at hvalid
    cases hvalid
  · rw [hsolid h] at hfence
    cases hfence
  · obtain ⟨b, hb, -⟩ := hsource hbuffer
    rw [h] at hb
    cases hb
  · obtain ⟨b', hb', himported, -⟩ := hsource hbuffer
    obtain rfl : b = b' := Option.some.inj (hb.symm.trans hb')
    rw [h] at himported
    cases himported
  · obtain ⟨b', hb', -, hshown⟩ := hsource hbuffer
    obtain rfl : b = b' := Option.some.inj (hb.symm.trans hb')
    obtain ⟨hfence, hattached⟩ := hshown hticket
    rcases h with h | h
    · rw [h] at hfence
      cases hfence
    · exact h hattached
  · exact absurd (hfresh hnew) (UInt64.not_lt.mpr h)

namespace SceneStatus

/-- The status says which of the two is the case; a refusal goes before a wait. -/
def Means (status : SceneStatus) (refused waiting : Prop) : Prop :=
  match status with
  | invalid => refused
  | busy => ¬ refused ∧ waiting
  | ready => ¬ refused ∧ ¬ waiting

theorem Means.congr {status : SceneStatus} {refused waiting refused' waiting' : Prop}
    (h : status.Means refused waiting) (hrefused : refused ↔ refused')
    (hwaiting : waiting ↔ waiting') : status.Means refused' waiting' := by
  rwa [← hrefused, ← hwaiting]

theorem Means.iffs {status : SceneStatus} {refused waiting : Prop}
    (h : status.Means refused waiting) :
    (status = .invalid ↔ refused) ∧ (status = .busy ↔ ¬ refused ∧ waiting) ∧
      (status = .ready ↔ ¬ refused ∧ ¬ waiting) := by
  cases status <;> simp_all [Means]

/-- Two statuses with one meaning are the same. -/
theorem Means.unique {status status' : SceneStatus} {refused waiting : Prop}
    (h : status.Means refused waiting) (h' : status'.Means refused waiting) :
    status = status' := by
  cases status <;> cases status' <;> simp_all [Means]

end SceneStatus

/-- The loop goes on: the layer in front is in order and is now in the sets. -/
theorem SceneStatus.Means.next {status : SceneStatus} {l : Layer} {hasAcquire : Bool}
    {layers : List (Layer × Bool)} {ids buffers tickets ids' buffers' tickets' : Finset UInt64}
    {busy busy' : Bool}
    (h : status.Means
      (¬ Sound width height lastTicket source attached ids' buffers' tickets' layers)
      (busy' = true ∨ SceneWaits source attached layers))
    (hids : ∀ x, x ∈ ids' ↔ x = l.id ∨ x ∈ ids)
    (hbuffers : ∀ x, x ∈ buffers' ↔ (l.buffer ≠ 0 ∧ x = l.buffer) ∨ x ∈ buffers)
    (htickets : ∀ x, x ∈ tickets' ↔ (IsNew source l ∧ x = l.ticket) ∨ x ∈ tickets)
    (hl : ¬ LayerFault width height lastTicket source attached l hasAcquire) (hid : l.id ∉ ids)
    (hbuffer : l.buffer ≠ 0 → l.buffer ∉ buffers) (hticket : IsNew source l → l.ticket ∉ tickets)
    (hbusy : busy' = true ↔ busy = true ∨ LayerWaits source attached l) :
    status.Means
      (¬ Sound width height lastTicket source attached ids buffers tickets
        ((l, hasAcquire) :: layers))
      (busy = true ∨ SceneWaits source attached ((l, hasAcquire) :: layers)) := by
  refine h.congr (not_congr ?_) ?_
  · rw [Sound.cons_iff hids hbuffers htickets]
    exact (and_iff_right ⟨hl, hid, hbuffer, hticket⟩).symm
  · rw [hbusy, sceneWaits_cons, or_assoc]

/-- **The loop of `assess_scene`** refuses exactly the layers that are not sound for its sets. -/
theorem assessLayers_means (layers : List (Layer × Bool)) (ids buffers tickets : Finset UInt64)
    (busy : Bool) :
    (assessLayers width height lastTicket source attached layers ids buffers tickets busy).Means
      (¬ Sound width height lastTicket source attached ids buffers tickets layers)
      (busy = true ∨ SceneWaits source attached layers) := by
  induction layers generalizing ids buffers tickets busy with
  | nil =>
    have hsound : Sound width height lastTicket source attached ids buffers tickets [] := by
      refine ⟨?_, .nil, ⟨?_, ?_, ?_⟩⟩ <;> simp
    cases busy <;> simp [assessLayers, SceneStatus.Means, SceneWaits, hsound]
  | cons entry layers ih =>
    obtain ⟨l, hasAcquire⟩ := entry
    unfold assessLayers
    -- the loop ends early: the layer in front breaks `Sound`
    have hfault (h : LayerFault width height lastTicket source attached l hasAcquire) :
        ¬ Sound width height lastTicket source attached ids buffers tickets
          ((l, hasAcquire) :: layers) :=
      fun hsound => hsound.faultless _ List.mem_cons_self h
    split
    · rename_i h
      rcases h with hid | hvalid
      · exact fun hsound => hsound.unused.ids l List.mem_cons_self hid
      · exact hfault (.malformed (Bool.not_eq_true _ ▸ hvalid))
    rename_i hpass
    obtain ⟨hid, hvalid⟩ := not_or.mp hpass
    rw [not_not] at hvalid
    split
    · rename_i hsolid
      have hold : ¬ IsNew source l := fun hnew => hnew.1 hsolid
      split
      · rename_i hfence
        exact hfault (.solidFence hsolid hfence)
      · -- a solid layer uses its id only
        rename_i hfence
        refine (ih _ _ _ busy).next (by simp) (by simp [hsolid]) (by simp [hold]) ?_ hid
          (fun hne => absurd hsolid hne) (fun hnew => absurd hnew hold) ?_
        · exact not_layerFault hvalid (fun _ => Bool.not_eq_true _ ▸ hfence)
            (fun hne => absurd hsolid hne) (fun hnew => absurd hnew hold)
        · exact (or_iff_left fun hwaits => hold hwaits.1).symm
    rename_i hbuffer
    split
    · rename_i hnone
      exact hfault (.unknown hbuffer hnone)
    rename_i b hb
    split
    · rename_i h
      rcases h with himported | hseen
      · exact hfault (.unimported b hbuffer hb (Bool.not_eq_true _ ▸ himported))
      · exact fun hsound => hsound.unused.buffers l List.mem_cons_self hbuffer hseen
    rename_i hfree
    obtain ⟨himported, hunseen⟩ := not_or.mp hfree
    rw [not_not] at himported
    have hnewIff := isNew_iff hbuffer hb
    split
    · rename_i hticket
      have hold : ¬ IsNew source l := fun hnew => hnewIff.mp hnew hticket
      split
      · rename_i h
        exact hfault (.repeated b hbuffer hb hticket h)
      · -- the layer keeps the read that it shows
        rename_i hshown
        obtain ⟨hfence, hattached⟩ := not_or.mp hshown
        rw [not_not] at hattached
        refine (ih _ _ _ busy).next (by simp) (by simp [hbuffer]) (by simp [hold]) ?_ hid
          (fun _ => hunseen) (fun hnew => absurd hnew hold) ?_
        · exact not_layerFault hvalid (fun hsolid => absurd hsolid hbuffer)
            (fun _ => ⟨b, hb, himported, fun _ => ⟨Bool.not_eq_true _ ▸ hfence, hattached⟩⟩)
            (fun hnew => absurd hnew hold)
        · exact (or_iff_left fun hwaits => hold hwaits.1).symm
    · rename_i hticket
      have hnew : IsNew source l := hnewIff.mpr hticket
      split
      · rename_i h
        rcases h with hlast | hseen
        · exact hfault (.stale hnew hlast)
        · exact fun hsound => hsound.unused.tickets l List.mem_cons_self hnew hseen
      · -- a new read, which may have to wait for the one before it
        rename_i hfresh
        obtain ⟨hlast, hother⟩ := not_or.mp hfresh
        refine (ih _ _ _ _).next (by simp) (by simp [hbuffer]) (by simp [hnew]) ?_ hid
          (fun _ => hunseen) (fun _ => hother) ?_
        · exact not_layerFault hvalid (fun hsolid => absurd hsolid hbuffer)
            (fun _ => ⟨b, hb, himported, fun h => absurd h hticket⟩)
            (fun _ => UInt64.not_le.mp hlast)
        · rw [Bool.or_eq_true, waits_iff hnew hb]

/-! ## The verdict -/

/-- What `assess_scene` returns, in the words of the declarations above. -/
theorem assessScene_means (layers : List (Layer × Bool)) (count : UInt32) :
    (assessScene width height lastTicket source attached layers count).Means
      (SceneInvalid width height lastTicket source attached layers count)
      (SceneWaits source attached layers) := by
  unfold assessScene
  split
  · rename_i h
    rcases h with hzero | hcount | hmany
    · exact .inl hzero
    · exact .inr (.inr (.inl hcount))
    · -- more than 64 layers: the count is as large, or a different one
      by_cases hcount : count.toNat = layers.length
      · exact .inr (.inl (hcount ▸ hmany))
      · exact .inr (.inr (.inl hcount))
  · rename_i h
    simp only [not_or, not_not] at h
    obtain ⟨hzero, hcount, hmany⟩ := h
    refine (assessLayers_means layers ∅ ∅ ∅ false).congr ?_ (by simp)
    have hunused : Unused source ∅ ∅ ∅ (layers.map (·.1)) := by
      refine ⟨?_, ?_, ?_⟩ <;> simp
    constructor
    · intro hsound
      by_contra hvalid
      simp only [SceneInvalid, not_or, not_not, not_exists, not_and] at hvalid
      exact hsound ⟨hvalid.2.2.2.2, hvalid.2.2.2.1, hunused⟩
    · rintro (h | h | h | h | ⟨entry, hentry, h⟩) hsound
      · exact hzero h
      · exact hmany (hcount ▸ h)
      · exact h hcount
      · exact h hsound.apart
      · exact hsound.faultless entry hentry h

/-- The declarations do not look at positions. -/
theorem sceneInvalid_perm {layers layers' : List (Layer × Bool)} (h : layers.Perm layers')
    (count : UInt32) :
    SceneInvalid width height lastTicket source attached layers count ↔
      SceneInvalid width height lastTicket source attached layers' count := by
  have happart := h.pairwise_iff (R := fun entry other => ¬ Clash source entry.1 other.1)
    (fun hclash hother => hclash hother.symm)
  unfold SceneInvalid
  simp only [h.length_eq, happart, h.mem_iff]

/-- **The verdict on a scene.**  A scene is invalid exactly when its count is wrong, two of its
layers clash or one of them has a fault; busy exactly when it is not invalid and a new read of one
of its layers cannot start yet; ready otherwise.  The order of the layers is immaterial. -/
theorem assessScene_verdict (width height : UInt32) (lastTicket : UInt64)
    (source : UInt64 → Option SourceState) (attached : UInt64 → Option (UInt64 × UInt64))
    (layers : List (Layer × Bool)) (count : UInt32) :
    (assessScene width height lastTicket source attached layers count = .invalid ↔
        SceneInvalid width height lastTicket source attached layers count) ∧
      (assessScene width height lastTicket source attached layers count = .busy ↔
        ¬ SceneInvalid width height lastTicket source attached layers count ∧
          SceneWaits source attached layers) ∧
      (assessScene width height lastTicket source attached layers count = .ready ↔
        ¬ SceneInvalid width height lastTicket source attached layers count ∧
          ¬ SceneWaits source attached layers) ∧
      ∀ layers', layers.Perm layers' →
        assessScene width height lastTicket source attached layers' count =
          assessScene width height lastTicket source attached layers count := by
  have hmeans := @assessScene_means width height lastTicket source attached
  obtain ⟨hinvalid, hbusy, hready⟩ := (hmeans layers count).iffs
  refine ⟨hinvalid, hbusy, hready, fun layers' hperm => ?_⟩
  refine (hmeans layers' count).unique ((hmeans layers count).congr
    (sceneInvalid_perm hperm count) ?_)
  simp only [SceneWaits, hperm.mem_iff]

end Verdict

end Droidloom.Layers
