/-
  A scene of a task's layer stream (`droidloom-surface-bridge`, `layers.rs`).

  SurfaceFlinger stages layers one by one and commits them as ONE scene.  `assessScene` looks at the
  whole scene and at a snapshot of the sources before anything is changed; `Ready` means that every
  layer can be attached now.  What the host later relies on is collected in `SceneReady`: the layers
  name different views, different buffers and different new tickets, and every new read has a
  timeline to run on.
-/
import Mathlib

namespace Droidloom.Layers

def MAX_LAYERS : Nat := 64
def MAX_BUFFERS : Nat := 128
def MAX_IMPORTS : Nat := 16

/-- Allocation metadata; the image planes are only handed on. -/
structure Buffer where
  id : UInt64
  width : UInt32
  height : UInt32
  fourcc : UInt32
  modifier : UInt64
deriving DecidableEq, Repr

/-- Left, top, width and height. -/
structure Rect (α : Type) where
  x : α
  y : α
  w : α
  h : α
deriving DecidableEq, Repr

structure Layer where
  id : UInt64
  buffer : UInt64
  ticket : UInt64
  destination : Rect Int32
  source : Rect UInt32
  transform : UInt32
  alpha : UInt32
  isOpaque : Bool
  color : UInt32
deriving DecidableEq, Repr

namespace Layer

/-- The buffer's size as the layer's transform shows it: odd transforms swap the sides. -/
def shownSize (l : Layer) (buffer : Buffer) : UInt32 × UInt32 :=
  if l.transform = 1 ∨ l.transform = 3 ∨ l.transform = 5 ∨ l.transform = 7 then
    (buffer.height, buffer.width)
  else (buffer.width, buffer.height)

/-- `offset.checked_add(extent).is_some_and(|v| v <= size * 256)`. -/
def fits (offset extent size : UInt32) : Bool :=
  offset.toNat + extent.toNat < 2 ^ 32 ∧ offset.toNat + extent.toNat ≤ size.toNat * 256

def validate (l : Layer) (width height : UInt32) (buffer : Option Buffer) : Bool :=
  let d := l.destination
  if l.id = 0 ∨ d.x < 0 ∨ d.y < 0 ∨ d.w ≤ 0 ∨ d.h ≤ 0 ∨ l.transform > 7 ∨
      d.x.toUInt32.toNat + d.w.toUInt32.toNat > width.toNat ∨
      d.y.toUInt32.toNat + d.h.toUInt32.toNat > height.toNat then false
  else if l.buffer = 0 then l.ticket = 0 ∧ buffer.isNone
  else match buffer with
    | none => false
    | some buffer =>
      let size := l.shownSize buffer
      l.ticket ≠ 0 ∧ buffer.id = l.buffer ∧ l.source.w > 0 ∧ l.source.h > 0 ∧
        fits l.source.x l.source.w size.1 ∧ fits l.source.y l.source.h size.2

end Layer

/-! ## Staging -/

/-- The pending scene.  A staged layer carries the flag whether it came with an acquire fence. -/
structure Staging where
  layers : List (Layer × Bool) := []
  failed : Bool := false
deriving DecidableEq, Repr

namespace Staging

/-- Overflow invalidates the whole scene; the flag says whether the layer was taken. -/
def push (staged : Staging) (layer : Layer) (acquire : Bool) : Bool × Staging :=
  if staged.failed ∨ staged.layers.length = MAX_LAYERS then (false, { staged with failed := true })
  else (true, { staged with layers := staged.layers ++ [(layer, acquire)] })

/-- Also `recycle`: the allocation that is kept for the next scene is empty. -/
def clear (_ : Staging) : Staging := {}

end Staging

/-! ## Assessment -/

structure SourceState where
  buffer : Buffer
  imported : Bool
  ticket : Option UInt64
  spareTimeline : Bool

inductive SceneStatus
  | ready
  | busy
  | invalid
deriving DecidableEq, Repr

section Assess
variable (width height : UInt32) (lastTicket : UInt64) (source : UInt64 → Option SourceState)
  (attached : UInt64 → Option (UInt64 × UInt64))

/-- The new read of an allocation has to wait for the one before it. -/
def waits (l : Layer) (b : SourceState) : Bool :=
  !b.spareTimeline && b.ticket.any fun held => attached l.id ≠ some (l.buffer, held)

/-- The loop of `assess_scene`, with the sets of what it has seen. -/
def assessLayers : List (Layer × Bool) → Finset UInt64 → Finset UInt64 → Finset UInt64 → Bool →
    SceneStatus
  | [], _, _, _, busy => if busy then .busy else .ready
  | (l, hasAcquire) :: layers, ids, buffers, tickets, busy =>
    if l.id ∈ ids ∨ ¬ l.validate width height ((source l.buffer).map (·.buffer)) then .invalid
    else if l.buffer = 0 then
      if hasAcquire then .invalid
      else assessLayers layers (insert l.id ids) buffers tickets busy
    else match source l.buffer with
      | none => .invalid
      | some b =>
        if ¬ b.imported ∨ l.buffer ∈ buffers then .invalid
        else if b.ticket = some l.ticket then
          if hasAcquire ∨ attached l.id ≠ some (l.buffer, l.ticket) then .invalid
          else assessLayers layers (insert l.id ids) (insert l.buffer buffers) tickets busy
        else if l.ticket ≤ lastTicket ∨ l.ticket ∈ tickets then .invalid
        else assessLayers layers (insert l.id ids) (insert l.buffer buffers)
          (insert l.ticket tickets) (busy || waits attached l b)

def assessScene (layers : List (Layer × Bool)) (count : UInt32) : SceneStatus :=
  if count = 0 ∨ count.toNat ≠ layers.length ∨ layers.length > MAX_LAYERS then .invalid
  else assessLayers width height lastTicket source attached layers ∅ ∅ ∅ false

/-! ## What a ready scene satisfies -/

/-- The layer asks for a read that its source does not have. -/
def IsNew (l : Layer) : Prop :=
  l.buffer ≠ 0 ∧ ∃ b, source l.buffer = some b ∧ b.ticket ≠ some l.ticket

/-- A layer that can be attached now. -/
structure Admitted (l : Layer) : Prop where
  imported : l.buffer ≠ 0 → ∃ b, source l.buffer = some b ∧ b.imported = true
  fresh : IsNew source l → lastTicket < l.ticket
  timeline : ∀ b, IsNew source l → source l.buffer = some b → waits attached l b = false

/-- The layers of a ready scene: each can be attached, and no two get in each other's way. -/
structure SceneReady (layers : List Layer) : Prop where
  admitted : ∀ l ∈ layers, Admitted lastTicket source attached l
  ids : (layers.map (·.id)).Nodup
  buffers : layers.Pairwise fun l l' => l.buffer = l'.buffer → l.buffer = 0
  tickets : layers.Pairwise fun l l' => IsNew source l → IsNew source l' → l.ticket ≠ l'.ticket

/-- The loop's sets hold what the layers before have used. -/
structure Unused (ids buffers tickets : Finset UInt64) (layers : List Layer) : Prop where
  ids : ∀ l ∈ layers, l.id ∉ ids
  buffers : ∀ l ∈ layers, l.buffer ≠ 0 → l.buffer ∉ buffers
  tickets : ∀ l ∈ layers, IsNew source l → l.ticket ∉ tickets

variable {width height lastTicket source attached}

/-- One layer in front of a ready scene that does not use anything of it. -/
theorem SceneReady.cons {l : Layer} {layers : List Layer} {ids buffers tickets : Finset UInt64}
    (h : SceneReady lastTicket source attached layers)
    (hunused : Unused source ids buffers tickets layers)
    (hl : Admitted lastTicket source attached l) (hid : l.id ∈ ids)
    (hbuffer : l.buffer ≠ 0 → l.buffer ∈ buffers) (hticket : IsNew source l → l.ticket ∈ tickets) :
    SceneReady lastTicket source attached (l :: layers) := by
  refine ⟨List.forall_mem_cons.mpr ⟨hl, h.admitted⟩, ?_, ?_, ?_⟩
  · rw [List.map_cons, List.nodup_cons]
    refine ⟨fun hmem => ?_, h.ids⟩
    obtain ⟨l', hl', heq⟩ := List.mem_map.mp hmem
    exact hunused.ids l' hl' (heq ▸ hid)
  · refine List.pairwise_cons.mpr ⟨fun l' hl' heq => ?_, h.buffers⟩
    by_contra hne
    exact hunused.buffers l' hl' (heq ▸ hne) (heq ▸ hbuffer hne)
  · refine List.pairwise_cons.mpr ⟨fun l' hl' hnew hnew' heq => ?_, h.tickets⟩
    exact hunused.tickets l' hl' hnew' (heq ▸ hticket hnew)

theorem Unused.mono {ids buffers tickets ids' buffers' tickets' : Finset UInt64}
    {layers : List Layer} (h : Unused source ids' buffers' tickets' layers) (hids : ids ⊆ ids')
    (hbuffers : buffers ⊆ buffers') (htickets : tickets ⊆ tickets') :
    Unused source ids buffers tickets layers :=
  ⟨fun l hl hmem => h.ids l hl (hids hmem),
    fun l hl hne hmem => h.buffers l hl hne (hbuffers hmem),
    fun l hl hnew hmem => h.tickets l hl hnew (htickets hmem)⟩

theorem Unused.cons {ids buffers tickets : Finset UInt64} {l : Layer} {layers : List Layer}
    (h : Unused source ids buffers tickets layers) (hid : l.id ∉ ids)
    (hbuffer : l.buffer ≠ 0 → l.buffer ∉ buffers) (hticket : IsNew source l → l.ticket ∉ tickets) :
    Unused source ids buffers tickets (l :: layers) :=
  ⟨List.forall_mem_cons.mpr ⟨hid, h.ids⟩, List.forall_mem_cons.mpr ⟨hbuffer, h.buffers⟩,
    List.forall_mem_cons.mpr ⟨hticket, h.tickets⟩⟩

theorem assessLayers_ready {layers : List (Layer × Bool)} {ids buffers tickets : Finset UInt64}
    {busy : Bool}
    (h : assessLayers width height lastTicket source attached layers ids buffers tickets busy =
      .ready) :
    busy = false ∧ SceneReady lastTicket source attached (layers.map (·.1)) ∧
      Unused source ids buffers tickets (layers.map (·.1)) := by
  induction layers generalizing ids buffers tickets busy with
  | nil =>
    unfold assessLayers at h
    refine ⟨by cases busy <;> simp_all, ⟨?_, ?_, ?_, ?_⟩, ⟨?_, ?_, ?_⟩⟩ <;> simp
  | cons entry layers ih =>
    obtain ⟨l, hasAcquire⟩ := entry
    unfold assessLayers at h
    split at h
    · cases h
    rename_i hvalid
    obtain ⟨hid, -⟩ := not_or.mp hvalid
    rw [List.map_cons]
    split at h
    · -- a solid layer uses its id only
      rename_i hsolid
      split at h
      · cases h
      obtain ⟨hbusy, hready, hunused⟩ := ih h
      have hnew : ¬ IsNew source l := fun hnew => hnew.1 hsolid
      refine ⟨hbusy, hready.cons hunused ⟨?_, ?_, ?_⟩ (Finset.mem_insert_self _ _) ?_ ?_,
        (hunused.mono (Finset.subset_insert _ _) subset_rfl subset_rfl).cons hid ?_ ?_⟩
      all_goals tauto
    rename_i hbuffer
    split at h
    · cases h
    rename_i b hb
    split at h
    · cases h
    rename_i hfree
    obtain ⟨himported, hunseen⟩ := not_or.mp hfree
    rw [not_not] at himported
    split at h
    · -- the read that the layer already shows
      rename_i hticket
      split at h
      · cases h
      obtain ⟨hbusy, hready, hunused⟩ := ih h
      have hnew : ¬ IsNew source l := by
        rintro ⟨-, b', hb', hne⟩
        rw [hb] at hb'
        exact hne (Option.some.inj hb' ▸ hticket)
      refine ⟨hbusy, hready.cons hunused ⟨fun _ => ⟨b, hb, himported⟩, ?_, ?_⟩
        (Finset.mem_insert_self _ _) (fun _ => Finset.mem_insert_self _ _) ?_,
        (hunused.mono (Finset.subset_insert _ _) (Finset.subset_insert _ _) subset_rfl).cons hid
          (fun _ => hunseen) ?_⟩
      all_goals tauto
    · split at h
      · cases h
      rename_i hticket hfresh
      obtain ⟨hlast, hother⟩ := not_or.mp hfresh
      obtain ⟨hbusy, hready, hunused⟩ := ih h
      obtain ⟨hbusy, hwaits⟩ := Bool.or_eq_false_iff.mp hbusy
      refine ⟨hbusy, hready.cons hunused ⟨fun _ => ⟨b, hb, himported⟩, ?_, ?_⟩
        (Finset.mem_insert_self _ _) (fun _ => Finset.mem_insert_self _ _)
        (fun _ => Finset.mem_insert_self _ _),
        (hunused.mono (Finset.subset_insert _ _) (Finset.subset_insert _ _)
          (Finset.subset_insert _ _)).cons hid (fun _ => hunseen) (fun _ => hother)⟩
      · intro _
        exact UInt64.not_le.mp hlast
      · intro b' _ hb'
        rw [hb] at hb'
        exact Option.some.inj hb' ▸ hwaits

/-- **A ready scene can be attached layer by layer.** -/
theorem assessScene_ready {layers : List (Layer × Bool)} {count : UInt32}
    (h : assessScene width height lastTicket source attached layers count = .ready) :
    SceneReady lastTicket source attached (layers.map (·.1)) := by
  unfold assessScene at h
  split at h
  · cases h
  · exact (assessLayers_ready h).2.1

end Assess

end Droidloom.Layers
