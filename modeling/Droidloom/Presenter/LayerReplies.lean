/-
  Every request of a layer stream is answered once.

  A reply names what it answers by a KEY: its scene, its import attempt, or nothing but "the Ack".
  The keys of the requests that were received are, as a multiset, the keys of the replies that were
  sent and of the requests that are still owed one: pending imports and the parked commit
  (`Balanced`).  Inside a request there is a remainder that is neither sent nor owed yet.

  Replies come from five places, and four of them keep the balance.  The fifth is Abort: it drops
  the parked commit and answers it only if it has a scene number, so a parked LEGACY commit never
  gets its Ack (`abort_drops_reply`).  The balance holds in every run without such an Abort.
-/
import Droidloom.Presenter.ReadLedger

namespace Droidloom.Layers

open Std Fallible SwapRemove Triple

/-- What a reply answers. -/
inductive Key
  | ack
  | attempt (number : UInt64)
  | scene (number : UInt64)
deriving DecidableEq, Repr

/-- The number of the key is not above the last one that was used. -/
def Key.Below (lastScene lastImport : UInt64) : Key → Prop
  | .ack => True
  | .attempt number => number ≤ lastImport
  | .scene number => number ≤ lastScene

def Reply.key : Reply → Option Key
  | .ack _ => some .ack
  | .importResult attempt _ _ => some (.attempt attempt)
  | .commitResult scene _ => some (.scene scene)
  | _ => none

/-- The reply that a request waits for; configuration queries and asynchronous stages wait for
    none of these. -/
def Request.key : Request → Option Key
  | .register _ | .unregister _ | .stage .. | .commit .. | .abort => some .ack
  | .registerAsync attempt _ => some (.attempt attempt)
  | .commitAsync scene .. | .commitBatch scene .. => some (.scene scene)
  | _ => none

def Pending.key (pending : Pending) : Key :=
  pending.attempt.elim .ack .attempt

def PendingCommit.key (commit : PendingCommit) : Key :=
  commit.scene.elim .ack .scene

namespace Stream

def asked (s : Stream) : List Key := s.received.filterMap Request.key

def answered (s : Stream) : List Key := s.sent.filterMap Reply.key

/-- The replies that are still to come. -/
def owed (s : Stream) : List Key :=
  s.imports.map Pending.key ++ s.waiting.toList.map PendingCommit.key

/-- Everything that was asked is answered, owed, or in `rest`. -/
def Balanced (rest : List Key) (s : Stream) : Prop :=
  (s.answered ++ s.owed ++ rest).Perm s.asked

/-! ## Steps that answer nothing -/

/-- Requests, imports, the parked commit and the replies with a key are untouched. -/
structure Mute (s s' : Stream) : Prop where
  answered : s'.answered = s.answered
  imports : s'.imports = s.imports
  waiting : s'.waiting = s.waiting
  received : s'.received = s.received
  lastScene : s'.lastScene = s.lastScene
  lastImport : s'.lastImport = s.lastImport
  connected : s'.connected = s.connected

namespace Mute

variable {s s' s'' : Stream} {rest : List Key}

theorem refl (s : Stream) : Mute s s := ⟨rfl, rfl, rfl, rfl, rfl, rfl, rfl⟩

theorem trans (h : Mute s s') (h' : Mute s' s'') : Mute s s'' :=
  ⟨h'.answered.trans h.answered, h'.imports.trans h.imports, h'.waiting.trans h.waiting,
    h'.received.trans h.received, h'.lastScene.trans h.lastScene,
    h'.lastImport.trans h.lastImport, h'.connected.trans h.connected⟩

theorem balanced (h : Mute s s') (hs : Balanced rest s) : Balanced rest s' := by
  unfold Balanced owed asked at *
  rw [h.answered, h.imports, h.waiting, h.received]
  exact hs

end Mute

section Mutes
variable {s : Stream} {F : PresenterError → Prop}

theorem startRead_mute (l : Layer) (b : Source) :
    Yields (startRead l b) s (fun _ s' => Mute s s') fun _ => True := by
  refine (startRead_spec (fun _ _ => trivial) l b).mono fun _ s' hs' => ?_
  obtain ⟨read, b', -, rfl⟩ := hs'
  exact ⟨rfl, rfl, rfl, rfl, rfl, rfl, rfl⟩

theorem relabelRead_mute (l : Layer) (b : Source) (held : UInt64) :
    Yields (relabelRead l b held) s (fun _ s' => Mute s s') fun _ => True := by
  refine (relabelRead_spec fun _ => trivial).mono fun _ s' hs' => ?_
  obtain ⟨old, -, -, -, rfl⟩ := hs'
  exact ⟨rfl, rfl, rfl, rfl, rfl, rfl, rfl⟩

theorem readLayer_mute (l : Layer) (view : View) :
    Yields (readLayer l view) s (fun _ s' => Mute s s') fun _ => True := by
  refine yields_ite (fun _ => yields_pure (.refl s)) fun _ => yields_get_bind ?_
  refine yields_okOr_bind (fun _ => trivial) fun b _ => ?_
  cases b.ticket with
  | none => exact startRead_mute l b
  | some held =>
    refine yields_ite (fun _ => yields_pure (.refl s)) fun _ => ?_
    exact yields_ite (fun _ => relabelRead_mute l b held) fun _ => startRead_mute l b

theorem attachLayer_mute (logical physical : UInt32 × UInt32) (previous : Option UInt64)
    (l : Layer) :
    Yields (attachLayer logical physical previous l) s (fun _ s' => Mute s s') fun _ => True := by
  refine yields_get_bind ?_
  generalize s.viewForLayer l.id = found
  obtain ⟨view, spareViews⟩ := found
  refine yields_ite (fun _ => yields_set ⟨rfl, rfl, rfl, rfl, rfl, rfl, rfl⟩) fun _ => ?_
  refine yields_bind (readLayer_mute l view) fun _ s' hs' => yields_modify (hs'.trans ?_)
  exact ⟨rfl, rfl, rfl, rfl, rfl, rfl, rfl⟩

theorem attachLayers_mute (logical physical : UInt32 × UInt32) (layers : List Layer)
    (previous : Option UInt64) :
    Yields (attachLayers logical physical previous layers) s (fun _ s' => Mute s s')
      fun _ => True := by
  induction layers generalizing s previous with
  | nil => exact yields_pure (.refl s)
  | cons l layers ih =>
    refine yields_bind (attachLayer_mute logical physical previous l) fun _ s' hs' => ?_
    exact (ih (some l.id)).mono fun _ s'' hs'' => hs'.trans hs''

theorem commitLayers_mute (task : TaskView) (size : UInt32 × UInt32) :
    Yields (commitLayers task size) s (fun _ s' => Mute s s') fun _ => True := by
  refine yields_okOr_bind (fun _ => trivial) fun logical _ => yields_get_bind (yields_set_bind ?_)
  refine yields_bind (attachLayers_mute logical size _ none) fun _ s' hs' => yields_modify ?_
  have hrecycled : Mute s (recycleViews ((s.staged.layers.map (·.1)).map (·.id))
      { s with staged := s.staged.clear }) := ⟨rfl, rfl, rfl, rfl, rfl, rfl, rfl⟩
  exact (hrecycled.trans hs').trans ⟨rfl, rfl, rfl, rfl, rfl, rfl, rfl⟩

theorem sendFences_mute (read : Read) (s : Stream) : Mute s (sendFences read s) := by
  refine ⟨?_, rfl, rfl, rfl, rfl, rfl, rfl⟩
  simp only [answered, sendFences, List.filterMap_append, List.append_right_eq_self,
    List.filterMap_eq_nil_iff]
  intro reply hreply
  obtain ⟨r, -, rfl⟩ := List.mem_map.mp hreply
  rfl

theorem complete_mute (index : Nat) (read : Read) (signalled : UInt64) (s : Stream) :
    Mute s (complete index read signalled s) := by
  refine ⟨?_, rfl, rfl, rfl, rfl, rfl, rfl⟩
  simp [answered, complete, Reply.key]

theorem round_mute {kernel : Kernel} {index next : Nat} {s' : Stream}
    (hround : Round kernel index s next s') : Mute s s' := by
  have hfence : ∀ {read : Read} {s₁ : Stream},
      s₁ = s ∨ s₁ = sendFences read s ∧ s.connected = true → Mute s s₁ := by
    rintro read s₁ (rfl | ⟨rfl, -⟩)
    · exact .refl _
    · exact sendFences_mute read s
  cases hround with
  | stays _ hs₁ _ => exact hfence hs₁
  | ends _ hs₁ _ => exact (hfence hs₁).trans (complete_mute _ _ _ _)

theorem release_mute (kernel : Nat → Kernel) :
    Yields (release kernel) s (fun _ s' => Mute s s') fun _ => True := by
  refine yields_get_bind ?_
  generalize s.reads.length = n
  generalize 0 = index
  induction n generalizing s index with
  | zero => exact yields_pure (.refl s)
  | succ n ih =>
    refine yields_bind (releaseOne_spec (fun _ _ => trivial) (kernel n) index) fun next s' hs' => ?_
    exact (ih next).mono fun _ s'' hs'' => (round_mute hs').trans hs''

end Mutes

/-! ## Answering -/

/-- Neither requests nor imports are touched, nor the numbers that they have used. -/
structure Still (s s' : Stream) : Prop where
  imports : s'.imports = s.imports
  received : s'.received = s.received
  lastScene : s'.lastScene = s.lastScene
  lastImport : s'.lastImport = s.lastImport
  connected : s'.connected = s.connected

theorem Still.trans {s s' s'' : Stream} (h : Still s s') (h' : Still s' s'') : Still s s'' :=
  ⟨h'.imports.trans h.imports, h'.received.trans h.received, h'.lastScene.trans h.lastScene,
    h'.lastImport.trans h.lastImport, h'.connected.trans h.connected⟩

theorem Mute.still {s s' : Stream} (h : Mute s s') : Still s s' :=
  ⟨h.imports, h.received, h.lastScene, h.lastImport, h.connected⟩

section Answers
variable {s : Stream} {rest : List Key}

/-- One reply settles one key of the rest. -/
theorem Balanced.send {reply : Reply} {key : Key} (h : Balanced (key :: rest) s)
    (hkey : reply.key = some key) : Balanced rest { s with sent := s.sent ++ [reply] } := by
  unfold Balanced at h ⊢
  have hanswered : answered { s with sent := s.sent ++ [reply] } = s.answered ++ [key] := by
    simp [answered, hkey]
  rw [hanswered]
  refine List.Perm.trans ?_ h
  rw [List.append_assoc, List.append_assoc, List.append_assoc, List.singleton_append]
  refine List.Perm.append_left _ ?_
  exact List.perm_middle.symm

theorem yields_answer {reply : Reply} {key : Key} (h : Balanced (key :: rest) s)
    (hkey : reply.key = some key) :
    Yields (send reply) s (fun _ s' => Balanced rest s' ∧ Still s s' ∧ s'.waiting = s.waiting)
      fun _ => True :=
  yields_modify ⟨h.send hkey, ⟨rfl, rfl, rfl, rfl, rfl⟩, rfl⟩

theorem send_mute {reply : Reply} (hkey : reply.key = none) :
    Yields (send reply) s (fun _ s' => Mute s s') fun _ => True := by
  refine yields_modify ⟨?_, rfl, rfl, rfl, rfl, rfl, rfl⟩
  simp [answered, hkey]

theorem answerImport_balanced {attempt : Option UInt64} (buffer : UInt64) (code : Int)
    (h : Balanced (attempt.elim .ack .attempt :: rest) s) :
    Yields (answerImport attempt buffer code) s
      (fun _ s' => Balanced rest s' ∧ Still s s' ∧ s'.waiting = s.waiting) fun _ => True := by
  cases attempt <;> exact yields_answer h rfl

theorem answerCommit_balanced {commit : PendingCommit} (code : Int)
    (h : Balanced (commit.key :: rest) s) :
    Yields (answerCommit commit.scene code) s
      (fun _ s' => Balanced rest s' ∧ Still s s' ∧ s'.waiting = s.waiting) fun _ => True := by
  unfold PendingCommit.key at h
  cases hscene : commit.scene <;> rw [hscene] at h <;> exact yields_answer h rfl

/-- A commit that is taken out of its place is to be answered. -/
theorem Balanced.take {commit : PendingCommit} (h : Balanced rest s)
    (hwaiting : s.waiting = some commit) :
    Balanced (commit.key :: rest) { s with waiting := none } := by
  unfold Balanced owed answered asked at *
  rw [hwaiting] at h
  refine List.Perm.trans ?_ h
  simp only [Option.toList_none, List.map_nil, List.append_nil, Option.toList_some, List.map_cons,
    List.append_assoc, List.singleton_append]
  exact .refl _

/-- A commit that is parked is owed its reply. -/
theorem Balanced.park {commit : PendingCommit} (h : Balanced (commit.key :: rest) s)
    (hwaiting : s.waiting = none) : Balanced rest { s with waiting := some commit } := by
  unfold Balanced owed answered asked at *
  rw [hwaiting] at h
  refine List.Perm.trans ?_ h
  simp only [Option.toList_none, List.map_nil, List.append_nil, Option.toList_some, List.map_cons,
    List.append_assoc, List.singleton_append]
  exact .refl _

theorem submitLayerScene_balanced (task : TaskView) {commit : PendingCommit}
    (h : Balanced (commit.key :: rest) s) (hwaiting : s.waiting = none) :
    Yields (submitLayerScene task commit) s (fun _ s' => Balanced rest s' ∧ Still s s')
      fun _ => True := by
  have hpark : Yields (park commit) s (fun _ s' => Balanced rest s' ∧ Still s s') fun _ => True :=
    yields_modify ⟨h.park hwaiting, rfl, rfl, rfl, rfl, rfl⟩
  refine yields_get_bind (yields_ite (fun _ => hpark) fun _ => yields_ite (fun _ => ?_) fun _ =>
    yields_ite (fun _ => hpark) fun _ => yields_ite (fun _ => hpark) fun _ => ?_)
  · refine yields_set_bind ((answerCommit_balanced (-95) ?_).mono fun _ s' hs' =>
      ⟨hs'.1, hs'.2.1.imports, hs'.2.1.received, hs'.2.1.lastScene, hs'.2.1.lastImport,
        hs'.2.1.connected⟩)
    exact Mute.balanced ⟨rfl, rfl, rfl, rfl, rfl, rfl, rfl⟩ h
  · refine yields_bind (commitLayers_mute task _) fun _ s' hs' => ?_
    refine (answerCommit_balanced 0 (hs'.balanced h)).mono fun _ s'' hs'' => ?_
    exact ⟨hs''.1, hs'.still.trans hs''.2.1⟩

theorem abortTimelineWait_balanced (h : Balanced rest s) :
    Yields abortTimelineWait s (fun _ s' => Balanced rest s' ∧ Still s s' ∧ s'.waiting = none)
      fun _ => True := by
  refine yields_get_bind ?_
  cases hwaiting : s.waiting with
  | none => exact yields_pure ⟨h, ⟨rfl, rfl, rfl, rfl, rfl⟩, hwaiting⟩
  | some commit =>
    have htaken : Balanced (commit.key :: rest)
        { s with waiting := none, staged := s.staged.clear } :=
      Mute.balanced ⟨rfl, rfl, rfl, rfl, rfl, rfl, rfl⟩ (h.take hwaiting)
    refine yields_set_bind ((answerCommit_balanced (-11) htaken).mono fun _ s' hs' => ?_)
    exact ⟨hs'.1, ⟨hs'.2.1.imports, hs'.2.1.received, hs'.2.1.lastScene, hs'.2.1.lastImport,
      hs'.2.1.connected⟩, hs'.2.2⟩

/-- Abort answers a parked commit that has a number. -/
theorem abort_balanced (h : Balanced (.ack :: rest) s)
    (hnumbered : ∀ commit, s.waiting = some commit → commit.scene ≠ none) :
    Yields abort s (fun _ s' => Balanced rest s' ∧ Still s s') fun _ => True := by
  have hcleared : ∀ {rest : List Key}, Balanced rest { s with waiting := none } →
      Balanced rest { s with staged := s.staged.clear, waiting := none } :=
    Mute.balanced ⟨rfl, rfl, rfl, rfl, rfl, rfl, rfl⟩
  refine yields_get_bind (yields_set_bind ?_)
  cases hwaiting : s.waiting with
  | none =>
    have hnone : Balanced (.ack :: rest) { s with waiting := none } :=
      Mute.balanced (s := s) ⟨rfl, rfl, hwaiting.symm, rfl, rfl, rfl, rfl⟩ h
    exact (yields_answer (hcleared hnone) rfl).mono fun _ s' hs' =>
      ⟨hs'.1, hs'.2.1.imports, hs'.2.1.received, hs'.2.1.lastScene, hs'.2.1.lastImport,
        hs'.2.1.connected⟩
  | some commit =>
    have htaken := h.take hwaiting
    cases hscene : commit.scene with
    | none => exact absurd hscene (hnumbered commit hwaiting)
    | some scene =>
      rw [PendingCommit.key, hscene] at htaken
      simp only [Option.bind_some, hscene]
      refine yields_bind (yields_answer (hcleared htaken) rfl) fun _ s' hs' => ?_
      refine (yields_answer hs'.1 rfl).mono fun _ s'' hs'' => ⟨hs''.1, ?_⟩
      have hstill := hs'.2.1.trans hs''.2.1
      exact ⟨hstill.imports, hstill.received, hstill.lastScene, hstill.lastImport,
        hstill.connected⟩

end Answers

/-! ## Requests -/

/-- Only one Ack is owed at a time: a legacy import stops the requests, and a parked commit stops
    everything that could be owed an Ack. -/
structure Alone (s : Stream) : Prop where
  blocked : s.importsBlocked = true → s.waiting = none
  single : s.imports.countP (·.attempt.isNone) ≤ 1

theorem Alone.of_unblocked {s : Stream} (h : s.importsBlocked = false) : Alone s := by
  refine ⟨fun hblocked => ?_, ?_⟩
  · rw [h] at hblocked
    cases hblocked
  · rw [importsBlocked, ← Bool.not_eq_true, List.any_eq_true] at h
    rw [List.countP_eq_zero.mpr fun p hp hnone => h ⟨p, hp, hnone⟩]
    exact Nat.zero_le _

section Requests
variable {s : Stream}

theorem register_balanced (supported : Bool) (metadata : Buffer) {attempt : Option UInt64}
    (h : Balanced [attempt.elim .ack .attempt] s) (hblocked : s.importsBlocked = false)
    (hwaiting : s.waiting = none) :
    Yields (register supported metadata attempt) s (fun _ s' => Balanced [] s' ∧ Alone s' ∧
      s'.received = s.received ∧ s'.lastScene = s.lastScene ∧ s'.lastImport = s.lastImport ∧
      s'.connected = s.connected) fun _ => True := by
  refine yields_get_bind (yields_ite (fun _ => ?_) fun _ => ?_)
  · refine (answerImport_balanced metadata.id (-95) h).mono fun _ s' hs' => ?_
    obtain ⟨hbalanced, hstill, -⟩ := hs'
    refine ⟨hbalanced, .of_unblocked ?_, hstill.received, hstill.lastScene, hstill.lastImport,
      hstill.connected⟩
    rw [importsBlocked, hstill.imports]
    exact hblocked
  · refine yields_rejectIf_bind (fun _ => trivial) fun _ => yields_set ⟨?_, ⟨fun _ => hwaiting, ?_⟩,
      rfl, rfl, rfl, rfl⟩
    · unfold Balanced owed answered asked at *
      refine List.Perm.trans ?_ h
      simp [hwaiting, Pending.key]
    · have hnone : s.imports.countP (·.attempt.isNone) = 0 := by
        rw [List.countP_eq_zero]
        intro p hp hlegacy
        have : s.importsBlocked = true := List.any_eq_true.mpr ⟨p, hp, hlegacy⟩
        rw [hblocked] at this
        cases this
      rw [List.countP_append, hnone, Nat.zero_add]
      exact List.countP_le_length

theorem still_alone {s' : Stream} (hstill : Still s s') (hblocked : s.importsBlocked = false) :
    Alone s' := by
  refine .of_unblocked ?_
  rw [importsBlocked, hstill.imports]
  exact hblocked

theorem refresh_mute (current : List UInt32) :
    Yields (refresh current) s (fun _ s' => Mute s s') fun _ => True := by
  refine yields_get_bind (yields_ite (fun _ => yields_pure (.refl s)) fun _ => ?_)
  refine yields_okOr_bind (fun _ => trivial) fun revision _ => ?_
  exact yields_set_bind (yields_pure ⟨rfl, rfl, rfl, rfl, rfl, rfl, rfl⟩)

theorem subscribe_mute (current : List UInt32) :
    Yields (subscribe current) s (fun _ s' => Mute s s') fun _ => True := by
  refine yields_bind (refresh_mute current) fun _ s' hs' => yields_get_bind (yields_set_bind ?_)
  refine Yields.mono (send_mute (by rfl)) fun _ s'' hs'' => hs'.trans ?_
  exact ⟨hs''.answered, hs''.imports, hs''.waiting, hs''.received, hs''.lastScene, hs''.lastImport,
    hs''.connected⟩

theorem publishConfig_mute (current : List UInt32) :
    Yields (publishConfig current) s (fun _ s' => Mute s s') fun _ => True := by
  refine yields_bind (refresh_mute current) fun _ s' hs' => yields_get_bind ?_
  refine yields_ite (fun _ => ?_) fun _ => yields_pure hs'
  exact Yields.mono (send_mute (by rfl)) fun _ s'' hs'' => hs'.trans hs''

/-- Every request is answered or owed its reply, Abort of a parked legacy commit excepted. -/
theorem perform_balanced (task : TaskView) (supported : Bool) (request : Request)
    (h : Balanced request.key.toList s) (hblocked : s.importsBlocked = false)
    (hwaiting : Request.waits request = true → s.waiting = none)
    (hnumbered : request = .abort → ∀ commit, s.waiting = some commit → commit.scene ≠ none) :
    Yields (perform task supported request) s (fun _ s' => Balanced [] s' ∧ Alone s' ∧
      s'.received = s.received ∧ s'.lastScene = s.lastScene ∧ s'.lastImport = s.lastImport ∧
      s'.connected = s.connected) fun _ => True := by
  have hstill : ∀ {x : Method Unit}, Yields x s (fun _ s' => Balanced [] s' ∧ Still s s')
      (fun _ => True) → Yields x s (fun _ s' => Balanced [] s' ∧ Alone s' ∧
        s'.received = s.received ∧ s'.lastScene = s.lastScene ∧ s'.lastImport = s.lastImport ∧
        s'.connected = s.connected) fun _ => True := by
    intro x hx
    refine hx.mono fun _ s' hs' => ?_
    exact ⟨hs'.1, still_alone hs'.2 hblocked, hs'.2.received, hs'.2.lastScene, hs'.2.lastImport,
      hs'.2.connected⟩
  have hmute : request.key = none → ∀ {x : Method Unit},
      Yields x s (fun _ s' => Mute s s') (fun _ => True) →
      Yields x s (fun _ s' => Balanced [] s' ∧ Still s s') fun _ => True := by
    intro hkey x hx
    rw [hkey] at h
    exact hx.mono fun _ s' hs' => ⟨hs'.balanced h, hs'.still⟩
  cases request with
  | config => exact hstill (hmute rfl (send_mute rfl))
  | subscribeConfig => exact hstill (hmute rfl (subscribe_mute _))
  | register metadata => exact register_balanced supported metadata h hblocked (hwaiting rfl)
  | registerAsync attempt metadata =>
    exact register_balanced supported metadata h hblocked (hwaiting rfl)
  | unregister id =>
    refine hstill (yields_get_bind (yields_ite (fun _ => ?_) fun _ => yields_set_bind ?_))
    · exact (yields_answer h rfl).mono fun _ s' hs' => ⟨hs'.1, hs'.2.1⟩
    · have herased : Balanced [.ack] { s with buffers := s.buffers.erase id } :=
        Mute.balanced ⟨rfl, rfl, rfl, rfl, rfl, rfl, rfl⟩ h
      exact (yields_answer herased rfl).mono fun _ s' hs' =>
        ⟨hs'.1, hs'.2.1.imports, hs'.2.1.received, hs'.2.1.lastScene, hs'.2.1.lastImport,
          hs'.2.1.connected⟩
  | stage layer acquire =>
    refine hstill (yields_get_bind ?_)
    generalize s.staged.push layer acquire = pushed
    obtain ⟨accepted, staged⟩ := pushed
    have hstaged : Balanced [.ack] { s with staged } :=
      Mute.balanced ⟨rfl, rfl, rfl, rfl, rfl, rfl, rfl⟩ h
    exact yields_set_bind ((yields_answer hstaged rfl).mono fun _ s' hs' =>
      ⟨hs'.1, hs'.2.1.imports, hs'.2.1.received, hs'.2.1.lastScene, hs'.2.1.lastImport,
        hs'.2.1.connected⟩)
  | stageAsync layer acquire =>
    exact hstill (hmute rfl (yields_modify ⟨rfl, rfl, rfl, rfl, rfl, rfl, rfl⟩))
  | stageBatch layers fences =>
    exact hstill (hmute rfl (yields_modify ⟨rfl, rfl, rfl, rfl, rfl, rfl, rfl⟩))
  | commitBatch scene serial width height count layers fences =>
    have hbatch : Balanced [PendingCommit.key ⟨some scene, serial, width, height, count⟩]
        { s with staged := stageBatch layers (List.range fences) s.staged } :=
      Mute.balanced (s := s) ⟨rfl, rfl, rfl, rfl, rfl, rfl, rfl⟩ h
    refine hstill (yields_modify_bind ((submitLayerScene_balanced task hbatch
      (hwaiting rfl)).mono fun _ s' hs' => ?_))
    exact ⟨hs'.1, hs'.2.imports, hs'.2.received, hs'.2.lastScene, hs'.2.lastImport,
      hs'.2.connected⟩
  | commit serial width height count =>
    exact hstill (submitLayerScene_balanced task h (hwaiting rfl))
  | commitAsync scene serial width height count =>
    exact hstill (submitLayerScene_balanced task h (hwaiting rfl))
  | abort => exact hstill (abort_balanced h (hnumbered rfl))

end Requests

/-! ## Numbers are used once -/

/-- A scene or attempt number is asked for once, so its reply can only be for that request. -/
structure Numbered (asked : List Key) (lastScene lastImport : UInt64) : Prop where
  below : ∀ key ∈ asked, key.Below lastScene lastImport
  once : ∀ key, key ≠ .ack → asked.count key ≤ 1

section Numbers
variable {asked : List Key} {lastScene lastScene' lastImport lastImport' : UInt64}

theorem Numbered.push (h : Numbered asked lastScene lastImport) (hscene : lastScene ≤ lastScene')
    (himport : lastImport ≤ lastImport') {new : Option Key}
    (hbelow : ∀ key ∈ new, key.Below lastScene' lastImport')
    (hfresh : ∀ key ∈ new, key ≠ .ack → ¬ key.Below lastScene lastImport) :
    Numbered (asked ++ new.toList) lastScene' lastImport' := by
  refine ⟨fun key hkey => ?_, fun key hack => ?_⟩
  · rw [List.mem_append, Option.mem_toList] at hkey
    rcases hkey with hkey | hkey
    · have hold := h.below key hkey
      cases key with
      | ack => trivial
      | attempt number => exact UInt64.le_trans hold himport
      | scene number => exact UInt64.le_trans hold hscene
    · exact hbelow key hkey
  · rw [List.count_append]
    by_cases hnew : key ∈ new
    · have hunused : key ∉ asked := fun hmem => hfresh key hnew hack (h.below key hmem)
      rw [List.count_eq_zero.mpr hunused, Nat.zero_add]
      exact List.count_le_length.trans (by cases new <;> simp)
    · have hother : key ∉ new.toList := by rwa [Option.mem_toList]
      rw [List.count_eq_zero.mpr hother]
      exact h.once key hack

/-- A request whose number was used before never gets this far. -/
theorem claimIdentity_numbered {s : Stream} {request : Request}
    (h : Numbered s.asked s.lastScene s.lastImport) :
    Yields (claimIdentity request) { s with received := s.received ++ [request] }
      (fun _ s' => Numbered s'.asked s'.lastScene s'.lastImport ∧ s'.answered = s.answered ∧
        s'.imports = s.imports ∧ s'.waiting = s.waiting ∧ s'.connected = s.connected ∧
        s'.asked = s.asked ++ request.key.toList) fun _ => True := by
  have hasked : Stream.asked { s with received := s.received ++ [request] } =
      s.asked ++ request.key.toList := by
    unfold Stream.asked
    rw [List.filterMap_append]
    cases hkey : request.key <;> simp [hkey]
  have hsame : request.key = none ∨ request.key = some .ack →
      Yields (pure () : Method Unit) { s with received := s.received ++ [request] }
        (fun _ s' => Numbered s'.asked s'.lastScene s'.lastImport ∧ s'.answered = s.answered ∧
          s'.imports = s.imports ∧ s'.waiting = s.waiting ∧ s'.connected = s.connected ∧
          s'.asked = s.asked ++ request.key.toList) fun _ => True := by
    intro hkey
    refine yields_pure ⟨?_, rfl, rfl, rfl, rfl, hasked⟩
    rw [hasked]
    refine h.push (UInt64.le_refl _) (UInt64.le_refl _) (fun key hmem => ?_) fun key hmem hack => ?_
    all_goals rcases hkey with hkey | hkey <;> rw [hkey] at hmem <;> cases hmem
    · trivial
    · exact absurd rfl hack
  have hscene : ∀ scene, request.key = some (.scene scene) → ¬ scene ≤ s.lastScene →
      Numbered (s.asked ++ request.key.toList) scene s.lastImport := by
    intro scene hkey hlast
    refine h.push (UInt64.le_of_lt (UInt64.not_le.mp hlast)) (UInt64.le_refl _) ?_ ?_ <;>
      rw [hkey] <;> rintro key ⟨⟩
    · exact UInt64.le_refl _
    · exact fun _ => hlast
  have himport : ∀ attempt, request.key = some (.attempt attempt) → ¬ attempt ≤ s.lastImport →
      Numbered (s.asked ++ request.key.toList) s.lastScene attempt := by
    intro attempt hkey hlast
    refine h.push (UInt64.le_refl _) (UInt64.le_of_lt (UInt64.not_le.mp hlast)) ?_ ?_ <;>
      rw [hkey] <;> rintro key ⟨⟩
    · exact UInt64.le_refl _
    · exact fun _ => hlast
  refine yields_get_bind ?_
  cases request with
  | commitAsync scene serial width height count =>
    refine yields_rejectIf_bind (fun _ => trivial) fun hlast => yields_set ?_
    exact ⟨hasked ▸ hscene scene rfl hlast, rfl, rfl, rfl, rfl, hasked⟩
  | commitBatch scene serial width height count layers fences =>
    refine yields_rejectIf_bind (fun _ => trivial) fun hlast => yields_set ?_
    exact ⟨hasked ▸ hscene scene rfl hlast, rfl, rfl, rfl, rfl, hasked⟩
  | registerAsync attempt metadata =>
    refine yields_rejectIf_bind (fun _ => trivial) fun hlast => yields_set ?_
    exact ⟨hasked ▸ himport attempt rfl hlast, rfl, rfl, rfl, rfl, hasked⟩
  | config | subscribeConfig | stageAsync | stageBatch => exact hsame (.inl rfl)
  | register | unregister | stage | commit | abort => exact hsame (.inr rfl)

end Numbers

/-! ## Runs -/

/-- The accounts of a connected stream, between two steps. -/
structure Accounted (s : Stream) : Prop where
  balanced : Balanced [] s
  alone : Alone s
  numbered : Numbered s.asked s.lastScene s.lastImport

/-- A stream whose peer is gone owes no commit. -/
structure Accounts (s : Stream) : Prop where
  connected : s.connected = true → Accounted s
  closed : s.connected = false → s.waiting = none

section Steps
variable {s s' : Stream}

theorem Accounted.mute (h : Accounted s) (hs : Mute s s') : Accounted s' := by
  refine ⟨hs.balanced h.balanced, ⟨fun hblocked => ?_, ?_⟩, ?_⟩
  · rw [importsBlocked, hs.imports] at hblocked
    rw [hs.waiting]
    exact h.alone.blocked hblocked
  · rw [hs.imports]
    exact h.alone.single
  · rw [asked, hs.received, hs.lastScene, hs.lastImport]
    exact h.numbered

theorem Accounts.mute (h : Accounts s) (hs : Mute s s') : Accounts s' := by
  refine ⟨fun hconnected => (h.connected ?_).mute hs, fun hclosed => ?_⟩
  · rwa [hs.connected] at hconnected
  · rw [hs.connected] at hclosed
    rw [hs.waiting]
    exact h.closed hclosed

theorem Accounted.accounts (h : Accounted s) (hconnected : s.connected = true) : Accounts s := by
  refine ⟨fun _ => h, fun hclosed => ?_⟩
  rw [hconnected] at hclosed
  cases hclosed

/-- The event is an Abort that finds a parked commit without a scene number. -/
def dropsReply (s : Stream) : Event → Bool
  | .request .abort _ _ => s.connected && !s.importsBlocked && s.waiting.any (·.scene.isNone)
  | _ => false

theorem receive_accounts (task : TaskView) (supported : Bool) (request : Request)
    (h : Accounts s) (hkept : dropsReply s (.request request task supported) = false) :
    Yields (receive task supported request) s (fun _ s' => Accounts s') fun _ => True := by
  refine yields_get_bind (yields_ite (fun hopen => ?_) fun _ => yields_pure h)
  obtain ⟨hconnected, hblocked⟩ := hopen
  rw [Bool.not_eq_true] at hblocked
  have hs := h.connected hconnected
  refine yields_set_bind (yields_get_bind (yields_rejectIf_bind (fun _ => trivial) fun hwaits => ?_))
  refine yields_bind (claimIdentity_numbered hs.numbered) fun _ s₁ hs₁ => ?_
  obtain ⟨hnumbered, hanswered, himports, hwaiting, hconnected₁, hasked⟩ := hs₁
  have hbalanced : Balanced request.key.toList s₁ := by
    unfold Balanced owed
    rw [hanswered, himports, hwaiting, hasked]
    have hold := hs.balanced
    rw [Balanced, List.append_nil] at hold
    exact hold.append_right _
  have hblocked₁ : s₁.importsBlocked = false := by
    rw [importsBlocked, himports]
    exact hblocked
  have hfree : Request.waits request = true → s₁.waiting = none := by
    intro hrequest
    rw [hwaiting]
    by_contra hsome
    exact hwaits ⟨Option.ne_none_iff_isSome.mp hsome, hrequest⟩
  have hscene : request = .abort → ∀ commit, s₁.waiting = some commit → commit.scene ≠ none := by
    rintro rfl commit hcommit hnone
    rw [hwaiting] at hcommit
    simp [dropsReply, hconnected, hblocked, hcommit, hnone] at hkept
  refine (perform_balanced task supported request hbalanced hblocked₁ hfree hscene).mono
    fun _ s₂ hs₂ => ?_
  obtain ⟨hbalanced₂, halone, hreceived, hlastScene, hlastImport, hconnected₂⟩ := hs₂
  refine Accounted.accounts ⟨hbalanced₂, halone, ?_⟩ ?_
  · rw [asked, hreceived, hlastScene, hlastImport]
    exact hnumbered
  · rw [hconnected₂, hconnected₁, hconnected]

/-- A parked commit is tried again: it is answered, or parked again. -/
theorem drainReleases_accounts (kernel : Nat → Kernel) (task : TaskView) (h : Accounts s) :
    Yields (drainReleases kernel task) s (fun _ s' => Accounts s') fun _ => True := by
  refine yields_bind (release_mute kernel) fun _ s₁ hs₁ => yields_get_bind ?_
  have h₁ := h.mute hs₁
  cases hwaiting : s₁.waiting with
  | none => exact yields_pure h₁
  | some commit =>
    have hconnected : s₁.connected = true := by
      by_contra hclosed
      rw [h₁.closed (Bool.eq_false_of_not_eq_true hclosed)] at hwaiting
      cases hwaiting
    have hs := h₁.connected hconnected
    have hblocked : s₁.importsBlocked = false := by
      by_contra hblocked
      rw [hs.alone.blocked (Bool.eq_true_of_not_eq_false hblocked)] at hwaiting
      cases hwaiting
    refine yields_set_bind ((submitLayerScene_balanced task (hs.balanced.take hwaiting) rfl).mono
      fun _ s₂ hs₂ => ?_)
    obtain ⟨hbalanced, himports, hreceived, hlastScene, hlastImport, hconnected₂⟩ := hs₂
    refine Accounted.accounts ⟨hbalanced, .of_unblocked ?_, ?_⟩ (hconnected₂.trans hconnected)
    · rw [importsBlocked, himports]
      exact hblocked
    · rw [asked, hreceived, hlastScene, hlastImport]
      exact hs.numbered

/-- An import that is taken out of the list is to be answered. -/
theorem Balanced.imported {pending : Pending} {imports : List Pending} (h : Balanced [] s)
    (hperm : (pending :: imports).Perm s.imports) :
    Balanced [pending.key] { s with imports } := by
  unfold Balanced at h ⊢
  refine List.Perm.trans ?_ h
  have hkeys : (imports.map Pending.key ++ [pending.key]).Perm (s.imports.map Pending.key) :=
    (List.perm_append_singleton _ _).trans (hperm.map Pending.key)
  have howed : (imports.map Pending.key ++ s.waiting.toList.map PendingCommit.key ++
      [pending.key]).Perm s.owed := by
    rw [List.append_assoc]
    refine (List.perm_append_comm.append_left _).trans ?_
    rw [← List.append_assoc]
    exact hkeys.append_right _
  rw [List.append_nil, List.append_assoc]
  exact howed.append_left _

theorem Alone.imported {pending : Pending} {imports : List Pending} (h : Alone s)
    (hperm : (pending :: imports).Perm s.imports) : Alone { s with imports } := by
  refine ⟨fun hblocked => h.blocked ?_, ?_⟩
  · obtain ⟨p, hp, hlegacy⟩ := List.any_eq_true.mp hblocked
    exact List.any_eq_true.mpr ⟨p, hperm.subset (List.mem_cons_of_mem _ hp), hlegacy⟩
  · have hcount := h.single
    rw [← hperm.countP_eq, List.countP_cons] at hcount
    exact Nat.le_of_add_right_le hcount

theorem layerImported_accounts (params : Nat) (success : Bool) (h : Accounts s) :
    Yields (layerImported params success) s (fun _ s' => Accounts s') fun _ => True := by
  refine yields_get_bind ?_
  cases hfind : s.imports.find? (·.params = params) with
  | none => exact yields_pure h
  | some pending =>
    have hperm : (pending :: swapRemove s.imports (s.imports.idxOf pending)).Perm s.imports :=
      swapRemove_perm (List.getElem?_idxOf (List.mem_of_find?_eq_some hfind))
    refine yields_rejectIf_bind (fun _ => trivial) fun _ => yields_set_bind (yields_ite
      (fun hconnected => ?_) fun hclosed => yields_pure ?_)
    · have hs := h.connected hconnected
      refine Yields.mono (answerImport_balanced pending.buffer _ (Mute.balanced (s := { s with
        imports := swapRemove s.imports (s.imports.idxOf pending) })
        ?_ (hs.balanced.imported hperm))) fun _ s' hs' => ?_
      · exact ⟨rfl, rfl, rfl, rfl, rfl, rfl, rfl⟩
      obtain ⟨hbalanced, hstill, hwaiting⟩ := hs'
      have halone := hs.alone.imported hperm
      refine Accounted.accounts ⟨hbalanced, ⟨fun hblocked => ?_, ?_⟩, ?_⟩
        (hstill.connected.trans hconnected)
      · rw [importsBlocked, hstill.imports] at hblocked
        rw [hwaiting]
        exact halone.blocked hblocked
      · rw [hstill.imports]
        exact halone.single
      · rw [asked, hstill.received, hstill.lastScene, hstill.lastImport]
        exact hs.numbered
    · exact ⟨fun hconnected => absurd hconnected hclosed, h.closed⟩

theorem abortTimelineWait_accounts (h : Accounts s) :
    Yields abortTimelineWait s (fun _ s' => Accounts s') fun _ => True := by
  by_cases hconnected : s.connected = true
  · have hs := h.connected hconnected
    refine (abortTimelineWait_balanced hs.balanced).mono fun _ s' hs' => ?_
    obtain ⟨hbalanced, hstill, hwaiting⟩ := hs'
    refine Accounted.accounts ⟨hbalanced, ⟨fun _ => hwaiting, ?_⟩, ?_⟩
      (hstill.connected.trans hconnected)
    · rw [hstill.imports]
      exact hs.alone.single
    · rw [asked, hstill.received, hstill.lastScene, hstill.lastImport]
      exact hs.numbered
  · have hnone := h.closed (Bool.eq_false_of_not_eq_true hconnected)
    refine yields_get_bind ?_
    rw [hnone]
    exact yields_pure h

theorem hide_mute (s : Stream) : Mute s s.hide := by
  unfold hide
  split
  · exact ⟨rfl, rfl, rfl, rfl, rfl, rfl, rfl⟩
  · exact .refl s

theorem peerClosed_accounts (s : Stream) : Accounts s.peerClosed := by
  have hmute := hide_mute { s with connected := false, waiting := none, staged := s.staged.clear }
  refine ⟨fun hconnected => ?_, fun _ => hmute.waiting⟩
  have hclosed : s.peerClosed.connected = false := hmute.connected
  rw [hclosed] at hconnected
  cases hconnected

theorem step_accounts {event : Event} (h : Accounts s) (hkept : dropsReply s event = false) :
    Yields (step event) s (fun _ s' => Accounts s') fun _ => True := by
  cases event with
  | request request task supported => exact receive_accounts task supported request h hkept
  | peerClosed => exact yields_modify (peerClosed_accounts s)
  | releases kernel task => exact drainReleases_accounts kernel task h
  | imported params success => exact layerImported_accounts params success h
  | hide => exact yields_modify (h.mute (hide_mute s))
  | abortWait => exact abortTimelineWait_accounts h
  | publish task =>
    refine yields_get_bind (yields_ite (fun _ => ?_) fun _ => yields_pure h)
    exact (publishConfig_mute _).mono fun _ s' hs' => h.mute hs'

/-- No event of the run is an Abort that drops a reply. -/
def dropsNothing : List Event → Stream → Bool
  | [], _ => true
  | event :: events, s => !dropsReply s event &&
    match step event s with
    | .ok _ s' => dropsNothing events s'
    | .error .. => true

theorem run_accounts {events : List Event} (h : Accounts s) (hkept : dropsNothing events s = true) :
    Yields (run events) s (fun _ s' => Accounts s') fun _ => True := by
  induction events generalizing s with
  | nil => exact yields_pure h
  | cons event events ih =>
    rw [dropsNothing, Bool.and_eq_true, Bool.not_eq_true'] at hkept
    obtain ⟨hevent, hevents⟩ := hkept
    refine yields_bind ((step_accounts h hevent).and (yields_result _ _)) fun _ s' hs' => ?_
    rw [hs'.2] at hevents
    exact ih hs'.1 hevents

end Steps

/-- Every request has its reply, or is owed it. -/
structure AnsweredOnce (s : Stream) : Prop where
  /-- As many Acks as requests for one; a result for each scene and for each attempt. -/
  replies : (s.answered ++ s.owed).Perm s.asked
  /-- No two requests have the same number, so no reply could be for another one. -/
  numbers : ∀ key, key ≠ .ack → s.asked.count key ≤ 1
  /-- Acks do not overtake each other: at most one is to come. -/
  acks : s.owed.count .ack ≤ 1

theorem Accounted.answeredOnce {s : Stream} (h : Accounted s) : AnsweredOnce s := by
  have hreplies := h.balanced
  rw [Balanced, List.append_nil] at hreplies
  refine ⟨hreplies, h.numbered.once, ?_⟩
  have himports : (s.imports.map Pending.key).count .ack =
      s.imports.countP (·.attempt.isNone) := by
    rw [List.count, List.countP_map]
    congr 1
    funext pending
    cases hattempt : pending.attempt <;> simp [Pending.key, hattempt]
  rw [owed, List.count_append, himports]
  by_cases hblocked : s.importsBlocked = true
  · rw [h.alone.blocked hblocked]
    simpa using h.alone.single
  · rw [importsBlocked, List.any_eq_true] at hblocked
    rw [List.countP_eq_zero.mpr fun p hp hlegacy => hblocked ⟨p, hp, hlegacy⟩, Nat.zero_add]
    refine List.count_le_length.trans ?_
    cases s.waiting <;> simp

/-- **Every request is answered once**, in every run in which no Abort drops a parked legacy
    commit: as long as the peer is connected, what was asked is answered or owed. -/
theorem answered_exactly_once {events : List Event} (hkept : dropsNothing events {} = true)
    {s : Stream} (hrun : run events {} = .ok () s) (hconnected : s.connected = true) :
    AnsweredOnce s := by
  have hstart : Accounts {} :=
    Accounted.accounts ⟨.refl _, ⟨fun _ => rfl, Nat.zero_le _⟩,
      ⟨List.forall_mem_nil _, fun _ _ => Nat.zero_le _⟩⟩ rfl
  have hend := run_accounts hstart hkept
  rw [Yields, hrun] at hend
  exact (hend.connected hconnected).answeredOnce

/-! ## A run with and a run without the drop -/

theorem of_succeeds {events : List Event} {check : Stream → Bool}
    (h : succeeds events check = true) : ∃ s, run events {} = .ok () s ∧ check s = true := by
  unfold succeeds at h
  split at h
  · exact ⟨_, ‹_›, h⟩
  · cases h

/-- One colour over the whole task. -/
def colorLayer : Layer :=
  { id := 1, buffer := 0, ticket := 0, destination := ⟨0, 0, 800, 600⟩, source := ⟨0, 0, 0, 0⟩,
    transform := 0, alpha := 0xffffffff, isOpaque := true, color := 0 }

/-- A legacy commit is parked, as the task has no grant for another frame. -/
def parkRun : List Event :=
  [.request (.stage colorLayer false) readyTask true,
    .request (.commit 1 800 600 1) { readyTask with granted := false } true]

/-- The parked commit is tried again and gets its Ack, and the Abort its own. -/
theorem answered_exactly_once_retry :
    let events := parkRun ++ [.releases (fun _ => ⟨fun _ _ => 0, fun _ _ _ => true⟩) readyTask,
      .request .abort readyTask true]
    succeeds events (fun s => s.connected ∧ s.sent = [.ack 0, .ack 0, .ack 0]) = true ∧
      ∀ s, run events {} = .ok () s → s.connected = true → AnsweredOnce s :=
  ⟨by decide +kernel, fun _ => answered_exactly_once (by decide +kernel)⟩

/-- **Abort drops the parked commit without an Ack**: three requests, two Acks, nothing owed. -/
theorem abort_drops_reply :
    ∃ s, run (parkRun ++ [.request .abort readyTask true]) {} = .ok () s ∧ s.connected = true ∧
      s.asked = [.ack, .ack, .ack] ∧ s.answered = [.ack, .ack] ∧ s.owed = [] ∧
      ¬ AnsweredOnce s := by
  have hrun : succeeds (parkRun ++ [.request .abort readyTask true]) (fun s => s.connected ∧
      s.asked = [.ack, .ack, .ack] ∧ s.answered = [.ack, .ack] ∧ s.owed = []) = true := by
    decide +kernel
  obtain ⟨s, hs, hcheck⟩ := of_succeeds hrun
  obtain ⟨hconnected, hasked, hanswered, howed⟩ := of_decide_eq_true hcheck
  refine ⟨s, hs, hconnected, hasked, hanswered, howed, fun h => ?_⟩
  have hlength := h.replies.length_eq
  rw [hasked, hanswered, howed] at hlength
  cases hlength

end Stream

end Droidloom.Layers
