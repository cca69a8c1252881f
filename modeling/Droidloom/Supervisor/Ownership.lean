/-
  The daemon owns its cell.

  Two facts hold after any run of requests, exits and failing steps: a living cell process is the
  recorded one, and whoever touched a cell was root or its host user.  Each is checked move by move.
-/
import Droidloom.Supervisor.Requests

namespace Droidloom.Supervisor

open Fallible Triple Relation

variable {Spec : Type}

/-! ## The invariant -/

/-- **The daemon owns its cell.**  A living cell process is the recorded one; the recorded cell was
    started with the recorded specification; cells are numbered as they start. -/
structure Owned (s : System Spec) : Prop where
  recorded : ∀ cell ∈ s.alive, ∃ active, s.active = some active ∧ active.cell.process = cell
  started : ∀ active, s.active = some active →
    .started active.cell.process active.specPath active.spec ∈ s.effects
  numbered : ∀ cell path spec, .started cell path spec ∈ s.effects → cell < s.spawned
  once : ∀ cell path path' spec spec', .started cell path spec ∈ s.effects →
    .started cell path' spec' ∈ s.effects → spec = spec'

theorem Owned.initial : Owned ({} : System Spec) := by
  constructor <;> simp

/-- Owning only depends on what is recorded, alive, and started. -/
theorem Owned.of_started {s s' : System Spec} (h : Owned s) (hspawned : s'.spawned = s.spawned)
    (hstarted : ∀ cell path spec, .started cell path spec ∈ s'.effects ↔
      .started cell path spec ∈ s.effects)
    (hrecorded : ∀ cell ∈ s'.alive, ∃ active, s'.active = some active ∧ active.cell.process = cell)
    (hactive : ∀ active, s'.active = some active →
      .started active.cell.process active.specPath active.spec ∈ s.effects) : Owned s' where
  recorded := hrecorded
  started active ha := (hstarted _ _ _).mpr (hactive active ha)
  numbered cell path spec hmem := hspawned ▸ h.numbered cell path spec ((hstarted _ _ _).mp hmem)
  once cell path path' spec spec' hmem hmem' :=
    h.once cell path path' spec spec' ((hstarted _ _ _).mp hmem) ((hstarted _ _ _).mp hmem')

theorem Owned.quiet {s s' : System Spec} (h : Owned s) (hquiet : Quiet s s') : Owned s' := by
  refine h.of_started hquiet.spawned (by simp [hquiet.effects]) ?_ ?_
  · intro cell hcell
    obtain ⟨active, ha, hprocess⟩ := h.recorded cell (hquiet.alive hcell)
    exact ⟨active, hquiet.active.trans ha, hprocess⟩
  · intro active ha
    exact h.started active (hquiet.active ▸ ha)

/-- With the recorded cell dead, nothing is alive. -/
theorem Owned.alive_empty {s : System Spec} {active : ActiveCell Spec} (h : Owned s)
    (hactive : s.active = some active) {alive : Finset Nat} (hsub : alive ⊆ s.alive)
    (hdead : active.cell.process ∉ alive) : alive = ∅ := by
  refine Finset.eq_empty_of_forall_notMem fun cell hcell => hdead ?_
  obtain ⟨active', ha', hprocess⟩ := h.recorded cell (hsub hcell)
  rw [hactive, Option.some.injEq] at ha'
  rwa [ha', hprocess]

theorem Owned.alive_of_none {s : System Spec} (h : Owned s) (hactive : s.active = none) :
    s.alive = ∅ := by
  refine Finset.eq_empty_of_forall_notMem fun cell hcell => ?_
  obtain ⟨active, ha, _⟩ := h.recorded cell hcell
  rw [hactive] at ha
  cases ha

theorem Owned.forget {s s' : System Spec} {active : ActiveCell Spec} (h : Owned s)
    (hactive : s.active = some active) (htouches : Touches active.cell.process
      { s with active := none } s') (hdead : active.cell.process ∉ s'.alive) : Owned s' := by
  obtain ⟨new, heffects, hnew⟩ := htouches.effects
  refine h.of_started htouches.spawned ?_ ?_ ?_
  · intro cell path spec
    rw [heffects, List.mem_append, or_iff_left]
    intro hmem
    rcases hnew _ hmem with heq | heq <;> cases heq
  · simp [h.alive_empty hactive htouches.alive hdead]
  · simp [htouches.active]

theorem started_mem_spawn {s : System Spec} {path path' : String} {spec spec' : Spec} {cell : Nat} :
    .started cell path' spec' ∈ (spawn path spec s).2.effects ↔
      .started cell path' spec' ∈ s.effects ∨ cell = s.spawned ∧ path' = path ∧ spec' = spec := by
  simp [spawn]

theorem Owned.spawn {s : System Spec} {active : ActiveCell Spec} (h : Owned s)
    (hactive : s.active = none) (hprocess : active.cell.process = s.spawned) :
    Owned { (Supervisor.spawn active.specPath active.spec s).2 with active := some active } := by
  constructor
  · simp [Supervisor.spawn, h.alive_of_none hactive, hprocess]
  · rintro _ ⟨⟩
    exact started_mem_spawn.mpr (.inr ⟨hprocess, rfl, rfl⟩)
  · intro cell path spec hmem
    rcases started_mem_spawn.mp hmem with hmem | ⟨rfl, _⟩
    · exact Nat.lt_succ_of_lt (h.numbered cell path spec hmem)
    · exact Nat.lt_succ_self _
  · intro cell path path' spec spec' hmem hmem'
    -- a new number is larger than every earlier one
    rcases started_mem_spawn.mp hmem with hmem | ⟨rfl, rfl, rfl⟩ <;>
      rcases started_mem_spawn.mp hmem' with hmem' | ⟨heq, rfl, rfl⟩
    · exact h.once cell path path' spec spec' hmem hmem'
    · exact absurd (h.numbered cell path spec hmem) (by omega)
    · exact absurd (h.numbered _ path' spec' hmem') (by omega)
    · rfl

section Moves
variable {may : Spec → Prop} {opens : String → Prop} {s s' : System Spec}

theorem Owned.move (h : Owned s) (hmove : Move may opens s s') : Owned s' := by
  cases hmove with
  | quiet hquiet => exact h.quiet hquiet
  | @remember active pid hactive =>
    refine h.of_started rfl (fun _ _ _ => .rfl) ?_ ?_
    · intro cell hcell
      obtain ⟨active', ha', hprocess⟩ := h.recorded cell hcell
      rw [hactive, Option.some.injEq] at ha'
      exact ⟨_, rfl, ha' ▸ hprocess⟩
    · rintro _ ⟨⟩
      exact h.started active hactive
  | contact what hactive _ => exact h.of_started rfl (by simp) h.recorded h.started
  | forget hactive hdead hquiet =>
    exact h.forget hactive (hquiet.touches _) fun hmem => hdead (hquiet.alive hmem)
  | stop hactive _ htouches hdead => exact h.forget hactive htouches hdead
  | start hactive _ _ hquiet hprocess =>
    have hspawn := h.spawn hactive hprocess
    exact hspawn.quiet ⟨hquiet.alive, rfl, hquiet.spawned, hquiet.effects, hquiet.clock⟩

/-- What was done since `s` was done to cells of specifications in `may`. -/
def Accounted (may : Spec → Prop) (s s' : System Spec) : Prop :=
  ∃ new, s'.effects = s.effects ++ new ∧
    ∀ effect ∈ new, ∃ path spec, .started effect.cell path spec ∈ s'.effects ∧ may spec

theorem Accounted.refl (may : Spec → Prop) (s : System Spec) : Accounted may s s :=
  ⟨[], by simp, by simp⟩

theorem Accounted.trans {s₁ s₂ s₃ : System Spec} (h₁ : Accounted may s₁ s₂)
    (h₂ : Accounted may s₂ s₃) : Accounted may s₁ s₃ := by
  obtain ⟨new₁, heq₁, hnew₁⟩ := h₁
  obtain ⟨new₂, heq₂, hnew₂⟩ := h₂
  refine ⟨new₁ ++ new₂, by rw [heq₂, heq₁, List.append_assoc], fun effect hmem => ?_⟩
  rcases List.mem_append.mp hmem with hmem | hmem
  · obtain ⟨path, spec, hstarted, hmay⟩ := hnew₁ effect hmem
    exact ⟨path, spec, heq₂ ▸ List.mem_append_left _ hstarted, hmay⟩
  · exact hnew₂ effect hmem

theorem Accounted.isPrefix (h : Accounted may s s') : s.effects <+: s'.effects := by
  obtain ⟨new, heq, _⟩ := h
  exact heq ▸ List.prefix_append _ _

theorem Owned.accounted (h : Owned s) (hmove : Move may opens s s') : Accounted may s s' := by
  cases hmove with
  | quiet hquiet => exact ⟨[], by simp [hquiet.effects], by simp⟩
  | remember pid hactive => exact ⟨[], by simp, by simp⟩
  | @contact active what hactive hmay =>
    refine ⟨_, rfl, fun effect hmem => ⟨active.specPath, active.spec, ?_, hmay⟩⟩
    rw [List.mem_singleton.mp hmem]
    exact List.mem_append_left _ (h.started active hactive)
  | forget hactive hdead hquiet => exact ⟨[], by simp [hquiet.effects], by simp⟩
  | @stop _ active hactive hmay htouches hdead =>
    obtain ⟨new, heffects, hnew⟩ := htouches.effects
    refine ⟨new, heffects, fun effect hmem => ⟨active.specPath, active.spec, ?_, hmay⟩⟩
    rw [heffects]
    refine List.mem_append_left _ ?_
    rcases hnew effect hmem with rfl | rfl <;> exact h.started active hactive
  | @start s₁ active hactive hmay _ hquiet hprocess =>
    refine ⟨_, hquiet.effects, fun effect hmem => ⟨active.specPath, active.spec, ?_, hmay⟩⟩
    rw [List.mem_singleton.mp hmem]
    exact hquiet.effects ▸ started_mem_spawn.mpr (.inr ⟨rfl, rfl, rfl⟩)

theorem Owned.reach (h : Owned s) (hreach : Reach may opens s s') :
    Owned s' ∧ Accounted may s s' := by
  induction hreach with
  | refl => exact ⟨h, .refl may s⟩
  | tail _ hmove ih => exact ⟨ih.1.move hmove, ih.2.trans (ih.1.accounted hmove)⟩

/-- Whoever may not touch a recorded cell has not touched it. -/
theorem Accounted.spares {s'' : System Spec} {active : ActiveCell Spec}
    (h : Accounted may s s') (howned : Owned s') (howned'' : Owned s'')
    (hlater : s''.effects <+: s'.effects) (hactive : s''.active = some active)
    (hforbidden : ¬ may active.spec) :
    ∃ new, s'.effects = s.effects ++ new ∧ ∀ effect ∈ new, effect.cell ≠ active.cell.process := by
  obtain ⟨new, heq, hnew⟩ := h
  refine ⟨new, heq, fun effect hmem hcell => hforbidden ?_⟩
  obtain ⟨path, spec, hstarted, hmay⟩ := hnew effect hmem
  have hown := hlater.subset (howned''.started active hactive)
  rw [hcell] at hstarted
  rwa [howned.once _ _ _ _ _ hown hstarted]

end Moves

/-! ## Every run -/

section Runs
variable [DecidableEq Spec] [CellSpec Spec] (host : Host)

/-- What the serving loop does: poll for exits, serve one request, shut down. -/
inductive Event
  | poll
  | request (peer : UInt32) (request : ControlRequest) (file : Option String)
  | shutdown

def perform (system : System Spec) : Event → System Spec
  | .poll => final (poll host) system
  | .request peer request file => (handle host peer request file system).2
  | .shutdown => final (shutdown host) system

/-- The state after some events, from a daemon without a cell. -/
def served (Spec : Type) [DecidableEq Spec] [CellSpec Spec] (host : Host) (events : List Event) :
    System Spec :=
  events.foldl (perform host) {}

theorem handle_reach (peer : UInt32) (request : ControlRequest) (file : Option String)
    (s : System Spec) : Acts host peer request.specPath s (handle host peer request file s).2 := by
  have hserves : Obeys host peer request.specPath s
      (do poll host; dispatch host peer file request : Method Spec ControlResponse) s :=
    ends_bind (poll_serves .refl) fun _ _ hreach => dispatch_serves hreach
  unfold Obeys Serves Ends at hserves
  unfold handle
  split <;> simp_all

theorem Owned.perform {s : System Spec} (h : Owned s) (event : Event) :
    Owned (perform host s event) := by
  cases event with
  | poll =>
    have hpoll : Serves (fun _ => True) (fun _ => True) s (Supervisor.poll host) s :=
      poll_serves .refl
    exact (h.reach (hpoll.final fun _ _ h => h)).1
  | request peer request file => exact (h.reach (handle_reach host peer request file s)).1
  | shutdown =>
    have hshutdown : Serves (fun _ => True) (fun _ => True) s (Supervisor.shutdown host) s :=
      shutdown_serves .refl
    exact (h.reach (hshutdown.final fun _ _ h => h)).1

theorem owned_served (events : List Event) : Owned (served Spec host events) :=
  List.foldlRecOn events (Supervisor.perform host) Owned.initial
    fun _ h event _ => h.perform host event

/-- **Ownership of the cell**, whatever requests come, whatever exits and whatever fails: at most
    one process is alive, namely the recorded one, and none when none is recorded; and a peer that
    is neither root nor the host user of the recorded cell, before the request or after it, does
    nothing to that cell. -/
theorem daemon_owns_cell (events : List Event) :
    (served Spec host events).alive.card ≤ 1 ∧
    (∀ cell ∈ (served Spec host events).alive,
      ∃ active, (served Spec host events).active = some active ∧ active.cell.process = cell) ∧
    ((served Spec host events).active = none → (served Spec host events).alive = ∅) ∧
    ∀ peer request file active,
      (served Spec host events).active = some active ∨
        (served Spec host (events ++ [.request peer request file])).active = some active →
      peer ≠ 0 → peer ≠ CellSpec.hostUid active.spec →
      ∃ new, (served Spec host (events ++ [.request peer request file])).effects =
          (served Spec host events).effects ++ new ∧
        ∀ effect ∈ new, effect.cell ≠ active.cell.process := by
  have howned : Owned (served Spec host events) := owned_served host events
  refine ⟨?_, howned.recorded, howned.alive_of_none, ?_⟩
  · refine Finset.card_le_one.mpr fun cell hcell cell' hcell' => ?_
    obtain ⟨active, hactive, rfl⟩ := howned.recorded cell hcell
    obtain ⟨active', hactive', rfl⟩ := howned.recorded cell' hcell'
    rw [hactive, Option.some.injEq] at hactive'
    rw [hactive']
  · intro peer request file active hactive hroot huser
    have hlater : served Spec host (events ++ [.request peer request file]) =
        (handle host peer request file (served Spec host events)).2 := by
      simp [served, List.foldl_append, perform]
    have hreach := handle_reach host peer request file (served Spec host events)
    rw [← hlater] at hreach
    obtain ⟨howned', haccounted⟩ := howned.reach hreach
    have hforbidden : ¬ Authorized peer active.spec := not_or.mpr ⟨hroot, huser⟩
    rcases hactive with hbefore | hafter
    · exact haccounted.spares howned' howned haccounted.isPrefix hbefore hforbidden
    · exact haccounted.spares howned' howned' List.prefix_rfl hafter hforbidden

end Runs

end Droidloom.Supervisor
