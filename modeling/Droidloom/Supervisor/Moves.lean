/-
  What the daemon's methods can do.

  `Move may` lists everything that serving someone can do to the daemon and to cell processes, each
  with its precondition; every method is a walk of such moves, also when it returns early with an
  error.  Here are the rules for such walks and the lifecycle methods.
-/
import Droidloom.Lib.Triple
import Droidloom.Supervisor.Daemon

namespace Droidloom.Supervisor

open Fallible Triple Relation

variable {Spec : Type}

/-! ## Outside calls -/

/-- Nothing but time passes: processes may exit. -/
structure Quiet (s s' : System Spec) : Prop where
  alive : s'.alive ⊆ s.alive
  active : s'.active = s.active
  spawned : s'.spawned = s.spawned
  effects : s'.effects = s.effects
  clock : s.clock ≤ s'.clock

theorem Quiet.refl (s : System Spec) : Quiet s s :=
  ⟨Finset.Subset.refl _, rfl, rfl, rfl, le_rfl⟩

theorem Quiet.trans {s₁ s₂ s₃ : System Spec} (h₁ : Quiet s₁ s₂) (h₂ : Quiet s₂ s₃) :
    Quiet s₁ s₃ :=
  ⟨h₂.alive.trans h₁.alive, h₂.active.trans h₁.active, h₂.spawned.trans h₁.spawned,
    h₂.effects.trans h₁.effects, h₁.clock.trans h₂.clock⟩

/-- As `Quiet`, with effects on one cell. -/
structure Touches (cell : Nat) (s s' : System Spec) : Prop where
  alive : s'.alive ⊆ s.alive
  active : s'.active = s.active
  spawned : s'.spawned = s.spawned
  effects : ∃ new, s'.effects = s.effects ++ new ∧
    ∀ effect ∈ new, effect = .signalled cell ∨ effect = .killed cell
  clock : s.clock ≤ s'.clock

theorem Quiet.touches {s s' : System Spec} (h : Quiet s s') (cell : Nat) : Touches cell s s' :=
  ⟨h.alive, h.active, h.spawned, ⟨[], by simp [h.effects], by simp⟩, h.clock⟩

theorem Touches.trans {cell : Nat} {s₁ s₂ s₃ : System Spec} (h₁ : Touches cell s₁ s₂)
    (h₂ : Touches cell s₂ s₃) : Touches cell s₁ s₃ := by
  obtain ⟨new₁, heq₁, hnew₁⟩ := h₁.effects
  obtain ⟨new₂, heq₂, hnew₂⟩ := h₂.effects
  refine ⟨h₂.alive.trans h₁.alive, h₂.active.trans h₁.active, h₂.spawned.trans h₁.spawned,
    ⟨new₁ ++ new₂, by rw [heq₂, heq₁, List.append_assoc], ?_⟩, h₁.clock.trans h₂.clock⟩
  simp only [List.mem_append]
  rintro effect (hmem | hmem)
  · exact hnew₁ effect hmem
  · exact hnew₂ effect hmem

section Calls
variable (host : Host) (cell : DevelopmentCell) (s : System Spec)

theorem tick_runs : Runs (tick host) s fun _ s' => Quiet s s' :=
  ⟨Finset.filter_subset _ _, rfl, rfl, rfl, Nat.le_succ _⟩

theorem outcome_runs : Runs (outcome host) s fun _ s' => Quiet s s' :=
  tick_runs host s

namespace DevelopmentCell

theorem exited_runs : Runs (cell.exited host) s fun gone s' =>
    Quiet s s' ∧ (gone = true ↔ cell.process ∉ s'.alive) :=
  ⟨tick_runs host s, decide_eq_true_iff⟩

theorem cleanup_runs : Runs (cell.cleanup host) s fun result s' =>
    Quiet s s' ∧ result.1.cleaned = true := by
  refine runs_ite (fun hcleaned => runs_pure ⟨.refl s, hcleaned⟩) fun _ => ?_
  have hnetwork : Runs (cell.teardownNetwork host) s fun _ s' => Quiet s s' :=
    runs_ite (fun _ => outcome_runs host s) fun _ => runs_pure (.refl s)
  refine runs_bind hnetwork fun network s₁ h₁ => ?_
  refine runs_bind (outcome_runs host s₁) fun runtime s₂ h₂ => ?_
  cases network with
  | error error => exact runs_pure ⟨h₁.trans h₂, rfl⟩
  | ok _ => exact runs_pure ⟨h₁.trans h₂, rfl⟩

/-- A cell that has exited is cleaned; one that has not is left alone. -/
theorem tryWait_runs : Runs (cell.tryWait host) s fun result s' =>
    Quiet s s' ∧ (result = (cell, .ok none) ∨
      result.2 ≠ .ok none ∧ result.1.cleaned = true ∧ cell.process ∉ s'.alive) := by
  refine runs_bind (exited_runs host cell s) fun gone s₁ ⟨h₁, hgone⟩ => ?_
  cases gone with
  | false => exact runs_pure ⟨h₁, .inl rfl⟩
  | true =>
    refine runs_get_bind (runs_bind (cleanup_runs host cell s₁) fun result s₂ ⟨h₂, hcleaned⟩ => ?_)
    refine runs_pure ⟨h₁.trans h₂, .inr ⟨?_, hcleaned, fun hmem => hgone.mp rfl (h₂.alive hmem)⟩⟩
    cases result.2 <;> simp [Except.map]

theorem awaitExit_runs (polls : Nat) : Runs (cell.awaitExit host polls) s fun gone s' =>
    Quiet s s' ∧ (gone = true → cell.process ∉ s'.alive) := by
  induction polls generalizing s with
  | zero => exact runs_pure ⟨.refl s, by simp⟩
  | succ polls ih =>
    refine runs_bind (exited_runs host cell s) fun gone s₁ ⟨h₁, hgone⟩ => ?_
    cases gone with
    | true => exact runs_pure ⟨h₁, hgone.mp⟩
    | false => exact (ih s₁).mono fun _ s₂ ⟨h₂, hlater⟩ => ⟨h₁.trans h₂, hlater⟩

/-- **A stopped cell is dead**, whatever its clean-up says. -/
theorem stop_runs : Runs (cell.stop host) s fun result s' =>
    Touches cell.process s s' ∧ cell.process ∉ s'.alive ∧ result.1.cleaned = true := by
  -- the end of every branch: the process is gone and only the clean-up is left
  have hclean : ∀ s₁, Touches cell.process s s₁ → cell.process ∉ s₁.alive →
      Runs (cell.cleanup host) s₁ fun result s' =>
        Touches cell.process s s' ∧ cell.process ∉ s'.alive ∧ result.1.cleaned = true := by
    intro s₁ htouches hdead
    refine (cleanup_runs host cell s₁).mono fun result s₂ ⟨hquiet, hcleaned⟩ => ?_
    exact ⟨htouches.trans (hquiet.touches _), fun hmem => hdead (hquiet.alive hmem), hcleaned⟩
  refine runs_bind (exited_runs host cell s) fun gone s₁ ⟨h₁, hgone⟩ => ?_
  cases gone with
  | true => exact hclean s₁ (h₁.touches _) (hgone.mp rfl)
  | false =>
    have hsignal : Touches cell.process s₁
        { s₁ with effects := s₁.effects ++ [.signalled cell.process] } :=
      ⟨Finset.Subset.refl _, rfl, rfl, ⟨_, rfl, by simp⟩, le_rfl⟩
    refine runs_modify_bind (runs_bind (tick_runs host _) fun step s₂ h₂ => ?_)
    refine runs_bind (awaitExit_runs host cell s₂ _) fun gone s₃ ⟨h₃, hlater⟩ => ?_
    have hbefore : Touches cell.process s s₃ :=
      (h₁.touches _).trans (hsignal.trans ((h₂.trans h₃).touches _))
    cases gone with
    | true => exact hclean s₃ hbefore (hlater rfl)
    | false =>
      refine runs_modify_bind (runs_modify_bind (hclean _ (hbefore.trans ?_) ?_))
      · exact ⟨Finset.erase_subset _ _, rfl, rfl, ⟨[.killed cell.process], rfl, by simp⟩, le_rfl⟩
      · exact Finset.notMem_erase _ _

theorem drop_runs (hcleaned : cell.cleaned = true) :
    Runs (cell.drop host) s fun _ s' => s' = s := by
  unfold drop
  rw [if_pos hcleaned]
  exact runs_pure rfl

end DevelopmentCell

end Calls

/-! ## Everything that serving a request can do -/

/-- The moves on behalf of someone who may touch cells of the specifications in `may`, and start
    cells from the paths in `opens`. -/
inductive Move (may : Spec → Prop) (opens : String → Prop) : System Spec → System Spec → Prop
  /-- Time passes, or the exit note changes. -/
  | quiet {s s' : System Spec} : Quiet s s' → Move may opens s s'
  | remember {s : System Spec} {active : ActiveCell Spec} (pid : Option UInt32) :
      s.active = some active →
      Move may opens s { s with active := some { active with readyInit := pid } }
  | contact {s : System Spec} {active : ActiveCell Spec} (what : String) :
      s.active = some active → may active.spec →
      Move may opens s { s with effects := s.effects ++ [.sent active.cell.process what] }
  /-- The record of a dead cell is dropped. -/
  | forget {s s' : System Spec} {active : ActiveCell Spec} :
      s.active = some active → active.cell.process ∉ s.alive →
      Quiet { s with active := none } s' → Move may opens s s'
  | stop {s s' : System Spec} {active : ActiveCell Spec} :
      s.active = some active → may active.spec →
      Touches active.cell.process { s with active := none } s' →
      active.cell.process ∉ s'.alive → Move may opens s s'
  | start {s s' : System Spec} {active : ActiveCell Spec} :
      s.active = none → may active.spec → opens active.specPath →
      Quiet (spawn active.specPath active.spec s).2 s' → active.cell.process = s.spawned →
      Move may opens s { s' with active := some active, lastExit := none }

/-- The states that such moves lead to. -/
abbrev Reach (may : Spec → Prop) (opens : String → Prop) : System Spec → System Spec → Prop :=
  ReflTransGen (Move may opens)

theorem Move.clock {may : Spec → Prop} {opens : String → Prop} {s s' : System Spec}
    (h : Move may opens s s') : s.clock ≤ s'.clock := by
  cases h with
  | quiet hquiet => exact hquiet.clock
  | remember _ _ => exact le_rfl
  | contact _ _ _ => exact le_rfl
  | forget _ _ hquiet => exact hquiet.clock
  | stop _ _ htouches _ => exact htouches.clock
  | start _ _ _ hquiet _ => exact hquiet.clock

theorem reach_clock {may : Spec → Prop} {opens : String → Prop} {s s' : System Spec}
    (h : Reach may opens s s') : s.clock ≤ s'.clock := by
  induction h with
  | refl => exact le_rfl
  | tail _ hmove ih => exact ih.trans hmove.clock

/-- Whatever becomes of the method, its moves were allowed ones from `start`. -/
def Serves {α : Type} (may : Spec → Prop) (opens : String → Prop) (start : System Spec)
    (x : Method Spec α) (s : System Spec) : Prop :=
  Ends x s (fun _ s' => Reach may opens start s') (Reach may opens start)

section Serves
variable {α β : Type} {may : Spec → Prop} {opens : String → Prop} {start s : System Spec} {host : Host}

theorem ends_call {x : Calls Spec α} {Q : α → System Spec → Prop} {E : System Spec → Prop}
    (h : Runs x s Q) : Ends (call x) s Q E := h

theorem attempt_ends : Ends (attempt host) s (fun _ s' => Quiet s s') (Quiet s) := by
  refine ends_bind (ends_call (outcome_runs host s)) fun result s' hquiet => ?_
  exact ends_mapErr (fun _ _ => hquiet) fun _ _ => hquiet

/-- Time may pass before a method goes on. -/
theorem serves_quiet_bind {x : Method Spec α} {f : α → Method Spec β}
    {Q : α → System Spec → Prop} (hstart : Reach may opens start s)
    (hx : Ends x s (fun a s' => Quiet s s' ∧ Q a s') (Quiet s))
    (hf : ∀ a s', Reach may opens start s' → Quiet s s' → Q a s' → Serves may opens start (f a) s') :
    Serves may opens start (x >>= f) s := by
  refine ends_bind (hx.mono (fun a s' h => h) fun s' h => hstart.tail (.quiet h)) ?_
  rintro a s' ⟨hquiet, hq⟩
  exact hf a s' (hstart.tail (.quiet hquiet)) hquiet hq

/-- A pure check in front of a method. -/
theorem serves_check_bind {ε : Type} {g : ε → String} {x : Except ε α} {f : α → Method Spec β}
    (hstart : Reach may opens start s) (hf : ∀ a, x = .ok a → Serves may opens start (f a) s) :
    Serves may opens start (mapErr g x >>= f) s :=
  ends_bind (ends_mapErr (fun _ _ => hstart) fun a ha => ⟨ha, rfl⟩)
    fun a s' (h : x = .ok a ∧ s' = s) => h.2 ▸ hf a h.1

theorem serves_rejectIf_bind {c : Prop} [Decidable c] {e : String} {f : Unit → Method Spec β}
    (hstart : Reach may opens start s) (hf : ¬ c → Serves may opens start (f ()) s) :
    Serves may opens start (rejectIf c e >>= f) s :=
  ends_bind (ends_rejectIf (fun _ => hstart) fun hc => ⟨hc, rfl⟩)
    fun _ s' (h : ¬ c ∧ s' = s) => h.2 ▸ hf h.1

theorem serves_okOr_bind {o : Option α} {e : String} {f : α → Method Spec β}
    (hstart : Reach may opens start s) (hf : ∀ a, o = some a → Serves may opens start (f a) s) :
    Serves may opens start (okOr o e >>= f) s :=
  ends_bind (ends_okOr (fun _ => hstart) fun a ha => ⟨ha, rfl⟩)
    fun a s' (h : o = some a ∧ s' = s) => h.2 ▸ hf a h.1

theorem serves_success {message : String} (hstart : Reach may opens start s) :
    Serves may opens start (success message) s :=
  ends_get_bind (ends_pure hstart)

theorem serves_attempt_bind {f : Unit → Method Spec β} (hstart : Reach may opens start s)
    (hf : ∀ s', Reach may opens start s' → Quiet s s' → Serves may opens start (f ()) s') :
    Serves may opens start (attempt host >>= f) s :=
  serves_quiet_bind (Q := fun _ _ => True) hstart
    (attempt_ends.mono (fun _ _ h => ⟨h, trivial⟩) fun _ h => h)
    fun _ s' hreach hquiet _ => hf s' hreach hquiet

end Serves

/-! ## The lifecycle methods -/

section Lifecycle
variable {may : Spec → Prop} {opens : String → Prop} {start s : System Spec} {host : Host}

theorem startDevelopmentCell_ends {path : String} {spec : Spec} :
    Ends (startDevelopmentCell host path spec) s
      (fun cell s' => ∃ before, Quiet s before ∧ Quiet (spawn path spec before).2 s' ∧
        cell.process = before.spawned) (Quiet s) := by
  have hquiet : ∀ {before : System Spec}, Quiet s before →
      Ends (attempt host) before (fun _ s' => Quiet s s') (Quiet s) :=
    fun h => attempt_ends.mono (fun _ _ h' => h.trans h') fun _ h' => h.trans h'
  refine ends_bind (hquiet (.refl s)) fun _ s₁ h₁ => ?_
  refine ends_bind (hquiet h₁) fun _ s₂ h₂ => ?_
  refine ends_bind (hquiet h₂) fun _ s₃ h₃ => ?_
  refine ends_bind (ends_call (outcome_runs host s₃)) fun network s₄ h₄ => ?_
  have h₄ := h₃.trans h₄
  cases network with
  | error error => exact ends_bind (hquiet h₄) fun _ s₅ h₅ => ends_throw h₅
  | ok _ =>
    refine ends_bind (ends_call (tick_runs host s₄)) fun step s₅ h₅ => ?_
    refine ends_bind (ends_call (outcome_runs host s₅)) fun spawned s₆ h₆ => ?_
    have h₆ := (h₄.trans h₅).trans h₆
    cases spawned with
    | ok _ => exact ⟨s₆, h₆, tick_runs host _, rfl⟩
    | error source =>
      refine ends_bind (ends_call (outcome_runs host s₆)) fun network s₇ h₇ => ?_
      refine ends_bind (ends_call (outcome_runs host s₇)) fun runtime s₈ h₈ => ?_
      have h₈ := (h₆.trans h₇).trans h₈
      refine ends_bind (ends_mapErr (fun _ _ => h₈) fun _ _ => h₈) fun _ s₉ h₉ => ?_
      exact ends_bind (ends_mapErr (fun _ _ => h₉) fun _ _ => h₉) fun _ _ h => ends_throw h

theorem poll_serves (hstart : Reach may opens start s) : Serves may opens start (poll host) s := by
  refine ends_get_bind ?_
  cases hactive : s.active with
  | none => exact ends_pure hstart
  | some active =>
    refine ends_bind (ends_call (DevelopmentCell.tryWait_runs host active.cell s))
      fun result s₁ ⟨hquiet, hresult⟩ => ?_
    obtain ⟨cell, outcome⟩ := result
    have hactive₁ : s₁.active = some active := hquiet.active.trans hactive
    have hreach₁ : Reach may opens start s₁ := hstart.tail (.quiet hquiet)
    rcases hresult with hsame | ⟨hne, hcleaned, hdead⟩
    · cases hsame
      refine hreach₁.tail (.quiet ⟨Finset.Subset.refl _, ?_, rfl, rfl, le_rfl⟩)
      exact hactive₁.symm
    · -- the cell is dead and cleaned: its record goes, and its destructor does nothing
      have hforget : ∀ lastExit : Option String,
          Reach may opens start { s₁ with lastExit, active := none } := fun lastExit =>
        hreach₁.tail (.forget hactive₁ hdead ⟨Finset.Subset.refl _, rfl, rfl, rfl, le_rfl⟩)
      match outcome, hne with
      | .ok (some status), _ =>
        refine ends_modify_bind ((ends_call (DevelopmentCell.drop_runs host cell _ hcleaned)).mono
          (E := fun _ => False) ?_ (by simp))
        rintro _ _ rfl
        exact hforget _
      | .error error, _ =>
        refine ends_modify_bind (ends_bind
          (ends_call (DevelopmentCell.drop_runs host cell _ hcleaned)) ?_)
        rintro _ _ rfl
        exact ends_throw (hforget _)

theorem shutdown_serves (hstart : Reach (fun _ => True) opens start s) :
    Serves (fun _ => True) opens start (shutdown host) s := by
  refine ends_get_bind ?_
  cases hactive : s.active with
  | none => exact ends_pure hstart
  | some active =>
    refine ends_modify_bind (ends_bind (ends_call (DevelopmentCell.stop_runs host active.cell _))
      fun result s₁ ⟨htouches, hdead, hcleaned⟩ => ?_)
    have hreach : Reach (fun _ => True) opens start s₁ :=
      hstart.tail (.stop hactive trivial htouches hdead)
    refine ends_bind (ends_call (DevelopmentCell.drop_runs host result.1 s₁ hcleaned)) ?_
    rintro _ _ rfl
    exact ends_mapErr (fun _ _ => hreach) fun _ _ => hreach

end Lifecycle

end Droidloom.Supervisor
