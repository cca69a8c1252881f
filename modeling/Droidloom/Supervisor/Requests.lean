/-
  Every request is served by moves its peer is allowed: whatever path through a handler, and
  wherever it stops with an error, a cell is only touched for root or for the cell's host user.
-/
import Droidloom.Supervisor.Moves

namespace Droidloom.Supervisor

open Fallible FileTree Triple Relation

variable {Spec : Type}

/-! ## Looking at the file system -/

section Inspection
variable {s : System Spec} {host : Host} {peer : UInt32} {path : String}

theorem inspect_ends {α : Type} {operation : String}
    {x : FileSystem → Except FileTree.Error α} :
    Ends (inspect host operation x) s
      (fun a s' => Quiet s s' ∧ x (host.files s.clock) = .ok a) (Quiet s) := by
  have htick : Runs (tick host) s fun step s' => Quiet s s' ∧ step = s.clock :=
    ⟨tick_runs host s, rfl⟩
  refine ends_bind (ends_call htick) ?_
  rintro _ s₁ ⟨h₁, rfl⟩
  exact ends_mapErr (fun _ _ => h₁) fun _ hok => ⟨h₁, hok⟩

/-- Since some step the checks on the path passed, each at its own step. -/
def Inspected (host : Host) (peer : UInt32) (since : Nat) (path : String) : Prop :=
  peer ≠ 0 → ∃ t₀ t₁ t₂ metadata canonical directory, since ≤ t₀ ∧ since ≤ t₁ ∧ since ≤ t₂ ∧
    (host.files t₀).symlinkMetadata path = .ok metadata ∧
    (host.files t₁).canonicalize path = .ok canonical ∧
    (host.files t₂).canonicalize host.specDirectory = .ok directory ∧
    trustedSpec metadata canonical directory = true

theorem Inspected.mono {since since' : Nat} (h : Inspected host peer since' path)
    (hle : since ≤ since') : Inspected host peer since path := by
  intro hpeer
  obtain ⟨t₀, t₁, t₂, metadata, canonical, directory, h₀, h₁, h₂, hrest⟩ := h hpeer
  exact ⟨t₀, t₁, t₂, metadata, canonical, directory, hle.trans h₀, hle.trans h₁, hle.trans h₂,
    hrest⟩

theorem inspectSpec_ends :
    Ends (inspectSpec host peer path) s
      (fun _ s' => Quiet s s' ∧ Inspected host peer s.clock path) (Quiet s) := by
  refine ends_ite (fun hroot => ends_pure ⟨.refl s, fun hpeer => absurd hroot hpeer⟩) fun _ => ?_
  refine ends_bind inspect_ends fun metadata s₁ ⟨h₁, hmetadata⟩ => ?_
  refine ends_bind (inspect_ends.mono (fun _ _ h => h) fun _ h => h₁.trans h)
    fun canonical s₂ ⟨h₂, hcanonical⟩ => ?_
  have h₂ := h₁.trans h₂
  refine ends_bind (inspect_ends.mono (fun _ _ h => h) fun _ h => h₂.trans h)
    fun directory s₃ ⟨h₃, hdirectory⟩ => ?_
  have h₃ := h₂.trans h₃
  refine ends_rejectIf (fun _ => h₃) fun htrusted => ⟨h₃, fun _ => ?_⟩
  exact ⟨s.clock, s₁.clock, s₂.clock, metadata, canonical, directory, le_rfl, h₁.clock, h₂.clock,
    hmetadata, hcanonical, hdirectory, not_not.mp htrusted⟩

theorem androidInit_ends {active : ActiveCell Spec} :
    Ends (androidInit host active) s (fun _ s' => Quiet s s' ∧ True) (Quiet s) := by
  unfold androidInit
  cases active.readyInit with
  | some pid => exact ends_pure ⟨.refl s, trivial⟩
  | none =>
    refine ends_bind (ends_call (tick_runs host s)) fun step s₁ h₁ => ?_
    exact ends_mapErr (fun _ _ => h₁) fun _ _ => ⟨h₁, trivial⟩

end Inspection

/-! ## Serving one request -/

section Requests
variable [CellSpec Spec] {from₀ s : System Spec} {host : Host} {peer : UInt32}
  {wanted : Option String}

/-- Root, or the host user of the specification. -/
def Authorized (peer : UInt32) (spec : Spec) : Prop := peer = 0 ∨ peer = CellSpec.hostUid spec

/-- A cell may be started from the path of the request, once it is inspected. -/
def Opens (host : Host) (peer : UInt32) (since : Nat) (wanted : Option String) (path : String) :
    Prop :=
  wanted = some path ∧ Inspected host peer since path

/-- What a request of `peer` that names the path `wanted` may lead to. -/
abbrev Acts (host : Host) (peer : UInt32) (wanted : Option String) (from₀ : System Spec) :
    System Spec → Prop :=
  Reach (Authorized peer) (Opens host peer from₀.clock wanted) from₀

abbrev Obeys {α : Type} (host : Host) (peer : UInt32) (wanted : Option String)
    (from₀ : System Spec) : Method Spec α → System Spec → Prop :=
  Serves (Authorized peer) (Opens host peer from₀.clock wanted) from₀

theorem authorizeUid_eq_ok {owner : UInt32} {u : Unit} :
    authorizeUid peer owner = .ok u ↔ peer = 0 ∨ peer = owner := by
  unfold authorizeUid
  rw [rejectIf_eq_ok, not_not]

theorem stop_serves (hstart : Acts host peer wanted from₀ s) :
    Obeys host peer wanted from₀ (stop host peer) s := by
  refine ends_get_bind ?_
  cases hactive : s.active with
  | none => exact serves_success hstart
  | some active =>
    refine serves_check_bind hstart fun _ hok => ?_
    refine ends_modify_bind (ends_bind (ends_call (DevelopmentCell.stop_runs host active.cell _))
      fun result s₁ ⟨htouches, hdead, hcleaned⟩ => ?_)
    have hreach : Acts host peer wanted from₀ s₁ :=
      hstart.tail (.stop hactive (authorizeUid_eq_ok.mp hok) htouches hdead)
    refine ends_bind (ends_call (DevelopmentCell.drop_runs host result.1 s₁ hcleaned)) ?_
    rintro _ _ rfl
    refine serves_check_bind hreach fun _ _ => ends_modify_bind (serves_success ?_)
    exact hreach.tail (.quiet ⟨Finset.Subset.refl _, rfl, rfl, rfl, le_rfl⟩)

/-- The recorded cell is this one, and the peer may touch it. -/
def Holds (peer : UInt32) (active : ActiveCell Spec) (s : System Spec) : Prop :=
  ∃ current, s.active = some current ∧ current.cell.process = active.cell.process ∧
    Authorized peer current.spec

theorem Holds.quiet {active : ActiveCell Spec} {s' : System Spec} (h : Holds peer active s)
    (hquiet : Quiet s s') : Holds peer active s' := by
  obtain ⟨current, hcurrent, hrest⟩ := h
  exact ⟨current, hquiet.active.trans hcurrent, hrest⟩

/-- Talking to the peer's own cell. -/
def Talks {α : Type} (host : Host) (peer : UInt32) (wanted : Option String)
    (from₀ : System Spec) (active : ActiveCell Spec) (x : Method Spec α) (s : System Spec) : Prop :=
  Ends x s (fun _ s' => Acts host peer wanted from₀ s' ∧ Holds peer active s')
    (Acts host peer wanted from₀)

theorem record_talks {active : ActiveCell Spec} {what : String}
    (hstart : Acts host peer wanted from₀ s) (hholds : Holds peer active s) :
    Talks host peer wanted from₀ active (call (record (.sent active.cell.process what))) s := by
  obtain ⟨current, hcurrent, hprocess, hauthorized⟩ := hholds
  refine ends_call (Q := fun _ s' => _) ⟨?_, current, hcurrent, hprocess, hauthorized⟩
  rw [← hprocess]
  exact hstart.tail (.contact what hcurrent hauthorized)

theorem remember_talks {active : ActiveCell Spec} {pid : Option UInt32}
    (hstart : Acts host peer wanted from₀ s) (hholds : Holds peer active s) :
    Talks host peer wanted from₀ active (remember pid) s := by
  obtain ⟨current, hcurrent, hprocess, hauthorized⟩ := hholds
  have hmove : Move (Authorized peer) (Opens host peer from₀.clock wanted) s _ :=
    .remember pid hcurrent
  refine ends_modify ?_
  simp only [hcurrent, Option.map_some]
  exact ⟨hstart.tail hmove, { current with readyInit := pid }, rfl, hprocess, hauthorized⟩

theorem exchange_talks {active : ActiveCell Spec} {what : String}
    (hstart : Acts host peer wanted from₀ s) (hholds : Holds peer active s) :
    Talks host peer wanted from₀ active (exchange host active what) s := by
  refine ends_bind (record_talks hstart hholds) fun _ s₁ ⟨hreach₁, hholds₁⟩ => ?_
  refine ends_bind (ends_call (tick_runs host s₁)) fun step s₂ h₂ => ?_
  have hreach₂ := hreach₁.tail (.quiet h₂)
  exact ends_mapErr (fun _ _ => hreach₂) fun _ _ => ⟨hreach₂, hholds₁.quiet h₂⟩

theorem readyInit_talks {active : ActiveCell Spec} (hstart : Acts host peer wanted from₀ s)
    (hholds : Holds peer active s) : Talks host peer wanted from₀ active (readyInit host active) s := by
  unfold readyInit
  cases active.readyInit with
  | some pid => exact ends_pure ⟨hstart, hholds⟩
  | none =>
    refine ends_bind (record_talks hstart hholds) fun _ s₁ ⟨hreach₁, hholds₁⟩ => ?_
    refine ends_bind (ends_call (tick_runs host s₁)) fun step s₂ h₂ => ?_
    have hreach₂ := hreach₁.tail (.quiet h₂)
    refine ends_bind (ends_mapErr (fun _ _ => hreach₂) fun _ _ => rfl) ?_
    rintro pid _ rfl
    exact ends_bind (remember_talks hreach₂ (hholds₁.quiet h₂)) fun _ s₃ h₃ => ends_pure h₃

theorem request_talks {active : ActiveCell Spec} {what : String}
    (hstart : Acts host peer wanted from₀ s) (hholds : Holds peer active s) :
    Talks host peer wanted from₀ active (request host active what) s :=
  ends_bind (readyInit_talks hstart hholds) fun _ _ ⟨hreach, hholds⟩ =>
    exchange_talks hreach hholds

theorem Talks.bind {α β : Type} {active : ActiveCell Spec} {x : Method Spec α}
    {f : α → Method Spec β} (hx : Talks host peer wanted from₀ active x s)
    (hf : ∀ a s', Acts host peer wanted from₀ s' → Holds peer active s' →
      Obeys host peer wanted from₀ (f a) s') : Obeys host peer wanted from₀ (x >>= f) s :=
  ends_bind hx fun a s' ⟨hreach, hholds⟩ => hf a s' hreach hholds

theorem loadSpec_ends {path : String} :
    Ends (loadSpec host path) s (fun _ s' => Quiet s s') (Quiet s) := by
  refine ends_bind inspect_ends fun metadata s₁ ⟨h₁, _⟩ => ?_
  refine ends_bind (Q := fun _ => Quiet s) (ends_rejectIf (fun _ => h₁) fun _ => h₁)
    fun _ s₂ h₂ => ?_
  refine ends_bind (inspect_ends.mono (fun _ _ h => h₂.trans h.1) fun _ h => h₂.trans h)
    fun content s₃ h₃ => ?_
  refine ends_bind (ends_mapErr (fun _ _ => h₃) fun _ _ => h₃) fun spec s₄ h₄ => ?_
  exact ends_bind (ends_mapErr (fun _ _ => h₄) fun _ _ => h₄) fun _ _ h => ends_pure h

theorem loadAuthorizedSpec_ends {path : String} :
    Ends (loadAuthorizedSpec host peer path) s
      (fun spec s' => Quiet s s' ∧ Authorized peer spec ∧ Inspected host peer s.clock path)
      (Quiet s) := by
  refine ends_bind inspectSpec_ends fun _ s₁ ⟨h₁, hinspected⟩ => ?_
  refine ends_bind (loadSpec_ends.mono (fun _ _ h => h₁.trans h) fun _ h => h₁.trans h)
    fun spec s₂ h₂ => ?_
  refine ends_bind (Q := fun _ s' => Quiet s s' ∧ Authorized peer spec)
    (ends_mapErr (fun _ _ => h₂) fun _ hok => ⟨h₂, authorizeUid_eq_ok.mp hok⟩) ?_
  rintro _ s₃ ⟨h₃, hauthorized⟩
  exact ends_pure ⟨h₃, hauthorized, hinspected⟩

/-- Waiting for Android and asking it once. -/
theorem request_serves {active : ActiveCell Spec} {what : String} {message : String → String}
    (hstart : Acts host peer wanted from₀ s) (hholds : Holds peer active s) :
    Obeys host peer wanted from₀
      (do let output ← request host active what; success (message output)) s :=
  (request_talks hstart hholds).bind fun _ _ hreach _ => serves_success hreach

theorem status_serves (hstart : Acts host peer wanted from₀ s) :
    Obeys host peer wanted from₀ (status host peer) s := by
  refine ends_get_bind ?_
  cases hactive : s.active with
  | none => exact ends_get_bind (serves_success hstart)
  | some active =>
    refine serves_check_bind hstart fun _ hok => ?_
    exact (exchange_talks hstart ⟨active, hactive, rfl, authorizeUid_eq_ok.mp hok⟩).bind
      fun _ _ hreach _ => serves_success hreach

theorem stats_serves (hstart : Acts host peer wanted from₀ s) :
    Obeys host peer wanted from₀ (stats host peer) s := by
  refine ends_get_bind ?_
  cases hactive : s.active with
  | none => exact ends_get_bind (serves_success hstart)
  | some active =>
    refine serves_check_bind hstart fun _ _ => ?_
    exact serves_quiet_bind hstart androidInit_ends fun _ _ hreach _ _ => serves_success hreach

variable [DecidableEq Spec]

/-- **A start** that succeeds leaves a cell recorded that the peer may touch. -/
theorem start_ends {path : String} (hwanted : wanted = some path)
    (hstart : Acts host peer wanted from₀ s) :
    Ends (start host peer path) s
      (fun _ s' => Acts host peer wanted from₀ s' ∧
        ∃ active, s'.active = some active ∧ Authorized peer active.spec)
      (Acts host peer wanted from₀) := by
  refine ends_bind (loadAuthorizedSpec_ends.mono (fun _ _ h => h)
    fun s' h => hstart.tail (.quiet h)) ?_
  rintro spec s₁ ⟨hquiet, hauthorized, hinspected⟩
  have hreach₁ := hstart.tail (.quiet hquiet)
  have hopens : Opens host peer from₀.clock wanted path :=
    ⟨hwanted, hinspected.mono (reach_clock hstart)⟩
  refine ends_get_bind ?_
  cases hactive : s₁.active with
  | some active =>
    refine ends_ite (fun hspec => ends_get_bind (ends_pure ?_)) fun _ => ends_throw hreach₁
    exact ⟨hreach₁, active, hactive, hspec ▸ hauthorized⟩
  | none =>
    refine ends_bind (attempt_ends.mono (fun _ _ h => h) fun s' h => hreach₁.tail (.quiet h)) ?_
    intro _ s₂ hquiet₂
    have hreach₂ := hreach₁.tail (.quiet hquiet₂)
    refine ends_bind (startDevelopmentCell_ends.mono (fun _ _ h => h)
      fun s' h => hreach₂.tail (.quiet h)) ?_
    rintro cell s₃ ⟨before, hbefore, hafter, hprocess⟩
    refine ends_modify_bind (ends_pure ?_)
    -- the process was spawned, and recorded before anything else could fail
    refine ⟨(hreach₂.tail (.quiet hbefore)).tail (.start ?_ hauthorized hopens hafter hprocess),
      _, rfl, hauthorized⟩
    exact (hbefore.active.trans hquiet₂.active).trans hactive

theorem start_serves {path : String} (hwanted : wanted = some path)
    (hstart : Acts host peer wanted from₀ s) :
    Obeys host peer wanted from₀ (start host peer path) s :=
  (start_ends hwanted hstart).mono (fun _ _ h => h.1) fun _ h => h

theorem restart_serves {path : String} (hwanted : wanted = some path)
    (hstart : Acts host peer wanted from₀ s) :
    Obeys host peer wanted from₀ (restart host peer path) s := by
  refine serves_quiet_bind hstart loadAuthorizedSpec_ends fun spec s₁ hreach₁ _ _ => ?_
  refine ends_get_bind (ends_ite (fun _ => ?_) fun _ => start_serves hwanted hreach₁)
  exact ends_bind (stop_serves hreach₁) fun _ s₂ hreach₂ => start_serves hwanted hreach₂

theorem requireActiveCell_ends {expected : Option String} :
    Ends (requireActiveCell host peer expected) s
      (fun active s' => Quiet s s' ∧ Holds peer active s') (Quiet s) := by
  refine ends_get_bind ?_
  cases hactive : s.active with
  | none => exact ends_throw (Quiet.refl _)
  | some active =>
    refine ends_bind (Q := fun _ s' => s = s' ∧ Authorized peer active.spec)
      (ends_mapErr (fun _ _ => Quiet.refl _) fun _ hok => ⟨rfl, authorizeUid_eq_ok.mp hok⟩) ?_
    rintro _ _ ⟨rfl, hauthorized⟩
    have hholds : Holds peer active s := ⟨active, hactive, rfl, hauthorized⟩
    cases expected with
    | none => exact ends_pure ⟨.refl _, hholds⟩
    | some path =>
      refine ends_bind loadAuthorizedSpec_ends fun requested s₂ ⟨hquiet, _⟩ => ?_
      refine ends_bind (Q := fun _ => Quiet s)
        (ends_rejectIf (fun _ => hquiet) fun _ => hquiet) fun _ s₃ hquiet => ?_
      exact ends_pure ⟨hquiet, hholds.quiet hquiet⟩

/-- A method that first requires the peer's cell. -/
theorem serves_require_bind {β : Type} {expected : Option String}
    {f : ActiveCell Spec → Method Spec β} (hstart : Acts host peer wanted from₀ s)
    (hf : ∀ active s', Acts host peer wanted from₀ s' → Holds peer active s' →
      Obeys host peer wanted from₀ (f active) s') :
    Obeys host peer wanted from₀ (requireActiveCell host peer expected >>= f) s :=
  serves_quiet_bind hstart requireActiveCell_ends
    fun active s' hreach _ hholds => hf active s' hreach hholds

theorem ensureActiveCell_ends {path : String} (hwanted : wanted = some path)
    (hstart : Acts host peer wanted from₀ s) :
    Ends (ensureActiveCell host peer path) s
      (fun _ s' => Acts host peer wanted from₀ s' ∧
        ∃ active, s'.active = some active ∧ Authorized peer active.spec)
      (Acts host peer wanted from₀) := by
  refine ends_get_bind ?_
  cases hactive : s.active with
  | none => exact ends_bind (start_ends hwanted hstart) fun _ s₁ h₁ => ends_pure h₁
  | some active =>
    refine ends_bind (loadAuthorizedSpec_ends.mono (fun _ _ h => h)
      fun s' h => hstart.tail (.quiet h)) ?_
    rintro requested s₁ ⟨hquiet, hauthorized, _⟩
    have hreach := hstart.tail (.quiet hquiet)
    refine ends_rejectIf (fun _ => hreach) fun hspec => ⟨hreach, active, ?_, ?_⟩
    · exact hquiet.active.trans hactive
    · rw [not_not.mp hspec]
      exact hauthorized

theorem waitReady_serves (hstart : Acts host peer wanted from₀ s) :
    Obeys host peer wanted from₀ (waitReady host peer) s := by
  refine serves_require_bind hstart fun active s₁ hreach₁ hholds₁ => ?_
  refine (remember_talks hreach₁ hholds₁).bind fun _ s₂ hreach₂ hholds₂ => ?_
  have hholds₂ : Holds peer { active with readyInit := none } s₂ := hholds₂
  exact (readyInit_talks hreach₂ hholds₂).bind fun _ _ hreach _ => serves_success hreach

theorem watchApplications_serves (hstart : Acts host peer wanted from₀ s) :
    Obeys host peer wanted from₀ (watchApplications host peer) s := by
  refine serves_require_bind hstart fun active s₁ hreach₁ hholds₁ => ?_
  refine serves_quiet_bind hreach₁ androidInit_ends fun init s₂ hreach₂ hquiet₂ _ => ?_
  refine serves_okOr_bind hreach₂ fun _ _ => ?_
  exact (exchange_talks hreach₂ (hholds₁.quiet hquiet₂)).bind
    fun _ _ hreach _ => serves_success hreach

theorem install_serves {user : UInt32} {file : Option String}
    (hstart : Acts host peer wanted from₀ s) :
    Obeys host peer wanted from₀ (install host peer user file) s := by
  refine serves_check_bind hstart fun _ _ => ?_
  refine serves_require_bind hstart fun active s₁ hreach₁ hholds₁ => ?_
  refine serves_okOr_bind hreach₁ fun _ _ => ?_
  refine serves_attempt_bind hreach₁ fun s₂ hreach₂ hquiet₂ => ?_
  exact request_serves hreach₂ (hholds₁.quiet hquiet₂)

theorem setDpi_serves {path : String} {dpi : UInt32} (hwanted : wanted = some path)
    (hstart : Acts host peer wanted from₀ s) :
    Obeys host peer wanted from₀ (setDpi host peer path dpi) s := by
  refine serves_check_bind hstart fun _ _ => ?_
  refine ends_bind (ensureActiveCell_ends hwanted hstart) ?_
  rintro _ s₁ ⟨hreach, active, hactive, hauthorized⟩
  refine ends_get_bind ?_
  rw [hactive]
  exact request_serves hreach ⟨active, hactive, rfl, hauthorized⟩

theorem diagnostics_serves {package : Option String} {user lines : UInt32} {crashes : Bool}
    (hstart : Acts host peer wanted from₀ s) :
    Obeys host peer wanted from₀ (diagnostics host peer package user lines crashes) s := by
  refine serves_require_bind hstart fun active s₁ hreach₁ hholds₁ => ?_
  refine serves_check_bind hreach₁ fun _ _ => serves_check_bind hreach₁ fun _ _ => ?_
  refine serves_rejectIf_bind hreach₁ fun _ => ?_
  refine ends_bind (ends_call (tick_runs host s₁)) fun step s₂ hquiet₂ => ?_
  have hreach₂ := hreach₁.tail (.quiet hquiet₂)
  refine serves_check_bind hreach₂ fun _ _ => serves_okOr_bind hreach₂ fun _ _ => ?_
  exact (exchange_talks hreach₂ (hholds₁.quiet hquiet₂)).bind
    fun _ _ hreach _ => serves_success hreach

/-- The requests that check their arguments, require the cell and ask Android once. -/
theorem ask_serves {expected : Option String} {what : String} {message : String → String}
    (hstart : Acts host peer wanted from₀ s) :
    Obeys host peer wanted from₀
      (do
        let active ← requireActiveCell host peer expected
        let output ← request host active what
        success (message output)) s :=
  serves_require_bind hstart fun _ _ hreach hholds => request_serves hreach hholds

/-- **Every request** is served by moves its peer is allowed. -/
theorem dispatch_serves {file : Option String} {request : ControlRequest}
    (hstart : Acts host peer request.specPath from₀ s) :
    Obeys host peer request.specPath from₀ (dispatch host peer file request) s := by
  cases request with
  | watchApplications => exact watchApplications_serves hstart
  | applicationIcons components user size =>
    refine serves_rejectIf_bind hstart fun _ => serves_check_bind hstart fun _ _ => ?_
    exact ask_serves hstart
  | install user => exact install_serves hstart
  | start path => exact start_serves rfl hstart
  | stop => exact stop_serves hstart
  | restart path => exact restart_serves rfl hstart
  | status => exact status_serves hstart
  | waitReady => exact waitReady_serves hstart
  | diagnostics package user lines crashes => exact diagnostics_serves hstart
  | launch path package component resolution user =>
    refine serves_check_bind hstart fun _ _ => serves_check_bind hstart fun _ _ => ?_
    refine serves_check_bind hstart fun _ _ => serves_check_bind hstart fun _ _ => ?_
    exact ask_serves hstart
  | listApplications user =>
    exact serves_check_bind hstart fun _ _ => ask_serves hstart
  | applicationIcon component user size =>
    refine serves_check_bind hstart fun _ _ => serves_check_bind hstart fun _ _ => ?_
    exact serves_rejectIf_bind hstart fun _ => ask_serves hstart
  | display => exact ask_serves hstart
  | setDpi path dpi => exact setDpi_serves rfl hstart
  | stats => exact stats_serves hstart
  | applicationDetails package user =>
    refine serves_check_bind hstart fun _ _ => serves_check_bind hstart fun _ _ => ?_
    exact ask_serves hstart
  | applicationAction package user action =>
    refine serves_check_bind hstart fun _ _ => serves_check_bind hstart fun _ _ => ?_
    exact ask_serves hstart

end Requests

end Droidloom.Supervisor
