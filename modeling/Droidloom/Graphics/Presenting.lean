/-
  What the Composer presents, over whole runs (`Composer`).

  1. **Validation.**  A present needs a validation newer than the last change of a layer and than
     the last present.  The code keeps only a generation, the validated generation and a flag; the
     history of a run is laid beside them, and `Tracked` says what the fields record of it.  That
     the generation saturates does no harm: a change also clears the validated generation.

  2. **Power.**  While the display is off, vsync stays off and no entry point hands a frame to the
     transport, with one exception: `presentDisplay` does not look at the power mode, so that a
     validation and a target from before the power change are still presented.
-/
import Droidloom.Lib.History
import Droidloom.Graphics.Composer

namespace Droidloom.Graphics.Composer

open Std Fallible Triple History

variable {c : Composer}

/-! ## Operations -/

inductive Operation
  | replaceFeedback (formats : List FormatModifier)
  | configure (latest : Configure)
  | setPowerMode (display : DisplayId) (mode : PowerMode)
  | setVsyncEnabled (display : DisplayId) (enabled : Bool)
  | presentationSample (timestampNanos : UInt64)
  | acknowledgeConfigure (serial : UInt32)
  | createLayer (display : DisplayId) (layer : LayerState)
  | updateLayer (display : DisplayId) (layer : LayerState)
  | layerState (display : DisplayId) (layer : LayerId)
  | destroyLayer (display : DisplayId) (layer : LayerId)
  | validateDisplay (display : DisplayId)
  | acceptDisplayChanges (display : DisplayId)
  | setClientTarget (display : DisplayId) (target : ClientTarget)
  | presentDisplay (display : DisplayId)
  | presentDisplayDirect (display : DisplayId)
  | submitRenderedTarget (display : DisplayId) (target : ClientTarget)
  | releasePresentedTarget (frame : FrameId) (hasReleaseFence : Bool)
  | cancelUnsubmittedTarget (frame : FrameId)
deriving DecidableEq

/-- What a successful operation hands out. -/
inductive Outcome
  | done
  | frame (accepted : AcceptedFrame)
  | sample (vsync : VsyncSample)
deriving DecidableEq, Repr

def Operation.perform : Operation → Method Outcome
  | .replaceFeedback formats => do
    modify fun c => c.replaceFeedback formats
    return .done
  | .configure latest => do
    modify fun c => c.configure latest
    return .done
  | .setPowerMode display mode => (fun _ => .done) <$> Composer.setPowerMode display mode
  | .setVsyncEnabled display enabled =>
    (fun _ => .done) <$> Composer.setVsyncEnabled display enabled
  | .presentationSample timestampNanos =>
    (fun vsync => vsync.elim .done .sample) <$> Composer.presentationSample timestampNanos
  | .acknowledgeConfigure serial => (fun _ => .done) <$> Composer.acknowledgeConfigure serial
  | .createLayer display layer => (fun _ => .done) <$> Composer.createLayer display layer
  | .updateLayer display layer => (fun _ => .done) <$> Composer.updateLayer display layer
  | .layerState display layer => (fun _ => .done) <$> Composer.layerState display layer
  | .destroyLayer display layer => (fun _ => .done) <$> Composer.destroyLayer display layer
  | .validateDisplay display => (fun _ => .done) <$> Composer.validateDisplay display
  | .acceptDisplayChanges display => (fun _ => .done) <$> Composer.acceptDisplayChanges display
  | .setClientTarget display target => (fun _ => .done) <$> Composer.setClientTarget display target
  | .presentDisplay display => .frame <$> Composer.presentDisplay display
  | .presentDisplayDirect display => (fun _ => .done) <$> Composer.presentDisplayDirect display
  | .submitRenderedTarget display target =>
    .frame <$> Composer.submitRenderedTarget display target
  | .releasePresentedTarget frame hasReleaseFence =>
    (fun _ => .done) <$> Composer.releasePresentedTarget frame hasReleaseFence
  | .cancelUnsubmittedTarget frame =>
    (fun _ => .done) <$> Composer.cancelUnsubmittedTarget frame

/-- The state after an operation, successful or not. -/
def next (c : Composer) (op : Operation) : Composer := final op.perform c

/-! ## What one operation can do -/

/-- Validation and power are as before. -/
structure Aside (c c' : Composer) : Prop where
  layers : c'.layers = c.layers
  generation : c'.generation = c.generation
  validated : c'.validatedGeneration = c.validatedGeneration
  accepted : c'.changesAccepted = c.changesAccepted
  power : c'.powerMode = c.powerMode
  vsync : c'.vsyncEnabled = c.vsyncEnabled

theorem Aside.refl (c : Composer) : Aside c c := ⟨rfl, rfl, rfl, rfl, rfl, rfl⟩

/-- No frame in flight that was not before. -/
def Settled (c c' : Composer) : Prop :=
  ∀ frame : FrameId, frame ∈ c'.transport.inFlight → frame ∈ c.transport.inFlight

/-- What the history of a run records. -/
inductive Event
  | changed
  | validated
  | presented
  | poweredOn
  | poweredOff
deriving DecidableEq, Repr

/-- The event of an operation, if it succeeds.  A patch that changes nothing is none. -/
def event (c : Composer) : Operation → Option Event
  | .setPowerMode _ .on => some .poweredOn
  | .setPowerMode _ .off => some .poweredOff
  | .createLayer _ _ | .destroyLayer _ _ => some .changed
  | .updateLayer _ layer => if c.layers[layer.id]? = some layer then none else some .changed
  | .validateDisplay _ => some .validated
  | .presentDisplay _ | .presentDisplayDirect _ => some .presented
  | _ => none

/-- No layer has protected content. -/
def Unprotected (c : Composer) : Prop :=
  ∀ (id : LayerId) (layer : LayerState), c.layers[id]? = some layer →
    layer.protectedContent = false

/-- Every layer asks for client composition. -/
def AllClient (c : Composer) : Prop :=
  ∀ (id : LayerId) (layer : LayerState), c.layers[id]? = some layer →
    layer.requestedComposition = .client

/-- **Every effect of an operation that succeeds**, with the guards that later proofs use. -/
inductive Effect (c : Composer) : Option Event → Outcome → Composer → Prop
  | aside {c' : Composer} (h : Aside c c') (hs : Settled c c') : Effect c none .done c'
  | sampled {vsync : VsyncSample} {c' : Composer} (hon : c.powerMode = .on) (h : Aside c c')
      (hs : Settled c c') : Effect c none (.sample vsync) c'
  | submitted {accepted : AcceptedFrame} {c' : Composer} (hon : c.powerMode = .on)
      (h : Aside c c') : Effect c none (.frame accepted) c'
  | vsync (enabled : Bool) (hon : enabled = true → c.powerMode = .on) :
      Effect c none .done { c with vsyncEnabled := enabled }
  | poweredOn : Effect c (some .poweredOn) .done { c with powerMode := .on }
  | poweredOff :
      Effect c (some .poweredOff) .done { c with powerMode := .off, vsyncEnabled := false }
  | changed (layers : ExtTreeMap LayerId LayerState compare) :
      Effect c (some .changed) .done (invalidate { c with layers })
  | validated (accepted : Bool) (hsafe : Unprotected c) (hclient : accepted = true → AllClient c) :
      Effect c (some .validated) .done
        { c with validatedGeneration := some c.generation, changesAccepted := accepted }
  | accepted (hon : c.powerMode = .on) :
      Effect c none .done { c with
        layers := c.layers.map fun _ layer => { layer with requestedComposition := .client }
        changesAccepted := true }
  | presented {outcome : Outcome} {target : Option ClientTarget} {transport : PresentationState}
      (hcurrent : c.validatedGeneration = some c.generation) (hok : c.changesAccepted = true) :
      Effect c (some .presented) outcome { c with
        clientTarget := target
        transport
        validatedGeneration := none
        changesAccepted := false }

/-- What is left behind by an operation that fails: `presentationSample` has taken the time,
    `presentDisplay` the target. -/
def Failed (c c' : Composer) : Prop := Aside c c' ∧ Settled c c'

theorem failed_refl (c : Composer) : Failed c c := ⟨Aside.refl c, fun _ h => h⟩

theorem settled_forget {frame : FrameId} {buffer : BufferId} :
    Settled c { c with transport := c.transport.forget frame buffer } := by
  intro f hf
  exact ExtTreeMap.mem_of_mem_erase hf

theorem requireCurrentValidation_then {α : Type} {display : DisplayId} {f : Unit → Method α}
    {Q : α → Composer → Prop} {E : Composer → Prop} (he : E c)
    (h : display = c.display → c.validatedGeneration = some c.generation → Ends (f ()) c Q E) :
    Ends (c.requireCurrentValidation display >>= f) c Q E := by
  unfold requireCurrentValidation requireDisplay
  rw [bind_assoc]
  refine ends_rejectIf_bind (fun _ => he) fun hdisplay => ?_
  refine ends_rejectIf_bind (fun _ => he) fun hvalid => ?_
  exact h (not_not.mp hdisplay) (not_not.mp hvalid)

theorem validateDisplay_effect {display : DisplayId} :
    Ends (validateDisplay display) c (fun _ c' => Effect c (some .validated) .done c')
      (Failed c) := by
  refine ends_get_bind (ends_rejectIf_bind (fun _ => failed_refl c) fun _ => ?_)
  have hmem : ∀ (id : LayerId) (layer : LayerState), c.layers[id]? = some layer →
      layer ∈ c.layers.toList.map (·.2) := fun id layer h =>
    List.mem_map.mpr ⟨(id, layer), ExtTreeMap.mem_toList_iff_getElem?_eq_some.mpr h, rfl⟩
  dsimp only
  cases hfind : (c.layers.toList.map (·.2)).find? (·.protectedContent) with
  | some layer => exact ends_throw (failed_refl c)
  | none =>
    refine ends_set_bind (ends_pure (Effect.validated _ (fun id layer h => ?_) fun hempty => ?_))
    · simpa using List.find?_eq_none.mp hfind layer (hmem id layer h)
    · intro id layer h
      have hnone := List.isEmpty_iff.mp hempty
      rw [List.map_eq_nil_iff, List.filter_eq_nil_iff] at hnone
      simpa using hnone layer (hmem id layer h)

theorem presentDisplay_effect {display : DisplayId} :
    Ends (presentDisplay display) c
      (fun accepted c' => Effect c (some .presented) (.frame accepted) c') (Failed c) := by
  refine ends_get_bind (requireCurrentValidation_then (failed_refl c) fun _ hcurrent => ?_)
  refine ends_rejectIf_bind (fun _ => failed_refl c) fun hok => ?_
  refine ends_bind (ends_okOr (fun _ => failed_refl c) fun target _ => rfl) ?_
  rintro target _ rfl
  refine ends_set_bind (ends_bind (Q := fun _ c' => ∃ transport,
    c' = { c with clientTarget := none, transport }) ?_ ?_)
  · refine ends_of_atomic (onTransport_spec PresentationState.submit_spec |>.mono ?_) ?_
    · rintro accepted _ ⟨transport, -, rfl⟩
      exact ⟨transport, rfl⟩
    · exact ⟨⟨rfl, rfl, rfl, rfl, rfl, rfl⟩, fun _ h => h⟩
  · rintro accepted _ ⟨transport, rfl⟩
    refine ends_modify_bind (ends_pure ?_)
    exact Effect.presented hcurrent (by simpa using hok)

theorem presentationSample_effect {timestampNanos : UInt64} :
    Ends (presentationSample timestampNanos) c
      (fun vsync c' => Effect c none (vsync.elim .done .sample) c') (Failed c) := by
  have hquiet : Failed c { c with lastPresentationNanos := some timestampNanos } :=
    ⟨⟨rfl, rfl, rfl, rfl, rfl, rfl⟩, fun _ h => h⟩
  refine ends_get_bind (ends_ite (fun _ => ends_pure ?_) fun _ => ?_)
  · exact Effect.aside (Aside.refl c) fun _ h => h
  refine ends_set_bind (ends_ite (fun _ => ends_pure ?_) fun hon => ?_)
  · exact Effect.aside hquiet.1 hquiet.2
  refine ends_rejectIf_bind (fun _ => hquiet) fun _ => ends_pure ?_
  exact Effect.sampled (not_not.mp (not_or.mp hon).1) hquiet.1 hquiet.2

/-- **One operation**, through all its branches. -/
theorem perform_effect (op : Operation) :
    Ends op.perform c (Effect c (event c op)) (Failed c) := by
  have hsame : ∀ {t : PresentationState}, Aside c { c with transport := t } :=
    ⟨rfl, rfl, rfl, rfl, rfl, rfl⟩
  cases op with
  | replaceFeedback formats =>
    exact ends_modify_bind (ends_pure (.aside ⟨rfl, rfl, rfl, rfl, rfl, rfl⟩ fun _ h => h))
  | configure latest =>
    exact ends_modify_bind (ends_pure (.aside ⟨rfl, rfl, rfl, rfl, rfl, rfl⟩ fun _ h => h))
  | setPowerMode display mode =>
    refine ends_map (ends_get_bind (ends_rejectIf_bind (fun _ => failed_refl c) fun _ => ?_))
    cases mode with
    | off => exact ends_set .poweredOff
    | on => exact ends_set .poweredOn
    | doze => exact ends_throw (failed_refl c)
    | dozeSuspend => exact ends_throw (failed_refl c)
  | setVsyncEnabled display enabled =>
    refine ends_map (ends_get_bind (ends_rejectIf_bind (fun _ => failed_refl c) fun _ => ?_))
    refine ends_rejectIf_bind (fun _ => failed_refl c) fun hon => ends_set (.vsync enabled ?_)
    exact fun he => not_not.mp fun hoff => hon ⟨he, hoff⟩
  | presentationSample timestampNanos => exact ends_map presentationSample_effect
  | acknowledgeConfigure serial =>
    refine ends_map (ends_of_atomic (onTransport_spec PresentationState.acknowledge_spec |>.mono ?_)
      (failed_refl c))
    rintro _ _ ⟨_, ⟨-, rfl⟩, rfl⟩
    exact .aside hsame fun _ h => h
  | createLayer display layer =>
    refine ends_map (ends_get_bind (ends_rejectIf_bind (fun _ => failed_refl c) fun _ => ?_))
    exact ends_rejectIf_bind (fun _ => failed_refl c) fun _ => ends_set (.changed _)
  | updateLayer display layer =>
    refine ends_map (ends_get_bind (ends_rejectIf_bind (fun _ => failed_refl c) fun _ => ?_))
    refine ends_bind (Q := fun existing c' => c.layers[layer.id]? = some existing ∧ c' = c)
      (ends_okOr (fun _ => failed_refl c) fun existing hex => ⟨hex, rfl⟩) ?_
    rintro existing _ ⟨hex, rfl⟩
    simp only [event, hex, Option.some.injEq]
    refine ends_ite (fun hne => ?_) fun heq => ?_
    · rw [if_neg hne]
      exact ends_set (.changed _)
    · rw [if_pos (not_not.mp heq)]
      exact ends_pure (.aside (Aside.refl _) fun _ h => h)
  | layerState display layer =>
    refine ends_map (ends_get_bind (ends_rejectIf_bind (fun _ => failed_refl c) fun _ => ?_))
    exact ends_okOr (fun _ => failed_refl c) fun _ _ => .aside (Aside.refl c) fun _ h => h
  | destroyLayer display layer =>
    refine ends_map (ends_get_bind (ends_rejectIf_bind (fun _ => failed_refl c) fun _ => ?_))
    exact ends_rejectIf_bind (fun _ => failed_refl c) fun _ => ends_set (.changed _)
  | validateDisplay display => exact ends_map validateDisplay_effect
  | acceptDisplayChanges display =>
    refine ends_map (ends_get_bind (requireCurrentValidation_then (failed_refl c) fun _ _ => ?_))
    refine ends_rejectIf_bind (fun _ => failed_refl c) fun hon => ends_set ?_
    exact .accepted (not_not.mp hon)
  | setClientTarget display target =>
    refine ends_map (ends_get_bind (ends_rejectIf_bind (fun _ => failed_refl c) fun _ => ?_))
    exact ends_set (.aside ⟨rfl, rfl, rfl, rfl, rfl, rfl⟩ fun _ h => h)
  | presentDisplay display => exact ends_map presentDisplay_effect
  | presentDisplayDirect display =>
    refine ends_map (ends_get_bind (requireCurrentValidation_then (failed_refl c) fun _ hcurrent => ?_))
    refine ends_rejectIf_bind (fun _ => failed_refl c) fun hok => ?_
    refine ends_rejectIf_bind (fun _ => failed_refl c) fun _ => ends_set ?_
    exact .presented hcurrent (by simpa using hok)
  | submitRenderedTarget display target =>
    refine ends_map (ends_get_bind (ends_rejectIf_bind (fun _ => failed_refl c) fun _ => ?_))
    refine ends_rejectIf_bind (fun _ => failed_refl c) fun hon => ?_
    refine ends_of_atomic (onTransport_spec PresentationState.submit_spec |>.mono ?_)
      (failed_refl c)
    rintro _ _ ⟨_, -, rfl⟩
    exact .submitted (not_not.mp hon) hsame
  | releasePresentedTarget frame hasReleaseFence =>
    refine ends_map (ends_of_atomic (onTransport_spec PresentationState.release_spec |>.mono ?_)
      (failed_refl c))
    rintro _ _ ⟨_, ⟨-, -, rfl⟩, rfl⟩
    exact .aside hsame settled_forget
  | cancelUnsubmittedTarget frame =>
    refine ends_map (ends_of_atomic
      (onTransport_spec PresentationState.cancelUnsubmitted_spec |>.mono ?_) (failed_refl c))
    rintro _ _ ⟨_, ⟨-, rfl⟩, rfl⟩
    exact .aside hsame settled_forget

/-! ## Runs and their history -/

/-- One operation; its event is recorded if it succeeds. -/
def execute (run : Composer × List Event) (op : Operation) : Composer × List Event :=
  match op.perform run.1 with
  | .ok _ c' => (c', run.2 ++ (event run.1 op).toList)
  | .error _ c' => (c', run.2)

/-- What every operation preserves, whether it succeeds or fails, holds after every run. -/
theorem history_invariant {P : Composer × List Event → Prop}
    (hok : ∀ c history op outcome c', P (c, history) → Effect c (event c op) outcome c' →
      P (c', history ++ (event c op).toList))
    (herror : ∀ c history c', P (c, history) → Failed c c' → P (c', history))
    (ops : List Operation) {run : Composer × List Event} (h : P run) :
    P (ops.foldl execute run) := by
  induction ops generalizing run with
  | nil => exact h
  | cons op ops ih =>
    refine ih ?_
    have heffect := @perform_effect run.1 op
    unfold execute
    cases hrun : op.perform run.1 with
    | ok outcome c' => exact hok _ _ op outcome c' h (heffect.of_ok hrun)
    | error e c' => exact herror _ _ c' h (heffect.of_error hrun)

/-! ## Validation -/

/-- Since the last validation no layer was changed and nothing presented. -/
def Fresh (history : List Event) : Prop :=
  ∃ before after, history = before ++ .validated :: after ∧ .changed ∉ after ∧ .presented ∉ after

theorem Fresh.append {history : List Event} (h : Fresh history) {event : Option Event}
    (hchanged : event ≠ some .changed) (hpresented : event ≠ some .presented) :
    Fresh (history ++ event.toList) := by
  obtain ⟨before, after, rfl, hc, hp⟩ := h
  refine ⟨before, after ++ event.toList, by simp, ?_, ?_⟩
  · simp only [List.mem_append, Option.mem_toList]
    exact fun h => h.elim hc fun h => hchanged h
  · simp only [List.mem_append, Option.mem_toList]
    exact fun h => h.elim hp fun h => hpresented h

/-- Every present of the history had a fresh validation. -/
def Justified (history : List Event) : Prop :=
  ∀ before after, history = before ++ .presented :: after → Fresh before

theorem Justified.append {history : List Event} (h : Justified history) {event : Option Event}
    (hpresented : event = some .presented → Fresh history) :
    Justified (history ++ event.toList) := by
  cases event with
  | none => rwa [Option.toList_none, List.append_nil]
  | some e =>
    intro before after hcut
    rcases concat_cut hcut with ⟨-, he, rfl⟩ | ⟨init, -, hl⟩
    · exact hpresented (congrArg some he)
    · exact h before init hl

/-- Two presents have a validation between them. -/
theorem Justified.between {a b c : List Event}
    (h : Justified (a ++ .presented :: (b ++ .presented :: c))) : .validated ∈ b := by
  obtain ⟨before, after, hcut, -, hp⟩ := h (a ++ .presented :: b) c (by simp)
  -- the validation that justifies the second present cannot lie before the first
  rcases List.append_eq_append_iff.mp hcut with ⟨t, rfl, ht⟩ | ⟨t, rfl, ht⟩
  · cases t with
    | nil => cases ht
    | cons x t =>
      obtain ⟨-, rfl⟩ := List.cons.inj ht
      simp
  · cases t with
    | nil => cases ht
    | cons x t =>
      obtain ⟨-, rfl⟩ := List.cons.inj ht
      simp at hp

/-- What the fields of the Composer record of the history. -/
structure Tracked (run : Composer × List Event) : Prop where
  current : run.1.validatedGeneration = some run.1.generation → Fresh run.2 ∧ Unprotected run.1
  accepted : run.1.changesAccepted = true → AllClient run.1
  justified : Justified run.2

theorem Tracked.of_aside {c c' : Composer} {history : List Event} (h : Tracked (c, history))
    (ha : Aside c c') : Tracked (c', history) where
  current := fun hv => by
    obtain ⟨hfresh, hsafe⟩ := h.current (by rw [← ha.validated, ← ha.generation]; exact hv)
    exact ⟨hfresh, fun id layer hl => hsafe id layer (ha.layers ▸ hl)⟩
  accepted := fun hv id layer hl =>
    h.accepted (by rw [← ha.accepted]; exact hv) id layer (ha.layers ▸ hl)
  justified := h.justified

theorem tracked_effect (c : Composer) (history : List Event) (op : Operation) (outcome : Outcome)
    (c' : Composer) (h : Tracked (c, history)) (he : Effect c (event c op) outcome c') :
    Tracked (c', history ++ (event c op).toList) := by
  generalize event c op = event at he ⊢
  cases he with
  | aside ha => simpa using h.of_aside ha
  | sampled _ ha => simpa using h.of_aside ha
  | submitted _ ha => simpa using h.of_aside ha
  | vsync enabled =>
    rw [Option.toList_none, List.append_nil]
    exact ⟨h.current, h.accepted, h.justified⟩
  | poweredOn =>
    refine ⟨fun hv => ?_, h.accepted, h.justified.append (by simp)⟩
    exact ⟨(h.current hv).1.append (by simp) (by simp), (h.current hv).2⟩
  | poweredOff =>
    refine ⟨fun hv => ?_, h.accepted, h.justified.append (by simp)⟩
    exact ⟨(h.current hv).1.append (by simp) (by simp), (h.current hv).2⟩
  | changed layers =>
    exact ⟨fun hv => (by cases hv), fun hv => (by cases hv), h.justified.append (by simp)⟩
  | validated accepted hsafe hclient =>
    refine ⟨fun _ => ⟨⟨history, [], rfl, by simp, by simp⟩, hsafe⟩, hclient, ?_⟩
    exact h.justified.append (by simp)
  | accepted hon =>
    -- the corrections change no protection, and every layer asks for the client's composition
    refine ⟨fun hv => ⟨by simpa using (h.current hv).1, fun id layer hl => ?_⟩,
      fun _ id layer hl => ?_, by simpa using h.justified⟩
    · rw [ExtTreeMap.getElem?_map, Option.map_eq_some_iff] at hl
      obtain ⟨old, hold, rfl⟩ := hl
      exact (h.current hv).2 id old hold
    · rw [ExtTreeMap.getElem?_map, Option.map_eq_some_iff] at hl
      obtain ⟨old, -, rfl⟩ := hl
      rfl
  | presented hcurrent =>
    refine ⟨fun hv => (by cases hv), fun hv => (by cases hv), ?_⟩
    exact h.justified.append fun _ => (h.current hcurrent).1

theorem tracked_run (display : DisplayId) (ops : List Operation) :
    Tracked (ops.foldl execute ({ display }, [])) := by
  refine history_invariant tracked_effect (fun _ _ _ h hfailed => h.of_aside hfailed.1) ops ?_
  exact ⟨fun hv => (by cases hv), fun hv => (by cases hv), fun before after h => by simp at h⟩

/-- **A present needs a current validation.**  Whenever one of the two presents succeeds, the
    history has a validation with no later change of a layer and no later present, no layer is
    protected and every layer asks for client composition; and between any two presents of the
    history lies a validation. -/
theorem present_validated (display : DisplayId) (ops : List Operation) :
    let run := ops.foldl execute ({ display }, [])
    (∀ (op : Operation) (outcome : Outcome) (c' : Composer), event run.1 op = some .presented →
      op.perform run.1 = .ok outcome c' →
        Fresh run.2 ∧ Unprotected run.1 ∧ AllClient run.1) ∧
      ∀ a b c, run.2 = a ++ .presented :: (b ++ .presented :: c) → .validated ∈ b := by
  intro run
  have h : Tracked run := tracked_run display ops
  refine ⟨fun op outcome c' hevent hok => ?_, fun a b c hcut => ?_⟩
  · have heffect := (@perform_effect run.1 op).of_ok hok
    rw [hevent] at heffect
    cases heffect with
    | presented hcurrent haccepted =>
      exact ⟨(h.current hcurrent).1, (h.current hcurrent).2, h.accepted haccepted⟩
  · exact (hcut ▸ h.justified).between

/-! ## Power -/

/-- What must fail while the display is off. -/
def Operation.needsPower : Operation → Bool
  | .setVsyncEnabled _ enabled => enabled
  | .presentDisplay _ | .presentDisplayDirect _ | .submitRenderedTarget _ _ => true
  | _ => false

theorem needsPower_of_presented {op : Operation} (h : event c op = some .presented) :
    op.needsPower = true := by
  cases op with
  | presentDisplay display => rfl
  | presentDisplayDirect display => rfl
  | setPowerMode display mode => cases mode <;> cases h
  | updateLayer display layer =>
    simp only [event] at h
    split at h <;> cases h
  | _ => cases h

/-- A present of a target that the Composer holds, with a validation that still stands. -/
def Operation.presentsHeld (c : Composer) : Operation → Bool
  | .presentDisplay display =>
    display = c.display && c.validatedGeneration = some c.generation && c.changesAccepted &&
      c.clientTarget.isSome
  | _ => false

/-- Such an operation succeeds with the display on, or presents what the Composer holds. -/
theorem perform_powered {op : Operation} (hneeds : op.needsPower = true) :
    Ends op.perform c (fun _ _ => c.powerMode = .on ∨ op.presentsHeld c = true)
      fun _ => True := by
  cases op with
  | setVsyncEnabled display enabled =>
    refine ends_map (ends_get_bind (ends_rejectIf_bind (fun _ => trivial) fun _ => ?_))
    refine ends_rejectIf_bind (fun _ => trivial) fun hon => ends_set (.inl ?_)
    exact not_not.mp fun hoff => hon ⟨hneeds, hoff⟩
  | presentDisplay display =>
    refine ends_map (ends_get_bind (requireCurrentValidation_then trivial
      fun hdisplay hcurrent => ?_))
    refine ends_rejectIf_bind (fun _ => trivial) fun hok => ?_
    refine ends_bind (Q := fun target _ => c.clientTarget = some target)
      (ends_okOr (fun _ => trivial) fun target h => h) fun target _ htarget => ?_
    refine ends_set_bind (ends_bind (Q := fun _ _ => True) ?_ fun _ _ _ => ?_)
    · exact ends_of_atomic (onTransport_spec PresentationState.submit_spec |>.mono
        fun _ _ _ => trivial) trivial
    · refine ends_modify_bind (ends_pure (.inr ?_))
      simp only [Operation.presentsHeld, hdisplay, hcurrent, htarget]
      simpa using hok
  | presentDisplayDirect display =>
    refine ends_map (ends_get_bind (requireCurrentValidation_then trivial fun _ _ => ?_))
    refine ends_rejectIf_bind (fun _ => trivial) fun _ => ?_
    exact ends_rejectIf_bind (fun _ => trivial) fun hon => ends_set (.inl (not_not.mp hon))
  | submitRenderedTarget display target =>
    refine ends_map (ends_get_bind (ends_rejectIf_bind (fun _ => trivial) fun _ => ?_))
    refine ends_rejectIf_bind (fun _ => trivial) fun hon => ?_
    exact ends_of_atomic (onTransport_spec PresentationState.submit_spec |>.mono
      fun _ _ _ => .inl (not_not.mp hon)) trivial
  | _ => cases hneeds

/-- The last power event of the history switched the display off. -/
def SwitchedOff (history : List Event) : Prop :=
  ∃ before after, history = before ++ .poweredOff :: after ∧ .poweredOn ∉ after

theorem SwitchedOff.of_append {history : List Event} {e : Event}
    (h : SwitchedOff (history ++ [e])) :
    e = .poweredOff ∨ e ≠ .poweredOn ∧ SwitchedOff history := by
  obtain ⟨before, after, hcut, hoff⟩ := h
  rcases concat_cut hcut with ⟨-, he, -⟩ | ⟨init, rfl, hl⟩
  · exact .inl he
  · simp only [List.mem_append, List.mem_singleton, not_or] at hoff
    exact .inr ⟨fun he => hoff.2 he.symm, before, init, hl, hoff.1⟩

/-- After a history that ends switched off, so are power and vsync. -/
def Darkened (run : Composer × List Event) : Prop :=
  SwitchedOff run.2 → run.1.powerMode = .off ∧ run.1.vsyncEnabled = false

theorem Darkened.of_aside {c c' : Composer} {history : List Event} (h : Darkened (c, history))
    (ha : Aside c c') : Darkened (c', history) := by
  intro hoff
  obtain ⟨hpower, hvsync⟩ := h hoff
  exact ⟨ha.power.trans hpower, ha.vsync.trans hvsync⟩

theorem darkened_effect (c : Composer) (history : List Event) (op : Operation) (outcome : Outcome)
    (c' : Composer) (h : Darkened (c, history)) (he : Effect c (event c op) outcome c') :
    Darkened (c', history ++ (event c op).toList) := by
  generalize event c op = event at he ⊢
  -- an event that is no power event leaves both fields
  have hkept : ∀ {e : Event} {c' : Composer}, e ≠ .poweredOff → c'.powerMode = c.powerMode →
      c'.vsyncEnabled = c.vsyncEnabled → Darkened (c', history ++ [e]) := by
    intro e c' he hpower hvsync hoff
    obtain ⟨-, hoff⟩ := hoff.of_append.resolve_left he
    exact ⟨hpower.trans (h hoff).1, hvsync.trans (h hoff).2⟩
  cases he with
  | aside ha => simpa using h.of_aside ha
  | sampled _ ha => simpa using h.of_aside ha
  | submitted _ ha => simpa using h.of_aside ha
  | vsync enabled hon =>
    intro hoff
    obtain ⟨hpower, -⟩ := h (by simpa using hoff)
    refine ⟨hpower, Bool.eq_false_iff.mpr fun hen => ?_⟩
    rw [hon hen] at hpower
    cases hpower
  | poweredOn => exact fun hoff => absurd rfl (hoff.of_append.resolve_left (by simp)).1
  | poweredOff => exact fun _ => ⟨rfl, rfl⟩
  | changed layers => exact hkept (by simp) rfl rfl
  | validated accepted => exact hkept (by simp) rfl rfl
  | accepted hon =>
    intro hoff
    exact h (by simpa using hoff)
  | presented => exact hkept (by simp) rfl rfl

theorem darkened_run (display : DisplayId) (ops : List Operation) :
    Darkened (ops.foldl execute ({ display }, [])) := by
  refine history_invariant darkened_effect (fun _ _ _ h hfailed => h.of_aside hfailed.1) ops ?_
  exact fun _ => ⟨rfl, rfl⟩

/-- The operation brings no frame to the transport, no vsync sample and no vsync. -/
structure Silent (c : Composer) (op : Operation) : Prop where
  fails : op.needsPower = true → ∃ e c', op.perform c = .error e c'
  settled : Settled c (next c op)
  unsampled : ∀ vsync c', op.perform c ≠ .ok (.sample vsync) c'
  vsync : (next c op).vsyncEnabled = false

theorem silent_of_off {op : Operation} (hpower : c.powerMode = .off)
    (hvsync : c.vsyncEnabled = false) (hheld : op.presentsHeld c = false) : Silent c op := by
  have hoff : c.powerMode ≠ .on := by rw [hpower]; decide
  have heffect := @perform_effect c op
  have hfails : op.needsPower = true → ∃ e c', op.perform c = .error e c' := by
    intro hneeds
    cases hrun : op.perform c with
    | error e c' => exact ⟨e, c', rfl⟩
    | ok outcome c' =>
      have hpowered := (perform_powered hneeds).of_ok hrun
      rw [hheld] at hpowered
      exact absurd (hpowered.resolve_right (by simp)) hoff
  cases hrun : op.perform c with
  | error e c' =>
    replace heffect := heffect.of_error hrun
    have hnext : next c op = c' := by unfold next final; rw [hrun]
    refine ⟨hfails, hnext ▸ heffect.2, fun _ _ => (by rw [hrun]; simp), ?_⟩
    rw [hnext, heffect.1.vsync, hvsync]
  | ok outcome c' =>
    replace heffect := heffect.of_ok hrun
    have hnext : next c op = c' := by unfold next final; rw [hrun]
    -- nothing that needs power has succeeded
    have hneeds : op.needsPower = false := by
      refine Bool.eq_false_iff.mpr fun hneeds => ?_
      obtain ⟨e, c'', he⟩ := hfails hneeds
      rw [hrun] at he
      cases he
    have hpresent : event c op ≠ some .presented := fun he => by
      rw [needsPower_of_presented he] at hneeds
      cases hneeds
    suffices h : Settled c c' ∧ c'.vsyncEnabled = false ∧ ∀ vsync, outcome ≠ .sample vsync by
      refine ⟨hfails, hnext ▸ h.1, fun vsync c'' he => ?_, hnext ▸ h.2.1⟩
      rw [hrun] at he
      cases he
      exact h.2.2 vsync rfl
    generalize event c op = event at heffect hpresent
    cases heffect with
    | aside ha hs => exact ⟨hs, ha.vsync.trans hvsync, by simp⟩
    | sampled hon => exact absurd hon hoff
    | submitted hon => exact absurd hon hoff
    | vsync enabled hon =>
      exact ⟨fun _ h => h, Bool.eq_false_iff.mpr fun he => hoff (hon he), by simp⟩
    | poweredOn => exact ⟨fun _ h => h, hvsync, by simp⟩
    | poweredOff => exact ⟨fun _ h => h, rfl, by simp⟩
    | changed layers => exact ⟨fun _ h => h, hvsync, by simp⟩
    | validated accepted => exact ⟨fun _ h => h, hvsync, by simp⟩
    | accepted hon => exact absurd hon hoff
    | presented => exact absurd rfl hpresent

/-- **Nothing is presented while the display is off**, up to a present of a target already held.
    After every run whose last power event switched the display off, every operation but such a
    present is silent. -/
theorem off_silent (display : DisplayId) (ops : List Operation) (op : Operation)
    (hoff : SwitchedOff (ops.foldl execute ({ display }, [])).2)
    (hheld : op.presentsHeld (ops.foldl execute ({ display }, [])).1 = false) :
    Silent (ops.foldl execute ({ display }, [])).1 op :=
  have h := darkened_run display ops hoff
  silent_of_off h.1 h.2 hheld

/-- A target and a validation from before the power change. -/
def lateOps : List Operation :=
  let format : FormatModifier := { fourcc := 0x34325258, modifier := 0 }
  let buffer : BufferMetadata :=
    { id := 7, width := 64, height := 64, format
      planes := [{ index := 0, offset := 0, stride := 256 }] }
  [.replaceFeedback [format],
   .configure { serial := 1, width := 64, height := 64, refreshMillihz := 60000 },
   .acknowledgeConfigure 1,
   .setPowerMode 1 .on,
   .validateDisplay 1,
   .setClientTarget 1 { buffer, damage := [], hasAcquireFence := true },
   .setPowerMode 1 .off]

/-- The display is off, and `presentDisplay` accepts the held target as frame 1. -/
theorem present_while_off :
    let run := lateOps.foldl execute ({ display := 1 }, [])
    SwitchedOff run.2 ∧ run.1.powerMode = .off ∧
      ∃ accepted c', (Operation.presentDisplay 1).perform run.1 = .ok (.frame accepted) c' ∧
        accepted.frameId = 1 ∧ 1 ∉ run.1.transport.inFlight ∧ 1 ∈ c'.transport.inFlight := by
  refine ⟨⟨[.poweredOn, .validated], [], by rfl, by simp⟩, by rfl, _, _, by rfl, by rfl, ?_, ?_⟩
  · decide +kernel
  · decide +kernel

/-- The direct present of the same run is refused. -/
theorem off_silent_direct :
    SwitchedOff (lateOps.foldl execute ({ display := 1 }, [])).2 ∧
      Silent (lateOps.foldl execute ({ display := 1 }, [])).1 (.presentDisplayDirect 1) := by
  have hoff : SwitchedOff (lateOps.foldl execute ({ display := 1 }, [])).2 :=
    ⟨[.poweredOn, .validated], [], by rfl, by simp⟩
  exact ⟨hoff, off_silent 1 lateOps (.presentDisplayDirect 1) hoff rfl⟩

end Droidloom.Graphics.Composer
