/-
  Command batches of a Composer session (`hwc3.rs`).

  A command borrows the Composer of the display it names, applies its layer patches and its client
  target, and then validates, accepts and presents as asked.  It may fail at any of these steps;
  what it did before stays, results included, and the batch goes on with the next command.

  `commands_isolated`: a display sees of a batch only the commands that name it.  Two things are
  not per display: a batch of more than `MAX_DISPLAY_COMMANDS` commands is refused as a whole, and
  an error is reported with the position of its command in the batch.
-/
import Droidloom.Lib.Isolation
import Droidloom.Graphics.Composer

namespace Droidloom.Graphics

open Std Fallible Triple

def MAX_DISPLAY_COMMANDS : Nat := 4096
def MAX_LAYER_COMMANDS : Nat := 4096
def MAX_DAMAGE_RECTS : Nat := 256

inductive ErrorCode
  | badConfig
  | badDisplay
  | badLayer
  | badParameter
  | noResources
  | notValidated
  | unsupported
deriving DecidableEq, Repr

structure LayerPatch where
  layer : LayerId
  composition : Option Composition
  z : Option Int32
  protectedContent : Option Bool
  hasSidebandStream : Bool
deriving DecidableEq, Repr

structure DisplayCommand where
  display : DisplayId
  layers : List LayerPatch := []
  clientTarget : Option ClientTarget := none
  validateDisplay : Bool := false
  acceptDisplayChanges : Bool := false
  presentDisplay : Bool := false
  presentOrValidateDisplay : Bool := false
deriving DecidableEq, Repr

inductive PresentOrValidateResult
  | presented
  | validated
deriving DecidableEq, Repr

inductive CommandResult
  | error (commandIndex : Nat) (code : ErrorCode)
  | changedCompositionTypes (display : DisplayId) (layers : List CompositionChange)
  | presentDirect (display : DisplayId)
  | presentOrValidate (display : DisplayId) (result : PresentOrValidateResult)
deriving DecidableEq, Repr

def mapTaskError : TaskWindowError → ErrorCode
  | .unknownDisplay _ | .unknownTask _ => .badDisplay
  | .windowLimit => .noResources
  | .buffersInFlight _ _ | .displayBuffersInFlight _ _ => .noResources
  | .invalidTask | .invalidDisplay | .duplicateTask _ | .duplicateDisplay _
  | .displayAlreadyBound _ | .invalidPackage => .badParameter

def mapComposerError : ComposerError → ErrorCode
  | .unknownDisplay _ _ => .badDisplay
  | .duplicateLayer _ | .unknownLayer _ => .badLayer
  | .notValidated | .changesNotAccepted => .notValidated
  | .unsupportedPowerMode _ | .protectedContent _ => .unsupported
  | .transport (.bufferInFlight _) | .transport .frameIdExhausted => .noResources
  | .missingClientTarget | .displayOff | .missingRefreshRate | .transport _ => .badParameter

/-! ## One command on its Composer -/

/-- The borrowed Composer and the results of the command so far. -/
structure Execution where
  composer : Composer
  results : List CommandResult := []

namespace Execution

abbrev Method := EStateM ErrorCode Execution

def onComposer {α : Type} (x : Composer.Method α) : Method α :=
  zoom (·.composer) (fun c e => { e with composer := c }) mapComposerError x

def push (result : CommandResult) : Method Unit :=
  modify fun e => { e with results := e.results ++ [result] }

def pushChanges (display : DisplayId) (layers : List CompositionChange) : Method Unit :=
  if layers.isEmpty then pure () else push (.changedCompositionTypes display layers)

def patched (patch : LayerPatch) (state : LayerState) : LayerState :=
  { state with
    requestedComposition := patch.composition.getD state.requestedComposition
    z := patch.z.getD state.z
    protectedContent := patch.protectedContent.getD state.protectedContent }

/-- Patches before the first failing one stay applied. -/
def applyPatches (display : DisplayId) : List LayerPatch → Method Unit
  | [] => pure ()
  | patch :: patches => do
    rejectIf patch.hasSidebandStream .unsupported
    let state ← onComposer (Composer.layerState display patch.layer)
    onComposer (Composer.updateLayer display (patched patch state))
    applyPatches display patches

def applyTarget (display : DisplayId) : Option ClientTarget → Method Unit
  | some target => onComposer (Composer.setClientTarget display target)
  | none => pure ()

/-- `composer.present_display_direct(display)` with its own error. -/
def tryPresentDirect (display : DisplayId) : Method (Except ComposerError Unit) :=
  zoom (·.composer) (fun c e => { e with composer := c }) id
    (attempt (Composer.presentDisplayDirect display))

def presentOrValidate (display : DisplayId) : Method Unit := do
  match ← tryPresentDirect display with
  | .ok () =>
    push (.presentDirect display)
    push (.presentOrValidate display .presented)
  | .error .notValidated =>
    let changes ← onComposer (Composer.validateDisplay display)
    pushChanges display changes
    push (.presentOrValidate display .validated)
  | .error e => throw (mapComposerError e)

def validate (display : DisplayId) (asked : Bool) : Method Unit :=
  if asked then do
    let changes ← onComposer (Composer.validateDisplay display)
    pushChanges display changes
  else pure ()

def accept (display : DisplayId) (asked : Bool) : Method Unit :=
  if asked then onComposer (Composer.acceptDisplayChanges display) else pure ()

def present (display : DisplayId) (asked : Bool) : Method Unit :=
  if asked then do
    onComposer (Composer.presentDisplayDirect display)
    push (.presentDirect display)
  else pure ()

/-- `execute_one` once the display is found. -/
def execute (command : DisplayCommand) : Method Unit := do
  applyPatches command.display command.layers
  applyTarget command.display command.clientTarget
  if command.presentOrValidateDisplay then presentOrValidate command.display
  else do
    validate command.display command.validateDisplay
    accept command.display command.acceptDisplayChanges
    present command.display command.presentDisplay

end Execution

/-! ## The session -/

structure Session where
  windows : TaskWindowSet := {}
  nextLayer : UInt64 := 0

namespace Session

/-- The window of a display after a call on its Composer. -/
def storeComposer (s : Session) (display : DisplayId) (window : TaskWindow)
    (composer : Composer) : Session :=
  { s with windows :=
      { s.windows with windows := s.windows.windows.insert display { window with composer } } }

/-- The checks of `execute_one` that do not look at the display. -/
def malformed (command : DisplayCommand) : Bool :=
  decide (command.layers.length > MAX_LAYER_COMMANDS) ||
  command.clientTarget.any (·.damage.length > MAX_DAMAGE_RECTS) ||
  (command.presentOrValidateDisplay &&
    (command.validateDisplay || command.acceptDisplayChanges || command.presentDisplay))

/-- The state, the results pushed, and the error that ended the command early. -/
def executeOne (s : Session) (command : DisplayCommand) :
    Session × List CommandResult × Option ErrorCode :=
  if malformed command then (s, [], some .badParameter)
  else match s.windows.windows[command.display]? with
    | none => (s, [], some (mapTaskError (.unknownDisplay command.display)))
    | some window =>
      match Execution.execute command { composer := window.composer } with
      | .ok _ e => (s.storeComposer command.display window e.composer, e.results, none)
      | .error code e =>
        (s.storeComposer command.display window e.composer, e.results, some code)

/-- `u32::try_from(index).unwrap_or(u32::MAX)`. -/
def toU32 (index : Nat) : Nat := min index 4294967295

/-- One turn of the loop: an error is reported with its index, after the command's results. -/
def executeIndexed (s : Session) (command : DisplayCommand × Nat) :
    Session × List CommandResult :=
  let (s', results, outcome) := s.executeOne command.1
  (s', results ++ outcome.toList.map (.error (toU32 command.2)))

def executeCommands (s : Session) (commands : List DisplayCommand) :
    Session × List CommandResult :=
  if commands.length > MAX_DISPLAY_COMMANDS then
    (s, [.error (toU32 MAX_DISPLAY_COMMANDS) .badParameter])
  else
    commands.zipIdx.foldl (fun batch command =>
      let (s', results) := batch.1.executeIndexed command
      (s', batch.2 ++ results)) (s, [])

end Session

/-! ## What a command reports -/

namespace CommandResult

/-- A result of a command that names the display, its error apart. -/
def About (d : DisplayId) : CommandResult → Prop
  | .error _ _ => False
  | .changedCompositionTypes display _ => display = d
  | .presentDirect display => display = d
  | .presentOrValidate display _ => display = d

/-- The result belongs to a command of the batch that names the display. -/
def names (commands : List DisplayCommand) (d : DisplayId) : CommandResult → Bool
  | .error index _ => commands[index]?.any (·.display = d)
  | .changedCompositionTypes display _ => display = d
  | .presentDirect display => display = d
  | .presentOrValidate display _ => display = d

/-- The error of a command that stands at another position. -/
def reindex (positions : List Nat) : CommandResult → CommandResult
  | .error index code => .error (positions.getD index index) code
  | result => result

end CommandResult

namespace Execution

variable {d : DisplayId} {α β : Type}

/-- Successful or not, the step pushes results of the display only. -/
def Reports (d : DisplayId) (x : Method α) : Prop :=
  ∀ e, (∀ r ∈ e.results, r.About d) →
    Ends x e (fun _ e' => ∀ r ∈ e'.results, r.About d) fun e' => ∀ r ∈ e'.results, r.About d

namespace Reports

theorem pure (a : α) : Reports d (Pure.pure a : Method α) := fun _ h => ends_pure h

theorem throw (code : ErrorCode) : Reports d (MonadExcept.throw code : Method α) :=
  fun _ h => ends_throw h

theorem bind {x : Method α} {f : α → Method β} (hx : Reports d x) (hf : ∀ a, Reports d (f a)) :
    Reports d (x >>= f) :=
  fun e h => ends_bind (hx e h) fun a e' h' => hf a e' h'

theorem ite {c : Prop} [Decidable c] {x y : Method α} (hx : Reports d x) (hy : Reports d y) :
    Reports d (if c then x else y) := by
  split
  · exact hx
  · exact hy

theorem rejectIf {c : Prop} [Decidable c] (code : ErrorCode) :
    Reports d (Fallible.rejectIf c code : Method Unit) :=
  fun _ h => ends_rejectIf (fun _ => h) fun _ => h

/-- A call on the Composer pushes nothing. -/
theorem zoom {ε : Type} {err : ε → ErrorCode} (x : EStateM ε Composer α) :
    Reports d (Fallible.zoom (·.composer) (fun c e => { e with composer := c }) err x) := by
  intro e h
  unfold Ends Fallible.zoom
  cases x e.composer with
  | ok a c => exact h
  | error e' c => exact h

theorem push {result : CommandResult} (hr : result.About d) :
    Reports d (Execution.push result) := by
  intro e h
  refine ends_modify fun r hmem => ?_
  rcases List.mem_append.mp hmem with hold | hlast
  · exact h r hold
  · rw [List.mem_singleton.mp hlast]
    exact hr

theorem pushChanges (layers : List CompositionChange) :
    Reports d (Execution.pushChanges d layers) :=
  ite (pure ()) (push rfl)

theorem applyPatches (patches : List LayerPatch) : Reports d (Execution.applyPatches d patches) := by
  induction patches with
  | nil => exact pure ()
  | cons patch patches ih =>
    exact (rejectIf _).bind fun _ => (zoom _).bind fun _ => (zoom _).bind fun _ => ih

theorem applyTarget (target : Option ClientTarget) :
    Reports d (Execution.applyTarget d target) := by
  cases target with
  | none => exact pure ()
  | some target => exact zoom _

theorem presentOrValidate : Reports d (Execution.presentOrValidate d) := by
  have hdirect : Reports d (Execution.push (.presentDirect d)) := push rfl
  have hpresented (result : PresentOrValidateResult) :
      Reports d (Execution.push (.presentOrValidate d result)) := push rfl
  refine (zoom _).bind fun outcome => ?_
  rcases outcome with e | u
  · cases e with
    | notValidated =>
      exact (zoom _).bind fun changes => (pushChanges changes).bind fun _ => hpresented _
    | _ => exact throw _
  · exact hdirect.bind fun _ => hpresented _

theorem execute (command : DisplayCommand) :
    Reports command.display (Execution.execute command) := by
  refine (applyPatches _).bind fun _ => (applyTarget _).bind fun _ => ite presentOrValidate ?_
  refine bind (ite ((zoom _).bind fun changes => pushChanges changes) (pure ())) fun _ => ?_
  exact bind (ite (zoom _) (pure ())) fun _ => ite ((zoom _).bind fun _ => push rfl) (pure ())

end Reports

end Execution

/-! ## A command concerns its own display -/

namespace Session

variable {s s' : Session} {d : DisplayId}

/-- What the session knows of a display. -/
def window (d : DisplayId) (s : Session) : Option TaskWindow := s.windows.windows[d]?

theorem window_storeComposer (s : Session) (display : DisplayId) (w : TaskWindow)
    (composer : Composer) : (s.storeComposer display w composer).window d =
      if d = display then some { w with composer } else s.window d := by
  simp only [window, storeComposer]
  grind

theorem executeOne_frame (command : DisplayCommand) (h : command.display ≠ d) :
    (s.executeOne command).1.window d = s.window d := by
  have hne : d ≠ command.display := fun he => h he.symm
  unfold executeOne
  split
  · rfl
  · split
    · rfl
    · split <;> simp [window_storeComposer, hne]

/-- What a command does and answers depends on the window of its display only. -/
theorem executeOne_keyed (command : DisplayCommand)
    (h : s.window command.display = s'.window command.display) :
    (s.executeOne command).1.window command.display =
        (s'.executeOne command).1.window command.display ∧
      (s.executeOne command).2 = (s'.executeOne command).2 := by
  unfold executeOne
  split
  · exact ⟨h, rfl⟩
  · have hw : s'.windows.windows[command.display]? = s.windows.windows[command.display]? := h.symm
    rw [hw]
    split
    · exact ⟨h, rfl⟩
    · split <;> simp [window_storeComposer]

/-- The displays of a session are independent parts of it. -/
def displays : Isolation.Parts Session DisplayId (Option TaskWindow) (DisplayCommand × Nat)
    CommandResult where
  key command := command.1.display
  view := window
  step := executeIndexed
  frame _ command _ h := executeOne_frame command.1 h
  keyed s s' command h := by
    obtain ⟨hview, hresults⟩ := executeOne_keyed command.1 h
    exact ⟨hview, congrArg (fun r : List CommandResult × Option ErrorCode =>
      r.1 ++ r.2.toList.map (.error (toU32 command.2))) hresults⟩

theorem executeOne_about (s : Session) (command : DisplayCommand) :
    ∀ r ∈ (s.executeOne command).2.1, r.About command.display := by
  unfold executeOne
  split
  · simp
  · split
    · simp
    · rename_i window _
      have hreports := Execution.Reports.execute command { composer := window.composer } (by simp)
      unfold Ends at hreports
      split
      · rename_i hr
        rw [hr] at hreports
        exact hreports
      · rename_i hr
        rw [hr] at hreports
        exact hreports

/-! ## The loop -/

theorem foldl_eq_run (commands : List (DisplayCommand × Nat)) :
    ∀ (s : Session) (results : List CommandResult),
      commands.foldl (fun batch command =>
        let (s', results) := batch.1.executeIndexed command
        (s', batch.2 ++ results)) (s, results) =
      ((Isolation.run displays s commands).1,
        results ++ (Isolation.run displays s commands).2.map (·.2)) := by
  induction commands with
  | nil => intro s results; simp
  | cons command commands ih =>
    intro s results
    rw [List.foldl_cons, ih, Isolation.run_cons]
    simp [displays, Function.comp_def]

theorem executeCommands_eq_run (s : Session) {commands : List DisplayCommand}
    (hlen : commands.length ≤ MAX_DISPLAY_COMMANDS) :
    s.executeCommands commands =
      ((Isolation.run displays s commands.zipIdx).1,
        (Isolation.run displays s commands.zipIdx).2.map (·.2)) := by
  unfold executeCommands
  rw [if_neg (by omega), foldl_eq_run, List.nil_append]

/-- In a batch of bounded length a result belongs to the display of its command. -/
theorem names_of_mem_step {s : Session} {commands : List DisplayCommand} {command : DisplayCommand}
    {index : Nat} (hindex : commands[index]? = some command) (hsmall : index ≤ 4294967295)
    {r : CommandResult} (hr : r ∈ (s.executeIndexed (command, index)).2) :
    r.names commands d = decide (command.display = d) := by
  rcases List.mem_append.mp hr with hresult | herror
  · have habout := executeOne_about s command r hresult
    cases r with
    | error i code => cases habout
    | changedCompositionTypes display layers => rw [← habout]; rfl
    | presentDirect display => rw [← habout]; rfl
    | presentOrValidate display result => rw [← habout]; rfl
  · obtain ⟨code, -, rfl⟩ := List.mem_map.mp herror
    simp [CommandResult.names, toU32, Nat.min_eq_left hsmall, hindex]

/-- The positions of the commands that name the display. -/
def positions (d : DisplayId) (commands : List DisplayCommand) : List Nat :=
  (commands.zipIdx.filter (·.1.display = d)).map (·.2)

/-- A command at another position does the same, and its error says so. -/
theorem executeIndexed_reindex {ps : List Nat} {k index : Nat} (s : Session)
    (command : DisplayCommand) (hk : k ≤ 4294967295) (hindex : index ≤ 4294967295)
    (hps : ps[k]? = some index) :
    (s.executeIndexed (command, index)).2 =
      (s.executeIndexed (command, k)).2.map (·.reindex ps) := by
  have hresults : (s.executeOne command).2.1.map (·.reindex ps) = (s.executeOne command).2.1 := by
    refine (List.map_congr_left fun r hr => ?_).trans (List.map_id _)
    have habout := executeOne_about s command r hr
    cases r with
    | error i code => cases habout
    | _ => rfl
  have herror : CommandResult.reindex ps ∘ CommandResult.error (toU32 k) =
      CommandResult.error (toU32 index) := by
    funext code
    simp [CommandResult.reindex, toU32, Nat.min_eq_left hk, Nat.min_eq_left hindex, hps]
  simp only [executeIndexed, List.map_append, List.map_map]
  rw [hresults, herror]

theorem run_reindex (ps : List Nat) (l : List (DisplayCommand × Nat)) :
    ∀ (k : Nat) (s : Session), k + l.length ≤ 4294967295 → (∀ x ∈ l, x.2 ≤ 4294967295) →
      ps.drop k = l.map (·.2) →
      (Isolation.run displays s l).1 =
          (Isolation.run displays s ((l.map (·.1)).zipIdx k)).1 ∧
        (Isolation.run displays s l).2.map (·.2) =
          ((Isolation.run displays s ((l.map (·.1)).zipIdx k)).2.map (·.2)).map
            (·.reindex ps) := by
  induction l with
  | nil => exact fun k s _ _ _ => ⟨rfl, rfl⟩
  | cons x l ih =>
    intro k s hk hsmall hps
    obtain ⟨command, index⟩ := x
    have hindex : ps[k]? = some index := by
      have h0 := congrArg (·[0]?) hps
      simpa using h0
    have hrest : ps.drop (k + 1) = l.map (·.2) := by
      rw [← List.tail_drop, hps]
      rfl
    simp only [List.length_cons] at hk
    obtain ⟨hstate, hresults⟩ := ih (k + 1) (s.executeIndexed (command, index)).1 (by omega)
      (fun x hx => hsmall x (List.mem_cons_of_mem _ hx)) hrest
    have hstep := executeIndexed_reindex s command (by omega)
      (hsmall _ List.mem_cons_self) hindex
    rw [List.map_cons, List.zipIdx_cons, Isolation.run_cons, Isolation.run_cons]
    refine ⟨hstate, ?_⟩
    rw [List.map_map] at hresults
    simp only [List.map_append, List.map_map, Function.comp_def, List.map_id']
    exact congrArg₂ (· ++ ·) hstep hresults

/-- **A batch is isolated per display.**  In a batch within the bound, a display ends up as if only
    its own commands had been executed, and the results for these are the same, with each error at
    the position its command has in the batch; commands for other displays change nothing of it.
    A longer batch is refused as a whole. -/
theorem commands_isolated (session : Session) (commands : List DisplayCommand) (d : DisplayId) :
    (commands.length ≤ MAX_DISPLAY_COMMANDS →
      (session.executeCommands commands).1.window d =
          (session.executeCommands (commands.filter (·.display = d))).1.window d ∧
        (session.executeCommands commands).2.filter (·.names commands d) =
          (session.executeCommands (commands.filter (·.display = d))).2.map
            (·.reindex (positions d commands)) ∧
        ((∀ command ∈ commands, command.display ≠ d) →
          (session.executeCommands commands).1.window d = session.window d)) ∧
    (MAX_DISPLAY_COMMANDS < commands.length →
      session.executeCommands commands =
        (session, [.error MAX_DISPLAY_COMMANDS .badParameter])) := by
  refine ⟨fun hlen => ?_, fun hlen => ?_⟩
  · have hown : (commands.filter (·.display = d)).length ≤ MAX_DISPLAY_COMMANDS :=
      Nat.le_trans (List.length_filter_le _ _) hlen
    have hbound : MAX_DISPLAY_COMMANDS = 4096 := rfl
    have hcommands : (commands.zipIdx.filter (·.1.display = d)).map (·.1) =
        commands.filter (·.display = d) := by
      nth_rewrite 2 [← List.zipIdx_map_fst 0 commands]
      rw [List.filter_map]
      rfl
    have hindex : ∀ x ∈ commands.zipIdx, commands[x.2]? = some x.1 ∧ x.2 ≤ 4294967295 := by
      intro x hx
      have hget := List.mem_zipIdx_iff_getElem?.mp hx
      obtain ⟨hlt, -⟩ := List.getElem?_eq_some_iff.mp hget
      exact ⟨hget, by omega⟩
    obtain ⟨hview, hanswers⟩ := Isolation.run_own displays d commands.zipIdx session session rfl
    obtain ⟨hstate, hresults⟩ := run_reindex (positions d commands)
      (commands.zipIdx.filter (·.1.display = d)) 0 session
      (by rw [← List.length_map (f := (·.1)), hcommands]; omega)
      (fun x hx => (hindex x (List.mem_filter.mp hx).1).2) rfl
    rw [hcommands] at hstate hresults
    rw [executeCommands_eq_run session hlen, executeCommands_eq_run session hown]
    refine ⟨hview.trans (congrArg (window d) hstate), ?_, fun hnone => ?_⟩
    · -- a result names the display exactly when its command does
      rw [← hresults, List.filter_map]
      refine congrArg (List.map _) (Eq.trans (List.filter_congr fun x hx => ?_) hanswers)
      obtain ⟨hmem, s', hr⟩ := Isolation.exists_step_of_mem_run displays _ session hx
      exact names_of_mem_step (hindex x.1 hmem).1 (hindex x.1 hmem).2 hr
    · have hempty : commands.zipIdx.filter (displays.key · = d) = [] := by
        refine List.filter_eq_nil_iff.mpr fun x hx => ?_
        have hmem : x.1 ∈ commands := List.mem_of_getElem? (hindex x hx).1
        exact fun he => hnone x.1 hmem (of_decide_eq_true he)
      rw [hempty] at hview
      exact hview
  · unfold executeCommands
    rw [if_pos hlen]
    rfl

/-- A session with one display, which no command has touched. -/
def oneDisplay : Session :=
  let reserved : TaskWindow :=
    { reservation := { display := 1, package := "a" }, spec := none, composer := { display := 1 } }
  { windows := { windows := ExtTreeMap.empty.insert 1 reserved } }

/-- One command for display 1 after as many commands for display 2 as a batch may have. -/
def oversizedBatch : List DisplayCommand :=
  List.replicate MAX_DISPLAY_COMMANDS { display := 2 } ++
    [{ display := 1, validateDisplay := true }]

/-- **Where a display sees the rest of the batch.**  The oversized batch leaves display 1
    unvalidated, while its own command alone validates it; and the error of the command for
    display 3 is reported with its position in the batch. -/
theorem oversized_batch_not_isolated :
    ((oneDisplay.executeCommands oversizedBatch).1.window 1).map
        (·.composer.validatedGeneration) = some none ∧
      ((oneDisplay.executeCommands (oversizedBatch.filter (·.display = 1))).1.window 1).map
        (·.composer.validatedGeneration) = some (some 0) ∧
      (oneDisplay.executeCommands [{ display := 2 }, { display := 3 }]).2.filter
        (·.names [{ display := 2 }, { display := 3 }] 3) = [.error 1 .badDisplay] ∧
      (oneDisplay.executeCommands [{ display := 3 }]).2 = [.error 0 .badDisplay] := by
  decide +kernel

end Session

end Droidloom.Graphics
