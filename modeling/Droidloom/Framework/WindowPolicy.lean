/-
  Screen readiness and boot notification of the window policy (`droidloom-window-policy`).

  The policy is called from `system_server` with numbered commands, in any order and with any
  arguments.  A screen start hands out a generation; the callbacks that follow carry it back, and
  one that carries another generation than its display shows does nothing.

  1. **Model** — `Policy.command` with its ten commands, every other number doing nothing, and
     `Policy.query`.  A screen start answers with a generation, the other commands with an action,
     and both are plain integers: an answer can be read only together with its command.

  2. **The crux (`Tracks`)** — what the flags of the policy say about the calls made so far.  Which
     generation a display shows is a fact about the history (`Shows`): a start of that display
     returned it, and the display was neither started again nor switched off since.
-/
import Droidloom.Lib.History

namespace Droidloom.WindowPolicy

open History
open Std (ExtTreeMap ExtTreeSet)

/-! ## Commands and answers -/

inductive Command
  | screenStart
  | keyguardDrawn
  | windowsDrawn
  | screenOff
  | systemReady
  | systemBooted
  | goingToSleep
  | bootWithOutputOff
  | allowLockscreenWhenOn
  | clearLockscreenDisplays
deriving DecidableEq, Repr

/-- The command that a number stands for. -/
def Command.ofCode : Int → Option Command
  | 1 => some .screenStart
  | 2 => some .keyguardDrawn
  | 3 => some .windowsDrawn
  | 4 => some .screenOff
  | 5 => some .systemReady
  | 6 => some .systemBooted
  | 7 => some .goingToSleep
  | 8 => some .bootWithOutputOff
  | 9 => some .allowLockscreenWhenOn
  | 10 => some .clearLockscreenDisplays
  | _ => none

inductive Query
  | screenOn
  | canAnimate
  | bootAnimationDismissible
  | keyguardDrawnOnce
  | systemReady
  | systemBooted
  | lockscreenTimerRequired
deriving DecidableEq, Repr

def Query.ofCode : Int → Option Query
  | 1 => some .screenOn
  | 2 => some .canAnimate
  | 3 => some .bootAnimationDismissible
  | 4 => some .keyguardDrawnOnce
  | 5 => some .systemReady
  | 6 => some .systemBooted
  | 7 => some .lockscreenTimerRequired
  | _ => none

def NONE : Int := 0
def WAIT_FOR_WINDOWS : Int := 1
def COMPLETE_SCREEN : Int := 2
def NOTIFY_BOOT_COMPLETED : Int := 3

def I32_MAX : Int := 2 ^ 31 - 1

/-! ## The policy -/

structure Screen where
  generation : Int
  keyguardDrawn : Bool
  windowsWaitStarted : Bool
  complete : Bool
deriving DecidableEq, Repr

structure Policy where
  screens : ExtTreeMap Int Screen compare := ∅
  lockscreenDisplays : ExtTreeSet Int compare := ∅
  generation : Int := 0
  ready : Bool := false
  booted : Bool := false
  goingToSleep : Bool := false
  keyguardDrawnOnce : Bool := false
  bootWithOutputOff : Bool := false
  bootCallbackSent : Bool := false

namespace Policy

variable (p : Policy) (display generation : Int)

/-- The screen that a callback is for: the display shows this generation and is not complete. -/
def pending : Option Screen :=
  p.screens[display]?.filter fun screen => screen.generation = generation ∧ ¬ screen.complete

/-- Only the built-in display has an Android keyguard, so any other screen starts with it drawn. -/
def screenStart : Policy × Int :=
  if p.generation + 1 ≤ I32_MAX then
    ({ p with
        generation := p.generation + 1
        bootWithOutputOff := if display = 0 then false else p.bootWithOutputOff
        screens := p.screens.insert display
          { generation := p.generation + 1
            keyguardDrawn := display ≠ 0
            windowsWaitStarted := display ≠ 0
            complete := false } },
      p.generation + 1)
  else (p, NONE)

def keyguardDrawn : Policy × Int :=
  match p.pending display generation with
  | none => (p, NONE)
  | some screen =>
    if screen.windowsWaitStarted then (p, NONE)
    else
      ({ p with
          screens := p.screens.insert display
            { screen with keyguardDrawn := true, windowsWaitStarted := true } },
        WAIT_FOR_WINDOWS)

def windowsDrawn : Policy × Int :=
  match p.pending display generation with
  | none => (p, NONE)
  | some screen =>
    if ¬ screen.keyguardDrawn ∨ ¬ screen.windowsWaitStarted then (p, NONE)
    else
      ({ p with
          screens := p.screens.insert display { screen with complete := true }
          keyguardDrawnOnce := if display = 0 then true else p.keyguardDrawnOnce },
        COMPLETE_SCREEN)

def bootNotification : Policy × Int :=
  if p.ready ∧ p.booted ∧ ¬ p.bootCallbackSent then
    ({ p with bootCallbackSent := true }, NOTIFY_BOOT_COMPLETED)
  else (p, NONE)

/-- Apply a lifecycle event. -/
def command (op display generation : Int) (value : Bool) : Policy × Int :=
  match Command.ofCode op with
  | some .screenStart => if 0 ≤ display then p.screenStart display else (p, NONE)
  | some .keyguardDrawn => p.keyguardDrawn display generation
  | some .windowsDrawn => p.windowsDrawn display generation
  | some .screenOff => ({ p with screens := p.screens.erase display }, NONE)
  | some .systemReady => { p with ready := true }.bootNotification
  | some .systemBooted => { p with booted := true }.bootNotification
  | some .goingToSleep => ({ p with goingToSleep := value }, NONE)
  | some .bootWithOutputOff =>
    ({ p with bootWithOutputOff := p.booted && ! p.screens.contains 0 }, NONE)
  | some .allowLockscreenWhenOn =>
    if 0 ≤ display then
      ({ p with lockscreenDisplays :=
          if value then p.lockscreenDisplays.insert display
          else p.lockscreenDisplays.erase display }, NONE)
    else (p, NONE)
  | some .clearLockscreenDisplays => ({ p with lockscreenDisplays := ∅ }, NONE)
  | none => (p, NONE)

/-- Read policy state.  `value` is `ignoreScreenOn` for `canAnimate`. -/
def query (op display : Int) (value : Bool) : Bool :=
  match Query.ofCode op with
  | some .screenOn => p.screens.contains display
  | some .canAnimate => (value || p.screens.contains 0) && ! p.goingToSleep
  | some .bootAnimationDismissible =>
    p.screens[(0 : Int)]?.any (·.keyguardDrawn) || p.bootWithOutputOff
  | some .keyguardDrawnOnce => p.keyguardDrawnOnce
  | some .systemReady => p.ready
  | some .systemBooted => p.booted
  | some .lockscreenTimerRequired => ! p.lockscreenDisplays.isEmpty && value
  | none => false

end Policy

/-! ## Calls and their log -/

structure Call where
  op : Int
  display : Int
  generation : Int
  value : Bool
deriving DecidableEq, Repr

def Call.command (c : Call) : Option Command := Command.ofCode c.op

/-- A call with what it returned. -/
structure Entry where
  call : Call
  result : Int
deriving DecidableEq, Repr

def Policy.apply (p : Policy) (c : Call) : Policy × Int :=
  p.command c.op c.display c.generation c.value

/-- The policy after some calls, and the log of those calls. -/
def run (calls : List Call) : Policy × List Entry :=
  calls.foldl (fun r c => ((r.1.apply c).1, r.2 ++ [⟨c, (r.1.apply c).2⟩])) ({}, [])

theorem run_concat (calls : List Call) (c : Call) :
    run (calls ++ [c]) = (((run calls).1.apply c).1,
      (run calls).2 ++ [⟨c, ((run calls).1.apply c).2⟩]) := by
  rw [run, List.foldl_concat]
  rfl

namespace Entry

variable (e : Entry) (display generation : Int)

/-- The action that the adapter has to execute: a screen start answers with no action. -/
def action : Int := if e.call.command = some .screenStart then NONE else e.result

/-- A screen start that handed out a generation. -/
def Starts : Prop :=
  e.call.command = some .screenStart ∧ e.call.display = display ∧ e.result = generation ∧
    generation ≠ NONE

/-- What ends the generation that a display shows. -/
def Ends : Prop :=
  (e.call.command = some .screenOff ∧ e.call.display = display) ∨ ∃ g, e.Starts display g

def Keyguard : Prop :=
  e.call.command = some .keyguardDrawn ∧ e.call.display = display ∧
    e.call.generation = generation

def Completes : Prop :=
  e.action = COMPLETE_SCREEN ∧ e.call.display = display ∧ e.call.generation = generation

def Notifies : Prop := e.action = NOTIFY_BOOT_COMPLETED

end Entry

/-- A start of this display returned the generation, and nothing has ended it. -/
def Shows (log : List Entry) (display generation : Int) : Prop :=
  Since (·.Starts display generation) (·.Ends display) log

def Seen (command : Command) (log : List Entry) : Prop :=
  ∃ e ∈ log, e.call.command = some command

/-- Android is both ready and booted, as far as the policy was told. -/
def Up (log : List Entry) : Prop := Seen .systemReady log ∧ Seen .systemBooted log

theorem seen_concat {command : Command} {log : List Entry} {e : Entry} :
    Seen command (log ++ [e]) ↔ Seen command log ∨ e.call.command = some command := by
  simp [Seen, or_and_right, exists_or]

/-! ## What a call can do -/

namespace Policy

variable {p : Policy} {display generation : Int}

theorem pending_eq_some {screen : Screen} (h : p.pending display generation = some screen) :
    p.screens[display]? = some screen ∧ screen.generation = generation ∧
      screen.complete = false := by
  simpa [pending, Option.filter_eq_some_iff] using h

/-- The parts of the policy that tell when Android is up. -/
def boot (p : Policy) : Bool × Bool × Bool := (p.ready, p.booted, p.bootCallbackSent)

/-- Every effect of a call on the screens, the generations and the boot flags, with its answer. -/
inductive Outcome (p : Policy) (c : Call) : Policy × Int → Prop
  /-- A start that found a free generation. -/
  | started {p' : Policy} : c.command = some .screenStart →
      p'.generation = p.generation + 1 →
      p'.screens = p.screens.insert c.display
        ⟨p.generation + 1, c.display ≠ 0, c.display ≠ 0, false⟩ →
      p'.boot = p.boot → Outcome p c (p', p.generation + 1)
  | keyguard {p' : Policy} {screen : Screen} : c.command = some .keyguardDrawn →
      p.screens[c.display]? = some screen → screen.generation = c.generation →
      screen.complete = false → p'.generation = p.generation →
      p'.screens = p.screens.insert c.display
        { screen with keyguardDrawn := true, windowsWaitStarted := true } →
      p'.boot = p.boot → Outcome p c (p', WAIT_FOR_WINDOWS)
  | completed {p' : Policy} {screen : Screen} : c.command = some .windowsDrawn →
      p.screens[c.display]? = some screen → screen.generation = c.generation →
      screen.complete = false → screen.keyguardDrawn = true →
      p'.generation = p.generation →
      p'.screens = p.screens.insert c.display { screen with complete := true } →
      p'.boot = p.boot → Outcome p c (p', COMPLETE_SCREEN)
  | off : c.command = some .screenOff →
      Outcome p c ({ p with screens := p.screens.erase c.display }, NONE)
  | ready : c.command = some .systemReady → Outcome p c { p with ready := true }.bootNotification
  | booted : c.command = some .systemBooted →
      Outcome p c { p with booted := true }.bootNotification
  /-- Anything else, stale callbacks included, touches none of this. -/
  | aside {p' : Policy} :
      c.command ∉ [some .screenOff, some .systemReady, some .systemBooted] →
      p'.generation = p.generation → p'.screens = p.screens → p'.boot = p.boot →
      Outcome p c (p', NONE)

theorem apply_outcome (p : Policy) (c : Call) : Outcome p c (p.apply c) := by
  rw [apply, command]
  cases hc : Command.ofCode c.op with
  | none =>
    have hcommand : c.command = none := hc
    exact .aside (by simp [hcommand]) rfl rfl rfl
  | some command =>
    have hcommand : c.command = some command := hc
    cases command with
    | screenStart =>
      show Outcome p c (if 0 ≤ c.display then p.screenStart c.display else (p, NONE))
      rw [screenStart]
      split
      · split
        · exact .started hcommand rfl rfl rfl
        · exact .aside (by simp [hcommand]) rfl rfl rfl
      · exact .aside (by simp [hcommand]) rfl rfl rfl
    | keyguardDrawn =>
      show Outcome p c (p.keyguardDrawn c.display c.generation)
      rw [keyguardDrawn]
      cases hpending : p.pending c.display c.generation with
      | none => exact .aside (by simp [hcommand]) rfl rfl rfl
      | some screen =>
        obtain ⟨hscreen, hgen, hopen⟩ := pending_eq_some hpending
        show Outcome p c (if screen.windowsWaitStarted then (p, NONE) else _)
        split
        · exact .aside (by simp [hcommand]) rfl rfl rfl
        · exact .keyguard hcommand hscreen hgen hopen rfl rfl rfl
    | windowsDrawn =>
      show Outcome p c (p.windowsDrawn c.display c.generation)
      rw [windowsDrawn]
      cases hpending : p.pending c.display c.generation with
      | none => exact .aside (by simp [hcommand]) rfl rfl rfl
      | some screen =>
        obtain ⟨hscreen, hgen, hopen⟩ := pending_eq_some hpending
        show Outcome p c
          (if ¬ screen.keyguardDrawn ∨ ¬ screen.windowsWaitStarted then (p, NONE) else _)
        split
        · exact .aside (by simp [hcommand]) rfl rfl rfl
        · rename_i hdrawn
          have hkeyguard : screen.keyguardDrawn = true := by
            by_contra hnot
            exact hdrawn (.inl hnot)
          exact .completed hcommand hscreen hgen hopen hkeyguard rfl rfl rfl
    | screenOff => exact .off hcommand
    | systemReady => exact .ready hcommand
    | systemBooted => exact .booted hcommand
    | goingToSleep => exact .aside (by simp [hcommand]) rfl rfl rfl
    | bootWithOutputOff => exact .aside (by simp [hcommand]) rfl rfl rfl
    | allowLockscreenWhenOn =>
      show Outcome p c (if 0 ≤ c.display then _ else (p, NONE))
      split
      · exact .aside (by simp [hcommand]) rfl rfl rfl
      · exact .aside (by simp [hcommand]) rfl rfl rfl
    | clearLockscreenDisplays => exact .aside (by simp [hcommand]) rfl rfl rfl

end Policy

/-! ## The generations that the displays show -/

/-- The generation of a display's screen. -/
def Policy.shown (p : Policy) (display : Int) : Option Int :=
  p.screens[display]?.map (·.generation)

section Entries

variable {p : Policy} {c : Call} {log : List Entry} {display generation : Int}

theorem shows_concat {e : Entry} : Shows (log ++ [e]) display generation ↔
    e.Starts display generation ∨ Shows log display generation ∧ ¬ e.Ends display := since_concat

/-- An answer without a generation starts nothing. -/
theorem not_starts {result : Int} (h : c.command ≠ some .screenStart ∨ result = NONE) :
    ¬ (Entry.mk c result).Starts display generation := by
  rintro ⟨hstart, -, hresult, hnone⟩
  rcases h with h | h
  · exact h hstart
  · exact hnone (hresult.symm.trans h)

theorem not_ends {result : Int} (h : c.command ≠ some .screenStart ∨ result = NONE)
    (hoff : c.command ≠ some .screenOff) : ¬ (Entry.mk c result).Ends display := by
  rintro (⟨h', -⟩ | ⟨g, hstarts⟩)
  · exact hoff h'
  · exact not_starts h hstarts

theorem Entry.Ends.display_eq {e : Entry} (h : e.Ends display) : e.call.display = display := by
  rcases h with ⟨-, hd⟩ | ⟨g, -, hd, -⟩
  · exact hd
  · exact hd

theorem not_completes {result : Int}
    (h : c.command = some .screenStart ∨ result ≠ COMPLETE_SCREEN) :
    ¬ (Entry.mk c result).Completes display generation := by
  rintro ⟨haction, -⟩
  rw [Entry.action] at haction
  split at haction
  · exact absurd haction (by decide)
  · rename_i hstart
    rcases h with h | h
    · exact hstart h
    · exact h haction

theorem bootNotification_result (p : Policy) :
    p.bootNotification.2 = NOTIFY_BOOT_COMPLETED ∨ p.bootNotification.2 = NONE := by
  rw [Policy.bootNotification]
  split
  · exact .inl rfl
  · exact .inr rfl

theorem bootNotification_screens (p : Policy) :
    p.bootNotification.1.screens = p.screens ∧
      p.bootNotification.1.generation = p.generation := by
  rw [Policy.bootNotification]
  split
  · exact ⟨rfl, rfl⟩
  · exact ⟨rfl, rfl⟩

/-- A call that leaves every screen as it is, and whose entry is neither a start, an end nor a
    completion. -/
structure Quiet (p p' : Policy) (e : Entry) : Prop where
  generation : p'.generation = p.generation
  screens : p'.screens = p.screens
  not_starts : ∀ d g, ¬ e.Starts d g
  not_ends : ∀ d, ¬ e.Ends d
  not_completes : ∀ d g, ¬ e.Completes d g

/-- The notification of the boot is quiet. -/
theorem Quiet.boot {q : Policy} {command : Command} (hc : c.command = some command)
    (hcommand : command = .systemReady ∨ command = .systemBooted)
    (hgeneration : q.generation = p.generation) (hscreens : q.screens = p.screens) :
    Quiet p q.bootNotification.1 ⟨c, q.bootNotification.2⟩ := by
  have hstart : c.command ≠ some .screenStart := by
    rcases hcommand with rfl | rfl <;> simp [hc]
  have hoff : c.command ≠ some .screenOff := by
    rcases hcommand with rfl | rfl <;> simp [hc]
  have hresult : q.bootNotification.2 ≠ COMPLETE_SCREEN := by
    rcases bootNotification_result q with h | h <;> rw [h] <;> decide
  exact ⟨(bootNotification_screens q).2.trans hgeneration,
    (bootNotification_screens q).1.trans hscreens, fun _ _ => WindowPolicy.not_starts (.inl hstart),
    fun _ => WindowPolicy.not_ends (.inl hstart) hoff,
    fun _ _ => WindowPolicy.not_completes (.inr hresult)⟩

theorem Quiet.aside {p' : Policy}
    (hc : c.command ∉ [some .screenOff, some .systemReady, some .systemBooted])
    (hgeneration : p'.generation = p.generation) (hscreens : p'.screens = p.screens) :
    Quiet p p' ⟨c, NONE⟩ := by
  have hoff : c.command ≠ some .screenOff := fun h => hc (by simp [h])
  exact ⟨hgeneration, hscreens, fun _ _ => WindowPolicy.not_starts (.inr rfl),
    fun _ => WindowPolicy.not_ends (.inr rfl) hoff,
    fun _ _ => WindowPolicy.not_completes (.inr (by decide))⟩

end Entries

/-- The policy's screens are the generations that the log shows. -/
structure Generations (p : Policy) (log : List Entry) : Prop where
  nonneg : 0 ≤ p.generation
  started_le : ∀ e ∈ log, ∀ d g, e.Starts d g → g ≤ p.generation
  shown : ∀ d g, p.shown d = some g ↔ Shows log d g
  distinct : ∀ d d' g, p.shown d = some g → p.shown d' = some g → d = d'

namespace Generations

variable {p p' : Policy} {c : Call} {log : List Entry}

theorem shown_le (h : Generations p log) {d g : Int} (hshown : p.shown d = some g) :
    g ≤ p.generation := by
  obtain ⟨e, he, hstarts⟩ := ((h.shown d g).mp hshown).exists_mem
  exact h.started_le e he d g hstarts

/-- Whatever starts and ends nothing keeps the generations. -/
theorem keep {e : Entry} (h : Generations p log) (hgen : p'.generation = p.generation)
    (hshown : ∀ d, p'.shown d = p.shown d) (hstarts : ∀ d g, ¬ e.Starts d g)
    (hends : ∀ d, ¬ e.Ends d) : Generations p' (log ++ [e]) := by
  refine ⟨by rw [hgen]; exact h.nonneg, ?_, ?_, ?_⟩
  · intro x hx d g hx'
    rw [hgen]
    rcases List.mem_append.mp hx with hx | hx
    · exact h.started_le x hx d g hx'
    · rw [List.mem_singleton.mp hx] at hx'
      exact absurd hx' (hstarts d g)
  · intro d g
    rw [hshown, h.shown, shows_concat]
    simp [hstarts d g, hends d]
  · intro d d' g
    rw [hshown, hshown]
    exact h.distinct d d' g

theorem quiet {e : Entry} (h : Generations p log) (hq : Quiet p p' e) :
    Generations p' (log ++ [e]) :=
  h.keep hq.generation (fun d => by rw [Policy.shown, hq.screens]; rfl) hq.not_starts hq.not_ends

theorem start {e : Entry} (h : Generations p log) (hgen : p'.generation = p.generation + 1)
    (hshown : ∀ d, p'.shown d = if d = e.call.display then some (p.generation + 1) else p.shown d)
    (hstart : e.call.command = some .screenStart) (hresult : e.result = p.generation + 1) :
    Generations p' (log ++ [e]) := by
  have hpos : p.generation + 1 ≠ NONE := by
    have := h.nonneg
    show p.generation + 1 ≠ 0
    omega
  have hstarts (d g : Int) : e.Starts d g ↔ d = e.call.display ∧ g = p.generation + 1 := by
    constructor
    · rintro ⟨-, hd, hg, -⟩
      exact ⟨hd.symm, hg.symm.trans hresult⟩
    · rintro ⟨rfl, rfl⟩
      exact ⟨hstart, rfl, hresult, hpos⟩
  have hends (d : Int) : e.Ends d ↔ d = e.call.display := by
    constructor
    · rintro (⟨hoff, -⟩ | ⟨g, hg⟩)
      · rw [hstart] at hoff
        cases hoff
      · exact ((hstarts d g).mp hg).1
    · intro hd
      exact .inr ⟨p.generation + 1, (hstarts d _).mpr ⟨hd, rfl⟩⟩
  refine ⟨by have := h.nonneg; omega, ?_, ?_, ?_⟩
  · intro x hx d g hx'
    rw [hgen]
    rcases List.mem_append.mp hx with hx | hx
    · have := h.started_le x hx d g hx'
      omega
    · rw [List.mem_singleton.mp hx, hstarts] at hx'
      exact hx'.2.le
  · intro d g
    rw [hshown, shows_concat, hstarts, hends, ← h.shown]
    by_cases hd : d = e.call.display
    · simp [hd, eq_comm]
    · simp [hd]
  · intro d d' g hd hd'
    rw [hshown] at hd hd'
    -- a generation shown before is at most the last one handed out
    split at hd <;> split at hd'
    · rename_i h1 h2
      rw [h1, h2]
    · have hle := h.shown_le hd'
      cases hd
      omega
    · have hle := h.shown_le hd
      cases hd'
      omega
    · exact h.distinct d d' g hd hd'

theorem off {e : Entry} (h : Generations p log) (hgen : p'.generation = p.generation)
    (hshown : ∀ d, p'.shown d = if d = e.call.display then none else p.shown d)
    (hoff : e.call.command = some .screenOff) : Generations p' (log ++ [e]) := by
  have hstarts (d g : Int) : ¬ e.Starts d g := not_starts (.inl (by simp [hoff]))
  have hends (d : Int) : e.Ends d ↔ d = e.call.display := by
    constructor
    · rintro (⟨-, hd⟩ | ⟨g, hg⟩)
      · exact hd.symm
      · exact absurd hg (hstarts d g)
    · intro hd
      exact .inl ⟨hoff, hd.symm⟩
  refine ⟨by rw [hgen]; exact h.nonneg, ?_, ?_, ?_⟩
  · intro x hx d g hx'
    rw [hgen]
    rcases List.mem_append.mp hx with hx | hx
    · exact h.started_le x hx d g hx'
    · rw [List.mem_singleton.mp hx] at hx'
      exact absurd hx' (hstarts d g)
  · intro d g
    rw [hshown, shows_concat, hends, ← h.shown]
    by_cases hd : d = e.call.display
    · simp [hd, hstarts]
    · simp [hd, hstarts]
  · intro d d' g hd hd'
    rw [hshown] at hd hd'
    split at hd <;> split at hd'
    · cases hd
    · cases hd
    · cases hd'
    · exact h.distinct d d' g hd hd'

theorem shown_insert {screen : Screen} (hscreens : p'.screens = p.screens.insert c.display screen)
    (d : Int) :
    p'.shown d = if d = c.display then some screen.generation else p.shown d := by
  rw [Policy.shown, Policy.shown, hscreens, ExtTreeMap.getElem?_insert]
  by_cases hd : c.display = d
  · simp [hd]
  · simp [hd, Ne.symm hd]

/-- A screen that keeps its generation. -/
theorem shown_update {screen screen' : Screen}
    (hscreens : p'.screens = p.screens.insert c.display screen')
    (hscreen : p.screens[c.display]? = some screen) (hgen : screen'.generation = screen.generation)
    (d : Int) : p'.shown d = p.shown d := by
  rw [shown_insert hscreens]
  split
  · rename_i hd
    rw [hd, Policy.shown, hscreen, hgen]
    rfl
  · rfl

theorem step {r : Policy × Int} (h : Generations p log) (hr : Policy.Outcome p c r) :
    Generations r.1 (log ++ [⟨c, r.2⟩]) := by
  cases hr with
  | started hc hgen hscreens => exact h.start hgen (shown_insert hscreens) hc rfl
  | keyguard hc hscreen _ _ hgen hscreens =>
    exact h.keep hgen (shown_update hscreens hscreen rfl)
      (fun _ _ => not_starts (.inl (by simp [hc])))
      (fun _ => not_ends (.inl (by simp [hc])) (by simp [hc]))
  | completed hc hscreen _ _ _ hgen hscreens =>
    exact h.keep hgen (shown_update hscreens hscreen rfl)
      (fun _ _ => not_starts (.inl (by simp [hc])))
      (fun _ => not_ends (.inl (by simp [hc])) (by simp [hc]))
  | off hc =>
    refine h.off rfl (fun d => ?_) hc
    rw [Policy.shown, Policy.shown, ExtTreeMap.getElem?_erase]
    by_cases hd : c.display = d
    · simp [hd]
    · simp [hd, Ne.symm hd]
  | ready hc => exact h.quiet (.boot (q := { p with ready := true }) hc (.inl rfl) rfl rfl)
  | booted hc => exact h.quiet (.boot (q := { p with booted := true }) hc (.inr rfl) rfl rfl)
  | aside hc hgen hscreens => exact h.quiet (.aside hc hgen hscreens)

end Generations

/-! ## Drawn and completed screens -/

/-- What the flags of the screens say about the log. -/
structure Drawn (p : Policy) (log : List Entry) : Prop where
  completed_le : ∀ e ∈ log, ∀ d g, e.Completes d g → g ≤ p.generation
  complete : ∀ (d : Int) (screen : Screen), p.screens[d]? = some screen → ∀ e ∈ log, ∀ d',
    e.Completes d' screen.generation → screen.complete = true
  keyguard : ∀ screen : Screen, p.screens[(0 : Int)]? = some screen → screen.keyguardDrawn = true →
    Since (·.Keyguard 0 screen.generation) (·.Ends 0) log

namespace Drawn

variable {p p' : Policy} {c : Call} {log : List Entry}

/-- An entry that completes nothing adds no obligation to the log. -/
theorem completes_of_concat {e x : Entry} {d g : Int} (hnot : ∀ d g, ¬ e.Completes d g)
    (hx : x ∈ log ++ [e]) (hcompletes : x.Completes d g) : x ∈ log := by
  rcases List.mem_append.mp hx with hx | hx
  · exact hx
  · rw [List.mem_singleton.mp hx] at hcompletes
    exact absurd hcompletes (hnot d g)

theorem quiet {e : Entry} (h : Drawn p log) (hq : Quiet p p' e) : Drawn p' (log ++ [e]) := by
  refine ⟨?_, ?_, ?_⟩
  · intro x hx d g hx'
    rw [hq.generation]
    exact h.completed_le x (completes_of_concat hq.not_completes hx hx') d g hx'
  · intro d screen hscreen x hx d' hx'
    rw [hq.screens] at hscreen
    exact h.complete d screen hscreen x (completes_of_concat hq.not_completes hx hx') d' hx'
  · intro screen hscreen hdrawn
    rw [hq.screens] at hscreen
    exact since_concat.mpr (.inr ⟨h.keyguard screen hscreen hdrawn, hq.not_ends 0⟩)

/-- What a display shows after one screen was put in place. -/
theorem screen_of_insert {display d : Int} {screen new : Screen}
    (hscreens : p'.screens = p.screens.insert display new)
    (hscreen : p'.screens[d]? = some screen) :
    (d = display ∧ screen = new) ∨ (d ≠ display ∧ p.screens[d]? = some screen) := by
  rw [hscreens, ExtTreeMap.getElem?_insert] at hscreen
  by_cases hd : display = d
  · left
    simpa [hd, eq_comm] using hscreen
  · right
    refine ⟨Ne.symm hd, ?_⟩
    simpa [hd] using hscreen

theorem start {result : Int} (h : Drawn p log) (hc : c.command = some .screenStart)
    (hgen : p'.generation = p.generation + 1)
    (hscreens : p'.screens = p.screens.insert c.display
      ⟨p.generation + 1, c.display ≠ 0, c.display ≠ 0, false⟩) :
    Drawn p' (log ++ [⟨c, result⟩]) := by
  have hnot (d g : Int) : ¬ (Entry.mk c result).Completes d g := not_completes (.inl hc)
  refine ⟨?_, ?_, ?_⟩
  · intro x hx d g hx'
    have := h.completed_le x (completes_of_concat hnot hx hx') d g hx'
    omega
  · intro d screen hscreen x hx d' hx'
    have hx := completes_of_concat hnot hx hx'
    rcases screen_of_insert hscreens hscreen with ⟨-, rfl⟩ | ⟨-, hold⟩
    · -- no completed generation is as new as this one
      have hle : p.generation + 1 ≤ p.generation := h.completed_le x hx d' _ hx'
      omega
    · exact h.complete d screen hold x hx d' hx'
  · intro screen hscreen hdrawn
    rcases screen_of_insert hscreens hscreen with ⟨hd, rfl⟩ | ⟨hd, hold⟩
    · simp [← hd] at hdrawn
    · exact since_concat.mpr
        (.inr ⟨h.keyguard screen hold hdrawn, fun hends => hd hends.display_eq.symm⟩)

/-- The callbacks replace the screen of their display by one of the same generation. -/
theorem update {screen new : Screen} {result : Int} (h : Drawn p log) (hg : Generations p log)
    (hnot : c.command ≠ some .screenStart) (hnoff : c.command ≠ some .screenOff)
    (hscreen : p.screens[c.display]? = some screen) (hsame : screen.generation = c.generation)
    (hgen : p'.generation = p.generation) (hscreens : p'.screens = p.screens.insert c.display new)
    (hnew : new.generation = screen.generation)
    (hcomplete : screen.complete = true ∨ result = COMPLETE_SCREEN → new.complete = true)
    (hkeyguard : new.keyguardDrawn = true → screen.keyguardDrawn = true ∨
      c.command = some .keyguardDrawn) : Drawn p' (log ++ [⟨c, result⟩]) := by
  have hends : ¬ (Entry.mk c result).Ends 0 := not_ends (.inl hnot) hnoff
  have hshown : p.shown c.display = some c.generation := by
    rw [Policy.shown, hscreen, ← hsame]
    rfl
  have haction : (Entry.mk c result).action = result := if_neg hnot
  refine ⟨?_, ?_, ?_⟩
  · intro x hx d g hx'
    rw [hgen]
    rcases List.mem_append.mp hx with hx | hx
    · exact h.completed_le x hx d g hx'
    · rw [List.mem_singleton.mp hx] at hx'
      obtain ⟨-, -, rfl⟩ := hx'
      exact hg.shown_le hshown
  · intro d s hs x hx d' hx'
    rcases screen_of_insert hscreens hs with ⟨-, rfl⟩ | ⟨hd, hold⟩
    · rcases List.mem_append.mp hx with hx | hx
      · rw [hnew] at hx'
        exact hcomplete (.inl (h.complete _ screen hscreen x hx d' hx'))
      · rw [List.mem_singleton.mp hx] at hx'
        exact hcomplete (.inr (haction.symm.trans hx'.1))
    · rcases List.mem_append.mp hx with hx | hx
      · exact h.complete d s hold x hx d' hx'
      · -- the entry's own generation is shown by its display only
        rw [List.mem_singleton.mp hx] at hx'
        have hs' : p.shown d = some c.generation := by
          rw [Policy.shown, hold]
          exact congrArg some hx'.2.2.symm
        exact absurd (hg.distinct d c.display _ hs' hshown) hd
  · intro s hs hdrawn
    rcases screen_of_insert hscreens hs with ⟨hd, rfl⟩ | ⟨hd, hold⟩
    · rw [since_concat]
      rcases hkeyguard hdrawn with hdrawn | hc
      · right
        rw [hnew]
        rw [← hd] at hscreen
        exact ⟨h.keyguard screen hscreen hdrawn, hends⟩
      · left
        exact ⟨hc, hd.symm, hsame.symm.trans hnew.symm⟩
    · exact since_concat.mpr (.inr ⟨h.keyguard s hold hdrawn, hends⟩)

theorem step {r : Policy × Int} (h : Drawn p log) (hg : Generations p log)
    (hr : Policy.Outcome p c r) : Drawn r.1 (log ++ [⟨c, r.2⟩]) := by
  cases hr with
  | started hc hgen hscreens => exact h.start hc hgen hscreens
  | keyguard hc hscreen hsame hopen hgen hscreens =>
    refine h.update hg (by simp [hc]) (by simp [hc]) hscreen hsame hgen hscreens rfl ?_ ?_
    · rintro (hdone | hresult)
      · exact hdone
      · exact absurd hresult (show WAIT_FOR_WINDOWS ≠ COMPLETE_SCREEN by decide)
    · intro _
      exact .inr hc
  | completed hc hscreen hsame hopen hkeyguard hgen hscreens =>
    refine h.update hg (by simp [hc]) (by simp [hc]) hscreen hsame hgen hscreens rfl ?_ ?_
    · intro _
      rfl
    · intro _
      exact .inl hkeyguard
  | off hc =>
    have hnot (d g : Int) : ¬ (Entry.mk c NONE).Completes d g := not_completes (.inr (by decide))
    -- a screen that is still there was there before, on another display
    have hkept {d : Int} {screen : Screen}
        (hscreen : (p.screens.erase c.display)[d]? = some screen) :
        c.display ≠ d ∧ p.screens[d]? = some screen := by
      rw [ExtTreeMap.getElem?_erase] at hscreen
      simpa using hscreen
    refine ⟨?_, ?_, ?_⟩
    · intro x hx d g hx'
      exact h.completed_le x (completes_of_concat hnot hx hx') d g hx'
    · intro d screen hscreen x hx d' hx'
      exact h.complete d screen (hkept hscreen).2 x (completes_of_concat hnot hx hx') d' hx'
    · intro screen hscreen hdrawn
      obtain ⟨hd, hold⟩ := hkept hscreen
      exact since_concat.mpr
        (.inr ⟨h.keyguard screen hold hdrawn, fun hends => hd hends.display_eq⟩)
  | ready hc => exact h.quiet (.boot (q := { p with ready := true }) hc (.inl rfl) rfl rfl)
  | booted hc => exact h.quiet (.boot (q := { p with booted := true }) hc (.inr rfl) rfl rfl)
  | aside hc hgen hscreens => exact h.quiet (.aside hc hgen hscreens)

end Drawn

/-! ## The boot flags -/

structure Boot (p : Policy) (log : List Entry) : Prop where
  ready : p.ready = true ↔ Seen .systemReady log
  booted : p.booted = true ↔ Seen .systemBooted log
  sent : p.bootCallbackSent = (p.ready && p.booted)

namespace Boot

variable {p p' : Policy} {c : Call} {log : List Entry}

theorem up_iff (h : Boot p log) : Up log ↔ p.ready = true ∧ p.booted = true := by
  rw [Up, ← h.ready, ← h.booted]

theorem keep {e : Entry} (h : Boot p log) (hboot : p'.boot = p.boot)
    (hready : e.call.command ≠ some .systemReady) (hbooted : e.call.command ≠ some .systemBooted) :
    Boot p' (log ++ [e]) := by
  simp only [Policy.boot, Prod.mk.injEq] at hboot
  obtain ⟨h1, h2, h3⟩ := hboot
  refine ⟨?_, ?_, ?_⟩
  · rw [h1, h.ready, seen_concat, or_iff_left hready]
  · rw [h2, h.booted, seen_concat, or_iff_left hbooted]
  · rw [h1, h2, h3, h.sent]

/-- The notification is due exactly if Android has just come up; it is then recorded as sent. -/
theorem notification {q : Policy} {e : Entry}
    (hready : q.ready = true ↔ Seen .systemReady (log ++ [e]))
    (hbooted : q.booted = true ↔ Seen .systemBooted (log ++ [e]))
    (hsent : q.bootCallbackSent = true ↔ Up log) (hmono : Up log → Up (log ++ [e])) :
    Boot q.bootNotification.1 (log ++ [e]) ∧
      (q.bootNotification.2 = NOTIFY_BOOT_COMPLETED ↔ Up (log ++ [e]) ∧ ¬ Up log) := by
  have hup : Up (log ++ [e]) ↔ q.ready = true ∧ q.booted = true := by
    rw [Up, ← hready, ← hbooted]
  rw [Policy.bootNotification]
  split
  · rename_i hdue
    obtain ⟨h1, h2, h3⟩ := hdue
    refine ⟨⟨hready, hbooted, ?_⟩, ?_⟩
    · show true = (q.ready && q.booted)
      rw [h1, h2]
      rfl
    · rw [hup, ← hsent]
      simp [h1, h2, h3]
  · rename_i hdue
    have hboth : q.bootCallbackSent = (q.ready && q.booted) := by
      cases hs : q.bootCallbackSent with
      | true =>
        obtain ⟨h1, h2⟩ := hup.mp (hmono (hsent.mp hs))
        rw [h1, h2]
        rfl
      | false =>
        have hnot : ¬ (q.ready = true ∧ q.booted = true) := fun h => hdue ⟨h.1, h.2, by simp [hs]⟩
        simpa using hnot
    refine ⟨⟨hready, hbooted, hboth⟩, ?_⟩
    rw [hup, ← hsent]
    simp only [show NONE ≠ NOTIFY_BOOT_COMPLETED by decide, false_iff]
    rintro ⟨⟨h1, h2⟩, h3⟩
    exact hdue ⟨h1, h2, h3⟩

/-- A call that notifies nothing: neither boot command, nor an answer that says so. -/
theorem aside {e : Entry} (h : Boot p log) (hboot : p'.boot = p.boot)
    (hready : e.call.command ≠ some .systemReady) (hbooted : e.call.command ≠ some .systemBooted)
    (haction : e.action ≠ NOTIFY_BOOT_COMPLETED) :
    Boot p' (log ++ [e]) ∧ (e.Notifies ↔ Up (log ++ [e]) ∧ ¬ Up log) := by
  refine ⟨h.keep hboot hready hbooted, ?_⟩
  have hup : Up (log ++ [e]) ↔ Up log := by
    rw [Up, Up, seen_concat, seen_concat, or_iff_left hready, or_iff_left hbooted]
  rw [hup, and_not_self_iff, iff_false]
  exact haction

theorem step {r : Policy × Int} (h : Boot p log) (hr : Policy.Outcome p c r) :
    Boot r.1 (log ++ [⟨c, r.2⟩]) ∧
      ((Entry.mk c r.2).Notifies ↔ Up (log ++ [⟨c, r.2⟩]) ∧ ¬ Up log) := by
  have hmono (e : Entry) : Up log → Up (log ++ [e]) := by
    rintro ⟨h1, h2⟩
    exact ⟨seen_concat.mpr (.inl h1), seen_concat.mpr (.inl h2)⟩
  have hsent : p.bootCallbackSent = true ↔ Up log := by
    rw [h.sent, Bool.and_eq_true, h.up_iff]
  cases hr with
  | started hc _ _ hboot =>
    refine h.aside hboot (by simp [hc]) (by simp [hc]) ?_
    rw [Entry.action, if_pos hc]
    decide
  | keyguard hc _ _ _ _ _ hboot =>
    refine h.aside hboot (by simp [hc]) (by simp [hc]) ?_
    rw [Entry.action, if_neg (by simp [hc])]
    show WAIT_FOR_WINDOWS ≠ _
    decide
  | completed hc _ _ _ _ _ _ hboot =>
    refine h.aside hboot (by simp [hc]) (by simp [hc]) ?_
    rw [Entry.action, if_neg (by simp [hc])]
    show COMPLETE_SCREEN ≠ _
    decide
  | off hc =>
    refine h.aside rfl (by simp [hc]) (by simp [hc]) ?_
    rw [Entry.action, if_neg (by simp [hc])]
    show NONE ≠ _
    decide
  | ready hc =>
    obtain ⟨hnext, hnotify⟩ := notification (q := { p with ready := true })
      (e := ⟨c, _⟩) (by simp [seen_concat, hc]) (by simp [seen_concat, hc, h.booted]) hsent
      (hmono _)
    refine ⟨hnext, ?_⟩
    rw [Entry.Notifies, Entry.action, if_neg (by simp [hc])]
    exact hnotify
  | booted hc =>
    obtain ⟨hnext, hnotify⟩ := notification (q := { p with booted := true })
      (e := ⟨c, _⟩) (by simp [seen_concat, hc, h.ready]) (by simp [seen_concat, hc]) hsent
      (hmono _)
    refine ⟨hnext, ?_⟩
    rw [Entry.Notifies, Entry.action, if_neg (by simp [hc])]
    exact hnotify
  | aside hc _ _ hboot =>
    refine h.aside hboot (fun hready => hc (by simp [show c.command = _ from hready]))
      (fun hbooted => hc (by simp [show c.command = _ from hbooted])) ?_
    rw [Entry.action]
    split <;> show NONE ≠ _ <;> decide

end Boot

/-! ## Every run -/

/-- What the flags of the policy say about the calls made so far. -/
structure Tracks (p : Policy) (log : List Entry) : Prop where
  generations : Generations p log
  drawn : Drawn p log
  boot : Boot p log

theorem tracks_start : Tracks {} [] := by
  have hnone (d : Int) : (∅ : ExtTreeMap Int Screen compare)[d]? = none := by simp
  refine ⟨⟨le_rfl, by simp, ?_, ?_⟩, ⟨by simp, ?_, ?_⟩, ⟨by simp [Seen], by simp [Seen], rfl⟩⟩
  · intro d g
    simp only [Policy.shown, hnone, Option.map_none, reduceCtorEq, false_iff]
    exact not_since_nil
  · intro d d' g h
    simp [Policy.shown] at h
  · intro d screen h
    simp at h
  · intro screen h
    simp at h

theorem Tracks.step {p : Policy} {log : List Entry} (h : Tracks p log) (c : Call) :
    Tracks (p.apply c).1 (log ++ [⟨c, (p.apply c).2⟩]) :=
  ⟨h.generations.step (p.apply_outcome c), h.drawn.step h.generations (p.apply_outcome c),
    (h.boot.step (p.apply_outcome c)).1⟩

theorem run_tracks (calls : List Call) : Tracks (run calls).1 (run calls).2 := by
  induction calls using List.reverseRecOn with
  | nil => exact tracks_start
  | append_singleton calls c ih =>
    rw [run_concat]
    exact ih.step c

/-- The entries of a run in the order of the calls: each is judged by the log before it. -/
structure Orderly (log : List Entry) : Prop where
  /-- A generation is larger than all earlier ones. -/
  fresh : Along (fun before e => ∀ d g, e.Starts d g →
    ∀ x ∈ before, ∀ d' g', x.Starts d' g' → g' < g) log
  /-- It completes at most once, -/
  once : Along (fun before e => ∀ d g, e.Completes d g →
    ∀ x ∈ before, ∀ d', ¬ x.Completes d' g) log
  /-- while its display shows it, by a windows-drawn callback for it, -/
  shown : Along (fun before e => ∀ d g, e.Completes d g →
    e.call.command = some .windowsDrawn ∧ Shows before d g) log
  /-- and on display 0 only after a keyguard-drawn callback for it, with neither a screen-off nor
      another start of the display since. -/
  keyguard : Along (fun before e => ∀ g, e.Completes 0 g →
    Since (·.Keyguard 0 g) (·.Ends 0) before) log
  /-- The boot is notified at the first entry at which Android is both ready and booted, -/
  notified : Along (fun before e => e.Notifies ↔ Up (before ++ [e]) ∧ ¬ Up before) log

section Last

variable {p : Policy} {c : Call} {log : List Entry} {r : Policy × Int} {d g : Int}

theorem starts_last (hr : Policy.Outcome p c r) (h : (Entry.mk c r.2).Starts d g) :
    g = p.generation + 1 := by
  obtain ⟨hstart, -, hresult, hnone⟩ := h
  have hstart : c.command = some .screenStart := hstart
  cases hr with
  | started => exact hresult.symm
  | keyguard hc | completed hc | off hc | ready hc | booted hc =>
    rw [hc] at hstart
    cases hstart
  | aside => exact absurd hresult.symm hnone

theorem completes_last (hr : Policy.Outcome p c r) (h : (Entry.mk c r.2).Completes d g) :
    c.command = some .windowsDrawn ∧ ∃ screen, p.screens[d]? = some screen ∧
      screen.generation = g ∧ screen.complete = false ∧ screen.keyguardDrawn = true := by
  obtain ⟨haction, rfl, rfl⟩ := h
  have hnot {result : Int} (hresult : result ≠ COMPLETE_SCREEN) :
      (Entry.mk c result).action ≠ COMPLETE_SCREEN := fun h =>
    not_completes (.inr hresult) ⟨h, rfl, rfl⟩
  have hnone : NONE ≠ COMPLETE_SCREEN := by decide
  have hwait : WAIT_FOR_WINDOWS ≠ COMPLETE_SCREEN := by decide
  have hquiet (q : Policy) : q.bootNotification.2 ≠ COMPLETE_SCREEN := by
    rcases bootNotification_result q with h | h <;> rw [h] <;> decide
  cases hr with
  | started hc =>
    rw [Entry.action, if_pos hc] at haction
    exact absurd haction (by decide)
  | completed hc hscreen hsame hopen hkeyguard =>
    exact ⟨hc, _, hscreen, hsame, hopen, hkeyguard⟩
  | keyguard => exact absurd haction (hnot hwait)
  | off => exact absurd haction (hnot hnone)
  | ready => exact absurd haction (hnot (hquiet _))
  | booted => exact absurd haction (hnot (hquiet _))
  | aside => exact absurd haction (hnot hnone)

end Last

theorem Orderly.concat {p : Policy} {log : List Entry} (h : Orderly log) (ht : Tracks p log)
    (c : Call) : Orderly (log ++ [⟨c, (p.apply c).2⟩]) := by
  have hr := p.apply_outcome c
  refine ⟨h.fresh.concat ?_, h.once.concat ?_, h.shown.concat ?_, h.keyguard.concat ?_,
    h.notified.concat (ht.boot.step hr).2⟩
  · intro d g hstarts x hx d' g' hx'
    have hle := ht.generations.started_le x hx d' g' hx'
    have hg := starts_last hr hstarts
    omega
  · intro d g hcompletes x hx d' hx'
    obtain ⟨-, screen, hscreen, rfl, hopen, -⟩ := completes_last hr hcompletes
    rw [ht.drawn.complete d screen hscreen x hx d' hx'] at hopen
    cases hopen
  · intro d g hcompletes
    obtain ⟨hc, screen, hscreen, rfl, -, -⟩ := completes_last hr hcompletes
    refine ⟨hc, (ht.generations.shown d _).mp ?_⟩
    rw [Policy.shown, hscreen]
    rfl
  · intro g hcompletes
    obtain ⟨-, screen, hscreen, rfl, -, hkeyguard⟩ := completes_last hr hcompletes
    exact ht.drawn.keyguard screen hscreen hkeyguard

theorem run_orderly (calls : List Call) : Orderly (run calls).2 := by
  induction calls using List.reverseRecOn with
  | nil => exact ⟨along_nil, along_nil, along_nil, along_nil, along_nil⟩
  | append_singleton calls c ih =>
    rw [run_concat]
    exact ih.concat (run_tracks calls) c

/-- The queries that are about the calls alone: a display is on while it shows a generation, and
    Android is ready or booted once the policy was told so. -/
theorem query_log (calls : List Call) (display : Int) (value : Bool) :
    ((run calls).1.query 1 display value = true ↔ ∃ g, Shows (run calls).2 display g) ∧
    ((run calls).1.query 5 display value = true ↔ Seen .systemReady (run calls).2) ∧
    ((run calls).1.query 6 display value = true ↔ Seen .systemBooted (run calls).2) := by
  have h := run_tracks calls
  refine ⟨?_, h.boot.ready, h.boot.booted⟩
  show (run calls).1.screens.contains display = true ↔ _
  simp only [← h.generations.shown, Policy.shown, Option.map_eq_some_iff]
  rw [ExtTreeMap.contains_eq_isSome_getElem?, Option.isSome_iff_exists]
  constructor
  · rintro ⟨screen, hscreen⟩
    exact ⟨screen.generation, screen, hscreen, rfl⟩
  · rintro ⟨_, screen, hscreen, _⟩
    exact ⟨screen, hscreen⟩

/-! ## Stale callbacks -/

def Call.IsCallback (c : Call) : Prop :=
  c.command = some .keyguardDrawn ∨ c.command = some .windowsDrawn

/-- A callback whose generation its display does not show is answered with nothing. -/
theorem Tracks.stale {p : Policy} {log : List Entry} (h : Tracks p log) {c : Call}
    (hc : c.IsCallback) (hstale : ¬ Shows log c.display c.generation) :
    p.apply c = (p, NONE) := by
  have hpending : p.pending c.display c.generation = none := by
    rw [Option.eq_none_iff_forall_ne_some]
    intro screen hscreen
    obtain ⟨hscreen, hgen, -⟩ := Policy.pending_eq_some hscreen
    refine hstale ((h.generations.shown _ _).mp ?_)
    rw [Policy.shown, hscreen, ← hgen]
    rfl
  rcases hc with hc | hc
  · rw [Policy.apply, Policy.command, show Command.ofCode c.op = _ from hc]
    simp only [Policy.keyguardDrawn, hpending]
  · rw [Policy.apply, Policy.command, show Command.ofCode c.op = _ from hc]
    simp only [Policy.windowsDrawn, hpending]

/-- A display that was given a newer generation no longer shows an older one. -/
theorem Orderly.not_shows {log : List Entry} (h : Orderly log) {e : Entry} {d g g' : Int}
    (he : e ∈ log) (hstarts : e.Starts d g') (hlt : g < g') : ¬ Shows log d g := by
  rintro ⟨before, x, after, rfl, hx, hafter⟩
  rcases List.mem_append.mp he with he | he
  · have hless := h.fresh before x after rfl d g hx e he d g' hstarts
    omega
  · rcases List.mem_cons.mp he with rfl | he
    · have hsame : g' = g := hstarts.2.2.1.symm.trans hx.2.2.1
      omega
    · exact hafter e he (.inr ⟨g', hstarts⟩)

theorem Up.append {before : List Entry} (h : Up before) (after : List Entry) :
    Up (before ++ after) := by
  obtain ⟨⟨x, hx, hready⟩, y, hy, hbooted⟩ := h
  exact ⟨⟨x, by simp [hx], hready⟩, y, by simp [hy], hbooted⟩

/-- The notification is not repeated. -/
theorem Orderly.notified_once {log : List Entry} (h : Orderly log) :
    Along (fun before e => e.Notifies → ∀ x ∈ before, ¬ x.Notifies) log := by
  intro before e after hlog hnotifies x hx hx'
  obtain ⟨front, back, rfl⟩ := List.append_of_mem hx
  have hup : Up (front ++ [x]) :=
    ((h.notified front x (back ++ e :: after) (by simp [hlog])).mp hx').1
  have hnot := ((h.notified _ e after hlog).mp hnotifies).2
  refine hnot ?_
  have happend := hup.append back
  simpa using happend

/-- **Screen readiness.**  Over every sequence of calls: generations grow; each completes at most
    once, on display 0 only after its own keyguard and with nothing ending it since; a callback
    that carries another generation than its display shows, an older one in particular, leaves the
    whole policy as it is; and the boot is notified once, when Android comes up. -/
theorem screen_readiness (calls : List Call) :
    Orderly (run calls).2 ∧
    Along (fun before e => e.Notifies → ∀ x ∈ before, ¬ x.Notifies) (run calls).2 ∧
    (∀ c : Call, c.IsCallback → ¬ Shows (run calls).2 c.display c.generation →
      (run calls).1.apply c = ((run calls).1, NONE)) ∧
    ∀ c : Call, c.IsCallback → (∃ e ∈ (run calls).2, ∃ newer, e.Starts c.display newer ∧
      c.generation < newer) → (run calls).1.apply c = ((run calls).1, NONE) := by
  have ho := run_orderly calls
  refine ⟨ho, ho.notified_once, fun c hc hstale => (run_tracks calls).stale hc hstale, ?_⟩
  rintro c hc ⟨e, he, newer, hstarts, hlt⟩
  exact (run_tracks calls).stale hc (ho.not_shows he hstarts hlt)

/-- Display 0 completes after its keyguard, and the callbacks of its first start then do nothing. -/
example : (run [⟨1, 0, 0, false⟩, ⟨1, 0, 0, false⟩, ⟨2, 0, 1, false⟩, ⟨3, 0, 2, false⟩,
    ⟨2, 0, 2, false⟩, ⟨3, 0, 2, false⟩]).2.map (·.result) = [1, 2, 0, 0, 1, 2] := by decide +kernel

end Droidloom.WindowPolicy
