/-
  The lifecycle daemon (`droidloom-supervisor`, `control.rs` and `development.rs`): one process that
  owns at most one Android cell and serves control requests of local peers.

  The host is an ORACLE: every outside call takes the next step number and asks `Host` for the
  answer at that step, so any call may fail at any time, and cells may exit between any two calls.
  Waiting for a process and killing it always succeed.  `effects` records what was done to cells.
-/
import Droidloom.Lib.FileTree

namespace Droidloom.Supervisor

open Fallible FileTree

def MAX_SPEC_BYTES : Nat := 1024 * 1024
def MIN_ICON_SIZE : UInt32 := 16
def MAX_ICON_SIZE : UInt32 := 512
def MIN_DISPLAY_DPI : UInt32 := 72
def ANDROID_PER_USER_UID_RANGE : UInt32 := 100000

/-- How a cell specification is read, and the parts of it that the daemon looks into. -/
class CellSpec (Spec : Type) where
  parse : List UInt8 → Except String Spec
  validate : Spec → Except String Unit
  id : Spec → String
  hostUid : Spec → UInt32

inductive ApplicationAction
  | stop
  | uninstall
  | clearCache
  | clearData
  | settings
deriving DecidableEq, Repr

inductive ControlRequest
  | watchApplications
  | applicationIcons (components : List String) (user size : UInt32)
  | install (user : UInt32)
  | start (spec : String)
  | stop
  | restart (spec : String)
  | status
  | waitReady
  | diagnostics (package : Option String) (user lines : UInt32) (crashes : Bool)
  | launch (spec package : String) (component resolution : Option String) (user : UInt32)
  | listApplications (user : UInt32)
  | applicationIcon (component : String) (user size : UInt32)
  | display
  | setDpi (spec : String) (dpi : UInt32)
  | stats
  | applicationDetails (package : String) (user : UInt32)
  | applicationAction (package : String) (user : UInt32) (action : ApplicationAction)
deriving DecidableEq, Repr

/-- The specification that a request names. -/
def ControlRequest.specPath : ControlRequest → Option String
  | .start spec | .restart spec | .launch spec .. | .setDpi spec _ => some spec
  | _ => none

inductive CellState
  | stopped
  | running
deriving DecidableEq, Repr

structure ControlResponse where
  ok : Bool
  state : CellState
  message : String
  hostPid : Option Nat
deriving DecidableEq, Repr

/-! ## Argument checks -/

/-- `str::split_once` for one character. -/
def splitOnce (text : String) (separator : Char) : Option (String × String) :=
  match text.toList.span (· ≠ separator) with
  | (_, []) => none
  | (before, _ :: after) => some (String.ofList before, String.ofList after)

def packageByte (c : Char) : Bool := c.isAlphanum || c = '.' || c = '_'

def validatePackage (package : String) : Except String Unit :=
  rejectIf (¬ (package ≠ "" ∧ package.utf8ByteSize ≤ 255 ∧ '.' ∈ package.toList ∧
    package.toList.all packageByte)) ("invalid Android package name " ++ package.quote)

def validComponent (component : String) : Bool :=
  component.utf8ByteSize ≤ 511 && (splitOnce component '/').any fun (package, activity) =>
    (validatePackage package).toBool && activity ≠ "" &&
      activity.toList.all fun c => packageByte c || c = '$'

def validateComponent (component : String) : Except String Unit :=
  rejectIf (¬ validComponent component)
    ("invalid flattened Android component " ++ component.quote)

def validateAndroidUser (user : UInt32) : Except String Unit :=
  rejectIf (¬ user ≤ 0x7fffffff / ANDROID_PER_USER_UID_RANGE)
    ("Android user ID " ++ toString user ++ " exceeds the framework range")

def validDimension (dimension : String) : Bool :=
  dimension ≠ "" && dimension.utf8ByteSize ≤ 5 && dimension.toList.all Char.isDigit &&
    dimension.toNat?.any fun size => 1 ≤ size && size ≤ 16384

def parseLaunchResolution (value : String) : Except String String := do
  rejectIf (¬ (splitOnce value 'x').any fun (width, height) =>
      validDimension width && validDimension height)
    "resolution must be WIDTHxHEIGHT with each dimension in 1..=16384"
  return value

def validateDisplayDensity (dpi : UInt32) : Except String Unit :=
  rejectIf (dpi < MIN_DISPLAY_DPI ∨ dpi > 0x7fffffff)
    "display density must be between 72 and 2147483647 dpi"

def validIconSize (size : UInt32) : Bool := MIN_ICON_SIZE ≤ size && size ≤ MAX_ICON_SIZE

def authorizeUid (peer owner : UInt32) : Except String Unit :=
  rejectIf (¬ (peer = 0 ∨ peer = owner))
    ("host UID " ++ toString peer ++ " is not authorized for host UID " ++ toString owner ++
      "'s cell")

/-! ## The host -/

/-- The trusted directory, and what the host answers at each step: which cells have exited by then,
    what its file system holds, the outcome of a set-up or clean-up operation, whether an optional
    helper came up, how many polls fit before the stop deadline, and what is found in or answered
    by a cell. -/
structure Host where
  specDirectory : String
  exits : Nat → Nat → Bool
  status : Nat → String
  files : Nat → FileSystem
  attempt : Nat → Except String Unit
  present : Nat → Bool
  patience : Nat → Nat
  ready : Nat → Except String UInt32
  initPid : Nat → Except String (Option UInt32)
  reply : Nat → Except String String

/-- What the daemon does to a cell; cells are numbered in the order in which they start. -/
inductive Effect (Spec : Type)
  | started (cell : Nat) (specPath : String) (spec : Spec)
  | signalled (cell : Nat)
  | killed (cell : Nat)
  | sent (cell : Nat) (what : String)
deriving DecidableEq, Repr

def Effect.cell {Spec : Type} : Effect Spec → Nat
  | .started cell _ _ | .signalled cell | .killed cell | .sent cell _ => cell

/-- The owner of one namespace process and of its host resources. -/
structure DevelopmentCell where
  process : Nat
  network : Bool
  adb : Bool
  cleaned : Bool
deriving DecidableEq, Repr

structure ActiveCell (Spec : Type) where
  specPath : String
  spec : Spec
  cell : DevelopmentCell
  readyInit : Option UInt32

/-- The daemon and the cell processes that it has started. -/
structure System (Spec : Type) where
  active : Option (ActiveCell Spec) := none
  lastExit : Option String := none
  clock : Nat := 0
  alive : Finset Nat := ∅
  spawned : Nat := 0
  effects : List (Effect Spec) := []

/-- Outside calls never lose the daemon; what fails is a value. -/
abbrev Calls (Spec : Type) := StateM (System Spec)

abbrev Method (Spec : Type) := EStateM String (System Spec)

variable {Spec : Type}

/-- Takes the next step number; processes may exit meanwhile. -/
def tick (host : Host) : Calls Spec Nat := fun system =>
  (system.clock, { system with
    clock := system.clock + 1
    alive := system.alive.filter fun cell => host.exits system.clock cell = false })

/-- One fallible set-up or clean-up operation. -/
def outcome (host : Host) : Calls Spec (Except String Unit) := do
  return host.attempt (← tick host)

def record (effect : Effect Spec) : Calls Spec Unit :=
  modify fun system => { system with effects := system.effects ++ [effect] }

/-- An outside call inside a method. -/
def call {α : Type} (x : Calls Spec α) : Method Spec α := fun system =>
  let (a, system) := x system
  .ok a system

def attempt (host : Host) : Method Spec Unit := do
  mapErr id (← call (outcome host))

namespace DevelopmentCell

/-- `child.try_wait()`: a child that has exited is reaped. -/
def exited (host : Host) (cell : DevelopmentCell) : Calls Spec Bool := do
  let _ ← tick host
  return cell.process ∉ (← get).alive

/-- `network.take()` and its teardown. -/
def teardownNetwork (host : Host) (cell : DevelopmentCell) :
    Calls Spec (Except String Unit) :=
  if cell.network then outcome host else pure (.ok ())

/-- Every step is tried, the first failure is reported, and there is no second attempt. -/
def cleanup (host : Host) (cell : DevelopmentCell) :
    Calls Spec (DevelopmentCell × Except String Unit) := do
  if cell.cleaned then return (cell, .ok ())
  else
    let network ← cell.teardownNetwork host
    let runtime ← outcome host
    let cell := { cell with adb := false, network := false, cleaned := true }
    match network with
    | .error error => return (cell, .error error)
    | .ok () => return (cell, runtime)

/-- The exit status once the child has exited; the clean-up happens at once. -/
def tryWait (host : Host) (cell : DevelopmentCell) :
    Calls Spec (DevelopmentCell × Except String (Option String)) := do
  if ← cell.exited host then
    let status := host.status (← get).clock
    let (cell, result) ← cell.cleanup host
    return (cell, result.map fun _ => some status)
  else return (cell, .ok none)

/-- The polls until the stop deadline. -/
def awaitExit (host : Host) (cell : DevelopmentCell) : Nat → Calls Spec Bool
  | 0 => return false
  | polls + 1 => do
    if ← cell.exited host then return true
    else cell.awaitExit host polls

/-- SIGTERM, ten seconds of polling, then SIGKILL and a wait. -/
def stop (host : Host) (cell : DevelopmentCell) :
    Calls Spec (DevelopmentCell × Except String Unit) := do
  if ← cell.exited host then cell.cleanup host
  else
    record (.signalled cell.process)
    let polls := host.patience (← tick host)
    if ← cell.awaitExit host polls then cell.cleanup host
    else
      record (.killed cell.process)
      modify fun system => { system with alive := system.alive.erase cell.process }
      cell.cleanup host

/-- The destructor stops a cell that was not cleaned. -/
def drop (host : Host) (cell : DevelopmentCell) : Calls Spec Unit := do
  if cell.cleaned then return
  else
    let _ ← cell.stop host
    return

end DevelopmentCell

def spawn (specPath : String) (spec : Spec) : Calls Spec Nat := fun system =>
  (system.spawned, { system with
    alive := insert system.spawned system.alive
    spawned := system.spawned + 1
    effects := system.effects ++ [.started system.spawned specPath spec] })

/-- `start_development_cell`: user folders, inputs and host directories first, then the network,
    and the process last; a failure undoes what was set up. -/
def startDevelopmentCell (host : Host) (specPath : String) (spec : Spec) :
    Method Spec DevelopmentCell := do
  attempt host
  attempt host
  attempt host
  match ← call (outcome host) with
  | .error error => do
    attempt host
    throw error
  | .ok () => do
    let client := host.present (← call (tick host))
    match ← call (outcome host) with
    | .ok () => do
      let process ← call (spawn specPath spec)
      let adb := client && host.present (← call (tick host))
      return { process, network := true, adb, cleaned := false }
    | .error source => do
      let network ← call (outcome host)
      let runtime ← call (outcome host)
      mapErr id network
      mapErr id runtime
      throw ("execute networked unshare: " ++ source)

/-! ## The daemon -/

def success (message : String) : Method Spec ControlResponse := do
  let active := (← get).active
  return { ok := true, state := if active.isSome then .running else .stopped, message,
           hostPid := active.map (·.cell.process) }

def failure (message : String) (system : System Spec) : ControlResponse :=
  { ok := false, state := if system.active.isSome then .running else .stopped, message,
    hostPid := system.active.map (·.cell.process) }

def poll (host : Host) : Method Spec Unit := do
  match (← get).active with
  | none => return
  | some active => do
    let (cell, result) ← call (active.cell.tryWait host)
    match result with
    | .ok (some status) => do
      modify fun system => { system with
        lastExit := some ("Android cell exited with " ++ status), active := none }
      call (cell.drop host)
    | .ok none =>
      modify fun system => { system with active := some { active with cell } }
    | .error error => do
      modify fun system => { system with
        lastExit := some ("Android cell teardown failed: " ++ error), active := none }
      call (cell.drop host)
      throw error

/-- One operation on the file system as it is at this step. -/
def inspect {α : Type} (host : Host) (operation : String)
    (x : FileSystem → Except FileTree.Error α) : Method Spec α := do
  let step ← call (tick host)
  mapErr (fun error => operation ++ ": " ++ error.text) (x (host.files step))

variable [CellSpec Spec]

def loadSpec (host : Host) (path : String) : Method Spec Spec := do
  let metadata ← inspect host "stat cell specification" (·.metadata path)
  rejectIf (metadata.len > MAX_SPEC_BYTES) ("cell specification is " ++ toString metadata.len ++
    " bytes; maximum is " ++ toString MAX_SPEC_BYTES)
  let content ← inspect host "read cell specification" (·.read path)
  let spec ← mapErr ("invalid lifecycle protocol message: " ++ ·) (CellSpec.parse content)
  mapErr id (CellSpec.validate spec)
  return spec

/-- What the daemon asks of a specification that it reads for somebody else than root. -/
def trustedSpec (metadata : Node) (canonical canonicalDirectory : List String) : Bool :=
  metadata.isFile && metadata.owner = 0 && metadata.mode &&& 0o022 = 0 &&
    canonicalDirectory.isPrefixOf canonical

/-- The checks of `load_authorized_spec` in front of `load_spec`. -/
def inspectSpec (host : Host) (peer : UInt32) (path : String) : Method Spec Unit := do
  if peer = 0 then return
  else
    let metadata ← inspect host "inspect cell specification" (·.symlinkMetadata path)
    let canonical ← inspect host "resolve cell specification" (·.canonicalize path)
    let canonicalDirectory ← inspect host "resolve trusted specification directory"
      (·.canonicalize host.specDirectory)
    rejectIf (¬ trustedSpec metadata canonical canonicalDirectory)
      ("non-root clients may use only root-owned, non-writable specifications below " ++
        host.specDirectory)

/-- The specification at a path, for a peer that may use it. -/
def loadAuthorizedSpec (host : Host) (peer : UInt32) (path : String) : Method Spec Spec := do
  inspectSpec host peer path
  let spec ← loadSpec host path
  mapErr id (authorizeUid peer (CellSpec.hostUid spec))
  return spec

variable [DecidableEq Spec]

def start (host : Host) (peer : UInt32) (specPath : String) :
    Method Spec ControlResponse := do
  let spec ← loadAuthorizedSpec host peer specPath
  match (← get).active with
  | some active =>
    if active.spec = spec then
      success ("cell " ++ CellSpec.id spec ++ " is already running")
    else
      throw ("cell " ++ CellSpec.id active.spec ++ " is already running from " ++ active.specPath)
  | none => do
    attempt host
    let cell ← startDevelopmentCell host specPath spec
    modify fun system => { system with
      active := some { specPath, spec, cell, readyInit := none }, lastExit := none }
    return { ok := true, state := .running, message := "started cell " ++ CellSpec.id spec,
             hostPid := some cell.process }

def stop (host : Host) (peer : UInt32) : Method Spec ControlResponse := do
  match (← get).active with
  | none => success "cell is already stopped"
  | some active => do
    mapErr id (authorizeUid peer (CellSpec.hostUid active.spec))
    modify fun system => { system with active := none }
    let (cell, result) ← call (active.cell.stop host)
    call (cell.drop host)
    mapErr id result
    modify fun system => { system with lastExit := none }
    success ("stopped cell " ++ CellSpec.id active.spec)

def restart (host : Host) (peer : UInt32) (specPath : String) :
    Method Spec ControlResponse := do
  let _ ← loadAuthorizedSpec host peer specPath
  if (← get).active.isSome then
    let _ ← stop host peer
    start host peer specPath
  else start host peer specPath

def ensureActiveCell (host : Host) (peer : UInt32) (specPath : String) :
    Method Spec Unit := do
  match (← get).active with
  | none => do
    let _ ← start host peer specPath
    return
  | some active => do
    let requested ← loadAuthorizedSpec host peer specPath
    rejectIf (active.spec ≠ requested)
      "the running cell does not match the requested specification"

def requireActiveCell (host : Host) (peer : UInt32) (expected : Option String) :
    Method Spec (ActiveCell Spec) := do
  match (← get).active with
  | none => throw "Droidloom's boot-managed Android cell is not running"
  | some active => do
    mapErr id (authorizeUid peer (CellSpec.hostUid active.spec))
    match expected with
    | none => return active
    | some specPath => do
      let requested ← loadAuthorizedSpec host peer specPath
      rejectIf (active.spec ≠ requested)
        "the running cell does not match the requested specification"
      return active

/-! ## Requests to the cell -/

/-- One exchange with the processes of the cell. -/
def exchange (host : Host) (active : ActiveCell Spec) (what : String) :
    Method Spec String := do
  call (record (.sent active.cell.process what))
  mapErr id (host.reply (← call (tick host)))

/-- The cached pid of Android init. -/
def remember (pid : Option UInt32) : Method Spec Unit :=
  modify fun system => { system with
    active := system.active.map fun active => { active with readyInit := pid } }

/-- Waits for Android to be ready, by probes inside the cell; the answer is remembered. -/
def readyInit (host : Host) (active : ActiveCell Spec) : Method Spec UInt32 := do
  match active.readyInit with
  | some pid => return pid
  | none => do
    call (record (.sent active.cell.process "readiness"))
    let pid ← mapErr id (host.ready (← call (tick host)))
    remember (some pid)
    return pid

/-- A request that waits for Android and is then answered by it. -/
def request (host : Host) (active : ActiveCell Spec) (what : String) : Method Spec String := do
  let _ ← readyInit host active
  exchange host active what

def status (host : Host) (peer : UInt32) : Method Spec ControlResponse := do
  match (← get).active with
  | some active => do
    mapErr id (authorizeUid peer (CellSpec.hostUid active.spec))
    let phase ← exchange host active "boot snapshot"
    success ("cell " ++ CellSpec.id active.spec ++ " is running from " ++ active.specPath ++ "; " ++
      phase)
  | none => success ((← get).lastExit.getD "cell is stopped")

def waitReady (host : Host) (peer : UInt32) : Method Spec ControlResponse := do
  let active ← requireActiveCell host peer none
  -- an explicit request rechecks a possible restart of Android's system server
  remember none
  let _ ← readyInit host { active with readyInit := none }
  success "Droidloom is running; Android is ready"

def launch (host : Host) (peer : UInt32) (specPath package : String)
    (component resolution : Option String) (user : UInt32) : Method Spec ControlResponse := do
  mapErr id (validatePackage package)
  let _ ← mapErr id (resolution.mapM parseLaunchResolution)
  mapErr id (component.forM fun component => do
    validateComponent component
    rejectIf (¬ (splitOnce component '/').any fun (owner, _) => owner = package)
      ("launcher component " ++ component ++ " does not belong to package " ++ package))
  mapErr id (validateAndroidUser user)
  let active ← requireActiveCell host peer (some specPath)
  let _ ← request host active "launch"
  success ("launched " ++ package)

def listApplications (host : Host) (peer user : UInt32) : Method Spec ControlResponse := do
  mapErr id (validateAndroidUser user)
  let active ← requireActiveCell host peer none
  let output ← request host active "catalog"
  success ("listed Android applications: " ++ output)

def install (host : Host) (peer user : UInt32) (file : Option String) :
    Method Spec ControlResponse := do
  mapErr id (validateAndroidUser user)
  let active ← requireActiveCell host peer none
  let _ ← okOr file
    "install requires an APK file descriptor; update both droidloomctl and droidloomd"
  attempt host
  let _ ← request host active "install"
  success "APK installed successfully; the application catalog will refresh automatically"

def applicationIcon (host : Host) (peer : UInt32) (component : String) (user size : UInt32) :
    Method Spec ControlResponse := do
  mapErr id (validateComponent component)
  mapErr id (validateAndroidUser user)
  rejectIf (¬ validIconSize size) "application icon size must be between 16 and 512 pixels"
  let active ← requireActiveCell host peer none
  let _ ← request host active "icons"
  success ("rendered Android application icon for " ++ component)

def applicationIcons (host : Host) (peer : UInt32) (components : List String)
    (user size : UInt32) : Method Spec ControlResponse := do
  rejectIf (user ≠ 0 ∨ components = [] ∨ components.length > 32 ∨ ¬ validIconSize size)
    "invalid icon batch scope or size"
  mapErr id (components.forM validateComponent)
  let active ← requireActiveCell host peer none
  let _ ← request host active "icons"
  success "rendered Android launcher icon batch"

/-- The pid of Android init, when it is already there. -/
def androidInit (host : Host) (active : ActiveCell Spec) : Method Spec (Option UInt32) := do
  match active.readyInit with
  | some pid => return some pid
  | none => mapErr id (host.initPid (← call (tick host)))

def watchApplications (host : Host) (peer : UInt32) : Method Spec ControlResponse := do
  let active ← requireActiveCell host peer none
  let _ ← okOr (← androidInit host active) "Android init unavailable"
  let _ ← exchange host active "catalog-events"
  success "subscribed to framework catalog events"

def stats (host : Host) (peer : UInt32) : Method Spec ControlResponse := do
  match (← get).active with
  | none => success ((← get).lastExit.getD "cell is stopped")
  | some active => do
    mapErr id (authorizeUid peer (CellSpec.hostUid active.spec))
    let _ ← androidInit host active
    success ("cell " ++ CellSpec.id active.spec ++ " is running")

def applicationDetails (host : Host) (peer : UInt32) (package : String) (user : UInt32) :
    Method Spec ControlResponse := do
  mapErr id (validatePackage package)
  mapErr id (validateAndroidUser user)
  let active ← requireActiveCell host peer none
  let _ ← request host active "package"
  success ("read " ++ package)

def ApplicationAction.wire : ApplicationAction → String
  | .stop => "stop"
  | .uninstall => "uninstall"
  | .clearCache => "clear_cache"
  | .clearData => "clear_data"
  | .settings => "settings"

def applicationAction (host : Host) (peer : UInt32) (package : String) (user : UInt32)
    (action : ApplicationAction) : Method Spec ControlResponse := do
  mapErr id (validatePackage package)
  mapErr id (validateAndroidUser user)
  let active ← requireActiveCell host peer none
  let output ← request host active action.wire
  success output

def display (host : Host) (peer : UInt32) : Method Spec ControlResponse := do
  let active ← requireActiveCell host peer none
  let output ← request host active "display"
  success ("display density is " ++ output ++ " dpi")

def setDpi (host : Host) (peer : UInt32) (specPath : String) (dpi : UInt32) :
    Method Spec ControlResponse := do
  mapErr id (validateDisplayDensity dpi)
  ensureActiveCell host peer specPath
  match (← get).active with
  | none => throw "density configuration ensured an active cell"
  | some active => do
    let _ ← request host active "density"
    success ("set persistent Android display density to " ++ toString dpi ++ " dpi")

def diagnostics (host : Host) (peer : UInt32) (package : Option String) (user lines : UInt32)
    (crashes : Bool) : Method Spec ControlResponse := do
  let active ← requireActiveCell host peer none
  mapErr id (package.forM validatePackage)
  mapErr id (validateAndroidUser user)
  rejectIf (¬ (1 ≤ lines ∧ lines ≤ 2000)) "log line count must be between 1 and 2000"
  let _ ← okOr (← mapErr id (host.initPid (← call (tick host))))
    "Android init is not available for diagnostics"
  let _ ← exchange host active "diagnostics"
  success (if crashes then "Android crash report" else "Android logs")

/-! ## Serving -/

/-- The dispatch of `handle`, with the catalog subscription that the serving loop handles itself. -/
def dispatch (host : Host) (peer : UInt32) (file : Option String) :
    ControlRequest → Method Spec ControlResponse
  | .watchApplications => watchApplications host peer
  | .applicationIcons components user size => applicationIcons host peer components user size
  | .install user => install host peer user file
  | .start spec => start host peer spec
  | .stop => stop host peer
  | .restart spec => restart host peer spec
  | .status => status host peer
  | .waitReady => waitReady host peer
  | .diagnostics package user lines crashes => diagnostics host peer package user lines crashes
  | .launch spec package component resolution user =>
    launch host peer spec package component resolution user
  | .listApplications user => listApplications host peer user
  | .applicationIcon component user size => applicationIcon host peer component user size
  | .display => display host peer
  | .setDpi spec dpi => setDpi host peer spec dpi
  | .stats => stats host peer
  | .applicationDetails package user => applicationDetails host peer package user
  | .applicationAction package user action => applicationAction host peer package user action

/-- `handle`: exits are noticed first, then the request is served; errors become responses. -/
def handle (host : Host) (peer : UInt32) (request : ControlRequest) (file : Option String) :
    Calls Spec ControlResponse := fun system =>
  match (do poll host; dispatch host peer file request : Method Spec ControlResponse) system with
  | .ok response system => (response, system)
  | .error error system => (failure error system, system)

def shutdown (host : Host) : Method Spec Unit := do
  match (← get).active with
  | none => return
  | some active => do
    modify fun system => { system with active := none }
    let (cell, result) ← call (active.cell.stop host)
    call (cell.drop host)
    mapErr id result

end Droidloom.Supervisor
