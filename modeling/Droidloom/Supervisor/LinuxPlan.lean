/-
  The plan of a cell (`linux_plan.rs`): what is done to Linux to build it up and to take it down.

  A cell specification is validated and then translated, step by step of the fixed lifecycle, into
  operations; the teardown is translated from the same steps in reverse.  The two translations are
  written independently of each other.  Which of the user's own folders are shared is looked up on
  the host at each start: `UserFolders` says what that look finds.
-/
import Droidloom.Lib.Fallible
import Droidloom.Lib.PathNames

namespace Droidloom.LinuxPlan

open PathNames

/-! ## Cell specifications -/

structure IdRange where
  start : UInt32
  count : UInt32
deriving DecidableEq, Repr

def IdRange.endExclusive (range : IdRange) : Nat := range.start.toNat + range.count.toNat

def IdRange.contains (range : IdRange) (id : UInt32) : Bool :=
  range.start.toNat ≤ id.toNat ∧ id.toNat < range.endExclusive

structure AndroidFileOverride where
  source : PathBuf
  target : PathBuf
deriving DecidableEq, Repr

structure AndroidRuntimeDirectory where
  source : PathBuf
  target : PathBuf
deriving DecidableEq, Repr

structure SharedStorageDirectory where
  source : PathBuf
  /-- Single component below `/data/media/0`. -/
  androidName : String
  hostGid : UInt32
deriving DecidableEq, Repr

def SharedStorageDirectory.androidBackingPath (directory : SharedStorageDirectory) : PathBuf :=
  (PathBuf.mk "/data/media/0").join directory.androidName

inductive GraphicsBackend
  | drm
  | drmDmaHeap
  | kgslDmaHeap
deriving DecidableEq, Repr

def GraphicsBackend.auxiliaryDevices : GraphicsBackend → List PathBuf
  | .drm => []
  | .drmDmaHeap => [⟨"/dev/dma_heap/system"⟩]
  | .kgslDmaHeap => [⟨"/dev/kgsl-3d0"⟩, ⟨"/dev/dma_heap/system"⟩]

structure CellSpec where
  hostUid : UInt32
  subordinateUids : IdRange
  subordinateGids : IdRange
  imageDir : PathBuf
  gappsDir : Option PathBuf := none
  vendorImage : PathBuf
  androidInit : Option PathBuf := none
  androidFileOverrides : List AndroidFileOverride := []
  androidRuntimeDirectories : List AndroidRuntimeDirectory := []
  sharedStorageDirectories : List SharedStorageDirectory := []
  shareUserFolders : Bool := false
  dataDir : PathBuf
  runtimeDir : PathBuf
  renderNode : PathBuf
  graphicsBackend : GraphicsBackend := .drm
  denialSocket : PathBuf
deriving DecidableEq, Repr

def CellSpec.id (spec : CellSpec) : String := "u" ++ toString spec.hostUid

/-! ## The user's own folders -/

/-- What a look at the host finds for a user. -/
structure UserFolders where
  /-- The user's primary group, if the account has a usable home. -/
  account : UInt32 → Option UInt32
  /-- The folder for an XDG key with its usual name, if it is now a directory of the user and of
      that group. -/
  folder : UInt32 → UInt32 → String → String → Option PathBuf

def FOLDERS : List (String × String × String) :=
  [("XDG_DOWNLOAD_DIR", "Downloads", "Download"), ("XDG_PICTURES_DIR", "Pictures", "Pictures"),
    ("XDG_DOCUMENTS_DIR", "Documents", "Documents"), ("XDG_MUSIC_DIR", "Music", "Music"),
    ("XDG_VIDEOS_DIR", "Videos", "Movies")]

/-- The user's folders that can be shared now, without the names that are shared explicitly. -/
def resolve (host : UserFolders) (spec : CellSpec) : List SharedStorageDirectory :=
  if ¬ spec.shareUserFolders then []
  else
    match host.account spec.hostUid with
    | none => []
    | some gid =>
      -- every shared folder maps to Android's media group through one host group
      if spec.sharedStorageDirectories.head?.any (·.hostGid ≠ gid) then []
      else
        (FOLDERS.filter fun entry =>
          ! spec.sharedStorageDirectories.any (·.androidName = entry.2.2)).filterMap
          fun (key, usual, android) =>
            (host.folder spec.hostUid gid key usual).map fun source =>
              { source, androidName := android, hostGid := gid }

def sharedStorage (host : UserFolders) (spec : CellSpec) : List SharedStorageDirectory :=
  spec.sharedStorageDirectories ++ resolve host spec

/-! ## Validation -/

def MIN_SUBORDINATE_IDS : Nat := 100000

def isNormalAbsolute (path : PathBuf) : Bool :=
  path.isAbsolute && path.components.all fun
    | .rootDir | .normal _ => true
    | _ => false

def OVERRIDE_ROOTS : List PathBuf := [⟨"/system"⟩, ⟨"/system_ext"⟩, ⟨"/product"⟩, ⟨"/vendor"⟩]

def isAndroidFileOverrideTarget (path : PathBuf) : Bool :=
  isNormalAbsolute path && OVERRIDE_ROOTS.any fun root => path.startsWith root && ! path.same root

def isDroidloomRuntimeTarget (path : PathBuf) : Bool :=
  isNormalAbsolute path && path.startsWith ⟨"/droidloom"⟩ && ! path.same ⟨"/droidloom"⟩

def isAndroidSharedStorageName (name : String) : Bool :=
  if name = "" ∨ name.utf8ByteSize > 255 ∨ '\x00' ∈ name.toList ∨
      name.toList.map Char.toLower = "android".toList then false
  else
    match (PathBuf.mk name).components with
    | [.normal _] => true
    | _ => false

def problemIf (condition : Prop) [Decidable condition] (message : String) : List String :=
  if condition then [message] else []

@[simp] theorem problemIf_eq_nil {condition : Prop} [Decidable condition] {message : String} :
    problemIf condition message = [] ↔ ¬ condition := by
  rw [problemIf]
  split <;> simp_all

def rangeProblems (name : String) (range : IdRange) : List String :=
  problemIf (range.count.toNat < MIN_SUBORDINATE_IDS)
    (name ++ " has " ++ toString range.count ++ " IDs; at least " ++
      toString MIN_SUBORDINATE_IDS ++ " are required") ++
  problemIf (range.endExclusive > 2 ^ 32) (name ++ " overflows the 32-bit ID space")

def pathProblems (name : String) (path : PathBuf) : List String :=
  problemIf (¬ isNormalAbsolute path) (name ++ " must be a normalized absolute path")

def field (list : String) (index : Nat) (name : String) : String :=
  list ++ "[" ++ toString index ++ "]." ++ name

/-- The set of targets seen so far is a list of component lists: paths are compared by those. -/
def overrideProblems (index : Nat) (seen : List (List Component)) :
    List AndroidFileOverride → List String
  | [] => []
  | o :: rest =>
    pathProblems (field "android_file_overrides" index "source") o.source ++
    problemIf (¬ isAndroidFileOverrideTarget o.target)
      (field "android_file_overrides" index "target" ++
        " must be a normalized path below /system, /system_ext, /product, or /vendor") ++
    problemIf (o.target.same ⟨"/system/bin/init"⟩)
      (field "android_file_overrides" index "target" ++
        " must use android_init for /system/bin/init") ++
    problemIf (o.target.components ∈ seen)
      (field "android_file_overrides" index "target" ++ " duplicates " ++ o.target.text) ++
    overrideProblems (index + 1) (o.target.components :: seen) rest

def runtimeProblems (index : Nat) (seen : List PathBuf) :
    List AndroidRuntimeDirectory → List String
  | [] => []
  | d :: rest =>
    pathProblems (field "android_runtime_directories" index "source") d.source ++
    problemIf (¬ isDroidloomRuntimeTarget d.target)
      (field "android_runtime_directories" index "target" ++
        " must be a normalized directory below /droidloom") ++
    problemIf (∃ target ∈ seen, target.startsWith d.target ∨ d.target.startsWith target)
      (field "android_runtime_directories" index "target" ++ " overlaps " ++ d.target.text) ++
    runtimeProblems (index + 1) (d.target :: seen) rest

def sharedStorageProblems (commonGid : Option UInt32) (index : Nat) (names : List String) :
    List SharedStorageDirectory → List String
  | [] => []
  | d :: rest =>
    pathProblems (field "shared_storage_directories" index "source") d.source ++
    (if ¬ isAndroidSharedStorageName d.androidName then
      [field "shared_storage_directories" index "android_name" ++
        " must be one non-reserved Android path component"]
    else problemIf (d.androidName ∈ names)
      (field "shared_storage_directories" index "android_name" ++ " duplicates " ++
        d.androidName)) ++
    problemIf (some d.hostGid ≠ commonGid)
      (field "shared_storage_directories" index "host_gid" ++
        " must match the other shared directories") ++
    -- a name is remembered only if it is acceptable
    sharedStorageProblems commonGid (index + 1)
      (if isAndroidSharedStorageName d.androidName then d.androidName :: names else names) rest

/-- `renderD` and at least one digit, nothing else. -/
def isRenderName (name : String) : Bool :=
  "renderD".toList.isPrefixOf name.toList &&
    (let suffix := name.toList.drop 7
     ! suffix.isEmpty && suffix.all fun c => '0' ≤ c && c ≤ '9')

def renderProblems (path : PathBuf) : List String :=
  problemIf (path.parent ≠ some (PathBuf.mk "/dev/dri").components ∨
      ¬ path.fileName.any isRenderName)
    "render_node must name exactly one /dev/dri/renderD<number> node"

def CellSpec.problems (spec : CellSpec) : List String :=
  rangeProblems "subordinate_uids" spec.subordinateUids ++
  rangeProblems "subordinate_gids" spec.subordinateGids ++
  problemIf (spec.subordinateUids.contains spec.hostUid)
    "the interactive host UID must not be inside the Android UID map" ++
  pathProblems "image_dir" spec.imageDir ++
  pathProblems "vendor_image" spec.vendorImage ++
  pathProblems "data_dir" spec.dataDir ++
  pathProblems "runtime_dir" spec.runtimeDir ++
  pathProblems "render_node" spec.renderNode ++
  pathProblems "denial_socket" spec.denialSocket ++
  (spec.gappsDir.elim [] (pathProblems "gapps_dir")) ++
  (spec.androidInit.elim [] (pathProblems "android_init")) ++
  overrideProblems 0 [] spec.androidFileOverrides ++
  runtimeProblems 0 [] spec.androidRuntimeDirectories ++
  sharedStorageProblems (spec.sharedStorageDirectories.head?.map (·.hostGid)) 0 []
    spec.sharedStorageDirectories ++
  renderProblems spec.renderNode

structure SpecError where
  problems : List String
deriving DecidableEq, Repr

def CellSpec.validate (spec : CellSpec) : Except SpecError Unit :=
  if spec.problems = [] then .ok () else .error ⟨spec.problems⟩

/-! ## Operations -/

inductive LifecycleStep
  | reserveIdentity
  | createNamespaces
  | populateIdMaps
  | assembleMountsAndDevices
  | createBinderContexts
  | createNetworkPolicy
  | applyResourceLimits
  | startAndroidInit
  | publishHandle
deriving DecidableEq, Repr

def CONSTRUCTION_ORDER : List LifecycleStep :=
  [.reserveIdentity, .createNamespaces, .populateIdMaps, .assembleMountsAndDevices,
    .createBinderContexts, .createNetworkPolicy, .applyResourceLimits, .startAndroidInit,
    .publishHandle]

inductive NamespaceKind
  | user | pid | mount | ipc | uts | network | cgroup
deriving DecidableEq, Repr

inductive IdMapKind
  | uid | gid
deriving DecidableEq, Repr

inductive MountKind
  | readOnlyAndroidImage
  | erofsImage
  | ext4Image
  | hostStorage
  | tmpfs
  | proc
  | syntheticSys
  | devPts
  | binderFs
  | fileBind
  | directoryBind
deriving DecidableEq, Repr

inductive LinuxOperation
  | installSharedFilesystemGuard
  | reserveIdentity (hostUid uidStart gidStart uidCount gidCount : UInt32)
  | createDirectory (path : PathBuf) (mode : Nat)
  | createNamespaceLeader (namespaces : List NamespaceKind) (retainPidfd : Bool)
  | denySetgroups
  | writeIdMap (kind : IdMapKind) (insideStart outsideStart count : UInt32)
  | makeMountTreePrivate
  | mount (kind : MountKind) (source : Option PathBuf) (target : PathBuf)
      (readOnly nodev nosuid noexec : Bool)
  | mountSharedStorage (source target : PathBuf) (androidUidPackage : String)
      (androidGid primaryHostGid hostUid hostGid : UInt32)
  | createBasicDevice (path : PathBuf) (major minor mode : Nat)
  | createGraphicsDevice (source target : PathBuf) (mode : Nat)
  | addBinderDevice (name : String) (compatibilityPath : PathBuf)
  | allocateNetworkLease (tag : String)
  | createVeth (hostName cellName tag : String)
  | installNetworkPolicy (tag : String)
  | configureCgroup (path : PathBuf) (pidsMax memoryMax : Nat)
  | startAndroidInit (executable : PathBuf) (arguments : List String)
      (noNewPrivilegesBeforeExec : Bool)
  | publishHandle (path : PathBuf) (ownerUid : UInt32) (mode : Nat)
  | unpublishHandle (path : PathBuf)
  | stopAndroidInit (graceMilliseconds : Nat) (cgroup : PathBuf)
  | removeCgroup (path : PathBuf)
  | removeNetworkPolicy (tag : String)
  | removeVeth (hostName tag : String)
  | unmount (target : PathBuf)
  | destroyNamespaceLeader
  | releaseIdentity (cell : String) (runtimeDir : PathBuf)
deriving DecidableEq, Repr

def cgroupPath (spec : CellSpec) : PathBuf := (PathBuf.mk "/sys/fs/cgroup/droidloom").join spec.id

structure NetworkNames where
  host : String
  cell : String
  tag : String
deriving DecidableEq, Repr

def networkNames (spec : CellSpec) : NetworkNames :=
  let suffix := String.ofList (List.leftpad 8 '0' (Nat.toDigits 16 spec.hostUid.toNat))
  { host := "dlh" ++ suffix, cell := "dlc" ++ suffix, tag := "droidloom-" ++ spec.id }

/-- Only the partitions of the Google-app image pair come from its directory. -/
def partitionImage (spec : CellSpec) (role : String) : PathBuf :=
  let directory :=
    if role ∈ ["system_ext", "product"] then spec.gappsDir.getD spec.imageDir else spec.imageDir
  (directory.join "images").join (role ++ ".img")

def partitionMounts (spec : CellSpec) : List LinuxOperation :=
  [.mount .readOnlyAndroidImage (some (spec.imageDir.join "images/system.img")) ⟨"/"⟩
      true true true false,
    .mount .readOnlyAndroidImage (some (partitionImage spec "system_ext")) ⟨"/system_ext"⟩
      true true true false,
    .mount .readOnlyAndroidImage (some (partitionImage spec "product")) ⟨"/product"⟩
      true true true false,
    .mount .ext4Image (some spec.vendorImage) ⟨"/vendor"⟩ true true true false]

def privateFilesystemMounts (spec : CellSpec) : List LinuxOperation :=
  [.mount .hostStorage (some (spec.dataDir.join "data")) ⟨"/data"⟩ false true true false,
    .mount .hostStorage (some (spec.dataDir.join "metadata")) ⟨"/metadata"⟩ false true true false,
    .mount .proc none ⟨"/proc"⟩ false true true true,
    .mount .syntheticSys none ⟨"/sys"⟩ true true true true,
    .mount .tmpfs none ⟨"/dev"⟩ false false true true,
    .mount .tmpfs none ⟨"/dev/input"⟩ true true true true,
    .mount .devPts none ⟨"/dev/pts"⟩ false true true true]

def basicDeviceOperations : List LinuxOperation :=
  [.createBasicDevice ⟨"/dev/null"⟩ 1 3 0o666, .createBasicDevice ⟨"/dev/zero"⟩ 1 5 0o666,
    .createBasicDevice ⟨"/dev/full"⟩ 1 7 0o666, .createBasicDevice ⟨"/dev/random"⟩ 1 8 0o666,
    .createBasicDevice ⟨"/dev/urandom"⟩ 1 9 0o666, .createBasicDevice ⟨"/dev/fuse"⟩ 10 229 0o666]

def initMount (spec : CellSpec) : List LinuxOperation :=
  spec.androidInit.toList.map fun source =>
    .mount .fileBind (some source) ⟨"/system/bin/init"⟩ true true true false

def overrideMounts (spec : CellSpec) : List LinuxOperation :=
  spec.androidFileOverrides.map fun o =>
    .mount .fileBind (some o.source) o.target true true true false

def runtimeMounts (spec : CellSpec) : List LinuxOperation :=
  spec.androidRuntimeDirectories.map fun d =>
    .mount .directoryBind (some d.source) d.target true true true false

def sharedMounts (host : UserFolders) (spec : CellSpec) : List LinuxOperation :=
  (sharedStorage host spec).map fun d =>
    .mountSharedStorage d.source d.androidBackingPath "com.android.providers.media.module" 1023
      spec.subordinateGids.start spec.hostUid d.hostGid

def mountOperations (host : UserFolders) (spec : CellSpec) : List LinuxOperation :=
  [.makeMountTreePrivate] ++ partitionMounts spec ++ initMount spec ++ overrideMounts spec ++
    runtimeMounts spec ++ privateFilesystemMounts spec ++ sharedMounts host spec ++
    basicDeviceOperations ++
    [.createGraphicsDevice spec.renderNode ⟨"/dev/dri/renderD128"⟩ 0o666] ++
    (spec.graphicsBackend.auxiliaryDevices.map fun path => .createGraphicsDevice path path 0o666) ++
    [.mount .fileBind (some spec.denialSocket) ⟨"/dev/socket/droidloom/denial"⟩
      false true true true]

def binderOperations : List LinuxOperation :=
  .mount .binderFs none ⟨"/dev/binderfs"⟩ false false true true ::
    ["binder", "hwbinder", "vndbinder"].map fun name =>
      .addBinderDevice name ((PathBuf.mk "/dev").join name)

def constructionOperations (host : UserFolders) (spec : CellSpec) :
    LifecycleStep → List LinuxOperation
  | .reserveIdentity =>
    [.reserveIdentity spec.hostUid spec.subordinateUids.start spec.subordinateGids.start
        spec.subordinateUids.count spec.subordinateGids.count,
      .createDirectory spec.runtimeDir 0o700, .createDirectory spec.dataDir 0o700,
      .createDirectory (spec.runtimeDir.join "root") 0o700]
  | .createNamespaces =>
    [.createNamespaceLeader [.user, .pid, .mount, .ipc, .uts, .network, .cgroup] true]
  | .populateIdMaps =>
    [.writeIdMap .uid 0 spec.subordinateUids.start spec.subordinateUids.count, .denySetgroups,
      .writeIdMap .gid 0 spec.subordinateGids.start spec.subordinateGids.count]
  | .assembleMountsAndDevices => mountOperations host spec
  | .createBinderContexts => binderOperations
  | .createNetworkPolicy =>
    let names := networkNames spec
    [.allocateNetworkLease names.tag, .createVeth names.host names.cell names.tag,
      .installNetworkPolicy names.tag]
  | .applyResourceLimits =>
    [.configureCgroup (cgroupPath spec) 32768 (4 * 1024 * 1024 * 1024)]
  | .startAndroidInit =>
    [.installSharedFilesystemGuard,
      .startAndroidInit ⟨"/system/bin/init"⟩ ["/system/bin/init"] false]
  | .publishHandle => [.publishHandle (spec.runtimeDir.join "control.sock") spec.hostUid 0o600]

/-- What the mounts of a cell are taken down by, in this order. -/
def teardownTargets (host : UserFolders) (spec : CellSpec) : List PathBuf :=
  spec.androidRuntimeDirectories.reverse.map (·.target) ++
    spec.androidFileOverrides.reverse.map (·.target) ++
    (if spec.androidInit.isSome then [⟨"/system/bin/init"⟩] else []) ++
    [⟨"/dev/socket/droidloom/denial"⟩] ++
    (sharedStorage host spec).reverse.map (·.androidBackingPath) ++
    [⟨"/dev/pts"⟩, ⟨"/dev/input"⟩, ⟨"/dev"⟩, ⟨"/sys"⟩, ⟨"/proc"⟩, ⟨"/metadata"⟩, ⟨"/data"⟩,
      ⟨"/vendor"⟩, ⟨"/product"⟩, ⟨"/system_ext"⟩, ⟨"/"⟩]

def teardownOperations (host : UserFolders) (spec : CellSpec) :
    LifecycleStep → List LinuxOperation
  | .publishHandle => [.unpublishHandle (spec.runtimeDir.join "control.sock")]
  | .startAndroidInit => [.stopAndroidInit 5000 (cgroupPath spec)]
  | .applyResourceLimits => [.removeCgroup (cgroupPath spec)]
  | .createNetworkPolicy =>
    let names := networkNames spec
    [.removeNetworkPolicy names.tag, .removeVeth names.host names.tag]
  | .createBinderContexts => [.unmount ⟨"/dev/binderfs"⟩]
  | .assembleMountsAndDevices => (teardownTargets host spec).map .unmount
  | .populateIdMaps => []
  | .createNamespaces => [.destroyNamespaceLeader]
  | .reserveIdentity => [.releaseIdentity spec.id spec.runtimeDir]

/-! ## The plan -/

structure PlannedStep where
  step : LifecycleStep
  operations : List LinuxOperation
deriving DecidableEq, Repr

structure PlanInvariants where
  renderNodes : List PathBuf
  auxiliaryGraphicsDevices : List PathBuf
  drmCardNodes : Bool
  physicalInputNodes : Bool
  privateBinderfs : Bool
  privateNetworkNamespace : Bool
  immutableAndroidPartitions : Bool
  androidWritableHostFilesystems : Bool
  sharedFilesystemGuard : Bool
  pidfdLifecycleAuthority : Bool
deriving DecidableEq, Repr

structure LinuxCellPlan where
  schemaVersion : Nat
  cell : String
  construction : List PlannedStep
  teardown : List PlannedStep
  invariants : PlanInvariants
deriving DecidableEq, Repr

def buildLinuxPlan (host : UserFolders) (spec : CellSpec) : Except SpecError LinuxCellPlan := do
  spec.validate
  return {
    schemaVersion := 3
    cell := spec.id
    construction := CONSTRUCTION_ORDER.map fun step =>
      { step, operations := constructionOperations host spec step }
    teardown := CONSTRUCTION_ORDER.reverse.map fun step =>
      { step, operations := teardownOperations host spec step }
    invariants :=
      { renderNodes := [spec.renderNode]
        auxiliaryGraphicsDevices := spec.graphicsBackend.auxiliaryDevices
        drmCardNodes := false
        physicalInputNodes := false
        privateBinderfs := true
        privateNetworkNamespace := true
        immutableAndroidPartitions := true
        androidWritableHostFilesystems := true
        sharedFilesystemGuard := true
        pidfdLifecycleAuthority := true } }

/-! ## What validation ensures -/

/-- A path strictly below a root. -/
def Below (root path : PathBuf) : Prop := root ≤ path ∧ path.components ≠ root.components

/-- The parts of a specification that its mounts depend on. -/
structure Accepted (spec : CellSpec) : Prop where
  overrides : ∀ o ∈ spec.androidFileOverrides, ∃ root ∈ OVERRIDE_ROOTS, Below root o.target
  runtime : ∀ d ∈ spec.androidRuntimeDirectories, Below ⟨"/droidloom"⟩ d.target
  apart : spec.androidRuntimeDirectories.Pairwise fun d d' =>
    ¬ d.target ≤ d'.target ∧ ¬ d'.target ≤ d.target
  names : ∀ d ∈ spec.sharedStorageDirectories,
    ∃ name, (PathBuf.mk d.androidName).components = [.normal name]

theorem below_of_override {path : PathBuf} (h : isAndroidFileOverrideTarget path = true) :
    ∃ root ∈ OVERRIDE_ROOTS, Below root path := by
  rw [isAndroidFileOverrideTarget, Bool.and_eq_true, List.any_eq_true] at h
  obtain ⟨-, root, hroot, hbelow⟩ := h
  refine ⟨root, hroot, ?_⟩
  simpa [PathBuf.startsWith, PathBuf.same, Below] using hbelow

theorem below_of_runtime {path : PathBuf} (h : isDroidloomRuntimeTarget path = true) :
    Below ⟨"/droidloom"⟩ path := by
  rw [isDroidloomRuntimeTarget, Bool.and_eq_true, Bool.and_eq_true] at h
  obtain ⟨⟨-, hstarts⟩, hnot⟩ := h
  refine ⟨by simpa [PathBuf.startsWith] using hstarts, ?_⟩
  simpa [PathBuf.same] using hnot

theorem component_of_name {name : String} (h : isAndroidSharedStorageName name = true) :
    ∃ text, (PathBuf.mk name).components = [.normal text] := by
  rw [isAndroidSharedStorageName] at h
  split at h
  · cases h
  · split at h
    · rename_i text htext
      exact ⟨text, htext⟩
    · cases h

theorem overrides_below {overrides : List AndroidFileOverride} {index : Nat}
    {seen : List (List Component)} (h : overrideProblems index seen overrides = []) :
    ∀ o ∈ overrides, ∃ root ∈ OVERRIDE_ROOTS, Below root o.target := by
  induction overrides generalizing index seen with
  | nil => simp
  | cons o rest ih =>
    simp only [overrideProblems, List.append_eq_nil_iff, problemIf_eq_nil, not_not] at h
    obtain ⟨⟨⟨⟨-, htarget⟩, -⟩, -⟩, hrest⟩ := h
    intro x hx
    rcases List.mem_cons.mp hx with rfl | hx
    · exact below_of_override htarget
    · exact ih hrest x hx

/-- The runtime directories are below `/droidloom`, apart from each other and from what was seen
    before them. -/
theorem runtime_apart {directories : List AndroidRuntimeDirectory} {index : Nat}
    {seen : List PathBuf} (h : runtimeProblems index seen directories = []) :
    (∀ d ∈ directories, Below ⟨"/droidloom"⟩ d.target) ∧
    (directories.Pairwise fun d d' => ¬ d.target ≤ d'.target ∧ ¬ d'.target ≤ d.target) ∧
    ∀ d ∈ directories, ∀ target ∈ seen, ¬ target ≤ d.target ∧ ¬ d.target ≤ target := by
  induction directories generalizing index seen with
  | nil => simp
  | cons d rest ih =>
    simp only [runtimeProblems, List.append_eq_nil_iff, problemIf_eq_nil, not_not] at h
    obtain ⟨⟨⟨-, htarget⟩, hseen⟩, hrest⟩ := h
    obtain ⟨hbelow, hpairs, hearlier⟩ := ih hrest
    refine ⟨?_, ?_, ?_⟩
    · intro x hx
      rcases List.mem_cons.mp hx with rfl | hx
      · exact below_of_runtime htarget
      · exact hbelow x hx
    · refine List.pairwise_cons.mpr ⟨fun x hx => ?_, hpairs⟩
      exact hearlier x hx d.target (by simp)
    · intro x hx target hmem
      rcases List.mem_cons.mp hx with rfl | hx
      · have hnot : ¬ (target.startsWith x.target = true ∨ x.target.startsWith target = true) :=
          fun h => hseen ⟨target, hmem, h⟩
        simpa [PathBuf.startsWith, not_or, and_comm] using hnot
      · exact hearlier x hx target (by simp [hmem])

theorem names_single {directories : List SharedStorageDirectory} {gid : Option UInt32}
    {index : Nat} {names : List String}
    (h : sharedStorageProblems gid index names directories = []) :
    ∀ d ∈ directories, ∃ name, (PathBuf.mk d.androidName).components = [.normal name] := by
  induction directories generalizing index names with
  | nil => simp
  | cons d rest ih =>
    simp only [sharedStorageProblems, List.append_eq_nil_iff] at h
    obtain ⟨⟨⟨-, hname⟩, -⟩, hrest⟩ := h
    intro x hx
    rcases List.mem_cons.mp hx with rfl | hx
    · split at hname
      · cases hname
      · rename_i hok
        exact component_of_name (not_not.mp hok)
    · exact ih hrest x hx

theorem accepted_of_validate {spec : CellSpec} (h : spec.validate = .ok ()) : Accepted spec := by
  rw [CellSpec.validate] at h
  split at h
  · rename_i hnone
    simp only [CellSpec.problems, List.append_eq_nil_iff] at hnone
    obtain ⟨⟨⟨⟨-, hoverrides⟩, hruntime⟩, hshared⟩, -⟩ := hnone
    obtain ⟨hbelow, hpairs, -⟩ := runtime_apart hruntime
    exact ⟨overrides_below hoverrides, hbelow, hpairs, names_single hshared⟩
  · cases h

end Droidloom.LinuxPlan
