/-
  The order of a cell's mounts, up and down.

  Every target begins with a top-level name, and the groups of mounts that the plan puts together
  differ in it (`top`), so mounts of different groups are out of each other's way.  Inside a group:
  runtime directories are checked for overlaps; file overrides are checked for equal targets only,
  so one can be put over the directory of an earlier one or of the replaced init; shared folders
  are compared by the spelling of their names, so one folder can be shared twice.  That is all
  that can hide a mount (`none_hidden_iff`).

  The teardown does not mind (`teardown_unwinds`): the groups go in another order than the reverse
  of the construction, but each goes from its end.
-/
import Droidloom.Lib.MountStack
import Droidloom.Supervisor.LinuxPlan

namespace Droidloom.LinuxPlan

open PathNames MountStack

/-! ## The targets of a plan -/

def LinuxOperation.mountTarget : LinuxOperation → Option PathBuf
  | .mount _ _ target _ _ _ _ => some target
  | .mountSharedStorage _ target _ _ _ _ _ => some target
  | _ => none

def LinuxOperation.unmountTarget : LinuxOperation → Option PathBuf
  | .unmount target => some target
  | _ => none

/-- The targets of the mounts, in the order in which they are made. -/
def mountTargets (steps : List PlannedStep) : List PathBuf :=
  (steps.flatMap (·.operations)).filterMap (·.mountTarget)

def unmountTargets (steps : List PlannedStep) : List PathBuf :=
  (steps.flatMap (·.operations)).filterMap (·.unmountTarget)

def PARTITIONS : List PathBuf := [⟨"/"⟩, ⟨"/system_ext"⟩, ⟨"/product"⟩, ⟨"/vendor"⟩]

def PRIVATE : List PathBuf :=
  [⟨"/data"⟩, ⟨"/metadata"⟩, ⟨"/proc"⟩, ⟨"/sys"⟩, ⟨"/dev"⟩, ⟨"/dev/input"⟩, ⟨"/dev/pts"⟩]

def INIT : PathBuf := ⟨"/system/bin/init"⟩
def DENIAL : PathBuf := ⟨"/dev/socket/droidloom/denial"⟩
def BINDERFS : PathBuf := ⟨"/dev/binderfs"⟩

def initTargets (spec : CellSpec) : List PathBuf := spec.androidInit.toList.map fun _ => INIT

def overrideTargets (spec : CellSpec) : List PathBuf := spec.androidFileOverrides.map (·.target)

def runtimeTargets (spec : CellSpec) : List PathBuf :=
  spec.androidRuntimeDirectories.map (·.target)

def sharedTargets (host : UserFolders) (spec : CellSpec) : List PathBuf :=
  (sharedStorage host spec).map (·.androidBackingPath)

section Targets

variable {host : UserFolders} {spec : CellSpec} {plan : LinuxCellPlan}

theorem accepted_of_plan (h : buildLinuxPlan host spec = .ok plan) : Accepted spec := by
  obtain ⟨⟨⟩, hvalid, -⟩ := Fallible.bind_eq_ok.mp h
  exact accepted_of_validate hvalid

theorem mountTargets_plan (h : buildLinuxPlan host spec = .ok plan) :
    mountTargets plan.construction = PARTITIONS ++ (initTargets spec ++ overrideTargets spec) ++
      runtimeTargets spec ++ PRIVATE ++ sharedTargets host spec ++ [DENIAL, BINDERFS] := by
  obtain ⟨_, -, hplan⟩ := Fallible.bind_eq_ok.mp h
  cases hplan
  have hmounts {α : Type} (items : List α) {operation : α → LinuxOperation} {target : α → PathBuf}
      (h : ∀ a, (operation a).mountTarget = some (target a)) :
      (items.map operation).filterMap (·.mountTarget) = items.map target := by
    rw [List.filterMap_map, ← List.filterMap_eq_map]
    exact List.filterMap_congr fun a _ => h a
  have hdevices : (spec.graphicsBackend.auxiliaryDevices.map fun path =>
      LinuxOperation.createGraphicsDevice path path 0o666).filterMap (·.mountTarget) = [] := by
    rw [List.filterMap_eq_nil_iff]
    intro operation hmem
    obtain ⟨_, -, rfl⟩ := List.mem_map.mp hmem
    rfl
  have hinit : (initMount spec).filterMap (·.mountTarget) = initTargets spec :=
    hmounts _ fun _ => rfl
  have hoverrides : (overrideMounts spec).filterMap (·.mountTarget) = overrideTargets spec :=
    hmounts _ fun _ => rfl
  have hruntime : (runtimeMounts spec).filterMap (·.mountTarget) = runtimeTargets spec :=
    hmounts _ fun _ => rfl
  have hshared : (sharedMounts host spec).filterMap (·.mountTarget) = sharedTargets host spec :=
    hmounts _ fun _ => rfl
  have hfixed : (partitionMounts spec).filterMap (·.mountTarget) = PARTITIONS ∧
      (privateFilesystemMounts spec).filterMap (·.mountTarget) = PRIVATE := ⟨rfl, rfl⟩
  simp only [mountTargets, CONSTRUCTION_ORDER, constructionOperations, mountOperations,
    List.map_cons, List.map_nil, List.flatMap_cons, List.flatMap_nil, List.filterMap_append,
    hdevices, hinit, hoverrides, hruntime, hshared, hfixed, List.append_assoc]
  rfl

theorem unmountTargets_plan (h : buildLinuxPlan host spec = .ok plan) :
    unmountTargets plan.teardown = [BINDERFS] ++ (runtimeTargets spec).reverse ++
      (overrideTargets spec).reverse ++ (initTargets spec).reverse ++ [DENIAL] ++
      (sharedTargets host spec).reverse ++ PRIVATE.reverse ++ PARTITIONS.reverse := by
  obtain ⟨_, -, hplan⟩ := Fallible.bind_eq_ok.mp h
  cases hplan
  have hinit : (if spec.androidInit.isSome then [(⟨"/system/bin/init"⟩ : PathBuf)] else []) =
      (initTargets spec).reverse := by
    rw [initTargets]
    cases spec.androidInit <;> rfl
  simp only [unmountTargets, CONSTRUCTION_ORDER, teardownOperations, List.reverse_cons,
    List.reverse_nil, List.nil_append, List.cons_append, List.map_cons, List.map_nil,
    List.flatMap_cons, List.flatMap_nil, teardownTargets, hinit]
  simp [LinuxOperation.unmountTarget, PARTITIONS, PRIVATE, DENIAL, BINDERFS, overrideTargets,
    runtimeTargets, sharedTargets]

end Targets

/-! ## Top-level names -/

/-- The name below the root that a path begins with. -/
def top (path : PathBuf) : Option String :=
  match path.components with
  | .rootDir :: .normal name :: _ => some name
  | _ => none

theorem top_eq_some {path : PathBuf} {name : String} :
    top path = some name ↔ [.rootDir, .normal name] <+: path.components := by
  rw [top]
  constructor
  · intro h
    split at h
    · rename_i rest heq
      cases h
      rw [heq]
      exact ⟨rest, rfl⟩
    · cases h
  · rintro ⟨rest, heq⟩
    rw [← heq]
    rfl

/-- What lies below a path has its name. -/
theorem top_mono {a b : PathBuf} {name : String} (hle : a ≤ b) (ha : top a = some name) :
    top b = some name := by
  rw [top_eq_some] at ha ⊢
  exact ha.trans hle

theorem not_le_of_top {a b : PathBuf} {name : String} (ha : top a = some name)
    (hb : top b ≠ some name) : ¬ a ≤ b := fun hle => hb (top_mono hle ha)

/-- All paths of a group begin with one of some names. -/
def Topped (names : List String) (paths : List PathBuf) : Prop :=
  ∀ path ∈ paths, ∃ name ∈ names, top path = some name

instance (names : List String) (paths : List PathBuf) : Decidable (Topped names paths) := by
  unfold Topped
  infer_instance

/-- Groups without a common name are out of each other's way. -/
theorem Topped.apart {names names' : List String} {as bs : List PathBuf} (ha : Topped names as)
    (hb : Topped names' bs) (hnames : ∀ name ∈ names, name ∉ names') :
    ∀ a ∈ as, ∀ b ∈ bs, ¬ a ≤ b ∧ ¬ b ≤ a := by
  intro a hamem b hbmem
  obtain ⟨name, hname, hatop⟩ := ha a hamem
  obtain ⟨name', hname', hbtop⟩ := hb b hbmem
  have hne : name ≠ name' := fun heq => hnames name hname (heq ▸ hname')
  constructor
  · exact not_le_of_top hatop (by simpa [hbtop] using hne.symm)
  · exact not_le_of_top hbtop (by simpa [hatop] using hne)

theorem Topped.mono {names names' : List String} {paths : List PathBuf} (h : Topped names paths)
    (hnames : names ⊆ names') : Topped names' paths := by
  intro path hpath
  obtain ⟨name, hname, htop⟩ := h path hpath
  exact ⟨name, hnames hname, htop⟩

theorem Topped.append {names : List String} {as bs : List PathBuf} (ha : Topped names as)
    (hb : Topped names bs) : Topped names (as ++ bs) := by
  intro path hpath
  rcases List.mem_append.mp hpath with h | h
  · exact ha path h
  · exact hb path h

/-- The names of the immutable partitions' directories. -/
def ANDROID : List String := ["system", "system_ext", "product", "vendor"]

/-- The names of what the cell does not share with its images. -/
def OWN : List String := ["data", "metadata", "proc", "sys", "dev"]

theorem topped_private : Topped OWN PRIVATE := by decide

theorem topped_devices : Topped ["dev"] [DENIAL, BINDERFS] := by decide

section Groups

variable {host : UserFolders} {spec : CellSpec}

theorem topped_init : Topped ANDROID (initTargets spec) := by
  have hinit : top INIT = some "system" := by decide
  intro path hpath
  rw [initTargets, List.mem_map] at hpath
  obtain ⟨_, -, rfl⟩ := hpath
  exact ⟨"system", by simp [ANDROID], hinit⟩

theorem topped_overrides (h : Accepted spec) : Topped ANDROID (overrideTargets spec) := by
  have hroots : Topped ANDROID OVERRIDE_ROOTS := by decide
  intro path hpath
  rw [overrideTargets, List.mem_map] at hpath
  obtain ⟨o, ho, rfl⟩ := hpath
  obtain ⟨root, hroot, hbelow⟩ := h.overrides o ho
  obtain ⟨name, hname, htop⟩ := hroots root hroot
  exact ⟨name, hname, top_mono hbelow.1 htop⟩

theorem topped_runtime (h : Accepted spec) : Topped ["droidloom"] (runtimeTargets spec) := by
  have hroot : top ⟨"/droidloom"⟩ = some "droidloom" := by decide
  intro path hpath
  rw [runtimeTargets, List.mem_map] at hpath
  obtain ⟨d, hd, rfl⟩ := hpath
  exact ⟨"droidloom", by simp, top_mono (h.runtime d hd).1 hroot⟩

/-! ## Shared folders -/

/-- A name that is one component. -/
def Single (d : SharedStorageDirectory) : Prop :=
  ∃ name, (PathBuf.mk d.androidName).components = [.normal name]

theorem single_of_shared (h : Accepted spec) : ∀ d ∈ sharedStorage host spec, Single d := by
  have hfolders : ∀ entry ∈ FOLDERS,
      (PathBuf.mk entry.2.2).components = [.normal entry.2.2] := by decide
  intro d hd
  rcases List.mem_append.mp hd with hd | hd
  · exact h.names d hd
  · rw [resolve] at hd
    split at hd
    · cases hd
    · split at hd
      · cases hd
      · split at hd
        · cases hd
        · obtain ⟨entry, hentry, hsource⟩ := List.mem_filterMap.mp hd
          obtain ⟨source, -, rfl⟩ := Option.map_eq_some_iff.mp hsource
          exact ⟨_, hfolders entry (List.mem_filter.mp hentry).1⟩

theorem components_backing {d : SharedStorageDirectory} (h : Single d) :
    d.androidBackingPath.components =
      (PathBuf.mk "/data/media/0").components ++ (PathBuf.mk d.androidName).components := by
  obtain ⟨name, hname⟩ := h
  rw [SharedStorageDirectory.androidBackingPath, components_join hname (by decide), hname]

/-- Two shared folders are in each other's way only if they have the same target. -/
theorem backing_le_iff {d d' : SharedStorageDirectory} (h : Single d) (h' : Single d') :
    d.androidBackingPath ≤ d'.androidBackingPath ↔
      (PathBuf.mk d.androidName).components = (PathBuf.mk d'.androidName).components := by
  rw [PathBuf.le_def, components_backing h, components_backing h', List.prefix_append_right_inj]
  obtain ⟨name, hname⟩ := h
  obtain ⟨name', hname'⟩ := h'
  rw [hname, hname']
  constructor
  · intro hprefix
    exact hprefix.eq_of_length rfl
  · intro heq
    rw [heq]

theorem topped_shared (h : Accepted spec) : Topped ["data"] (sharedTargets host spec) := by
  have hroot : top ⟨"/data/media/0"⟩ = some "data" := by decide
  intro path hpath
  rw [sharedTargets, List.mem_map] at hpath
  obtain ⟨d, hd, rfl⟩ := hpath
  refine ⟨"data", by simp, top_mono ?_ hroot⟩
  rw [PathBuf.le_def, components_backing (single_of_shared h d hd)]
  exact List.prefix_append _ _

end Groups

/-! ## Taking the mounts down -/

/-- **The teardown unwinds the mounts**: it unmounts each target that was mounted, once, and at
    each unmount whatever is still in place at the target or below it was made before. -/
theorem teardown_unwinds {host : UserFolders} {spec : CellSpec} {plan : LinuxCellPlan}
    (h : buildLinuxPlan host spec = .ok plan) :
    (unmountTargets plan.teardown).Perm (mountTargets plan.construction) ∧
      Unwinds (mountTargets plan.construction) (unmountTargets plan.teardown) := by
  have hspec := accepted_of_plan h
  have hrest : Topped OWN (PRIVATE ++ sharedTargets host spec ++ [DENIAL]) := by
    refine (topped_private.append ((topped_shared hspec).mono (by decide))).append ?_
    decide
  suffices hunwinds : Unwinds (mountTargets plan.construction) (unmountTargets plan.teardown) from
    ⟨hunwinds.perm, hunwinds⟩
  rw [mountTargets_plan h, unmountTargets_plan h]
  -- from the last unmount to the first: what is in place before it
  have hpartitions : Unwinds PARTITIONS PARTITIONS.reverse := by
    simpa using Unwinds.nil.last PARTITIONS
  have hdenial := ((hpartitions.last PRIVATE).last (sharedTargets host spec)).last [DENIAL]
  have hinit := Unwinds.block PARTITIONS (initTargets spec) _
    (fun a ha b hb => (topped_init.apart hrest (by decide) a ha b hb).1)
    (by simpa using hdenial)
  have hoverrides := Unwinds.block (PARTITIONS ++ initTargets spec) (overrideTargets spec) _
    (fun a ha b hb => ((topped_overrides hspec).apart hrest (by decide) a ha b hb).1) hinit
  have hruntime := Unwinds.block (PARTITIONS ++ initTargets spec ++ overrideTargets spec)
    (runtimeTargets spec) _
    (fun a ha b hb => ((topped_runtime hspec).apart hrest (by decide) a ha b hb).1) hoverrides
  have hbinderfs := hruntime.last [BINDERFS]
  simpa using hbinderfs

/-! ## What hides a mount -/

/-- A specification whose overrides and shared folders are out of each other's way: no override is
    put over the directory of an earlier one, nor over that of a replaced init, and no two names
    of shared folders are spellings of one name. -/
structure Clear (host : UserFolders) (spec : CellSpec) : Prop where
  overrides : spec.androidFileOverrides.Pairwise fun o o' => ¬ o'.target ≤ o.target
  init : spec.androidInit.isSome → ∀ o ∈ spec.androidFileOverrides, ¬ o.target ≤ INIT
  shared : (sharedStorage host spec).Pairwise fun d d' =>
    (PathBuf.mk d.androidName).components ≠ (PathBuf.mk d'.androidName).components

section Hidden

variable {host : UserFolders} {spec : CellSpec}

/-- A partition's directory is at most one name below the root. -/
theorem not_le_partition {path : PathBuf} (h : 2 < path.components.length) :
    ∀ a ∈ PARTITIONS, ¬ path ≤ a := by
  have hshort : ∀ a ∈ PARTITIONS, a.components.length ≤ 2 := by decide
  intro a ha hle
  have hlength := List.IsPrefix.length_le hle
  have := hshort a ha
  omega

/-- Below a directory that is directly under the root, paths have at least three components. -/
theorem length_of_below {root path : PathBuf} (hroot : root.components.length = 2)
    (h : Below root path) : 2 < path.components.length := by
  obtain ⟨hle, hne⟩ := h
  have hlength := List.IsPrefix.length_le hle
  by_contra hshort
  exact hne (hle.eq_of_length (by omega)).symm

theorem long_init : ∀ path ∈ initTargets spec, 2 < path.components.length := by
  have hinit : 2 < INIT.components.length := by decide
  intro path hpath
  rw [initTargets, List.mem_map] at hpath
  obtain ⟨_, -, rfl⟩ := hpath
  exact hinit

theorem long_overrides (h : Accepted spec) :
    ∀ path ∈ overrideTargets spec, 2 < path.components.length := by
  have hroots : ∀ root ∈ OVERRIDE_ROOTS, root.components.length = 2 := by decide
  intro path hpath
  rw [overrideTargets, List.mem_map] at hpath
  obtain ⟨o, ho, rfl⟩ := hpath
  obtain ⟨root, hroot, hbelow⟩ := h.overrides o ho
  exact length_of_below (hroots root hroot) hbelow

theorem long_runtime (h : Accepted spec) :
    ∀ path ∈ runtimeTargets spec, 2 < path.components.length := by
  intro path hpath
  rw [runtimeTargets, List.mem_map] at hpath
  obtain ⟨d, hd, rfl⟩ := hpath
  exact length_of_below (by decide) (h.runtime d hd)

theorem long_shared (h : Accepted spec) :
    ∀ path ∈ sharedTargets host spec, 4 < path.components.length := by
  intro path hpath
  rw [sharedTargets, List.mem_map] at hpath
  obtain ⟨d, hd, rfl⟩ := hpath
  have hsingle := single_of_shared h d hd
  have hbase : (PathBuf.mk "/data/media/0").components.length = 4 := by decide
  obtain ⟨name, hname⟩ := hsingle
  rw [components_backing ⟨name, hname⟩, List.length_append, hbase, hname]
  simp

theorem noneHidden_init : NoneHidden (initTargets spec ++ overrideTargets spec) ↔
    (spec.androidFileOverrides.Pairwise fun o o' => ¬ o'.target ≤ o.target) ∧
      (spec.androidInit.isSome → ∀ o ∈ spec.androidFileOverrides, ¬ o.target ≤ INIT) := by
  have hinit : NoneHidden (initTargets spec) := by
    rw [initTargets]
    cases spec.androidInit <;> simp [NoneHidden]
  have hcross : (∀ a ∈ initTargets spec, ∀ b ∈ overrideTargets spec, ¬ b ≤ a) ↔
      (spec.androidInit.isSome → ∀ o ∈ spec.androidFileOverrides, ¬ o.target ≤ INIT) := by
    rw [initTargets, overrideTargets]
    cases spec.androidInit <;> simp
  rw [noneHidden_append, hcross, overrideTargets, NoneHidden, NoneHidden, List.pairwise_map]
  exact ⟨fun h => ⟨h.2.1, h.2.2⟩, fun h => ⟨hinit, h⟩⟩

theorem noneHidden_runtime (h : Accepted spec) : NoneHidden (runtimeTargets spec) := by
  rw [runtimeTargets, NoneHidden, List.pairwise_map]
  exact h.apart.imp fun h => h.2

theorem noneHidden_shared (h : Accepted spec) : NoneHidden (sharedTargets host spec) ↔
    (sharedStorage host spec).Pairwise fun d d' =>
      (PathBuf.mk d.androidName).components ≠ (PathBuf.mk d'.androidName).components := by
  rw [sharedTargets, NoneHidden, List.pairwise_map]
  have hsingle : ∀ d ∈ sharedStorage host spec, Single d := single_of_shared h
  constructor
  · intro hpairs
    refine hpairs.imp_of_mem fun {d d'} hd hd' hnot heq => ?_
    exact hnot ((backing_le_iff (hsingle d' hd') (hsingle d hd)).mpr heq.symm)
  · intro hpairs
    refine hpairs.imp_of_mem fun {d d'} hd hd' hnot hle => ?_
    exact hnot ((backing_le_iff (hsingle d' hd') (hsingle d hd)).mp hle).symm

/-- In the plan of an accepted specification no mount is made at or above the target of an earlier
    one exactly if the specification is clear. -/
theorem noneHidden_plan_iff {plan : LinuxCellPlan} (h : buildLinuxPlan host spec = .ok plan) :
    NoneHidden (mountTargets plan.construction) ↔ Clear host spec := by
  have hspec := accepted_of_plan h
  rw [mountTargets_plan h]
  constructor
  · intro hall
    have hshared := (noneHidden_append.mp (noneHidden_append.mp hall).1)
    have hfront := (noneHidden_append.mp (noneHidden_append.mp hshared.1).1).1
    have hoverrides := noneHidden_init.mp (noneHidden_append.mp hfront).2.1
    exact ⟨hoverrides.1, hoverrides.2, (noneHidden_shared hspec).mp hshared.2.1⟩
  · intro hclear
    have hinit := noneHidden_init.mpr ⟨hclear.overrides, hclear.init⟩
    have hshared := (noneHidden_shared hspec).mpr hclear.shared
    have handroid : Topped ANDROID (initTargets spec ++ overrideTargets spec) :=
      topped_init.append (topped_overrides hspec)
    have hruntime := topped_runtime hspec
    have hfixed : NoneHidden (PARTITIONS ++ PRIVATE ++ [DENIAL, BINDERFS]) := by decide
    obtain ⟨hfront, hdevices, hbefore⟩ := noneHidden_append.mp hfixed
    obtain ⟨hpartitions, hprivate, hbetween⟩ := noneHidden_append.mp hfront
    -- each group against those before it
    refine noneHidden_append.mpr ⟨noneHidden_append.mpr ⟨noneHidden_append.mpr
      ⟨noneHidden_append.mpr ⟨noneHidden_append.mpr ⟨hpartitions, hinit, ?_⟩,
        noneHidden_runtime hspec, ?_⟩, hprivate, ?_⟩, hshared, ?_⟩, hdevices, ?_⟩
    · intro a ha b hb
      refine not_le_partition ?_ a ha
      rcases List.mem_append.mp hb with hb | hb
      · exact long_init b hb
      · exact long_overrides hspec b hb
    · intro a ha b hb
      rcases List.mem_append.mp ha with ha | ha
      · exact not_le_partition (long_runtime hspec b hb) a ha
      · exact (handroid.apart hruntime (by decide) a ha b hb).2
    · intro a ha b hb
      rcases List.mem_append.mp ha with ha | ha
      · rcases List.mem_append.mp ha with ha | ha
        · exact hbetween a ha b hb
        · exact (handroid.apart topped_private (by decide) a ha b hb).2
      · exact (hruntime.apart topped_private (by decide) a ha b hb).2
    · intro a ha b hb
      have hlong := long_shared hspec b hb
      rcases List.mem_append.mp ha with ha | ha
      · rcases List.mem_append.mp ha with ha | ha
        · rcases List.mem_append.mp ha with ha | ha
          · exact not_le_partition (by omega) a ha
          · exact (handroid.apart (topped_shared hspec) (by decide) a ha b hb).2
        · exact (hruntime.apart (topped_shared hspec) (by decide) a ha b hb).2
      · intro hle
        have hshort : ∀ a ∈ PRIVATE, a.components.length ≤ 3 := by decide
        have hlength := List.IsPrefix.length_le hle
        have := hshort a ha
        omega
    · intro a ha b hb
      rcases List.mem_append.mp ha with ha | ha
      · rcases List.mem_append.mp ha with ha | ha
        · rcases List.mem_append.mp ha with ha | ha
          · rcases List.mem_append.mp ha with ha | ha
            · exact hbefore a (by simp [ha]) b hb
            · exact (handroid.apart topped_devices (by decide) a ha b hb).2
          · exact (hruntime.apart topped_devices (by decide) a ha b hb).2
        · exact hbefore a (by simp [ha]) b hb
      · exact ((topped_shared hspec).apart topped_devices (by decide) a ha b hb).2

/-- **What hides a mount.**  In the plan of an accepted specification no mount is made at or above
    the target of an earlier one exactly if the specification is clear; each mount then serves its
    own target in the finished tree. -/
theorem none_hidden_iff {plan : LinuxCellPlan} (h : buildLinuxPlan host spec = .ok plan) :
    (NoneHidden (mountTargets plan.construction) ↔ Clear host spec) ∧
    (Clear host spec → ∀ i (hi : i < (mountTargets plan.construction).length),
      serving (mountTargets plan.construction)[i] (mountTargets plan.construction) = some i) := by
  have hiff := noneHidden_plan_iff h
  exact ⟨hiff, fun hclear => serving_getElem_iff.mpr (hiff.mpr hclear)⟩

end Hidden

/-! ## A cell -/

theorem plan_of_validate (host : UserFolders) (spec : CellSpec) (h : spec.validate = .ok ()) :
    ∃ plan, buildLinuxPlan host spec = .ok plan := by
  rw [buildLinuxPlan, h]
  exact ⟨_, rfl⟩

/-- A host on which no folder of the user can be shared. -/
def bareHost : UserFolders := { account := fun _ => none, folder := fun _ _ _ _ => none }

/-- The cell of user 1000 with a replaced init, a runtime directory and some overrides and shared
    folders. -/
def sampleSpec (overrides : List PathBuf) (shared : List String) : CellSpec where
  hostUid := 1000
  subordinateUids := ⟨200000, 100000⟩
  subordinateGids := ⟨300000, 100000⟩
  imageDir := ⟨"/var/lib/droidloom/images/current"⟩
  vendorImage := ⟨"/var/lib/droidloom/images/current/images/vendor.raw.img"⟩
  androidInit := some ⟨"/usr/lib/droidloom/android/init"⟩
  androidFileOverrides := overrides.map fun target => ⟨⟨"/usr/lib/droidloom/android/file"⟩, target⟩
  androidRuntimeDirectories := [⟨⟨"/usr/lib/droidloom/android/runtime"⟩, ⟨"/droidloom/runtime"⟩⟩]
  sharedStorageDirectories := shared.map fun name => ⟨⟨"/home/user/folder"⟩, name, 1000⟩
  dataDir := ⟨"/var/lib/droidloom/users/1000/data"⟩
  runtimeDir := ⟨"/run/droidloom/cells/u1000"⟩
  renderNode := ⟨"/dev/dri/renderD128"⟩
  denialSocket := ⟨"/run/user/1000/denial/native-bridge.sock"⟩

/-- Only the overrides and the shared folders of such a cell can be refused. -/
theorem sampleSpec_validate {overrides : List PathBuf} {shared : List String}
    (hoverrides : overrideProblems 0 [] (sampleSpec overrides shared).androidFileOverrides = [])
    (hshared : sharedStorageProblems
      ((sampleSpec overrides shared).sharedStorageDirectories.head?.map (·.hostGid)) 0 []
      (sampleSpec overrides shared).sharedStorageDirectories = []) :
    (sampleSpec overrides shared).validate = .ok () := by
  have hfixed : (sampleSpec [] []).problems = [] := by decide
  refine if_pos ?_
  simp only [CellSpec.problems, List.append_eq_nil_iff] at hfixed ⊢
  obtain ⟨⟨⟨⟨hscalars, -⟩, hruntime⟩, -⟩, hrender⟩ := hfixed
  exact ⟨⟨⟨⟨hscalars, hoverrides⟩, hruntime⟩, hshared⟩, hrender⟩

theorem teardown_unwinds_sample : ∃ plan,
    buildLinuxPlan bareHost (sampleSpec [⟨"/system/lib64/libbinder.so"⟩] ["Music"]) = .ok plan ∧
      (unmountTargets plan.teardown).Perm (mountTargets plan.construction) ∧
      Unwinds (mountTargets plan.construction) (unmountTargets plan.teardown) := by
  obtain ⟨plan, hplan⟩ := plan_of_validate bareHost
    (sampleSpec [⟨"/system/lib64/libbinder.so"⟩] ["Music"])
    (sampleSpec_validate (by decide) (by decide))
  exact ⟨plan, hplan, teardown_unwinds hplan⟩

theorem clear_sample :
    Clear bareHost (sampleSpec [⟨"/system/lib64/libbinder.so"⟩] ["Music", "Pictures"]) := by
  exact ⟨by decide, by decide, by decide⟩

theorem none_hidden_sample : ∃ plan,
    buildLinuxPlan bareHost (sampleSpec [⟨"/system/lib64/libbinder.so"⟩] ["Music", "Pictures"]) =
      .ok plan ∧ NoneHidden (mountTargets plan.construction) := by
  obtain ⟨plan, hplan⟩ := plan_of_validate bareHost
    (sampleSpec [⟨"/system/lib64/libbinder.so"⟩] ["Music", "Pictures"])
    (sampleSpec_validate (by decide) (by decide))
  exact ⟨plan, hplan, (none_hidden_iff hplan).1.mpr clear_sample⟩

/-- **Hidden mounts** of accepted specifications: an override under a later one, the replaced init
    under an override of its directory, and a folder that is shared under two spellings. -/
theorem hidden_mounts :
    (∃ plan, buildLinuxPlan bareHost (sampleSpec [⟨"/system/lib64/hw"⟩, ⟨"/system/lib64"⟩] []) =
      .ok plan ∧ ¬ NoneHidden (mountTargets plan.construction)) ∧
    (∃ plan, buildLinuxPlan bareHost (sampleSpec [⟨"/system/bin"⟩] []) = .ok plan ∧
      ¬ NoneHidden (mountTargets plan.construction)) ∧
    ∃ plan, buildLinuxPlan bareHost (sampleSpec [] ["Music", "Music/"]) = .ok plan ∧
      ¬ NoneHidden (mountTargets plan.construction) := by
  have hhidden {spec : CellSpec} (hvalid : spec.validate = .ok ())
      (hnot : ¬ Clear bareHost spec) :
      ∃ plan, buildLinuxPlan bareHost spec = .ok plan ∧
        ¬ NoneHidden (mountTargets plan.construction) := by
    obtain ⟨plan, hplan⟩ := plan_of_validate bareHost spec hvalid
    exact ⟨plan, hplan, fun hnone => hnot ((noneHidden_plan_iff hplan).mp hnone)⟩
  refine ⟨hhidden (sampleSpec_validate (by decide) rfl) fun hclear => ?_,
    hhidden (sampleSpec_validate (by decide) rfl) fun hclear => ?_,
    hhidden (sampleSpec_validate rfl (by decide)) fun hclear => ?_⟩
  · exact absurd hclear.overrides (by decide)
  · exact absurd hclear.init (by decide)
  · exact absurd hclear.shared (by decide)

end Droidloom.LinuxPlan
