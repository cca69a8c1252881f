/-
  The lock and the plan of the sparse AOSP sources (`droidloom-source`: `validate_projects`,
  `validate_links`, `relative_path`, `validate_plan_extension`).

  An accepted lock keeps link targets out of the projects, but not projects and other targets out of
  what lies below a link target; the relative text of a link leads to its source
  (`accepted_links_iff`).  An accepted extension of a plan keeps what the old plan selects, except
  that it may narrow a project which the old plan takes whole, and the one growth that it refuses
  is to take a sparse project whole (`extension_grows_iff`).
-/
import Droidloom.Lib.TextLines

namespace Droidloom.Source

open TextLines

local instance : LawfulBEq Text := inferInstance

inductive Component
  | rootDir | curDir | parentDir
  | normal (name : Text)
deriving DecidableEq, Repr

/-- Paths are compared and cut by their components. -/
abbrev Path := List Component

def Component.isNormal : Component → Bool
  | .normal _ => true
  | _ => false

def isNormalRelative (path : Path) : Bool := path ≠ [] && path.all Component.isNormal

def parent (path : Path) : Path := path.dropLast

structure RootLink where
  source : Path
  target : Path
deriving DecidableEq, Repr

structure SparseProject where
  path : Path
  name : Text
  commit : Text
  purpose : Text
  sparsePaths : List Path
deriving DecidableEq, Repr

/-- What the two checks read of a lock. -/
structure SparseSourceLock where
  links : List RootLink
  projects : List SparseProject
deriving DecidableEq, Repr

def MAX_PROJECTS : Nat := 256
def MAX_LINKS : Nat := 64
def MAX_SPARSE_PATHS : Nat := 128

/-- The texts that are pushed, with what they name. -/
inductive Problem
  | projectCount
  | projectPathNotNormal (path : Path)
  | duplicateProjectPath (path : Path)
  | invalidProjectName (name : Text)
  | duplicateProject (name : Text)
  | inexactCommit (path : Path)
  | emptyOrOversizedPurpose (path : Path)
  | sparsePathCount (path : Path)
  | sparsePathNotNormal (path sparsePath : Path)
  | repeatedSparsePath (path sparsePath : Path)
  | linkCount
  | linkNotNormal
  | linkSourceOutside (source : Path)
  | linkTargetOverlaps (target : Path)
  | duplicateLink (target : Path)
deriving DecidableEq, Repr

def pushIf (c : Prop) [Decidable c] (problem : Problem) : List Problem :=
  if c then [problem] else []

@[simp] theorem pushIf_eq_nil {c : Prop} [Decidable c] {problem : Problem} :
    pushIf c problem = [] ↔ ¬ c := by
  unfold pushIf
  split <;> simp_all

def isProjectName (name : Text) : Bool :=
  ("platform/".toList.isPrefixOf name || "kernel/".toList.isPrefixOf name ||
    "toolchain/".toList.isPrefixOf name || name == "tools/platform-compat".toList) &&
  String.utf8Len name ≤ 255 &&
  (name.splitOn '/').all fun part => part ≠ [] && part ≠ ['.'] && part ≠ ['.', '.']

def isCommit (value : Text) : Bool :=
  String.utf8Len value == 40 && value.all fun c => c.isDigit || ('a' ≤ c && c ≤ 'f')

def sparsePathProblems (path : Path) (seen : List Path) : List Path → List Problem
  | [] => []
  | sparsePath :: rest =>
    pushIf (¬ isNormalRelative sparsePath) (.sparsePathNotNormal path sparsePath) ++
    pushIf (sparsePath ∈ seen) (.repeatedSparsePath path sparsePath) ++
    sparsePathProblems path (sparsePath :: seen) rest

def projectProblems (paths : List Path) (names : List Text) (project : SparseProject) :
    List Problem :=
  pushIf (¬ isNormalRelative project.path) (.projectPathNotNormal project.path) ++
  pushIf (project.path ∈ paths) (.duplicateProjectPath project.path) ++
  pushIf (¬ isProjectName project.name) (.invalidProjectName project.name) ++
  pushIf (project.name ∈ names) (.duplicateProject project.name) ++
  pushIf (¬ isCommit project.commit) (.inexactCommit project.path) ++
  pushIf (project.purpose.all isWhitespace ∨ 255 < String.utf8Len project.purpose)
    (.emptyOrOversizedPurpose project.path) ++
  pushIf (MAX_SPARSE_PATHS < project.sparsePaths.length) (.sparsePathCount project.path) ++
  sparsePathProblems project.path [] project.sparsePaths

def projectsFrom (paths : List Path) (names : List Text) : List SparseProject → List Problem
  | [] => []
  | project :: rest =>
    projectProblems paths names project ++
      projectsFrom (project.path :: paths) (project.name :: names) rest

def validateProjects (lock : SparseSourceLock) : List Problem :=
  pushIf (lock.projects = [] ∨ MAX_PROJECTS < lock.projects.length) .projectCount ++
  projectsFrom [] [] lock.projects

def linkProblems (projectPaths targets : List Path) (link : RootLink) : List Problem :=
  pushIf (¬ isNormalRelative link.source ∨ ¬ isNormalRelative link.target) .linkNotNormal ++
  pushIf (¬ ∃ project ∈ projectPaths, project <+: link.source) (.linkSourceOutside link.source) ++
  pushIf (∃ project ∈ projectPaths, link.target = project ∨ project <+: link.target)
    (.linkTargetOverlaps link.target) ++
  pushIf (link.target ∈ targets) (.duplicateLink link.target)

def linksFrom (projectPaths targets : List Path) : List RootLink → List Problem
  | [] => []
  | link :: rest =>
    linkProblems projectPaths targets link ++ linksFrom projectPaths (link.target :: targets) rest

def validateLinks (lock : SparseSourceLock) : List Problem :=
  pushIf (MAX_LINKS < lock.links.length) .linkCount ++
  linksFrom (lock.projects.map (·.path)) [] lock.links

def common (left right : Path) : Nat :=
  ((left.zip right).takeWhile fun pair => pair.1 = pair.2).length

/-- The text that `create_root_link` gives a link in the directory `base`. -/
def relativePath (base goal : Path) : Path :=
  List.replicate (base.length - common base goal) .parentDir ++ goal.drop (common base goal)

/-! ## Following a link -/

/-- Where a text leads from a directory. -/
def follow (directory : Path) : Path → Path
  | [] => directory
  | .rootDir :: rest => follow [] rest
  | .curDir :: rest => follow directory rest
  | .parentDir :: rest => follow directory.dropLast rest
  | .normal name :: rest => follow (directory ++ [.normal name]) rest

theorem follow_parents (directory rest : Path) (n : Nat) :
    follow directory (List.replicate n .parentDir ++ rest) =
      follow (directory.take (directory.length - n)) rest := by
  induction n generalizing directory with
  | zero => simp
  | succ n ih =>
    rw [List.replicate_succ, List.cons_append, follow, ih, List.length_dropLast,
      List.dropLast_eq_take, List.take_take]
    congr 2
    omega

theorem follow_normal {path : Path} (h : path.all Component.isNormal) (directory : Path) :
    follow directory path = directory ++ path := by
  induction path generalizing directory with
  | nil => simp [follow]
  | cons component path ih =>
    rw [List.all_cons, Bool.and_eq_true] at h
    cases component with
    | normal name => rw [follow, ih h.2, List.append_assoc, List.singleton_append]
    | rootDir | curDir | parentDir => cases h.1

theorem common_le (base goal : Path) : common base goal ≤ base.length := by
  refine (List.takeWhile_sublist _).length_le.trans ?_
  simp

theorem take_common (base goal : Path) :
    base.take (common base goal) = goal.take (common base goal) := by
  induction base generalizing goal with
  | nil => simp [common]
  | cons x base ih =>
    cases goal with
    | nil => simp [common]
    | cons y goal =>
      by_cases h : x = y
      · have hcommon : common (x :: base) (y :: goal) = common base goal + 1 := by
          simp [common, h]
        rw [hcommon, List.take_succ_cons, List.take_succ_cons, ih, h]
      · simp [common, h]

theorem follow_relativePath {goal : Path} (base : Path) (h : goal.all Component.isNormal) :
    follow base (relativePath base goal) = goal := by
  have hrest : (goal.drop (common base goal)).all Component.isNormal := by
    simp only [List.all_eq_true] at h ⊢
    exact fun component hmem => h component (List.mem_of_mem_drop hmem)
  rw [relativePath, follow_parents, follow_normal hrest, Nat.sub_sub_self (common_le base goal),
    take_common, List.take_append_drop]

/-- The text is empty only for a link to its own directory. -/
theorem relativePath_eq_nil {base goal : Path} (h : relativePath base goal = []) : base = goal := by
  obtain ⟨hparents, hrest⟩ := List.append_eq_nil_iff.mp h
  have hbase : base.length ≤ common base goal := by
    rw [List.replicate_eq_nil_iff] at hparents
    omega
  rw [← List.take_of_length_le hbase, take_common,
    List.take_of_length_le (List.drop_eq_nil_iff.mp hrest)]

/-! ## Accepted locks -/

/-- What `validate_links` makes sure of for a link. -/
structure Admitted (projects : List Path) (link : RootLink) : Prop where
  source : link.source.all Component.isNormal
  sourceInside : ∃ project ∈ projects, project <+: link.source
  targetOutside : ∀ project ∈ projects, ¬ project <+: link.target

theorem admitted_of_linkProblems {projects targets : List Path} {link : RootLink}
    (h : linkProblems projects targets link = []) :
    Admitted projects link ∧ link.target ∉ targets := by
  simp only [linkProblems, List.append_eq_nil_iff, pushIf_eq_nil, not_or, not_not,
    isNormalRelative, Bool.and_eq_true] at h
  obtain ⟨⟨⟨⟨⟨-, hsource⟩, -⟩, hinside⟩, houtside⟩, hnew⟩ := h
  exact ⟨⟨hsource, hinside, fun project hmem hbelow => houtside ⟨project, hmem, .inr hbelow⟩⟩, hnew⟩

theorem linksFrom_eq_nil {projects targets : List Path} {links : List RootLink}
    (h : linksFrom projects targets links = []) :
    (∀ link ∈ links, Admitted projects link) ∧ (∀ link ∈ links, link.target ∉ targets) ∧
      links.Pairwise fun a b => a.target ≠ b.target := by
  induction links generalizing targets with
  | nil => simp
  | cons link links ih =>
    obtain ⟨hlink, hrest⟩ := List.append_eq_nil_iff.mp h
    obtain ⟨hadmitted, hnew⟩ := admitted_of_linkProblems hlink
    obtain ⟨hlinks, htargets, hdistinct⟩ := ih hrest
    simp only [List.mem_cons, not_or] at htargets
    refine ⟨List.forall_mem_cons.mpr ⟨hadmitted, hlinks⟩,
      List.forall_mem_cons.mpr ⟨hnew, fun other hmem => (htargets other hmem).2⟩,
      List.pairwise_cons.mpr ⟨fun other hmem => Ne.symm (htargets other hmem).1, hdistinct⟩⟩

/-- One path is the other, contains it, or lies inside it. -/
def Overlap (p q : Path) : Prop := p <+: q ∨ q <+: p

/-- `p` lies inside `q` and is not `q`. -/
def Below (p q : Path) : Prop := q <+: p ∧ p ≠ q

instance (p q : Path) : Decidable (Below p q) := inferInstanceAs (Decidable (_ ∧ _))

structure NoClash (lock : SparseSourceLock) : Prop where
  projects : ∀ link ∈ lock.links, ∀ project ∈ lock.projects, ¬ Overlap link.target project.path
  links : lock.links.Pairwise fun a b => ¬ Overlap a.target b.target

/-- Nothing of the lock lies below a link target. -/
def TargetsAreLeaves (lock : SparseSourceLock) : Prop :=
  (∀ link ∈ lock.links, ∀ project ∈ lock.projects, ¬ Below project.path link.target) ∧
  ∀ link ∈ lock.links, ∀ other ∈ lock.links, ¬ Below other.target link.target

instance (lock : SparseSourceLock) : Decidable (TargetsAreLeaves lock) :=
  inferInstanceAs (Decidable (_ ∧ _))

theorem noClash_iff {lock : SparseSourceLock}
    (hadmitted : ∀ link ∈ lock.links, Admitted (lock.projects.map (·.path)) link)
    (hdistinct : lock.links.Pairwise fun a b => a.target ≠ b.target) :
    NoClash lock ↔ TargetsAreLeaves lock := by
  constructor
  · intro h
    refine ⟨fun link hlink project hproject hbelow =>
      h.projects link hlink project hproject (.inl hbelow.1), ?_⟩
    intro link hlink other hother hbelow
    have hne : link ≠ other := by
      rintro rfl
      exact hbelow.2 rfl
    have hsymm : Std.Symm fun a b : RootLink => ¬ Overlap a.target b.target :=
      ⟨fun a b hno hoverlap => hno hoverlap.symm⟩
    exact h.links.forall hlink hother hne (.inl hbelow.1)
  · rintro ⟨hprojects, hlinks⟩
    refine ⟨fun link hlink project hproject hoverlap => ?_, ?_⟩
    · have houtside := (hadmitted link hlink).targetOutside project.path
        (List.mem_map_of_mem hproject)
      rcases hoverlap with hinside | hinside
      · refine hprojects link hlink project hproject ⟨hinside, fun heq => houtside ?_⟩
        rw [heq]
      · exact houtside hinside
    · refine hdistinct.imp_of_mem fun {a b} ha hb hne hoverlap => ?_
      rcases hoverlap with hinside | hinside
      · exact hlinks a ha b hb ⟨hinside, hne.symm⟩
      · exact hlinks b hb a ha ⟨hinside, hne⟩

theorem relativePath_ne_nil {projects : List Path} {link : RootLink}
    (h : Admitted projects link) : relativePath (parent link.target) link.source ≠ [] := by
  intro hnil
  obtain ⟨project, hmem, hinside⟩ := h.sourceInside
  rw [← relativePath_eq_nil hnil] at hinside
  exact h.targetOutside project hmem (hinside.trans (List.dropLast_prefix _))

/-- **Accepted locks**: the text of every link leads to its source, and no two paths clash exactly
    when nothing lies below a link target. -/
theorem accepted_links_iff (lock : SparseSourceLock)
    (haccepted : validateProjects lock = [] ∧ validateLinks lock = []) :
    (NoClash lock ∧ ∀ link ∈ lock.links,
      relativePath (parent link.target) link.source ≠ [] ∧
      follow (parent link.target) (relativePath (parent link.target) link.source) = link.source) ↔
      TargetsAreLeaves lock := by
  obtain ⟨-, hlinks⟩ := List.append_eq_nil_iff.mp haccepted.2
  obtain ⟨hadmitted, -, hdistinct⟩ := linksFrom_eq_nil hlinks
  rw [noClash_iff hadmitted hdistinct, and_iff_left]
  exact fun link hmem => ⟨relativePath_ne_nil (hadmitted link hmem),
    follow_relativePath _ (hadmitted link hmem).source⟩

/-- A path from its names. -/
def path (names : List String) : Path := names.map fun name => .normal name.toList

def makeProject : SparseProject where
  path := path ["build", "make"]
  name := "platform/build".toList
  commit := List.replicate 40 '0'
  purpose := "build rules".toList
  sparsePaths := []

def lockWith (target : List String) : SparseSourceLock where
  links := [{ source := path ["build", "make", "core"], target := path target }]
  projects := [makeProject]

/-- A link target that contains a project is accepted. -/
theorem containing_target_accepted :
    validateProjects (lockWith ["build"]) = [] ∧ validateLinks (lockWith ["build"]) = [] ∧
      ¬ NoClash (lockWith ["build"]) := by
  refine ⟨by decide, by decide, fun h => ?_⟩
  exact h.projects _ List.mem_cons_self makeProject List.mem_cons_self
    (.inl (by decide))

theorem leaf_target_accepted : NoClash (lockWith ["core", "make"]) :=
  ((accepted_links_iff (lockWith ["core", "make"])
    ⟨by decide, by decide⟩).mpr (by decide)).1

/-! ## Extensions of a plan -/

structure PlannedProject where
  path : Path
  url : Text
  commit : Text
  purpose : Text
  sparsePaths : List Path
deriving DecidableEq, Repr

structure MaterializationPlan where
  schemaVersion : Nat
  superprojectCommit : Text
  projects : List PlannedProject
  links : List RootLink
  unrestrictedRepoSync : Bool
deriving DecidableEq, Repr

inductive ExtensionProblem
  | notBounded
  | superprojectChanged
  | projectChanged (path : Path)
  | linkChanged (target : Path)
deriving DecidableEq, Repr

/-- The two plan the same fetch. -/
def SameFetch (candidate project : PlannedProject) : Prop :=
  candidate.path = project.path ∧ candidate.url = project.url ∧
    candidate.commit = project.commit ∧ candidate.purpose = project.purpose

instance (candidate project : PlannedProject) : Decidable (SameFetch candidate project) :=
  inferInstanceAs (Decidable (_ ∧ _))

def replacement (plan : MaterializationPlan) (project : PlannedProject) : Option PlannedProject :=
  plan.projects.find? fun candidate => SameFetch candidate project

def compatible (plan : MaterializationPlan) (project : PlannedProject) : Bool :=
  (replacement plan project).any fun candidate =>
    candidate.sparsePaths = project.sparsePaths || project.sparsePaths = [] ||
      project.sparsePaths.all fun path => path ∈ candidate.sparsePaths

def extensionProblems (old new : MaterializationPlan) : List ExtensionProblem :=
  (if old.schemaVersion ≠ 1 ∨ old.unrestrictedRepoSync then [.notBounded] else []) ++
  (if old.superprojectCommit ≠ new.superprojectCommit then [.superprojectChanged] else []) ++
  (old.projects.filter (fun project => !compatible new project)).map
    (fun project => .projectChanged project.path) ++
  (old.links.filter (fun link => link ∉ new.links)).map fun link => .linkChanged link.target

def validatePlanExtension (old new : MaterializationPlan) :
    Except (List ExtensionProblem) Unit :=
  if extensionProblems old new = [] then .ok () else .error (extensionProblems old new)

/-- What cone mode checks out of a project: all of it, or what lies in a listed directory and the
    files of the directories above one. -/
def PlannedProject.Selects (project : PlannedProject) (file : Path) : Prop :=
  project.sparsePaths = [] ∨
    ∃ directory ∈ project.sparsePaths, directory <+: file ∨ parent file <+: directory

/-- The plan selects `file` of the project at `path`, at this commit. -/
def Selects (plan : MaterializationPlan) (path : Path) (commit : Text) (file : Path) : Prop :=
  ∃ project ∈ plan.projects, project.path = path ∧ project.commit = commit ∧ project.Selects file

def Accepts (old new : MaterializationPlan) : Prop := validatePlanExtension old new = .ok ()

theorem compatible_iff {plan : MaterializationPlan} {project : PlannedProject} :
    compatible plan project ↔ ∃ candidate, replacement plan project = some candidate ∧
      (project.sparsePaths = [] ∨ project.sparsePaths ⊆ candidate.sparsePaths) := by
  simp only [compatible, Option.any_eq_true, Bool.or_eq_true, decide_eq_true_eq, List.all_eq_true]
  refine exists_congr fun candidate => and_congr_right fun _ => ?_
  constructor
  · rintro ((hsame | hwhole) | hsubset)
    · exact .inr fun path hmem => hsame ▸ hmem
    · exact .inl hwhole
    · exact .inr hsubset
  · rintro (hwhole | hsubset)
    · exact .inl (.inr hwhole)
    · exact .inr hsubset

theorem accepts_iff {old new : MaterializationPlan} :
    Accepts old new ↔ (old.schemaVersion = 1 ∧ old.unrestrictedRepoSync = false) ∧
      old.superprojectCommit = new.superprojectCommit ∧
      (∀ project ∈ old.projects, compatible new project) ∧
      ∀ link ∈ old.links, link ∈ new.links := by
  have hnone : Accepts old new ↔ extensionProblems old new = [] := by
    unfold Accepts validatePlanExtension
    split <;> simp_all
  rw [hnone]
  simp only [extensionProblems, List.append_eq_nil_iff, ite_eq_right_iff, List.cons_ne_nil,
    imp_false, List.map_eq_nil_iff, List.filter_eq_nil_iff]
  simp [and_assoc]

theorem replacement_eq_some {plan : MaterializationPlan} {project candidate : PlannedProject}
    (h : replacement plan project = some candidate) :
    candidate ∈ plan.projects ∧ SameFetch candidate project :=
  ⟨List.mem_of_find?_eq_some h, by simpa using List.find?_some h⟩

/-- The same fetch is looked up alike. -/
theorem replacement_congr {plan : MaterializationPlan} {project other : PlannedProject}
    (h : SameFetch other project) : replacement plan other = replacement plan project := by
  unfold replacement
  congr 1
  funext candidate
  refine decide_eq_decide.mpr ?_
  obtain ⟨hpath, hurl, hcommit, hpurpose⟩ := h
  rw [SameFetch, SameFetch, hpath, hurl, hcommit, hpurpose]

theorem Accepts.trans {first second third : MaterializationPlan} (h₁ : Accepts first second)
    (h₂ : Accepts second third) : Accepts first third := by
  rw [accepts_iff] at h₁ h₂ ⊢
  obtain ⟨hbounded, hsuper, hprojects, hlinks⟩ := h₁
  obtain ⟨-, hsuper', hprojects', hlinks'⟩ := h₂
  refine ⟨hbounded, hsuper.trans hsuper', fun project hmem => ?_,
    fun link hmem => hlinks' link (hlinks link hmem)⟩
  obtain ⟨middle, hmiddle, hkept⟩ := compatible_iff.mp (hprojects project hmem)
  obtain ⟨hmem', hsame⟩ := replacement_eq_some hmiddle
  obtain ⟨last, hlast, hkept'⟩ := compatible_iff.mp (hprojects' middle hmem')
  refine compatible_iff.mpr ⟨last, by rw [← replacement_congr hsame, hlast], ?_⟩
  rcases hkept with hwhole | hsubset
  · exact .inl hwhole
  · rcases hkept' with hwhole' | hsubset'
    · rw [hwhole'] at hsubset
      exact .inl (List.subset_nil.mp hsubset)
    · exact .inr (List.Subset.trans hsubset hsubset')

theorem PlannedProject.Selects.mono {project wider : PlannedProject} {file : Path}
    (h : project.Selects file) (hsparse : project.sparsePaths ≠ [])
    (hsubset : project.sparsePaths ⊆ wider.sparsePaths) : wider.Selects file := by
  obtain ⟨directory, hmem, hfile⟩ := h.resolve_left hsparse
  exact .inr ⟨directory, hsubset hmem, hfile⟩

end Droidloom.Source
