/-
  The stored verification of the add-on's images (`droidloom-supervisor/src/gapps.rs`, `validate`).

  Hashing images takes seconds, so a successful verification is recorded: the manifest's digest and
  the identity of each image file, which a rewrite changes.  A later validation that finds the same
  values accepts without hashing.

  A validation runs in steps, and the manifest and the images may be rewritten between any two of
  them; validations do not overlap.  It LOADS the manifest, takes the images' identities, takes the
  manifest's DIGEST, and only then compares or hashes.  Identities are taken before hashing: an
  image that is rewritten meanwhile leaves a stale identity in the record, which no file will have
  again.  The manifest is read twice: what is hashed against is the one that was loaded, what is
  recorded is the one that was digested.
-/
import Droidloom.Lib.History

namespace Droidloom.AddonVerify

open History

/-! ## Manifests, files and records -/

structure FileDigest where
  size : Nat
  sha256 : String
deriving DecidableEq, Repr

inductive Architecture
  | aarch64
  | x86_64
deriving DecidableEq, Repr

inductive Directory
  | base
  | addon
deriving DecidableEq, Repr

/-- `<directory>/images/<role>.img` -/
structure Image where
  directory : Directory
  role : String
deriving DecidableEq, Repr

/-- What a validation uses of a manifest. -/
structure Manifest where
  architecture : Architecture
  baseImages : List (String × FileDigest)
  images : List (String × FileDigest)
deriving DecidableEq, Repr

/-- The images that a manifest names, with their digests, in the order they are looked at. -/
def Manifest.expected (manifest : Manifest) : List (Image × FileDigest) :=
  manifest.baseImages.map (fun entry => (⟨.base, entry.1⟩, entry.2)) ++
    manifest.images.map (fun entry => (⟨.addon, entry.1⟩, entry.2))

structure FileIdentity where
  path : Image
  device : Nat
  inode : Nat
  size : Nat
  modified : Int × Int
  changed : Nat
deriving DecidableEq, Repr

structure Verified where
  manifest : FileDigest
  images : List FileIdentity
deriving DecidableEq, Repr

/-- How contents are read: `load` parses and validates a manifest. -/
structure Setup (C : Type) where
  load : C → Option Manifest
  digest : C → FileDigest
  target : Architecture

/-! ## The state machine -/

/-- How far a validation is.  The contents it saw are kept for the statement, not by the code. -/
inductive Phase (C : Type)
  | idle
  | identifying (loaded : C) (manifest : Manifest) (todo : List Image)
      (seen : List (FileIdentity × C))
  | checked (loaded digested : C) (manifest : Manifest) (seen : List (FileIdentity × C))
  | hashing (loaded digested : C) (images : List FileIdentity) (manifest : Manifest)
      (todo : List (Image × FileDigest))

/-- A validation that accepted through the record: the images in place when it took their
    identities, and the manifest in place when it took its digest. -/
structure Acceptance (C : Type) where
  seen : List (FileIdentity × C)
  digested : C

structure File (C : Type) where
  content : C
  device : Nat
  inode : Nat
  size : Nat
  modified : Int × Int
  changed : Nat

structure State (C : Type) where
  manifest : C
  files : Image → File C
  /-- The next change time. -/
  clock : Nat
  record : Option Verified := none
  phase : Phase C := .idle
  accepted : List (Acceptance C) := []

inductive Step (C : Type)
  | rewriteManifest (content : C)
  | rewriteImage (image : Image) (content : C) (device inode size : Nat) (modified : Int × Int)
  | load
  | identify
  | digest
  /-- Whether the record is trusted and can be read. -/
  | compare (readable : Bool)
  | hash
  /-- Whether the record could be replaced. -/
  | write (replaced : Bool)
  /-- A file operation fails, or the process ends. -/
  | fail

variable {C : Type}

/-- `FileIdentity::of` -/
def State.identity (s : State C) (image : Image) : FileIdentity :=
  let file := s.files image
  { path := image, device := file.device, inode := file.inode, size := file.size
    modified := file.modified, changed := file.changed }

def verified (setup : Setup C) (digested : C) (images : List FileIdentity) : Verified :=
  { manifest := setup.digest digested, images }

def step (setup : Setup C) (s : State C) : Step C → State C
  | .rewriteManifest content => { s with manifest := content }
  | .rewriteImage image content device inode size modified => { s with
      files := Function.update s.files image
        { content, device, inode, size, modified, changed := s.clock }
      clock := s.clock + 1 }
  | .load =>
    match s.phase, setup.load s.manifest with
    | .idle, some manifest => { s with
        phase := .identifying s.manifest manifest (manifest.expected.map (·.1)) [] }
    | _, _ => s
  | .identify =>
    match s.phase with
    | .identifying loaded manifest (image :: todo) seen => { s with
        phase := .identifying loaded manifest todo
          (seen ++ [(s.identity image, (s.files image).content)]) }
    | _ => s
  | .digest =>
    match s.phase with
    | .identifying loaded manifest [] seen => { s with
        phase := .checked loaded s.manifest manifest seen }
    | _ => s
  | .compare readable =>
    match s.phase with
    | .checked loaded digested manifest seen =>
      let images := seen.map (·.1)
      if readable = true ∧ s.record = some (verified setup digested images) then { s with
        phase := .idle
        accepted := s.accepted ++ [{ seen, digested }] }
      else if manifest.architecture ≠ setup.target then { s with phase := .idle }
      else { s with phase := .hashing loaded digested images manifest manifest.expected }
    | _ => s
  | .hash =>
    match s.phase with
    | .hashing loaded digested images manifest ((image, expected) :: todo) =>
      if setup.digest (s.files image).content ≠ expected then { s with phase := .idle }
      else { s with phase := .hashing loaded digested images manifest todo }
    | _ => s
  | .write replaced =>
    match s.phase with
    | .hashing _ digested images _ [] => { s with
        phase := .idle
        record := if replaced then some (verified setup digested images) else s.record }
    | _ => s
  | .fail => { s with phase := .idle }

def run (setup : Setup C) (s : State C) (steps : List (Step C)) : State C :=
  steps.foldl (step setup) s

/-- Nothing is recorded yet, and change times are in the past. -/
structure Start (s : State C) : Prop where
  fresh : ∀ image, (s.files image).changed < s.clock
  record : s.record = none
  phase : s.phase = .idle
  accepted : s.accepted = []

/-- **An acceptance is as good as a full verification**: the images that were in place have the
    digests that the manifest in place names. -/
def AsVerified (setup : Setup C) (acceptance : Acceptance C) : Prop :=
  ∃ manifest, setup.load acceptance.digested = some manifest ∧
    ∀ image expected, (image, expected) ∈ manifest.expected →
      (∃ seen ∈ acceptance.seen, seen.1.path = image) ∧
      ∀ seen ∈ acceptance.seen, seen.1.path = image → setup.digest seen.2 = expected

/-- Where the record is written, the manifest that was loaded is the one that was digested. -/
def Steady (s : State C) : Step C → Prop
  | .write true =>
    match s.phase with
    | .hashing loaded digested _ _ [] => loaded = digested
    | _ => True
  | _ => True

/-! ## What a record says -/

section

variable (setup : Setup C)

/-- What a record claims of a content with an identity. -/
def Backs (record : Verified) (identity : FileIdentity) (content : C) : Prop :=
  ∀ source manifest expected, setup.digest source = record.manifest →
    setup.load source = some manifest → (identity.path, expected) ∈ manifest.expected →
    identity ∈ record.images → setup.digest content = expected

/-- A record is of a manifest and its images, and what it claims of the files in place is true. -/
structure RecordOk (s : State C) (record : Verified) : Prop where
  manifest : ∃ source manifest, setup.digest source = record.manifest ∧
    setup.load source = some manifest ∧
    manifest.expected.map (·.1) = record.images.map (·.path)
  past : ∀ identity ∈ record.images, identity.changed < s.clock
  backs : ∀ image, Backs setup record (s.identity image) (s.files image).content

/-- Identities taken by the current validation, with the record that it will look at. -/
structure Taken (s : State C) (seen : List (FileIdentity × C)) : Prop where
  past : ∀ pair ∈ seen, pair.1.changed < s.clock
  backs : ∀ record, s.record = some record → ∀ pair ∈ seen, Backs setup record pair.1 pair.2

/-- Images hashed so far: those that still have their identity have their digest. -/
def Hashed (s : State C) (images : List FileIdentity) (image : Image) (expected : FileDigest) :
    Prop :=
  s.identity image ∈ images → setup.digest (s.files image).content = expected

def PhaseOk (s : State C) : Phase C → Prop
  | .idle => True
  | .identifying loaded manifest todo seen => setup.load loaded = some manifest ∧
      manifest.expected.map (·.1) = seen.map (·.1.path) ++ todo ∧ Taken setup s seen
  | .checked loaded _ manifest seen => setup.load loaded = some manifest ∧
      manifest.expected.map (·.1) = seen.map (·.1.path) ∧ Taken setup s seen
  | .hashing loaded _ images manifest todo => setup.load loaded = some manifest ∧
      manifest.expected.map (·.1) = images.map (·.path) ∧
      (∀ identity ∈ images, identity.changed < s.clock) ∧
      ∀ image expected, (image, expected) ∈ manifest.expected →
        (image, expected) ∈ todo ∨ Hashed setup s images image expected

structure Inv (s : State C) : Prop where
  fresh : ∀ image, (s.files image).changed < s.clock
  record : ∀ record, s.record = some record → RecordOk setup s record
  phase : PhaseOk setup s s.phase
  accepted : ∀ acceptance ∈ s.accepted, AsVerified setup acceptance

variable {setup : Setup C} {s : State C}

/-! ## Rewrites -/

/-- A rewritten file has an identity that nobody has seen. -/
theorem identity_rewritten_not_mem {images : List FileIdentity} {s' : State C} {image : Image}
    (hpast : ∀ identity ∈ images, identity.changed < s.clock)
    (hchanged : (s'.files image).changed = s.clock) : s'.identity image ∉ images := by
  intro hmem
  have hlt : (s'.files image).changed < s.clock := hpast _ hmem
  omega

/-- After a rewrite, a file is untouched or new. -/
theorem files_rewriteImage (setup : Setup C) (s : State C) (image other : Image) (content : C)
    (device inode size : Nat) (modified : Int × Int) :
    let s' := step setup s (.rewriteImage image content device inode size modified)
    s'.files other = s.files other ∨ (s'.files other).changed = s.clock := by
  intro s'
  by_cases hsame : other = image
  · subst hsame
    exact .inr (by simp [s', step])
  · exact .inl (by simp [s', step, Function.update_of_ne hsame])

/-- Files are untouched or new, and time has not gone back. -/
structure Moved (s s' : State C) : Prop where
  clock : s.clock ≤ s'.clock
  files : ∀ image, s'.files image = s.files image ∨ (s'.files image).changed = s.clock

theorem Moved.of_eq {s' : State C} (hfiles : s'.files = s.files) (hclock : s'.clock = s.clock) :
    Moved s s' :=
  ⟨hclock.ge, fun image => .inl (congrFun hfiles image)⟩

theorem identity_of_files {s' : State C} {image : Image}
    (h : s'.files image = s.files image) : s'.identity image = s.identity image := by
  simp only [State.identity, h]

theorem RecordOk.moved {s' : State C} {record : Verified} (h : RecordOk setup s record)
    (hmoved : Moved s s') : RecordOk setup s' record where
  manifest := h.manifest
  past identity hmem := lt_of_lt_of_le (h.past identity hmem) hmoved.clock
  backs image := by
    rcases hmoved.files image with hsame | hnew
    · rw [identity_of_files hsame, hsame]
      exact h.backs image
    · -- the record cannot hold the new identity
      intro source manifest expected _ _ _ hmem
      exact absurd hmem (identity_rewritten_not_mem h.past hnew)

theorem Taken.moved {s' : State C} {seen : List (FileIdentity × C)} (h : Taken setup s seen)
    (hmoved : Moved s s') (hrecord : s'.record = s.record) : Taken setup s' seen where
  past pair hmem := lt_of_lt_of_le (h.past pair hmem) hmoved.clock
  backs record hr := h.backs record (hrecord ▸ hr)

theorem Hashed.moved {s' : State C} {images : List FileIdentity} {image : Image}
    {expected : FileDigest} (h : Hashed setup s images image expected) (hmoved : Moved s s')
    (hpast : ∀ identity ∈ images, identity.changed < s.clock) :
    Hashed setup s' images image expected := by
  intro hmem
  rcases hmoved.files image with hsame | hnew
  · rw [hsame]
    exact h (identity_of_files hsame ▸ hmem)
  · exact absurd hmem (identity_rewritten_not_mem hpast hnew)

theorem PhaseOk.moved {s' : State C} {phase : Phase C} (h : PhaseOk setup s phase)
    (hmoved : Moved s s') (hrecord : s'.record = s.record) : PhaseOk setup s' phase := by
  cases phase with
  | idle => trivial
  | identifying loaded manifest todo seen =>
    obtain ⟨hload, hpaths, htaken⟩ := h
    exact ⟨hload, hpaths, htaken.moved hmoved hrecord⟩
  | checked loaded digested manifest seen =>
    obtain ⟨hload, hpaths, htaken⟩ := h
    exact ⟨hload, hpaths, htaken.moved hmoved hrecord⟩
  | hashing loaded digested images manifest todo =>
    obtain ⟨hload, hpaths, hpast, hdone⟩ := h
    refine ⟨hload, hpaths, fun identity hmem => lt_of_lt_of_le (hpast identity hmem) hmoved.clock,
      fun image expected hmem => ?_⟩
    exact (hdone image expected hmem).imp_right fun hhashed => hhashed.moved hmoved hpast

/-- The invariant needs to be shown anew only for what a step changes. -/
theorem Inv.next {s' : State C} (h : Inv setup s) (hfiles : s'.files = s.files)
    (hclock : s'.clock = s.clock) (hrecord : s'.record = s.record)
    (haccepted : s'.accepted = s.accepted) (hphase : PhaseOk setup s s'.phase) :
    Inv setup s' := by
  have hmoved : Moved s s' := .of_eq hfiles hclock
  refine ⟨fun image => ?_, fun record hr => ?_, hphase.moved hmoved hrecord, ?_⟩
  · rw [hfiles, hclock]
    exact h.fresh image
  · exact (h.record record (hrecord ▸ hr)).moved hmoved
  · rw [haccepted]
    exact h.accepted

theorem Inv.idle (h : Inv setup s) : Inv setup { s with phase := .idle } :=
  h.next rfl rfl rfl rfl trivial

theorem Inv.rewriteImage (h : Inv setup s) (image : Image) (content : C) (device inode size : Nat)
    (modified : Int × Int) :
    Inv setup (step setup s (.rewriteImage image content device inode size modified)) := by
  have hmoved : Moved s (step setup s (.rewriteImage image content device inode size modified)) :=
    ⟨Nat.le_succ _, fun other =>
      files_rewriteImage setup s image other content device inode size modified⟩
  refine ⟨fun other => ?_, fun record hr => (h.record record hr).moved hmoved,
    h.phase.moved hmoved rfl, h.accepted⟩
  have hold := h.fresh other
  rcases hmoved.files other with hsame | hnew
  · rw [hsame]
    exact Nat.lt_succ_of_lt hold
  · rw [hnew]
    exact Nat.lt_succ_self _

/-! ## The steps of a validation -/

theorem Inv.load (h : Inv setup s) : Inv setup (step setup s .load) := by
  simp only [step]
  split
  · rename_i manifest _ hload
    refine h.next rfl rfl rfl rfl ⟨hload, by simp, ?_⟩
    exact ⟨by simp, by simp⟩
  · exact h

/-- The identity just taken is one that the record, if it has it, is right about. -/
theorem Inv.identify (h : Inv setup s) : Inv setup (step setup s .identify) := by
  simp only [step]
  split
  · rename_i loaded manifest image todo seen hphase
    obtain ⟨hload, hpaths, htaken⟩ : PhaseOk setup s (.identifying loaded manifest _ seen) :=
      hphase ▸ h.phase
    refine h.next rfl rfl rfl rfl ⟨hload, ?_, ?_, ?_⟩
    · rw [hpaths]
      simp [State.identity]
    · intro pair hmem
      rcases List.mem_append.mp hmem with hmem | hmem
      · exact htaken.past pair hmem
      · rw [List.mem_singleton.mp hmem]
        exact h.fresh image
    · intro record hr pair hmem
      rcases List.mem_append.mp hmem with hmem | hmem
      · exact htaken.backs record hr pair hmem
      · rw [List.mem_singleton.mp hmem]
        exact (h.record record hr).backs image
  · exact h

theorem Inv.digest (h : Inv setup s) : Inv setup (step setup s .digest) := by
  simp only [step]
  split
  · rename_i loaded manifest seen hphase
    obtain ⟨hload, hpaths, htaken⟩ : PhaseOk setup s (.identifying loaded manifest [] seen) :=
      hphase ▸ h.phase
    exact h.next rfl rfl rfl rfl ⟨hload, by simpa using hpaths, htaken⟩
  · exact h

/-- **What the record answers is right**: where it has the digest and the identities that were just
    taken, it is of the same manifest, and what it claims of those identities holds. -/
theorem asVerified_of_record (hinjective : Function.Injective setup.digest) {digested : C}
    {seen : List (FileIdentity × C)}
    (hrecord : RecordOk setup s (verified setup digested (seen.map (·.1))))
    (hbacks : ∀ pair ∈ seen, Backs setup (verified setup digested (seen.map (·.1))) pair.1 pair.2) :
    AsVerified setup { seen, digested } := by
  obtain ⟨source, manifest, hsource, hload, hpaths⟩ := hrecord.manifest
  obtain rfl : source = digested := hinjective hsource
  refine ⟨manifest, hload, fun image expected hmem => ⟨?_, fun pair hpair hpath => ?_⟩⟩
  · have himage : image ∈ manifest.expected.map (·.1) := List.mem_map.mpr ⟨_, hmem, rfl⟩
    rw [hpaths] at himage
    simpa [verified, and_comm] using himage
  · subst hpath
    exact hbacks pair hpair source manifest expected rfl hload hmem
      (List.mem_map.mpr ⟨pair, hpair, rfl⟩)

theorem Inv.compare (hinjective : Function.Injective setup.digest) (h : Inv setup s)
    (readable : Bool) : Inv setup (step setup s (.compare readable)) := by
  simp only [step]
  split
  · rename_i loaded digested manifest seen hphase
    obtain ⟨hload, hpaths, htaken⟩ : PhaseOk setup s (.checked loaded digested manifest seen) :=
      hphase ▸ h.phase
    split_ifs with hsame harchitecture
    · obtain ⟨-, hrecord⟩ := hsame
      refine ⟨h.fresh, fun record hr => (h.record record hr).moved (.of_eq rfl rfl), trivial,
        fun acceptance hmem => ?_⟩
      rcases List.mem_append.mp hmem with hmem | hmem
      · exact h.accepted acceptance hmem
      · rw [List.mem_singleton.mp hmem]
        exact asVerified_of_record hinjective (h.record _ hrecord) (htaken.backs _ hrecord)
    · exact h.idle
    · refine h.next rfl rfl rfl rfl ⟨hload, ?_, ?_, fun _ _ hmem => .inl hmem⟩
      · rw [List.map_map]
        exact hpaths
      · intro identity hmem
        obtain ⟨pair, hpair, rfl⟩ := List.mem_map.mp hmem
        exact htaken.past pair hpair
  · exact h

theorem Inv.hash (h : Inv setup s) : Inv setup (step setup s .hash) := by
  simp only [step]
  split
  · rename_i loaded digested images manifest image expected todo hphase
    obtain ⟨hload, hpaths, hpast, hdone⟩ :
        PhaseOk setup s (.hashing loaded digested images manifest ((image, expected) :: todo)) :=
      hphase ▸ h.phase
    split_ifs with hdiffers
    · exact h.idle
    · refine h.next rfl rfl rfl rfl ⟨hload, hpaths, hpast, fun other named hmem => ?_⟩
      rcases hdone other named hmem with htodo | hhashed
      · rcases List.mem_cons.mp htodo with heq | htodo
        · obtain ⟨rfl, rfl⟩ := Prod.mk.injEq .. ▸ heq
          exact .inr fun _ => not_not.mp hdiffers
        · exact .inl htodo
      · exact .inr hhashed
  · exact h

/-- The record that a steady validation writes: the manifest it digested is the one it hashed the
    images against. -/
theorem recordOk_written (hinjective : Function.Injective setup.digest) {digested : C}
    {images : List FileIdentity} {manifest : Manifest}
    (h : PhaseOk setup s (.hashing digested digested images manifest [])) :
    RecordOk setup s (verified setup digested images) := by
  obtain ⟨hload, hpaths, hpast, hdone⟩ := h
  refine ⟨⟨digested, manifest, rfl, hload, hpaths⟩, hpast, fun image => ?_⟩
  intro source other expected hsource hother hnamed hmem
  obtain rfl : source = digested := hinjective hsource
  obtain rfl : manifest = other := Option.some.inj (hload.symm.trans hother)
  rcases hdone image expected hnamed with htodo | hhashed
  · simp at htodo
  · exact hhashed hmem

theorem Inv.write (hinjective : Function.Injective setup.digest) (h : Inv setup s)
    (replaced : Bool) (hsteady : Steady s (.write replaced)) :
    Inv setup (step setup s (.write replaced)) := by
  simp only [step]
  split
  · rename_i loaded digested images manifest hphase
    cases replaced with
    | false => exact h.idle
    | true =>
      obtain rfl : loaded = digested := by simpa only [Steady, hphase] using hsteady
      have hwritten : RecordOk setup s (verified setup loaded images) :=
        recordOk_written hinjective (hphase ▸ h.phase)
      refine ⟨h.fresh, fun record hr => ?_, trivial, h.accepted⟩
      obtain rfl : verified setup loaded images = record := Option.some.inj hr
      exact hwritten.moved (.of_eq rfl rfl)
  · exact h

/-! ## Runs -/

theorem Inv.step (hinjective : Function.Injective setup.digest) (h : Inv setup s)
    (action : Step C) (hsteady : Steady s action) : Inv setup (step setup s action) := by
  cases action with
  | rewriteManifest content => exact h.next rfl rfl rfl rfl h.phase
  | rewriteImage image content device inode size modified =>
    exact h.rewriteImage image content device inode size modified
  | load => exact h.load
  | identify => exact h.identify
  | digest => exact h.digest
  | compare readable => exact h.compare hinjective readable
  | hash => exact h.hash
  | write replaced => exact h.write hinjective replaced hsteady
  | fail => exact h.idle

theorem Start.inv (h : Start s) : Inv setup s where
  fresh := h.fresh
  record := by simp [h.record]
  phase := by simp [h.phase, PhaseOk]
  accepted := by simp [h.accepted]

/-- **A recorded verification is as good as a full one** in every interleaving where each record is
    written by a validation that digested the manifest it had loaded. -/
theorem recorded_as_verified (setup : Setup C) (hinjective : Function.Injective setup.digest)
    (start : State C) (hstart : Start start) (steps : List (Step C))
    (hsteady : Along (fun before action => Steady (run setup start before) action) steps) :
    ∀ acceptance ∈ (run setup start steps).accepted, AsVerified setup acceptance :=
  (hsteady.foldl hstart.inv fun _ action hstep h => h.step hinjective action hstep).accepted

end

/-! ## A manifest that is replaced while it is in use -/

namespace Sample

def digest (content : String) : FileDigest := { size := content.length, sha256 := content }

/-- A manifest of the images in place, but for the add-on's `product`. -/
def manifest (product : String) : Manifest where
  architecture := .x86_64
  baseImages := ["product", "system", "system_ext"].map fun role => (role, digest "image")
  images := [("product", digest product), ("system_ext", digest "image")]

def setup : Setup String where
  load source := if source = "right" then some (manifest "image")
    else if source = "wrong" then some (manifest "other") else none
  digest := digest
  target := .x86_64

def start : State String where
  manifest := "right"
  files _ := { content := "image", device := 1, inode := 1, size := 5, modified := (0, 0)
               changed := 0 }
  clock := 1

/-- One validation up to the comparison, with steps taken before the manifest is digested. -/
def upTo (between : List (Step String)) : List (Step String) :=
  [.load, .identify, .identify, .identify, .identify, .identify] ++ between ++
    [.digest, .compare true]

/-- A validation that records what it hashed, and one that finds the record. -/
def twice (between : List (Step String)) : List (Step String) :=
  upTo between ++ [.hash, .hash, .hash, .hash, .hash, .write true] ++ upTo []

theorem digest_injective : Function.Injective digest :=
  fun _ _ h => congrArg FileDigest.sha256 h

theorem start_start : Start start where
  fresh _ := Nat.zero_lt_one
  record := rfl
  phase := rfl
  accepted := rfl

instance (s : State String) (action : Step String) : Decidable (Steady s action) := by
  unfold Steady
  split
  · split
    · exact inferInstance
    · exact .isTrue trivial
  · exact .isTrue trivial

end Sample

/-- Two validations of images that stay in place, the second one answered by the record. -/
theorem recorded_as_verified_twice :
    (run Sample.setup Sample.start (Sample.twice [])).accepted.length = 1 ∧
    ∀ acceptance ∈ (run Sample.setup Sample.start (Sample.twice [])).accepted,
      AsVerified Sample.setup acceptance := by
  refine ⟨by decide +kernel, ?_⟩
  have hsteady := @of_decide_eq_true _
    (decidableAlong (step Sample.setup) Steady Sample.start (Sample.twice [])) (by decide +kernel)
  exact recorded_as_verified Sample.setup Sample.digest_injective Sample.start
    Sample.start_start _ hsteady

/-- The manifest is replaced between its load and its digest.  The images are hashed against the
    old one, the new one is recorded, and the next validation accepts images that the manifest in
    place does not name. -/
theorem replaced_manifest_recorded :
    ∃ acceptance ∈
        (run Sample.setup Sample.start (Sample.twice [.rewriteManifest "wrong"])).accepted,
      ¬ AsVerified Sample.setup acceptance := by
  have haccepted : (run Sample.setup Sample.start
      (Sample.twice [.rewriteManifest "wrong"])).accepted =
      [{ seen := (Sample.manifest "other").expected.map fun entry =>
          (Sample.start.identity entry.1, "image")
         digested := "wrong" }] := rfl
  rw [haccepted]
  refine ⟨_, List.mem_singleton.mpr rfl, ?_⟩
  rintro ⟨manifest, hload, hnamed⟩
  obtain rfl : Sample.manifest "other" = manifest := Option.some.inj hload
  obtain ⟨-, hall⟩ :=
    hnamed ⟨.addon, "product"⟩ (Sample.digest "other") (by decide +kernel)
  have hdigest : Sample.digest "image" = Sample.digest "other" :=
    hall (Sample.start.identity ⟨.addon, "product"⟩, "image") (by decide +kernel) rfl
  exact absurd hdigest (by decide +kernel)

end Droidloom.AddonVerify
