/-
  Derived images add exactly the payload (`ext4::derive` and `erofs::derive_worker`).

  External tools do the work on a private copy, and the code TRUSTS NONE of them: when they are
  done it takes the inventory of the result and compares.  Here every command may leave the files
  in any state; what is known is only that an inventory describes its image, so each entry's parent
  is a directory.

  1. The checks before writing say which directories were missing: the paths above an addition
     that the base lacks (`checkAdditions_ok`).
  2. The checks after it find every base entry unchanged and every addition in place.
  3. **Counting** — the base, the additions and the missing directories are disjoint and all in the
     result, which has no more entries than they have together.  The EROFS code never looks at a
     new directory; that it is there, and is a directory, follows from the files below it.
-/
import Droidloom.Lib.Triple
import Droidloom.Gapps.Additions

namespace Droidloom.Gapps

open Fallible Triple RelativePath
open Std (ExtTreeMap ExtTreeSet)

/-! ## What is to be shown -/

/-- `after` is `before` with a file for each addition and a directory for each path above one that
    `before` lacks, and nothing else. -/
structure AddsExactly [Inode E] (isFile : FileDigest → E → Prop) (isDirectory : E → Prop)
    (before after : Inventory E) (additions : Additions) : Prop where
  kept : ∀ (path : Path) (entry : E), before.entries[path]? = some entry →
    after.entries[path]? = some entry
  file : ∀ (text : Text) (digest : FileDigest), additions[text]? = some digest →
    components text ∉ before.entries ∧
      ∃ entry, after.entries[components text]? = some entry ∧ isFile digest entry
  directory : ∀ path text, text ∈ additions → Above path (components text) →
    path ∉ before.entries → ∃ entry, after.entries[path]? = some entry ∧ isDirectory entry
  only : ∀ path ∈ after.entries, path ∈ before.entries ∨
    ∃ text ∈ additions, path = components text ∨ Above path (components text)

/-! ## Counting -/

section

variable {K V : Type} [Ord K] [Std.TransOrd K] [Std.LawfulEqOrd K]

theorem nodup_keys (map : ExtTreeMap K V compare) : map.keys.Nodup := by
  simpa [List.Nodup] using ExtTreeMap.distinct_keys (t := map)

/-- **Nothing else**: entries that are all there, and a size that leaves no room for others. -/
theorem mem_of_size [DecidableEq K] {before after : ExtTreeMap K V compare} {new : Finset K}
    (hkept : ∀ key ∈ before, key ∈ after) (hnew : ∀ key ∈ new, key ∈ after ∧ key ∉ before)
    (hsize : after.size = before.size + new.card) : ∀ key ∈ after, key ∈ before ∨ key ∈ new := by
  have hcard : ∀ map : ExtTreeMap K V compare, map.keys.toFinset.card = map.size := fun map => by
    rw [List.toFinset_card_of_nodup (nodup_keys map), ExtTreeMap.length_keys]
  have hdisjoint : Disjoint before.keys.toFinset new := by
    rw [Finset.disjoint_left]
    intro key hbefore hkey
    exact (hnew key hkey).2 (by simpa using hbefore)
  have hsubset : before.keys.toFinset ∪ new ⊆ after.keys.toFinset := by
    intro key hkey
    rw [List.mem_toFinset, ExtTreeMap.mem_keys]
    rcases Finset.mem_union.1 hkey with hbefore | hkey
    · exact hkept key (by simpa using hbefore)
    · exact (hnew key hkey).1
  have hequal := Finset.eq_of_subset_of_card_le hsubset (by
    rw [Finset.card_union_of_disjoint hdisjoint, hcard, hcard, hsize])
  intro key hkey
  have hunion : key ∈ before.keys.toFinset ∪ new := by
    rw [hequal, List.mem_toFinset, ExtTreeMap.mem_keys]
    exact hkey
  rcases Finset.mem_union.1 hunion with hbefore | hkey
  · exact .inl (by simpa using hbefore)
  · exact .inr hkey

end

/-! ## Parents -/

/-- What lies above an entry is a directory. -/
theorem Inventory.above_isDir [Inode E] (inventory : Inventory E) (path rest : Path) :
    rest ≠ [] → path ++ rest ∈ inventory.entries →
      ∃ entry, inventory.entries[path]? = some entry ∧ isDir entry := by
  -- from the end: the parent is a directory, and it is the path or has it above
  induction rest using List.reverseRecOn with
  | nil => exact fun hne _ => absurd rfl hne
  | append_singleton front last ih =>
    intro _ hmem
    rw [← List.append_assoc] at hmem
    obtain ⟨parent, hparent, hdir⟩ := inventory.closed _ last hmem
    by_cases hempty : front = []
    · subst hempty
      rw [List.append_nil] at hparent
      exact ⟨parent, hparent, hdir⟩
    · exact ih hempty (mem_of_get hparent)

theorem normalRelative_named {path : Text} (h : normalRelative path = true) :
    Named (components path) := by
  unfold normalRelative at h
  simp only [Bool.and_eq_true, List.all_eq_true, decide_eq_true_eq] at h
  obtain ⟨⟨⟨⟨hne, -⟩, -⟩, -⟩, hparts⟩ := h
  rw [components, if_neg hne]
  exact fun name hname => ⟨(hparts name hname).1.1, slash_not_mem_splitOn path name hname⟩

/-! ## The checks before writing -/

section

variable {E K : Type} [Inode E] [Ord K] [Std.TransOrd K] [Std.LawfulEqOrd K]
variable {key : Text → K} {payload : Text → Except Error FileDigest}
  {before : ExtTreeMap K E compare}

/-- The loop over parents collects those that the base lacks. -/
theorem visitParents_ok (reversed : List Text) : ∀ {dirs dirs' : ExtTreeSet K compare},
    visitParents key before reversed dirs = .ok dirs' → ∀ k, k ∈ dirs' ↔
      k ∈ dirs ∨ ∃ parent ∈ ancestors reversed, key (render parent) = k ∧ k ∉ before := by
  fun_induction ancestors reversed with
  | case1 name parent rest ih =>
    intro dirs dirs' h k
    rw [visitParents] at h
    rw [List.exists_mem_cons_iff]
    cases hentry : before[key (render (parent :: rest).reverse)]? with
    | some entry =>
      have hmem : key (render (parent :: rest).reverse) ∈ before :=
        mem_of_get hentry
      have hself : ¬ (key (render (parent :: rest).reverse) = k ∧ k ∉ before) := by
        rintro ⟨rfl, habsent⟩
        exact habsent hmem
      rw [hentry] at h
      by_cases hdir : isDir entry
      · have h : visitParents key before (parent :: rest) dirs = .ok dirs' := by
          simpa [hdir] using h
        rw [ih h, or_iff_right hself]
      · simp [hdir] at h
    | none =>
      have hself : key (render (parent :: rest).reverse) = k → k ∉ before := by
        rintro rfl hmem
        rw [ExtTreeMap.mem_iff_isSome_getElem?, hentry] at hmem
        cases hmem
      rw [hentry] at h
      rw [ih h, ExtTreeSet.mem_insert, Std.LawfulEqCmp.compare_eq_iff_eq, and_iff_left_of_imp hself,
        or_assoc, or_left_comm]
  | case2 reversed hshort =>
    intro dirs dirs' h k
    have hsame : visitParents key before reversed dirs = .ok dirs := by
      rcases reversed with _ | ⟨name, _ | ⟨parent, rest⟩⟩
      · rfl
      · rfl
      · exact absurd rfl (hshort name parent rest)
    cases hsame.symm.trans h
    simp

/-- **What the checks leave**: no addition is bad, and the directories are the paths above one
    that the base lacks. -/
theorem checkAdditions_ok (additions : List (Text × FileDigest)) :
    ∀ {dirs dirs' : ExtTreeSet K compare},
      checkAdditions key payload before additions dirs = .ok dirs' →
      (∀ addition ∈ additions, ¬ Bad key payload before addition.1 addition.2) ∧
      ∀ k, k ∈ dirs' ↔ k ∈ dirs ∨ ∃ addition ∈ additions, ∃ parent,
        Above parent (components addition.1) ∧ key (render parent) = k ∧ k ∉ before := by
  induction additions with
  | nil =>
    intro dirs dirs' h
    cases h
    simp
  | cons first rest ih =>
    intro dirs dirs' h
    obtain ⟨dirs₁, hfirst, hrest⟩ := bind_eq_ok.1 h
    obtain ⟨hgood, hdirs⟩ := ih hrest
    have hfine : ¬ Bad key payload before first.1 first.2 := by
      rw [← checkAddition_refused_iff dirs, hfirst]
      simp [Refused]
    have hparents : ∀ k, k ∈ dirs₁ ↔ k ∈ dirs ∨ ∃ parent, Above parent (components first.1) ∧
        key (render parent) = k ∧ k ∉ before := by
      obtain ⟨_, -, hfirst⟩ := bind_eq_ok.1 hfirst
      obtain ⟨_, -, hfirst⟩ := bind_eq_ok.1 hfirst
      obtain ⟨_, -, hfirst⟩ := bind_eq_ok.1 hfirst
      intro k
      rw [visitParents_ok _ hfirst k]
      simp only [mem_ancestors, List.reverse_reverse]
    refine ⟨List.forall_mem_cons.2 ⟨hfine, hgood⟩, fun k => ?_⟩
    rw [hdirs, hparents, List.exists_mem_cons_iff, or_assoc]

end

/-- A directory to make: above an addition, and not in the base. -/
def Missing [Inode E] (before : Inventory E) (additions : Additions) (path : Path) : Prop :=
  ∃ text ∈ additions, Above path (components text) ∧ path ∉ before.entries

/-- What the checks before writing establish of the additions. -/
structure Prepared [Inode E] (before : Inventory E) (additions : Additions) : Prop where
  named : ∀ text ∈ additions, Named (components text)
  absent : ∀ text ∈ additions, components text ∉ before.entries

theorem prepared_of_good [Inode E] {payload : Text → Except Error FileDigest}
    {before : Inventory E} {additions : Additions}
    (h : ∀ addition ∈ additions.toList,
      ¬ Bad components payload before.entries addition.1 addition.2) :
    Prepared before additions := by
  have hgood : ∀ text ∈ additions, normalRelative text = true ∧
      components text ∉ before.entries := by
    intro text htext
    obtain ⟨digest, hdigest⟩ := get_of_mem htext
    have hbad := h (text, digest) (ExtTreeMap.mem_toList_iff_getElem?_eq_some.2 hdigest)
    unfold Bad at hbad
    simp only [not_or, Bool.not_eq_false] at hbad
    exact ⟨hbad.1, hbad.2.1⟩
  exact ⟨fun text htext => normalRelative_named (hgood text htext).1,
    fun text htext => (hgood text htext).2⟩

theorem exists_mem_toList {additions : Additions} {p : Text → Prop} :
    (∃ addition ∈ additions.toList, p addition.1) ↔ ∃ text ∈ additions, p text := by
  constructor
  · rintro ⟨⟨text, digest⟩, hmem, hp⟩
    have hdigest := ExtTreeMap.mem_toList_iff_getElem?_eq_some.1 hmem
    exact ⟨text, mem_of_get hdigest, hp⟩
  · rintro ⟨text, htext, hp⟩
    obtain ⟨digest, hdigest⟩ := get_of_mem htext
    exact ⟨(text, digest), ExtTreeMap.mem_toList_iff_getElem?_eq_some.2 hdigest, hp⟩

theorem ext4_prepared [Inode E] {payload : Text → Except Error FileDigest} {before : Inventory E}
    {additions : Additions} {dirs : ExtTreeSet Text compare}
    (h : ext4Prepare payload before.texts additions = .ok dirs) :
    Prepared before additions ∧
      ∀ path, path ∈ dirs ↔ Missing before additions (components path) := by
  obtain ⟨checked, hchecked, h⟩ := bind_eq_ok.1 h
  obtain ⟨_, -, h⟩ := bind_eq_ok.1 h
  cases h
  obtain ⟨hgood, hdirs⟩ := checkAdditions_ok _ hchecked
  have hprepared := prepared_of_good fun addition hmem =>
    mt (bad_texts_iff before).2 (hgood addition hmem)
  refine ⟨hprepared, fun path => ?_⟩
  rw [hdirs, or_iff_right ExtTreeSet.not_mem_empty, before.mem_texts]
  refine (exists_mem_toList (p := fun text => ∃ parent, Above parent (components text) ∧
    render parent = path ∧ components path ∉ before.entries)).trans ?_
  constructor
  · rintro ⟨text, htext, parent, habove, hrender, habsent⟩
    have hparent := (render_eq_iff ((hprepared.named text htext).of_above habove)).1 hrender
    exact ⟨text, htext, hparent ▸ habove, habsent⟩
  · rintro ⟨text, htext, habove, habsent⟩
    exact ⟨text, htext, _, habove, render_components path, habsent⟩

theorem erofs_prepared [Inode E] {payload : Text → Except Error FileDigest} {before : Inventory E}
    {additions : Additions} {dirs : ExtTreeSet Path compare}
    (h : erofsPrepare payload before.entries additions = .ok dirs) :
    Prepared before additions ∧ ∀ path, path ∈ dirs ↔ Missing before additions path := by
  obtain ⟨_, -, hchecked⟩ := bind_eq_ok.1 h
  obtain ⟨hgood, hdirs⟩ := checkAdditions_ok _ hchecked
  have hprepared := prepared_of_good hgood
  refine ⟨hprepared, fun path => ?_⟩
  rw [hdirs, or_iff_right ExtTreeSet.not_mem_empty]
  refine (exists_mem_toList (p := fun text => ∃ parent, Above parent (components text) ∧
    components (render parent) = path ∧ path ∉ before.entries)).trans ?_
  constructor
  · rintro ⟨text, htext, parent, habove, rfl, habsent⟩
    have hparent := components_render ((hprepared.named text htext).of_above habove)
    rw [hparent] at habsent
    exact ⟨text, htext, hparent.symm ▸ habove, hparent.symm ▸ habsent⟩
  · rintro ⟨text, htext, habove, habsent⟩
    exact ⟨text, htext, path, habove,
      components_render ((hprepared.named text htext).of_above habove), habsent⟩

/-! ## The checks after writing -/

/-- A loop of checks, each of which may fail. -/
def checkEach (check : α → Except Error Unit) : List α → Except Error Unit
  | [] => .ok ()
  | first :: rest => do
    check first
    checkEach check rest

theorem checkEach_eq_ok {check : α → Except Error Unit} {list : List α} {u : Unit} :
    checkEach check list = .ok u ↔ ∀ a ∈ list, check a = .ok () := by
  induction list with
  | nil => simp [checkEach]
  | cons first rest ih =>
    rw [checkEach, bind_eq_ok, List.forall_mem_cons, ih]
    exact ⟨fun ⟨_, hfirst, hrest⟩ => ⟨hfirst, hrest⟩, fun ⟨hfirst, hrest⟩ => ⟨(), hfirst, hrest⟩⟩

namespace Ext4

def EPOCH : Nat := 1230768000

structure Entry where
  mode : Nat
  uid : Nat
  gid : Nat
  mtime : Text
  xattrs : Text
  content : Option FileDigest
  link : Option Text
deriving DecidableEq, Repr

instance : Inode Entry := ⟨Entry.mode⟩

def SELINUX : Text :=
  ['s', 'e', 'c', 'u', 'r', 'i', 't', 'y', '.', 's', 'e', 'l', 'i', 'n', 'u', 'x']

def LABEL : Text :=
  ['u', ':', 'o', 'b', 'j', 'e', 'c', 't', '_', 'r', ':', 's', 'y', 's', 't', 'e', 'm', '_',
    'f', 'i', 'l', 'e', ':', 's', '0']

/-- `format!("0x{EPOCH:08x}:00000000")` -/
def epochTime : Text := ['0', 'x'] ++ Nat.toDigits 16 EPOCH ++ ':' :: List.replicate 8 '0'

/-- One line of the script for `debugfs`. -/
inductive Request
  | mkdir (path : Text)
  | write (source path : Text)
  | setInodeField (path : Text) (field : String) (value : Text)
  | eaSet (source path : Text)
deriving DecidableEq, Repr

inductive Command
  | copy
  | check
  | setLength (size : Nat)
  | resize (minimum : Bool)
  | tempDirectory
  | writeLabel (content : Text)
  | writeScript (requests : List Request)
  | debugfs
deriving DecidableEq, Repr

structure World (I : Type) where
  source : I
  destination : Option I

/-- What lies outside: reading images and payload, and commands that do anything. -/
structure Tools (I : Type) where
  isExt4 : I → Except Error Bool
  createParent : Except Error Unit
  digest : I → Except Error FileDigest
  inventory : I → Except Error (Inventory Entry)
  payload : Text → Except Error FileDigest
  run : Command → World I → Except Error (World I)
  /-- The path of the temporary directory. -/
  work : Text

section

variable {I : Type} (tools : Tools I)

abbrev Method (I : Type) := EStateM Error (World I)

def run (command : Command) : Method I Unit := do
  let world ← get
  let world ← mapErr id (tools.run command world)
  set world

def quote (path : Text) : Except Error Text :=
  if path.any fun c => c.toNat < 32 || c = '"' || c = '\\' then
    .error (.other "unsupported debugfs path spelling")
  else .ok ('"' :: (path ++ ['"']))

def join (base path : Text) : Text := base ++ '/' :: path

/-- The new entries with their modes; an addition takes the place of a directory of its name. -/
def newPaths (dirs : ExtTreeSet Text compare) (additions : Additions) :
    ExtTreeMap Text Nat compare :=
  let directories := dirs.toList.foldl (fun map path => map.insert path 0o040755) ∅
  additions.keys.foldl (fun map path => map.insert path 0o100644) directories

def hex (n : Nat) : Text := ['0', 'x'] ++ Nat.toDigits 16 n

def inodeFields (mode : Nat) : List (String × Text) :=
  [("uid", ['0']), ("gid", ['0']), ("mode", '0' :: Nat.toDigits 8 mode), ("atime", hex EPOCH),
    ("mtime", hex EPOCH), ("ctime", hex EPOCH), ("crtime", hex EPOCH), ("atime_extra", ['0']),
    ("mtime_extra", ['0']), ("ctime_extra", ['0']), ("crtime_extra", ['0'])]

/-- `str::split_once(':')` -/
def splitOnce (text : Text) : Option (Text × Text) :=
  match text.span (· ≠ ':') with
  | (front, _ :: back) => some (front, back)
  | _ => none

def writeRequests (tree : Text) : List Text → Except Error (List Request)
  | [] => .ok []
  | path :: rest => do
    let source ← quote (join tree path)
    let more ← writeRequests tree rest
    return .write source ('/' :: path) :: more

def metadataRequests (label : Text) : List (Text × Nat) → Except Error (List Request)
  | [] => .ok []
  | (path, mode) :: rest => do
    let source ← quote label
    let more ← metadataRequests label rest
    let fields := (inodeFields mode).map fun field =>
      Request.setInodeField ('/' :: path) field.1 field.2
    return fields ++ .eaSet source ('/' :: path) :: more

/-- Directory updates must not change the base's times. -/
def timeRequests : List (Text × Entry) → Except Error (List Request)
  | [] => .ok []
  | (path, entry) :: rest =>
    if isDir entry then do
      let time ← okOr (splitOnce entry.mtime) (.other "unsupported ext4 timestamp")
      let more ← timeRequests rest
      return .setInodeField ('/' :: path) "mtime" time.1 ::
        .setInodeField ('/' :: path) "mtime_extra" (['0', 'x'] ++ time.2) :: more
    else timeRequests rest

def script (tree label : Text) (before : ExtTreeMap Text Entry compare)
    (dirs : ExtTreeSet Text compare) (additions : Additions) : Except Error (List Request) := do
  let writes ← writeRequests tree additions.keys
  let metadata ← metadataRequests label (newPaths dirs additions).toList
  let times ← timeRequests before.toList
  return dirs.toList.map (fun path => .mkdir ('/' :: path)) ++ writes ++ metadata ++ times

def checkKept (after : ExtTreeMap Text Entry compare) (base : Text × Entry) : Except Error Unit :=
  rejectIf (after[base.1]? ≠ some base.2) (.other "base file content or metadata changed")

def checkNew (additions : Additions) (after : ExtTreeMap Text Entry compare)
    (new : Text × Nat) : Except Error Unit := do
  let entry ← okOr after[new.1]? (.other "missing added inode")
  rejectIf (entry.mode ≠ new.2 ∨ entry.uid ≠ 0 ∨ entry.gid ≠ 0 ∨ entry.mtime ≠ epochTime ∨
    ¬ SELINUX <:+: entry.xattrs ∨ ¬ LABEL <:+: entry.xattrs ∨ entry.content ≠ additions[new.1]?)
    (.other "wrong content or metadata for added inode")

/-- The comparison of the result with the base. -/
def verify (before after : ExtTreeMap Text Entry compare) (new : ExtTreeMap Text Nat compare)
    (additions : Additions) : Except Error Unit := do
  checkEach (checkKept after) before.toList
  rejectIf (after.size ≠ before.size + new.size)
    (.other "derived image has unexpected extra or missing entries")
  checkEach (checkNew additions after) new.toList

def derive (tree : Text) (additions : Additions) : Method I Unit := do
  let world ← get
  let ext4 ← mapErr id (tools.isExt4 world.source)
  rejectIf (ext4 = false) (.other "expected a raw ext4 input image")
  rejectIf (world.destination.isSome) (.other "output already exists")
  mapErr id tools.createParent
  let sourceDigest ← mapErr id (tools.digest world.source)
  let before ← mapErr id (tools.inventory world.source)
  let dirs ← mapErr id (ext4Prepare tools.payload before.texts additions)
  run tools .copy
  run tools .check
  let extra := (additions.toList.map (·.2.size)).sum
  run tools (.setLength ((sourceDigest.size + extra + 64 * 1024 * 1024 + 4095) / 4096 * 4096))
  run tools (.resize false)
  run tools .tempDirectory
  run tools (.writeLabel (LABEL ++ ['\x00']))
  let label := join tools.work ['s', 'e', 'l', 'i', 'n', 'u', 'x']
  let requests ← mapErr id (script tree label before.texts dirs additions)
  run tools (.writeScript requests)
  run tools .debugfs
  run tools .check
  run tools (.resize true)
  run tools .check
  let world ← get
  let image ← okOr world.destination (.other "no output")
  let after ← mapErr id (tools.inventory image)
  mapErr id (verify before.texts after.texts (newPaths dirs additions) additions)
  let digest ← mapErr id (tools.digest world.source)
  rejectIf (digest ≠ sourceDigest) (.other "base image changed during derivation")

end

/-- A new file as the code checks it: root's, with its digest and its label. -/
def IsFile (digest : FileDigest) (entry : Entry) : Prop :=
  entry.mode = 0o100644 ∧ entry.uid = 0 ∧ entry.gid = 0 ∧ entry.mtime = epochTime ∧
    SELINUX <:+: entry.xattrs ∧ LABEL <:+: entry.xattrs ∧ entry.content = some digest

def IsDirectory (entry : Entry) : Prop :=
  entry.mode = 0o040755 ∧ entry.uid = 0 ∧ entry.gid = 0 ∧ entry.mtime = epochTime ∧
    SELINUX <:+: entry.xattrs ∧ LABEL <:+: entry.xattrs ∧ entry.content = none

theorem getElem?_foldl_insert (value : Nat) (paths : List Text) :
    ∀ (map : ExtTreeMap Text Nat compare) (path : Text),
      (paths.foldl (fun map path => map.insert path value) map)[path]? =
        if path ∈ paths then some value else map[path]? := by
  induction paths with
  | nil => simp
  | cons first rest ih =>
    intro map path
    rw [List.foldl_cons, ih, ExtTreeMap.getElem?_insert]
    by_cases hrest : path ∈ rest
    · simp [hrest]
    · by_cases hfirst : first = path
      · simp [hfirst, Std.ReflCmp.compare_self]
      · simp [hrest, hfirst, Ne.symm hfirst]

theorem getElem?_newPaths (dirs : ExtTreeSet Text compare) (additions : Additions) (path : Text) :
    (newPaths dirs additions)[path]? =
      if path ∈ additions then some 0o100644 else if path ∈ dirs then some 0o040755 else none := by
  unfold newPaths
  rw [getElem?_foldl_insert, getElem?_foldl_insert]
  simp

theorem mem_newPaths {dirs : ExtTreeSet Text compare} {additions : Additions} {path : Text} :
    path ∈ newPaths dirs additions ↔ path ∈ additions ∨ path ∈ dirs := by
  rw [ExtTreeMap.mem_iff_isSome_getElem?, getElem?_newPaths]
  by_cases hadded : path ∈ additions
  · simp [hadded]
  · by_cases hdir : path ∈ dirs
    · simp [hadded, hdir]
    · simp [hadded, hdir]

theorem verify_kept {before after : ExtTreeMap Text Entry compare}
    {new : ExtTreeMap Text Nat compare} {additions : Additions} {u : Unit}
    (h : verify before after new additions = .ok u) {path : Text} {entry : Entry}
    (hentry : before[path]? = some entry) : after[path]? = some entry := by
  obtain ⟨_, hkept, -⟩ := bind_eq_ok.1 h
  have hcheck := checkEach_eq_ok.1 hkept (path, entry)
    (ExtTreeMap.mem_toList_iff_getElem?_eq_some.2 hentry)
  exact not_not.1 (rejectIf_eq_ok.1 hcheck)

theorem verify_size {before after : ExtTreeMap Text Entry compare}
    {new : ExtTreeMap Text Nat compare} {additions : Additions} {u : Unit}
    (h : verify before after new additions = .ok u) : after.size = before.size + new.size := by
  obtain ⟨_, -, h⟩ := bind_eq_ok.1 h
  obtain ⟨_, hsize, -⟩ := bind_eq_ok.1 h
  exact not_not.1 (rejectIf_eq_ok.1 hsize)

theorem verify_new {before after : ExtTreeMap Text Entry compare}
    {new : ExtTreeMap Text Nat compare} {additions : Additions} {u : Unit}
    (h : verify before after new additions = .ok u) {path : Text} {mode : Nat}
    (hmode : new[path]? = some mode) :
    ∃ entry, after[path]? = some entry ∧ entry.mode = mode ∧ entry.uid = 0 ∧ entry.gid = 0 ∧
      entry.mtime = epochTime ∧ SELINUX <:+: entry.xattrs ∧ LABEL <:+: entry.xattrs ∧
      entry.content = additions[path]? := by
  obtain ⟨_, -, h⟩ := bind_eq_ok.1 h
  obtain ⟨_, -, hnew⟩ := bind_eq_ok.1 h
  have hcheck := checkEach_eq_ok.1 hnew (path, mode)
    (ExtTreeMap.mem_toList_iff_getElem?_eq_some.2 hmode)
  obtain ⟨entry, hentry, hchecked⟩ := bind_eq_ok.1 hcheck
  have hchecked := rejectIf_eq_ok.1 hchecked
  simp only [not_or, not_not] at hchecked
  exact ⟨entry, okOr_eq_ok.1 hentry, hchecked⟩

/-- **The checks before and after are enough.** -/
theorem addsExactly_of_verify {payload : Text → Except Error FileDigest}
    {before after : Inventory Entry} {additions : Additions} {dirs : ExtTreeSet Text compare}
    {u : Unit} (hprepare : ext4Prepare payload before.texts additions = .ok dirs)
    (hverify : verify before.texts after.texts (newPaths dirs additions) additions = .ok u) :
    AddsExactly IsFile IsDirectory before after additions := by
  obtain ⟨hprepared, hdirs⟩ := ext4_prepared hprepare
  have hfile : ∀ (text : Text) (digest : FileDigest), additions[text]? = some digest →
      components text ∉ before.entries ∧
        ∃ entry, after.entries[components text]? = some entry ∧ IsFile digest entry := by
    intro text digest hdigest
    have htext : text ∈ additions := mem_of_get hdigest
    have hmode : (newPaths dirs additions)[text]? = some 0o100644 := by
      rw [getElem?_newPaths, if_pos htext]
    obtain ⟨entry, hentry, hmode, huid, hgid, htime, hselinux, hlabel, hcontent⟩ :=
      verify_new hverify hmode
    rw [after.texts_get] at hentry
    exact ⟨hprepared.absent text htext, entry, hentry, hmode, huid, hgid, htime, hselinux, hlabel,
      hcontent.trans hdigest⟩
  have hkept : ∀ (path : Path) (entry : Entry), before.entries[path]? = some entry →
      after.entries[path]? = some entry := by
    intro path entry hentry
    have hrender := components_render (before.named_of_get hentry)
    rw [← hrender, ← before.texts_get] at hentry
    have hafter := verify_kept hverify hentry
    rwa [after.texts_get, hrender] at hafter
  refine ⟨hkept, hfile, ?_, ?_⟩
  · intro path text htext habove habsent
    have hrender := components_render ((hprepared.named text htext).of_above habove)
    have hdir : render path ∈ dirs := by
      rw [hdirs, hrender]
      exact ⟨text, htext, habove, habsent⟩
    -- there is a file below it, so it is no file itself
    obtain ⟨digest, hdigest⟩ := get_of_mem htext
    obtain ⟨-, below, hbelow, -⟩ := hfile text digest hdigest
    obtain ⟨-, rest, hrest, hsplit⟩ := habove
    obtain ⟨entry, hentry, hisDir⟩ := after.above_isDir path rest hrest (by
      rw [← hsplit]
      exact mem_of_get hbelow)
    have hnot : render path ∉ additions := by
      intro hadded
      obtain ⟨other, hother⟩ := get_of_mem hadded
      obtain ⟨-, file, hfile, hmode, -⟩ := hfile (render path) other hother
      rw [hrender, hentry] at hfile
      cases hfile
      have hregular : ¬ (0o100644 &&& S_IFMT = S_IFDIR) := by decide
      exact hregular (hmode ▸ hisDir)
    have hmode : (newPaths dirs additions)[render path]? = some 0o040755 := by
      rw [getElem?_newPaths, if_neg hnot, if_pos hdir]
    obtain ⟨new, hnew, hmode, huid, hgid, htime, hselinux, hlabel, hcontent⟩ :=
      verify_new hverify hmode
    rw [after.texts_get, hrender] at hnew
    refine ⟨new, hnew, hmode, huid, hgid, htime, hselinux, hlabel, ?_⟩
    rw [hcontent]
    exact ExtTreeMap.getElem?_eq_none hnot
  · have hsize : (newPaths dirs additions).keys.toFinset.card = (newPaths dirs additions).size := by
      rw [List.toFinset_card_of_nodup (nodup_keys _), ExtTreeMap.length_keys]
    have honly : ∀ text ∈ after.texts, text ∈ before.texts ∨
        text ∈ (newPaths dirs additions).keys.toFinset := by
      refine mem_of_size (fun text htext => ?_) (fun text htext => ?_) ?_
      · obtain ⟨entry, hentry⟩ := get_of_mem htext
        exact mem_of_get (verify_kept hverify hentry)
      · rw [List.mem_toFinset, ExtTreeMap.mem_keys] at htext
        obtain ⟨mode, hmode⟩ := get_of_mem htext
        obtain ⟨entry, hentry, -⟩ := verify_new hverify hmode
        refine ⟨mem_of_get hentry, fun hbefore => ?_⟩
        rw [before.mem_texts] at hbefore
        rcases mem_newPaths.1 htext with hadded | hdir
        · exact hprepared.absent text hadded hbefore
        · obtain ⟨_, -, -, habsent⟩ := (hdirs text).1 hdir
          exact habsent hbefore
      · rw [hsize]
        exact verify_size hverify
    intro path hpath
    have hrender := components_render (after.named path hpath)
    rw [← hrender, ← after.mem_texts] at hpath
    rcases honly _ hpath with hbefore | hnew
    · rw [before.mem_texts, hrender] at hbefore
      exact .inl hbefore
    · rw [List.mem_toFinset, ExtTreeMap.mem_keys] at hnew
      rcases mem_newPaths.1 hnew with hadded | hdir
      · exact .inr ⟨render path, hadded, .inl hrender.symm⟩
      · obtain ⟨text, htext, habove, -⟩ := (hdirs _).1 hdir
        rw [hrender] at habove
        exact .inr ⟨text, htext, .inr habove⟩

section

variable {I : Type} {tools : Tools I}

/-- After a command the files are in any state. -/
theorem yields_run_bind {command : Command} {world : World I} {f : Unit → Method I β}
    {R : β → World I → Prop} (h : ∀ world', Yields (f ()) world' R fun _ => True) :
    Yields (run tools command >>= f) world R fun _ => True := by
  refine yields_bind (Q := fun _ _ => True) ?_ fun _ world' _ => h world'
  exact yields_get_bind (yields_mapErr_bind (fun _ _ => trivial) fun _ _ => yields_set trivial)

theorem derive_yields (tools : Tools I) (tree : Text) (additions : Additions) (world : World I) :
    Yields (derive tools tree additions) world (fun _ world' => ∃ before image after,
      tools.inventory world.source = .ok before ∧ world'.destination = some image ∧
      tools.inventory image = .ok after ∧
      AddsExactly IsFile IsDirectory before after additions) fun _ => True := by
  refine yields_get_bind (yields_mapErr_bind (fun _ _ => trivial) fun _ _ => ?_)
  refine yields_rejectIf_bind (fun _ => trivial) fun _ => ?_
  refine yields_rejectIf_bind (fun _ => trivial) fun _ => ?_
  refine yields_mapErr_bind (fun _ _ => trivial) fun _ _ => ?_
  refine yields_mapErr_bind (fun _ _ => trivial) fun sourceDigest _ => ?_
  refine yields_mapErr_bind (fun _ _ => trivial) fun before hbefore => ?_
  refine yields_mapErr_bind (fun _ _ => trivial) fun dirs hprepare => ?_
  -- the commands, with the script between them
  refine yields_run_bind fun _ => yields_run_bind fun _ => yields_run_bind fun _ => ?_
  refine yields_run_bind fun _ => yields_run_bind fun _ => yields_run_bind fun _ => ?_
  refine yields_mapErr_bind (fun _ _ => trivial) fun requests _ => ?_
  refine yields_run_bind fun _ => yields_run_bind fun _ => yields_run_bind fun _ => ?_
  refine yields_run_bind fun _ => yields_run_bind fun final => ?_
  -- the comparison
  refine yields_get_bind (yields_okOr_bind (fun _ => trivial) fun image himage => ?_)
  refine yields_mapErr_bind (fun _ _ => trivial) fun after hafter => ?_
  refine yields_mapErr_bind (fun _ _ => trivial) fun _ hverify => ?_
  refine yields_mapErr_bind (fun _ _ => trivial) fun digest _ => ?_
  refine yields_ite (fun _ => trivial) fun _ => yields_pure ?_
  exact ⟨before, image, after, hbefore, himage, hafter, addsExactly_of_verify hprepare hverify⟩

end

end Ext4

namespace Erofs

def EPOCH : Nat := 1230768000

structure Entry where
  uid : Nat
  gid : Nat
  mode : Nat
  /-- Seconds and nanoseconds. -/
  modified : Int × Int
  content : Option FileDigest
  link : Option Text
  attributes : Text
deriving DecidableEq, Repr

instance : Inode Entry := ⟨Entry.mode⟩

inductive Command
  | createDirectory (path : Path)
  | copyFile (path : Text)
  | chown (path : Path)
  | setPermissions (path : Path) (mode : Nat)
  | setLabel (path : Path)
  | setModified (path : Path) (seconds nanoseconds : Nat)
  | makeImage
deriving DecidableEq, Repr

/-- Images, and the directory trees that they are unpacked to and made from. -/
structure World (I T : Type) where
  source : I
  extracted : Option T
  rebuilt : Option I
  destination : Option I

structure Tools (I T : Type) where
  fakeroot : Bool
  isErofs : I → Except Error Bool
  createParent : Except Error Unit
  tempDirectory : Except Error Unit
  digest : I → Except Error FileDigest
  extract : I → Except Error T
  inventory : T → Except Error (Inventory Entry)
  payload : Text → Except Error FileDigest
  run : Command → World I T → Except Error (World I T)

section

variable {I T : Type} (tools : Tools I T)

abbrev Method (I T : Type) := EStateM Error (World I T)

def run (command : Command) : Method I T Unit := do
  let world ← get
  let world ← mapErr id (tools.run command world)
  set world

def runAll : List Command → Method I T Unit
  | [] => return ()
  | command :: rest => do
    run tools command
    runAll rest

/-- Ownership, mode, label and time of a new entry. -/
def metadata (new : Path × Nat) : List Command :=
  [.chown new.1, .setPermissions new.1 new.2, .setLabel new.1, .setModified new.1 EPOCH 0]

/-- Directory updates must not change the base's times. -/
def restoreTime (path : Path) (entry : Entry) : Method I T Unit :=
  if isDir entry then do
    -- `u64::try_from` and `u32::try_from`
    rejectIf (entry.modified.1 < 0 ∨ entry.modified.2 < 0 ∨ 2 ^ 32 ≤ entry.modified.2)
      (.other "out of range integral type conversion attempted")
    run tools (.setModified path entry.modified.1.toNat entry.modified.2.toNat)
  else return ()

def restoreTimes : List (Path × Entry) → Method I T Unit
  | [] => return ()
  | (path, entry) :: rest => do
    restoreTime tools path entry
    restoreTimes rest

def checkKept (expected : ExtTreeMap Path Entry compare) (base : Path × Entry) :
    Except Error Unit :=
  rejectIf (expected[base.1]? ≠ some base.2) (.other "base metadata changed while adding GApps")

def checkAdded (expected : ExtTreeMap Path Entry compare) (addition : Text × FileDigest) :
    Except Error Unit := do
  let entry ← okOr expected[components addition.1]? (.other "missing addition")
  rejectIf (entry.content ≠ some addition.2 ∨ entry.uid ≠ 0 ∨ entry.gid ≠ 0 ∨
    entry.mode ≠ 0o100644) (.other "wrong added APK content or metadata")

/-- The comparison of the edited tree with the base. -/
def verify (before expected : ExtTreeMap Path Entry compare) (dirs : ExtTreeSet Path compare)
    (additions : Additions) : Except Error Unit := do
  checkEach (checkKept expected) before.toList
  rejectIf (expected.size ≠ before.size + dirs.size + additions.size)
    (.other "unexpected added EROFS entries")
  checkEach (checkAdded expected) additions.toList

def deriveWorker (additions : Additions) : Method I T Unit := do
  rejectIf (tools.fakeroot = false)
    (.other "EROFS worker requires fakeroot to preserve Android metadata")
  let world ← get
  let erofs ← mapErr id (tools.isErofs world.source)
  rejectIf (erofs = false) (.other "expected an EROFS input")
  rejectIf (world.destination.isSome) (.other "output already exists")
  mapErr id tools.createParent
  let sourceDigest ← mapErr id (tools.digest world.source)
  mapErr id tools.tempDirectory
  let extracted ← mapErr id (tools.extract world.source)
  set { world with extracted := some extracted }
  let before ← mapErr id (tools.inventory extracted)
  let dirs ← mapErr id (erofsPrepare tools.payload before.entries additions)
  runAll tools (dirs.toList.map .createDirectory)
  runAll tools (additions.keys.map .copyFile)
  let new := dirs.toList.map (·, 0o755) ++ additions.keys.map (components ·, 0o644)
  runAll tools (new.flatMap metadata)
  restoreTimes tools before.entries.toList
  let world ← get
  let tree ← okOr world.extracted (.other "no tree")
  let expected ← mapErr id (tools.inventory tree)
  mapErr id (verify before.entries expected.entries dirs additions)
  run tools .makeImage
  let world ← get
  let rebuilt ← okOr world.rebuilt (.other "no image")
  let checked ← mapErr id (tools.extract rebuilt)
  let actual ← mapErr id (tools.inventory checked)
  rejectIf (actual.entries ≠ expected.entries)
    (.other "EROFS rebuild changed file contents or metadata")
  let digest ← mapErr id (tools.digest world.source)
  rejectIf (digest ≠ sourceDigest) (.other "base image changed during derivation")
  set { world with rebuilt := none, destination := some rebuilt }

end

/-- A new file as the code checks it: root's, with its digest. -/
def IsFile (digest : FileDigest) (entry : Entry) : Prop :=
  entry.mode = 0o100644 ∧ entry.uid = 0 ∧ entry.gid = 0 ∧ entry.content = some digest

theorem verify_kept {before expected : ExtTreeMap Path Entry compare}
    {dirs : ExtTreeSet Path compare} {additions : Additions} {u : Unit}
    (h : verify before expected dirs additions = .ok u) {path : Path} {entry : Entry}
    (hentry : before[path]? = some entry) : expected[path]? = some entry := by
  obtain ⟨_, hkept, -⟩ := bind_eq_ok.1 h
  have hcheck := checkEach_eq_ok.1 hkept (path, entry)
    (ExtTreeMap.mem_toList_iff_getElem?_eq_some.2 hentry)
  exact not_not.1 (rejectIf_eq_ok.1 hcheck)

theorem verify_size {before expected : ExtTreeMap Path Entry compare}
    {dirs : ExtTreeSet Path compare} {additions : Additions} {u : Unit}
    (h : verify before expected dirs additions = .ok u) :
    expected.size = before.size + dirs.size + additions.size := by
  obtain ⟨_, -, h⟩ := bind_eq_ok.1 h
  obtain ⟨_, hsize, -⟩ := bind_eq_ok.1 h
  exact not_not.1 (rejectIf_eq_ok.1 hsize)

theorem verify_added {before expected : ExtTreeMap Path Entry compare}
    {dirs : ExtTreeSet Path compare} {additions : Additions} {u : Unit}
    (h : verify before expected dirs additions = .ok u) {text : Text} {digest : FileDigest}
    (hdigest : additions[text]? = some digest) :
    ∃ entry, expected[components text]? = some entry ∧ IsFile digest entry := by
  obtain ⟨_, -, h⟩ := bind_eq_ok.1 h
  obtain ⟨_, -, hadded⟩ := bind_eq_ok.1 h
  have hcheck := checkEach_eq_ok.1 hadded (text, digest)
    (ExtTreeMap.mem_toList_iff_getElem?_eq_some.2 hdigest)
  obtain ⟨entry, hentry, hchecked⟩ := bind_eq_ok.1 hcheck
  have hchecked := rejectIf_eq_ok.1 hchecked
  simp only [not_or, not_not] at hchecked
  obtain ⟨hcontent, huid, hgid, hmode⟩ := hchecked
  exact ⟨entry, okOr_eq_ok.1 hentry, hmode, huid, hgid, hcontent⟩

/-- **The checks before and after are enough**, without a look at the new directories. -/
theorem addsExactly_of_verify {payload : Text → Except Error FileDigest}
    {before expected : Inventory Entry} {additions : Additions} {dirs : ExtTreeSet Path compare}
    {u : Unit} (hprepare : erofsPrepare payload before.entries additions = .ok dirs)
    (hverify : verify before.entries expected.entries dirs additions = .ok u) :
    AddsExactly IsFile isDir before expected additions := by
  obtain ⟨hprepared, hdirs⟩ := erofs_prepared hprepare
  have hfile : ∀ text ∈ additions, ∃ entry, expected.entries[components text]? = some entry ∧
      ¬ isDir entry := by
    intro text htext
    obtain ⟨digest, hdigest⟩ := get_of_mem htext
    obtain ⟨entry, hentry, hmode, -⟩ := verify_added hverify hdigest
    refine ⟨entry, hentry, fun hisDir => ?_⟩
    have hregular : ¬ (0o100644 &&& S_IFMT = S_IFDIR) := by decide
    exact hregular (hmode ▸ hisDir)
  -- what lies above an addition is there, for the sake of the file
  have hdirectory : ∀ path text, text ∈ additions → Above path (components text) →
      ∃ entry, expected.entries[path]? = some entry ∧ isDir entry := by
    rintro path text htext ⟨-, rest, hrest, hsplit⟩
    obtain ⟨file, hfile, -⟩ := hfile text htext
    exact expected.above_isDir path rest hrest (hsplit ▸ mem_of_get hfile)
  have hkept : ∀ (path : Path) (entry : Entry), before.entries[path]? = some entry →
      expected.entries[path]? = some entry := fun _ _ hentry => verify_kept hverify hentry
  refine ⟨hkept, fun text digest hdigest => ?_, fun path text htext habove _ => ?_, ?_⟩
  · exact ⟨hprepared.absent text (mem_of_get hdigest), verify_added hverify hdigest⟩
  · exact hdirectory path text htext habove
  have hmem : ∀ path, path ∈ dirs.toList.toFinset ↔ Missing before additions path := fun path => by
    rw [List.mem_toFinset, ExtTreeSet.mem_toList, hdirs]
  have hfiles : ∀ path, path ∈ (additions.keys.map components).toFinset ↔
      ∃ text ∈ additions, components text = path := fun path => by
    simp
  -- a directory is no addition: one has a file below it, the other is a file
  have hdisjoint : Disjoint dirs.toList.toFinset (additions.keys.map components).toFinset := by
    rw [Finset.disjoint_left]
    intro path hdir hadded
    obtain ⟨text, htext, habove, -⟩ := (hmem path).1 hdir
    obtain ⟨entry, hentry, hisDir⟩ := hdirectory path text htext habove
    obtain ⟨other, hother, rfl⟩ := (hfiles path).1 hadded
    obtain ⟨file, hfile, hregular⟩ := hfile other hother
    rw [hentry] at hfile
    cases hfile
    exact hregular hisDir
  have hcard : (dirs.toList.toFinset ∪ (additions.keys.map components).toFinset).card =
      dirs.size + additions.size := by
    have hdirsNodup : dirs.toList.Nodup := by
      simpa [List.Nodup] using ExtTreeSet.distinct_toList (t := dirs)
    rw [Finset.card_union_of_disjoint hdisjoint, List.toFinset_card_of_nodup hdirsNodup,
      List.toFinset_card_of_nodup ((nodup_keys additions).map components_injective),
      ExtTreeSet.length_toList, List.length_map, ExtTreeMap.length_keys]
  have honly : ∀ path ∈ expected.entries, path ∈ before.entries ∨
      path ∈ dirs.toList.toFinset ∪ (additions.keys.map components).toFinset := by
    refine mem_of_size (fun path hpath => ?_) (fun path hpath => ?_) ?_
    · obtain ⟨entry, hentry⟩ := get_of_mem hpath
      exact mem_of_get (hkept path entry hentry)
    · rcases Finset.mem_union.1 hpath with hdir | hadded
      · obtain ⟨text, htext, habove, habsent⟩ := (hmem path).1 hdir
        obtain ⟨entry, hentry, -⟩ := hdirectory path text htext habove
        exact ⟨mem_of_get hentry, habsent⟩
      · obtain ⟨text, htext, rfl⟩ := (hfiles path).1 hadded
        obtain ⟨entry, hentry, -⟩ := hfile text htext
        exact ⟨mem_of_get hentry, hprepared.absent text htext⟩
    · rw [hcard, verify_size hverify, Nat.add_assoc]
  intro path hpath
  rcases honly path hpath with hbefore | hnew
  · exact .inl hbefore
  · rcases Finset.mem_union.1 hnew with hdir | hadded
    · obtain ⟨text, htext, habove, -⟩ := (hmem path).1 hdir
      exact .inr ⟨text, htext, .inr habove⟩
    · obtain ⟨text, htext, hpath⟩ := (hfiles path).1 hadded
      exact .inr ⟨text, htext, .inl hpath.symm⟩

section

variable {I T : Type} {tools : Tools I T} {R : β → World I T → Prop} {f : Unit → Method I T β}

/-- After a command the files are in any state. -/
theorem yields_run (command : Command) (world : World I T) :
    Yields (run tools command) world (fun _ _ => True) fun _ => True :=
  yields_get_bind (yields_mapErr_bind (fun _ _ => trivial) fun _ _ => yields_set trivial)

theorem yields_run_bind {command : Command} {world : World I T}
    (h : ∀ world', Yields (f ()) world' R fun _ => True) :
    Yields (run tools command >>= f) world R fun _ => True :=
  yields_bind (yields_run command world) fun _ world' _ => h world'

theorem yields_runAll (commands : List Command) : ∀ world : World I T,
    Yields (runAll tools commands) world (fun _ _ => True) fun _ => True := by
  induction commands with
  | nil => exact fun _ => yields_pure trivial
  | cons command rest ih => exact fun _ => yields_run_bind fun world' => ih world'

theorem yields_runAll_bind {commands : List Command} {world : World I T}
    (h : ∀ world', Yields (f ()) world' R fun _ => True) :
    Yields (runAll tools commands >>= f) world R fun _ => True :=
  yields_bind (yields_runAll commands world) fun _ world' _ => h world'

theorem yields_restoreTimes (entries : List (Path × Entry)) : ∀ world : World I T,
    Yields (restoreTimes tools entries) world (fun _ _ => True) fun _ => True := by
  induction entries with
  | nil => exact fun _ => yields_pure trivial
  | cons first rest ih =>
    intro world
    refine yields_bind (Q := fun _ _ => True) ?_ fun _ world' _ => ih world'
    refine yields_ite (fun _ => ?_) fun _ => yields_pure trivial
    refine yields_rejectIf_bind (fun _ => trivial) fun _ => ?_
    exact yields_run _ world

theorem yields_restoreTimes_bind {entries : List (Path × Entry)} {world : World I T}
    (h : ∀ world', Yields (f ()) world' R fun _ => True) :
    Yields (restoreTimes tools entries >>= f) world R fun _ => True :=
  yields_bind (yields_restoreTimes entries world) fun _ world' _ => h world'

theorem deriveWorker_yields (tools : Tools I T) (additions : Additions) (world : World I T) :
    Yields (deriveWorker tools additions) world (fun _ world' => ∃ before image after,
      (tools.extract world.source >>= tools.inventory) = .ok before ∧
      world'.destination = some image ∧ (tools.extract image >>= tools.inventory) = .ok after ∧
      AddsExactly IsFile isDir before after additions) fun _ => True := by
  refine yields_rejectIf_bind (fun _ => trivial) fun _ => yields_get_bind ?_
  refine yields_mapErr_bind (fun _ _ => trivial) fun _ _ => ?_
  refine yields_rejectIf_bind (fun _ => trivial) fun _ => ?_
  refine yields_rejectIf_bind (fun _ => trivial) fun _ => ?_
  refine yields_mapErr_bind (fun _ _ => trivial) fun _ _ => ?_
  refine yields_mapErr_bind (fun _ _ => trivial) fun sourceDigest _ => ?_
  refine yields_mapErr_bind (fun _ _ => trivial) fun _ _ => ?_
  refine yields_mapErr_bind (fun _ _ => trivial) fun extracted hextracted => yields_set_bind ?_
  refine yields_mapErr_bind (fun _ _ => trivial) fun before hbefore => ?_
  refine yields_mapErr_bind (fun _ _ => trivial) fun dirs hprepare => ?_
  refine yields_runAll_bind fun _ => yields_runAll_bind fun _ => yields_runAll_bind fun _ => ?_
  refine yields_restoreTimes_bind fun edited => yields_get_bind ?_
  refine yields_okOr_bind (fun _ => trivial) fun tree _ => ?_
  refine yields_mapErr_bind (fun _ _ => trivial) fun expected _ => ?_
  refine yields_mapErr_bind (fun _ _ => trivial) fun _ hverify => ?_
  refine yields_run_bind fun final => yields_get_bind ?_
  refine yields_okOr_bind (fun _ => trivial) fun rebuilt _ => ?_
  refine yields_mapErr_bind (fun _ _ => trivial) fun checked hchecked => ?_
  refine yields_mapErr_bind (fun _ _ => trivial) fun actual hactual => ?_
  refine yields_rejectIf_bind (fun _ => trivial) fun hsame => ?_
  refine yields_mapErr_bind (fun _ _ => trivial) fun digest _ => ?_
  refine yields_rejectIf_bind (fun _ => trivial) fun _ => yields_set ?_
  have hactual' : actual = expected := by
    cases actual
    cases expected
    cases not_not.1 hsame
    rfl
  refine ⟨before, rebuilt, actual, ?_, rfl, ?_, hactual' ▸ addsExactly_of_verify hprepare hverify⟩
  · rw [hextracted]
    exact hbefore
  · rw [hchecked]
    exact hactual

end

end Erofs

/-- **A derived image adds exactly the payload.**  Whatever the external commands do to the files:
    if the ext4 derivation succeeds, the result has the base's entries unchanged, a file of root's
    with its digest and label for each addition, a directory of root's for each path above an
    addition that the base lacks, and nothing else; and so has the result of the EROFS worker, but
    for the labels of its new entries and the metadata of its new directories. -/
theorem derived_adds_exactly {I T : Type} :
    (∀ (tools : Ext4.Tools I) (tree : Text) (additions : Additions) (world world' : Ext4.World I),
      Ext4.derive tools tree additions world = .ok () world' →
      ∃ before image after, tools.inventory world.source = .ok before ∧
        world'.destination = some image ∧ tools.inventory image = .ok after ∧
        AddsExactly Ext4.IsFile Ext4.IsDirectory before after additions) ∧
    ∀ (tools : Erofs.Tools I T) (additions : Additions) (world world' : Erofs.World I T),
      Erofs.deriveWorker tools additions world = .ok () world' →
      ∃ before image after, (tools.extract world.source >>= tools.inventory) = .ok before ∧
        world'.destination = some image ∧
        (tools.extract image >>= tools.inventory) = .ok after ∧
        AddsExactly Erofs.IsFile isDir before after additions :=
  ⟨fun tools tree additions world _ h => (Ext4.derive_yields tools tree additions world).of_ok h,
    fun tools additions world _ h => (Erofs.deriveWorker_yields tools additions world).of_ok h⟩

def sampleRoot : Ext4.Entry := ⟨0o040755, 0, 0, ['1', ':', '0'], [], none, none⟩

/-- The root alone, or with one file. -/
def sampleInventory (file : Option Ext4.Entry) : Inventory Ext4.Entry where
  entries :=
    let root := (∅ : ExtTreeMap Path Ext4.Entry compare).insert [] sampleRoot
    match file with
    | none => root
    | some entry => root.insert [['a']] entry
  named := by
    intro path hpath
    cases file <;> simp only [ExtTreeMap.mem_insert, Std.LawfulEqCmp.compare_eq_iff_eq,
      ExtTreeMap.not_mem_empty, or_false] at hpath
    · subst hpath
      simp [Named]
    · rcases hpath with rfl | rfl <;> simp [Named]
  closed := by
    intro path name hpath
    cases file <;> simp only [ExtTreeMap.mem_insert, Std.LawfulEqCmp.compare_eq_iff_eq,
      ExtTreeMap.not_mem_empty, or_false] at hpath
    · simp at hpath
    · rcases hpath with hpath | hpath
      · have hparent := congrArg List.dropLast hpath
        rw [List.dropLast_concat] at hparent
        subst hparent
        refine ⟨sampleRoot, ?_, by decide⟩
        show (((∅ : ExtTreeMap Path Ext4.Entry compare).insert [] sampleRoot).insert
          [['a']] _)[([] : Path)]? = _
        rw [ExtTreeMap.getElem?_insert, if_neg (by decide), ExtTreeMap.getElem?_insert_self]
      · simp at hpath

def sampleDigest : FileDigest := ⟨"00", 1⟩

/-- Images are numbers: 0 is the base, 1 has the file. -/
def sampleTools : Ext4.Tools Nat where
  isExt4 _ := .ok true
  createParent := .ok ()
  digest _ := .ok sampleDigest
  inventory image := .ok (sampleInventory (if image = 0 then none else
    some ⟨0o100644, 0, 0, Ext4.epochTime, Ext4.SELINUX ++ Ext4.LABEL, some sampleDigest, none⟩))
  payload _ := .ok sampleDigest
  run command world := .ok (match command with
    | .copy => { world with destination := some world.source }
    | .debugfs => { world with destination := some 1 }
    | _ => world)
  work := ['w']

/-- A derivation that succeeds: one file at the top. -/
theorem derived_adds_exactly_sample :
    ∃ world' before image after,
      Ext4.derive sampleTools ['t'] ((∅ : Additions).insert ['a'] sampleDigest) ⟨0, none⟩ =
        .ok () world' ∧
      sampleTools.inventory 0 = .ok before ∧ world'.destination = some image ∧
      sampleTools.inventory image = .ok after ∧
      AddsExactly Ext4.IsFile Ext4.IsDirectory before after
        ((∅ : Additions).insert ['a'] sampleDigest) := by
  obtain ⟨world', hworld⟩ : ∃ world', Ext4.derive sampleTools ['t']
      ((∅ : Additions).insert ['a'] sampleDigest) ⟨0, none⟩ = .ok () world' := ⟨_, rfl⟩
  obtain ⟨before, image, after, hbefore, himage, hafter, hadds⟩ :=
    (derived_adds_exactly (T := Nat)).1 sampleTools _ _ _ _ hworld
  exact ⟨world', before, image, after, hworld, hbefore, himage, hafter, hadds⟩

end Droidloom.Gapps
