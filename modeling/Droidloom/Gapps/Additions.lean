/-
  What may be added to a base image (`droidloom-gapps`, `ext4.rs` and `erofs.rs`).

  Both image formats take an inventory of the base, check every addition against it and collect the
  directories that are missing, and refuse a base that has the core applications already.  The ext4
  code keeps paths as TEXTS, the EROFS code as component lists; the checks of additions are one
  definition with the format's `key` of a path as a parameter.

  The two refusals of core applications differ.  A component is any name of a path; the ext4 code
  looks for the name between two slashes, and so only at names that are neither first nor last.
-/
import Droidloom.Lib.Fallible
import Droidloom.Lib.RelativePath

namespace Droidloom.Gapps

open Fallible RelativePath
open Std (ExtTreeMap ExtTreeSet)

/-! ## Inventories -/

instance : Std.TransOrd Path := inferInstance

/-- An inode, as far as both formats' checks read it. -/
class Inode (E : Type) where
  mode : E → Nat

def S_IFMT : Nat := 0o170000
def S_IFDIR : Nat := 0o040000

def isDir [Inode E] (entry : E) : Prop := Inode.mode entry &&& S_IFMT = S_IFDIR

instance [Inode E] (entry : E) : Decidable (isDir entry) := inferInstanceAs (Decidable (_ = _))

/-- The entries of an image, the root included: each entry's parent is a directory. -/
structure Inventory (E : Type) [Inode E] where
  entries : ExtTreeMap Path E compare
  named : ∀ path ∈ entries, Named path
  closed : ∀ path name, path ++ [name] ∈ entries →
    ∃ parent, entries[path]? = some parent ∧ isDir parent

variable {E : Type} [Inode E]

/-- The inventory with texts for paths. -/
def Inventory.texts (inventory : Inventory E) : ExtTreeMap Text E compare :=
  ExtTreeMap.ofList (inventory.entries.toList.map fun entry => (render entry.1, entry.2)) compare

/-! ## The checks -/

structure FileDigest where
  sha256 : String
  size : Nat
deriving DecidableEq, Repr

inductive Error
  /-- "GApps must not overwrite an existing base file" -/
  | overwrites (path : Text)
  /-- "selected payload changed before assembly" -/
  | payloadChanged
  /-- "GApps path crosses a non-directory base inode" -/
  | crosses (path : Text)
  /-- "base already contains Google core applications" -/
  | coreApplications
  | other (message : String)
deriving DecidableEq, Repr

def allowedChar (c : Char) : Bool := c.isAlphanum || ['.', '_', '-', '/', '+', '@'].contains c

def normalRelative (path : Text) : Bool :=
  path ≠ [] && path.length ≤ 1024 && path.head? ≠ some '/' && path.all allowedChar &&
    (path.splitOn '/').all fun part => part ≠ [] && part ≠ ['.'] && part ≠ ['.', '.']

section

variable {K : Type} [Ord K] [Std.TransOrd K]
variable (key : Text → K) (payload : Text → Except Error FileDigest)
  (before : ExtTreeMap K E compare)

/-- The loop over the parents of a path that is given innermost name first. -/
def visitParents : List Text → ExtTreeSet K compare → Except Error (ExtTreeSet K compare)
  | _ :: parent :: rest, dirs =>
    let name := render (parent :: rest).reverse
    match before[key name]? with
    | some entry =>
      if ¬ isDir entry then .error (.crosses name) else visitParents (parent :: rest) dirs
    | none => visitParents (parent :: rest) (dirs.insert (key name))
  | _, dirs => .ok dirs

def checkAddition (path : Text) (digest : FileDigest) (dirs : ExtTreeSet K compare) :
    Except Error (ExtTreeSet K compare) := do
  rejectIf (normalRelative path = false ∨ key path ∈ before) (.overwrites path)
  let read ← payload path
  rejectIf (read ≠ digest) .payloadChanged
  visitParents key before (components path).reverse dirs

/-- The loop over the additions: the directories to make. -/
def checkAdditions :
    List (Text × FileDigest) → ExtTreeSet K compare → Except Error (ExtTreeSet K compare)
  | [], dirs => .ok dirs
  | (path, digest) :: rest, dirs => do
    let dirs ← checkAddition key payload before path digest dirs
    checkAdditions rest dirs

end

def CORE : List Text :=
  [['G', 'm', 's', 'C', 'o', 'r', 'e'],
    ['P', 'h', 'o', 'n', 'e', 's', 'k', 'y'],
    ['G', 'o', 'o', 'g', 'l', 'e', 'S', 'e', 'r', 'v', 'i', 'c', 'e', 's',
      'F', 'r', 'a', 'm', 'e', 'w', 'o', 'r', 'k']]

abbrev Additions := ExtTreeMap Text FileDigest compare

/-- The checks of `ext4::derive` before it writes. -/
def ext4Prepare (payload : Text → Except Error FileDigest) (before : ExtTreeMap Text E compare)
    (additions : Additions) : Except Error (ExtTreeSet Text compare) := do
  let dirs ← checkAdditions id payload before additions.toList ∅
  rejectIf (∃ path ∈ before.keys, ∃ name ∈ CORE, '/' :: (name ++ ['/']) <:+: path)
    .coreApplications
  return dirs

/-- The checks of `erofs::derive_worker` before it writes. -/
def erofsPrepare (payload : Text → Except Error FileDigest) (before : ExtTreeMap Path E compare)
    (additions : Additions) : Except Error (ExtTreeSet Path compare) := do
  rejectIf (∃ path ∈ before.keys, ∃ component ∈ path, component ∈ CORE) .coreApplications
  checkAdditions components payload before additions.toList ∅

/-! ## One inventory, two keys -/

section

variable {K V : Type} [Ord K] [Std.TransOrd K] {map : ExtTreeMap K V compare} {key : K}

theorem mem_of_get {value : V} (h : map[key]? = some value) : key ∈ map :=
  ExtTreeMap.mem_iff_isSome_getElem?.2 (by rw [h]; rfl)

theorem get_of_mem (h : key ∈ map) : ∃ value, map[key]? = some value :=
  Option.isSome_iff_exists.1 (ExtTreeMap.mem_iff_isSome_getElem?.1 h)

end

theorem Inventory.named_of_get (inventory : Inventory E) {path : Path} {entry : E}
    (h : inventory.entries[path]? = some entry) : Named path :=
  inventory.named path (mem_of_get h)

theorem Inventory.texts_distinct (inventory : Inventory E) :
    (inventory.entries.toList.map fun entry => (render entry.1, entry.2)).Pairwise
      fun a b => ¬ compare a.1 b.1 = .eq := by
  rw [List.pairwise_map]
  refine (ExtTreeMap.distinct_keys_toList (t := inventory.entries)).imp_of_mem ?_
  intro a b ha hb hdistinct hsame
  have hnamed : ∀ entry ∈ inventory.entries.toList, Named entry.1 := fun entry hentry =>
    inventory.named_of_get (ExtTreeMap.mem_toList_iff_getElem?_eq_some.1 hentry)
  have hrender : render a.1 = render b.1 := Std.LawfulEqCmp.eq_of_compare hsame
  have hpath : a.1 = b.1 := by
    rw [← components_render (hnamed a ha), hrender, components_render (hnamed b hb)]
  exact hdistinct (hpath ▸ Std.ReflCmp.compare_self)

/-- **The text view and the component view agree.** -/
theorem Inventory.texts_get (inventory : Inventory E) (text : Text) :
    inventory.texts[text]? = inventory.entries[components text]? := by
  cases hentry : inventory.entries[components text]? with
  | some entry =>
    refine ExtTreeMap.getElem?_ofList_of_mem Std.ReflCmp.compare_self inventory.texts_distinct ?_
    refine List.mem_map.2 ⟨(components text, entry), ?_, ?_⟩
    · exact ExtTreeMap.mem_toList_iff_getElem?_eq_some.2 hentry
    · rw [render_components]
  | none =>
    refine ExtTreeMap.getElem?_ofList_of_contains_eq_false ?_
    rw [Bool.eq_false_iff]
    intro hcontains
    obtain ⟨other, hother, hsame⟩ := List.mem_map.1 (List.contains_iff_mem.1 hcontains)
    obtain ⟨⟨path, entry⟩, hmem, rfl⟩ := List.mem_map.1 hother
    have hpath := ExtTreeMap.mem_toList_iff_getElem?_eq_some.1 hmem
    have hnamed := inventory.named_of_get hpath
    rw [← (render_eq_iff hnamed).1 hsame, hpath] at hentry
    cases hentry

theorem Inventory.mem_texts (inventory : Inventory E) {text : Text} :
    text ∈ inventory.texts ↔ components text ∈ inventory.entries := by
  rw [ExtTreeMap.mem_iff_isSome_getElem?, ExtTreeMap.mem_iff_isSome_getElem?, inventory.texts_get]

/-! ## What is refused -/

def Refused (outcome : Except Error α) : Prop := ∃ e, outcome = .error e

/-- A sequence is refused if what follows is, whenever it is reached. -/
theorem refused_bind {x : Except Error α} {f : α → Except Error β} :
    Refused (x >>= f) ↔ ∀ a, x = .ok a → Refused (f a) := by
  cases x with
  | error e => simp [Refused, bind, Except.bind]
  | ok a => simp [Refused, bind, Except.bind]

section

variable {K : Type} [Ord K] [Std.TransOrd K]
variable {key : Text → K} {payload : Text → Except Error FileDigest}
  {before : ExtTreeMap K E compare}

/-- A parent that the base has is no directory. -/
def Crosses (key : Text → K) (before : ExtTreeMap K E compare) (path : Path) : Prop :=
  ∃ parent, Above parent path ∧ ∃ entry, before[key (render parent)]? = some entry ∧ ¬ isDir entry

theorem visitParents_refused_iff {reversed : List Text} : ∀ {dirs : ExtTreeSet K compare},
    Refused (visitParents key before reversed dirs) ↔ Crosses key before reversed.reverse := by
  have hancestors : Crosses key before reversed.reverse ↔ ∃ parent ∈ ancestors reversed,
      ∃ entry, before[key (render parent)]? = some entry ∧ ¬ isDir entry := by
    simp only [Crosses, mem_ancestors]
  rw [hancestors]
  clear hancestors
  fun_induction ancestors reversed with
  | case1 name parent rest ih =>
    intro dirs
    rw [List.exists_mem_cons_iff, visitParents]
    cases hentry : before[key (render (parent :: rest).reverse)]? with
    | none =>
      dsimp only
      rw [ih]
      simp
    | some entry =>
      by_cases hdir : isDir entry
      · simp [hdir, ih]
      · simp [hdir, Refused]
  | case2 reversed hshort =>
    intro dirs
    match reversed, hshort with
    | [], _ => simp [visitParents, Refused]
    | [name], _ => simp [visitParents, Refused]
    | name :: parent :: rest, hshort => exact absurd rfl (hshort name parent rest)

/-- What both formats refuse of an addition. -/
def Bad (key : Text → K) (payload : Text → Except Error FileDigest)
    (before : ExtTreeMap K E compare) (path : Text) (digest : FileDigest) : Prop :=
  normalRelative path = false ∨ key path ∈ before ∨ payload path ≠ .ok digest ∨
    Crosses key before (components path)

theorem checkAddition_refused_iff {path : Text} {digest : FileDigest}
    (dirs : ExtTreeSet K compare) :
    Refused (checkAddition key payload before path digest dirs) ↔
      Bad key payload before path digest := by
  unfold checkAddition Bad
  simp only [refused_bind, rejectIf_eq_ok, visitParents_refused_iff, List.reverse_reverse]
  constructor
  · intro h
    by_cases hnew : normalRelative path = false ∨ key path ∈ before
    · exact hnew.imp_right .inl
    · by_cases hread : payload path = .ok digest
      · exact .inr (.inr (.inr (h () hnew digest hread () (not_not.2 rfl))))
      · exact .inr (.inr (.inl hread))
  · rintro hbad _ hnew read hread _ hsame
    rcases hbad with hnormal | hpresent | hpayload | hcrosses
    · exact absurd (.inl hnormal) hnew
    · exact absurd (.inr hpresent) hnew
    · rw [not_not.1 hsame] at hread
      exact absurd hread hpayload
    · exact hcrosses

theorem checkAdditions_refused_iff (additions : List (Text × FileDigest)) :
    ∀ dirs : ExtTreeSet K compare, Refused (checkAdditions key payload before additions dirs) ↔
      ∃ addition ∈ additions, Bad key payload before addition.1 addition.2 := by
  induction additions with
  | nil => simp [checkAdditions, Refused]
  | cons first rest ih =>
    intro dirs
    rw [checkAdditions, refused_bind, List.exists_mem_cons_iff,
      ← checkAddition_refused_iff dirs]
    simp only [ih]
    cases hfirst : checkAddition key payload before first.1 first.2 dirs with
    | error e => simp [Refused]
    | ok dirs' => simp [Refused]

end

/-- **Both formats refuse the same additions.** -/
theorem bad_texts_iff (base : Inventory E) {payload : Text → Except Error FileDigest} {path : Text}
    {digest : FileDigest} :
    Bad id payload base.texts path digest ↔ Bad components payload base.entries path digest := by
  have hcrosses : Crosses id base.texts (components path) ↔
      Crosses components base.entries (components path) := by
    unfold Crosses
    simp only [id_eq, base.texts_get]
  unfold Bad
  rw [hcrosses, id_eq, base.mem_texts]

/-! ## Core applications -/

/-- A name of the core applications, anywhere in a path. -/
def HasCore (base : Inventory E) : Prop :=
  ∃ path ∈ base.entries, ∃ name ∈ path, name ∈ CORE

/-- One with names before it and behind it. -/
def HasCoreInside (base : Inventory E) : Prop :=
  ∃ path ∈ base.entries, ∃ front name back, front ≠ [] ∧ back ≠ [] ∧ name ∈ CORE ∧
    path = front ++ name :: back

theorem HasCoreInside.hasCore {base : Inventory E} (h : HasCoreInside base) : HasCore base := by
  obtain ⟨path, hpath, front, name, back, -, -, hcore, rfl⟩ := h
  exact ⟨_, hpath, name, by simp, hcore⟩

theorem slash_not_mem_core {name : Text} (h : name ∈ CORE) : '/' ∉ name := by
  revert name
  decide

/-- The ext4 search for a name between slashes. -/
theorem core_texts_iff (base : Inventory E) :
    (∃ path ∈ base.texts.keys, ∃ name ∈ CORE, '/' :: (name ++ ['/']) <:+: path) ↔
      HasCoreInside base := by
  constructor
  · rintro ⟨text, htext, name, hcore, hinfix⟩
    have hpath := base.mem_texts.1 (ExtTreeMap.mem_keys.1 htext)
    rw [← render_components text] at hinfix
    obtain ⟨front, back, hfront, hback, hsplit⟩ :=
      (slashed_infix_iff (base.named _ hpath) (slash_not_mem_core hcore)).1 hinfix
    exact ⟨_, hpath, front, name, back, hfront, hback, hcore, hsplit⟩
  · rintro ⟨path, hpath, front, name, back, hfront, hback, hcore, hsplit⟩
    have hnamed := base.named path hpath
    refine ⟨render path, ?_, name, hcore, ?_⟩
    · rw [ExtTreeMap.mem_keys, base.mem_texts, components_render hnamed]
      exact hpath
    · exact (slashed_infix_iff hnamed (slash_not_mem_core hcore)).2
        ⟨front, back, hfront, hback, hsplit⟩

/-- An addition that neither format accepts. -/
def HasBad (payload : Text → Except Error FileDigest) (base : Inventory E)
    (additions : Additions) : Prop :=
  ∃ addition ∈ additions.toList, Bad components payload base.entries addition.1 addition.2

section

variable (payload : Text → Except Error FileDigest) (base : Inventory E) (additions : Additions)

theorem ext4_refused_iff :
    Refused (ext4Prepare payload base.texts additions) ↔
      HasBad payload base additions ∨ HasCoreInside base := by
  unfold ext4Prepare
  rw [← core_texts_iff, HasBad]
  simp only [← bad_texts_iff, ← checkAdditions_refused_iff _ (∅ : ExtTreeSet Text compare)]
  cases hchecked : checkAdditions id payload base.texts additions.toList ∅ with
  | error e => simp [Refused, bind, Except.bind]
  | ok dirs =>
    simp only [refused_bind, rejectIf_eq_ok]
    simp [Refused]

theorem erofs_refused_iff :
    Refused (erofsPrepare payload base.entries additions) ↔
      HasCore base ∨ HasBad payload base additions := by
  unfold erofsPrepare
  rw [refused_bind]
  simp only [rejectIf_eq_ok, checkAdditions_refused_iff, ExtTreeMap.mem_keys]
  show (∀ _ : Unit, ¬ HasCore base → HasBad payload base additions) ↔ _
  by_cases hcore : HasCore base
  · simp [hcore]
  · simp [hcore]

/-- **Where the two formats refuse alike.**  For every base and all additions: both refuse the same
    cases, and a base with a core application is refused by both, exactly if such a name stands
    between others in some path of the base, or the additions are refused for themselves. -/
theorem formats_refuse_alike_iff :
    ((Refused (ext4Prepare payload base.texts additions) ↔
        Refused (erofsPrepare payload base.entries additions)) ↔
      (HasCore base → HasCoreInside base ∨ HasBad payload base additions)) ∧
    ((HasCore base → Refused (ext4Prepare payload base.texts additions) ∧
        Refused (erofsPrepare payload base.entries additions)) ↔
      (HasCore base → HasCoreInside base ∨ HasBad payload base additions)) := by
  have hinside : HasCoreInside base → HasCore base := HasCoreInside.hasCore
  rw [ext4_refused_iff, erofs_refused_iff]
  constructor
  · tauto
  · tauto

end

/-- An inode of which only the type is known. -/
structure FileType where
  mode : Nat
deriving DecidableEq, Repr

instance : Inode FileType := ⟨FileType.mode⟩

/-- A base with a core application at the top: the root, a directory and a file. -/
def topLevelBase : Inventory FileType where
  entries := (((∅ : ExtTreeMap Path FileType compare).insert [] ⟨0o040755⟩).insert
    [['G', 'm', 's', 'C', 'o', 'r', 'e']] ⟨0o040755⟩).insert
    [['G', 'm', 's', 'C', 'o', 'r', 'e'], ['a', 'p', 'k']] ⟨0o100644⟩
  named := by
    intro path hpath
    simp only [ExtTreeMap.mem_insert, Std.LawfulEqCmp.compare_eq_iff_eq,
      ExtTreeMap.not_mem_empty, or_false] at hpath
    rcases hpath with rfl | rfl | rfl <;> simp [Named]
  closed := by
    intro path name hpath
    simp only [ExtTreeMap.mem_insert, Std.LawfulEqCmp.compare_eq_iff_eq,
      ExtTreeMap.not_mem_empty, or_false] at hpath
    rcases hpath with hpath | hpath | hpath
    · have hparent := congrArg List.dropLast hpath
      rw [List.dropLast_concat] at hparent
      subst hparent
      exact ⟨⟨0o040755⟩, by decide +kernel, by decide⟩
    · have hparent := congrArg List.dropLast hpath
      rw [List.dropLast_concat] at hparent
      subst hparent
      exact ⟨⟨0o040755⟩, by decide +kernel, by decide⟩
    · simp at hpath

/-- **A core application at the top is refused by one format only.** -/
theorem top_level_core_accepted :
    HasCore topLevelBase ∧
      ¬ Refused (ext4Prepare (fun _ => .error .payloadChanged) topLevelBase.texts ∅) ∧
      Refused (erofsPrepare (fun _ => .error .payloadChanged) topLevelBase.entries ∅) := by
  have hcore : HasCore topLevelBase := by
    refine ⟨[['G', 'm', 's', 'C', 'o', 'r', 'e'], ['a', 'p', 'k']], ?_, _, List.mem_cons_self, ?_⟩
    · exact ExtTreeMap.mem_insert_self
    · exact List.mem_cons_self
  refine ⟨hcore, ?_, (erofs_refused_iff _ _ _).2 (.inl hcore)⟩
  rw [ext4_refused_iff]
  rintro (⟨addition, hmem, -⟩ | ⟨path, hpath, front, name, back, hfront, hback, -, rfl⟩)
  · exact absurd hmem List.not_mem_nil
  · -- no path has three components
    have hshort : (front ++ name :: back).length ≤ 2 := by
      simp only [topLevelBase, ExtTreeMap.mem_insert, Std.LawfulEqCmp.compare_eq_iff_eq,
        ExtTreeMap.not_mem_empty, or_false] at hpath
      rcases hpath with hpath | hpath | hpath <;> rw [← hpath] <;> decide
    have hone := List.length_pos_iff.2 hfront
    have htwo := List.length_pos_iff.2 hback
    rw [List.length_append, List.length_cons] at hshort
    omega

end Droidloom.Gapps
