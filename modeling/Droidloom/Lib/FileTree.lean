/-
  A file system as a kernel resolves paths in it: inodes with owners and modes, directories,
  regular files, symbolic links and the rest.

  Resolving a path only looks nodes up, so it is MONOTONE: what resolves in a part of a file system
  resolves to the same place in the whole (`Part.walk`).  The part that someone does not own is the
  part they cannot change, so a path that resolves in it goes on resolving to the same place
  whatever they do (`resolve_stable`).
-/
import Droidloom.Lib.Fallible

namespace FileTree

open Fallible

/-! ## Paths -/

inductive Component
  | current
  | parent
  | name (text : String)
deriving DecidableEq, Repr

structure Path where
  absolute : Bool
  components : List Component
deriving DecidableEq, Repr

inductive Error
  | notFound
  | notADirectory
  | isADirectory
  | tooManyLinks
  | nulByte
deriving DecidableEq, Repr

def Error.text : Error → String
  | .notFound => "No such file or directory (os error 2)"
  | .notADirectory => "Not a directory (os error 20)"
  | .isADirectory => "Is a directory (os error 21)"
  | .tooManyLinks => "Too many levels of symbolic links (os error 40)"
  | .nulByte => "file name contained an unexpected NUL byte"

def Component.parse (text : List Char) : Component :=
  if text = [] ∨ text = ['.'] then .current
  else if text = ['.', '.'] then .parent
  else .name (String.ofList text)

/-- Slashes separate, and a trailing one asks for a directory. -/
def Path.parse (text : String) : Except Error Path :=
  if text = "" then .error .notFound
  else if '\x00' ∈ text.toList then .error .nulByte
  else .ok { absolute := text.toList.head? = some '/',
             components := (text.toList.splitOn '/').map Component.parse }

/-! ## Nodes -/

inductive Body
  | file (content : List UInt8)
  | directory (size : Nat) (entries : List (String × Nat))
  | link (target : String)
  /-- A device, pipe or socket, with what a read from it yields. -/
  | special (content : List UInt8)
deriving DecidableEq, Repr

structure Node where
  owner : UInt32
  mode : UInt32
  body : Body
deriving DecidableEq, Repr

def Node.isFile (node : Node) : Bool :=
  match node.body with
  | .file _ => true
  | _ => false

/-- Where a symbolic link points. -/
def Node.target (node : Node) : Option String :=
  match node.body with
  | .link target => some target
  | _ => none

def Node.len (node : Node) : Nat :=
  match node.body with
  | .file content => content.length
  | .directory size _ => size
  | .link target => target.utf8ByteSize
  | .special _ => 0

/-- Nodes by inode number; the root directory is number 0. -/
abbrev FileSystem := Nat → Option Node

/-- Where a walk stands: the names and inodes below the root, the innermost first. -/
abbrev Place := List (String × Nat)

def Place.inode : Place → Nat
  | [] => 0
  | (_, inode) :: _ => inode

/-- The names from the root down. -/
def Place.names (place : Place) : List String := (place.map Prod.fst).reverse

namespace FileSystem

def node (fs : FileSystem) (inode : Nat) : Except Error Node :=
  (fs inode).elim (.error .notFound) .ok

def entries (fs : FileSystem) (inode : Nat) : Except Error (List (String × Nat)) := do
  match (← fs.node inode).body with
  | .directory _ entries => return entries
  | _ => throw .notADirectory

/-- The node that a directory has under a name. -/
def child (fs : FileSystem) (inode : Nat) (name : String) : Except Error (Nat × Node) := do
  match (← fs.entries inode).lookup name with
  | none => throw .notFound
  | some inode => return (inode, ← fs.node inode)

/-! ## Resolution -/

/-- The components of a path one after the other; `expand` goes on behind a symbolic link. -/
def steps (fs : FileSystem) (follow : Bool)
    (expand : List Component → Place → Except Error Place) :
    List Component → Place → Except Error Place
  | [], place => .ok place
  | .current :: rest, place => do
    let _ ← fs.entries place.inode
    fs.steps follow expand rest place
  | .parent :: rest, place => do
    let _ ← fs.entries place.inode
    fs.steps follow expand rest place.tail
  | .name name :: rest, place => do
    let (inode, node) ← fs.child place.inode name
    match node.target with
    | none => fs.steps follow expand rest ((name, inode) :: place)
    | some target =>
      if rest = [] ∧ follow = false then return (name, inode) :: place
      else do
        let target ← Path.parse target
        expand (target.components ++ rest) (if target.absolute then [] else place)

/-- A walk through at most so many links. -/
def walk (fs : FileSystem) (follow : Bool) : Nat → List Component → Place → Except Error Place
  | 0 => fs.steps follow fun _ _ => .error .tooManyLinks
  | links + 1 => fs.steps follow (fs.walk follow links)

def MAXSYMLINKS : Nat := 40

/-- The place of a path, seen from the root directory. -/
def place (fs : FileSystem) (follow : Bool) (path : String) : Except Error Place := do
  fs.walk follow MAXSYMLINKS (← Path.parse path).components []

def resolve (fs : FileSystem) (path : String) : Except Error Place := fs.place true path

def symlinkMetadata (fs : FileSystem) (path : String) : Except Error Node := do
  fs.node (← fs.place false path).inode

def metadata (fs : FileSystem) (path : String) : Except Error Node := do
  fs.node (← fs.resolve path).inode

def canonicalize (fs : FileSystem) (path : String) : Except Error (List String) := do
  return (← fs.resolve path).names

def read (fs : FileSystem) (path : String) : Except Error (List UInt8) := do
  match (← fs.metadata path).body with
  | .file content | .special content => return content
  | .directory _ _ => throw .isADirectory
  | .link _ => throw .tooManyLinks

/-! ## Resolution is monotone -/

/-- Every node of the one is a node of the other. -/
def Part (fs fs' : FileSystem) : Prop := ∀ inode node, fs inode = some node → fs' inode = some node

variable {fs fs' : FileSystem} {follow : Bool}

theorem node_eq_ok {inode : Nat} {node : Node} :
    fs.node inode = .ok node ↔ fs inode = some node := by
  unfold FileSystem.node
  cases fs inode <;> simp

theorem entries_eq_ok {inode : Nat} {entries : List (String × Nat)} :
    fs.entries inode = .ok entries ↔
      ∃ node size, fs inode = some node ∧ node.body = .directory size entries := by
  unfold FileSystem.entries
  simp only [bind_eq_ok, node_eq_ok]
  constructor
  · rintro ⟨node, hnode, hbody⟩
    split at hbody <;> simp_all
  · rintro ⟨node, size, hnode, hbody⟩
    exact ⟨node, hnode, by simp [hbody]⟩

theorem child_eq_ok {inode : Nat} {name : String} {child : Nat × Node} :
    fs.child inode name = .ok child ↔
      ∃ entries, fs.entries inode = .ok entries ∧ entries.lookup name = some child.1 ∧
        fs child.1 = some child.2 := by
  unfold FileSystem.child
  rw [bind_eq_ok]
  refine exists_congr fun entries => and_congr_right fun _ => ?_
  cases entries.lookup name with
  | none => simp
  | some inode =>
    obtain ⟨inode', node⟩ := child
    simp only [bind_eq_ok, node_eq_ok, pure_eq_ok, Option.some.injEq, Prod.mk.injEq]
    constructor
    · rintro ⟨_, hnode, rfl, rfl⟩
      exact ⟨rfl, hnode⟩
    · rintro ⟨rfl, hnode⟩
      exact ⟨node, hnode, rfl, rfl⟩

theorem Part.entries (h : Part fs fs') {inode : Nat} {entries : List (String × Nat)}
    (hentries : fs.entries inode = .ok entries) : fs'.entries inode = .ok entries := by
  obtain ⟨node, size, hnode, hbody⟩ := entries_eq_ok.mp hentries
  exact entries_eq_ok.mpr ⟨node, size, h inode node hnode, hbody⟩

theorem Part.child (h : Part fs fs') {inode : Nat} {name : String} {child : Nat × Node}
    (hchild : fs.child inode name = .ok child) : fs'.child inode name = .ok child := by
  obtain ⟨entries, hentries, hlookup, hnode⟩ := child_eq_ok.mp hchild
  exact child_eq_ok.mpr ⟨entries, h.entries hentries, hlookup, h _ _ hnode⟩

theorem Part.steps (h : Part fs fs') {expand expand' : List Component → Place → Except Error Place}
    (hexpand : ∀ components start stop, expand components start = .ok stop →
      expand' components start = .ok stop) (components : List Component) (start stop : Place)
    (hsteps : fs.steps follow expand components start = .ok stop) :
    fs'.steps follow expand' components start = .ok stop := by
  induction components generalizing start with
  | nil => exact hsteps
  | cons component rest ih =>
    cases component with
    | current =>
      obtain ⟨entries, hentries, hrest⟩ := bind_eq_ok.mp hsteps
      exact bind_eq_ok.mpr ⟨entries, h.entries hentries, ih _ hrest⟩
    | parent =>
      obtain ⟨entries, hentries, hrest⟩ := bind_eq_ok.mp hsteps
      exact bind_eq_ok.mpr ⟨entries, h.entries hentries, ih _ hrest⟩
    | name name =>
      obtain ⟨⟨inode, node⟩, hchild, hrest⟩ := bind_eq_ok.mp hsteps
      refine bind_eq_ok.mpr ⟨(inode, node), h.child hchild, ?_⟩
      cases htarget : node.target with
      | none =>
        simp only [htarget] at hrest ⊢
        exact ih _ hrest
      | some target =>
        -- the link is the end, or the walk goes on behind it
        simp only [htarget] at hrest ⊢
        split_ifs at hrest ⊢ with hend
        · exact hrest
        · obtain ⟨target, hparse, hrest⟩ := bind_eq_ok.mp hrest
          exact bind_eq_ok.mpr ⟨target, hparse, hexpand _ _ _ hrest⟩

theorem Part.walk (h : Part fs fs') (links : Nat) (components : List Component)
    (start stop : Place) (hwalk : fs.walk follow links components start = .ok stop) :
    fs'.walk follow links components start = .ok stop := by
  induction links generalizing components start stop with
  | zero => exact h.steps (fun _ _ _ h => h) components start stop hwalk
  | succ links ih => exact h.steps ih components start stop hwalk

/-- A walk that does not end at a link ends there as well when it may follow. -/
theorem steps_follow {expand expand' : List Component → Place → Except Error Place} {stop : Place}
    (hexpand : ∀ components start, expand components start = .ok stop →
      expand' components start = .ok stop)
    (hstop : ∀ node, fs stop.inode = some node → node.target = none)
    (components : List Component) (start : Place)
    (hsteps : fs.steps false expand components start = .ok stop) :
    fs.steps true expand' components start = .ok stop := by
  induction components generalizing start with
  | nil => exact hsteps
  | cons component rest ih =>
    cases component with
    | current =>
      obtain ⟨entries, hentries, hrest⟩ := bind_eq_ok.mp hsteps
      exact bind_eq_ok.mpr ⟨entries, hentries, ih _ hrest⟩
    | parent =>
      obtain ⟨entries, hentries, hrest⟩ := bind_eq_ok.mp hsteps
      exact bind_eq_ok.mpr ⟨entries, hentries, ih _ hrest⟩
    | name name =>
      obtain ⟨⟨inode, node⟩, hchild, hrest⟩ := bind_eq_ok.mp hsteps
      refine bind_eq_ok.mpr ⟨(inode, node), hchild, ?_⟩
      obtain ⟨_, _, _, hnode⟩ := child_eq_ok.mp hchild
      cases htarget : node.target with
      | none =>
        simp only [htarget] at hrest ⊢
        exact ih _ hrest
      | some target =>
        simp only [htarget, and_true] at hrest
        simp only [htarget, Bool.true_eq_false, and_false, if_false]
        split_ifs at hrest with hend
        · cases hrest
          exact absurd (hstop node hnode) (by simp [htarget])
        · obtain ⟨target, hparse, hrest⟩ := bind_eq_ok.mp hrest
          exact bind_eq_ok.mpr ⟨target, hparse, hexpand _ _ hrest⟩

theorem place_follow {path : String} {place : Place} (hplace : fs.place false path = .ok place)
    (hstop : ∀ node, fs place.inode = some node → node.target = none) :
    fs.resolve path = .ok place := by
  obtain ⟨parsed, hparsed, hwalk⟩ := bind_eq_ok.mp hplace
  refine bind_eq_ok.mpr ⟨parsed, hparsed, ?_⟩
  have hwalks : ∀ links components start, fs.walk false links components start = .ok place →
      fs.walk true links components start = .ok place := by
    intro links
    induction links with
    | zero => exact steps_follow (fun _ _ h => h) hstop
    | succ links ih => exact steps_follow ih hstop
  exact hwalks _ _ _ hwalk

theorem Part.place (h : Part fs fs') {path : String} {place : Place}
    (hplace : fs.place follow path = .ok place) : fs'.place follow path = .ok place := by
  obtain ⟨parsed, hparsed, hwalk⟩ := bind_eq_ok.mp hplace
  exact bind_eq_ok.mpr ⟨parsed, hparsed, h.walk _ _ _ _ hwalk⟩

/-! ## What someone cannot change -/

/-- The part that someone does not own. -/
def without (fs : FileSystem) (owner : UInt32) : FileSystem :=
  fun inode => (fs inode).filter (·.owner ≠ owner)

/-- Someone changes what they own, adds to it and removes from it, as they like. -/
def Changes (owner : UInt32) (fs fs' : FileSystem) : Prop := fs.without owner = fs'.without owner

theorem without_eq_some {owner : UInt32} {inode : Nat} {node : Node} :
    fs.without owner inode = some node ↔ fs inode = some node ∧ node.owner ≠ owner := by
  simp [without, Option.filter_eq_some_iff]

theorem without_part (fs : FileSystem) (owner : UInt32) : Part (fs.without owner) fs :=
  fun _ _ h => (without_eq_some.mp h).1

theorem Changes.node {owner : UInt32} (h : Changes owner fs fs') {inode : Nat} {node : Node}
    (hnode : fs inode = some node) (howner : node.owner ≠ owner) : fs' inode = some node := by
  have hwithout := without_eq_some.mpr ⟨hnode, howner⟩
  rw [h] at hwithout
  exact (without_eq_some.mp hwithout).1

/-- **What resolves without someone's nodes stays put**, whatever they do with their own. -/
theorem resolve_stable {owner : UInt32} {path : String} {place : Place} (h : Changes owner fs fs')
    (hplace : (fs.without owner).resolve path = .ok place) : fs'.resolve path = .ok place := by
  have hplace' : (fs'.without owner).resolve path = .ok place := h ▸ hplace
  exact (without_part fs' owner).place hplace'

end FileSystem

end FileTree
