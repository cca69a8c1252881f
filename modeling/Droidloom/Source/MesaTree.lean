/-
  The digest of a prepared Mesa tree (`droidloom-mesa`: `hash_tree`, `verify_existing`).

  Every path is hashed with its length and a tag, and so is the target of a link, but the content of
  a file has no length.  A content may therefore go on with the records of the files after it:
  two different trees are hashed alike exactly when one imitates the other in this way
  (`stream_ne_iff`).
-/
import Droidloom.Lib.ByteCodec

namespace Droidloom.Mesa

open ByteCodec Fallible

def SLASH : UInt8 := 47

/-- The names of a relative path; paths are sorted name by name. -/
abbrev Path := List Bytes

def pathBytes (path : Path) : Bytes := [SLASH].intercalate path

inductive Entry
  | file (content : Bytes)
  | link (target : Bytes)
deriving DecidableEq, Repr

/-- A length is a 64-bit number. -/
def Sized (bytes : Bytes) : Prop := bytes.length < 256 ^ 8

instance (bytes : Bytes) : Decidable (Sized bytes) := inferInstanceAs (Decidable (_ < _))

structure Named (path : Path) : Prop where
  nonempty : path ≠ []
  names : ∀ name ∈ path, SLASH ∉ name
  sized : Sized (pathBytes path)

/-- A finite tree of regular files and symbolic links, without its manifest. -/
structure PreparedTree where
  entries : Std.ExtTreeMap Path Entry compare
  named : ∀ path ∈ entries, Named path
  targets : ∀ (path : Path) (target : Bytes), entries[path]? = some (.link target) → Sized target

def lengthBytes (bytes : Bytes) : Bytes := leBytes 8 bytes.length

def entryBytes : Entry → Bytes
  | .link target => 76 :: (lengthBytes target ++ target)
  | .file content => 70 :: content

def record (item : Path × Entry) : Bytes :=
  lengthBytes (pathBytes item.1) ++ (pathBytes item.1 ++ entryBytes item.2)

/-- What is fed to SHA-256. -/
def stream (tree : PreparedTree) : Bytes := tree.entries.toList.flatMap record

/-- At the first difference a file of `u` has the content that it has in `t` and more, which
    together with the rest of `u` reads like the rest of `t`. -/
def Continues (t u : List (Path × Entry)) : Prop :=
  ∃ front path content extra rest rest',
    t = front ++ (path, .file content) :: rest ∧
    u = front ++ (path, .file (content ++ extra)) :: rest' ∧ extra ≠ [] ∧
    rest.flatMap record = extra ++ rest'.flatMap record

theorem Continues.cons {t u : List (Path × Entry)} (item : Path × Entry) (h : Continues t u) :
    Continues (item :: t) (item :: u) := by
  obtain ⟨front, path, content, extra, rest, rest', rfl, rfl, hextra⟩ := h
  exact ⟨item :: front, path, content, extra, rest, rest', rfl, rfl, hextra⟩

/-- What is said of every item of a tree. -/
structure Proper (item : Path × Entry) : Prop where
  named : Named item.1
  target : ∀ target, item.2 = .link target → Sized target

end Droidloom.Mesa
