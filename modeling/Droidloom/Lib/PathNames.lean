/-
  Paths as texts, read component by component in the way of `std::path`.

  Two texts are one path if they have the same components: repeated and trailing slashes do not
  count, nor does a `.` anywhere but in front.  A path lies at or below another if its components
  begin with the other's, and that is the order of paths here (`PathBuf.le_def`).
-/
import Mathlib

namespace PathNames

inductive Component
  | rootDir
  | curDir
  | parentDir
  | normal (name : String)
deriving DecidableEq, Repr

/-! ## Reading a text -/

/-- What stands between two slashes. -/
def Component.ofSegment : List Char → Option Component
  | [] => none
  | ['.'] => none
  | ['.', '.'] => some .parentDir
  | segment => some (.normal (String.ofList segment))

/-- What only the front of a path can have: the root, or a `.` that is kept. -/
def leading : List Char → List Component
  | '/' :: _ => [.rootDir]
  | ['.'] => [.curDir]
  | '.' :: '/' :: _ => [.curDir]
  | _ => []

def segments (text : List Char) : List Component :=
  (text.splitOn '/').filterMap Component.ofSegment

structure PathBuf where
  text : String
deriving DecidableEq, Repr

namespace PathBuf

def components (path : PathBuf) : List Component :=
  leading path.text.toList ++ segments path.text.toList

def isAbsolute (path : PathBuf) : Bool := path.text.toList.head? = some '/'

/-- The same path, perhaps in another spelling. -/
def same (a b : PathBuf) : Bool := a.components = b.components

/-- A path begins with the paths above it, and with itself. -/
instance : Preorder PathBuf where
  le a b := a.components <+: b.components
  le_refl a := List.prefix_refl _
  le_trans _ _ _ := List.IsPrefix.trans

theorem le_def {a b : PathBuf} : a ≤ b ↔ a.components <+: b.components := Iff.rfl

instance : DecidableLE PathBuf := fun a b =>
  inferInstanceAs (Decidable (a.components <+: b.components))

def startsWith (path base : PathBuf) : Bool := base ≤ path

/-- The last component, if it is a name. -/
def fileName (path : PathBuf) : Option String :=
  match path.components.getLast? with
  | some (.normal name) => some name
  | _ => none

/-- The components without the last one; the root and the empty path have no parent. -/
def parent (path : PathBuf) : Option (List Component) :=
  match path.components.getLast? with
  | none | some .rootDir => none
  | some _ => some path.components.dropLast

/-- An absolute name replaces the base; any other is put behind it, with one slash between. -/
def join (base : PathBuf) (name : String) : PathBuf :=
  if name.toList.head? = some '/' then ⟨name⟩
  else if base.text.toList.getLast? ∈ [none, some '/'] then ⟨base.text ++ name⟩
  else ⟨base.text ++ "/" ++ name⟩

end PathBuf

/-! ## Joining -/

theorem segments_append (front back : List Char) :
    segments (front ++ '/' :: back) = segments front ++ segments back := by
  have hsplit : (front ++ '/' :: back).splitOn '/' = front.splitOn '/' ++ back.splitOn '/' :=
    List.splitOnP_append_cons front back (by simp)
  rw [segments, hsplit, List.filterMap_append]
  rfl

/-- A slash behind the front does not change what the front begins with. -/
theorem leading_append {front : List Char} (back : List Char) (h : front ≠ []) :
    leading (front ++ '/' :: back) = leading front := by
  match front, h with
  | [c], _ =>
    by_cases hslash : c = '/'
    · subst hslash
      rfl
    · by_cases hdot : c = '.'
      · subst hdot
        rfl
      · simp [leading, hslash, hdot]
  | c :: d :: rest, _ =>
    by_cases hslash : c = '/'
    · subst hslash
      rfl
    · by_cases hdot : c = '.'
      · subst hdot
        by_cases hd : d = '/'
        · subst hd
          rfl
        · simp [leading, hd]
      · simp [leading, hslash, hdot]

/-- A name with a single component is put below the base. -/
theorem components_join {base : PathBuf} {name text : String}
    (hname : (PathBuf.mk text).components = [.normal name])
    (hbase : base.text.toList.getLast? ∉ [none, some '/']) :
    (base.join text).components = base.components ++ [.normal name] := by
  have hleading : leading text.toList = [] := by
    rw [PathBuf.components] at hname
    rcases List.append_eq_cons_iff.mp hname with ⟨h, -⟩ | ⟨rest, h, -⟩
    · exact h
    · -- what leads a path is never a name
      exfalso
      unfold leading at h
      split at h <;> cases h
  have hsegments : segments text.toList = [.normal name] := by
    rw [PathBuf.components, hleading] at hname
    exact hname
  have hrelative : text.toList.head? ≠ some '/' := by
    intro hslash
    obtain ⟨rest, hrest⟩ : ∃ rest, text.toList = '/' :: rest := by
      cases htext : text.toList with
      | nil => simp [htext] at hslash
      | cons c rest =>
        rw [htext] at hslash
        exact ⟨rest, by rw [Option.some.inj hslash]⟩
    rw [hrest] at hleading
    cases hleading
  have hne : base.text.toList ≠ [] := by
    intro hnil
    exact hbase (by simp [hnil])
  rw [PathBuf.join, if_neg hrelative, if_neg hbase, PathBuf.components, PathBuf.components]
  have htext : (base.text ++ "/" ++ text).toList = base.text.toList ++ '/' :: text.toList := by
    simp
  show leading (base.text ++ "/" ++ text).toList ++ segments (base.text ++ "/" ++ text).toList = _
  rw [htext, leading_append _ hne, segments_append, hsegments, List.append_assoc]

end PathNames
