/-
  Selection of imported system configuration (`droidloom-gapps`, `xml.rs`).

  A vendor's configuration file is read into a tree of elements, cut down to the entries of the
  selected packages, and written again.  The XML library is taken to be faithful: a document is the
  list of EVENTS that its reader reports, and what its writer is given is what a reader of the
  written document reports, white space apart.

  1. **Reading** — `parse` keeps a stack of open elements.  A tree that was read nests at most 16
     deep (`parse_depth`), so what is written of it can be read again: `parse_write`.
  2. **Selecting** — `retainEntry` looks at an entry and, for two of the kinds, at the elements
     directly inside it.
  3. **The policy** — stated for every PATH from the root to an element, so for every depth.  What
     lies deeper than `retainEntry` looks is written as it was read; the policy holds exactly where
     nothing does (`Shallow`).
-/
import Droidloom.Lib.Fallible

namespace Droidloom.GappsConfig

open Fallible
open Std (ExtTreeMap)

/-! ## Documents -/

structure Tag where
  name : String
  attributes : List (String × String)
deriving DecidableEq, Repr

/-- What the reader reports; a tag that it cannot decode comes with its error. -/
inductive Event
  | start (tag : Except String Tag)
  | empty (tag : Except String Tag)
  | stop
  | text (content : List Char)
  | comment (content : List Char)
  | decl
  /-- A section, an instruction, a reference or a document type. -/
  | other
  | malformed (message : String)

inductive Error
  | reader (message : String)
  | duplicateAttribute
  | nesting
  | unmatchedEnd
  | unsupported
  | multipleRoots
  | unclosedElement
  | emptyDocument
  | unclosedComment
  | notText
deriving DecidableEq, Repr

structure Node where
  name : String
  attributes : ExtTreeMap String String compare
  children : List Node

/-! ## Reading -/

def MAX_NESTING : Nat := 16

def readAttributes (attributes : ExtTreeMap String String compare) :
    List (String × String) → Except Error (ExtTreeMap String String compare)
  | [] => .ok attributes
  | (key, value) :: rest =>
    if key ∈ attributes then .error .duplicateAttribute
    else readAttributes (attributes.insert key value) rest

def Node.start : Except String Tag → Except Error Node
  | .error message => .error (.reader message)
  | .ok tag => do
    let attributes ← readAttributes ∅ tag.attributes
    return { name := tag.name, attributes, children := [] }

/-- A finished element goes into the open one around it, or becomes the root. -/
def attach (node : Node) (stack : List Node) (root : Option Node) :
    Except Error (List Node × Option Node) :=
  match stack with
  | parent :: rest => .ok ({ parent with children := parent.children ++ [node] } :: rest, root)
  | [] => if root.isSome then .error .multipleRoots else .ok ([], some node)

def isAsciiWhitespace (c : Char) : Bool :=
  c = ' ' || c = '\t' || c = '\n' || c = '\x0c' || c = '\r'

/-- The loop over the events, with the open elements, innermost first, and the root. -/
def parseLoop : List Event → List Node → Option Node → Except Error Node
  | [], stack, root => if stack.isEmpty then okOr root .emptyDocument else .error .unclosedElement
  | .start tag :: rest, stack, root => do
    rejectIf (MAX_NESTING ≤ stack.length) .nesting
    let node ← Node.start tag
    parseLoop rest (node :: stack) root
  | .empty tag :: rest, stack, root => do
    let node ← Node.start tag
    let next ← attach node stack root
    parseLoop rest next.1 next.2
  | .stop :: rest, stack, root =>
    match stack with
    | [] => .error .unmatchedEnd
    | node :: outer => do
      let next ← attach node outer root
      parseLoop rest next.1 next.2
  | .text content :: rest, stack, root =>
    -- character data between elements is no directive
    if !stack.isEmpty || content.all isAsciiWhitespace then parseLoop rest stack root
    else .error .unsupported
  | .comment _ :: rest, stack, root => parseLoop rest stack root
  | .decl :: rest, stack, root => parseLoop rest stack root
  | .other :: _, _, _ => .error .unsupported
  | .malformed message :: _, _, _ => .error (.reader message)

def parse (events : List Event) : Except Error Node := parseLoop events [] none

/-! ## Writing -/

mutual

def Node.write : Node → List Event
  | ⟨name, attributes, children⟩ =>
    let tag : Except String Tag := .ok { name, attributes := attributes.toList }
    if children.isEmpty then [.empty tag] else .start tag :: (writeAll children ++ [.stop])

def writeAll : List Node → List Event
  | [] => []
  | node :: rest => node.write ++ writeAll rest

end

/-! ## Selecting -/

/-- The selected packages, with the partition that each is on and what it requests. -/
abbrev Packages := ExtTreeMap String (String × Finset String) compare

def ROOTS : List String := ["permissions", "config", "exceptions"]

/-- The kinds of entry that are kept as they are. -/
def PLAIN : List String :=
  ["allow-in-power-save", "allow-in-power-save-except-idle", "allow-in-data-usage-save",
    "allow-unthrottled-location", "allow-ignore-location-settings", "app-link",
    "hidden-api-whitelisted-app", "whitelisted-staged-installer", "install-in-user-type",
    "component-override", "allow-association"]

/-- An element of one of the kinds whose name is requested. -/
def grants (kinds : List String) (requested : Finset String) (child : Node) : Bool :=
  kinds.contains child.name && (child.attributes["name"]?).any fun name => name ∈ requested

def retainGrants (kinds : List String) (requested : Finset String) (node : Node) : Option Node :=
  let children := node.children.filter (grants kinds requested)
  if children.isEmpty then none else some { node with children }

/-- What is kept of an entry, if anything. -/
def retainEntry (partition : String) (packages : Packages) (node : Node) : Option Node :=
  match node.attributes["package"]? with
  | none => none
  | some package =>
    match packages[package]? with
    | none => none
    | some (owner, requested) =>
      if node.name = "privapp-permissions" then
        if owner ≠ partition then none
        else retainGrants ["permission", "deny-permission"] requested node
      else if node.name = "exception" then retainGrants ["permission"] requested node
      else if node.name ∈ PLAIN then some node
      else none

/-- `str::split`. -/
def splitLoop (mark : List Char) : List Char → Nat → List Char → List (List Char)
  | [], _, part => [part.reverse]
  | _ :: rest, skip + 1, part => splitLoop mark rest skip part
  | c :: rest, 0, part =>
    if mark.isPrefixOf (c :: rest) then
      part.reverse :: splitLoop mark rest (mark.length - 1) []
    else splitLoop mark rest 0 (c :: part)

def split (mark text : List Char) : List (List Char) := splitLoop mark text 0 []

/-- The comments of the source, found in its text. -/
def notices : List (List Char) → Except Error (List Event)
  | [] => .ok []
  | part :: rest =>
    match split ['-', '-', '>'] part with
    | comment :: _ :: _ => do
      let more ← notices rest
      return .comment comment :: more
    | _ => .error .unclosedComment

/-- A configuration file: its text, if it is text, and what the reader reports. -/
structure Document where
  source : Option (List Char)
  events : List Event

def select (document : Document) (partition : String) (packages : Packages) :
    Except Error (Option (List Event)) := do
  let root ← parse document.events
  if root.name ∉ ROOTS then return none
  let children := root.children.filterMap (retainEntry partition packages)
  if children.isEmpty then return none
  let source ← okOr document.source .notText
  let comments ← notices ((split ['<', '!', '-', '-'] source).drop 1)
  return some (comments ++ ({ root with children } : Node).write)

/-! ## What is written can be read -/

/-- Distinct names are read into the map of their values. -/
theorem readAttributes_ok (pairs : List (String × String))
    (hdistinct : pairs.Pairwise fun a b => ¬ compare a.1 b.1 = .eq) :
    ∀ attributes : ExtTreeMap String String compare, (∀ pair ∈ pairs, pair.1 ∉ attributes) →
      ∃ read, readAttributes attributes pairs = .ok read ∧
        ∀ key value : String, read[key]? = some value ↔
          attributes[key]? = some value ∨ (key, value) ∈ pairs := by
  induction pairs with
  | nil => exact fun attributes _ => ⟨attributes, rfl, by simp⟩
  | cons first rest ih =>
    intro attributes hfresh
    obtain ⟨hfirst, hrest⟩ := List.pairwise_cons.1 hdistinct
    have hnew : first.1 ∉ attributes := hfresh first List.mem_cons_self
    obtain ⟨read, hread, hvalues⟩ := ih hrest (attributes.insert first.1 first.2) (by
      intro pair hpair hmem
      rcases ExtTreeMap.mem_insert.1 hmem with hsame | hold
      · exact hfirst pair hpair hsame
      · exact hfresh pair (List.mem_cons_of_mem _ hpair) hold)
    refine ⟨read, ?_, fun key value => ?_⟩
    · rw [readAttributes, if_neg hnew]
      exact hread
    · have habsent : attributes[first.1]? = none := ExtTreeMap.getElem?_eq_none hnew
      rw [hvalues, ExtTreeMap.getElem?_insert, List.mem_cons, ← or_assoc]
      refine or_congr_left ?_
      by_cases hkey : first.1 = key
      · subst hkey
        simp [habsent, Prod.ext_iff, eq_comm]
      · have hother : ¬ compare first.1 key = .eq := fun heq =>
          hkey (Std.LawfulEqCmp.eq_of_compare heq)
        rw [if_neg hother]
        have hdiffer : ¬ (key, value) = first := fun heq => hkey (heq ▸ rfl)
        simp [hdiffer]

theorem readAttributes_toList (attributes : ExtTreeMap String String compare) :
    readAttributes ∅ attributes.toList = .ok attributes := by
  obtain ⟨read, hread, hvalues⟩ := readAttributes_ok attributes.toList
    ExtTreeMap.distinct_keys_toList ∅ (by simp)
  have hsame : read = attributes := by
    refine ExtTreeMap.ext_getElem? fun key => Option.ext fun value => ?_
    rw [hvalues, ExtTreeMap.mem_toList_iff_getElem?_eq_some]
    simp
  rw [hread, hsame]

theorem start_tag (name : String) (attributes : ExtTreeMap String String compare) :
    Node.start (.ok { name, attributes := attributes.toList }) = .ok ⟨name, attributes, []⟩ := by
  simp only [Node.start, readAttributes_toList]
  rfl

mutual

/-- How deep elements with elements inside are nested. -/
def Node.depth : Node → Nat
  | ⟨_, _, children⟩ => if children.isEmpty then 0 else depthAll children + 1

def depthAll : List Node → Nat
  | [] => 0
  | node :: rest => max node.depth (depthAll rest)

end

theorem depth_le_depthAll {nodes : List Node} {node : Node} (h : node ∈ nodes) :
    node.depth ≤ depthAll nodes := by
  induction nodes with
  | nil => cases h
  | cons first rest ih =>
    rcases List.mem_cons.1 h with rfl | hrest
    · exact le_max_left _ _
    · exact (ih hrest).trans (le_max_right _ _)

theorem depthAll_le_iff {nodes : List Node} {bound : Nat} :
    depthAll nodes ≤ bound ↔ ∀ node ∈ nodes, node.depth ≤ bound := by
  induction nodes with
  | nil => simp [depthAll]
  | cons first rest ih => simp [depthAll, ih]

theorem depthAll_append (nodes nodes' : List Node) :
    depthAll (nodes ++ nodes') = max (depthAll nodes) (depthAll nodes') := by
  induction nodes with
  | nil => simp [depthAll]
  | cons first rest ih => simp only [List.cons_append, depthAll, ih, max_assoc]

theorem depth_eq (node : Node) :
    node.depth = if node.children.isEmpty then 0 else depthAll node.children + 1 := by
  cases node
  rfl

theorem depth_le_of_children {node : Node} {children : List Node}
    (h : ∀ child ∈ children, ∃ original ∈ node.children, child.depth ≤ original.depth) :
    ({ node with children } : Node).depth ≤ node.depth := by
  rw [depth_eq, depth_eq]
  show (if children.isEmpty then 0 else depthAll children + 1) ≤ _
  by_cases hempty : node.children.isEmpty
  · have hnone : children = [] := by
      refine List.eq_nil_iff_forall_not_mem.2 fun child hchild => ?_
      obtain ⟨original, horiginal, -⟩ := h child hchild
      rw [List.isEmpty_iff.1 hempty] at horiginal
      cases horiginal
    rw [hnone, hempty]
    exact le_rfl
  · rw [if_neg hempty]
    split
    · exact Nat.zero_le _
    · refine Nat.succ_le_succ (depthAll_le_iff.2 fun child hchild => ?_)
      obtain ⟨original, horiginal, hle⟩ := h child hchild
      exact hle.trans (depth_le_depthAll horiginal)

mutual

/-- A written element is read back into the place where the reader stands. -/
theorem parseLoop_write (node : Node) : ∀ (rest : List Event) (stack : List Node)
    (root : Option Node), stack.length + node.depth ≤ MAX_NESTING →
    parseLoop (node.write ++ rest) stack root = (do
      let next ← attach node stack root
      parseLoop rest next.1 next.2) := by
  match node with
  | ⟨name, attributes, []⟩ =>
    intro rest stack root _
    simp only [Node.write, List.isEmpty_nil, if_true, List.singleton_append, parseLoop, start_tag]
    rfl
  | ⟨name, attributes, first :: more⟩ =>
    intro rest stack root hdepth
    have hopen : stack.length + 1 + depthAll (first :: more) ≤ MAX_NESTING := by
      simp only [Node.depth, List.isEmpty_cons, Bool.false_eq_true, if_false] at hdepth
      omega
    have hroom : ¬ MAX_NESTING ≤ stack.length := by omega
    have hinside := parseLoop_writeAll (first :: more) (.stop :: rest) ⟨name, attributes, []⟩
      stack root hopen
    simp only [Node.write, List.isEmpty_cons, Bool.false_eq_true, if_false, List.cons_append,
      List.append_assoc, parseLoop, rejectIf, if_neg hroom, start_tag]
    exact hinside

theorem parseLoop_writeAll (nodes : List Node) : ∀ (rest : List Event) (parent : Node)
    (stack : List Node) (root : Option Node),
    stack.length + 1 + depthAll nodes ≤ MAX_NESTING →
    parseLoop (writeAll nodes ++ rest) (parent :: stack) root =
      parseLoop rest ({ parent with children := parent.children ++ nodes } :: stack) root := by
  match nodes with
  | [] =>
    intro rest parent stack root _
    rw [writeAll, List.append_nil, List.nil_append]
    cases parent
    rfl
  | node :: more =>
    intro rest parent stack root hdepth
    simp only [depthAll] at hdepth
    rw [writeAll, List.append_assoc, parseLoop_write node _ _ _ (by rw [List.length_cons]; omega)]
    -- the first child is in place; the others follow it
    show parseLoop (writeAll more ++ rest)
      ({ parent with children := parent.children ++ [node] } :: stack) root = _
    rw [parseLoop_writeAll more rest _ stack root (by omega)]
    simp only [List.append_assoc, List.singleton_append]

end

/-- **Round trip**: what is written of a tree that is not too deep is read back as the tree. -/
theorem parse_write {node : Node} (h : node.depth ≤ MAX_NESTING) : parse node.write = .ok node := by
  have hread := parseLoop_write node [] [] none (by rw [List.length_nil]; omega)
  rw [List.append_nil] at hread
  exact hread

theorem parseLoop_comments {comments rest : List Event}
    (h : ∀ event ∈ comments, ∃ content, event = .comment content) (stack : List Node)
    (root : Option Node) : parseLoop (comments ++ rest) stack root = parseLoop rest stack root := by
  induction comments with
  | nil => rfl
  | cons first more ih =>
    obtain ⟨content, rfl⟩ := h first List.mem_cons_self
    exact ih fun event hevent => h event (List.mem_cons_of_mem _ hevent)

theorem notices_comments {parts : List (List Char)} {comments : List Event}
    (h : notices parts = .ok comments) :
    ∀ event ∈ comments, ∃ content, event = .comment content := by
  induction parts generalizing comments with
  | nil =>
    cases h
    exact fun _ hevent => nomatch hevent
  | cons part rest ih =>
    unfold notices at h
    split at h
    case h_1 content _ _ _ =>
      obtain ⟨more, hmore, hcomments⟩ := bind_eq_ok.1 h
      cases hcomments
      intro event hevent
      rcases List.mem_cons.1 hevent with rfl | hlater
      · exact ⟨content, rfl⟩
      · exact ih hmore event hlater
    case h_2 => cases h

/-! ## What is read is not too deep -/

/-- The open elements, with what they hold so far, leave room up to the limit. -/
def Nested : List Node → Prop
  | [] => True
  | node :: outer => outer.length + 1 + depthAll node.children ≤ MAX_NESTING ∧ Nested outer

theorem depth_le (node : Node) : node.depth ≤ depthAll node.children + 1 := by
  rw [depth_eq]
  split
  · exact Nat.zero_le _
  · exact le_rfl

theorem attach_nested {node : Node} {stack : List Node} {root : Option Node}
    {next : List Node × Option Node} (hstack : Nested stack)
    (hroot : ∀ r, root = some r → r.depth ≤ MAX_NESTING)
    (hnode : stack.length + node.depth ≤ MAX_NESTING) (h : attach node stack root = .ok next) :
    Nested next.1 ∧ ∀ r, next.2 = some r → r.depth ≤ MAX_NESTING := by
  cases stack with
  | nil =>
    cases root with
    | some other => cases h
    | none =>
      cases h
      refine ⟨trivial, fun r hr => ?_⟩
      cases hr
      rw [List.length_nil] at hnode
      omega
  | cons parent outer =>
    cases h
    obtain ⟨hparent, houter⟩ := hstack
    refine ⟨⟨?_, houter⟩, hroot⟩
    rw [List.length_cons] at hnode
    simp only [depthAll_append, depthAll]
    omega

theorem start_children {tag : Except String Tag} {node : Node} (h : Node.start tag = .ok node) :
    node.children = [] := by
  cases tag with
  | error message => cases h
  | ok tag =>
    obtain ⟨attributes, -, hnode⟩ := bind_eq_ok.1 h
    cases hnode
    rfl

theorem parseLoop_depth (events : List Event) : ∀ (stack : List Node) (root : Option Node),
    Nested stack → (∀ r, root = some r → r.depth ≤ MAX_NESTING) →
    ∀ node, parseLoop events stack root = .ok node → node.depth ≤ MAX_NESTING := by
  induction events with
  | nil =>
    intro stack root _ hroot node h
    unfold parseLoop at h
    split at h
    · exact hroot node (okOr_eq_ok.1 h)
    · cases h
  | cons event rest ih =>
    intro stack root hstack hroot node h
    cases event with
    | start tag =>
      obtain ⟨_, hroom, h⟩ := bind_eq_ok.1 h
      obtain ⟨opened, hopened, h⟩ := bind_eq_ok.1 h
      have hroom := rejectIf_eq_ok.1 hroom
      refine ih (opened :: stack) root ⟨?_, hstack⟩ hroot node h
      rw [start_children hopened, depthAll]
      omega
    | empty tag =>
      obtain ⟨leaf, hleaf, h⟩ := bind_eq_ok.1 h
      obtain ⟨next, hnext, h⟩ := bind_eq_ok.1 h
      have hdepth : leaf.depth = 0 := by
        rw [depth_eq, start_children hleaf]
        rfl
      have hlength : stack.length ≤ MAX_NESTING := by
        cases stack with
        | nil => exact Nat.zero_le _
        | cons inner outer =>
          have hinner := hstack.1
          rw [List.length_cons]
          omega
      obtain ⟨hstack', hroot'⟩ := attach_nested hstack hroot (by omega) hnext
      exact ih _ _ hstack' hroot' node h
    | stop =>
      cases stack with
      | nil => cases h
      | cons inner outer =>
        obtain ⟨next, hnext, h⟩ := bind_eq_ok.1 h
        have hinner := hstack.1
        have hdepth := depth_le inner
        obtain ⟨hstack', hroot'⟩ := attach_nested hstack.2 hroot (by omega) hnext
        exact ih _ _ hstack' hroot' node h
    | text content =>
      unfold parseLoop at h
      split at h
      · exact ih _ _ hstack hroot node h
      · cases h
    | comment content => exact ih _ _ hstack hroot node h
    | decl => exact ih _ _ hstack hroot node h
    | other => cases h
    | malformed message => cases h

/-- **A tree that was read nests no deeper than the limit.** -/
theorem parse_depth {events : List Event} {node : Node} (h : parse events = .ok node) :
    node.depth ≤ MAX_NESTING :=
  parseLoop_depth events [] none trivial (fun _ hr => nomatch hr) node h

/-! ## What is kept -/

/-- An entry of one of the kinds that names a selected package, with what the package requests. -/
def IsEntry (partition : String) (packages : Packages) (entry : Node) (requested : Finset String) :
    Prop :=
  ∃ package owner, entry.attributes["package"]? = some package ∧
    packages[package]? = some (owner, requested) ∧
    ((entry.name = "privapp-permissions" ∧ owner = partition) ∨ entry.name = "exception" ∨
      entry.name ∈ PLAIN)

/-- The kinds of element that are kept in an entry, where not all are. -/
def grantKinds (kind : String) : Option (List String) :=
  if kind = "privapp-permissions" then some ["permission", "deny-permission"]
  else if kind = "exception" then some ["permission"]
  else none

theorem grantKinds_privapp {kind : String} (h : kind = "privapp-permissions") :
    grantKinds kind = some ["permission", "deny-permission"] := if_pos h

theorem grantKinds_exception {kind : String} (h : kind = "exception") :
    grantKinds kind = some ["permission"] := by
  subst h
  decide

theorem not_plain_of_grantKinds {kind : String} {kinds : List String}
    (h : grantKinds kind = some kinds) : kind ∉ PLAIN := by
  unfold grantKinds at h
  split at h
  case isTrue hkind => subst hkind; decide
  case isFalse =>
    split at h
    case isTrue hkind => subst hkind; decide
    case isFalse => cases h

/-- What is kept of an entry: all of a plain one, of another the elements that are granted. -/
inductive Retains (requested : Finset String) (entry : Node) : Node → Prop
  | plain (hkind : entry.name ∈ PLAIN) : Retains requested entry entry
  | granting {kinds : List String} (hkind : grantKinds entry.name = some kinds)
      (hsome : entry.children.filter (grants kinds requested) ≠ []) :
      Retains requested entry
        { entry with children := entry.children.filter (grants kinds requested) }

theorem retainGrants_eq_some {kinds : List String} {requested : Finset String} {entry kept : Node} :
    retainGrants kinds requested entry = some kept ↔
      entry.children.filter (grants kinds requested) ≠ [] ∧
        { entry with children := entry.children.filter (grants kinds requested) } = kept := by
  unfold retainGrants
  by_cases hempty : entry.children.filter (grants kinds requested) = []
  · simp [hempty]
  · have hfalse : (entry.children.filter (grants kinds requested)).isEmpty = false :=
      List.isEmpty_eq_false_iff.2 hempty
    simp only [hfalse, Bool.false_eq_true, if_false, Option.some.injEq]
    exact (and_iff_right hempty).symm

theorem retains_granting {kinds : List String} {requested : Finset String} {entry kept : Node}
    (hkinds : grantKinds entry.name = some kinds) :
    Retains requested entry kept ↔ retainGrants kinds requested entry = some kept := by
  rw [retainGrants_eq_some]
  constructor
  · intro h
    cases h with
    | plain hplain => exact absurd hplain (not_plain_of_grantKinds hkinds)
    | granting hsame hsome =>
      cases hkinds.symm.trans hsame
      exact ⟨hsome, rfl⟩
  · rintro ⟨hsome, rfl⟩
    exact .granting hkinds hsome

theorem retains_plain {requested : Finset String} {entry kept : Node}
    (hplain : entry.name ∈ PLAIN) :
    Retains requested entry kept ↔ entry = kept := by
  constructor
  · intro h
    cases h with
    | plain => rfl
    | granting hkinds => exact absurd hplain (not_plain_of_grantKinds hkinds)
  · rintro rfl
    exact .plain hplain

/-- **Which entries are kept, and what of them.** -/
theorem retainEntry_eq_some {partition : String} {packages : Packages} {entry kept : Node} :
    retainEntry partition packages entry = some kept ↔
      ∃ requested, IsEntry partition packages entry requested ∧ Retains requested entry kept := by
  unfold retainEntry
  cases hpackage : entry.attributes["package"]? with
  | none =>
    refine ⟨fun h => (nomatch h), fun ⟨_, ⟨package, _, hsome, _⟩, _⟩ => ?_⟩
    rw [hpackage] at hsome
    cases hsome
  | some package =>
    dsimp only
    cases howner : packages[package]? with
    | none =>
      refine ⟨fun h => (nomatch h), fun ⟨_, ⟨_, _, hsame, hsome, _⟩, _⟩ => ?_⟩
      rw [hpackage] at hsame
      cases hsame
      rw [howner] at hsome
      cases hsome
    | some selection =>
      obtain ⟨owner, requested⟩ := selection
      -- the package decides what is requested; the kind decides the rest
      have hentry : ∀ {requested'}, IsEntry partition packages entry requested' ↔
          requested' = requested ∧ ((entry.name = "privapp-permissions" ∧ owner = partition) ∨
            entry.name = "exception" ∨ entry.name ∈ PLAIN) := by
        intro requested'
        unfold IsEntry
        simp only [hpackage, Option.some.injEq, exists_and_left, exists_eq_left', howner,
          Prod.mk.injEq]
        constructor
        · rintro ⟨_, ⟨rfl, rfl⟩, hkind⟩
          exact ⟨rfl, hkind⟩
        · rintro ⟨rfl, hkind⟩
          exact ⟨owner, ⟨rfl, rfl⟩, hkind⟩
      simp only [hentry, and_assoc, exists_eq_left]
      by_cases hpriv : entry.name = "privapp-permissions"
      · rw [if_pos hpriv, retains_granting (grantKinds_privapp hpriv)]
        have hother : ¬ (entry.name = "exception" ∨ entry.name ∈ PLAIN) := by
          rw [hpriv]
          decide
        by_cases howned : owner = partition
        · rw [if_neg (not_not.2 howned)]
          exact (and_iff_right (.inl ⟨hpriv, howned⟩)).symm
        · rw [if_pos howned]
          refine ⟨fun h => (nomatch h), fun ⟨hkind, _⟩ => ?_⟩
          rcases hkind with ⟨-, hsame⟩ | hkind
          · exact absurd hsame howned
          · exact absurd hkind hother
      · rw [if_neg hpriv]
        by_cases hexception : entry.name = "exception"
        · rw [if_pos hexception, retains_granting (grantKinds_exception hexception)]
          exact (and_iff_right (.inr (.inl hexception))).symm
        · rw [if_neg hexception]
          by_cases hplain : entry.name ∈ PLAIN
          · rw [if_pos hplain, retains_plain hplain, Option.some.injEq]
            exact (and_iff_right (.inr (.inr hplain))).symm
          · rw [if_neg hplain]
            refine ⟨fun h => (nomatch h), fun ⟨hkind, _⟩ => ?_⟩
            rcases hkind with ⟨hname, -⟩ | hname | hname
            · exact absurd hname hpriv
            · exact absurd hname hexception
            · exact absurd hname hplain

theorem Retains.depth_le {requested : Finset String} {entry kept : Node}
    (h : Retains requested entry kept) : kept.depth ≤ entry.depth := by
  cases h with
  | plain => exact le_rfl
  | granting =>
    exact depth_le_of_children fun child hchild =>
      ⟨child, List.mem_of_mem_filter hchild, le_rfl⟩

theorem Retains.isEntry {partition : String} {packages : Packages} {requested : Finset String}
    {entry kept : Node} (h : Retains requested entry kept)
    (hentry : IsEntry partition packages entry requested) :
    IsEntry partition packages kept requested := by
  cases h with
  | plain => exact hentry
  | granting => exact hentry

/-- The root with what is kept of its entries. -/
def selected (partition : String) (packages : Packages) (root : Node) : Node :=
  { root with children := root.children.filterMap (retainEntry partition packages) }

/-- **What is returned reads as the selected tree.** -/
theorem select_reads {document : Document} {partition : String} {packages : Packages}
    {out : List Event} (h : select document partition packages = .ok (some out)) :
    ∃ root, parse document.events = .ok root ∧
      parse out = .ok (selected partition packages root) := by
  obtain ⟨root, hroot, h⟩ := bind_eq_ok.1 h
  refine ⟨root, hroot, ?_⟩
  have hdepth : (selected partition packages root).depth ≤ MAX_NESTING := by
    refine (depth_le_of_children fun child hchild => ?_).trans (parse_depth hroot)
    obtain ⟨entry, hentry, hkept⟩ := List.mem_filterMap.1 hchild
    obtain ⟨_, -, hretains⟩ := retainEntry_eq_some.1 hkept
    exact ⟨entry, hentry, hretains.depth_le⟩
  split at h
  · cases h
  · dsimp only at h
    split at h
    · cases h
    · obtain ⟨source, -, h⟩ := bind_eq_ok.1 h
      obtain ⟨comments, hcomments, h⟩ := bind_eq_ok.1 h
      cases h
      unfold parse
      rw [parseLoop_comments (notices_comments hcomments)]
      exact parse_write hdepth

/-! ## The policy -/

/-- A path from an element down to one inside it. -/
inductive Reaches : Node → List Node → Prop
  | here (node : Node) : Reaches node [node]
  | inside {node child : Node} {path : List Node} (hchild : child ∈ node.children)
      (hpath : Reaches child path) : Reaches node (node :: path)

/-- Which elements may stand where: the root, below it entries, and below some of these the
    permissions that the entry's package requests. -/
def Allowed (partition : String) (packages : Packages) : List Node → Prop
  | [_] => True
  | [_, entry] => ∃ requested, IsEntry partition packages entry requested
  | [_, entry, child] => ∃ requested, IsEntry partition packages entry requested ∧
      (entry.name = "privapp-permissions" ∨ entry.name = "exception") ∧
      (child.name = "permission" ∨ child.name = "deny-permission") ∧
      ∃ name ∈ requested, child.attributes["name"]? = some name
  | _ => False

/-- **The policy**, for elements at every depth. -/
def InPolicy (partition : String) (packages : Packages) (root : Node) : Prop :=
  ∀ path, Reaches root path → Allowed partition packages path

/-- Nothing is nested where the selection does not look: in the plain entries of the selected
    packages, and in the permissions that they request. -/
def Shallow (partition : String) (packages : Packages) (root : Node) : Prop :=
  ∀ entry ∈ root.children, ∀ requested, IsEntry partition packages entry requested →
    (entry.name ∈ PLAIN → entry.children = []) ∧
    ∀ kinds, grantKinds entry.name = some kinds → ∀ child ∈ entry.children,
      grants kinds requested child = true → child.children = []

theorem grantKinds_eq_some {kind : String} {kinds : List String}
    (h : grantKinds kind = some kinds) : (kind = "privapp-permissions" ∨ kind = "exception") ∧
      ∀ name ∈ kinds, name = "permission" ∨ name = "deny-permission" := by
  unfold grantKinds at h
  split at h
  case isTrue hkind =>
    cases h
    exact ⟨.inl hkind, by simp⟩
  case isFalse =>
    split at h
    case isTrue hkind =>
      cases h
      exact ⟨.inr hkind, by simp⟩
    case isFalse => cases h

theorem grants_iff {kinds : List String} {requested : Finset String} {child : Node} :
    grants kinds requested child = true ↔
      child.name ∈ kinds ∧ ∃ name ∈ requested, child.attributes["name"]? = some name := by
  unfold grants
  rw [Bool.and_eq_true, List.contains_iff_mem, Option.any_eq_true]
  refine and_congr_right fun _ => ?_
  simp [and_comm]

theorem policy_of_shallow {partition : String} {packages : Packages} {root : Node}
    (h : Shallow partition packages root) :
    InPolicy partition packages (selected partition packages root) := by
  intro path hpath
  cases hpath with
  | here => trivial
  | inside hkept hpath =>
    obtain ⟨entry, hentry, hretain⟩ := List.mem_filterMap.1 hkept
    obtain ⟨requested, hisEntry, hretains⟩ := retainEntry_eq_some.1 hretain
    obtain ⟨hplain, hgranted⟩ := h entry hentry requested hisEntry
    have hkeptEntry := hretains.isEntry hisEntry
    cases hpath with
    | here => exact ⟨requested, hkeptEntry⟩
    | inside hchild hpath =>
      cases hretains with
      | plain hkind =>
        -- a plain entry is kept as it is, and holds nothing
        rw [hplain hkind] at hchild
        cases hchild
      | granting hkind =>
        obtain ⟨hmem, hgrant⟩ := List.mem_filter.1 hchild
        obtain ⟨hname, hrequest⟩ := grants_iff.1 hgrant
        obtain ⟨hentryKind, hchildKinds⟩ := grantKinds_eq_some hkind
        cases hpath with
        | here => exact ⟨requested, hkeptEntry, hentryKind, hchildKinds _ hname, hrequest⟩
        | inside hgrandchild =>
          rw [hgranted _ hkind _ hmem hgrant] at hgrandchild
          cases hgrandchild

theorem shallow_of_policy {partition : String} {packages : Packages} {root : Node}
    (h : InPolicy partition packages (selected partition packages root)) :
    Shallow partition packages root := by
  intro entry hentry requested hisEntry
  -- what is kept of the entry stands in the selected tree, with all that is nested in it
  have hreach : ∀ {kept path}, Retains requested entry kept → Reaches kept path →
      Allowed partition packages (selected partition packages root :: path) := by
    intro kept path hretains hpath
    refine h _ (.inside (List.mem_filterMap.2 ⟨entry, hentry, ?_⟩) hpath)
    exact retainEntry_eq_some.2 ⟨requested, hisEntry, hretains⟩
  refine ⟨fun hkind => ?_, fun kinds hkind child hchild hgrant => ?_⟩
  · refine List.eq_nil_iff_forall_not_mem.2 fun child hchild => ?_
    obtain ⟨_, -, hgranting, -⟩ := hreach (.plain hkind) (.inside hchild (.here child))
    rcases hgranting with hname | hname
    · rw [hname] at hkind
      exact absurd hkind (by decide)
    · rw [hname] at hkind
      exact absurd hkind (by decide)
  · have hmem : child ∈ entry.children.filter (grants kinds requested) :=
      List.mem_filter.2 ⟨hchild, hgrant⟩
    refine List.eq_nil_iff_forall_not_mem.2 fun inner hinner => ?_
    exact hreach (.granting hkind (List.ne_nil_of_mem hmem))
      (.inside hmem (.inside hinner (.here inner)))

/-- **What is imported stays within the policy** at every depth, exactly if nothing is nested in a
    plain entry of a selected package or in a permission that it requests. -/
theorem selection_in_policy_iff {document : Document} {partition : String} {packages : Packages}
    {out : List Event} (h : select document partition packages = .ok (some out)) :
    ∃ root imported, parse document.events = .ok root ∧ parse out = .ok imported ∧
      (InPolicy partition packages imported ↔ Shallow partition packages root) := by
  obtain ⟨root, hroot, hout⟩ := select_reads h
  exact ⟨root, _, hroot, hout, shallow_of_policy, policy_of_shallow⟩

def samplePackages : Packages :=
  (∅ : Packages).insert "com.google.android.gms" ("product", {"android.permission.INTERNET"})

/-- Two permissions of a selected package, one of them requested. -/
def sampleDocument : Document where
  source := some []
  events :=
    [.start (.ok ⟨"permissions", []⟩),
      .start (.ok ⟨"privapp-permissions", [("package", "com.google.android.gms")]⟩),
      .empty (.ok ⟨"permission", [("name", "android.permission.INTERNET")]⟩),
      .empty (.ok ⟨"permission", [("name", "android.permission.MASTER_CLEAR")]⟩),
      .stop, .stop]

theorem selection_in_policy_sample :
    ∃ out root imported, select sampleDocument "product" samplePackages = .ok (some out) ∧
      parse sampleDocument.events = .ok root ∧ parse out = .ok imported ∧
      (InPolicy "product" samplePackages imported ↔ Shallow "product" samplePackages root) := by
  have h : ∃ out, select sampleDocument "product" samplePackages = .ok (some out) := ⟨_, rfl⟩
  obtain ⟨out, hout⟩ := h
  obtain ⟨root, imported, hroot, himported, hiff⟩ := selection_in_policy_iff hout
  exact ⟨out, root, imported, hout, hroot, himported, hiff⟩

/-- A feature claim inside an entry that is kept as it is. -/
def nestedDocument : Document where
  source := some []
  events :=
    [.start (.ok ⟨"permissions", []⟩),
      .start (.ok ⟨"app-link", [("package", "com.google.android.gms")]⟩),
      .empty (.ok ⟨"feature", [("name", "com.google.android.feature.PIXEL_2025_EXPERIENCE")]⟩),
      .stop, .stop]

/-- **A nested feature claim is imported.** -/
theorem nested_feature_imported :
    ∃ out imported path, select nestedDocument "product" samplePackages = .ok (some out) ∧
      parse out = .ok imported ∧ Reaches imported path ∧
      path.map Node.name = ["permissions", "app-link", "feature"] ∧
      ¬ InPolicy "product" samplePackages imported := by
  refine ⟨_, _, _, rfl, rfl, .inside List.mem_cons_self (.inside List.mem_cons_self (.here _)), rfl,
    fun h => ?_⟩
  obtain ⟨_, -, hkind, -⟩ :=
    h _ (.inside List.mem_cons_self (.inside List.mem_cons_self (.here _)))
  revert hkind
  decide

end Droidloom.GappsConfig
