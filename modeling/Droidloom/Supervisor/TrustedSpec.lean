/-
  Which specification a cell is entered with.

  The daemon looks at a specification path five times and the namespace process that it spawns
  twice more; every look resolves the path anew.  A peer that owns a directory on the way can put
  something else there between two looks, and then the cell is entered with a file that no check
  has seen (`switched_link_enters_untrusted`).  Where nothing on the way belongs to the peer, all
  looks agree (`shielded_enters_trusted`).
-/
import Droidloom.Supervisor.Ownership

namespace Droidloom.Supervisor

open Fallible FileTree Triple Relation

variable {Spec : Type}

/-! ## Entering the cell -/

/-- `development-enter --spec`: the namespace process reads the path again. -/
def developmentEnter [CellSpec Spec] (atStat atRead : FileSystem) (path : String) :
    Except String Spec := do
  let metadata ← mapErr FileTree.Error.text (atStat.metadata path)
  rejectIf (metadata.len > MAX_SPEC_BYTES) ("cell specification is " ++ toString metadata.len ++
    " bytes; maximum is " ++ toString MAX_SPEC_BYTES)
  let content ← mapErr FileTree.Error.text (atRead.read path)
  CellSpec.parse content

/-- The path leads to a root-owned regular file below the directory that only root can write. -/
def Trusted (fs : FileSystem) (directory path : String) : Prop :=
  ∃ place top node, fs.resolve path = .ok place ∧ fs.resolve directory = .ok top ∧
    fs place.inode = some node ∧ trustedSpec node place.names top.names = true

theorem resolve_unique_of_canonicalize {fs : FileSystem} {path : String} {place : Place}
    {names : List String} (hplace : fs.resolve path = .ok place)
    (hnames : fs.canonicalize path = .ok names) : names = place.names := by
  obtain ⟨place', hplace', hpure⟩ := bind_eq_ok.mp hnames
  rw [hplace] at hplace'
  cases hplace'
  exact (pure_eq_ok.mp hpure).symm

/-- **What a path leads to cannot be moved** by someone without whose nodes it resolves: what the
    checks saw at three different steps is what any later look finds. -/
theorem Inspected.trusted {host : Host} {peer : UInt32} {since : Nat} {path : String}
    (h : Inspected host peer since path) (hpeer : peer ≠ 0)
    (hchanges : ∀ t, since ≤ t → FileSystem.Changes peer (host.files since) (host.files t))
    {place top : Place} (hplace : ((host.files since).without peer).resolve path = .ok place)
    (htop : ((host.files since).without peer).resolve host.specDirectory = .ok top)
    (t : Nat) (ht : since ≤ t) : Trusted (host.files t) host.specDirectory path := by
  obtain ⟨t₀, t₁, t₂, metadata, canonical, directory, h₀, h₁, h₂, hmetadata, hcanonical,
    hdirectory, htrusted⟩ := h hpeer
  have hstays : ∀ t, since ≤ t → (host.files t).resolve path = .ok place :=
    fun t ht => FileSystem.resolve_stable (hchanges t ht) hplace
  have hstaysTop : ∀ t, since ≤ t → (host.files t).resolve host.specDirectory = .ok top :=
    fun t ht => FileSystem.resolve_stable (hchanges t ht) htop
  obtain ⟨end₀, hend, hnode⟩ := bind_eq_ok.mp hmetadata
  rw [FileSystem.node_eq_ok] at hnode
  rw [resolve_unique_of_canonicalize (hstays t₁ h₁) hcanonical,
    resolve_unique_of_canonicalize (hstaysTop t₂ h₂) hdirectory] at htrusted
  have hparts := htrusted
  simp only [trustedSpec, Bool.and_eq_true, decide_eq_true_eq] at hparts
  obtain ⟨⟨⟨hfile, howner⟩, _⟩, _⟩ := hparts
  -- a regular file is no link, so following makes no difference
  have hfollow : (host.files t₀).resolve path = .ok end₀ := by
    refine FileSystem.place_follow hend fun node hnode' => ?_
    rw [hnode] at hnode'
    cases hnode'
    unfold Node.isFile at hfile
    unfold Node.target
    split at hfile <;> simp_all
  rw [hstays t₀ h₀] at hfollow
  cases hfollow
  -- and it is root's, so the peer has not replaced it
  have howner' : metadata.owner ≠ peer := howner ▸ hpeer.symm
  have hback : FileSystem.Changes peer (host.files t₀) (host.files t) :=
    (hchanges t₀ h₀).symm.trans (hchanges t ht)
  exact ⟨place, top, metadata, hstays t ht, hstaysTop t ht, hback.node hnode howner', htrusted⟩

/-! ## Which cells a request starts -/

section Moves
variable {may : Spec → Prop} {opens : String → Prop} {s s' : System Spec}

theorem Move.opened (h : Move may opens s s') : ∃ new, s'.effects = s.effects ++ new ∧
    ∀ cell path spec, .started cell path spec ∈ new → opens path := by
  cases h with
  | quiet hquiet => exact ⟨[], by simp [hquiet.effects], by simp⟩
  | remember pid hactive => exact ⟨[], by simp, by simp⟩
  | contact what hactive _ => exact ⟨_, rfl, by simp⟩
  | forget hactive hdead hquiet => exact ⟨[], by simp [hquiet.effects], by simp⟩
  | stop hactive _ htouches hdead =>
    obtain ⟨new, heffects, hnew⟩ := htouches.effects
    refine ⟨new, heffects, fun cell path spec hmem => ?_⟩
    rcases hnew _ hmem with heq | heq <;> cases heq
  | start hactive _ hopens hquiet hprocess =>
    refine ⟨_, hquiet.effects, fun cell path spec hmem => ?_⟩
    cases List.mem_singleton.mp hmem
    exact hopens

theorem reach_opened (h : Reach may opens s s') : ∃ new, s'.effects = s.effects ++ new ∧
    ∀ cell path spec, .started cell path spec ∈ new → opens path := by
  induction h with
  | refl => exact ⟨[], by simp, by simp⟩
  | tail _ hmove ih =>
    obtain ⟨new₁, heq₁, hnew₁⟩ := ih
    obtain ⟨new₂, heq₂, hnew₂⟩ := hmove.opened
    refine ⟨new₁ ++ new₂, by rw [heq₂, heq₁, List.append_assoc], fun cell path spec hmem => ?_⟩
    rcases List.mem_append.mp hmem with hmem | hmem
    · exact hnew₁ cell path spec hmem
    · exact hnew₂ cell path spec hmem

end Moves

/-! ## Only trusted specifications -/

/-- A path that resolves without the nodes of `peer`. -/
def Shielded (fs : FileSystem) (peer : UInt32) (path : String) : Prop :=
  ∃ place, (fs.without peer).resolve path = .ok place

section Entries
variable [DecidableEq Spec] [CellSpec Spec]

/-- Whenever serving the request leads to a cell being entered, whenever after that the namespace
    process gets to its two looks at the path, it reads a trusted specification. -/
def EntersTrusted (host : Host) (peer : UInt32) (request : ControlRequest) (file : Option String)
    (s : System Spec) : Prop :=
  ∀ new, (handle host peer request file s).2.effects = s.effects ++ new →
    ∀ cell path spec, .started cell path spec ∈ new →
      ∀ atStat atRead, s.clock ≤ atStat → atStat ≤ atRead →
        ∀ entered : Spec,
          developmentEnter (host.files atStat) (host.files atRead) path = .ok entered →
            Trusted (host.files atRead) host.specDirectory path

theorem changes_since {host : Host} {peer : UInt32} {since : Nat}
    (hchanges : ∀ t, since ≤ t → FileSystem.Changes peer (host.files t) (host.files (t + 1)))
    (t : Nat) (ht : since ≤ t) : FileSystem.Changes peer (host.files since) (host.files t) := by
  induction t, ht using Nat.le_induction with
  | base => rfl
  | succ t ht ih => exact ih.trans (hchanges t ht)

/-- **Only trusted specifications start a cell** when the path and the trusted directory resolve,
    as the request arrives, without anything that belongs to the peer: then whatever the peer does
    with its own directories between any two steps, each step finds what the checks found. -/
theorem shielded_enters_trusted (host : Host) (peer : UInt32) (request : ControlRequest)
    (file : Option String) (s : System Spec) (hpeer : peer ≠ 0)
    (hchanges : ∀ t, s.clock ≤ t → FileSystem.Changes peer (host.files t) (host.files (t + 1)))
    (hdirectory : Shielded (host.files s.clock) peer host.specDirectory)
    (hpath : ∀ path, request.specPath = some path → Shielded (host.files s.clock) peer path) :
    EntersTrusted host peer request file s := by
  intro new heq cell path spec hmem atStat atRead hstat hread entered _
  obtain ⟨new', heq', hopens⟩ := reach_opened (handle_reach host peer request file s)
  rw [heq, List.append_cancel_left_eq] at heq'
  obtain ⟨hwanted, hinspected⟩ := hopens cell path spec (heq' ▸ hmem)
  obtain ⟨top, htop⟩ := hdirectory
  obtain ⟨place, hplace⟩ := hpath path hwanted
  exact hinspected.trusted hpeer (changes_since hchanges) hplace htop atRead (hstat.trans hread)

end Entries

/-! ## A link that is switched -/

/-- A specification of one byte. -/
structure ByteSpec where
  byte : UInt8
deriving DecidableEq, Repr

instance : CellSpec ByteSpec where
  parse
    | [byte] => .ok { byte }
    | _ => .error "expected one byte"
  validate _ := .ok ()
  id _ := "cell"
  hostUid _ := 1000

/-- User 1000 has a link to the trusted directory or to a directory of their own. -/
def homeTree (link : Nat) : FileSystem
  | 0 => some ⟨0, 0o755, .directory 4096 [("etc", 1), ("home", 4)]⟩
  | 1 => some ⟨0, 0o755, .directory 4096 [("droidloom", 2)]⟩
  | 2 => some ⟨0, 0o755, .directory 4096 [("cell.json", 3)]⟩
  | 3 => some ⟨0, 0o644, .file [1]⟩
  | 4 => some ⟨0, 0o755, .directory 4096 [("user", 5)]⟩
  | 5 => some ⟨1000, 0o755, .directory 4096 [("link", link), ("own", 8)]⟩
  | 6 => some ⟨1000, 0o777, .link "/etc/droidloom"⟩
  | 7 => some ⟨1000, 0o777, .link "/home/user/own"⟩
  | 8 => some ⟨1000, 0o755, .directory 4096 [("cell.json", 9)]⟩
  | 9 => some ⟨1000, 0o644, .file [2]⟩
  | _ => none

theorem homeTree_changes (link link' : Nat) :
    FileSystem.Changes 1000 (homeTree link) (homeTree link') := by
  funext inode
  unfold FileSystem.without homeTree
  split <;> rfl

/-- A quiet host on which the link is switched once the cell has been spawned. -/
def switchingHost : Host where
  specDirectory := "/etc/droidloom"
  exits _ _ := false
  status _ := "exit status: 0"
  files t := homeTree (if t < 13 then 6 else 7)
  attempt _ := .ok ()
  present _ := true
  patience _ := 0
  ready _ := .ok 1
  initPid _ := .ok none
  reply _ := .ok ""

/-- **A switched link.**  Every check of the daemon sees the trusted file, and the cell is entered
    with the user's own. -/
theorem switched_link_enters_untrusted :
    (∀ t, FileSystem.Changes 1000 (switchingHost.files t) (switchingHost.files (t + 1))) ∧
    (handle switchingHost 1000 (.start "/home/user/link/cell.json") none
      ({} : System ByteSpec)).2.effects = [.started 0 "/home/user/link/cell.json" ⟨1⟩] ∧
    (handle switchingHost 1000 (.start "/home/user/link/cell.json") none
      ({} : System ByteSpec)).2.clock = 13 ∧
    developmentEnter (switchingHost.files 13) (switchingHost.files 14)
      "/home/user/link/cell.json" = .ok (⟨2⟩ : ByteSpec) ∧
    ¬ EntersTrusted switchingHost 1000 (.start "/home/user/link/cell.json") none
      ({} : System ByteSpec) := by
  have heffects : (handle switchingHost 1000 (.start "/home/user/link/cell.json") none
      ({} : System ByteSpec)).2.effects = [.started 0 "/home/user/link/cell.json" ⟨1⟩] := by
    decide +kernel
  have henter : developmentEnter (switchingHost.files 13) (switchingHost.files 14)
      "/home/user/link/cell.json" = .ok (⟨2⟩ : ByteSpec) := by
    decide +kernel
  refine ⟨fun t => homeTree_changes _ _, heffects, by decide +kernel, henter, fun h => ?_⟩
  obtain ⟨place, top, node, hplace, _, hnode, htrusted⟩ :=
    h _ heffects 0 _ ⟨1⟩ (List.mem_singleton.mpr rfl) 13 14 (by decide) (by decide) ⟨2⟩ henter
  have hevil : (switchingHost.files 14).resolve "/home/user/link/cell.json" =
      .ok [("cell.json", 9), ("own", 8), ("user", 5), ("home", 4)] := by
    decide +kernel
  rw [hevil] at hplace
  cases hplace
  cases hnode
  simp [trustedSpec] at htrusted

theorem shielded_enters_trusted_etc :
    .started 0 "/etc/droidloom/cell.json" ⟨1⟩ ∈ (handle switchingHost 1000
      (.start "/etc/droidloom/cell.json") none ({} : System ByteSpec)).2.effects ∧
    EntersTrusted switchingHost 1000 (.start "/etc/droidloom/cell.json") none
      ({} : System ByteSpec) := by
  refine ⟨by decide +kernel, shielded_enters_trusted _ _ _ _ _ (by decide)
    (fun t _ => homeTree_changes _ _) ?_ ?_⟩
  · exact ⟨[("droidloom", 2), ("etc", 1)], by decide +kernel⟩
  · rintro _ ⟨⟩
    exact ⟨[("cell.json", 3), ("droidloom", 2), ("etc", 1)], by decide +kernel⟩

end Droidloom.Supervisor
