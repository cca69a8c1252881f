/-
  Android's notifications, as the desktop's bridge receives them (`droidloom-wayland`,
  `notifications`).

  A peer streams frames: a snapshot of what is active, then posts and removals that name the version
  they are about.  Whole frames are cut out of a growing buffer, checked against the session so far
  and turned into UPDATES for the desktop; the first frame out of order ends the connection.  Where
  the reads cut the stream does not matter (`receive_any_reads`), and the updates lead to just what
  the peer holds active (`receive_mirrors`).  The JSON decoder of a frame is a parameter.
-/
import Droidloom.Lib.ByteCodec
import Droidloom.Lib.TextFields

namespace Droidloom.Notifications

open ByteCodec (Bytes ofBeBytes)

def MAX_FRAME : Nat := 131072
def MAX_ACTIVE : Nat := 256

/-- `BTreeMap<String, _>` -/
abbrev Map (α : Type) := Std.ExtTreeMap String α compare

/-! ## Frames -/

structure Action where
  key : String
  label : String

structure Note where
  key : String
  version : String
  package : String
  app : String
  title : String
  body : String
  actions : List Action
  urgency : UInt8
  icon : Bytes

/-- `str::parse::<u8>`, which takes a plus sign. -/
def parseU8 (text : List Char) : Option Nat :=
  let digits := if text.head? = some '+' then text.tail else text
  let value := digits.foldl (fun n c => 10 * n + (c.toNat - '0'.toNat)) 0
  if digits ≠ [] ∧ digits.all Char.isDigit ∧ value < 256 then some value else none

def Action.valid (a : Action) : Bool :=
  (a.key = "default" ∨
      (TextLines.stripPrefix "action-".toList a.key.toList).any fun n => (parseU8 n).any (· < 16)) ∧
    a.label.utf8ByteSize ≤ 1024 ∧ '\x00' ∉ a.label.toList

def Note.valid (n : Note) : Bool :=
  n.key ≠ "" ∧ n.key.utf8ByteSize ≤ 2048 ∧ n.version ≠ "" ∧ n.version.utf8ByteSize ≤ 96 ∧
    n.package.utf8ByteSize ≤ 256 ∧
    n.package.toList.all (fun c => c.isAlphanum || c = '.' || c = '_') ∧
    n.app.utf8ByteSize ≤ 1024 ∧ n.title.utf8ByteSize ≤ 8192 ∧ n.body.utf8ByteSize ≤ 32768 ∧
    (∀ s ∈ [n.key, n.version, n.app, n.title, n.body], '\x00' ∉ s.toList) ∧ n.urgency ≤ 2 ∧
    (n.icon = [] ∨ n.icon.length = 48 * 48 * 4) ∧ n.actions.length ≤ 17 ∧ n.actions.all Action.valid

inductive Frame where
  | hello (abi : UInt32)
  | begin
  | post (notification : Note)
  | remove (key version : String)
  | end

/-- What a peer has said so far. -/
structure Session where
  hello : Bool := false
  snapshot : Option (Map Note) := none
  known : Map String := ∅
  synced : Bool := false

/-- Without its socket. -/
structure Peer extends Session where
  buffer : Bytes := []

inductive Update where
  | snapshot (notes : Map Note)
  | post (note : Note)
  | remove (key version : String)

/-- The `match` of `Peer::ingest`. -/
def Session.take (p : Session) (frame : Frame) : Except String (Session × List Update) :=
  let sequence := .error "invalid notification sequence"
  match frame with
  | .hello abi => if abi = 2 ∧ ¬ p.hello then .ok ({ p with hello := true }, []) else sequence
  | .begin =>
    if p.hello ∧ p.snapshot.isNone then .ok ({ p with snapshot := some ∅ }, []) else sequence
  | .post n =>
    if p.hello ∧ n.valid then
      match p.snapshot with
      | some snapshot =>
        if MAX_ACTIVE ≤ snapshot.size ∨ n.key ∈ snapshot then .error "invalid notification snapshot"
        else .ok ({ p with snapshot := some (snapshot.insert n.key n) }, [])
      | none =>
        if ¬ p.synced ∨ (n.key ∉ p.known ∧ MAX_ACTIVE ≤ p.known.size) then
          .error "notification delta before snapshot or over capacity"
        else .ok ({ p with known := p.known.insert n.key n.version }, [.post n])
    else sequence
  | .end =>
    if p.hello then
      match p.snapshot with
      | none => .error "end outside snapshot"
      | some snapshot =>
        .ok ({ p with snapshot := none, known := snapshot.map fun _ n => n.version, synced := true },
          [.snapshot snapshot])
    else sequence
  | .remove key version =>
    if p.hello ∧ p.synced ∧ p.snapshot.isNone ∧ key ≠ "" ∧ key.utf8ByteSize ≤ 2048 ∧
        version ≠ "" ∧ version.utf8ByteSize ≤ 96 then
      if p.known[key]? = some version then
        .ok ({ p with known := p.known.erase key }, [.remove key version])
      else .ok (p, [])
    else sequence

variable (decode : Bytes → Except String Frame)

/-- The loop of `Peer::ingest`: the frames that the buffer holds whole. -/
def drain (p : Session) (buffer : Bytes) : Except String (Peer × List Update) :=
  if buffer.length < 4 then .ok (⟨p, buffer⟩, [])
  else
    let length := ofBeBytes (buffer.take 4)
    if length = 0 ∨ MAX_FRAME < length then .error "invalid notification frame"
    else if buffer.length < length + 4 then .ok (⟨p, buffer⟩, [])
    else do
      let frame ← decode ((buffer.drop 4).take length)
      let done ← p.take frame
      let rest ← drain done.1 (buffer.drop (length + 4))
      return (rest.1, done.2 ++ rest.2)
termination_by buffer.length
decreasing_by simp only [List.length_drop]; omega

def Peer.ingest (p : Peer) (bytes : Bytes) : Except String (Peer × List Update) :=
  drain decode p.toSession (p.buffer ++ bytes)

/-- Bytes behind the buffer wait until its whole frames are taken. -/
theorem drain_append (p : Session) (buffer bytes : Bytes) :
    drain decode p (buffer ++ bytes) = (do
      let first ← drain decode p buffer
      let second ← first.1.ingest decode bytes
      return (second.1, first.2 ++ second.2)) := by
  have hwait (p : Session) (buffer : Bytes) : drain decode p (buffer ++ bytes) = (do
      let second ← Peer.ingest decode ⟨p, buffer⟩ bytes
      return (second.1, [] ++ second.2)) := by
    rw [Peer.ingest]
    cases drain decode p (buffer ++ bytes) <;> rfl
  fun_induction drain decode p buffer with
  | case1 p buffer hshort => exact hwait p buffer
  | case3 p buffer hhead length hgood hpart => exact hwait p buffer
  | case2 p buffer hhead length hbad =>
    have htake : (buffer ++ bytes).take 4 = buffer.take 4 :=
      List.take_append_of_le_length (by omega)
    rw [drain]
    simp only [List.length_append, htake]
    rw [if_neg (by omega), if_pos hbad]
    rfl
  | case4 p buffer hhead length hgood hwhole ih =>
    have htake : (buffer ++ bytes).take 4 = buffer.take 4 :=
      List.take_append_of_le_length (by omega)
    have hframe : ((buffer ++ bytes).drop 4).take length = (buffer.drop 4).take length := by
      rw [List.drop_append_of_le_length (by omega), List.take_append_of_le_length]
      rw [List.length_drop]
      omega
    have hrest : (buffer ++ bytes).drop (length + 4) = buffer.drop (length + 4) ++ bytes :=
      List.drop_append_of_le_length (by omega)
    rw [drain]
    simp only [List.length_append, htake]
    rw [if_neg (by omega), if_neg hgood, if_neg (by omega), hframe, hrest]
    simp only [bind_assoc, pure_bind, ih, List.append_assoc]

/-- A new peer's reads, one after the other. -/
def receive (reads : List Bytes) : Except String (Peer × List Update) :=
  reads.foldlM (fun soFar bytes => do
    let next ← soFar.1.ingest decode bytes
    return (next.1, soFar.2 ++ next.2)) ({}, [])

theorem receive_concat (reads : List Bytes) (bytes : Bytes) :
    receive decode (reads ++ [bytes]) = (do
      let soFar ← receive decode reads
      let next ← soFar.1.ingest decode bytes
      return (next.1, soFar.2 ++ next.2)) := by
  rw [receive, List.foldlM_append]
  simp only [List.foldlM_cons, List.foldlM_nil, bind_pure]
  rfl

/-- **Reads may cut the stream anywhere.**  Any reads that bring the same bytes yield the same
    updates, or the same error. -/
theorem receive_any_reads (reads : List Bytes) :
    receive decode reads = Peer.ingest decode {} reads.flatten := by
  induction reads using List.reverseRecOn with
  | nil =>
    rw [Peer.ingest, drain]
    rfl
  | append_singleton reads bytes ih =>
    rw [receive_concat, ih, List.flatten_concat]
    exact (drain_append decode {} reads.flatten bytes).symm

/-! ## The updates say what the peer holds active -/

/-- The versions that are active after an update. -/
def replay (active : Map String) : Update → Map String
  | .snapshot notes => notes.map fun _ n => n.version
  | .post note => active.insert note.key note.version
  | .remove key _ => active.erase key

/-- Within capacity, and each note valid and under its own key. -/
def Filed (notes : Map Note) : Prop :=
  notes.size ≤ MAX_ACTIVE ∧ ∀ (k : String) (n : Note), notes[k]? = some n → n.key = k ∧ n.valid

def Update.Checked : Update → Prop
  | .snapshot notes => Filed notes
  | .post note => note.valid
  | .remove _ _ => True

/-- What holds of a session whose updates so far are `updates`. -/
structure Told (updates : List Update) (p : Session) : Prop where
  known_eq : p.known = updates.foldl replay ∅
  known_size : p.known.size ≤ MAX_ACTIVE
  checked : ∀ u ∈ updates, u.Checked
  snapshot : ∀ notes ∈ p.snapshot, Filed notes

variable {p q : Session} {soFar updates : List Update}

theorem Filed.insert {notes : Map Note} {n : Note} (h : Filed notes) (hvalid : n.valid)
    (hroom : notes.size < MAX_ACTIVE) : Filed (notes.insert n.key n) := by
  constructor
  · rw [Std.ExtTreeMap.size_insert]
    split <;> omega
  · intro k m hm
    rw [Std.ExtTreeMap.getElem?_insert] at hm
    split at hm
    · next heq =>
      cases hm
      exact ⟨Std.LawfulEqOrd.eq_of_compare heq, hvalid⟩
    · exact h.2 k m hm

theorem Told.take {frame : Frame} (hp : Told soFar p) (h : p.take frame = .ok (q, updates)) :
    Told (soFar ++ updates) q := by
  obtain ⟨hknown, hsize, hchecked, hsnapshot⟩ := hp
  -- an update is recorded with the change of `known` that it tells
  have tell {u : Update} {q : Session} (hreplay : q.known = replay p.known u)
      (hroom : q.known.size ≤ MAX_ACTIVE) (hu : u.Checked) (hq : q.snapshot = none) :
      Told (soFar ++ [u]) q := by
    refine ⟨?_, hroom, ?_, by simp [hq]⟩
    · rw [List.foldl_concat, ← hknown, hreplay]
    · simpa [or_imp, forall_and] using ⟨hchecked, hu⟩
  cases frame <;> simp only [Session.take] at h <;> split at h
  case hello.isTrue =>
    cases h
    rw [List.append_nil]
    exact ⟨hknown, hsize, hchecked, hsnapshot⟩
  case begin.isTrue =>
    cases h
    rw [List.append_nil]
    exact ⟨hknown, hsize, hchecked, by simp [Filed]⟩
  case post.isTrue n hready =>
    split at h <;> split at h <;> cases h
    · next notes hnotes hroom =>
      rw [List.append_nil]
      refine ⟨hknown, hsize, hchecked, ?_⟩
      rintro _ ⟨⟩
      exact (hsnapshot notes hnotes).insert hready.2 (by omega)
    · next hnone hroom =>
      refine tell rfl ?_ hready.2 hnone
      rw [Std.ExtTreeMap.size_insert]
      grind
  case end.isTrue =>
    split at h <;> cases h
    next notes hnotes =>
    have hfiled := hsnapshot notes hnotes
    exact tell rfl (Std.ExtTreeMap.size_map.trans_le hfiled.1) hfiled rfl
  case remove.isTrue key version hready =>
    split at h <;> cases h
    · exact tell rfl (Std.ExtTreeMap.size_erase_le.trans hsize) trivial (by simp_all)
    · rw [List.append_nil]
      exact ⟨hknown, hsize, hchecked, hsnapshot⟩
  all_goals cases h

theorem Told.drain {buffer : Bytes} {q : Peer} (hp : Told soFar p)
    (h : drain decode p buffer = .ok (q, updates)) : Told (soFar ++ updates) q.toSession := by
  fun_induction Notifications.drain decode p buffer generalizing soFar q updates with
  | case1 p buffer hshort | case3 p buffer hhead length hgood =>
    cases h
    rwa [List.append_nil]
  | case2 p buffer hhead length => cases h
  | case4 p buffer hhead length hgood hwhole =>
    rename_i ih
    obtain ⟨frame, -, h⟩ := Fallible.bind_eq_ok.mp h
    obtain ⟨done, htake, h⟩ := Fallible.bind_eq_ok.mp h
    obtain ⟨rest, hrest, h⟩ := Fallible.bind_eq_ok.mp h
    cases h
    rw [← List.append_assoc]
    exact ih done (hp.take htake) hrest

theorem told_receive {reads : List Bytes} {p : Peer}
    (h : receive decode reads = .ok (p, updates)) : Told updates p.toSession := by
  induction reads using List.reverseRecOn generalizing p updates with
  | nil =>
    cases h
    exact ⟨rfl, Nat.zero_le _, by simp, by simp⟩
  | append_singleton reads bytes ih =>
    rw [receive_concat] at h
    obtain ⟨before, hbefore, h⟩ := Fallible.bind_eq_ok.mp h
    obtain ⟨next, hnext, h⟩ := Fallible.bind_eq_ok.mp h
    cases h
    exact (ih hbefore).drain decode hnext

/-- **The updates say what the peer holds active.**  Whatever a peer sends, in whatever reads: while
    it is connected, the versions it holds active are those that the updates lead to, never more
    than `MAX_ACTIVE`, and every note handed over was checked. -/
theorem receive_mirrors (reads : List Bytes) :
    match receive decode reads with
    | .ok (p, updates) =>
      p.known = updates.foldl replay ∅ ∧ p.known.size ≤ MAX_ACTIVE ∧ ∀ u ∈ updates, u.Checked
    | .error _ => True := by
  split
  · next p updates h =>
    have htold := told_receive decode h
    exact ⟨htold.known_eq, htold.known_size, htold.checked⟩
  · trivial

end Droidloom.Notifications
