/-
  Host-window commands (`commands.rs`).

  The queue is bounded and coalesces: a push first drops the entries it supersedes and only then
  asks for room.  Delivery peeks; an entry leaves when its own serial is acknowledged, when a later
  push supersedes it, or when its object is discarded.  An entry may therefore leave while a
  receiver still holds it, and an acknowledgement may come for an entry that is gone.

  1. `push_spec`: one specification of `push`, its two failures included;
  2. `History`: the queue with a log of what was pushed, delivered, acknowledged and discarded;
  3. `Followed`: every push of the log is still pending, superseded, discarded, or delivered and
     acknowledged, with nothing it supersedes delivered after it (`Follows.step`);
  4. `commands_converge`: what an empty queue says about closes, resizes and focus.
-/
import Droidloom.Lib.History
import Droidloom.Graphics.Composer

namespace Droidloom.TaskControl

open Std Fallible Triple

def MAX_PENDING : Nat := 256

/-- In nanoseconds, as every instant here. -/
def RESIZE_DEBOUNCE : Nat := 80000000

inductive CodecError
  | invalidValue (what : String)
deriving DecidableEq, Repr

inductive TaskAction
  | focus
  | resize (width height : UInt32)
  | close
deriving DecidableEq, Repr

def TaskAction.isResize : TaskAction → Bool
  | .resize _ _ => true
  | _ => false

structure TaskCommand where
  object : UInt64
  task : UInt64
  incarnation : UInt64
  androidDisplay : UInt32
  action : TaskAction
deriving DecidableEq, Repr

def TaskCommand.validate (command : TaskCommand) : Except CodecError Unit := do
  rejectIf (command.incarnation = 0 ∨ command.incarnation > 0x7fffffffffffffff ∨
    command.object = 0 ∨ command.object > 0x7fffffffffffffff ∨
    command.task = 0 ∨ command.task > 0x7fffffff ∨ command.androidDisplay ≠ 0)
    (.invalidValue "task command identity")
  match command.action with
  | .resize width height =>
    rejectIf (width = 0 ∨ height = 0 ∨ width > 16384 ∨ height > 16384)
      (.invalidValue "task command bounds")
  | _ => return ()

structure PendingCommand where
  serial : UInt64
  command : TaskCommand
  ready : Nat
deriving DecidableEq, Repr

structure CommandQueue where
  pending : ExtTreeMap UInt64 PendingCommand compare := ∅
  closed : Finset UInt64 := ∅
  resized : Finset UInt64 := ∅
  next : UInt64 := 0

/-- What pushing `command` drops from the queue. -/
def Supersedes (command old : TaskCommand) : Prop :=
  match command.action with
  | .close => old.object = command.object
  | .focus => old.action = .focus
  | .resize _ _ => old.object = command.object ∧ old.action.isResize = true

instance (command old : TaskCommand) : Decidable (Supersedes command old) := by
  unfold Supersedes
  split <;> infer_instance

namespace CommandQueue

abbrev Method := EStateM CodecError CommandQueue

/-! ## The operations -/

/-- The `retain` of `push`. -/
def retain (q : CommandQueue) (command : TaskCommand) : CommandQueue :=
  { q with pending := q.pending.filter fun _ entry => ¬ Supersedes command entry.command }

/-- The first resize of an object is not debounced. -/
def readyAt (q : CommandQueue) (command : TaskCommand) (now : Nat) : Nat :=
  now + if command.action.isResize ∧ command.object ∈ q.resized then RESIZE_DEBOUNCE else 0

def enqueue (q : CommandQueue) (command : TaskCommand) (serial : UInt64) (now : Nat) :
    CommandQueue where
  next := serial
  closed := if command.action = .close then insert command.object q.closed else q.closed
  resized := if command.action.isResize then insert command.object q.resized else q.resized
  pending := q.pending.insert serial { serial, command, ready := q.readyAt command now }

def push (command : TaskCommand) (now : Nat) : Method Unit := do
  mapErr id command.validate
  let q ← get
  if command.object ∈ q.closed then return ()
  else
    let serial ← okOr ((Graphics.checkedSucc q.next).filter (· ≤ 0x7fffffffffffffff))
      (.invalidValue "task command serial")
    modify (·.retain command)
    rejectIf (MAX_PENDING ≤ (← get).pending.size) (.invalidValue "task command backlog")
    modify (·.enqueue command serial now)

/-- Peek in serial order, without removing. -/
def ready (q : CommandQueue) (now : Nat) : Option PendingCommand :=
  (q.pending.toList.find? (·.2.ready ≤ now)).map (·.2)

def acknowledge (q : CommandQueue) (serial : UInt64) : CommandQueue :=
  { q with pending := q.pending.erase serial }

def discard (q : CommandQueue) (object : UInt64) : CommandQueue :=
  { q with
    pending := q.pending.filter fun _ entry => entry.command.object ≠ object
    closed := q.closed.erase object
    resized := q.resized.erase object }

variable {q : CommandQueue} {command : TaskCommand} {now : Nat}

/-- A push is ignored, accepted, or refused; a refusal for lack of room has already dropped what
    the command supersedes. -/
theorem push_spec :
    Ends (push command now) q
      (fun _ q' => (command.object ∈ q.closed ∧ q' = q) ∨
        (command.object ∉ q.closed ∧ (q.retain command).pending.size < MAX_PENDING ∧
          ∃ serial, q.next < serial ∧ q' = (q.retain command).enqueue command serial now))
      fun q' => q' = q ∨
        (q' = q.retain command ∧ MAX_PENDING ≤ (q.retain command).pending.size) := by
  refine ends_bind (Q := fun _ q' => q' = q) (ends_mapErr (fun _ _ => .inl rfl) fun _ _ => rfl) ?_
  rintro - q' rfl
  refine ends_get_bind (ends_ite (fun hclosed => ends_pure (.inl ⟨hclosed, rfl⟩)) fun hopen => ?_)
  refine ends_bind (Q := fun serial q'' => q'' = q' ∧ q'.next < serial)
    (ends_okOr (fun _ => .inl rfl) fun serial hserial => ⟨rfl, ?_⟩) ?_
  · exact Graphics.lt_of_checkedSucc (Option.filter_eq_some_iff.mp hserial).1
  · rintro serial q'' ⟨rfl, hserial⟩
    refine ends_modify_bind (ends_get_bind (ends_bind
      (Q := fun _ q' => q' = q''.retain command ∧ (q''.retain command).pending.size < MAX_PENDING)
      (ends_rejectIf (fun hfull => .inr ⟨rfl, hfull⟩) fun hroom => ⟨rfl, Nat.lt_of_not_le hroom⟩) ?_))
    rintro - q' ⟨rfl, hroom⟩
    exact ends_modify (.inr ⟨hopen, hroom, serial, hserial, rfl⟩)

theorem getElem?_retain {serial : UInt64} {p : PendingCommand} :
    (q.retain command).pending[serial]? = some p ↔
      q.pending[serial]? = some p ∧ ¬ Supersedes command p.command := by
  simp only [retain]
  grind

theorem getElem?_enqueue {serial other : UInt64} {p : PendingCommand} :
    (q.enqueue command serial now).pending[other]? = some p ↔
      (other = serial ∧ p = { serial, command, ready := q.readyAt command now }) ∨
        (other ≠ serial ∧ q.pending[other]? = some p) := by
  simp only [enqueue]
  grind

theorem getElem?_discard {object serial : UInt64} {p : PendingCommand} :
    (q.discard object).pending[serial]? = some p ↔
      q.pending[serial]? = some p ∧ p.command.object ≠ object := by
  simp only [discard]
  grind

theorem getElem?_acknowledge {serial other : UInt64} {p : PendingCommand} :
    (q.acknowledge serial).pending[other]? = some p ↔
      other ≠ serial ∧ q.pending[other]? = some p := by
  simp only [acknowledge]
  grind

theorem ready_pending {p : PendingCommand} (h : q.ready now = some p) :
    ∃ serial : UInt64, q.pending[serial]? = some p := by
  obtain ⟨⟨serial, p'⟩, hfind, rfl⟩ := Option.map_eq_some_iff.mp h
  exact ⟨serial, ExtTreeMap.mem_toList_iff_getElem?_eq_some.mp (List.mem_of_find?_eq_some hfind)⟩

/-- A full queue holds nothing that the refused command would drop. -/
theorem retain_eq_of_full (hsize : q.pending.size ≤ MAX_PENDING)
    (hfull : MAX_PENDING ≤ (q.retain command).pending.size) : q.retain command = q := by
  have hle : (q.retain command).pending.size ≤ q.pending.size := ExtTreeMap.size_filter_le_size
  have hsame : (q.retain command).pending.size = q.pending.size := by omega
  have hpending : (q.retain command).pending = q.pending :=
    ExtTreeMap.filter_eq_self_iff.mpr (ExtTreeMap.size_filter_eq_size_iff.mp hsame)
  calc q.retain command = { q with pending := (q.retain command).pending } := rfl
    _ = q := by rw [hpending]

end CommandQueue

/-! ## Histories -/

inductive Record
  | pushed (command : TaskCommand)
  | delivered (pending : PendingCommand)
  | acknowledged (serial : UInt64)
  | discarded (object : UInt64)
deriving DecidableEq, Repr

structure History where
  queue : CommandQueue := {}
  log : List Record := []

/-- Receivers may come and go: any delivery may be acknowledged, at any later time or never. -/
inductive Event
  | push (command : TaskCommand) (now : Nat)
  | deliver (now : Nat)
  | acknowledge (serial : UInt64)
  | discard (object : UInt64)

namespace History

def step (h : History) : Event → History
  | .push command now =>
    match h.queue.push command now with
    | .ok _ queue => { queue, log := h.log ++ [.pushed command] }
    | .error _ queue => { h with queue }
  | .deliver now =>
    match h.queue.ready now with
    | some p => { h with log := h.log ++ [.delivered p] }
    | none => h
  | .acknowledge serial =>
    -- `serve_commands` acknowledges only the serial it has delivered
    if h.log.any fun r => match r with | .delivered p => p.serial = serial | _ => false then
      { queue := h.queue.acknowledge serial, log := h.log ++ [.acknowledged serial] }
    else h
  | .discard object =>
    { queue := h.queue.discard object, log := h.log ++ [.discarded object] }

def run (events : List Event) : History := events.foldl step {}

end History

/-- The part of the log after the last discard of the object. -/
def since (object : UInt64) (log : List Record) : List Record :=
  log.foldl (fun recent r => if r = .discarded object then [] else recent ++ [r]) []

def Closes (object : UInt64) (log : List Record) : Prop :=
  ∃ c, .pushed c ∈ log ∧ c.object = object ∧ c.action = .close

@[simp] theorem since_snoc (object : UInt64) (log : List Record) (r : Record) :
    since object (log ++ [r]) = if r = .discarded object then [] else since object log ++ [r] := by
  simp [since]

theorem since_append {object : UInt64} {log post : List Record}
    (h : .discarded object ∉ post) : since object (log ++ post) = since object log ++ post := by
  induction post using List.reverseRecOn with
  | nil => simp
  | append_singleton post r ih =>
    have hr : r ≠ .discarded object := fun he => h (by simp [he])
    have hpost : .discarded object ∉ post := fun hm => h (by simp [hm])
    rw [← List.append_assoc, since_snoc, if_neg hr, ih hpost, List.append_assoc]

/-- What stands before the recent part was there at the last discard. -/
theorem since_split (object : UInt64) (log : List Record) :
    ∃ pre, log = pre ++ since object log ∧ .discarded object ∉ since object log := by
  induction log using List.reverseRecOn with
  | nil => exact ⟨[], rfl, by simp [since]⟩
  | append_singleton log r ih =>
    obtain ⟨pre, hlog, hnone⟩ := ih
    rw [since_snoc]
    by_cases hr : r = .discarded object
    · rw [if_pos hr]
      exact ⟨log ++ [r], by simp, by simp⟩
    · rw [if_neg hr]
      refine ⟨pre, ?_, ?_⟩
      · rw [← List.append_assoc, ← hlog]
      · simp only [List.mem_append, List.mem_singleton, not_or]
        exact ⟨hnone, fun he => hr he.symm⟩

/-! ## Every push is followed up -/

/-- The push is still in the queue: every later delivery it supersedes is its own. -/
structure Waiting (q : CommandQueue) (pre : List Record) (c : TaskCommand) (post : List Record)
    (p : PendingCommand) : Prop where
  pending : q.pending[p.serial]? = some p
  command : p.command = c
  fresh : ∀ old, .delivered old ∈ pre → old ≠ p
  delivered : ∀ other, .delivered other ∈ post → Supersedes c other.command → other = p
  alone : ∀ (serial : UInt64) (other : PendingCommand), q.pending[serial]? = some other →
    Supersedes c other.command → other = p

/-- The push was delivered and acknowledged; nothing it supersedes came or comes after it. -/
structure Done (q : CommandQueue) (c : TaskCommand) (post : List Record) (before : List Record)
    (p : PendingCommand) (after : List Record) : Prop where
  split : post = before ++ .delivered p :: after
  command : p.command = c
  acknowledged : .acknowledged p.serial ∈ after
  last : ∀ other, .delivered other ∈ after → ¬ Supersedes c other.command
  gone : ∀ (serial : UInt64) (other : PendingCommand), q.pending[serial]? = some other →
    ¬ Supersedes c other.command

inductive Followed (q : CommandQueue) (pre : List Record) (c : TaskCommand)
    (post : List Record) : Prop
  | ignored (h : Closes c.object (since c.object pre))
  | superseded (before : List Record) (c' : TaskCommand) (after : List Record)
      (h : post = before ++ .pushed c' :: after)
      (hopen : ¬ Closes c'.object (since c'.object (pre ++ .pushed c :: before)))
      (hs : Supersedes c' c)
  | discarded (h : .discarded c.object ∈ post)
  | waiting (p : PendingCommand) (h : Waiting q pre c post p)
  | done (before : List Record) (p : PendingCommand) (after : List Record)
      (h : Done q c post before p after)

structure Follows (h : History) : Prop where
  bounded : h.queue.pending.size ≤ MAX_PENDING
  serials : ∀ (serial : UInt64) (p : PendingCommand), h.queue.pending[serial]? = some p →
    p.serial = serial ∧ serial ≤ h.queue.next
  delivered : ∀ p, .delivered p ∈ h.log → p.serial ≤ h.queue.next ∧
    ∀ q, h.queue.pending[p.serial]? = some q → q = p
  closed : ∀ object, object ∈ h.queue.closed ↔ Closes object (since object h.log)
  followed : ∀ pre c post, h.log = pre ++ .pushed c :: post → Followed h.queue pre c post

/-- A record joins the log.  What waits stays, or is followed up otherwise; what is new in the
    queue is nothing that the push supersedes; what is delivered is in the queue. -/
theorem Followed.extend {q q' : CommandQueue} {pre post : List Record} {c : TaskCommand}
    {r : Record} (h : Followed q pre c post)
    (hkeep : ∀ p, Waiting q pre c post p →
      q'.pending[p.serial]? = some p ∨ Followed q' pre c (post ++ [r]))
    (hnew : ∀ (serial : UInt64) (other : PendingCommand), q'.pending[serial]? = some other →
      q.pending[serial]? = some other ∨ ¬ Supersedes c other.command)
    (hr : ∀ other, r = .delivered other → ∃ serial : UInt64, q.pending[serial]? = some other) :
    Followed q' pre c (post ++ [r]) := by
  cases h with
  | ignored h => exact .ignored h
  | superseded before c' after h hopen hs =>
    exact .superseded before c' (after ++ [r]) (by rw [h, List.append_assoc]; rfl) hopen hs
  | discarded h => exact .discarded (List.mem_append_left _ h)
  | waiting p h =>
    rcases hkeep p h with hpending | hfollowed
    · refine .waiting p ⟨hpending, h.command, h.fresh, ?_, ?_⟩
      · intro other hmem hs
        rcases List.mem_append.mp hmem with hold | hlast
        · exact h.delivered other hold hs
        · obtain ⟨serial, hother⟩ := hr other (List.mem_singleton.mp hlast).symm
          exact h.alone serial other hother hs
      · intro serial other hother hs
        rcases hnew serial other hother with hold | hno
        · exact h.alone serial other hold hs
        · exact absurd hs hno
    · exact hfollowed
  | done before p after h =>
    refine .done before p (after ++ [r]) ⟨?_, h.command, ?_, ?_, ?_⟩
    · rw [h.split, List.append_assoc, List.cons_append]
    · exact List.mem_append_left _ h.acknowledged
    · intro other hmem
      rcases List.mem_append.mp hmem with hold | hlast
      · exact h.last other hold
      · obtain ⟨serial, hother⟩ := hr other (List.mem_singleton.mp hlast).symm
        exact h.gone serial other hother
    · intro serial other hother
      rcases hnew serial other hother with hold | hno
      · exact h.gone serial other hold
      · exact hno

theorem exists_last_of_mem {α : Type} {a : α} {l : List α} (h : a ∈ l) :
    ∃ before after, l = before ++ a :: after ∧ a ∉ after := by
  obtain ⟨after, before, hl, hafter⟩ := List.eq_append_cons_of_mem (List.mem_reverse.mpr h)
  refine ⟨before.reverse, after.reverse, ?_, by simpa using hafter⟩
  rw [← List.reverse_reverse l, hl]
  simp

/-- The acknowledgement ends the wait, at the last delivery before it. -/
theorem Waiting.acknowledge {q : CommandQueue} {pre post : List Record} {c : TaskCommand}
    {p : PendingCommand} (h : Waiting q pre c post p)
    (hserials : ∀ (serial : UInt64) (other : PendingCommand),
      q.pending[serial]? = some other → other.serial = serial)
    (hdelivered : .delivered p ∈ pre ++ .pushed c :: post) :
    Followed (q.acknowledge p.serial) pre c (post ++ [.acknowledged p.serial]) := by
  have hpost : .delivered p ∈ post := by
    rcases List.mem_append.mp hdelivered with hpre | hrest
    · exact absurd rfl (h.fresh p hpre)
    · exact (List.mem_cons.mp hrest).resolve_left (by simp)
  obtain ⟨before, after, rfl, hlast⟩ := exists_last_of_mem hpost
  refine .done before p (after ++ [.acknowledged p.serial]) ⟨by simp, h.command, by simp, ?_, ?_⟩
  · intro other hmem hs
    have hother : .delivered other ∈ after := by simpa using hmem
    have heq := h.delivered other (by simp [hother]) hs
    exact hlast (heq ▸ hother)
  · intro serial other hother hs
    obtain ⟨hne, hpending⟩ := CommandQueue.getElem?_acknowledge.mp hother
    have heq := h.alone serial other hpending hs
    exact hne ((hserials serial other hpending).symm.trans (by rw [heq]))

/-- Two commands that only one of them supersedes are a close and a command of its object. -/
theorem Supersedes.one_way {c c' : TaskCommand} (h : Supersedes c c') (hno : ¬ Supersedes c' c) :
    c.action = .close ∧ c'.object = c.object := by
  unfold Supersedes at h hno
  cases hc : c.action with
  | close => rw [hc] at h; exact ⟨rfl, h⟩
  | focus =>
    rw [hc] at h
    simp only [] at h
    rw [h] at hno
    exact absurd hc hno
  | resize width height =>
    rw [hc] at h
    obtain ⟨hobject, hresize⟩ := h
    cases hc' : c'.action with
    | resize width' height' =>
      rw [hc'] at hno
      exact absurd ⟨hobject.symm, by rw [hc]; rfl⟩ hno
    | focus => rw [hc'] at hresize; cases hresize
    | close => rw [hc'] at hresize; cases hresize

/-- Only a close supersedes a close. -/
theorem Supersedes.object_of_close {c c' : TaskCommand} (h : Supersedes c' c)
    (hc : c.action = .close) : c'.object = c.object := by
  unfold Supersedes at h
  rw [hc] at h
  cases hc' : c'.action with
  | close => rw [hc'] at h; exact h.symm
  | focus => rw [hc'] at h; cases h
  | resize width height => rw [hc'] at h; cases h.2

theorem Supersedes.of_resize {c c' : TaskCommand} (h : Supersedes c' c)
    (hc : c.action.isResize = true) :
    (c'.action = .close ∧ c'.object = c.object) ∨
      (c'.object = c.object ∧ c'.action.isResize = true) := by
  unfold Supersedes at h
  cases hc' : c'.action with
  | close => rw [hc'] at h; exact .inl ⟨rfl, h.symm⟩
  | focus => rw [hc'] at h; rw [show c.action = .focus from h] at hc; cases hc
  | resize width height => rw [hc'] at h; exact .inr ⟨h.1.symm, rfl⟩

theorem Supersedes.of_focus {c c' : TaskCommand} (h : Supersedes c' c)
    (hc : c.action = .focus) :
    (c'.action = .close ∧ c'.object = c.object) ∨ c'.action = .focus := by
  unfold Supersedes at h
  rw [hc] at h
  cases hc' : c'.action with
  | close => rw [hc'] at h; exact .inl ⟨rfl, h.symm⟩
  | focus => exact .inr rfl
  | resize width height => rw [hc'] at h; cases h.2

theorem Closes.append_left {object : UInt64} {log log' : List Record} (h : Closes object log) :
    Closes object (log ++ log') := by
  obtain ⟨c, hmem, hrest⟩ := h
  exact ⟨c, List.mem_append_left _ hmem, hrest⟩

/-- A close is in force until its object is discarded. -/
theorem closes_of_split {pre post : List Record} {c : TaskCommand} (hclose : c.action = .close)
    (hlive : .discarded c.object ∉ post) :
    Closes c.object (since c.object (pre ++ .pushed c :: post)) := by
  rw [since_append (by simpa using hlive)]
  exact ⟨c, by simp, rfl, hclose⟩

namespace Follows

variable {h : History}

theorem closes_snoc {object : UInt64} {r : Record} (hr : r ≠ .discarded object) :
    Closes object (since object (h.log ++ [r])) ↔ Closes object (since object h.log) ∨
      ∃ c, r = .pushed c ∧ c.object = object ∧ c.action = .close := by
  rw [since_snoc, if_neg hr]
  constructor
  · rintro ⟨c, hmem, hobject, haction⟩
    rcases List.mem_append.mp hmem with hold | hlast
    · exact .inl ⟨c, hold, hobject, haction⟩
    · exact .inr ⟨c, (List.mem_singleton.mp hlast).symm, hobject, haction⟩
  · rintro (⟨c, hmem, hobject, haction⟩ | ⟨c, rfl, hobject, haction⟩)
    · exact ⟨c, List.mem_append_left _ hmem, hobject, haction⟩
    · exact ⟨c, by simp, hobject, haction⟩

/-- A push for a closed object changes nothing but the log. -/
theorem ignore (hf : Follows h) {command : TaskCommand}
    (hclosed : command.object ∈ h.queue.closed) :
    Follows { h with log := h.log ++ [.pushed command] } := by
  refine ⟨hf.bounded, hf.serials, fun p hmem => hf.delivered p (by simpa using hmem), ?_, ?_⟩
  · intro object
    rw [closes_snoc (by simp), hf.closed]
    refine ⟨.inl, ?_⟩
    rintro (hold | ⟨c, hc, hobject, -⟩)
    · exact hold
    · obtain rfl := Record.pushed.inj hc
      exact hobject ▸ (hf.closed _).mp hclosed
  · intro pre c post hlog
    rcases History.concat_cut hlog with ⟨rfl, hc, rfl⟩ | ⟨post', rfl, hold⟩
    · obtain rfl := Record.pushed.inj hc
      exact .ignored ((hf.closed _).mp hclosed)
    · exact (hf.followed pre c post' hold).extend (fun p hp => .inl hp.pending)
        (fun _ _ hother => .inl hother) fun _ hr => by cases hr

theorem accept (hf : Follows h) {command : TaskCommand} {serial : UInt64} {now : Nat}
    (hopen : command.object ∉ h.queue.closed)
    (hroom : (h.queue.retain command).pending.size < MAX_PENDING)
    (hserial : h.queue.next < serial) :
    Follows { queue := (h.queue.retain command).enqueue command serial now
              log := h.log ++ [.pushed command] } := by
  have hfresh (p : PendingCommand) (hp : .delivered p ∈ h.log) : p.serial < serial :=
    UInt64.lt_of_le_of_lt (hf.delivered p hp).1 hserial
  refine ⟨?_, ?_, ?_, ?_, ?_⟩
  · show ((h.queue.retain command).pending.insert serial _).size ≤ MAX_PENDING
    have hle := ExtTreeMap.size_insert_le (t := (h.queue.retain command).pending) (k := serial)
      (v := { serial, command, ready := (h.queue.retain command).readyAt command now })
    omega
  · intro other p hp
    rcases CommandQueue.getElem?_enqueue.mp hp with ⟨rfl, rfl⟩ | ⟨-, hold⟩
    · exact ⟨rfl, UInt64.le_refl _⟩
    · obtain ⟨hpending, -⟩ := CommandQueue.getElem?_retain.mp hold
      obtain ⟨hkey, hle⟩ := hf.serials other p hpending
      exact ⟨hkey, UInt64.le_of_lt (UInt64.lt_of_le_of_lt hle hserial)⟩
  · intro p hmem
    have hlt := hfresh p (by simpa using hmem)
    refine ⟨UInt64.le_of_lt hlt, fun q hq => ?_⟩
    rcases CommandQueue.getElem?_enqueue.mp hq with ⟨he, -⟩ | ⟨-, hold⟩
    · exact absurd (he ▸ hlt) (UInt64.lt_irrefl _)
    · exact (hf.delivered p (by simpa using hmem)).2 q (CommandQueue.getElem?_retain.mp hold).1
  · intro object
    rw [closes_snoc (by simp), ← hf.closed]
    simp only [CommandQueue.enqueue, CommandQueue.retain]
    split
    · rename_i hclose
      rw [Finset.mem_insert, or_comm]
      refine or_congr Iff.rfl ⟨fun ho => ⟨command, rfl, ho.symm, hclose⟩, ?_⟩
      rintro ⟨c, hc, hobject, -⟩
      obtain rfl := Record.pushed.inj hc
      exact hobject.symm
    · rename_i hclose
      refine ⟨.inl, ?_⟩
      rintro (hold | ⟨c, hc, -, haction⟩)
      · exact hold
      · obtain rfl := Record.pushed.inj hc
        exact absurd haction hclose
  · intro pre c post hlog
    rcases History.concat_cut hlog with ⟨rfl, hc, rfl⟩ | ⟨post', rfl, hold⟩
    · obtain rfl := Record.pushed.inj hc
      refine .waiting ⟨serial, command, _⟩ ⟨CommandQueue.getElem?_enqueue.mpr (.inl ⟨rfl, rfl⟩), rfl,
        ?_, by simp, ?_⟩
      · rintro old hmem rfl
        exact UInt64.lt_irrefl _ (hfresh _ hmem)
      · intro other p hp hs
        rcases CommandQueue.getElem?_enqueue.mp hp with ⟨rfl, rfl⟩ | ⟨-, hold⟩
        · rfl
        · exact absurd hs (CommandQueue.getElem?_retain.mp hold).2
    · by_cases hs : Supersedes command c
      · refine .superseded post' command [] rfl ?_ hs
        rw [← hold, ← hf.closed]
        exact hopen
      by_cases hdiscarded : .discarded c.object ∈ post'
      · exact .discarded (List.mem_append_left _ hdiscarded)
      -- otherwise the newcomer is nothing that `c` supersedes: it would be for a closed object
      have hno : ¬ Supersedes c command := by
        intro hs'
        obtain ⟨hclose, hobject⟩ := hs'.one_way hs
        refine hopen ((hf.closed _).mpr ?_)
        rw [hobject, hold]
        exact closes_of_split hclose hdiscarded
      refine (hf.followed pre c post' hold).extend (fun p hp => .inl ?_) ?_ fun _ hr => by cases hr
      · refine CommandQueue.getElem?_enqueue.mpr (.inr ⟨?_, ?_⟩)
        · rintro rfl
          exact UInt64.lt_irrefl _
            (UInt64.lt_of_le_of_lt (hf.serials _ p hp.pending).2 hserial)
        · exact CommandQueue.getElem?_retain.mpr ⟨hp.pending, by rw [hp.command]; exact hs⟩
      · intro other p hp
        rcases CommandQueue.getElem?_enqueue.mp hp with ⟨-, rfl⟩ | ⟨-, hold⟩
        · exact .inr hno
        · exact .inl (CommandQueue.getElem?_retain.mp hold).1

theorem deliver (hf : Follows h) {p : PendingCommand} {serial : UInt64}
    (hp : h.queue.pending[serial]? = some p) :
    Follows { h with log := h.log ++ [.delivered p] } := by
  obtain ⟨hkey, hle⟩ := hf.serials serial p hp
  refine ⟨hf.bounded, hf.serials, ?_, ?_, ?_⟩
  · intro p' hmem
    rcases List.mem_append.mp hmem with hold | hlast
    · exact hf.delivered p' hold
    · obtain rfl := Record.delivered.inj (List.mem_singleton.mp hlast)
      refine ⟨hkey ▸ hle, fun q hq => ?_⟩
      rw [hkey] at hq
      exact Option.some.inj (hq.symm.trans hp)
  · intro object
    rw [closes_snoc (by simp), hf.closed]
    exact ⟨.inl, fun ho => ho.resolve_right (by rintro ⟨c, hc, -⟩; cases hc)⟩
  · intro pre c post hlog
    rcases History.concat_cut hlog with ⟨-, hc, -⟩ | ⟨post', rfl, hold⟩
    · cases hc
    · refine (hf.followed pre c post' hold).extend (fun p hp => .inl hp.pending)
        (fun _ _ hother => .inl hother) ?_
      intro other hr
      obtain rfl := Record.delivered.inj hr
      exact ⟨serial, hp⟩

theorem acknowledge (hf : Follows h) {p : PendingCommand} (hdelivered : .delivered p ∈ h.log) :
    Follows { queue := h.queue.acknowledge p.serial
              log := h.log ++ [.acknowledged p.serial] } := by
  refine ⟨?_, ?_, ?_, ?_, ?_⟩
  · exact Nat.le_trans ExtTreeMap.size_erase_le hf.bounded
  · intro serial q hq
    exact hf.serials serial q (CommandQueue.getElem?_acknowledge.mp hq).2
  · intro p' hmem
    obtain ⟨hle, heq⟩ := hf.delivered p' (by simpa using hmem)
    exact ⟨hle, fun q hq => heq q (CommandQueue.getElem?_acknowledge.mp hq).2⟩
  · intro object
    rw [closes_snoc (by simp)]
    refine (hf.closed object).trans ⟨.inl, fun ho => ho.resolve_right ?_⟩
    rintro ⟨c, hc, -⟩
    cases hc
  · intro pre c post hlog
    rcases History.concat_cut hlog with ⟨-, hc, -⟩ | ⟨post', rfl, hold⟩
    · cases hc
    · refine (hf.followed pre c post' hold).extend (fun w hw => ?_) ?_ fun _ hr => by cases hr
      · by_cases hs : w.serial = p.serial
        · -- the acknowledged serial is the waiting one
          have heq : w = p := (hf.delivered p hdelivered).2 w (hs ▸ hw.pending)
          subst heq
          exact .inr (hw.acknowledge (fun serial other ho => (hf.serials serial other ho).1)
            (hold ▸ hdelivered))
        · exact .inl (CommandQueue.getElem?_acknowledge.mpr ⟨hs, hw.pending⟩)
      · intro serial other hother
        exact .inl (CommandQueue.getElem?_acknowledge.mp hother).2

theorem discard (hf : Follows h) (object : UInt64) :
    Follows { queue := h.queue.discard object, log := h.log ++ [.discarded object] } := by
  refine ⟨?_, ?_, ?_, ?_, ?_⟩
  · exact Nat.le_trans ExtTreeMap.size_filter_le_size hf.bounded
  · intro serial q hq
    exact hf.serials serial q (CommandQueue.getElem?_discard.mp hq).1
  · intro p' hmem
    obtain ⟨hle, heq⟩ := hf.delivered p' (by simpa using hmem)
    exact ⟨hle, fun q hq => heq q (CommandQueue.getElem?_discard.mp hq).1⟩
  · intro other
    show other ∈ h.queue.closed.erase object ↔ _
    by_cases he : other = object
    · subst he
      simp [Closes]
    · rw [closes_snoc (fun hr => he (Record.discarded.inj hr).symm), Finset.mem_erase, hf.closed]
      refine ⟨fun ho => .inl ho.2, fun ho => ⟨he, ho.resolve_right ?_⟩⟩
      rintro ⟨c, hc, -⟩
      cases hc
  · intro pre c post hlog
    rcases History.concat_cut hlog with ⟨-, hc, -⟩ | ⟨post', rfl, hold⟩
    · cases hc
    · by_cases he : c.object = object
      · exact .discarded (by simp [he])
      refine (hf.followed pre c post' hold).extend (fun p hp => .inl ?_) ?_ fun _ hr => by cases hr
      · exact CommandQueue.getElem?_discard.mpr ⟨hp.pending, by rw [hp.command]; exact he⟩
      · intro serial other hother
        exact .inl (CommandQueue.getElem?_discard.mp hother).1

/-- **A refused push leaves the queue alone.** -/
theorem push_refused (hf : Follows h) {command : TaskCommand} {now : Nat} {e : CodecError}
    {queue : CommandQueue} (hpush : h.queue.push command now = .error e queue) :
    queue = h.queue := by
  have hspec := @CommandQueue.push_spec h.queue command now
  unfold Ends at hspec
  rw [hpush] at hspec
  rcases hspec with rfl | ⟨rfl, hfull⟩
  · rfl
  · exact CommandQueue.retain_eq_of_full hf.bounded hfull

theorem step (hf : Follows h) (event : Event) : Follows (h.step event) := by
  cases event with
  | push command now =>
    have hspec := @CommandQueue.push_spec h.queue command now
    unfold Ends at hspec
    simp only [History.step]
    cases hpush : h.queue.push command now with
    | error e queue =>
      obtain rfl := hf.push_refused hpush
      exact hf
    | ok u queue =>
      rw [hpush] at hspec
      rcases hspec with ⟨hclosed, rfl⟩ | ⟨hopen, hroom, serial, hserial, rfl⟩
      · exact hf.ignore hclosed
      · exact hf.accept hopen hroom hserial
  | deliver now =>
    simp only [History.step]
    cases hready : h.queue.ready now with
    | none => exact hf
    | some p =>
      obtain ⟨serial, hp⟩ := CommandQueue.ready_pending hready
      exact hf.deliver hp
  | acknowledge serial =>
    simp only [History.step]
    split
    · rename_i hany
      obtain ⟨r, hr, hserial⟩ := List.any_eq_true.mp hany
      cases r with
      | delivered p =>
        obtain rfl : p.serial = serial := by simpa using hserial
        exact hf.acknowledge hr
      | _ => cases hserial
    · exact hf
  | discard object => exact hf.discard object

theorem start : Follows {} := by
  refine ⟨Nat.zero_le _, ?_, by simp, by simp [since, Closes], by simp⟩
  intro serial p hp
  have hnone : (∅ : ExtTreeMap UInt64 PendingCommand compare)[serial]? = some p := hp
  grind

theorem run (events : List Event) : Follows (History.run events) := by
  unfold History.run
  induction events using List.reverseRecOn with
  | nil => exact start
  | append_singleton events event ih =>
    rw [List.foldl_append]
    exact ih.step event

/-- With an empty queue, a push was ignored, superseded, discarded, or delivered and acknowledged
    as the last of its kind. -/
theorem settled (hf : Follows h) (hempty : h.queue.pending = ∅) {pre post : List Record}
    {c : TaskCommand} (hlog : h.log = pre ++ .pushed c :: post)
    (hopen : ¬ Closes c.object (since c.object pre)) (hlive : .discarded c.object ∉ post)
    (hlast : ∀ before c' after, post = before ++ .pushed c' :: after → Supersedes c' c →
      Closes c'.object (since c'.object (pre ++ .pushed c :: before))) :
    ∃ before p after, post = before ++ .delivered p :: after ∧ p.command = c ∧
      .acknowledged p.serial ∈ after ∧
      ∀ other, .delivered other ∈ after → ¬ Supersedes c other.command := by
  cases hf.followed pre c post hlog with
  | ignored hclosed => exact absurd hclosed hopen
  | superseded before c' after hc' hno hs => exact absurd (hlast before c' after hc' hs) hno
  | discarded hd => exact absurd hd hlive
  | waiting p hw =>
    have hp := hw.pending
    rw [hempty] at hp
    grind
  | done before p after hd =>
    exact ⟨before, p, after, hd.split, hd.command, hd.acknowledged, hd.last⟩

end Follows

/-! ## Convergence -/

/-- The first close after a discard is the one that is enqueued. -/
theorem exists_first_close {object : UInt64} {log : List Record} (h : Closes object log) :
    ∃ before c after, log = before ++ .pushed c :: after ∧ c.object = object ∧
      c.action = .close ∧ ¬ Closes object before := by
  induction log using List.reverseRecOn with
  | nil => obtain ⟨c, hmem, -⟩ := h; cases hmem
  | append_singleton log r ih =>
    by_cases hearlier : Closes object log
    · obtain ⟨before, c, after, rfl, hrest⟩ := ih hearlier
      exact ⟨before, c, after ++ [r], by simp, hrest⟩
    · obtain ⟨c, hmem, hobject, haction⟩ := h
      rcases List.mem_append.mp hmem with hold | hlast
      · exact absurd ⟨c, hold, hobject, haction⟩ hearlier
      · obtain rfl := List.mem_singleton.mp hlast
        exact ⟨log, c, [], rfl, hobject, haction, hearlier⟩

/-- A part of the recent log stands in the log, with the same recent part before it. -/
theorem split_of_since {object : UInt64} {log before post : List Record} {r : Record}
    (h : since object log = before ++ r :: post) (hr : r ≠ .discarded object) :
    ∃ pre, log = pre ++ r :: post ∧ since object pre = before ∧ .discarded object ∉ post := by
  obtain ⟨pre, hlog, hnone⟩ := since_split object log
  rw [h] at hlog hnone
  have hpost : .discarded object ∉ post := fun hm => hnone (by simp [hm])
  refine ⟨pre ++ before, by rw [hlog, List.append_assoc], ?_, hpost⟩
  have hsplit : since object log = since object (pre ++ before) ++ r :: post := by
    rw [hlog, ← List.append_assoc]
    exact since_append (by simp [hpost, Ne.symm hr])
  exact (List.append_cancel_right (h.symm.trans hsplit)).symm

/-- **Commands converge.**  Whenever the queue is empty, an object that was closed since its last
    discard had its close delivered and acknowledged, and nothing delivered for it afterwards; the
    last resize pushed for an object that was not closed is the last one delivered, and it was
    acknowledged; so was the last focus pushed, unless its object was closed or discarded.  A
    refused push drops nothing. -/
theorem commands_converge (events : List Event) :
    let h := History.run events
    (h.queue.pending = ∅ →
      (∀ object,
        (Closes object (since object h.log) →
          ∃ before p after, since object h.log = before ++ .delivered p :: after ∧
            p.command.object = object ∧ p.command.action = .close ∧
            .acknowledged p.serial ∈ after ∧
            ∀ other, .delivered other ∈ after → other.command.object ≠ object) ∧
        (¬ Closes object (since object h.log) → ∀ before c after,
          since object h.log = before ++ .pushed c :: after → c.object = object →
          c.action.isResize = true →
          (∀ c', .pushed c' ∈ after → ¬ (c'.object = object ∧ c'.action.isResize = true)) →
          ∃ mid p rest, after = mid ++ .delivered p :: rest ∧ p.command = c ∧
            .acknowledged p.serial ∈ rest ∧ ∀ other, .delivered other ∈ rest →
              ¬ (other.command.object = object ∧ other.command.action.isResize = true))) ∧
      ∀ before c after, h.log = before ++ .pushed c :: after → c.action = .focus →
        (∀ c', .pushed c' ∈ after → c'.action ≠ .focus) →
        .discarded c.object ∉ after → ¬ Closes c.object (since c.object h.log) →
        ∃ mid p rest, after = mid ++ .delivered p :: rest ∧ p.command = c ∧
          .acknowledged p.serial ∈ rest) ∧
    ∀ command now e queue, h.queue.push command now = .error e queue →
      queue.pending = h.queue.pending := by
  intro h
  have hf := Follows.run events
  refine ⟨fun hempty => ⟨fun object => ⟨?_, ?_⟩, ?_⟩, ?_⟩
  · intro hcloses
    obtain ⟨before, c, after, hrecent, hobject, haction, hfirst⟩ := exists_first_close hcloses
    subst hobject
    obtain ⟨pre, hlog, hpre, hlive⟩ := split_of_since hrecent (by simp)
    -- whatever would supersede the close comes for a closed object
    have hbefore : ¬ Closes c.object (since c.object pre) := by rw [hpre]; exact hfirst
    obtain ⟨mid, p, rest, rfl, hcommand, hack, hnone⟩ := hf.settled hempty hlog hbefore hlive (by
      intro mid c' rest hsplit hs
      have hobject : c'.object = c.object := hs.object_of_close haction
      rw [hobject]
      exact closes_of_split haction fun hd => hlive (by rw [hsplit]; simp [hd]))
    refine ⟨before ++ .pushed c :: mid, p, rest, by rw [hrecent]; simp, by rw [hcommand],
      by rw [hcommand]; exact haction, hack, fun other hother hobject => hnone other hother ?_⟩
    unfold Supersedes
    rw [haction]
    exact hobject
  · intro hopen before c after hrecent hobject hresize hlast
    subst hobject
    obtain ⟨pre, hlog, hpre, hlive⟩ := split_of_since hrecent (by simp)
    have hbefore : ¬ Closes c.object (since c.object pre) := by
      rw [hpre]
      exact fun hc => hopen (by rw [hrecent]; exact hc.append_left)
    obtain ⟨mid, p, rest, rfl, hcommand, hack, hnone⟩ := hf.settled hempty hlog hbefore hlive (by
      intro mid c' rest hsplit hs
      rcases hs.of_resize hresize with ⟨hclose, hobject⟩ | hsame
      · exact absurd ⟨c', by rw [hrecent, hsplit]; simp, hobject, hclose⟩ hopen
      · exact absurd hsame (hlast c' (by rw [hsplit]; simp)))
    refine ⟨mid, p, rest, rfl, hcommand, hack, fun other hother hsame => hnone other hother ?_⟩
    unfold Supersedes
    cases ha : c.action with
    | resize width height => exact hsame
    | _ => rw [ha] at hresize; cases hresize
  · intro before c after hlog hfocus hlast hlive hopen
    have hbefore : ¬ Closes c.object (since c.object before) := by
      intro hc
      refine hopen ?_
      rw [hlog, since_append (by simpa using hlive)]
      exact hc.append_left
    obtain ⟨mid, p, rest, hsplit, hcommand, hack, -⟩ := hf.settled hempty hlog hbefore hlive (by
      intro mid c' rest hsplit hs
      rcases hs.of_focus hfocus with ⟨hclose, hobject⟩ | hsame
      · refine absurd ⟨c', ?_, hobject, hclose⟩ hopen
        rw [hlog, since_append (by simpa using hlive), hsplit]
        simp
      · exact absurd hsame (hlast c' (by rw [hsplit]; simp)))
    exact ⟨mid, p, rest, hsplit, hcommand, hack⟩
  · intro command now e queue hpush
    rw [hf.push_refused hpush]

end Droidloom.TaskControl
