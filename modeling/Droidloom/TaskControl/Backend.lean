/-
  The framework's client of the task-control server (`tasks.rs`).

  A `Backend` remembers what the server answered to each registration, together with the epoch of
  the connection it answered on.  The entries outlive the connection, so that a failed removal can
  be tried again; after a reconnection the server may be another process, with its own numbering.

  The world is the backend, the server process at the other end and a log of the bindings answered
  and the removals sent.  Each operation carries what happens around its I/O (`Link`, `Wire`):
  restarts, lost connections, requests of other clients, lost requests and lost replies.

  1. `removal_names_its_window`: a removal names an object that the process at the other end bound
     for that task, if that process is the one that answered the registration; the epoch of the
     entry shows it when it is the epoch of the connection.
  2. `stale_removal_hits_another_window`: `retire` does not compare the two epochs.
-/
import Droidloom.TaskControl.Commands
import Droidloom.TaskControl.Server

namespace Droidloom.TaskControl.Client

open Std Fallible Triple Graphics

structure Task where
  id : UInt64
  incarnation : UInt64
  user : UInt32
  display : UInt32
  package : String
deriving DecidableEq, Repr

structure Binding where
  object : UInt64
  display : UInt64
  androidDisplay : UInt64
  task : UInt64
deriving DecidableEq, Repr

/-- A connection: its last request, the process it leads to, and whether it still does. -/
structure Client where
  request : UInt64 := 0
  process : Nat
  live : Bool := true

structure Backend where
  client : Option Client := none
  epoch : UInt64 := 0
  registered : ExtTreeMap UInt64 (Task × Binding × UInt64) compare := ∅

inductive BackendError
  | scope
  | connect
  | epochExhausted
  | disconnected
  | requestExhausted
  | transport
  | invalidBinding
  | removalDeferred (code : ControlErrorCode)
  | removalFailed
deriving DecidableEq, Repr

/-- A removal as it is sent: on a connection to `process` with epoch `epoch`, for an entry that
    process `origin` answered on the connection with epoch `tag`. -/
structure Removal where
  task : UInt64
  object : UInt64
  process : Nat
  origin : Nat
  epoch : UInt64
  tag : UInt64
deriving DecidableEq, Repr

inductive Record
  | bound (process : Nat) (object task : UInt64)
  | remove (removal : Removal)
deriving DecidableEq, Repr

structure World where
  backend : Backend := {}
  server : ControlServer := {}
  process : Nat := 0
  /-- The process that answered the cached registration of a task. -/
  origin : UInt64 → Nat := fun _ => 0
  log : List Record := []

inductive ServerEvent
  | restart (firstObject : UInt64)
  | drop
  | request (peers : Peers) (request : ControlRequest)

/-- What happens while `epoch` runs: `closed` is what `peer_closed` reports. -/
structure Link where
  before : List ServerEvent := []
  closed : Bool := false
  connects : Bool := true

/-- What happens while a request is exchanged. -/
structure Wire where
  before : List ServerEvent := []
  peers : Peers := {}
  delivered : Bool := true
  replied : Bool := true

namespace World

abbrev Method := EStateM BackendError World

/-! ## The server's side -/

def serve (w : World) (peers : Peers) (request : ControlRequest) : ControlResponse × World :=
  match w.server.handle peers request with
  | (.bound requestId object task display androidDisplay, server) =>
    (.bound requestId object task display androidDisplay,
      { w with server, log := w.log ++ [.bound w.process object task] })
  | (response, server) => (response, { w with server })

def withClient (w : World) (client : Option Client) : World :=
  { w with backend := { w.backend with client } }

/-- The peer is gone, though the backend has not noticed. -/
def cut (w : World) : World :=
  w.withClient (w.backend.client.map fun client => { client with live := false })

def happen (w : World) : ServerEvent → World
  | .restart firstObject =>
    match ControlServer.start firstObject with
    | .ok server => { w.cut with server, process := w.process + 1 }
    | .error _ => w
  | .drop => w.cut
  | .request peers request => (w.serve peers request).2

/-! ## The backend's operations -/

def disconnect (w : World) : World := w.withClient none

/-- The connection is in place before its epoch is. -/
def connect (link : Link) : Method Unit := do
  rejectIf (¬ link.connects) .connect
  modify fun w => w.withClient (some { process := w.process })
  let next ← okOr (checkedSucc (← get).backend.epoch) .epochExhausted
  modify fun w => { w with backend := { w.backend with epoch := next } }

def noticeClosed (closed : Bool) (w : World) : World :=
  if w.backend.client.isSome ∧ closed then w.disconnect else w

def ensureConnected (link : Link) : Method Unit := do
  if (← get).backend.client.isNone then connect link else return ()

def epoch (link : Link) : Method UInt64 := do
  modify fun w => (link.before.foldl happen w).noticeClosed link.closed
  ensureConnected link
  return (← get).backend.epoch

/-- `client.next()`. -/
def nextRequest : Method UInt64 := do
  let w ← get
  let client ← okOr w.backend.client .disconnected
  let request ← okOr (checkedSucc client.request) .requestExhausted
  set (w.withClient (some { client with request }))
  return request

/-- A dead connection delivers nothing; a delivered request may lose its reply. -/
def exchange (wire : Wire) (request : ControlRequest) : Method ControlResponse := do
  modify fun w => wire.before.foldl happen w
  let w ← get
  rejectIf (¬ ((w.backend.client.any (·.live)) ∧ wire.delivered)) .transport
  set (w.serve wire.peers request).2
  rejectIf (¬ wire.replied) .transport
  return (w.serve wire.peers request).1

def registerInner (task : Task) (activate : Bool) (wire : Wire) : Method Binding := do
  let requestId ← nextRequest
  match ← exchange wire (.publishFramework requestId task.package task.id task.display
      task.incarnation activate) with
  | .bound actual object actualTask display androidDisplay =>
    rejectIf (¬ (actual = requestId ∧ actualTask = task.id ∧ androidDisplay = task.display ∧
      0 < object ∧ object ≤ MAX_EXTERNAL_ID ∧ 0 < display ∧ display ≤ MAX_EXTERNAL_ID))
      .invalidBinding
    return { object, display, androidDisplay := androidDisplay.toUInt64, task := task.id }
  | _ => throw .invalidBinding

def forget (w : World) (task : UInt64) : World :=
  { w with backend := { w.backend with registered := w.backend.registered.erase task } }

/-- The removal enters the log when it is sent. -/
def noteRemoval (w : World) (client : Client) (task object tag : UInt64) : World :=
  { w with log := w.log ++ [.remove {
      task, object, process := client.process, origin := w.origin task
      epoch := w.backend.epoch, tag }] }

/-- The epoch of the entry is not looked at. -/
def retire (task incarnation : UInt64) (link : Link) (wire : Wire) : Method Unit := do
  match (← get).backend.registered[task]? with
  | none => return ()
  | some (known, binding, tag) =>
    if known.incarnation ≠ incarnation then return ()
    else
      let _ ← epoch link
      let requestId ← nextRequest
      let client ← okOr (← get).backend.client .disconnected
      modify (·.noteRemoval client task binding.object tag)
      match ← attempt (exchange wire (.remove requestId binding.object)) with
      | .ok (.removed actual removed) =>
        if actual = requestId ∧ removed = binding.object then modify (·.forget task)
        else
          modify disconnect
          throw .removalFailed
      | .ok (.error actual code) =>
        if actual = requestId then
          if code = .notFound then modify (·.forget task)
          else throw (.removalDeferred code)
        else
          modify disconnect
          throw .removalFailed
      | _ =>
        modify disconnect
        throw .removalFailed

def storeBinding (w : World) (task : Task) (binding : Binding) : World :=
  { w with
    origin := fun id => if id = task.id then w.process else w.origin id
    backend := { w.backend with
      registered := w.backend.registered.insert task.id (task, binding, w.backend.epoch) } }

/-- The end of `publish`. -/
def registerAndStore (task : Task) (activate : Bool) (wire : Wire) : Method Binding := do
  match ← attempt (registerInner task activate wire) with
  | .ok binding =>
    modify (·.storeBinding task binding)
    return binding
  | .error e =>
    modify disconnect
    throw e

structure PublishIo where
  link : Link := {}
  retireLink : Link := {}
  retireWire : Wire := {}
  wire : Wire := {}

/-- `register` is `publish` without activation, `activate` with it. -/
def publish (task : Task) (activate : Bool) (io : PublishIo) : Method Binding := do
  rejectIf (task.user ≠ 0 ∨ task.display ≠ 0 ∨ task.incarnation = 0 ∨ task.id = 0 ∨
    task.id > 0x7fffffff) .scope
  let now ← epoch io.link
  match (← get).backend.registered[task.id]? with
  | some (known, binding, tag) =>
    if known = task ∧ now = tag ∧ ¬ activate then return binding
    else if known = task then registerAndStore task activate io.wire
    else
      retire known.id known.incarnation io.retireLink io.retireWire
      registerAndStore task activate io.wire
  | none => registerAndStore task activate io.wire

end World

/-! ## Where the entries and the removals come from -/

def LAST_EPOCH : UInt64 := 0xffffffffffffffff

/-- The process at the other end answered the registration, or the two epochs say so. -/
def Removal.Justified (r : Removal) : Prop :=
  r.origin = r.process ∨ (r.tag = r.epoch ∧ r.epoch ≠ LAST_EPOCH)

structure Traced (w : World) : Prop where
  cached : ∀ (t : UInt64) (known : Task) (binding : Binding) (tag : UInt64),
    w.backend.registered[t]? = some (known, binding, tag) →
    known.id = t ∧ .bound (w.origin t) binding.object t ∈ w.log ∧ tag ≤ w.backend.epoch
  current : ∀ (t : UInt64) (known : Task) (binding : Binding) (client : Client),
    w.backend.registered[t]? = some (known, binding, w.backend.epoch) →
    w.backend.client = some client → w.backend.epoch ≠ LAST_EPOCH →
    w.origin t = client.process
  live : ∀ client, w.backend.client = some client → client.live = true →
    client.process = w.process
  removals : ∀ before r after, w.log = before ++ .remove r :: after → r.Justified →
    .bound r.process r.object r.task ∈ before

/-- The cache is as it was. -/
structure SameCache (w w' : World) : Prop where
  registered : w'.backend.registered = w.backend.registered
  origin : w'.origin = w.origin

theorem SameCache.refl (w : World) : SameCache w w := ⟨rfl, rfl⟩

theorem SameCache.trans {w w' w'' : World} (h : SameCache w w') (h' : SameCache w' w'') :
    SameCache w w'' :=
  ⟨h'.registered.trans h.registered, h'.origin.trans h.origin⟩

namespace Traced

variable {w : World}

/-- Every later connection leads where an earlier one did, and is live only if that was. -/
theorem withClient (h : Traced w) {client : Option Client}
    (hclient : ∀ c, client = some c → ∃ old, w.backend.client = some old ∧
      c.process = old.process ∧ (c.live = true → old.live = true)) :
    Traced (w.withClient client) := by
  refine ⟨h.cached, ?_, ?_, h.removals⟩
  · intro t known binding c hentry hc hlast
    obtain ⟨old, hold, hprocess, -⟩ := hclient c hc
    exact (h.current t known binding old hentry hold hlast).trans hprocess.symm
  · intro c hc hlive
    obtain ⟨old, hold, hprocess, hlive'⟩ := hclient c hc
    exact hprocess.trans (h.live old hold (hlive' hlive))

theorem disconnect (h : Traced w) : Traced w.disconnect :=
  h.withClient fun _ hc => by cases hc

theorem cut (h : Traced w) : Traced w.cut := by
  refine h.withClient fun c hc => ?_
  obtain ⟨old, hold, rfl⟩ := Option.map_eq_some_iff.mp hc
  exact ⟨old, hold, rfl, fun hlive => by cases hlive⟩

/-- An answered binding joins the log. -/
theorem bound (h : Traced w) (server : ControlServer) (object task : UInt64) :
    Traced { w with server, log := w.log ++ [.bound w.process object task] } := by
  refine ⟨fun t known binding tag hentry => ?_, h.current, h.live, fun before r after hlog hr => ?_⟩
  · obtain ⟨hid, hmem, htag⟩ := h.cached t known binding tag hentry
    exact ⟨hid, List.mem_append_left _ hmem, htag⟩
  · rcases History.concat_cut hlog with ⟨-, hne, -⟩ | ⟨after', -, hold⟩
    · cases hne
    · exact h.removals before r after' hold hr

theorem serve (h : Traced w) (peers : Peers) (request : ControlRequest) :
    Traced (w.serve peers request).2 := by
  unfold World.serve
  split
  · exact h.bound _ _ _
  · exact ⟨h.cached, h.current, h.live, h.removals⟩

theorem happen (h : Traced w) (e : ServerEvent) : Traced (w.happen e) := by
  cases e with
  | restart firstObject =>
    simp only [World.happen]
    split
    · refine ⟨h.cut.cached, h.cut.current, fun c hc hlive => ?_, h.cut.removals⟩
      obtain ⟨old, -, rfl⟩ := Option.map_eq_some_iff.mp hc
      cases hlive
    · exact h
  | drop => exact h.cut
  | request peers request => exact h.serve peers request

end Traced

theorem serve_sameCache (w : World) (peers : Peers) (request : ControlRequest) :
    SameCache w (w.serve peers request).2 := by
  unfold World.serve
  split <;> exact ⟨rfl, rfl⟩

theorem happen_sameCache (w : World) (e : ServerEvent) : SameCache w (w.happen e) := by
  cases e with
  | restart firstObject =>
    simp only [World.happen]
    split <;> exact ⟨rfl, rfl⟩
  | drop => exact ⟨rfl, rfl⟩
  | request peers request => exact serve_sameCache w peers request

/-- Whatever happens at the other end leaves the cache alone. -/
theorem happenings (events : List ServerEvent) : ∀ {w : World}, Traced w →
    Traced (events.foldl World.happen w) ∧ SameCache w (events.foldl World.happen w) := by
  induction events with
  | nil => exact fun h => ⟨h, .refl _⟩
  | cons e events ih =>
    intro w h
    obtain ⟨htraced, hsame⟩ := ih (h.happen e)
    exact ⟨htraced, (happen_sameCache w e).trans hsame⟩

/-! ## The operations keep the trace -/

variable {w : World}

theorem last_of_checkedSucc {n : UInt64} (h : checkedSucc n = none) : n = LAST_EPOCH := by
  unfold checkedSucc at h
  split at h
  · assumption
  · cases h

/-- A new connection has a new epoch, which no entry has yet. -/
theorem connect_ends (h : Traced w) (link : Link) :
    Ends (World.connect link) w (fun _ w' => Traced w' ∧ SameCache w w') fun w' => Traced w' := by
  refine ends_bind (Q := fun _ w' => w' = w) (ends_rejectIf (fun _ => h) fun _ => rfl) ?_
  rintro - w1 rfl
  refine ends_modify_bind (ends_get_bind (ends_bind (Q := fun next w' =>
    w' = w1.withClient (some { process := w1.process }) ∧ w1.backend.epoch < next)
    (ends_okOr (fun hnone => ?_) fun next hnext => ⟨rfl, lt_of_checkedSucc hnext⟩) ?_))
  · -- the epochs are used up
    have hmax : w1.backend.epoch = LAST_EPOCH := last_of_checkedSucc hnone
    refine ⟨h.cached, fun t known binding c _ _ hlast => absurd hmax hlast, ?_, h.removals⟩
    intro c hc _
    obtain rfl := Option.some.inj hc
    rfl
  · rintro next w2 ⟨rfl, hlt⟩
    refine ends_modify ⟨⟨?_, ?_, ?_, h.removals⟩, ⟨rfl, rfl⟩⟩
    · intro t known binding tag hentry
      obtain ⟨hid, hmem, htag⟩ := h.cached t known binding tag hentry
      exact ⟨hid, hmem, UInt64.le_of_lt (UInt64.lt_of_le_of_lt htag hlt)⟩
    · intro t known binding c hentry _ _
      obtain ⟨-, -, htag⟩ := h.cached t known binding next hentry
      exact absurd (UInt64.lt_of_le_of_lt htag hlt) (UInt64.lt_irrefl _)
    · intro c hc _
      obtain rfl := Option.some.inj hc
      rfl

theorem noticeClosed_keeps (h : Traced w) (closed : Bool) :
    Traced (w.noticeClosed closed) ∧ SameCache w (w.noticeClosed closed) := by
  unfold World.noticeClosed
  split
  · exact ⟨h.disconnect, ⟨rfl, rfl⟩⟩
  · exact ⟨h, .refl w⟩

theorem epoch_ends (h : Traced w) (link : Link) :
    Ends (World.epoch link) w
      (fun now w' => Traced w' ∧ SameCache w w' ∧ now = w'.backend.epoch) fun w' => Traced w' := by
  obtain ⟨hbefore, hsame⟩ := happenings link.before h
  obtain ⟨hnoticed, hsame'⟩ := noticeClosed_keeps hbefore link.closed
  refine ends_modify_bind (ends_bind (Q := fun _ w' => Traced w' ∧ SameCache w w') ?_ ?_)
  · refine ends_get_bind (ends_ite (fun _ => ?_) fun _ => ends_pure ⟨hnoticed, hsame.trans hsame'⟩)
    exact (connect_ends hnoticed link).mono
      (fun _ _ hs => ⟨hs.1, (hsame.trans hsame').trans hs.2⟩) fun _ hs => hs
  · rintro - w' ⟨h', hcache⟩
    exact ends_get_bind (ends_pure ⟨h', hcache, rfl⟩)

theorem nextRequest_ends (h : Traced w) :
    Ends World.nextRequest w
      (fun _ w' => Traced w' ∧ SameCache w w' ∧ w'.backend.client.isSome) fun w' => Traced w' := by
  refine ends_get_bind (ends_bind (Q := fun client w' => w' = w ∧ w.backend.client = some client)
    (ends_okOr (fun _ => h) fun client hc => ⟨rfl, hc⟩) ?_)
  rintro client w1 ⟨rfl, hc⟩
  refine ends_bind (Q := fun _ w' => w' = w1) (ends_okOr (fun _ => h) fun _ _ => rfl) ?_
  rintro request w2 rfl
  refine ends_set_bind (ends_pure ⟨h.withClient fun c hnew => ?_, ⟨rfl, rfl⟩, rfl⟩)
  obtain rfl := Option.some.inj hnew
  exact ⟨client, hc, rfl, fun hl => hl⟩

/-- A reply comes from the live process, which has bound what it answers. -/
theorem exchange_ends (h : Traced w) (wire : Wire) (request : ControlRequest) :
    Ends (World.exchange wire request) w
      (fun response w' => Traced w' ∧ SameCache w w' ∧
        (∃ client, w'.backend.client = some client ∧ client.process = w'.process) ∧
        ∀ requestId object task display androidDisplay,
          response = .bound requestId object task display androidDisplay →
          .bound w'.process object task ∈ w'.log)
      fun w' => Traced w' ∧ SameCache w w' := by
  obtain ⟨hbefore, hsame⟩ := happenings wire.before h
  refine ends_modify_bind (ends_get_bind ?_)
  generalize wire.before.foldl World.happen w = w1 at hbefore hsame
  refine ends_bind (Q := fun _ w' => w' = w1 ∧ w1.backend.client.any (·.live) = true)
    (ends_rejectIf (fun _ => ⟨hbefore, hsame⟩) fun hok => ⟨rfl, (not_not.mp hok).1⟩) ?_
  rintro - w2 ⟨rfl, hlive⟩
  obtain ⟨client, hclient, hl⟩ : ∃ client, w2.backend.client = some client ∧
      client.live = true := by
    cases hc : w2.backend.client with
    | none => rw [hc] at hlive; cases hlive
    | some client => rw [hc] at hlive; exact ⟨client, rfl, hlive⟩
  have hserved := hbefore.serve wire.peers request
  have hcache := hsame.trans (serve_sameCache w2 wire.peers request)
  refine ends_set_bind (ends_bind (Q := fun _ w' => w' = (w2.serve wire.peers request).2)
    (ends_rejectIf (fun _ => ⟨hserved, hcache⟩) fun _ => rfl) ?_)
  rintro - w3 rfl
  refine ends_pure ⟨hserved, hcache, ⟨client, ?_, ?_⟩, ?_⟩
  · unfold World.serve
    split <;> exact hclient
  · have hprocess := hbefore.live client hclient hl
    unfold World.serve
    split <;> exact hprocess
  · intro requestId object task display androidDisplay hresponse
    unfold World.serve at hresponse ⊢
    split at hresponse
    · obtain ⟨rfl, rfl, rfl, rfl, rfl⟩ := ControlResponse.bound.inj hresponse
      simp
    · rename_i response server hne heq
      obtain rfl : response = _ := hresponse
      exact (hne _ _ _ _ _ rfl).elim

theorem registerInner_ends (h : Traced w) (task : Task) (activate : Bool) (wire : Wire) :
    Ends (World.registerInner task activate wire) w
      (fun binding w' => Traced w' ∧
        (∃ client, w'.backend.client = some client ∧ client.process = w'.process) ∧
        .bound w'.process binding.object task.id ∈ w'.log) fun w' => Traced w' := by
  refine ends_bind (nextRequest_ends h) ?_
  rintro requestId w1 ⟨h1, -, -⟩
  refine ends_bind ((exchange_ends h1 wire _).mono (fun _ _ hs => hs) fun _ hs => hs.1) ?_
  rintro response w2 ⟨h2, -, hclient, hbound⟩
  cases response with
  | removed requestId' object => exact ends_throw h2
  | error requestId' code => exact ends_throw h2
  | bound actual object actualTask display androidDisplay =>
    refine ends_bind (Q := fun _ w' => w' = w2 ∧ actualTask = task.id)
      (ends_rejectIf (fun _ => h2) fun hok => ⟨rfl, (not_not.mp hok).2.1⟩) ?_
    rintro - w3 ⟨rfl, rfl⟩
    exact ends_pure ⟨h2, hclient, hbound _ _ _ _ _ rfl⟩

theorem Traced.forget (h : Traced w) (task : UInt64) : Traced (w.forget task) := by
  have hget (t : UInt64) (entry : Task × Binding × UInt64)
      (hentry : (w.backend.registered.erase task)[t]? = some entry) :
      w.backend.registered[t]? = some entry := by grind
  exact ⟨fun t known binding tag hentry => h.cached t known binding tag (hget t _ hentry),
    fun t known binding c hentry => h.current t known binding c (hget t _ hentry), h.live,
    h.removals⟩

/-- The removal is sent for an entry of the cache. -/
theorem Traced.noteRemoval (h : Traced w) {client : Client} {task : UInt64} {known : Task}
    {binding : Binding} {tag : UInt64}
    (hentry : w.backend.registered[task]? = some (known, binding, tag))
    (hclient : w.backend.client = some client) :
    Traced (w.noteRemoval client task binding.object tag) := by
  obtain ⟨-, hbound, -⟩ := h.cached task known binding tag hentry
  refine ⟨fun t known binding tag hentry => ?_, h.current, h.live, fun before r after hlog hr => ?_⟩
  · obtain ⟨hid, hmem, htag⟩ := h.cached t known binding tag hentry
    exact ⟨hid, List.mem_append_left _ hmem, htag⟩
  · rcases History.concat_cut hlog with ⟨-, hnew, rfl⟩ | ⟨after', -, hold⟩
    · obtain rfl := Record.remove.inj hnew
      -- the epochs agree only when the origin is the process at the other end
      have horigin : w.origin task = client.process := by
        rcases hr with horigin | ⟨htag, hlast⟩
        · exact horigin
        · have hnow : tag = w.backend.epoch := htag
          subst hnow
          exact h.current task known binding client hentry hclient hlast
      show Record.bound client.process binding.object task ∈ w.log
      rw [← horigin]
      exact hbound
    · exact h.removals before r after' hold hr

theorem retire_ends (h : Traced w) (task incarnation : UInt64) (link : Link) (wire : Wire) :
    Ends (World.retire task incarnation link wire) w (fun _ w' => Traced w')
      fun w' => Traced w' := by
  refine ends_get_bind ?_
  cases hentry : w.backend.registered[task]? with
  | none => exact ends_pure h
  | some entry =>
    obtain ⟨known, binding, tag⟩ := entry
    refine ends_ite (fun _ => ends_pure h) fun _ => ?_
    refine ends_bind (epoch_ends h link) ?_
    rintro now w1 ⟨h1, hsame1, -⟩
    refine ends_bind (nextRequest_ends h1) ?_
    rintro requestId w2 ⟨h2, hsame2, -⟩
    refine ends_get_bind (ends_bind (Q := fun client w' => w' = w2 ∧
      w2.backend.client = some client) (ends_okOr (fun _ => h2) fun _ hc => ⟨rfl, hc⟩) ?_)
    rintro client w3 ⟨rfl, hclient⟩
    have hstill : w3.backend.registered[task]? = some (known, binding, tag) := by
      rw [(hsame1.trans hsame2).registered]
      exact hentry
    have hnoted := h2.noteRemoval hstill hclient
    refine ends_modify_bind (ends_bind (Q := fun _ w' => Traced w') ?_ ?_)
    · exact ends_attempt_of (exchange_ends hnoted wire _) (fun _ _ hs => hs.1) fun _ _ hs => hs.1
    · intro outcome w4 h4
      rcases outcome with e | response
      · exact ends_modify_bind (ends_throw h4.disconnect)
      · cases response with
        | bound requestId' object task' display androidDisplay =>
          exact ends_modify_bind (ends_throw h4.disconnect)
        | removed actual removed =>
          exact ends_ite (fun _ => ends_modify (h4.forget task))
            fun _ => ends_modify_bind (ends_throw h4.disconnect)
        | error actual code =>
          exact ends_ite (fun _ => ends_ite (fun _ => ends_modify (h4.forget task))
            fun _ => ends_throw h4) fun _ => ends_modify_bind (ends_throw h4.disconnect)

theorem Traced.storeBinding (h : Traced w) {task : Task} {binding : Binding}
    (hclient : ∃ client, w.backend.client = some client ∧ client.process = w.process)
    (hbound : .bound w.process binding.object task.id ∈ w.log) :
    Traced (w.storeBinding task binding) := by
  obtain ⟨client, hc, hprocess⟩ := hclient
  have hget (t : UInt64) (entry : Task × Binding × UInt64)
      (hentry : (w.storeBinding task binding).backend.registered[t]? = some entry) :
      (t = task.id ∧ entry = (task, binding, w.backend.epoch)) ∨
        (t ≠ task.id ∧ w.backend.registered[t]? = some entry) := by
    simp only [World.storeBinding] at hentry
    grind
  refine ⟨?_, ?_, h.live, h.removals⟩
  · intro t known binding' tag hentry
    rcases hget t _ hentry with ⟨rfl, hnew⟩ | ⟨hne, hold⟩
    · obtain ⟨rfl, rfl, rfl⟩ : known = task ∧ binding' = binding ∧ tag = w.backend.epoch := by
        simpa using hnew
      refine ⟨rfl, ?_, UInt64.le_refl _⟩
      simp only [World.storeBinding, if_true]
      exact hbound
    · simp only [World.storeBinding, if_neg hne]
      exact h.cached t known binding' tag hold
  · intro t known binding' c hentry hc' hlast
    rcases hget t _ hentry with ⟨rfl, -⟩ | ⟨hne, hold⟩
    · obtain rfl := Option.some.inj (hc.symm.trans hc')
      simp only [World.storeBinding, if_true]
      exact hprocess.symm
    · simp only [World.storeBinding, if_neg hne]
      exact h.current t known binding' c hold hc' hlast

theorem registerAndStore_ends (h : Traced w) (task : Task) (activate : Bool) (wire : Wire) :
    Ends (World.registerAndStore task activate wire) w (fun _ w' => Traced w')
      fun w' => Traced w' := by
  refine ends_bind (Q := fun outcome w' => Traced w' ∧ ∀ binding, outcome = .ok binding →
    (∃ client, w'.backend.client = some client ∧ client.process = w'.process) ∧
      .bound w'.process binding.object task.id ∈ w'.log) ?_ ?_
  · refine ends_attempt_of (registerInner_ends h task activate wire) ?_ ?_
    · rintro binding w' ⟨h', hclient, hbound⟩
      exact ⟨h', fun _ hb => by obtain rfl := Except.ok.inj hb; exact ⟨hclient, hbound⟩⟩
    · exact fun e _ h' => ⟨h', fun _ hb => by cases hb⟩
  · rintro (e | binding) w' ⟨h', hbinding⟩
    · exact ends_modify_bind (ends_throw h'.disconnect)
    · obtain ⟨hclient, hbound⟩ := hbinding binding rfl
      exact ends_modify_bind (ends_pure (h'.storeBinding hclient hbound))

theorem publish_ends (h : Traced w) (task : Task) (activate : Bool) (io : World.PublishIo) :
    Ends (World.publish task activate io) w (fun _ w' => Traced w') fun w' => Traced w' := by
  refine ends_bind (Q := fun _ w' => w' = w) (ends_rejectIf (fun _ => h) fun _ => rfl) ?_
  rintro - w1 rfl
  refine ends_bind (epoch_ends h io.link) ?_
  rintro now w2 ⟨h2, -, -⟩
  refine ends_get_bind ?_
  cases hentry : w2.backend.registered[task.id]? with
  | none => exact registerAndStore_ends h2 task activate io.wire
  | some entry =>
    obtain ⟨known, binding, tag⟩ := entry
    refine ends_ite (fun _ => ends_pure h2) fun _ => ends_ite
      (fun _ => registerAndStore_ends h2 task activate io.wire) fun _ => ?_
    exact ends_bind (retire_ends h2 known.id known.incarnation io.retireLink io.retireWire)
      fun _ _ h3 => registerAndStore_ends h3 task activate io.wire

/-! ## Runs -/

inductive Call
  | register (task : Task) (io : World.PublishIo)
  | activate (task : Task) (io : World.PublishIo)
  | retire (task incarnation : UInt64) (link : Link) (wire : Wire)
  | epoch (link : Link)
  | happen (e : ServerEvent)

namespace World

def call (w : World) : Call → World
  | .register task io => final (publish task false io) w
  | .activate task io => final (publish task true io) w
  | .retire task incarnation link wire => final (retire task incarnation link wire) w
  | .epoch link => final (epoch link) w
  | .happen e => w.happen e

/-- A backend without a connection, and a server process with any first object number. -/
def run (server : ControlServer) (calls : List Call) : World := calls.foldl call { server }

end World

theorem Traced.call (h : Traced w) (c : Call) : Traced (w.call c) := by
  cases c with
  | register task io => exact (publish_ends h task false io).final fun _ _ hs => hs
  | activate task io => exact (publish_ends h task true io).final fun _ _ hs => hs
  | retire task incarnation link wire =>
    exact (retire_ends h task incarnation link wire).final fun _ _ hs => hs
  | epoch link => exact (epoch_ends h link).final fun _ _ hs => hs.1
  | happen e => exact h.happen e

theorem traced_start (server : ControlServer) : Traced { server } := by
  have hnone (t : UInt64) (entry : Task × Binding × UInt64)
      (h : (∅ : ExtTreeMap UInt64 (Task × Binding × UInt64) compare)[t]? = some entry) :
      False := by grind
  refine ⟨fun t _ _ _ h => (hnone t _ h).elim, fun t _ _ _ h => (hnone t _ h).elim,
    (fun c hc => by cases hc), fun before r after hlog => ?_⟩
  simp at hlog

theorem traced_run (server : ControlServer) (calls : List Call) :
    Traced (World.run server calls) := by
  unfold World.run
  induction calls using List.reverseRecOn with
  | nil => exact traced_start server
  | append_singleton calls c ih =>
    rw [List.foldl_append]
    exact ih.call c

/-- **A justified removal names its own window.**  In every run, a removal that goes to the process
    that answered the registration, or that is sent for an entry with the epoch of the connection,
    names an object that this process had bound for the same task. -/
theorem removal_names_its_window (server : ControlServer) (calls : List Call)
    (before : List Record) (r : Removal) (after : List Record)
    (hlog : (World.run server calls).log = before ++ .remove r :: after) (hr : r.Justified) :
    .bound r.process r.object r.task ∈ before :=
  (traced_run server calls).removals before r after hlog hr

/-- Two tasks of the framework. -/
def firstTask : Task := ⟨42, 1, 0, 0, "org.example.a"⟩

def secondTask : Task := ⟨43, 1, 0, 0, "org.example.b"⟩

/-- Task 42 is registered and retired on one connection. -/
theorem removal_names_its_window_same_connection :
    (World.run {} [.register firstTask {}, .retire 42 1 {} {}]).log =
      [.bound 0 1 42] ++ .remove ⟨42, 1, 0, 0, 1, 1⟩ :: [] ∧
    Record.bound 0 1 42 ∈ [Record.bound 0 1 42] := by
  have hlog : (World.run {} [.register firstTask {}, .retire 42 1 {} {}]).log =
      [.bound 0 1 42] ++ .remove ⟨42, 1, 0, 0, 1, 1⟩ :: [] := by decide +kernel
  exact ⟨hlog, removal_names_its_window {} _ _ _ _ hlog (.inl rfl)⟩

/-- Task 42 gets object 1; the server restarts and numbers from 1 again; task 43 gets object 1. -/
def restartedRun : List Call :=
  [.register firstTask {},
   .register secondTask { link := { before := [.restart 1], closed := true } }]

/-- **A stale removal hits another window.**  After the restart, retiring task 42 sends the removal
    of object 1 to a process that never bound anything for task 42, and whose object 1 is the
    window of task 43; that window is removed. -/
theorem stale_removal_hits_another_window :
    ((World.run {} restartedRun).server.registry.registrations[(1 : TaskObjectId)]?.map (·.task)) =
        some (some 43) ∧
      (World.run {} (restartedRun ++ [.retire 42 1 {} {}])).log =
        [.bound 0 1 42, .bound 1 1 43, .remove ⟨42, 1, 1, 0, 2, 1⟩] ∧
      Record.bound 1 1 42 ∉ [Record.bound 0 1 42, .bound 1 1 43] ∧
      (World.run {} (restartedRun ++ [.retire 42 1 {} {}])).server.registry.registrations[
        (1 : TaskObjectId)]? = none := by
  decide +kernel

end Droidloom.TaskControl.Client
