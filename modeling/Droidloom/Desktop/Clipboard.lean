/-
  The clipboard between a Wayland desktop and Android (`droidloom-wayland`, `clipboard`).

  The main thread owns the host's clip and its revision.  A desktop selection is read by a worker;
  a reader thread per connection posts what Android sends, and a writer thread per connection
  sends what it finds in that connection's MAILBOX, which has one slot: what the main thread puts
  there replaces what the writer has not taken.

  A step is one thread's turn between two points where another may run.  `selection` puts a revision
  notice and may put a clip after it, so it takes two steps; of `pump`, accepting a connection,
  handling one event and publishing are steps of their own.  Socket writes do not fail.
-/
import Mathlib

namespace Droidloom.Clipboard

def MARKER : String := "application/x-droidloom-clipboard-"
def TEXT : String := "text/plain;charset=utf-8"
def URI : String := "text/uri-list"
def GNOME : String := "x-special/gnome-copied-files"
def MAX_WORKERS : Nat := 8

/-! ## Clips -/

structure Blob where
  mime : String
  name : String
  size : Nat
deriving DecidableEq, Repr

structure Description where
  id : String
  base : Nat
  text : Option String
  html : Option String
  blobs : List Blob
deriving DecidableEq, Repr

def Description.empty (description : Description) : Bool :=
  description.text.isNone && description.html.isNone && description.blobs.isEmpty

structure Clip where
  description : Description
  files : List (List UInt8)
deriving DecidableEq, Repr

/-- What a worker read from the desktop's pipes. -/
structure Content where
  text : Option String
  html : Option String
  blobs : List Blob
  files : List (List UInt8)
deriving DecidableEq, Repr

inductive Outbound
  | clip (clip : Clip)
  | sync (revision : Nat)
deriving DecidableEq, Repr

inductive Received
  | ack (id : String)
  | message
  | clip (clip : Clip)
deriving DecidableEq, Repr

inductive Event
  | native (revision : Nat) (result : Option Clip)
  | android (connection : Nat) (received : Received)
  | disconnected (connection : Nat)
deriving DecidableEq, Repr

/-! ## Connections -/

/-- A connection's mailbox and what its writer thread has done. -/
structure Link where
  mailbox : Option Outbound
  closed : Bool
  writing : Option Outbound
  written : List Outbound
deriving DecidableEq, Repr

def Link.new : Link := ⟨none, false, none, []⟩

/-- The clip is in the mailbox, being written, or written completely. -/
def Link.carries (link : Link) (clip : Clip) : Bool :=
  link.mailbox = some (.clip clip) || link.writing = some (.clip clip) ||
    link.written.contains (.clip clip)

/-- The writer takes what the mailbox holds, unless the mailbox is closed. -/
def Link.take (link : Link) : Link :=
  match link.writing, link.closed, link.mailbox with
  | none, false, some command => { link with mailbox := none, writing := some command }
  | _, _, _ => link

def Link.finish (link : Link) : Link :=
  match link.writing with
  | some command => { link with writing := none, written := link.written ++ [command] }
  | none => link

/-! ## The host -/

/-- Where the host's clip comes from; the code does not record it. -/
inductive Origin
  | desktop | android
deriving DecidableEq, Repr

structure Current where
  clip : Clip
  origin : Origin
deriving DecidableEq, Repr

/-- A call of `selection` that has put its notice and not returned. -/
structure Selecting where
  offer : Option (List String)
  /-- Every pipe of the transfer can be made. -/
  pipes : Bool
deriving DecidableEq, Repr

/-- The types that are transferred: one text, one HTML, and one of files or an image. -/
def selected (mimes : List String) : List String :=
  let text := [TEXT, "text/plain;charset=UTF-8", "UTF8_STRING", "text/plain"].find? mimes.contains
  let html := if mimes.contains "text/html" then ["text/html"] else []
  let files :=
    if mimes.contains URI then [URI]
    else if mimes.contains GNOME then [GNOME]
    else ((mimes.find? (· = "image/png")).or
      (mimes.find? (fun m => "image/".isPrefixOf m))).toList
  text.toList ++ html ++ files

/-- A selection whose clip is known at once: none, or one with nothing that is transferred. -/
def Selecting.immediate (selecting : Selecting) : Bool :=
  match selecting.offer with
  | none => true
  | some mimes => (selected mimes).isEmpty

/-- The host.  `links` has the mailbox of every connection, `connection` the number of the newest,
and `peer` whether that one is up. -/
structure Host where
  session : String
  background : Bool
  peer : Bool
  connection : Nat
  revision : Nat
  offer : Option (List String)
  current : Option Current
  publishPending : Bool
  published : Option Clip
  focused : Bool
  serial : Option Nat
  awaiting : Option String
  pending : Bool
  /-- The revisions that workers are reading. -/
  reads : List Nat
  /-- Workers that write a clip to the desktop. -/
  offers : Nat
  events : List Event
  selecting : Option Selecting
  links : Nat → Link

namespace Host

def new (session : String) (background : Bool) : Host where
  session := session
  background := background
  peer := false
  connection := 0
  revision := 0
  offer := none
  current := none
  publishPending := false
  published := none
  focused := false
  serial := none
  awaiting := none
  pending := false
  reads := []
  offers := 0
  events := []
  selecting := none
  links := fun _ => Link.new

def link (h : Host) : Link := h.links h.connection

def setLink (h : Host) (connection : Nat) (link : Link) : Host :=
  { h with links := Function.update h.links connection link }

def workers (h : Host) : Nat := h.reads.length + h.offers

/-- The identity under which a revision is known. -/
def id (h : Host) : String := h.session ++ "-" ++ toString h.revision

/-- The newest command for the peer replaces one that its writer has not taken. -/
def outbound (h : Host) (command : Outbound) : Host :=
  if h.peer then h.setLink h.connection { h.link with mailbox := some command } else h

def importClip (h : Host) (clip : Clip) : Host :=
  { h with awaiting := some clip.description.id, pending := true,
           current := some ⟨clip, .desktop⟩ }.outbound (.clip clip)

/-! ### A desktop selection -/

/-- The desktop shows a clip that this bridge published. -/
def isOwn (h : Host) (mimes : List String) : Bool :=
  h.current.any fun current => mimes.contains (MARKER ++ current.clip.description.id)

def isEcho (h : Host) (offer : Option (List String)) : Bool :=
  offer.isNone && h.current.any (·.clip.description.empty)

/-- `selection` up to the revision notice. -/
def select (h : Host) (offer : Option (List String)) (pipes : Bool) : Host :=
  if h.isOwn (offer.getD []) then { h with offer }
  else if h.isEcho offer then { h with offer := none }
  else
    { h with offer := none, revision := h.revision + 1, publishPending := false,
             awaiting := none, pending := true,
             selecting := some ⟨offer, pipes⟩ }.outbound (.sync (h.revision + 1))

def description (h : Host) : Description := ⟨h.id, h.revision, none, none, []⟩

/-- The rest of `selection`: an empty clip, a transfer that cannot start, or a worker. -/
def resume (h : Host) (selecting : Selecting) : Host :=
  let h := { h with selecting := none, offer := selecting.offer }
  match selecting.offer with
  | none => h.importClip ⟨h.description, []⟩
  | some mimes =>
    if (selected mimes).isEmpty then h.importClip ⟨h.description, []⟩
    else if MAX_WORKERS ≤ h.workers then { h with pending := false }
    else if ¬ selecting.pipes then { h with pending := false }
    else { h with reads := h.reads ++ [h.revision] }

/-! ### The event loop -/

/-- Dropping the peer closes its mailbox. -/
def dropPeer (h : Host) : Host :=
  if h.peer then { h.setLink h.connection { h.link with closed := true } with peer := false }
  else h

/-- What a new peer is sent first. -/
def greet (h : Host) : Host :=
  match h.current with
  | some current => h.outbound (.clip current.clip)
  | none => h.outbound (.sync h.revision)

/-- A new connection takes the place of the peer. -/
def accept (h : Host) (framework cloned : Bool) : Host :=
  if ¬ framework then h
  else
    let next := { h.dropPeer with connection := h.connection + 1 }
    if ¬ cloned then next
    else greet { next.setLink next.connection Link.new with peer := true }

def handleAndroid (h : Host) : Received → Host
  | .clip clip =>
    if clip.description.base ≠ h.revision then h.outbound (.sync h.revision)
    else
      let revision := h.revision + 1
      let clip := { clip with description := { clip.description with base := revision } }
      { h with revision, awaiting := none, pending := false, current := some ⟨clip, .android⟩,
               publishPending := true }.outbound (.sync revision)
  | .ack id =>
    if h.awaiting = some id then { h with awaiting := none, pending := false } else h
  | .message => h

def handleEvent (h : Host) : Event → Host
  | .native revision (some clip) => if revision = h.revision then h.importClip clip else h
  | .native revision none => if revision = h.revision then { h with pending := false } else h
  | .android connection received =>
    if connection = h.connection then h.handleAndroid received else h
  | .disconnected connection =>
    if connection = h.connection then
      { h.dropPeer with awaiting := none, pending := false }
    else h

def handle (h : Host) : Host :=
  match h.events with
  | [] => h
  | event :: events => { h with events }.handleEvent event

def publish (h : Host) : Host :=
  if h.publishPending ∧ (h.background ∨ h.focused ∧ h.serial.isSome) then
    { h with published := (h.current.map (·.clip)).or h.published, publishPending := false }
  else h

/-! ### The other threads -/

/-- A worker's read of a revision ends. -/
def readDone (h : Host) (revision : Nat) (result : Option Content) : Host :=
  if revision ∈ h.reads then
    let clip := result.map fun content =>
      (⟨⟨h.session ++ "-" ++ toString revision, revision, content.text, content.html, content.blobs⟩,
        content.files⟩ : Clip)
    { h with reads := h.reads.erase revision, events := h.events ++ [.native revision clip] }
  else h

end Host

/-! ## Runs -/

inductive Step
  | select (offer : Option (List String)) (pipes : Bool)
  | resume
  | accept (framework cloned : Bool)
  | handle
  | publish
  | focus (focused : Bool)
  | serial (serial : Nat)
  | readDone (revision : Nat) (result : Option Content)
  | receive (connection : Nat) (received : Received)
  | hangUp (connection : Nat)
  | take (connection : Nat)
  | finish (connection : Nat)
  | offerStart
  | offerDone
deriving DecidableEq

namespace Host

/-- A step of the main thread, while no call of `selection` is in progress. -/
def main (h : Host) (next : Host) : Host :=
  if h.selecting.isNone then next else h

def step (h : Host) : Step → Host
  | .select offer pipes => h.main (h.select offer pipes)
  | .resume =>
    match h.selecting with
    | some selecting => h.resume selecting
    | none => h
  | .accept framework cloned => h.main (h.accept framework cloned)
  | .handle => h.main h.handle
  | .publish => h.main h.publish
  | .focus focused =>
    h.main { h with focused, serial := if focused then h.serial else none }
  | .serial serial => h.main { h with serial := some serial }
  | .readDone revision result => h.readDone revision result
  | .receive connection received =>
    { h with events := h.events ++ [.android connection received] }
  | .hangUp connection => { h with events := h.events ++ [.disconnected connection] }
  | .take connection => h.setLink connection ((h.links connection).take)
  | .finish connection => h.setLink connection ((h.links connection).finish)
  | .offerStart => if MAX_WORKERS ≤ h.workers then h else { h with offers := h.offers + 1 }
  | .offerDone => { h with offers := h.offers - 1 }

/-- The states of a run after its start. -/
def reached (h : Host) : List Step → List Host
  | [] => [h]
  | step :: steps => h :: (h.step step).reached steps

end Host

end Droidloom.Clipboard
