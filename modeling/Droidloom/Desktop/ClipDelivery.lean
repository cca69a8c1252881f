/-
  Which desktop clips reach Android.

  The host keeps every clip it read from the desktop for the peer: a new connection starts with it,
  and the writer works off the mailbox.  What can lose one is a revision notice: it takes the
  mailbox's slot, also when the clip in it is the host's clip and the writer has not taken it.  A
  notice is put when Android sends a clip with an old base, and when a new selection starts to be
  read.  A run delivers every desktop clip EXACTLY WHEN no notice of it overwrites one.
-/
import Droidloom.Desktop.Clipboard

namespace Droidloom.Clipboard

namespace Host

/-! ## The property and the condition -/

/-- The host's clip, if it was read from the desktop, is on its way to a peer that is up. -/
def carried (h : Host) : Bool :=
  match h.current with
  | some ⟨clip, .desktop⟩ => !h.peer || h.link.carries clip
  | _ => true

/-- `carried`, except inside a call of `selection` that is about to replace the clip. -/
def delivered (h : Host) : Bool := h.selecting.any (·.immediate) || h.carried

/-- The desktop clip is in the mailbox and nowhere else on the connection. -/
def uncollected (h : Host) : Bool :=
  match h.current with
  | some ⟨clip, .desktop⟩ =>
    h.peer && h.link.mailbox = some (.clip clip) && h.link.writing ≠ some (.clip clip) &&
      !h.link.written.contains (.clip clip)
  | _ => false

/-- The step puts a revision notice and keeps the host's clip: a selection that has to be read, or
an Android clip with an old base. -/
def notices (h : Host) : Step → Bool
  | .select offer pipes =>
    h.selecting.isNone && !h.isOwn (offer.getD []) && !h.isEcho offer &&
      !Selecting.immediate ⟨offer, pipes⟩
  | .handle =>
    h.selecting.isNone && match h.events with
      | .android connection (.clip clip) :: _ =>
        connection = h.connection && clip.description.base ≠ h.revision
      | _ => false
  | _ => false

/-- No notice overwrites a desktop clip that the writer has yet to take. -/
def spares (h : Host) (step : Step) : Bool := !(h.notices step && h.uncollected)

def sparesAlong (h : Host) : List Step → Bool
  | [] => true
  | step :: steps => h.spares step && (h.step step).sparesAlong steps

/-! ## What each operation does to the mailbox -/

section Operations

variable {h : Host}

theorem carried_importClip (h : Host) (clip : Clip) : (h.importClip clip).carried = true := by
  unfold importClip outbound
  split
  · simp [carried, setLink, Host.link, Link.carries]
  case isFalse hpeer =>
    simp only [Bool.not_eq_true] at hpeer
    simp [carried, hpeer]

/-- A notice keeps a clip on its way exactly when the clip was not in the mailbox alone. -/
theorem carried_notice (h : Host) (revision : Nat) :
    (h.outbound (.sync revision)).carried = (h.carried && !h.uncollected) := by
  obtain hpeer | hpeer : h.peer = false ∨ h.peer = true := by cases h.peer <;> simp
  · have hsame : h.outbound (.sync revision) = h := by simp [outbound, hpeer]
    rw [hsame]
    cases hcurrent : h.current with
    | none => simp [carried, uncollected, hcurrent]
    | some current =>
      obtain ⟨clip, origin⟩ := current
      cases origin <;> simp [carried, uncollected, hcurrent, hpeer]
  · unfold outbound
    rw [if_pos hpeer]
    cases hcurrent : h.current with
    | none => simp [carried, uncollected, setLink, hcurrent]
    | some current =>
      obtain ⟨clip, origin⟩ := current
      cases origin with
      | android => simp [carried, uncollected, setLink, hcurrent]
      | desktop =>
        simp only [carried, uncollected, setLink, hcurrent, hpeer, Host.link, Link.carries,
          Function.update_self]
        grind

theorem Link.carries_take {link : Link} {clip : Clip} (hcarries : link.carries clip = true) :
    link.take.carries clip = true := by
  unfold Link.take
  split
  case h_1 command hwriting _ hmailbox =>
    simp only [Link.carries, hwriting, hmailbox] at hcarries ⊢
    simpa using hcarries
  · exact hcarries

theorem Link.carries_finish {link : Link} {clip : Clip} (hcarries : link.carries clip = true) :
    link.finish.carries clip = true := by
  unfold Link.finish
  split
  case h_1 command hwriting =>
    simp only [Link.carries, hwriting] at hcarries ⊢
    grind
  · exact hcarries

/-- A writer's turn keeps every clip that its link carries. -/
theorem carried_setLink (hcarried : h.carried = true) (connection : Nat) {link : Link}
    (hkeeps : ∀ clip, (h.links connection).carries clip = true → link.carries clip = true) :
    (h.setLink connection link).carried = true := by
  unfold carried at hcarried ⊢
  show (match h.current with
    | some ⟨clip, .desktop⟩ => !h.peer || (Function.update h.links connection link
        h.connection).carries clip
    | _ => true) = true
  split at hcarried
  · by_cases hconnection : h.connection = connection
    · subst hconnection
      rw [Function.update_self]
      simp only [Bool.or_eq_true] at hcarried ⊢
      exact hcarried.imp_right (hkeeps _)
    · rw [Function.update_of_ne hconnection]
      exact hcarried
  · rfl

theorem carried_of_down (hpeer : h.peer = false) : h.carried = true := by
  unfold carried
  split <;> simp [hpeer]

@[simp] theorem peer_dropPeer (h : Host) : h.dropPeer.peer = false := by
  unfold dropPeer
  split
  · rfl
  case isFalse hpeer => simpa using hpeer

@[simp] theorem selecting_dropPeer (h : Host) : h.dropPeer.selecting = h.selecting := by
  unfold dropPeer
  split <;> rfl

theorem carried_greet (hpeer : h.peer = true) : h.greet.carried = true := by
  unfold greet
  split
  case h_1 current hcurrent =>
    obtain ⟨clip, origin⟩ := current
    simp only [outbound, hpeer, if_true]
    cases origin <;> simp [carried, hcurrent, setLink, Host.link, Link.carries]
  case h_2 hcurrent =>
    simp [outbound, hpeer, carried, hcurrent, setLink]

theorem carried_accept (hcarried : h.carried = true) (framework cloned : Bool) :
    (h.accept framework cloned).carried = true := by
  unfold accept
  split
  · exact hcarried
  dsimp only
  split
  · exact carried_of_down (peer_dropPeer h)
  · exact carried_greet rfl

/-- A stale Android clip is answered with a notice; every other event keeps the clip. -/
theorem carried_handleEvent (hcarried : h.carried = true) (event : Event) :
    (h.handleEvent event).carried = true ↔
      ¬ (∃ clip, event = .android h.connection (.clip clip) ∧
        clip.description.base ≠ h.revision ∧ h.uncollected = true) := by
  cases event with
  | native revision result =>
    cases result with
    | none =>
      have hkept : (h.handleEvent (.native revision none)).carried = true := by
        simp only [handleEvent]
        split <;> exact hcarried
      simp [hkept]
    | some clip =>
      have hkept : (h.handleEvent (.native revision (some clip))).carried = true := by
        simp only [handleEvent]
        split
        · exact carried_importClip h clip
        · exact hcarried
      simp [hkept]
  | disconnected connection =>
    have hkept : (h.handleEvent (.disconnected connection)).carried = true := by
      simp only [handleEvent]
      split
      · exact carried_of_down (peer_dropPeer h)
      · exact hcarried
    simp [hkept]
  | android connection received =>
    by_cases hconnection : connection = h.connection
    case neg =>
      have hsame : h.handleEvent (.android connection received) = h := if_neg hconnection
      simp [hsame, hcarried, hconnection]
    subst hconnection
    have hhandle : h.handleEvent (.android h.connection received) = h.handleAndroid received :=
      if_pos rfl
    rw [hhandle]
    cases received with
    | message => simp [handleAndroid, hcarried]
    | ack id =>
      have hkept : (h.handleAndroid (.ack id)).carried = true := by
        simp only [handleAndroid]
        split <;> exact hcarried
      simp [hkept]
    | clip clip =>
      simp only [handleAndroid]
      by_cases hbase : clip.description.base = h.revision
      · rw [if_neg (by simp [hbase]), carried_notice]
        simp [carried, uncollected, hbase]
      · rw [if_pos hbase, carried_notice, hcarried]
        simp [hbase]

end Operations

/-! ## One step -/

section Steps

variable {h : Host}

/-- A main-thread step happens outside `selection`. -/
theorem main_of_idle (hidle : h.selecting = none) (next : Host) : h.main next = next := by
  simp [main, hidle]

theorem main_of_selecting {selecting : Selecting} (hbusy : h.selecting = some selecting)
    (next : Host) : h.main next = h := by
  simp [main, hbusy]

theorem delivered_of_carried (hcarried : h.carried = true) : h.delivered = true := by
  simp [delivered, hcarried]

theorem delivered_iff_of_idle (hidle : h.selecting = none) :
    h.delivered = true ↔ h.carried = true := by
  simp [delivered, hidle]

@[simp] theorem selecting_outbound (h : Host) (command : Outbound) :
    (h.outbound command).selecting = h.selecting := by
  unfold outbound
  split <;> rfl

@[simp] theorem selecting_handle (h : Host) : h.handle.selecting = h.selecting := by
  unfold handle
  split
  · rfl
  case h_2 event events hevents =>
    rcases event with ⟨revision, _ | clip⟩ | ⟨connection, received⟩ | ⟨connection⟩ <;>
      simp only [handleEvent] <;> split
    · rfl
    · rfl
    · simp [importClip]
    · rfl
    · cases received with
      | message => rfl
      | ack id => simp only [handleAndroid]; split <;> rfl
      | clip clip => simp only [handleAndroid]; split <;> simp
    · rfl
    · simp
    · rfl

theorem delivered_resume (hdelivered : h.delivered = true) {selecting : Selecting}
    (hbusy : h.selecting = some selecting) : (h.resume selecting).delivered = true := by
  apply delivered_of_carried
  unfold resume
  dsimp only
  split
  · exact carried_importClip _ _
  case h_2 mimes hoffer =>
    split
    · exact carried_importClip _ _
    case isFalse hread =>
      -- the transfer does not change what is in flight
      have hcarried : h.carried = true := by
        simpa [delivered, hbusy, Selecting.immediate, hoffer, hread] using hdelivered
      split
      · exact hcarried
      split <;> exact hcarried

/-- A selection that has to be read starts with a notice; one that is known at once will replace the
clip anyway. -/
theorem delivered_select (hcarried : h.carried = true) (hidle : h.selecting = none)
    (offer : Option (List String)) (pipes : Bool) :
    (h.select offer pipes).delivered = true ↔ h.spares (.select offer pipes) = true := by
  unfold select spares notices
  by_cases hown : h.isOwn (offer.getD []) = true
  · rw [if_pos hown]
    simp only [hown, Bool.not_true, Bool.and_false, Bool.false_and, Bool.not_false, iff_true]
    exact delivered_of_carried hcarried
  rw [if_neg hown]
  by_cases hecho : h.isEcho offer = true
  · rw [if_pos hecho]
    simp only [hecho, Bool.not_true, Bool.and_false, Bool.false_and, Bool.not_false, iff_true]
    exact delivered_of_carried hcarried
  rw [if_neg hecho]
  unfold delivered
  rw [carried_notice, selecting_outbound]
  show (Selecting.immediate ⟨offer, pipes⟩ || (h.carried && !h.uncollected)) = true ↔ _
  rw [hcarried]
  simp [hidle, hown, hecho]

theorem delivered_handle (hcarried : h.carried = true) (hidle : h.selecting = none) :
    h.handle.carried = true ↔ h.spares .handle = true := by
  unfold handle spares notices
  cases hevents : h.events with
  | nil => simp [hcarried]
  | cons event events =>
    dsimp only
    rw [carried_handleEvent (h := { h with events }) hcarried]
    show (¬ ∃ clip, event = .android h.connection (.clip clip) ∧
      clip.description.base ≠ h.revision ∧ h.uncollected = true) ↔ _
    rcases event with ⟨revision, result⟩ | ⟨connection, received⟩ | ⟨connection⟩
    · simp
    · cases received with
      | clip clip => simp [hidle]; grind
      | ack id => simp
      | message => simp
    · simp

/-- A step that leaves the selection in progress alone and loses no clip. -/
theorem delivered_of_kept {next : Host} (hdelivered : h.delivered = true)
    (hselecting : next.selecting = h.selecting)
    (hkept : h.carried = true → next.carried = true) : next.delivered = true := by
  unfold delivered at hdelivered ⊢
  rw [hselecting]
  simp only [Bool.or_eq_true] at hdelivered ⊢
  exact hdelivered.imp_right hkept

/-- A main-thread step that puts no notice. -/
theorem delivered_main {next : Host} (hdelivered : h.delivered = true)
    (hkept : h.carried = true → next.carried = true) : (h.main next).delivered = true := by
  cases hselecting : h.selecting with
  | none =>
    rw [main_of_idle hselecting]
    exact delivered_of_carried (hkept ((delivered_iff_of_idle hselecting).1 hdelivered))
  | some selecting =>
    rw [main_of_selecting hselecting]
    exact hdelivered

/-- **One step** keeps the desktop clip on its way exactly when it spares it. -/
theorem delivered_step (hdelivered : h.delivered = true) (step : Step) :
    (h.step step).delivered = true ↔ h.spares step = true := by
  cases step with
  | select offer pipes =>
    cases hselecting : h.selecting with
    | none =>
      rw [step, main_of_idle hselecting]
      exact delivered_select ((delivered_iff_of_idle hselecting).1 hdelivered) hselecting offer pipes
    | some selecting =>
      rw [step, main_of_selecting hselecting]
      simp [hdelivered, spares, notices, hselecting]
  | handle =>
    cases hselecting : h.selecting with
    | none =>
      rw [step, main_of_idle hselecting]
      have hcarried := (delivered_iff_of_idle hselecting).1 hdelivered
      rw [← delivered_handle hcarried hselecting]
      exact delivered_iff_of_idle (by rw [selecting_handle, hselecting])
    | some selecting =>
      rw [step, main_of_selecting hselecting]
      simp [hdelivered, spares, notices, hselecting]
  | resume =>
    refine iff_of_true ?_ rfl
    simp only [step]
    split
    case h_1 selecting hselecting => exact delivered_resume hdelivered hselecting
    · exact hdelivered
  | accept framework cloned =>
    exact iff_of_true (delivered_main hdelivered fun hc => carried_accept hc framework cloned) rfl
  | publish =>
    refine iff_of_true (delivered_main hdelivered fun hc => ?_) rfl
    unfold publish
    split <;> exact hc
  | focus focused => exact iff_of_true (delivered_main hdelivered fun hc => hc) rfl
  | serial serial => exact iff_of_true (delivered_main hdelivered fun hc => hc) rfl
  | readDone revision result =>
    refine iff_of_true ?_ rfl
    simp only [step, readDone]
    split
    · exact delivered_of_kept hdelivered rfl fun hc => hc
    · exact hdelivered
  | receive connection received => exact iff_of_true (delivered_of_kept hdelivered rfl fun hc => hc) rfl
  | hangUp connection => exact iff_of_true (delivered_of_kept hdelivered rfl fun hc => hc) rfl
  | take connection =>
    exact iff_of_true (delivered_of_kept hdelivered rfl fun hc =>
      carried_setLink hc connection fun _ => Link.carries_take) rfl
  | finish connection =>
    exact iff_of_true (delivered_of_kept hdelivered rfl fun hc =>
      carried_setLink hc connection fun _ => Link.carries_finish) rfl
  | offerStart =>
    refine iff_of_true ?_ rfl
    simp only [step]
    split
    · exact hdelivered
    · exact delivered_of_kept hdelivered rfl fun hc => hc
  | offerDone => exact iff_of_true (delivered_of_kept hdelivered rfl fun hc => hc) rfl

/-- **A run** delivers at every state it reaches exactly when each of its steps spares. -/
theorem delivered_run (hdelivered : h.delivered = true) (steps : List Step) :
    (∀ state ∈ h.reached steps, state.delivered = true) ↔ h.sparesAlong steps = true := by
  induction steps generalizing h with
  | nil => simp [reached, sparesAlong, hdelivered]
  | cons step steps ih =>
    simp only [reached, sparesAlong, List.forall_mem_cons, Bool.and_eq_true, hdelivered, true_and]
    constructor
    · intro hall
      have hnext : (h.step step).delivered = true := by
        refine hall _ ?_
        cases steps <;> exact List.mem_cons_self
      exact ⟨(delivered_step hdelivered step).1 hnext, (ih hnext).1 hall⟩
    · rintro ⟨hspares, hrest⟩
      have hnext := (delivered_step hdelivered step).2 hspares
      exact (ih hnext).2 hrest

end Steps

/-! ## Revisions -/

section Revisions

variable {h : Host}

/-- The revision only grows, and a clip of Android's becomes the host's only on the revision it was
made for. -/
structure Advances (h next : Host) : Prop where
  revision : h.revision ≤ next.revision
  android : ∀ clip, next.current = some ⟨clip, .android⟩ →
    h.current = some ⟨clip, .android⟩ ∨
      ∃ received events, h.events = .android h.connection (.clip received) :: events ∧
        received.description.base = h.revision

theorem Advances.of_eq {next : Host} (hrevision : next.revision = h.revision)
    (hcurrent : next.current = h.current) : Advances h next :=
  ⟨hrevision.ge, fun clip hclip => Or.inl (hcurrent ▸ hclip)⟩

theorem Advances.of_desktop {next : Host} (hrevision : h.revision ≤ next.revision) {clip : Clip}
    (hcurrent : next.current = some ⟨clip, .desktop⟩) : Advances h next :=
  ⟨hrevision, fun clip' h' => by rw [hcurrent] at h'; cases h'⟩

@[simp] theorem revision_outbound (h : Host) (command : Outbound) :
    (h.outbound command).revision = h.revision := by
  unfold outbound
  split <;> rfl

@[simp] theorem current_outbound (h : Host) (command : Outbound) :
    (h.outbound command).current = h.current := by
  unfold outbound
  split <;> rfl

@[simp] theorem revision_importClip (h : Host) (clip : Clip) :
    (h.importClip clip).revision = h.revision := by
  simp [importClip]

@[simp] theorem current_importClip (h : Host) (clip : Clip) :
    (h.importClip clip).current = some ⟨clip, .desktop⟩ := by
  simp [importClip]

@[simp] theorem revision_dropPeer (h : Host) : h.dropPeer.revision = h.revision := by
  unfold dropPeer
  split <;> rfl

@[simp] theorem current_dropPeer (h : Host) : h.dropPeer.current = h.current := by
  unfold dropPeer
  split <;> rfl

theorem advances_accept (framework cloned : Bool) : Advances h (h.accept framework cloned) := by
  have hgreet : ∀ host : Host, host.greet.revision = host.revision ∧
      host.greet.current = host.current := by
    intro host
    unfold greet
    split <;> simp
  unfold accept
  split
  · exact .of_eq rfl rfl
  dsimp only
  split
  · exact .of_eq (by simp) (by simp)
  · exact .of_eq ((hgreet _).1.trans (by simp [setLink])) ((hgreet _).2.trans (by simp [setLink]))

theorem advances_select (offer : Option (List String)) (pipes : Bool) :
    Advances h (h.select offer pipes) := by
  unfold select
  split
  · exact .of_eq rfl rfl
  split
  · exact .of_eq rfl rfl
  · exact ⟨by simp, fun clip hclip => Or.inl (by simpa using hclip)⟩

theorem advances_resume (selecting : Selecting) : Advances h (h.resume selecting) := by
  unfold resume
  dsimp only
  split
  · exact .of_desktop (by simp) (current_importClip _ _)
  split
  · exact .of_desktop (by simp) (current_importClip _ _)
  split
  · exact .of_eq rfl rfl
  split <;> exact .of_eq rfl rfl

theorem advances_handle : Advances h h.handle := by
  unfold handle
  cases hevents : h.events with
  | nil => exact .of_eq rfl rfl
  | cons event events =>
    rcases event with ⟨revision, _ | clip⟩ | ⟨connection, received⟩ | ⟨connection⟩
    · simp only [handleEvent]
      split <;> exact .of_eq rfl rfl
    · simp only [handleEvent]
      split
      · exact .of_desktop (by simp) (current_importClip _ _)
      · exact .of_eq rfl rfl
    · simp only [handleEvent]
      split
      case isFalse => exact .of_eq rfl rfl
      case isTrue hconnection =>
      subst hconnection
      cases received with
      | message => exact .of_eq rfl rfl
      | ack id =>
        simp only [handleAndroid]
        split <;> exact .of_eq rfl rfl
      | clip clip =>
        simp only [handleAndroid]
        split
        · exact .of_eq (by simp) (by simp)
        case isFalse hbase =>
          simp only [ne_eq, Decidable.not_not] at hbase
          exact ⟨by simp, fun _ _ => Or.inr ⟨clip, events, hevents, hbase⟩⟩
    · simp only [handleEvent]
      split
      · exact .of_eq (by simp) (by simp)
      · exact .of_eq rfl rfl

theorem advances_main {next : Host} (hadvances : Advances h next) : Advances h (h.main next) := by
  unfold main
  split
  · exact hadvances
  · exact .of_eq rfl rfl

theorem advances_step (step : Step) : Advances h (h.step step) := by
  cases step with
  | select offer pipes => exact advances_main (advances_select offer pipes)
  | resume =>
    simp only [step]
    split
    · exact advances_resume _
    · exact .of_eq rfl rfl
  | accept framework cloned => exact advances_main (advances_accept framework cloned)
  | handle => exact advances_main advances_handle
  | publish =>
    refine advances_main ?_
    unfold publish
    split <;> exact .of_eq rfl rfl
  | readDone revision result =>
    simp only [step, readDone]
    split <;> exact .of_eq rfl rfl
  | offerStart =>
    simp only [step]
    split <;> exact .of_eq rfl rfl
  | focus focused => exact advances_main (.of_eq rfl rfl)
  | serial serial => exact advances_main (.of_eq rfl rfl)
  | receive _ _ | hangUp _ | take _ | finish _ | offerDone => exact .of_eq rfl rfl

end Revisions

end Host

/-! ## Delivery -/

/-- **Desktop clips reach Android exactly when no notice overwrites one.**  In every run, revisions
never decrease and Android's clip is taken only on the current revision; and at every state reached
the desktop clip of a connected host is in the mailbox, being written or written if and only if
every step of the run that puts a revision notice finds the clip collected. -/
theorem clips_delivered (session : String) (background : Bool) (steps : List Step) :
    (∀ h : Host, ∀ step, h.Advances (h.step step)) ∧
      ((∀ h ∈ (Host.new session background).reached steps, h.delivered = true) ↔
        (Host.new session background).sparesAlong steps = true) :=
  ⟨fun _ step => Host.advances_step step, Host.delivered_run rfl steps⟩

/-- An Android clip made before the selection arrives right behind the selection's own: the notice
it is answered with takes the slot, and the text is gone. -/
theorem desktop_clip_overwritten :
    ∃ h ∈ (Host.new "s" true).reached
      [.accept true true, .take 1, .finish 1,
        .select (some [TEXT]) true, .resume, .take 1, .finish 1,
        .readDone 1 (some ⟨some "copied", none, [], []⟩),
        .receive 1 (.clip ⟨⟨"android", 0, some "older", none, []⟩, []⟩),
        .handle, .handle],
      h.delivered = false ∧ h.peer = true ∧ h.link.mailbox = some (.sync 1) ∧
        h.link.writing = none ∧ h.link.written = [.sync 0, .sync 1] ∧
        h.current = some ⟨⟨⟨"s-1", 1, some "copied", none, []⟩, []⟩, .desktop⟩ := by
  decide +kernel

end Droidloom.Clipboard
