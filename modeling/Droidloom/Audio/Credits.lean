/-
  The audio broker against any client (`serve_connection` of `droidloom-audio`).

  The client chooses every field of every record, and may send records of any kind at any time; the
  audio graph may answer anything to each call; the socket may refuse a reply.  What the broker does
  with them is a log of events: records that arrived, calls to the graph, replies that were sent.

  All is said about the log alone.  A credit is OUTSTANDING from the reply that names its region
  until the graph is asked to take a buffer back; the stream is ACTIVE from a start until a pause or
  a standby.  `Fine` says what each event needs of the log before it, and `Ready` ties the broker's
  variables to the log, so that the broker's guards give what the events need.
-/
import Droidloom.Lib.History
import Droidloom.Audio.Agreement

namespace Droidloom.Audio.Credits

open Fallible Triple History

/-! ## Reading the log -/

/-- The region was handed out, and no buffer was given back since. -/
def Outstanding (log : List Event) (region : Region) : Prop :=
  Since (·.grants = some region) (·.isSubmit) log

def Active (log : List Event) : Prop :=
  Since (· = .asked (.control START)) (·.stops) log

/-- The numbers of the records that came, and of the replies that went. -/
def arrivals (log : List Event) : List Nat := log.filterMap (·.arrival)

def replies (log : List Event) : List Nat := log.filterMap (·.answer)

/-- Whole frames inside the shared buffer. -/
structure Inside (session : Session) (region : Region) : Prop where
  slot : region.slot < BUFFERS
  frames : 0 < region.frames
  aligned : region.offset % session.format.frameBytes = 0
  bounded : region.offset + region.frames * session.format.frameBytes ≤ session.format.bytes

/-- What an event needs of the log before it. -/
structure Fine (session : Session) (before : List Event) (e : Event) : Prop where
  /-- A region is handed out while no other is, and it is inside the buffer. -/
  grant : ∀ region, e.grants = some region →
    Inside session region ∧ ∀ other, ¬ Outstanding before other
  submit : ∀ slot frames, e = .asked (.submit slot frames) →
    ∃ region, Outstanding before region ∧ slot = region.slot ∧ frames ≤ region.frames
  acquire : ∀ frames, e = .asked (.acquire frames) →
    Active before ∧ ∀ region, ¬ Outstanding before region
  control : ∀ command, e = .asked (.control command) → ∀ region, ¬ Outstanding before region
  /-- A record is looked at when all before it are answered, -/
  arrival : ∀ number, e.arrival = some number → replies before = arrivals before
  /-- and processed only if its number is larger than theirs. -/
  fresh : ∀ number, e = .arrived number true → ∀ earlier, .arrived earlier true ∈ before →
    earlier < number
  /-- Nothing follows an error reply. -/
  live : ∀ x ∈ before, x.isError = false

/-! ## What the broker's variables say -/

/-- A log without a fault so far, with the numbers that still have to be answered. -/
structure Sound (session : Session) (s : Conn) (owed : List Nat) : Prop where
  fine : Along (Fine session) s.log
  calm : ∀ x ∈ s.log, x.isError = false
  owes : arrivals s.log = replies s.log ++ owed
  previous : ∀ number, .arrived number true ∈ s.log → number ≤ s.previousRequest

structure Ready (session : Session) (s : Conn) (owed : List Nat) : Prop
    extends Sound session s owed where
  held : ∀ region, s.held = some region ↔ Outstanding s.log region
  active : s.active = true ↔ Active s.log

section Logs

variable {session : Session} {s : Conn} {owed : List Nat} {log : List Event} {e : Event}
  {region : Region}

theorem outstanding_concat : Outstanding (log ++ [e]) region ↔
    e.grants = some region ∨ Outstanding log region ∧ ¬ e.isSubmit = true := since_concat

theorem active_concat : Active (log ++ [e]) ↔
    e = .asked (.control START) ∨ Active log ∧ ¬ e.stops := since_concat

theorem arrivals_concat : arrivals (log ++ [e]) = arrivals log ++ e.arrival.toList := by
  rw [arrivals, List.filterMap_append]
  cases h : e.arrival <;> simp [arrivals, h]

theorem replies_concat : replies (log ++ [e]) = replies log ++ e.answer.toList := by
  rw [replies, List.filterMap_append]
  cases h : e.answer <;> simp [replies, h]

/-- Soundness is about the log and the last number only. -/
theorem Sound.congr {s' : Conn} (h : Sound session s owed) (hlog : s'.log = s.log)
    (hprevious : s'.previousRequest = s.previousRequest) : Sound session s' owed := by
  refine ⟨?_, ?_, ?_, ?_⟩
  · rw [hlog]
    exact h.fine
  · rw [hlog]
    exact h.calm
  · rw [hlog]
    exact h.owes
  · rw [hlog, hprevious]
    exact h.previous

/-- A call to the graph adds to the log what it needs, and owes no more than before. -/
theorem Sound.asked {call : Ask} (h : Sound session s owed)
    (hfine : Fine session s.log (.asked call)) : Sound session (s.note (.asked call)) owed := by
  refine ⟨h.fine.concat hfine, ?_, ?_, ?_⟩
  · intro x hx
    rcases List.mem_append.mp hx with hx | hx
    · exact h.calm x hx
    · rw [List.mem_singleton.mp hx]
      rfl
  · show arrivals (s.log ++ [_]) = replies (s.log ++ [_]) ++ owed
    rw [arrivals_concat, replies_concat, h.owes]
    simp [Event.arrival, Event.answer]
  · intro number hnumber
    rcases List.mem_append.mp hnumber with hx | hx
    · exact h.previous number hx
    · simp at hx

/-- A reply that is no error settles the debt. -/
theorem Sound.replied {record : Record} (h : Sound session s [record.request])
    (hfine : Fine session s.log (.replied record)) (hop : record.op ≠ .error) :
    Sound session (s.note (.replied record)) [] := by
  refine ⟨h.fine.concat hfine, ?_, ?_, ?_⟩
  · intro x hx
    rcases List.mem_append.mp hx with hx | hx
    · exact h.calm x hx
    · rw [List.mem_singleton.mp hx]
      simpa [Event.isError] using hop
  · show arrivals (s.log ++ [_]) = replies (s.log ++ [_]) ++ []
    rw [arrivals_concat, replies_concat, h.owes]
    simp [Event.arrival, Event.answer]
  · intro number hnumber
    rcases List.mem_append.mp hnumber with hx | hx
    · exact h.previous number hx
    · simp at hx

/-- Asking for a position and replying without a region need nothing. -/
theorem Sound.fine_position (h : Sound session s owed) :
    Fine session s.log (.asked .position) := by
  refine ⟨?_, ?_, ?_, ?_, ?_, ?_, h.calm⟩
  all_goals simp [Event.grants, Event.arrival]

theorem grants_eq_none {record : Record}
    (hop : record.op ≠ .acquire ∧ record.op ≠ .acquirePosition) :
    (Event.replied record).grants = none := by
  rw [Event.grants]
  split
  · exact absurd ‹_› hop.1
  · exact absurd ‹_› hop.2
  · rfl

theorem Sound.fine_reply {record : Record} (h : Sound session s owed)
    (hop : record.op ≠ .acquire ∧ record.op ≠ .acquirePosition) :
    Fine session s.log (.replied record) := by
  refine ⟨?_, ?_, ?_, ?_, ?_, ?_, h.calm⟩
  · simp [grants_eq_none hop]
  all_goals simp [Event.arrival]

end Logs

/-! ## The parts of a request -/

section Parts

variable {session : Session} {world : World} {s : Conn} {request : Request} {owed : List Nat}

/-- A call to the graph is logged, and its answer may be a failure. -/
theorem ends_ask {α : Type} {call : Ask} {answer : List Event → Except IoError α}
    (h : Sound session s owed) (hfine : Fine session s.log (.asked call)) :
    Ends (ask call answer) s (fun a s' => s' = s.note (.asked call) ∧ answer s'.log = .ok a)
      fun s' => Sound session s' owed := by
  refine ends_modify_bind (ends_get_bind (ends_mapErr ?_ ?_))
  · intro _ _
    exact h.asked hfine
  · intro a ha
    exact ⟨rfl, ha⟩

theorem ends_reply {op : Op} {values : Values} :
    Ends (reply world request op values) s
      (fun _ s' => s' = s.note (.replied ⟨op, request.number, request.generation, values⟩))
      fun s' => s' = s := by
  refine ends_get_bind (ends_bind (Q := fun _ s' => s' = s) (ends_mapErr (fun _ _ => rfl)
    fun _ _ => rfl) ?_)
  rintro _ _ rfl
  exact ends_modify rfl

/-- A reply without a region leaves the broker ready for the next record. -/
theorem ends_quiet_reply {op : Op} {values : Values} (h : Ready session s [request.number])
    (hop : op ≠ .acquire ∧ op ≠ .acquirePosition) (herror : op ≠ .error) :
    Ends (reply world request op values) s (fun _ s' => Ready session s' [])
      fun s' => Sound session s' [request.number] := by
  refine ends_reply.mono ?_ ?_
  · rintro _ _ rfl
    set record : Record := ⟨op, request.number, request.generation, values⟩ with hrecord
    have hfine : Fine session s.log (.replied record) := h.toSound.fine_reply hop
    refine ⟨Sound.replied h.toSound hfine herror, ?_, ?_⟩
    · intro region
      show s.held = some region ↔ Outstanding (s.log ++ [.replied record]) region
      rw [outstanding_concat, grants_eq_none hop, h.held]
      simp [Event.isSubmit]
    · show s.active = true ↔ Active (s.log ++ [.replied record])
      rw [active_concat, h.active]
      simp [Event.stops]
  · rintro _ rfl
    exact h.toSound

/-- Calls that neither give a buffer back nor control the stream leave credit and activity. -/
theorem Ready.asked {call : Ask} (h : Ready session s owed)
    (hfine : Fine session s.log (.asked call)) (hsubmit : (Event.asked call).isSubmit = false)
    (hcontrol : ∀ command, call ≠ .control command) : Ready session (s.note (.asked call)) owed := by
  refine ⟨h.toSound.asked hfine, ?_, ?_⟩
  · intro region
    show s.held = some region ↔ Outstanding (s.log ++ [.asked call]) region
    rw [outstanding_concat, h.held]
    simp [hsubmit, Event.grants]
  · show s.active = true ↔ Active (s.log ++ [.asked call])
    rw [active_concat, h.active]
    simp [Event.stops, hcontrol]

theorem Ready.position (h : Ready session s owed) :
    Ready session (s.note (.asked .position)) owed :=
  h.asked h.toSound.fine_position rfl (by simp)

/-- A position, then the reply with it. -/
theorem ends_status (h : Ready session s [request.number]) :
    Ends (status world request) s (fun _ s' => Ready session s' [])
      fun s' => Sound session s' [request.number] := by
  refine ends_bind (ends_ask h.toSound h.toSound.fine_position) ?_
  rintro position _ ⟨rfl, -⟩
  exact ends_quiet_reply h.position (by simp) (by simp)

theorem Ready.not_outstanding (h : Ready session s owed) (hheld : s.held = none)
    (region : Region) : ¬ Outstanding s.log region := by
  rw [← h.held, hheld]
  simp

theorem inside_of_fits {region : Region} {frames : Nat}
    (h : Broker.fits session region frames = true) : Inside session region := by
  simp only [Broker.fits, Bool.and_eq_true, decide_eq_true_eq] at h
  obtain ⟨⟨⟨⟨hslot, hframes⟩, -⟩, haligned⟩, hbounded⟩ := h
  exact ⟨hslot, Nat.pos_of_ne_zero hframes, haligned, hbounded⟩

/-- A buffer has at most 32 KiB, so offsets into it fit their field. -/
theorem Inside.offset_lt {region : Region} (h : Inside session region) :
    region.offset < 2 ^ 32 := by
  have hbounded := h.bounded
  have hframes := session.format.frames_range.2
  have hchannels := session.format.channels_range.2
  have hbytes : session.format.bytes ≤ 8192 * 4 := by
    unfold Format.bytes Format.frameBytes
    exact Nat.mul_le_mul hframes (by omega)
  omega

/-- The reply to an acquire names the region, in either form. -/
theorem ends_acquireValues {op : Op} {region : Region}
    (hop : op = .acquire ∨ op = .acquirePosition) (hinside : Inside session region)
    (h : Ready session s owed) :
    Ends (acquireValues session world op region) s
      (fun values s' => Ready session s' owed ∧ s'.held = s.held ∧ ∀ number generation,
        (Event.replied ⟨op, number, generation, values⟩).grants = some region)
      fun s' => Sound session s' owed := by
  refine ends_ite ?_ ?_
  · rintro rfl
    refine ends_bind (ends_ask h.toSound h.toSound.fine_position) ?_
    rintro position _ ⟨rfl, -⟩
    refine ends_bind (Q := fun credit s' => s' = s.note (.asked .position) ∧
      packCredit region = .ok credit) (ends_mapErr ?_ ?_) ?_
    · intro _ _
      exact h.position.toSound
    · intro credit hcredit
      exact ⟨rfl, hcredit⟩
    · rintro credit _ ⟨rfl, hcredit⟩
      refine ends_pure ⟨h.position, rfl, fun number generation => ?_⟩
      show (unpackCredit credit).toOption = some region
      rw [unpackCredit_packCredit hcredit hinside.offset_lt]
      rfl
  · intro hnot
    obtain rfl := hop.resolve_right hnot
    exact ends_pure ⟨h, rfl, fun _ _ => rfl⟩

theorem ends_acquire {op : Op} (hop : op = .acquire ∨ op = .acquirePosition)
    (h : Ready session s [request.number]) (hactive : s.active = true) (hheld : s.held = none) :
    Ends (acquire session world request op) s (fun _ s' => Ready session s' [])
      fun s' => Sound session s' [request.number] := by
  have hfree := h.not_outstanding hheld
  have hfine : Fine session s.log (.asked (.acquire request.values[0])) := by
    refine ⟨?_, ?_, ?_, ?_, ?_, ?_, h.calm⟩
    · simp [Event.grants]
    · simp
    · intro _ _
      exact ⟨h.active.mp hactive, hfree⟩
    all_goals simp [Event.arrival]
  refine ends_bind (ends_ask h.toSound hfine) ?_
  rintro region _ ⟨rfl, -⟩
  have h1 : Ready session (s.note (.asked (.acquire request.values[0]))) [request.number] :=
    h.asked hfine rfl (by simp)
  refine ends_rejectIf_bind (fun _ => h1.toSound) fun hfits => ?_
  have hinside : Inside session region := inside_of_fits (not_not.mp hfits)
  refine ends_bind (ends_acquireValues hop hinside h1) ?_
  rintro values s2 ⟨h2, hheld2, hgrants⟩
  refine ends_bind (ends_reply.mono (fun _ _ heq => heq) fun s' heq => heq ▸ h2.toSound) ?_
  rintro _ _ rfl
  -- the region was free until this reply, which hands it out
  have hfree2 := h2.not_outstanding (hheld2.trans hheld)
  set record : Record := ⟨op, request.number, request.generation, values⟩ with hrecord
  have hgrant : (Event.replied record).grants = some region := hgrants _ _
  have hfine2 : Fine session s2.log (.replied record) := by
    refine ⟨?_, ?_, ?_, ?_, ?_, ?_, h2.calm⟩
    · intro other hother
      rw [hgrant] at hother
      cases hother
      exact ⟨hinside, hfree2⟩
    all_goals simp [Event.arrival]
  have herror : record.op ≠ .error := by rcases hop with rfl | rfl <;> simp
  refine ends_modify ⟨(Sound.replied h2.toSound hfine2 herror).congr rfl rfl, ?_, ?_⟩
  · intro other
    show some region = some other ↔ Outstanding (s2.log ++ [.replied record]) other
    rw [outstanding_concat, hgrant]
    simp [hfree2 other]
  · show s2.active = true ↔ Active (s2.log ++ [.replied record])
    rw [active_concat, h2.active]
    simp [Event.stops]

theorem ends_submit {op : Op} (h : Ready session s [request.number]) :
    Ends (submit world request op) s (fun _ s' => Ready session s' [])
      fun s' => Sound session s' [request.number] := by
  refine ends_get_bind (ends_bind (Q := fun region s' => s' = s ∧ s.held = some region)
    (ends_okOr (fun _ => h.toSound) fun region hregion => ⟨rfl, hregion⟩) ?_)
  rintro region s' ⟨hs', hheld⟩
  subst s'
  refine ends_rejectIf_bind (fun _ => h.toSound) fun hcredit => ?_
  rw [not_or, not_not, Nat.not_lt] at hcredit
  have hfine : Fine session s.log (.asked (.submit region.slot request.values[1])) := by
    refine ⟨?_, ?_, ?_, ?_, ?_, ?_, h.calm⟩
    · simp [Event.grants]
    · rintro slot frames ⟨⟩
      exact ⟨region, (h.held region).mp hheld, rfl, hcredit.2⟩
    all_goals simp [Event.arrival]
  refine ends_bind (ends_ask h.toSound hfine) ?_
  rintro _ _ ⟨rfl, -⟩
  refine ends_modify_bind ?_
  have h1 : Ready session
      { s.note (.asked (.submit region.slot request.values[1])) with held := none }
      [request.number] := by
    refine ⟨(h.toSound.asked hfine).congr rfl rfl, ?_, ?_⟩
    · intro other
      show none = some other ↔
        Outstanding (s.log ++ [.asked (.submit region.slot request.values[1])]) other
      rw [outstanding_concat]
      simp [Event.isSubmit, Event.grants]
    · show s.active = true ↔ Active (s.log ++ [.asked (.submit region.slot request.values[1])])
      rw [active_concat, h.active]
      simp [Event.stops]
  refine ends_ite (fun _ => ends_status h1) fun _ => ?_
  exact ends_quiet_reply h1 (by simp) (by simp)

theorem ends_control (h : Ready session s [request.number]) (hheld : s.held = none) :
    Ends (control session world request) s (fun _ s' => Ready session s' [])
      fun s' => Sound session s' [request.number] := by
  refine ends_rejectIf_bind (fun _ => h.toSound) fun _ => ?_
  have hfree := h.not_outstanding hheld
  have hfine : Fine session s.log (.asked (.control request.values[0])) := by
    refine ⟨?_, ?_, ?_, ?_, ?_, ?_, h.calm⟩
    · simp [Event.grants]
    · simp
    · simp
    · intro _ _
      exact hfree
    all_goals simp [Event.arrival]
  refine ends_bind (ends_ask h.toSound hfine) ?_
  rintro _ _ ⟨rfl, -⟩
  refine ends_modify_bind (ends_quiet_reply ?_ (by simp) (by simp))
  refine ⟨(h.toSound.asked hfine).congr rfl rfl, ?_, ?_⟩
  · intro region
    show s.held = some region ↔ Outstanding (s.log ++ [.asked (.control request.values[0])]) region
    rw [outstanding_concat, h.held]
    simp [Event.isSubmit, Event.grants]
  · show (if request.values[0] = START ∨ request.values[0] = PAUSE ∨ request.values[0] = STANDBY
        then decide (request.values[0] = START) else s.active) = true ↔
      Active (s.log ++ [.asked (.control request.values[0])])
    rw [active_concat]
    -- a start makes the stream active, a pause or a standby ends that, the rest leaves it
    split
    · rename_i hcommand
      rcases hcommand with hstart | hpause | hstandby
      · simp [hstart]
      · simp [hpause, Event.stops, PAUSE, START]
      · simp [hstandby, Event.stops, STANDBY, START]
    · rename_i hcommand
      simp only [not_or] at hcommand
      simp [h.active, Event.stops, hcommand]

theorem ends_unsupported (h : Ready session s owed) :
    Ends unsupported s (fun _ s' => Ready session s' []) fun s' => Sound session s' owed :=
  ends_throw h.toSound

theorem ends_handle (h : Ready session s [request.number]) :
    Ends (handle session world request) s (fun _ s' => Ready session s' [])
      fun s' => Sound session s' [request.number] := by
  refine ends_get_bind ?_
  split
  · refine ends_ite (fun hguard => ends_acquire ?_ h hguard.2.1 hguard.2.2.1)
      fun _ => ends_unsupported h
    split <;> simp
  · refine ends_ite (fun hguard => ends_acquire ?_ h hguard.2.1 hguard.2.2.1)
      fun _ => ends_unsupported h
    split <;> simp
  · exact ends_ite (fun _ => ends_submit h) fun _ => ends_unsupported h
  · exact ends_ite (fun _ => ends_submit h) fun _ => ends_unsupported h
  · exact ends_ite (fun hguard => ends_control h hguard.1) fun _ => ends_unsupported h
  · exact ends_ite (fun _ => ends_status h) fun _ => ends_unsupported h
  all_goals exact ends_unsupported h

end Parts

/-! ## Every connection -/

/-- What holds of a connection at any time between two records. -/
structure Settled (session : Session) (world : World) (s : Conn) : Prop where
  fine : Along (Fine session) s.log
  /-- Only the last record can be without a reply, and only if the socket did not take one. -/
  answered : replies s.log = arrivals s.log ∨
    s.closed = true ∧ ∃ number, arrivals s.log = replies s.log ++ [number]
  exact : (∀ log record, world.send log record = .ok ()) → replies s.log = arrivals s.log
  ready : s.closed = false → Ready session s []

section Rounds

variable {session : Session} {world : World} {s : Conn} {request : Request}

theorem final_reply {op : Op} {values : Values} :
    final (reply world request op values) s =
      match world.send s.log ⟨op, request.number, request.generation, values⟩ with
      | .ok _ => s.note (.replied ⟨op, request.number, request.generation, values⟩)
      | .error _ => s := by
  unfold final reply
  simp only [get_bind_run]
  cases hsend : world.send s.log ⟨op, request.number, request.generation, values⟩ with
  | ok _ => rfl
  | error _ => rfl

theorem Settled.fail (error : IoError) (h : Sound session s [request.number]) :
    Settled session world (fail world request error s) := by
  unfold Credits.fail
  set record : Record :=
    ⟨.error, request.number, request.generation, #v[Broker.errorCode error, 0, 0, 0, 0]⟩
    with hrecord
  rw [final_reply]
  cases hsend : world.send s.log record with
  | ok _ =>
    have hall : replies (s.log ++ [.replied record]) = arrivals (s.log ++ [.replied record]) := by
      rw [arrivals_concat, replies_concat, h.owes]
      simp [Event.arrival, Event.answer, hrecord]
    refine ⟨h.fine.concat (h.fine_reply (by simp)), .inl hall, fun _ => hall, ?_⟩
    intro hclosed
    cases hclosed
  | error _ =>
    refine ⟨h.fine, .inr ⟨rfl, request.number, h.owes⟩, ?_, ?_⟩
    · intro htaken
      rw [htaken] at hsend
      cases hsend
    · intro hclosed
      cases hclosed

theorem Settled.of_ready (h : Ready session s []) : Settled session world s := by
  have hall : replies s.log = arrivals s.log := by simpa using h.owes.symm
  exact ⟨h.fine, .inl hall, fun _ => hall, fun _ => h⟩

/-- A record that is looked at: everything before it is answered. -/
theorem Ready.arrived {s' : Conn} {fresh : Bool} (h : Ready session s [])
    (hfresh : fresh = true → s.previousRequest < request.number ∧
      s'.previousRequest = request.number)
    (hstale : fresh = false → s'.previousRequest = s.previousRequest)
    (hheld : s'.held = s.held) (hactive : s'.active = s.active)
    (hlog : s'.log = s.log ++ [.arrived request.number fresh]) :
    Ready session s' [request.number] := by
  have hfine : Fine session s.log (.arrived request.number fresh) := by
    refine ⟨?_, ?_, ?_, ?_, ?_, ?_, h.calm⟩
    · simp [Event.grants]
    · simp
    · simp
    · simp
    · intro _ _
      simpa using h.owes.symm
    · rintro number ⟨⟩ earlier hearlier
      have hle := h.previous earlier hearlier
      have hlt := (hfresh rfl).1
      omega
  refine ⟨⟨?_, ?_, ?_, ?_⟩, ?_, ?_⟩
  · rw [hlog]
    exact h.fine.concat hfine
  · intro x hx
    rw [hlog] at hx
    rcases List.mem_append.mp hx with hx | hx
    · exact h.calm x hx
    · rw [List.mem_singleton.mp hx]
      rfl
  · rw [hlog, arrivals_concat, replies_concat, h.owes]
    simp [Event.arrival, Event.answer]
  · intro number hnumber
    rw [hlog] at hnumber
    cases fresh with
    | true =>
      obtain ⟨hlt, hprevious⟩ := hfresh rfl
      rw [hprevious]
      rcases List.mem_append.mp hnumber with hx | hx
      · have hle := h.previous number hx
        omega
      · cases List.mem_singleton.mp hx
        exact le_rfl
    | false =>
      rw [hstale rfl]
      rcases List.mem_append.mp hnumber with hx | hx
      · exact h.previous number hx
      · simp at hx
  · intro region
    rw [hheld, hlog, outstanding_concat, h.held]
    simp [Event.isSubmit, Event.grants]
  · rw [hactive, hlog, active_concat, h.active]
    simp [Event.stops]

theorem Settled.serve (h : Settled session world s) (hopen : s.closed = false) :
    Settled session world (serve session world request s) := by
  have hready := h.ready hopen
  rw [Credits.serve]
  split
  · refine Settled.fail _ (Ready.toSound ?_)
    exact hready.arrived (by simp) (fun _ => rfl) rfl rfl rfl
  · rename_i hfresh
    rw [not_or, Nat.not_le] at hfresh
    have h1 : Ready session ({ s with previousRequest := request.number }.note
        (.arrived request.number true)) [request.number] :=
      hready.arrived (fun _ => ⟨hfresh.2, rfl⟩) (by simp) rfl rfl rfl
    have hends : Ends (handle session world request) _ _ _ := ends_handle h1
    dsimp only
    cases hrun : handle session world request ({ s with previousRequest := request.number }.note
        (.arrived request.number true)) with
    | ok _ s' => exact .of_ready (hends.of_ok hrun)
    | error error s' => exact .fail error (hends.of_error hrun)

theorem Settled.step (h : Settled session world s) (packet : Packet) :
    Settled session world (step session world s packet) := by
  unfold Credits.step
  split
  · exact h
  · rename_i hopen
    have hopen : s.closed = false := by simpa using hopen
    cases packet with
    | idle => exact h
    | refused =>
      have hall : replies s.log = arrivals s.log := by simpa using (h.ready hopen).owes.symm
      exact ⟨h.fine, .inl hall, fun _ => hall, fun hclosed => by cases hclosed⟩
    | record request => exact h.serve hopen

end Rounds

theorem run_settled (session : Session) (world : World) (opened : Nat) (packets : List Packet) :
    Settled session world (run session world opened packets) := by
  induction packets using List.reverseRecOn with
  | nil =>
    refine .of_ready ⟨⟨along_nil, by simp [run], rfl, by simp [run]⟩, ?_, ?_⟩
    · intro region
      have hnone : ¬ Outstanding [] region := not_since_nil
      show none = some region ↔ Outstanding [] region
      simpa using hnone
    · have hnone : ¬ Active [] := not_since_nil
      show false = true ↔ Active []
      simpa using hnone
  | append_singleton packets packet ih =>
    rw [run, List.foldl_concat]
    exact ih.step packet

/-- Regions that are handed out one at a time are one at any time. -/
theorem outstanding_unique {session : Session} {log : List Event} (h : Along (Fine session) log)
    {region other : Region} (hregion : Outstanding log region) (hother : Outstanding log other) :
    region = other := by
  induction log using List.reverseRecOn with
  | nil => exact absurd hregion not_since_nil
  | append_singleton log e ih =>
    rcases outstanding_concat.mp hregion with hgrant | ⟨hregion, -⟩
    · rcases outstanding_concat.mp hother with hgrant' | ⟨hother, -⟩
      · exact Option.some.inj (hgrant.symm.trans hgrant')
      · exact absurd hother ((h.last.grant region hgrant).2 other)
    · rcases outstanding_concat.mp hother with hgrant' | ⟨hother, -⟩
      · exact absurd hregion ((h.last.grant other hgrant').2 region)
      · exact ih h.init hregion hother

/-- **Audio credits are safe against any client.**  Whatever the client sends and the graph answers,
    every event of the connection has what it needs (`Fine`): regions are handed out one at a time
    and inside the buffer; the graph gets back the outstanding slot with at most its frames, is
    asked for a buffer only while the stream is active and none is out, and is controlled only
    while none is out; records are processed under growing numbers, each when those before it are
    answered; and nothing follows an error reply.  Replies go out in the order of the records, one
    for each; only the last can be missing, on a socket that takes no reply any more. -/
theorem audio_credits_safe (session : Session) (world : World) (opened : Nat)
    (packets : List Packet) :
    let s := run session world opened packets
    Along (Fine session) s.log ∧
    (∀ region other, Outstanding s.log region → Outstanding s.log other → region = other) ∧
    (replies s.log = arrivals s.log ∨
      s.closed = true ∧ ∃ number, arrivals s.log = replies s.log ++ [number]) ∧
    ((∀ log record, world.send log record = .ok ()) → replies s.log = arrivals s.log) := by
  have h := run_settled session world opened packets
  refine ⟨h.fine, ?_, h.answered, h.exact⟩
  intro region other hregion hother
  exact outstanding_unique h.fine hregion hother

end Droidloom.Audio.Credits
