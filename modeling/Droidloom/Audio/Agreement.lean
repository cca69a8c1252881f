/-
  Client and broker agree on the buffer credit, and a connection that loses one reply is lost.

  The proof couples the two sides over what is in flight.  A LIVE connection has nothing
  outstanding, or exactly the request or the reply of the call that waits; the broker's region check
  implies the client's, so a reply that is not an error is always accepted and moves both sides to
  the same credit.  A LOST connection owes a reply to a request older than the one that waits: every
  exchange adds one reply at the end and takes at most one from the front, so the client is behind
  for ever and each number it reads is too small.
-/
import Droidloom.Audio.Connection

namespace Droidloom.Audio

/-! ## The packed credit -/

theorem unpackCredit_packCredit {region : Region} {value : Nat}
    (hpack : packCredit region = .ok value) (hoffset : region.offset < 2 ^ 32) :
    unpackCredit value = .ok region := by
  obtain ⟨slot, frames, offset⟩ := region
  have hvalue := hpack
  unfold packCredit at hvalue
  split at hvalue
  · cases hvalue
  case isFalse hbad =>
    simp only [Except.ok.injEq] at hvalue
    simp only [BUFFERS, MAX_FRAMES] at hbad hoffset
    -- the three fields do not overlap, so the word is their sum
    have hlow : slot ||| frames <<< 16 = frames <<< 16 + slot := by
      rw [Nat.or_comm, Nat.shiftLeft_add_eq_or_of_lt (by omega)]
    have hword : value = offset * 2 ^ 32 + (frames * 2 ^ 16 + slot) := by
      rw [← hvalue, hlow, Nat.or_comm, ← Nat.shiftLeft_add_eq_or_of_lt, Nat.shiftLeft_eq,
        Nat.shiftLeft_eq]
      rw [Nat.shiftLeft_eq]
      omega
    have hslot : value &&& 0xffff = slot := by
      rw [show (0xffff : Nat) = 2 ^ 16 - 1 from rfl, Nat.and_two_pow_sub_one_eq_mod]
      omega
    have hframes : (value >>> 16) &&& 0xffff = frames := by
      rw [show (0xffff : Nat) = 2 ^ 16 - 1 from rfl, Nat.and_two_pow_sub_one_eq_mod,
        Nat.shiftRight_eq_div_pow]
      omega
    have hhigh : (value >>> 32) % 2 ^ 32 = offset := by
      rw [Nat.shiftRight_eq_div_pow]
      omega
    unfold unpackCredit
    rw [hslot, hframes, hhigh]
    dsimp only
    rw [hpack]
    rfl

/-! ## One request between agreeing sides -/

section Exchange

variable {session : Session}

/-- A reply that ends the call and leaves the two sides with one credit. -/
def Agreed (session : Session) (c : Client) (call : Call) (reply : Record) (b : Broker) : Prop :=
  ∃ answer next, c.conclude session call reply = .ok (answer, next) ∧
    next.request = c.request ∧ next.region = b.held

/-- A handled request keeps the connection open, and its reply ends the call in agreement. -/
structure Handled (session : Session) (c : Client) (call : Call) (request : Record) (b : Broker)
    (reply : Broker.Reply) : Prop where
  op : reply.1 ≠ .error
  closed : reply.2.2.closed = b.closed
  previous : reply.2.2.previousRequest = b.previousRequest
  agreed : Agreed session c call { request with op := reply.1, values := reply.2.1 } reply.2.2

/-- A reply with the number just sent is read as the result of the call's operation. -/
theorem conclude_correlated {c : Client} {call : Call} {reply : Record}
    (hrequest : reply.request = c.request) (hgeneration : reply.generation = session.generation)
    (hop : reply.op ≠ .error) :
    c.conclude session call reply = match call with
      | .acquire frames => c.acquired session frames reply
      | .submit _ => c.submitted session reply
      | .control _ => c.controlled reply
      | .position _ => do
        let position ← Client.decodePosition reply
        return (.position position, c) := by
  unfold Client.conclude Client.correlate Client.checkError
  rw [if_neg (by simp [hrequest, hgeneration]), if_neg hop]
  rfl

theorem decodePosition_statusValues (number generation : Nat) (position : Position) :
    Client.decodePosition ⟨.status, number, generation, Broker.statusValues position⟩ =
      .ok position := rfl

theorem fits_iff {region : Region} {frames : Nat} :
    Broker.fits session region frames = true ↔
      region.slot < BUFFERS ∧ region.frames ≠ 0 ∧ region.frames ≤ frames ∧
        region.offset % session.format.frameBytes = 0 ∧
        region.offset + region.frames * session.format.frameBytes ≤ session.format.bytes := by
  simp [Broker.fits, and_assoc]

theorem bytes_lt (format : Format) : format.bytes < 2 ^ 32 := by
  have hframes := format.frames_range.2
  have hchannels := format.channels_range.2
  have hmul : format.frames * (format.channels * 2) ≤ MAX_FRAMES * 4 :=
    Nat.mul_le_mul hframes (by omega)
  simp only [Format.bytes, Format.frameBytes, MAX_FRAMES] at hmul ⊢
  omega

/-- The client finds in the reply the region the broker checked. -/
theorem replyRegion_packed {region : Region} {frames value : Nat} {reply : Record}
    (hfits : Broker.fits session region frames = true) (hburst : session.burstPosition = true)
    (hpack : packCredit region = .ok value) (hvalue : reply.values.head = value) :
    Client.replyRegion session reply = .ok region := by
  have hbytes := bytes_lt session.format
  have hend := (fits_iff.1 hfits).2.2.2.2
  unfold Client.replyRegion
  have hfirst : reply.values[0] = value := hvalue
  rw [if_pos hburst, hfirst]
  exact unpackCredit_packCredit hpack (by omega)

/-- The broker's check of a region implies the client's. -/
theorem acquired_fits {c : Client} {frames : Nat} {region : Region} {reply : Record}
    (hfits : Broker.fits session region (min frames session.format.frames) = true)
    (hop : reply.op = Client.acquireOp session)
    (hregion : Client.replyRegion session reply = .ok region) :
    ∃ snapshot, c.acquired session frames reply =
      .ok (.region region,
        { c with region := some region, positionSnapshot := snapshot }) := by
  obtain ⟨hslot, hframes, hcount, halign, hend⟩ := fits_iff.1 hfits
  unfold Client.acquired
  rw [if_neg (by simp [hop]), hregion]
  dsimp only [bind, Except.bind]
  rw [if_neg (by omega)]
  exact ⟨_, rfl⟩

/-- What the broker answers an acquire with: a region that fits, named as the operation does. -/
theorem acquire_ok {stream : Stream} {b : Broker} {request : Record} {reply : Broker.Reply}
    (hok : b.acquire session stream request = .ok reply) :
    ∃ region, Broker.fits session region request.values.head = true ∧
      reply.1 = request.op ∧ reply.2.2 = { b with held := some region } ∧
      (request.op = .acquirePosition → ∃ value, packCredit region = .ok value ∧
        reply.2.1.head = value) ∧
      (request.op ≠ .acquirePosition →
        reply.2.1 = #v[region.slot, region.frames, region.offset, session.format.frames, 0]) := by
  unfold Broker.acquire at hok
  cases hregion : stream.acquire with
  | error e => rw [hregion] at hok; cases hok
  | ok region =>
    rw [hregion] at hok
    dsimp only [bind, Except.bind] at hok
    split at hok
    · cases hok
    case isFalse hfits =>
      simp only [Bool.not_eq_true, Bool.not_eq_false] at hfits
      split at hok
      case isTrue hop =>
        split at hok
        · cases hok
        split at hok
        · cases hok
        case h_2 value hpack =>
          cases hok
          exact ⟨region, hfits, rfl, rfl, fun _ => ⟨value, hpack, rfl⟩, fun h => absurd hop h⟩
      case isFalse hop =>
        cases hok
        exact ⟨region, hfits, rfl, rfl, fun h => absurd h hop, fun _ => rfl⟩

theorem handle_acquire_ok {stream : Stream} {b : Broker} {request : Record}
    {reply : Broker.Reply} (hop : request.op = .acquire ∨ request.op = .acquirePosition)
    (hok : b.handle session stream request = .ok reply) :
    b.acquire session stream request = .ok reply := by
  obtain ⟨op, number, generation, values⟩ := request
  unfold Broker.handle at hok
  rcases hop with rfl | rfl <;> dsimp only at hok <;> split at hok
  · exact hok
  · cases hok
  · exact hok
  · cases hok

theorem acquireOp_eq :
    Client.acquireOp session = .acquire ∨ Client.acquireOp session = .acquirePosition := by
  unfold Client.acquireOp
  split <;> simp

theorem handled_acquire {stream : Stream} {c : Client} {b : Broker} {frames : Nat}
    {reply : Broker.Reply}
    (hok : b.handle session stream ⟨Client.acquireOp session, c.request, session.generation,
      #v[min frames session.format.frames, 0, 0, 0, 0]⟩ = .ok reply) :
    Handled session c (.acquire frames) ⟨Client.acquireOp session, c.request, session.generation,
      #v[min frames session.format.frames, 0, 0, 0, 0]⟩ b reply := by
  obtain ⟨region, hfits, hop, hheld, hpacked, hplain⟩ :=
    acquire_ok (handle_acquire_ok acquireOp_eq hok)
  have herror : reply.1 ≠ .error := by
    rw [hop]
    unfold Client.acquireOp
    split <;> simp
  refine ⟨herror, by rw [hheld], by rw [hheld], ?_⟩
  have hregion : Client.replyRegion session ⟨reply.1, c.request, session.generation, reply.2.1⟩ =
      .ok region := by
    cases hburst : session.burstPosition with
    | true =>
      obtain ⟨value, hpack, hvalue⟩ := hpacked (by simp [Client.acquireOp, hburst])
      exact replyRegion_packed hfits hburst hpack hvalue
    | false =>
      have hvalues := hplain (by simp [Client.acquireOp, hburst])
      unfold Client.replyRegion
      simp [hburst, hvalues]
  obtain ⟨snapshot, hnext⟩ := acquired_fits (c := c) hfits hop hregion
  refine ⟨.region region, { c with region := some region, positionSnapshot := snapshot }, ?_, rfl,
    by rw [hheld]⟩
  rw [conclude_correlated rfl rfl herror]
  exact hnext

theorem submit_ok {stream : Stream} {b : Broker} {request : Record} {reply : Broker.Reply}
    (hok : b.submit stream request = .ok reply) :
    reply.2.2 = { b with held := none } ∧
      (request.op = .submitPosition →
        ∃ position, reply.1 = .status ∧ reply.2.1 = Broker.statusValues position) ∧
      (request.op ≠ .submitPosition → reply.1 = .ack ∧ reply.2.1 = Values.zero) := by
  unfold Broker.submit at hok
  split at hok
  · cases hok
  split at hok
  · cases hok
  dsimp only [bind, Except.bind] at hok
  split at hok
  · cases hok
  split at hok
  case isTrue hop =>
    split at hok
    · cases hok
    case h_2 position _ =>
      cases hok
      exact ⟨rfl, fun _ => ⟨position, rfl, rfl⟩, fun h => absurd hop h⟩
  case isFalse hop =>
    cases hok
    exact ⟨rfl, fun h => absurd h hop, fun _ => ⟨rfl, rfl⟩⟩

theorem handle_submit_ok {stream : Stream} {b : Broker} {request : Record}
    {reply : Broker.Reply} (hop : request.op = .submit ∨ request.op = .submitPosition)
    (hok : b.handle session stream request = .ok reply) :
    b.submit stream request = .ok reply := by
  obtain ⟨op, number, generation, values⟩ := request
  unfold Broker.handle at hok
  rcases hop with rfl | rfl <;> dsimp only at hok <;> split at hok
  · exact hok
  · cases hok
  · exact hok
  · cases hok

theorem submitOp_eq :
    Client.submitOp session = .submit ∨ Client.submitOp session = .submitPosition := by
  unfold Client.submitOp
  split <;> simp

theorem handled_submit {stream : Stream} {c : Client} {b : Broker} {frames : Nat} {values : Values}
    {reply : Broker.Reply}
    (hok : b.handle session stream ⟨Client.submitOp session, c.request, session.generation,
      values⟩ = .ok reply) :
    Handled session c (.submit frames) ⟨Client.submitOp session, c.request, session.generation,
      values⟩ b reply := by
  obtain ⟨op, values', b'⟩ := reply
  obtain ⟨rfl, hposition, hack⟩ := submit_ok (handle_submit_ok submitOp_eq hok)
  cases hburst : session.burstPosition with
  | true =>
    obtain ⟨position, rfl, rfl⟩ := hposition (by simp [Client.submitOp, hburst])
    refine ⟨by simp, rfl, rfl, .done,
      { c with region := none, positionSnapshot := some position }, ?_, rfl, rfl⟩
    rw [conclude_correlated rfl rfl (by simp)]
    simp [Client.submitted, hburst, decodePosition_statusValues, bind, Except.bind, pure,
      Except.pure]
  | false =>
    obtain ⟨rfl, rfl⟩ := hack (by simp [Client.submitOp, hburst])
    refine ⟨by simp, rfl, rfl, .done, { c with region := none }, ?_, rfl, rfl⟩
    rw [conclude_correlated rfl rfl (by simp)]
    simp [Client.submitted, hburst]

theorem handled_control {stream : Stream} {c : Client} {b : Broker} {command : Nat}
    {values : Values} {reply : Broker.Reply} (hregion : c.region = b.held)
    (hok : b.handle session stream ⟨.control, c.request, session.generation, values⟩ =
      .ok reply) :
    Handled session c (.control command) ⟨.control, c.request, session.generation, values⟩ b
      reply := by
  unfold Broker.handle at hok
  dsimp only at hok
  split at hok
  case isFalse => cases hok
  unfold Broker.control at hok
  dsimp only [bind, Except.bind] at hok
  split at hok
  · cases hok
  split at hok
  · cases hok
  cases hok
  refine ⟨by simp, rfl, rfl, .done, c, ?_, rfl, hregion⟩
  rw [conclude_correlated rfl rfl (by simp)]
  simp [Client.controlled]

theorem handled_position {stream : Stream} {c : Client} {b : Broker} {fresh : Bool}
    {values : Values} {reply : Broker.Reply} (hregion : c.region = b.held)
    (hok : b.handle session stream ⟨.status, c.request, session.generation, values⟩ =
      .ok reply) :
    Handled session c (.position fresh) ⟨.status, c.request, session.generation, values⟩ b
      reply := by
  unfold Broker.handle at hok
  dsimp only at hok
  split at hok
  case isFalse => cases hok
  unfold Broker.position at hok
  dsimp only [bind, Except.bind] at hok
  split at hok
  · cases hok
  case h_2 position _ =>
    cases hok
    refine ⟨by simp, rfl, rfl, .position position, c, ?_, rfl, hregion⟩
    rw [conclude_correlated rfl rfl (by simp)]
    simp [decodePosition_statusValues, bind, Except.bind, pure, Except.pure]

/-- Every request that a call asks, once handled by a broker with the client's credit. -/
theorem handled_ask {stream : Stream} {c : Client} {b : Broker} {call : Call} {op : Op}
    {values : Values} {reply : Broker.Reply} (hregion : c.region = b.held)
    (hask : c.opening session call = .ask op values)
    (hok : b.handle session stream ⟨op, c.request, session.generation, values⟩ = .ok reply) :
    Handled session c call ⟨op, c.request, session.generation, values⟩ b reply := by
  cases call with
  | acquire frames =>
    simp only [Client.opening] at hask
    split at hask <;> cases hask
    exact handled_acquire hok
  | submit frames =>
    simp only [Client.opening] at hask
    split at hask
    · cases hask
    split at hask <;> cases hask
    exact handled_submit hok
  | control command =>
    simp only [Client.opening] at hask
    split at hask <;> cases hask
    exact handled_control hregion hok
  | position fresh =>
    simp only [Client.opening] at hask
    split at hask
    · split at hask <;> cases hask
      exact handled_position hregion hok
    · cases hask
      exact handled_position hregion hok

/-- **One request**: the broker answers it in agreement, or with an error and its end. -/
theorem serve_answers (stream : Stream) {c : Client} {b : Broker} {call : Call} {record : Record}
    (hregion : c.region = b.held)
    (hask : c.opening session call = .ask record.op record.values)
    (hrequest : record.request = c.request) (hgeneration : record.generation = session.generation)
    (hnew : b.previousRequest < c.request) (hopen : b.closed = false) :
    (b.serve session stream record).2.request = c.request ∧
      ((b.serve session stream record).2.op = .error ∧
          (b.serve session stream record).1.closed = true ∨
        (b.serve session stream record).1.closed = false ∧
          (b.serve session stream record).1.previousRequest ≤ c.request ∧
          Agreed session c call (b.serve session stream record).2
            (b.serve session stream record).1) := by
  obtain ⟨op, number, generation, values⟩ := record
  subst hrequest hgeneration
  unfold Broker.serve
  dsimp only
  rw [if_neg (by simp; omega)]
  split
  case h_1 op' values' b' hok =>
    have hhandled := handled_ask (b := { b with previousRequest := c.request }) hregion hask hok
    refine ⟨rfl, Or.inr ⟨by rw [hhandled.closed, hopen], ?_, hhandled.agreed⟩⟩
    exact hhandled.previous.le
  case h_2 error _ =>
    exact ⟨rfl, Or.inl ⟨rfl, rfl⟩⟩

end Exchange

/-! ## A live connection -/

section Connection

variable {session : Session} {s : Connection}

/-- **The coupling**: nothing is outstanding, or exactly the request or the reply of the call that
waits. -/
inductive Live (session : Session) (s : Connection) : Prop
  | idle (pending : s.pending = none) (requests : s.requests = []) (replies : s.replies = [])
      (opened : s.broker.closed = false) (agree : s.client.region = s.broker.held)
      (previous : s.broker.previousRequest ≤ s.client.request)
  | asked (exchange : Exchange) (pending : s.pending = some exchange)
      (requests : s.requests = [exchange.record]) (replies : s.replies = [])
      (opened : s.broker.closed = false) (agree : s.client.region = s.broker.held)
      (previous : s.broker.previousRequest < s.client.request)
      (ask : s.client.opening session exchange.call =
        .ask exchange.record.op exchange.record.values)
      (request : exchange.record.request = s.client.request)
      (generation : exchange.record.generation = session.generation)
      (snapshot : s.client.positionSnapshot = none)
  | answered (exchange : Exchange) (reply : Record) (pending : s.pending = some exchange)
      (requests : s.requests = []) (replies : s.replies = [⟨exchange.record, reply⟩])
      (request : reply.request = s.client.request)
      (outcome : reply.op = .error ∧ s.broker.closed = true ∨
        s.broker.closed = false ∧ s.broker.previousRequest ≤ s.client.request ∧
          Agreed session s.client exchange.call reply s.broker)
      (snapshot : s.client.positionSnapshot = none)

/-! ## A lost connection -/

/-- The numbers of the replies still to come, in the order the client will read them. -/
def Connection.owed (s : Connection) : List Nat :=
  s.replies.map (·.reply.request) ++
    if s.broker.closed then [] else s.requests.map (·.request)

/-- **The lag**: a reply is owed that the next exchange must not take, or the broker is gone. -/
structure Lost (s : Connection) : Prop where
  sorted : s.owed.Pairwise (· < ·)
  bound : ∀ n ∈ s.owed, n ≤ s.client.request
  snapshot : s.client.positionSnapshot = none
  idle : s.pending = none → s.broker.closed = false → s.owed ≠ []
  stale : s.pending ≠ none → ∀ n, s.owed.head? = some n → n < s.client.request
  sent : s.pending ≠ none → s.broker.closed = false → s.client.request ∈ s.owed

/-- Nothing will ever be read again. -/
structure Silent (s : Connection) : Prop where
  closed : s.broker.closed = true
  replies : s.replies = []

theorem Silent.owed (hsilent : Silent s) : s.owed = [] := by
  simp [Connection.owed, hsilent.closed, hsilent.replies]

theorem Silent.lost (hsilent : Silent s) (hsnapshot : s.client.positionSnapshot = none) :
    Lost s where
  sorted := by simp [hsilent.owed]
  bound := by simp [hsilent.owed]
  snapshot := hsnapshot
  idle := fun _ hopen => by simp [hsilent.closed] at hopen
  stale := by simp [hsilent.owed]
  sent := fun _ hopen => by simp [hsilent.closed] at hopen

/-- The outcome of a step on a live connection. -/
inductive Outcome (session : Session) (r : Connection × Event) : Prop
  | live (live : Live session r.1) (kept : r.2.failed = false)
      (agree : r.2.succeeded = true → r.1.client.region = r.1.broker.held)
      (own : ∀ exchange message answer, r.2 = .accepted exchange message answer →
        message.request = exchange.record)
  | lost (lost : Lost r.1) (failed : r.2.succeeded = false)
      (why : r.2.isTimeout = true ∨ Silent r.1 ∧
        ∀ exchange message error, r.2 = .rejected exchange message error →
          message.request = exchange.record ∧ message.reply.op = .error)

/-- A step that is no call's end. -/
theorem Outcome.of_live (hlive : Live session s) {event : Event} (hfailed : event.failed = false)
    (hsucceeded : event.succeeded = false) : Outcome session (s, event) := by
  refine .live hlive hfailed (fun h => by simp [hsucceeded] at h) ?_
  rintro exchange message answer rfl
  cases hsucceeded

/-- What a call asks does not depend on the number, nor on a stored position it gives up. -/
theorem opening_ask {c : Client} {call : Call} {op : Op} {values : Values} (number : Nat)
    (hask : c.opening session call = .ask op values) :
    Client.opening session ⟨number, c.region, none⟩ call = .ask op values := by
  cases call with
  | acquire frames => exact hask
  | submit frames => exact hask
  | control command => exact hask
  | position fresh =>
    simp only [Client.opening] at hask ⊢
    split at hask
    · split at hask
      · cases hask
      · exact hask
    · exact hask

theorem Live.begin (hpending : s.pending = none) (hlive : Live session s) (call : Call) :
    Outcome session (s.begin session call) := by
  cases hlive with
  | asked exchange pending => simp [hpending] at pending
  | answered exchange reply pending => simp [hpending] at pending
  | idle _ hrequests hreplies hopen hagree hprevious =>
    unfold Connection.begin
    split
    · exact .of_live (.idle hpending hrequests hreplies hopen hagree hprevious) rfl rfl
    · refine .live (.idle hpending hrequests hreplies hopen hagree hprevious) rfl
        (fun _ => hagree) ?_
      intro exchange message answer h
      cases h
    case h_3 op values hask =>
      dsimp only
      split
      case h_1 error _ =>
        refine .of_live ?_ rfl rfl
        exact .idle hpending hrequests hreplies hopen hagree hprevious
      case h_2 client record hok =>
        unfold Client.ask at hok
        split at hok <;> cases hok
        simp only [hopen, Bool.false_eq_true, if_false]
        refine .of_live ?_ rfl rfl
        refine .asked _ rfl ?_ hreplies hopen hagree (Nat.lt_succ_of_le hprevious)
          (opening_ask _ hask) rfl rfl rfl
        rw [hrequests, List.nil_append]

theorem Live.serve (hlive : Live session s) (stream : Stream) :
    Live session (s.serve session stream) := by
  cases hlive with
  | idle hpending hrequests hreplies hopen hagree hprevious =>
    have hsame : s.serve session stream = s := by
      unfold Connection.serve
      rw [hrequests, hopen]
    rw [hsame]
    exact .idle hpending hrequests hreplies hopen hagree hprevious
  | asked exchange hpending hrequests hreplies hopen hagree hprevious hask hrequest hgeneration
      hsnapshot =>
    obtain ⟨hnumber, houtcome⟩ :=
      serve_answers stream hagree hask hrequest hgeneration hprevious hopen
    unfold Connection.serve
    rw [hrequests, hopen]
    exact .answered exchange (s.broker.serve session stream exchange.record).2 hpending rfl
      (by simp [hreplies]) hnumber houtcome hsnapshot
  | answered exchange reply hpending hrequests hreplies hrequest houtcome hsnapshot =>
    have hsame : s.serve session stream = s := by
      unfold Connection.serve
      rw [hrequests]
      split
      case h_1 h => cases h
      · rfl
    rw [hsame]
    exact .answered exchange reply hpending hrequests hreplies hrequest houtcome hsnapshot

variable (session) in
/-- An error reply ends a call with an error, whatever its code. -/
theorem conclude_error (c : Client) (call : Call) {reply : Record} (hop : reply.op = .error) :
    ∃ error, c.conclude session call reply = .error error := by
  have hcorrelate : ∃ error, c.correlate session reply = .error error := by
    unfold Client.correlate Client.checkError
    rw [if_pos hop]
    split
    · exact ⟨_, rfl⟩
    · split <;> exact ⟨_, rfl⟩
  obtain ⟨error, herror⟩ := hcorrelate
  exact ⟨error, by simp [Client.conclude, herror, bind, Except.bind]⟩

theorem Live.receive (hlive : Live session s) {exchange : Exchange}
    (hpending : s.pending = some exchange) : Outcome session (s.receive session exchange) := by
  cases hlive with
  | idle pending => simp [hpending] at pending
  | asked x pending hrequests hreplies hopen =>
    have hwait : s.receive session exchange = (s, .idle) := by
      unfold Connection.receive
      rw [hreplies, hopen]
      rfl
    rw [hwait]
    exact .of_live (.asked x pending hrequests hreplies hopen ‹_› ‹_› ‹_› ‹_› ‹_› ‹_›) rfl rfl
  | answered x reply pending hrequests hreplies hrequest houtcome hsnapshot =>
    obtain rfl : exchange = x := Option.some.inj (hpending.symm.trans pending)
    rcases houtcome with ⟨hop, hclosed⟩ | ⟨hopen, hprevious, answer, next, hok, hnumber, hregion⟩
    · obtain ⟨error, herror⟩ := conclude_error session s.client exchange.call hop
      unfold Connection.receive
      simp only [hreplies, herror]
      have hsilent : Silent { s with pending := none, replies := [] } := ⟨hclosed, rfl⟩
      refine .lost (hsilent.lost hsnapshot) rfl (Or.inr ⟨hsilent, ?_⟩)
      intro x' message e h
      cases h
      exact ⟨rfl, hop⟩
    · unfold Connection.receive
      simp only [hreplies, hok]
      refine .live (.idle rfl hrequests rfl hopen hregion (by rw [hnumber]; exact hprevious)) rfl
        (fun _ => hregion) ?_
      intro x' message a h
      cases h
      rfl

theorem Live.timeout (hlive : Live session s) {exchange : Exchange}
    (hpending : s.pending = some exchange) :
    Outcome session ({ s with pending := none }, .timedOut exchange) := by
  refine .lost ?_ rfl (Or.inl rfl)
  cases hlive with
  | idle pending => simp [hpending] at pending
  | asked x pending hrequests hreplies hopen hagree hprevious hask hrequest hgeneration
      hsnapshot =>
    have howed : Connection.owed { s with pending := none } = [s.client.request] := by
      simp [Connection.owed, hrequests, hreplies, hopen, hrequest]
    exact ⟨by simp [howed], by simp [howed], hsnapshot, fun _ _ => by simp [howed],
      fun h => absurd rfl h, fun h => absurd rfl h⟩
  | answered x reply pending hrequests hreplies hrequest houtcome hsnapshot =>
    have howed : Connection.owed { s with pending := none } = [s.client.request] := by
      simp [Connection.owed, hrequests, hreplies, hrequest]
    exact ⟨by simp [howed], by simp [howed], hsnapshot, fun _ _ => by simp [howed],
      fun h => absurd rfl h, fun h => absurd rfl h⟩

/-- **A live step.** -/
theorem Live.step (hlive : Live session s) (step : Step) :
    Outcome session (s.step session step) := by
  cases step with
  | call call =>
    cases hpending : s.pending with
    | none =>
      simp only [Connection.step, hpending]
      exact hlive.begin hpending call
    | some exchange =>
      simp only [Connection.step, hpending]
      exact .of_live hlive rfl rfl
  | serve stream => exact .of_live (hlive.serve stream) rfl rfl
  | receive =>
    cases hpending : s.pending with
    | none =>
      simp only [Connection.step, hpending]
      exact .of_live hlive rfl rfl
    | some exchange =>
      simp only [Connection.step, hpending]
      exact hlive.receive hpending
  | timeout =>
    cases hpending : s.pending with
    | none =>
      simp only [Connection.step, hpending]
      exact .of_live hlive rfl rfl
    | some exchange =>
      simp only [Connection.step, hpending]
      exact hlive.timeout hpending

/-! ## A lost step -/

/-- The outcome of a step on a lost connection: no call succeeds, and silence stays. -/
structure Drifts (s : Connection) (r : Connection × Event) : Prop where
  lost : Lost r.1
  failed : r.2.succeeded = false
  silent : Silent s → Silent r.1 ∧
    ∀ exchange message error, r.2 ≠ .rejected exchange message error

variable (session) in
/-- A number that was not just sent is never accepted. -/
theorem conclude_stale {c : Client} (call : Call) {reply : Record}
    (hstale : reply.request ≠ c.request) :
    ∃ error, c.conclude session call reply = .error error := by
  have hcorrelate : ∃ error, c.correlate session reply = .error error := by
    unfold Client.correlate
    rw [if_pos (Or.inl hstale)]
    exact ⟨_, rfl⟩
  obtain ⟨error, herror⟩ := hcorrelate
  exact ⟨error, by simp [Client.conclude, herror, bind, Except.bind]⟩

theorem Lost.begin (hpending : s.pending = none) (hlost : Lost s) (call : Call) :
    Drifts s (s.begin session call) := by
  unfold Connection.begin
  split
  · exact ⟨hlost, rfl, fun h => ⟨h, by simp⟩⟩
  case h_2 position hcached =>
    -- a stored position does not outlive the exchange that was lost
    cases call with
    | acquire frames => simp only [Client.opening] at hcached; split at hcached <;> cases hcached
    | submit frames =>
      simp only [Client.opening] at hcached
      split at hcached
      · cases hcached
      · split at hcached <;> cases hcached
    | control command =>
      simp only [Client.opening] at hcached
      split at hcached <;> cases hcached
    | position fresh => simp [Client.opening, hlost.snapshot] at hcached
  case h_3 op values hask =>
    dsimp only
    split
    case h_1 error _ =>
      refine ⟨?_, rfl, fun h => ⟨⟨h.closed, h.replies⟩, by simp⟩⟩
      exact ⟨hlost.sorted, hlost.bound, rfl, hlost.idle, hlost.stale, hlost.sent⟩
    case h_2 client record hok =>
      unfold Client.ask at hok
      split at hok <;> cases hok
      cases hclosed : s.broker.closed with
      | true =>
        simp only [if_true]
        refine ⟨?_, rfl, fun h => ⟨⟨h.closed, h.replies⟩, by simp⟩⟩
        refine ⟨hlost.sorted, fun n hn => (hlost.bound n hn).trans (Nat.le_succ _), rfl,
          hlost.idle, ?_, ?_⟩
        · exact fun h => absurd hpending h
        · exact fun h => absurd hpending h
      | false =>
        simp only [Bool.false_eq_true, if_false]
        refine ⟨?_, rfl, fun h => absurd h.closed (by simp [hclosed])⟩
        -- the new request queues behind everything that is still owed
        have howed : ∀ (client : Client) (pending : Option Exchange) (record : Record),
            Connection.owed { s with client, pending, requests := s.requests ++ [record] } =
              s.owed ++ [record.request] := by
          intro client pending record
          simp [Connection.owed, hclosed]
        have hne := hlost.idle hpending hclosed
        refine ⟨?_, ?_, rfl, by simp, ?_, ?_⟩
        · rw [howed, List.pairwise_append]
          refine ⟨hlost.sorted, by simp, fun n hn m hm => ?_⟩
          obtain rfl := List.mem_singleton.1 hm
          exact Nat.lt_succ_of_le (hlost.bound n hn)
        · rw [howed]
          intro n hn
          rcases List.mem_append.1 hn with hn | hn
          · exact (hlost.bound n hn).trans (Nat.le_succ _)
          · exact (List.mem_singleton.1 hn).le
        · rw [howed]
          intro _ n hn
          rw [List.head?_append_of_ne_nil _ hne] at hn
          exact Nat.lt_succ_of_le (hlost.bound n (List.mem_of_mem_head? hn))
        · rw [howed]
          intro _ _
          simp

@[simp] theorem serve_request (b : Broker) (stream : Stream) (record : Record) :
    (b.serve session stream record).2.request = record.request := by
  unfold Broker.serve
  split
  · rfl
  · dsimp only
    split <;> rfl

variable (session s) in
/-- Serving turns the next number owed into a reply; a broker that closes drops what follows. -/
theorem owed_serve (stream : Stream) :
    (s.serve session stream).owed = s.owed ∨
      (s.serve session stream).broker.closed = true ∧ s.owed ≠ [] ∧
        ∃ n, (s.serve session stream).owed = s.owed.take (n + 1) := by
  unfold Connection.serve
  split
  case h_1 request requests hclosed hrequests =>
    cases hend : (s.broker.serve session stream request).1.closed with
    | false =>
      left
      simp [Connection.owed, hclosed, hrequests, hend]
    | true =>
      right
      refine ⟨rfl, by simp [Connection.owed, hclosed, hrequests], s.replies.length, ?_⟩
      simp [Connection.owed, hclosed, hrequests, hend, List.take_append]
  · exact Or.inl rfl

variable (session s) in
theorem serve_client (stream : Stream) :
    (s.serve session stream).client = s.client ∧ (s.serve session stream).pending = s.pending := by
  unfold Connection.serve
  split <;> exact ⟨rfl, rfl⟩

theorem serve_of_closed (stream : Stream) (hclosed : s.broker.closed = true) :
    s.serve session stream = s := by
  unfold Connection.serve
  rw [hclosed]

theorem serve_closed_mono (stream : Stream) (hopen : (s.serve session stream).broker.closed = false) :
    s.broker.closed = false := by
  cases hclosed : s.broker.closed with
  | false => rfl
  | true => rw [serve_of_closed stream hclosed, hclosed] at hopen; exact hopen

theorem Lost.serve (hlost : Lost s) (stream : Stream) : Lost (s.serve session stream) := by
  obtain ⟨hclient, hpending⟩ := serve_client session s stream
  rcases owed_serve session s stream with howed | ⟨hclosed, hne, n, howed⟩
  · exact {
      sorted := by rw [howed]; exact hlost.sorted
      bound := by rw [howed, hclient]; exact hlost.bound
      snapshot := by rw [hclient]; exact hlost.snapshot
      idle := fun hp ho => by
        rw [howed]; exact hlost.idle (hpending ▸ hp) (serve_closed_mono stream ho)
      stale := by rw [howed, hclient, hpending]; exact hlost.stale
      sent := fun hp ho => by
        rw [howed, hclient]; exact hlost.sent (hpending ▸ hp) (serve_closed_mono stream ho) }
  · exact {
      sorted := by rw [howed]; exact hlost.sorted.sublist (List.take_sublist _ _)
      bound := by
        rw [howed, hclient]
        exact fun m hm => hlost.bound m (List.mem_of_mem_take hm)
      snapshot := by rw [hclient]; exact hlost.snapshot
      idle := fun _ ho => by simp [hclosed] at ho
      stale := by
        rw [howed, hclient, hpending, List.head?_take, if_neg (Nat.succ_ne_zero n)]
        exact hlost.stale
      sent := fun _ ho => by simp [hclosed] at ho }

theorem Lost.receive (hlost : Lost s) {exchange : Exchange}
    (hpending : s.pending = some exchange) : Drifts s (s.receive session exchange) := by
  have hwaits : s.pending ≠ none := by simp [hpending]
  unfold Connection.receive
  cases hreplies : s.replies with
  | nil =>
    dsimp only
    split
    case isTrue hclosed =>
      refine ⟨?_, rfl, fun _ => ⟨⟨hclosed, rfl⟩, by simp⟩⟩
      exact Silent.lost ⟨hclosed, rfl⟩ hlost.snapshot
    case isFalse hopen =>
      exact ⟨hlost, rfl, fun h => absurd h.closed hopen⟩
  | cons message replies =>
    have howed : s.owed = message.reply.request ::
        Connection.owed { s with pending := none, replies } := by
      simp [Connection.owed, hreplies]
    have hstale := hlost.stale hwaits message.reply.request (by rw [howed]; rfl)
    obtain ⟨error, herror⟩ := conclude_stale session exchange.call
      (Nat.ne_of_lt hstale)
    simp only [herror]
    refine ⟨?_, rfl, fun h => absurd h.replies (by simp [hreplies])⟩
    have hsorted := hlost.sorted
    have hbound := hlost.bound
    rw [howed] at hsorted hbound
    refine ⟨(List.pairwise_cons.1 hsorted).2, fun n hn => hbound n (List.mem_cons_of_mem _ hn),
      hlost.snapshot, ?_, fun h => absurd rfl h, fun h => absurd rfl h⟩
    -- the request that waited is owed its reply still
    intro _ hopen hempty
    have hsent := hlost.sent hwaits hopen
    rw [howed, hempty, List.mem_singleton] at hsent
    exact absurd hsent.symm (Nat.ne_of_lt hstale)

theorem Lost.timeout (hlost : Lost s) {exchange : Exchange}
    (hpending : s.pending = some exchange) :
    Drifts s ({ s with pending := none }, .timedOut exchange) := by
  have hwaits : s.pending ≠ none := by simp [hpending]
  refine ⟨?_, rfl, fun h => ⟨⟨h.closed, h.replies⟩, by simp⟩⟩
  exact ⟨hlost.sorted, hlost.bound, hlost.snapshot,
    fun _ hopen => List.ne_nil_of_mem (hlost.sent hwaits hopen),
    fun h => absurd rfl h, fun h => absurd rfl h⟩

theorem Lost.drift_of_idle (hlost : Lost s) : Drifts s (s, .idle) :=
  ⟨hlost, rfl, fun h => ⟨h, by simp⟩⟩

variable (session) in
/-- **A lost step.** -/
theorem Lost.step (hlost : Lost s) (step : Step) : Drifts s (s.step session step) := by
  cases step with
  | call call =>
    cases hpending : s.pending with
    | none =>
      simp only [Connection.step, hpending]
      exact hlost.begin hpending call
    | some exchange =>
      simp only [Connection.step, hpending]
      exact hlost.drift_of_idle
  | serve stream =>
    refine ⟨hlost.serve stream, rfl, fun h => ⟨?_, by simp [Connection.step]⟩⟩
    show Silent (s.serve session stream)
    rw [serve_of_closed stream h.closed]
    exact h
  | receive =>
    cases hpending : s.pending with
    | none =>
      simp only [Connection.step, hpending]
      exact hlost.drift_of_idle
    | some exchange =>
      simp only [Connection.step, hpending]
      exact hlost.receive hpending
  | timeout =>
    cases hpending : s.pending with
    | none =>
      simp only [Connection.step, hpending]
      exact hlost.drift_of_idle
    | some exchange =>
      simp only [Connection.step, hpending]
      exact hlost.timeout hpending

/-! ## Whole runs -/

/-- A connection is live while no exchange has failed; one that is lost without a time-out is
silent. -/
inductive Coupled (session : Session) (state : Connection × List Event) : Prop
  | live (live : Live session state.1) (kept : ∀ event ∈ state.2, event.failed = false)
  | lost (lost : Lost state.1)
      (why : (∃ event ∈ state.2, event.isTimeout = true) ∨ Silent state.1)

theorem Coupled.step {state : Connection × List Event} (hcoupled : Coupled session state)
    (step : Step) :
    Coupled session
      ((state.1.step session step).1, state.2 ++ [(state.1.step session step).2]) := by
  cases hcoupled with
  | live hlive hkept =>
    cases hlive.step step with
    | live hlive' hfailed _ _ =>
      refine .live hlive' fun event hevent => ?_
      rcases List.mem_append.1 hevent with hevent | hevent
      · exact hkept event hevent
      · rw [List.mem_singleton.1 hevent]
        exact hfailed
    | lost hlost _ hwhy =>
      refine .lost hlost (hwhy.imp (fun h => ?_) (·.1))
      exact ⟨_, List.mem_append_right _ (List.mem_singleton_self _), h⟩
  | lost hlost hwhy =>
    have hdrifts := hlost.step session step
    refine .lost hdrifts.lost (hwhy.imp ?_ fun h => (hdrifts.silent h).1)
    rintro ⟨event, hevent, htimeout⟩
    exact ⟨event, List.mem_append_left _ hevent, htimeout⟩

variable (session) in
theorem coupled_run (steps : List Step) : Coupled session (Connection.run session steps) := by
  unfold Connection.run
  induction steps using List.reverseRecOn with
  | nil => exact .live (.idle rfl rfl rfl rfl rfl le_rfl) (by simp)
  | append_singleton steps step ih =>
    rw [List.foldl_append]
    exact ih.step step

end Connection

/-- What a step may do to a call after the events of a run. -/
structure Agrees (events : List Event) (r : Connection × Event) : Prop where
  /-- After a call that succeeds both sides hold one credit. -/
  credit : r.2.succeeded = true → r.1.client.region = r.1.broker.held
  /-- A reply is accepted for the request it was made for. -/
  own : ∀ exchange message answer, r.2 = .accepted exchange message answer →
    message.request = exchange.record
  /-- After an exchange that was sent and whose reply was not accepted, none succeeds. -/
  failStop : (∃ event ∈ events, event.failed = true) → r.2.isAccepted = false
  /-- Without a time-out the only reply rejected is the broker's error to the call's request. -/
  rejects : (∀ event ∈ events, event.isTimeout = false) →
    ∀ exchange message error, r.2 = .rejected exchange message error →
      message.request = exchange.record ∧ message.reply.op = .error

theorem isAccepted_of_not_succeeded {event : Event} (hfailed : event.succeeded = false) :
    event.isAccepted = false := by
  cases event <;> first | rfl | cases hfailed

/-- **The audio connection agrees and fails stop**: after every run of calls, served requests,
receptions and time-outs, whatever the audio graph answered, each step agrees. -/
theorem connection_agrees (session : Session) (steps : List Step) (step : Step) :
    Agrees (Connection.run session steps).2
      ((Connection.run session steps).1.step session step) := by
  cases coupled_run session steps with
  | live hlive hkept =>
    have hnone : ¬ ∃ event ∈ (Connection.run session steps).2, event.failed = true := by
      rintro ⟨event, hevent, hfailed⟩
      rw [hkept event hevent] at hfailed
      cases hfailed
    cases hlive.step step with
    | live _ hfailed hagree hown =>
      refine ⟨hagree, hown, fun h => absurd h hnone, fun _ exchange message error h => ?_⟩
      rw [h] at hfailed
      cases hfailed
    | lost _ hfailed hwhy =>
      refine ⟨fun h => by simp [hfailed] at h, fun exchange message answer h => ?_,
        fun h => absurd h hnone, fun _ exchange message error h => ?_⟩
      · rw [h] at hfailed
        cases hfailed
      · rcases hwhy with htimeout | ⟨_, hrejects⟩
        · rw [h] at htimeout
          cases htimeout
        · exact hrejects exchange message error h
  | lost hlost hwhy =>
    have hdrifts := hlost.step session step
    refine ⟨fun h => by simp [hdrifts.failed] at h, fun exchange message answer h => ?_,
      fun _ => isAccepted_of_not_succeeded hdrifts.failed, fun hquiet exchange message error h => ?_⟩
    · have hfailed := hdrifts.failed
      rw [h] at hfailed
      cases hfailed
    · rcases hwhy with ⟨event, hevent, htimeout⟩ | hsilent
      · rw [hquiet event hevent] at htimeout
        cases htimeout
      · exact absurd h ((hdrifts.silent hsilent).2 exchange message error)

end Droidloom.Audio
