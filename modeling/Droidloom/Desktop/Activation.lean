/-
  Host activation of Android's task windows (`droidloom-wayland/src/activation.rs`).

  A request asks the compositor for a token; the reply (`Done`) comes at any later time, or never.
  `Tokens` remembers which object the latest request is for and under which GENERATION it was made,
  keeps a token that came before its object's first mapping, and forgets both on removals and
  clears.  A reply is told from a late one by its generation, a 64-bit counter that requests,
  removals and clears share.

  The token for the request with number `k` is `k`, so that a use of a token names its request.  A
  run's log says what each step did; what may be done with a token is said over the log.
-/
import Droidloom.Lib.History

namespace Droidloom.Activation

open History

abbrev TaskObjectId := Nat

/-! ## Tokens -/

structure Tokens (τ : Type) where
  mapped : Finset TaskObjectId
  pending : Std.ExtTreeMap TaskObjectId τ compare
  /-- A `u64`. -/
  generation : Nat
  requesting : Option TaskObjectId

/-- `u64::wrapping_add(1)` -/
def wrappingSucc (n : Nat) : Nat := (n + 1) % 2 ^ 64

namespace Tokens

variable {τ : Type}

def empty (generation : Nat) : Tokens τ where
  mapped := ∅
  pending := ∅
  generation := generation
  requesting := none

def request (t : Tokens τ) (object : TaskObjectId) : Option Nat × Tokens τ :=
  if t.requesting = some object ∨ object ∈ t.pending then (none, t)
  else
    let generation := wrappingSucc t.generation
    (some generation,
      { t with generation := generation, requesting := some object, pending := ∅ })

def complete (t : Tokens τ) (object : TaskObjectId) (generation : Nat) (token : τ) :
    Option τ × Tokens τ :=
  if generation ≠ t.generation ∨ t.requesting ≠ some object then (none, t)
  else if object ∈ t.mapped then (some token, { t with requesting := none })
  else (none, { t with requesting := none, pending := t.pending.insert object token })

/-- `Tokens::mapped` -/
def map (t : Tokens τ) (object : TaskObjectId) : Option τ × Tokens τ :=
  (t.pending[object]?,
    { t with mapped := insert object t.mapped, pending := t.pending.erase object })

def remove (t : Tokens τ) (object : TaskObjectId) : Tokens τ :=
  let t :=
    if t.requesting = some object then
      { t with requesting := none, generation := wrappingSucc t.generation }
    else t
  { t with mapped := t.mapped.erase object, pending := t.pending.erase object }

def clear (t : Tokens τ) : Tokens τ := empty (wrappingSucc t.generation)

end Tokens

/-! ## The presenter -/

/-- What a reply's handler looks at in a task. -/
structure Task where
  headless : Bool
  window : Bool
  unmapRequested : Bool
  closing : Bool

def Task.acceptsPresent (task : Task) : Bool :=
  ! task.headless && task.window && ! task.unmapRequested && ! task.closing

/-- The data of a token object: the request it belongs to. -/
structure Request where
  object : TaskObjectId
  generation : Nat

structure Presenter where
  /-- The compositor offers activation. -/
  manager : Bool
  tokens : Tokens Nat
  /-- The requests made, oldest first. -/
  issued : List Request
  /-- The requests whose reply has been handled. -/
  answered : List Nat

inductive Event
  | request (object : TaskObjectId)
  /-- The reply to a request, with the task of its object at that time. -/
  | done (number : Nat) (task : Option Task)
  | mapped (object : TaskObjectId)
  | remove (object : TaskObjectId)
  | clear

/-- What a step did. -/
inductive Effect
  | issued (number : Nat) (object : TaskObjectId)
  | removed (object : TaskObjectId)
  | cleared
  | mapped (object : TaskObjectId) (used : Option Nat)
  | completed (object : TaskObjectId) (used : Option Nat)
  | nothing
deriving DecidableEq

namespace Presenter

def request (p : Presenter) (object : TaskObjectId) : Effect × Presenter :=
  if p.manager then
    match p.tokens.request object with
    | (none, _) => (.nothing, p)
    | (some generation, tokens) =>
      (.issued p.issued.length object,
        { p with tokens := tokens, issued := p.issued ++ [⟨object, generation⟩] })
  else (.nothing, p)

/-- `Dispatch<XdgActivationTokenV1>::event`, once for each request. -/
def done (p : Presenter) (number : Nat) (task : Option Task) : Effect × Presenter :=
  match p.issued[number]? with
  | none => (.nothing, p)
  | some r =>
    if number ∈ p.answered then (.nothing, p)
    else
      let p := { p with answered := p.answered ++ [number] }
      match task.filter Task.acceptsPresent with
      | none => (.removed r.object, { p with tokens := p.tokens.remove r.object })
      | some task =>
        if ! task.window then (.nothing, p)
        else
          let (used, tokens) := p.tokens.complete r.object r.generation number
          (.completed r.object (if p.manager then used else none), { p with tokens := tokens })

def map (p : Presenter) (object : TaskObjectId) : Effect × Presenter :=
  let (used, tokens) := p.tokens.map object
  (.mapped object (if p.manager then used else none), { p with tokens := tokens })

def step (p : Presenter) : Event → Effect × Presenter
  | .request object => p.request object
  | .done number task => p.done number task
  | .mapped object => p.map object
  | .remove object => (.removed object, { p with tokens := p.tokens.remove object })
  | .clear => (.cleared, { p with tokens := p.tokens.clear })

def new (manager : Bool) : Presenter where
  manager := manager
  tokens := Tokens.empty 0
  issued := []
  answered := []

end Presenter

/-- A run, with the log of what its steps did. -/
structure Run where
  presenter : Presenter
  log : List Effect

def Run.step (r : Run) (event : Event) : Run where
  presenter := (r.presenter.step event).2
  log := r.log ++ [(r.presenter.step event).1]

def run (manager : Bool) (events : List Event) : Run :=
  events.foldl Run.step ⟨.new manager, []⟩

/-! ## What is required -/

/-- The token that a step passed to the compositor, and the object whose window it was for. -/
def Effect.uses : Effect → Option (TaskObjectId × Nat)
  | .mapped object (some token) => some (object, token)
  | .completed object (some token) => some (object, token)
  | _ => none

/-- The step makes tokens of requests for this object void. -/
def Effect.voids (object : TaskObjectId) : Effect → Bool
  | .issued _ _ => true
  | .removed o => o = object
  | .cleared => true
  | _ => false

/-- The step forgets that this object was mapped. -/
def Effect.forgets (object : TaskObjectId) : Effect → Bool
  | .removed o => o = object
  | .cleared => true
  | _ => false

def Effect.maps (object : TaskObjectId) : Effect → Bool
  | .mapped o _ => o = object
  | _ => false

/-- **A proper use** of a token: it was not used before, its request was for this object and is the
    latest one, neither removed nor cleared since, and the object is mapped. -/
structure Proper (before : List Effect) (last : Effect) (object : TaskObjectId) (token : Nat) :
    Prop where
  unused : ∀ e ∈ before, ∀ o, e.uses ≠ some (o, token)
  latest : Since (· = .issued token object) (fun e => e.voids object = true) before
  mapped : Since (fun e => e.maps object = true) (fun e => e.forgets object = true)
    (before ++ [last])

/-- The step may move the generation on. -/
def Effect.moves : Effect → Bool
  | .issued _ _ => true
  | .removed _ => true
  | .cleared => true
  | _ => false

/-- The reply to the latest request has been handled. -/
def Presenter.Settled (p : Presenter) : Prop :=
  ∃ number, p.issued.length = number + 1 ∧ number ∈ p.answered

/-! ## What each operation does -/

namespace Tokens

variable {τ : Type} {t : Tokens τ} {object : TaskObjectId}

theorem remove_requesting :
    (t.remove object).requesting = if t.requesting = some object then none else t.requesting := by
  unfold remove
  split <;> rfl

theorem remove_generation :
    (t.remove object).generation =
      if t.requesting = some object then wrappingSucc t.generation else t.generation := by
  unfold remove
  split <;> rfl

theorem remove_mapped : (t.remove object).mapped = t.mapped.erase object := by
  unfold remove
  split <;> rfl

theorem remove_pending : (t.remove object).pending = t.pending.erase object := by
  unfold remove
  split <;> rfl

/-- A token is refused; or it is that of the request in progress, which ends, and the token is used
    or kept. -/
theorem complete_cases (generation : Nat) (token : τ) :
    t.complete object generation token = (none, t) ∧
        (generation ≠ t.generation ∨ t.requesting ≠ some object) ∨
      (generation = t.generation ∧ t.requesting = some object) ∧
        ((object ∈ t.mapped ∧ t.complete object generation token =
            (some token, { t with requesting := none })) ∨
          (object ∉ t.mapped ∧ t.complete object generation token =
            (none, { t with requesting := none, pending := t.pending.insert object token }))) := by
  unfold complete
  by_cases hlate : generation ≠ t.generation ∨ t.requesting ≠ some object
  · rw [if_pos hlate]
    exact .inl ⟨rfl, hlate⟩
  · rw [if_neg hlate]
    refine .inr ⟨by simpa [not_or] using hlate, ?_⟩
    by_cases hmapped : object ∈ t.mapped
    · rw [if_pos hmapped]
      exact .inl ⟨hmapped, rfl⟩
    · rw [if_neg hmapped]
      exact .inr ⟨hmapped, rfl⟩

end Tokens

namespace Presenter

variable {p : Presenter}

/-- A request that is made. -/
theorem request_cases (object : TaskObjectId) :
    p.request object = (.nothing, p) ∨
      p.request object = (.issued p.issued.length object,
        { p with
          tokens := { p.tokens with
            generation := wrappingSucc p.tokens.generation
            requesting := some object
            pending := ∅ }
          issued := p.issued ++ [⟨object, wrappingSucc p.tokens.generation⟩] }) := by
  unfold request Tokens.request
  by_cases hmanager : p.manager = true
  · rw [if_pos hmanager]
    by_cases hrequested : p.tokens.requesting = some object ∨ object ∈ p.tokens.pending
    · rw [if_pos hrequested]
      exact .inl rfl
    · rw [if_neg hrequested]
      exact .inr rfl
  · rw [if_neg hmanager]
    exact .inl rfl

/-- The handling of a reply: the branch for a task that is presented without a window is never
    taken. -/
theorem done_cases (number : Nat) (task : Option Task) :
    p.done number task = (.nothing, p) ∨
      ∃ r, p.issued[number]? = some r ∧ number ∉ p.answered ∧
        (p.done number task = (.removed r.object,
            { p with
              answered := p.answered ++ [number]
              tokens := p.tokens.remove r.object }) ∨
          p.done number task = (.completed r.object
              (if p.manager then (p.tokens.complete r.object r.generation number).1 else none),
            { p with
              answered := p.answered ++ [number]
              tokens := (p.tokens.complete r.object r.generation number).2 })) := by
  unfold done
  cases hissued : p.issued[number]? with
  | none => exact .inl rfl
  | some r =>
    dsimp only
    by_cases hanswered : number ∈ p.answered
    · rw [if_pos hanswered]
      exact .inl rfl
    · rw [if_neg hanswered]
      refine .inr ⟨r, rfl, hanswered, ?_⟩
      cases htask : task.filter Task.acceptsPresent with
      | none => exact .inl rfl
      | some shown =>
        have hwindow : shown.window = true := by
          have haccepts := (Option.filter_eq_some_iff.mp htask).2
          simp only [Task.acceptsPresent, Bool.and_eq_true] at haccepts
          exact haccepts.1.1.2
        dsimp only
        rw [hwindow]
        exact .inr rfl

end Presenter

/-! ## Requesting and pending -/

/-- At most one object is pending, none while one is requesting, and the requesting one is that of
    the latest request, which is not answered yet. -/
structure Orderly (p : Presenter) : Prop where
  single : ∀ o o', o ∈ p.tokens.pending → o' ∈ p.tokens.pending → o = o'
  exclusive : p.tokens.requesting ≠ none → ∀ o, o ∉ p.tokens.pending
  awaited : ∀ o, p.tokens.requesting = some o → ∃ k, p.issued.length = k + 1 ∧
    p.issued[k]? = some ⟨o, p.tokens.generation⟩ ∧ k ∉ p.answered
  known : ∀ k ∈ p.answered, k < p.issued.length

theorem Orderly.remove {p : Presenter} (h : Orderly p) {object : TaskObjectId}
    {answered : List Nat}
    (hanswered : ∀ k r, p.issued[k]? = some r → r.object ≠ object → k ∉ p.answered →
      k ∉ answered) (hknown : ∀ k ∈ answered, k < p.issued.length) :
    Orderly { p with answered := answered, tokens := p.tokens.remove object } := by
  refine ⟨?_, ?_, ?_, hknown⟩
  · intro o o' ho ho'
    rw [Tokens.remove_pending] at ho ho'
    exact h.single o o' (Std.ExtTreeMap.mem_of_mem_erase ho) (Std.ExtTreeMap.mem_of_mem_erase ho')
  · intro hrequesting o ho
    rw [Tokens.remove_requesting] at hrequesting
    rw [Tokens.remove_pending] at ho
    split at hrequesting
    · exact hrequesting rfl
    · exact h.exclusive hrequesting o (Std.ExtTreeMap.mem_of_mem_erase ho)
  · intro o hrequesting
    rw [Tokens.remove_requesting] at hrequesting
    split at hrequesting
    · cases hrequesting
    · rename_i hother
      obtain ⟨k, hlast, hget, hopen⟩ := h.awaited o hrequesting
      have hgeneration : (p.tokens.remove object).generation = p.tokens.generation := by
        rw [Tokens.remove_generation, if_neg hother]
      have hobject : o ≠ object := fun heq => hother (heq ▸ hrequesting)
      refine ⟨k, hlast, ?_, hanswered k _ hget hobject hopen⟩
      rw [hgeneration]
      exact hget

theorem Orderly.known_concat {p : Presenter} (h : Orderly p) {number : Nat} {r : Request}
    (hr : p.issued[number]? = some r) : ∀ k ∈ p.answered ++ [number], k < p.issued.length := by
  intro k hk
  rcases List.mem_append.mp hk with hk | hk
  · exact h.known k hk
  · rw [List.mem_singleton.mp hk]
    exact (List.getElem?_eq_some_iff.mp hr).1

theorem Orderly.complete {p : Presenter} (h : Orderly p) {number : Nat} {r : Request}
    (hr : p.issued[number]? = some r) :
    Orderly { p with
      answered := p.answered ++ [number]
      tokens := (p.tokens.complete r.object r.generation number).2 } := by
  have hknown := h.known_concat hr
  rcases p.tokens.complete_cases r.generation number with
    ⟨hcomplete, hlate⟩ | ⟨⟨-, hrequesting⟩, ⟨-, hcomplete⟩ | ⟨-, hcomplete⟩⟩
  · rw [hcomplete]
    refine ⟨h.single, h.exclusive, fun o ho => ?_, hknown⟩
    obtain ⟨k, hlast, hget, hopen⟩ := h.awaited o ho
    refine ⟨k, hlast, hget, ?_⟩
    -- the reply to the request in progress would have been accepted
    have hnumber : k ≠ number := by
      rintro rfl
      rw [hr] at hget
      cases hget
      rcases hlate with hlate | hlate
      · exact hlate rfl
      · exact hlate ho
    simp [hopen, hnumber]
  · rw [hcomplete]
    exact ⟨h.single, fun hnone => absurd rfl hnone, by rintro o ⟨⟩, hknown⟩
  · rw [hcomplete]
    refine ⟨fun o o' ho ho' => ?_, fun hnone => absurd rfl hnone, by rintro o ⟨⟩, hknown⟩
    -- nothing was pending while the request was in progress
    have hnone := h.exclusive (by simp [hrequesting])
    have hinserted : ∀ x, x ∈ p.tokens.pending.insert r.object number → x = r.object := by
      intro x hx
      rcases Std.ExtTreeMap.mem_insert.mp hx with heq | hx
      · exact (Std.LawfulEqCmp.eq_of_compare heq).symm
      · exact absurd hx (hnone x)
    rw [hinserted o ho, hinserted o' ho']

theorem Orderly.step {p : Presenter} (h : Orderly p) (event : Event) :
    Orderly (p.step event).2 := by
  cases event with
  | request object =>
    show Orderly (p.request object).2
    rcases Presenter.request_cases (p := p) object with heq | heq
    · rw [heq]
      exact h
    · rw [heq]
      refine ⟨by simp, by simp, ?_, fun k hk => ?_⟩
      · rintro o ⟨⟩
        exact ⟨p.issued.length, by simp, by simp, fun hk => lt_irrefl _ (h.known _ hk)⟩
      · rw [List.length_append]
        exact Nat.lt_add_right _ (h.known k hk)
  | done number task =>
    show Orderly (p.done number task).2
    rcases Presenter.done_cases (p := p) number task with heq | ⟨r, hr, hopen, heq | heq⟩
    · rw [heq]
      exact h
    · rw [heq]
      refine h.remove (fun k r' hr' hother hk => ?_) (h.known_concat hr)
      have hnumber : k ≠ number := by
        rintro rfl
        rw [hr] at hr'
        cases hr'
        exact hother rfl
      simp [hk, hnumber]
    · rw [heq]
      exact h.complete hr
  | mapped object =>
    refine ⟨fun o o' ho ho' => ?_, fun hrequesting o ho => ?_, h.awaited, h.known⟩
    · exact h.single o o' (Std.ExtTreeMap.mem_of_mem_erase ho)
        (Std.ExtTreeMap.mem_of_mem_erase ho')
    · exact h.exclusive hrequesting o (Std.ExtTreeMap.mem_of_mem_erase ho)
  | remove object => exact h.remove (fun _ _ _ _ hk => hk) h.known
  | clear =>
    refine ⟨?_, fun hnone => absurd rfl hnone, by rintro o ⟨⟩, h.known⟩
    simp [Presenter.step, Tokens.clear, Tokens.empty]

theorem run_orderly (manager : Bool) (events : List Event) :
    Orderly (run manager events).presenter := by
  induction events using List.reverseRecOn with
  | nil =>
    refine ⟨?_, fun hnone => absurd rfl hnone, by rintro o ⟨⟩, by rintro k ⟨⟩⟩
    simp [run, Presenter.new, Tokens.empty]
  | append_singleton events event ih =>
    rw [run, List.foldl_concat]
    exact ih.step event

/-- Once the latest request is answered, nothing is requesting. -/
theorem Orderly.settled {p : Presenter} (h : Orderly p) (hsettled : p.Settled) :
    p.tokens.requesting = none := by
  obtain ⟨number, hlast, hanswered⟩ := hsettled
  by_contra hrequesting
  obtain ⟨o, ho⟩ := Option.ne_none_iff_exists'.mp hrequesting
  obtain ⟨k, hk, -, hopen⟩ := h.awaited o ho
  obtain rfl : k = number := by omega
  exact hopen hanswered

/-! ## Tokens along the log -/

/-- The request with this number was made for this object, and nothing has made it void. -/
def Live (log : List Effect) (object : TaskObjectId) (number : Nat) : Prop :=
  Since (· = .issued number object) (fun e => e.voids object = true) log

def Shown (log : List Effect) (object : TaskObjectId) : Prop :=
  Since (fun e => e.maps object = true) (fun e => e.forgets object = true) log

def Unused (log : List Effect) (number : Nat) : Prop := ∀ e ∈ log, ∀ o, e.uses ≠ some (o, number)

/-- **The tokens and the log** of a run whose generation has not wrapped: generations tell requests
    apart, the request in progress and the pending token are live, and what is used is answered. -/
structure Traced (p : Presenter) (log : List Effect) : Prop where
  bounded : p.tokens.generation ≤ log.countP Effect.moves
  below : ∀ r ∈ p.issued, r.generation ≤ p.tokens.generation
  increasing : p.issued.Pairwise fun r r' => r.generation < r'.generation
  live : ∀ o k, p.tokens.requesting = some o → p.issued.length = k + 1 → Live log o k
  waiting : ∀ o k, p.tokens.pending[o]? = some k → k ∈ p.answered ∧ Unused log k ∧ Live log o k
  shown : ∀ o ∈ p.tokens.mapped, Shown log o
  used : ∀ k, k ∉ p.answered → Unused log k

section Log

variable {log : List Effect} {e : Effect} {object o : TaskObjectId} {k : Nat}

theorem live_concat : Live (log ++ [e]) o k ↔
    e = .issued k o ∨ Live log o k ∧ ¬ e.voids o = true := since_concat

theorem shown_concat : Shown (log ++ [e]) o ↔
    e.maps o = true ∨ Shown log o ∧ ¬ e.forgets o = true := since_concat

theorem unused_concat : Unused (log ++ [e]) k ↔ Unused log k ∧ ∀ o, e.uses ≠ some (o, k) := by
  simp [Unused, or_imp, forall_and]

theorem Unused.quiet (h : Unused log k) (he : e.uses = none) : Unused (log ++ [e]) k :=
  unused_concat.mpr ⟨h, fun o => by rw [he]; simp⟩

end Log

theorem wrappingSucc_le (n : Nat) : wrappingSucc n ≤ n + 1 := Nat.mod_le ..

theorem wrappingSucc_eq {n : Nat} (h : n + 1 < 2 ^ 64) : wrappingSucc n = n + 1 :=
  Nat.mod_eq_of_lt h

namespace Traced

variable {p : Presenter} {log : List Effect}

/-- A step without effect on the tokens. -/
theorem idle (h : Traced p log) {e : Effect} {answered : List Nat}
    (huses : e.uses = none) (hvoids : ∀ o, e.voids o = false)
    (hforgets : ∀ o, e.forgets o = false) (hanswered : ∀ k ∈ p.answered, k ∈ answered) :
    Traced { p with answered := answered } (log ++ [e]) where
  bounded := by
    rw [List.countP_append]
    exact Nat.le_add_right_of_le h.bounded
  below := h.below
  increasing := h.increasing
  live o k ho hk := live_concat.mpr (.inr ⟨h.live o k ho hk, by simp [hvoids]⟩)
  waiting o k hk := by
    obtain ⟨hanswer, hunused, hlive⟩ := h.waiting o k hk
    exact ⟨hanswered k hanswer, hunused.quiet huses,
      live_concat.mpr (.inr ⟨hlive, by simp [hvoids]⟩)⟩
  shown o ho := shown_concat.mpr (.inr ⟨h.shown o ho, by simp [hforgets]⟩)
  used k hk := (h.used k fun hmem => hk (hanswered k hmem)).quiet huses

theorem issue (h : Traced p log) (object : TaskObjectId)
    (hbound : p.tokens.generation + 1 < 2 ^ 64) :
    Traced { p with
      tokens := { p.tokens with
        generation := wrappingSucc p.tokens.generation
        requesting := some object
        pending := ∅ }
      issued := p.issued ++ [⟨object, wrappingSucc p.tokens.generation⟩] }
      (log ++ [.issued p.issued.length object]) where
  bounded := by
    rw [List.countP_append]
    exact (wrappingSucc_le _).trans (Nat.add_le_add_right h.bounded 1)
  below r hr := by
    show r.generation ≤ wrappingSucc p.tokens.generation
    rw [wrappingSucc_eq hbound]
    rcases List.mem_append.mp hr with hr | hr
    · exact Nat.le_succ_of_le (h.below r hr)
    · rw [List.mem_singleton.mp hr, wrappingSucc_eq hbound]
  increasing := by
    refine List.pairwise_append.mpr ⟨h.increasing, List.pairwise_singleton .., ?_⟩
    intro r hr r' hr'
    rw [List.mem_singleton.mp hr', wrappingSucc_eq hbound]
    exact Nat.lt_succ_of_le (h.below r hr)
  live o k ho hk := by
    have hlength : p.issued.length = k := by simpa using hk
    cases ho
    exact live_concat.mpr (.inl (by rw [hlength]))
  waiting o k hk := by simp at hk
  shown o ho := shown_concat.mpr (.inr ⟨h.shown o ho, by simp [Effect.forgets]⟩)
  used k hk := (h.used k hk).quiet rfl

theorem remove (h : Traced p log) (object : TaskObjectId) {answered : List Nat}
    (hbound : p.tokens.generation + 1 < 2 ^ 64) (hanswered : ∀ k ∈ p.answered, k ∈ answered) :
    Traced { p with answered := answered, tokens := p.tokens.remove object }
      (log ++ [.removed object]) := by
  have hle : p.tokens.generation ≤ (p.tokens.remove object).generation := by
    rw [Tokens.remove_generation]
    split
    · rw [wrappingSucc_eq hbound]
      exact Nat.le_succ _
    · exact le_rfl
  refine ⟨?_, fun r hr => (h.below r hr).trans hle, h.increasing, ?_, ?_, ?_, ?_⟩
  · rw [List.countP_append]
    show (p.tokens.remove object).generation ≤ _ + 1
    rw [Tokens.remove_generation]
    split
    · exact (wrappingSucc_le _).trans (Nat.add_le_add_right h.bounded 1)
    · exact Nat.le_succ_of_le h.bounded
  · intro o k ho hk
    rw [Tokens.remove_requesting] at ho
    split at ho
    · cases ho
    · rename_i hother
      have hne : object ≠ o := fun heq => hother (heq ▸ ho)
      exact live_concat.mpr (.inr ⟨h.live o k ho hk, by simp [Effect.voids, hne]⟩)
  · intro o k hk
    rw [Tokens.remove_pending, Std.ExtTreeMap.getElem?_erase] at hk
    split at hk
    · cases hk
    · rename_i hother
      have hne : object ≠ o := fun heq => hother (by rw [heq]; exact Std.ReflCmp.compare_self)
      obtain ⟨hanswer, hunused, hlive⟩ := h.waiting o k hk
      exact ⟨hanswered k hanswer, hunused.quiet rfl,
        live_concat.mpr (.inr ⟨hlive, by simp [Effect.voids, hne]⟩)⟩
  · intro o ho
    rw [Tokens.remove_mapped] at ho
    obtain ⟨hne, ho⟩ := Finset.mem_erase.mp ho
    exact shown_concat.mpr (.inr ⟨h.shown o ho, by simp [Effect.forgets, hne.symm]⟩)
  · exact fun k hk => (h.used k fun hmem => hk (hanswered k hmem)).quiet rfl

theorem clear (h : Traced p log) (hbound : p.tokens.generation + 1 < 2 ^ 64) :
    Traced { p with tokens := p.tokens.clear } (log ++ [.cleared]) where
  bounded := by
    rw [List.countP_append]
    exact (wrappingSucc_le _).trans (Nat.add_le_add_right h.bounded 1)
  below r hr := by
    show r.generation ≤ wrappingSucc p.tokens.generation
    rw [wrappingSucc_eq hbound]
    exact Nat.le_succ_of_le (h.below r hr)
  increasing := h.increasing
  live o k ho := by cases ho
  waiting o k hk := by simp [Tokens.clear, Tokens.empty] at hk
  shown o ho := by simp [Tokens.clear, Tokens.empty] at ho
  used k hk := (h.used k hk).quiet rfl

/-- The token that a mapping uses was waiting for it. -/
theorem map (h : Traced p log) (horderly : Orderly p) (object : TaskObjectId) :
    Traced (p.map object).2 (log ++ [(p.map object).1]) ∧
      ∀ o k, (p.map object).1.uses = some (o, k) → Proper log (p.map object).1 o k := by
  have hmaps : Effect.maps object (p.map object).1 = true := by
    simp [Presenter.map, Effect.maps]
  have hvoids : ∀ o, Effect.voids o (p.map object).1 = false := fun o => rfl
  have hforgets : ∀ o, Effect.forgets o (p.map object).1 = false := fun o => rfl
  have huses : ∀ o k, (p.map object).1.uses = some (o, k) →
      o = object ∧ p.tokens.pending[object]? = some k := by
    intro o k hk
    have heffect : (p.map object).1 =
        .mapped object (if p.manager then p.tokens.pending[object]? else none) := rfl
    rw [heffect] at hk
    cases hmanager : p.manager with
    | false =>
      rw [hmanager] at hk
      cases hk
    | true =>
      rw [hmanager, if_pos rfl] at hk
      cases hpending : p.tokens.pending[object]? with
      | none =>
        rw [hpending] at hk
        cases hk
      | some token =>
        rw [hpending] at hk
        cases hk
        exact ⟨rfl, rfl⟩
  refine ⟨⟨?_, h.below, h.increasing, ?_, ?_, ?_, ?_⟩, ?_⟩
  · rw [List.countP_append]
    exact Nat.le_add_right_of_le h.bounded
  · exact fun o k ho hk => live_concat.mpr (.inr ⟨h.live o k ho hk, by simp [hvoids]⟩)
  · intro o k hk
    have hk : (p.tokens.pending.erase object)[o]? = some k := hk
    rw [Std.ExtTreeMap.getElem?_erase] at hk
    split at hk
    · cases hk
    · rename_i hother
      obtain ⟨hanswer, hunused, hlive⟩ := h.waiting o k hk
      refine ⟨hanswer, unused_concat.mpr ⟨hunused, fun o' hused => ?_⟩,
        live_concat.mpr (.inr ⟨hlive, by simp [hvoids]⟩)⟩
      -- only one object is pending, so the mapped one had no token
      have hmapped := (huses o' k hused).2
      have hmem : ∀ x, p.tokens.pending[x]? = some k → x ∈ p.tokens.pending := by
        intro x hx
        rw [Std.ExtTreeMap.mem_iff_isSome_getElem?, hx]
        rfl
      have hsame := horderly.single object o (hmem object hmapped) (hmem o hk)
      exact hother (by rw [hsame]; exact Std.ReflCmp.compare_self)
  · intro o ho
    rcases Finset.mem_insert.mp ho with rfl | ho
    · exact shown_concat.mpr (.inl hmaps)
    · exact shown_concat.mpr (.inr ⟨h.shown o ho, by simp [hforgets]⟩)
  · intro k hk
    refine unused_concat.mpr ⟨h.used k hk, fun o hused => ?_⟩
    exact hk (h.waiting object k (huses o k hused).2).1
  · intro o k hused
    obtain ⟨rfl, hpending⟩ := huses o k hused
    obtain ⟨-, hunused, hlive⟩ := h.waiting o k hpending
    exact ⟨hunused, hlive, shown_concat.mpr (.inl hmaps)⟩

/-- A reply that is accepted is that of the latest request. -/
theorem number_latest (h : Traced p log) (horderly : Orderly p) {number : Nat} {r : Request}
    (hr : p.issued[number]? = some r) (hgeneration : r.generation = p.tokens.generation)
    (hrequesting : p.tokens.requesting = some r.object) : p.issued.length = number + 1 := by
  obtain ⟨k, hlast, hget, -⟩ := horderly.awaited _ hrequesting
  obtain ⟨hnumber, hr⟩ := List.getElem?_eq_some_iff.mp hr
  obtain ⟨hk, hget⟩ := List.getElem?_eq_some_iff.mp hget
  by_contra hne
  have hlt : number < k := by omega
  have hincreasing := List.pairwise_iff_getElem.mp h.increasing number k hnumber hk hlt
  rw [hr, hget, hgeneration] at hincreasing
  exact lt_irrefl _ hincreasing

theorem complete (h : Traced p log) (horderly : Orderly p) {number : Nat} {r : Request}
    (hr : p.issued[number]? = some r) (hopen : number ∉ p.answered) {e : Effect}
    (he : e = .completed r.object
      (if p.manager then (p.tokens.complete r.object r.generation number).1 else none)) :
    Traced { p with
      answered := p.answered ++ [number]
      tokens := (p.tokens.complete r.object r.generation number).2 } (log ++ [e]) ∧
      ∀ o k, e.uses = some (o, k) → Proper log e o k := by
  have hanswered : ∀ k ∈ p.answered, k ∈ p.answered ++ [number] :=
    fun k hk => List.mem_append_left _ hk
  have hvoids : ∀ o, e.voids o = false := fun o => by rw [he]; rfl
  have hforgets : ∀ o, e.forgets o = false := fun o => by rw [he]; rfl
  rcases p.tokens.complete_cases r.generation number with
    ⟨hcomplete, -⟩ | ⟨⟨hgeneration, hrequesting⟩, ⟨hmapped, hcomplete⟩ | ⟨-, hcomplete⟩⟩
  · rw [hcomplete] at he ⊢
    have huses : e.uses = none := by rw [he]; cases p.manager <;> rfl
    exact ⟨h.idle huses hvoids hforgets hanswered, fun o k hk => by rw [huses] at hk; cases hk⟩
  · rw [hcomplete] at he ⊢
    have hlive := h.live _ number hrequesting (h.number_latest horderly hr hgeneration hrequesting)
    have hnone := horderly.exclusive (by simp [hrequesting])
    have huses : ∀ o k, e.uses = some (o, k) → o = r.object ∧ k = number := by
      intro o k hk
      rw [he] at hk
      cases hmanager : p.manager with
      | false =>
        rw [hmanager] at hk
        cases hk
      | true =>
        rw [hmanager] at hk
        cases hk
        exact ⟨rfl, rfl⟩
    refine ⟨⟨?_, h.below, h.increasing, by rintro o k ⟨⟩, ?_, ?_, ?_⟩, ?_⟩
    · rw [List.countP_append]
      exact Nat.le_add_right_of_le h.bounded
    · intro o k hk
      exact absurd (Std.ExtTreeMap.mem_iff_isSome_getElem?.mpr (by rw [hk]; rfl)) (hnone o)
    · exact fun o ho => shown_concat.mpr (.inr ⟨h.shown o ho, by simp [hforgets]⟩)
    · intro k hk
      refine unused_concat.mpr ⟨h.used k fun hmem => hk (hanswered k hmem), fun o hused => ?_⟩
      exact hk (by rw [(huses o k hused).2]; simp)
    · intro o k hused
      obtain ⟨rfl, rfl⟩ := huses o k hused
      exact ⟨h.used k hopen, hlive, shown_concat.mpr (.inr ⟨h.shown _ hmapped, by simp [hforgets]⟩)⟩
  · rw [hcomplete] at he ⊢
    have hlive := h.live _ number hrequesting (h.number_latest horderly hr hgeneration hrequesting)
    have hnone := horderly.exclusive (by simp [hrequesting])
    have huses : e.uses = none := by rw [he]; cases p.manager <;> rfl
    refine ⟨⟨?_, h.below, h.increasing, by rintro o k ⟨⟩, ?_, ?_, ?_⟩,
      fun o k hk => by rw [huses] at hk; cases hk⟩
    · rw [List.countP_append]
      exact Nat.le_add_right_of_le h.bounded
    · intro o k hk
      have hk : (p.tokens.pending.insert r.object number)[o]? = some k := hk
      rw [Std.ExtTreeMap.getElem?_insert] at hk
      split at hk
      · rename_i heq
        cases hk
        rw [← Std.LawfulEqCmp.eq_of_compare heq]
        exact ⟨by simp, (h.used number hopen).quiet huses,
          live_concat.mpr (.inr ⟨hlive, by simp [hvoids]⟩)⟩
      · exact absurd (Std.ExtTreeMap.mem_iff_isSome_getElem?.mpr (by rw [hk]; rfl)) (hnone o)
    · exact fun o ho => shown_concat.mpr (.inr ⟨h.shown o ho, by simp [hforgets]⟩)
    · exact fun k hk => (h.used k fun hmem => hk (hanswered k hmem)).quiet huses

theorem step (h : Traced p log) (horderly : Orderly p) (event : Event)
    (hbound : (log ++ [(p.step event).1]).countP Effect.moves < 2 ^ 64) :
    Traced (p.step event).2 (log ++ [(p.step event).1]) ∧
      ∀ o k, (p.step event).1.uses = some (o, k) → Proper log (p.step event).1 o k := by
  have hnothing : Traced p (log ++ [.nothing]) ∧ ∀ o k, Effect.nothing.uses = some (o, k) →
      Proper log .nothing o k :=
    ⟨h.idle rfl (fun _ => rfl) (fun _ => rfl) fun _ hk => hk, by rintro o k ⟨⟩⟩
  -- the steps that move the generation on are counted
  have hmoves : (p.step event).1.moves = true → p.tokens.generation + 1 < 2 ^ 64 := by
    intro hmove
    rw [List.countP_append, List.countP_singleton, if_pos hmove] at hbound
    have := h.bounded
    omega
  cases event with
  | request object =>
    have hrequest : p.step (.request object) = p.request object := rfl
    rw [hrequest] at hmoves ⊢
    rcases Presenter.request_cases (p := p) object with heq | heq
    · rw [heq]
      exact hnothing
    · rw [heq] at hmoves ⊢
      exact ⟨h.issue object (hmoves rfl), by rintro o k ⟨⟩⟩
  | done number task =>
    have hdone : p.step (.done number task) = p.done number task := rfl
    rw [hdone] at hmoves ⊢
    rcases Presenter.done_cases (p := p) number task with heq | ⟨r, hr, hopen, heq | heq⟩
    · rw [heq]
      exact hnothing
    · rw [heq] at hmoves ⊢
      exact ⟨h.remove r.object (hmoves rfl) fun k hk => List.mem_append_left _ hk,
        by rintro o k ⟨⟩⟩
    · rw [heq]
      exact h.complete horderly hr hopen rfl
  | mapped object => exact h.map horderly object
  | remove object => exact ⟨h.remove object (hmoves rfl) fun _ hk => hk, by rintro o k ⟨⟩⟩
  | clear => exact ⟨h.clear (hmoves rfl), by rintro o k ⟨⟩⟩

end Traced

/-- The log of a run that has not moved the generation too often: its state is traced, and every use
    in it is proper. -/
theorem run_traced (manager : Bool) (events : List Event)
    (hbound : (run manager events).log.countP Effect.moves < 2 ^ 64) :
    Traced (run manager events).presenter (run manager events).log ∧
      Along (fun before e => ∀ o k, e.uses = some (o, k) → Proper before e o k)
        (run manager events).log := by
  induction events using List.reverseRecOn with
  | nil =>
    refine ⟨⟨le_rfl, by rintro r ⟨⟩, List.Pairwise.nil, by rintro o k ⟨⟩, ?_, ?_, ?_⟩, along_nil⟩
    · simp [run, Presenter.new, Tokens.empty]
    · simp [run, Presenter.new, Tokens.empty]
    · rintro k - e ⟨⟩
  | append_singleton events event ih =>
    rw [run, List.foldl_concat] at hbound ⊢
    have hbefore : (run manager events).log.countP Effect.moves < 2 ^ 64 := by
      rw [Run.step, List.countP_append] at hbound
      exact lt_of_le_of_lt (Nat.le_add_right ..) hbound
    obtain ⟨htraced, halong⟩ := ih hbefore
    obtain ⟨hnext, hproper⟩ := htraced.step (run_orderly manager events) event hbound
    exact ⟨hnext, halong.concat hproper⟩

/-- **Activation tokens**: in every run with fewer than `2 ^ 64` requests, removals and clears each
    token is used at most once, for the object of the latest request, which was neither removed nor
    cleared since, and after that object was mapped; at most one object is pending, and none while
    one is requesting; and once the reply to the latest request has been handled, none is. -/
theorem activation_tokens (manager : Bool) (events : List Event) :
    ((run manager events).log.countP Effect.moves < 2 ^ 64 →
      Along (fun before e => ∀ object token, e.uses = some (object, token) →
        Proper before e object token) (run manager events).log) ∧
    (∀ o o', o ∈ (run manager events).presenter.tokens.pending →
      o' ∈ (run manager events).presenter.tokens.pending → o = o') ∧
    ((run manager events).presenter.tokens.requesting ≠ none →
      ∀ o, o ∉ (run manager events).presenter.tokens.pending) ∧
    ((run manager events).presenter.Settled →
      (run manager events).presenter.tokens.requesting = none) := by
  have horderly := run_orderly manager events
  exact ⟨fun hbound => (run_traced manager events hbound).2, horderly.single, horderly.exclusive,
    horderly.settled⟩

/-! ## A generation that comes round -/

/-- A task that is presented. -/
def shownTask : Task := ⟨false, true, false, false⟩

/-- A request, then clears until the generation is back, then a second request for the same object,
    its mapping, and the late reply to the first request. -/
def roundEvents (n : Nat) : List Event :=
  .request 1 :: (List.replicate n .clear ++ [.request 1, .mapped 1, .done 0 (some shownTask)])

theorem clears (r : Run) (n : Nat) :
    ((List.replicate (n + 1) Event.clear).foldl Run.step r) =
      { presenter := { r.presenter with
          tokens := Tokens.empty ((r.presenter.tokens.generation + (n + 1)) % 2 ^ 64) }
        log := r.log ++ List.replicate (n + 1) .cleared } := by
  induction n with
  | zero => rfl
  | succ n ih =>
    have hgeneration : wrappingSucc ((r.presenter.tokens.generation + (n + 1)) % 2 ^ 64) =
        (r.presenter.tokens.generation + (n + 1 + 1)) % 2 ^ 64 := by
      unfold wrappingSucc
      omega
    rw [List.replicate_succ', List.foldl_concat, ih, List.replicate_succ' (n := n + 1),
      ← List.append_assoc, ← hgeneration]
    rfl

def roundLog (n : Nat) : List Effect :=
  (.issued 0 1 :: List.replicate n .cleared) ++ [.issued 1 1, .mapped 1 none]

theorem round_run {n : Nat} (h : (1 + (n + 1)) % 2 ^ 64 = 0) :
    (run true (roundEvents (n + 1))).log = roundLog (n + 1) ++ [.completed 1 (some 0)] := by
  have hfirst : Run.step ⟨.new true, []⟩ (.request 1) =
      ⟨{ manager := true
         tokens := { Tokens.empty 1 with requesting := some 1 }
         issued := [⟨1, 1⟩]
         answered := [] }, [.issued 0 1]⟩ := rfl
  have hclears := clears (Run.step ⟨.new true, []⟩ (.request 1)) n
  have hgeneration : ((Run.step ⟨.new true, []⟩ (.request 1)).presenter.tokens.generation +
      (n + 1)) % 2 ^ 64 = 0 := by
    rw [hfirst]
    exact h
  rw [hgeneration] at hclears
  rw [run, roundEvents, List.foldl_cons, List.foldl_append, hclears, hfirst, roundLog]
  simp only [List.foldl_cons, List.foldl_nil, Run.step, List.append_assoc, List.cons_append,
    List.nil_append]
  rfl

def Event.isRequest : Event → Bool
  | .request _ => true
  | _ => false

/-- **With two requests only**: clears bring the generation round, and the token of the cleared
    first request is used. -/
theorem cleared_token_used :
    ∃ events : List Event, events.countP Event.isRequest = 2 ∧
      ∃ before e, (run true events).log = before ++ [e] ∧ e.uses = some (1, 0) ∧
        ¬ Proper before e 1 0 := by
  obtain ⟨n, hn⟩ : ∃ n, (1 + (n + 1)) % 2 ^ 64 = 0 := ⟨2 ^ 64 - 2, by norm_num⟩
  refine ⟨roundEvents (n + 1), ?_, roundLog (n + 1), .completed 1 (some 0), round_run hn, rfl,
    fun h => ?_⟩
  · rw [roundEvents, List.countP_cons, List.countP_append, List.countP_replicate]
    rfl
  · have hlatest := h.latest
    have hsplit : [Effect.issued 1 1, .mapped 1 none] = [.issued 1 1] ++ [.mapped 1 none] := rfl
    rw [roundLog, hsplit, ← List.append_assoc, since_concat] at hlatest
    rcases hlatest with hlast | ⟨hlatest, -⟩
    · cases hlast
    · rw [since_concat] at hlatest
      rcases hlatest with hlast | ⟨-, hvoid⟩
      · cases hlast
      · exact hvoid rfl

end Droidloom.Activation
