/-
  Rules for fallible code.

  Two monads appear in a shallow embedding of code with early returns: `Except ε` for pure checks
  and `EStateM ε σ` for methods that mutate a receiver.  The latter KEEPS the state on an error,
  so whether a failing method leaves its receiver alone is something to be proved, not something
  that the embedding decides.

  `Atomic x s Q` is the judgement used for such methods: from `s` the method either fails with `s`
  unchanged, or succeeds with `Q` of the result and the new state.  There is one rule per
  construct; a method's specification is obtained by walking down its body once.
-/
import Mathlib

namespace Fallible

variable {ε ε' σ α β : Type}

/-! ## Early returns -/

/-- `if c { return Err(e) }`. -/
def rejectIf {m : Type → Type} [Monad m] [MonadExcept ε m] (c : Prop) [Decidable c] (e : ε) :
    m Unit :=
  if c then throw e else pure ()

/-- `option.ok_or(e)?`. -/
def okOr {m : Type → Type} [Monad m] [MonadExcept ε m] (o : Option α) (e : ε) : m α :=
  match o with
  | some a => pure a
  | none => throw e

/-- `check.map_err(g)?`. -/
def mapErr {m : Type → Type} [Monad m] [MonadExcept ε m] (g : ε' → ε) (x : Except ε' α) : m α :=
  match x with
  | .ok a => pure a
  | .error e => throw (g e)

/-! ## Pure checks -/

@[simp] theorem bind_eq_ok {x : Except ε α} {f : α → Except ε β} {b : β} :
    x >>= f = .ok b ↔ ∃ a, x = .ok a ∧ f a = .ok b := by
  cases x with
  | error e => simp [bind, Except.bind]
  | ok a => simp [bind, Except.bind]

@[simp] theorem pure_eq_ok {a b : α} : (pure a : Except ε α) = .ok b ↔ a = b := by
  simp [pure, Except.pure]

@[simp] theorem throw_eq_ok {e : ε} {b : α} : (throw e : Except ε α) = .ok b ↔ False := by
  simp [throw, throwThe, MonadExceptOf.throw]

@[simp] theorem rejectIf_eq_ok {c : Prop} [Decidable c] {e : ε} {u : Unit} :
    (rejectIf c e : Except ε Unit) = .ok u ↔ ¬ c := by
  unfold rejectIf
  split <;> simp [*]

@[simp] theorem okOr_eq_ok {o : Option α} {e : ε} {a : α} :
    (okOr o e : Except ε α) = .ok a ↔ o = some a := by
  cases o <;> simp [okOr]

@[simp] theorem mapErr_eq_ok {g : ε' → ε} {x : Except ε' α} {a : α} :
    (mapErr g x : Except ε α) = .ok a ↔ x = .ok a := by
  cases x <;> simp [mapErr]

@[simp] theorem bind_eq_error {x : Except ε α} {f : α → Except ε β} {e : ε} :
    x >>= f = .error e ↔ x = .error e ∨ ∃ a, x = .ok a ∧ f a = .error e := by
  cases x with
  | error e' => simp [bind, Except.bind]
  | ok a => simp [bind, Except.bind]

@[simp] theorem pure_eq_error {a : α} {e : ε} : (pure a : Except ε α) = .error e ↔ False := by
  simp [pure, Except.pure]

/-! ## Methods -/

/-- From `s`, the method fails and leaves `s`, or succeeds and establishes `Q`. -/
def Atomic (x : EStateM ε σ α) (s : σ) (Q : α → σ → Prop) : Prop :=
  match x.run s with
  | .ok a s' => Q a s'
  | .error _ s' => s' = s

variable {s : σ} {Q : α → σ → Prop} {Q' : β → σ → Prop}

theorem Atomic.of_error {x : EStateM ε σ α} {e : ε} {s' : σ} (hx : Atomic x s Q)
    (h : x.run s = .error e s') : s' = s := by
  rw [Atomic, h] at hx
  exact hx

theorem Atomic.of_ok {x : EStateM ε σ α} {a : α} {s' : σ} (hx : Atomic x s Q)
    (h : x.run s = .ok a s') : Q a s' := by
  rw [Atomic, h] at hx
  exact hx

theorem atomic_throw (e : ε) : Atomic (throw e : EStateM ε σ α) s Q := rfl

/-- A method that only reads succeeds with the state unchanged. -/
theorem atomic_pure {a : α} (h : Q a s) : Atomic (pure a : EStateM ε σ α) s Q := h

/-- The last mutation: everything after it is a plain return. -/
theorem atomic_set_pure {s' : σ} {a : α} (h : Q a s') :
    Atomic (do set s'; pure a : EStateM ε σ α) s Q := h

theorem atomic_set {s' : σ} {Q : PUnit → σ → Prop} (h : Q ⟨⟩ s') :
    Atomic (set s' : EStateM ε σ PUnit) s Q := h

theorem atomic_get_bind {f : σ → EStateM ε σ β} (h : Atomic (f s) s Q') :
    Atomic (get >>= f) s Q' := h

theorem atomic_rejectIf_bind {c : Prop} [Decidable c] {e : ε} {f : Unit → EStateM ε σ β}
    (h : ¬ c → Atomic (f ()) s Q') : Atomic (rejectIf c e >>= f) s Q' := by
  unfold rejectIf
  split
  · exact atomic_throw e
  · rename_i hc; exact h hc

theorem atomic_okOr_bind {o : Option α} {e : ε} {f : α → EStateM ε σ β}
    (h : ∀ a, o = some a → Atomic (f a) s Q') : Atomic (okOr o e >>= f) s Q' := by
  cases o with
  | none => exact atomic_throw e
  | some a => exact h a rfl

theorem atomic_mapErr_bind {g : ε' → ε} {x : Except ε' α} {f : α → EStateM ε σ β}
    (h : ∀ a, x = .ok a → Atomic (f a) s Q') : Atomic (mapErr g x >>= f) s Q' := by
  cases x with
  | error e => exact atomic_throw (g e)
  | ok a => exact h a rfl

theorem atomic_ite {c : Prop} [Decidable c] {x y : EStateM ε σ α}
    (hx : c → Atomic x s Q) (hy : ¬ c → Atomic y s Q) : Atomic (if c then x else y) s Q := by
  split
  · rename_i hc; exact hx hc
  · rename_i hc; exact hy hc

theorem Atomic.mono {x : EStateM ε σ α} {R : α → σ → Prop} (hx : Atomic x s Q)
    (h : ∀ a s', Q a s' → R a s') : Atomic x s R := by
  unfold Atomic at hx ⊢
  cases hr : x.run s with
  | ok a s' => rw [hr] at hx; exact h a s' hx
  | error e s' => rw [hr] at hx; exact hx

/-- A method whose result is mapped afterwards. -/
theorem atomic_map {x : EStateM ε σ α} {g : α → β} (hx : Atomic x s fun a s' => Q' (g a) s') :
    Atomic (g <$> x) s Q' := by
  unfold Atomic EStateM.run at hx ⊢
  simp only [Functor.map, EStateM.map]
  cases hr : x s with
  | ok a s' => rw [hr] at hx; exact hx
  | error e s' => rw [hr] at hx; exact hx

/-- Forgetting the result of a method. -/
theorem Atomic.discard {x : EStateM ε σ α} (hx : Atomic x s Q) :
    Atomic (do let _ ← x; pure ()) s fun _ s' => ∃ a, Q a s' := by
  unfold Atomic at hx ⊢
  simp only [EStateM.run_bind]
  cases hr : x.run s with
  | ok a s' => rw [hr] at hx; exact ⟨a, hx⟩
  | error e s' => rw [hr] at hx; exact hx

/-! ## Methods of a part of the receiver -/

/-- A method of the part `view s`, run on the whole receiver; its errors are wrapped by `err`. -/
def zoom (view : σ → τ) (put : τ → σ → σ) (err : ε' → ε) (x : EStateM ε' τ α) : EStateM ε σ α :=
  fun s => match x (view s) with
    | .ok a t => .ok a (put t s)
    | .error e t => .error (err e) (put t s)

theorem atomic_zoom {view : σ → τ} {put : τ → σ → σ} {err : ε' → ε} {x : EStateM ε' τ α}
    (hput : put (view s) s = s) (hx : Atomic x (view s) fun a t => Q a (put t s)) :
    Atomic (zoom view put err x) s Q := by
  unfold Atomic EStateM.run at hx ⊢
  unfold zoom
  cases hr : x (view s) with
  | ok a t => rw [hr] at hx; exact hx
  | error e t => rw [hr] at hx; simp only [] at hx ⊢; rw [hx, hput]

/-- `match x { Ok(a) => …, Err(e) => … }`: the outcome of a method as a value. -/
def attempt (x : EStateM ε' σ α) : EStateM ε σ (Except ε' α) :=
  fun s => match x s with
    | .ok a s' => .ok (.ok a) s'
    | .error e s' => .ok (.error e) s'

/-! ## Running a method step by step -/

theorem get_bind_run {f : σ → EStateM ε σ β} : (get >>= f) s = f s s := rfl

theorem bind_run_ok {x : EStateM ε σ α} {f : α → EStateM ε σ β} {a : α} {s' : σ}
    (hx : x s = .ok a s') : (x >>= f) s = f a s' := by
  simp only [bind, EStateM.bind, hx]

theorem bind_run_error {x : EStateM ε σ α} {f : α → EStateM ε σ β} {e : ε} {s' : σ}
    (hx : x s = .error e s') : (x >>= f) s = .error e s' := by
  simp only [bind, EStateM.bind, hx]

theorem attempt_ok {x : EStateM ε' σ α} {a : α} {s' : σ} (h : x s = .ok a s') :
    (attempt x : EStateM ε σ (Except ε' α)) s = .ok (.ok a) s' := by
  simp only [attempt, h]

theorem attempt_error {x : EStateM ε' σ α} {e : ε'} {s' : σ} (h : x s = .error e s') :
    (attempt x : EStateM ε σ (Except ε' α)) s = .ok (.error e) s' := by
  simp only [attempt, h]

theorem rejectIf_bind_run {c : Prop} [Decidable c] {e : ε} {f : Unit → EStateM ε σ β}
    (hc : ¬ c) : (rejectIf c e >>= f) s = f () s := by
  rw [rejectIf, if_neg hc]; rfl

theorem rejectIf_bind_throw {c : Prop} [Decidable c] {e : ε} {f : Unit → EStateM ε σ β}
    (hc : c) : (rejectIf c e >>= f) s = .error e s := by
  rw [rejectIf, if_pos hc]; rfl

theorem okOr_bind_run {o : Option α} {e : ε} {f : α → EStateM ε σ β} {a : α}
    (ho : o = some a) : (okOr o e >>= f) s = f a s := by
  rw [ho]; rfl

theorem mapErr_bind_run {g : ε' → ε} {x : Except ε' α} {f : α → EStateM ε σ β} {a : α}
    (hx : x = .ok a) : (mapErr g x >>= f) s = f a s := by
  rw [hx]; rfl

end Fallible
