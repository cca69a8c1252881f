/-
  Postconditions for methods that may fail half-way.

  `Ends x s Q E` says what holds after the run of `x` from `s`: `Q` of the result and the state when
  it succeeds, `E` of the state it leaves behind when it fails.  With `E` and `Q` both implying that
  the state was reached by moves of a transition relation, invariants are proved once, for a move,
  and hold after every method, early error returns included (`reached_invariant`).
-/
import Droidloom.Lib.Fallible

namespace Triple

open Fallible Relation

variable {ε ε' σ α β : Type} {s : σ} {Q : α → σ → Prop} {R : β → σ → Prop} {E : σ → Prop}

def Ends (x : EStateM ε σ α) (s : σ) (Q : α → σ → Prop) (E : σ → Prop) : Prop :=
  match x s with
  | .ok a s' => Q a s'
  | .error _ s' => E s'

/-- The state that a method leaves behind, successful or not. -/
def final (x : EStateM ε σ α) (s : σ) : σ :=
  match x s with
  | .ok _ s' => s'
  | .error _ s' => s'

theorem Ends.final {x : EStateM ε σ α} (h : Ends x s Q E) (hq : ∀ a s', Q a s' → E s') :
    E (final x s) := by
  unfold Ends at h
  unfold Triple.final
  cases hx : x s with
  | ok a s' => rw [hx] at h; exact hq a s' h
  | error e s' => rw [hx] at h; exact h

theorem Ends.of_ok {x : EStateM ε σ α} {a : α} {s' : σ} (h : Ends x s Q E)
    (hx : x s = .ok a s') : Q a s' := by
  unfold Ends at h
  rw [hx] at h
  exact h

theorem Ends.of_error {x : EStateM ε σ α} {e : ε} {s' : σ} (h : Ends x s Q E)
    (hx : x s = .error e s') : E s' := by
  unfold Ends at h
  rw [hx] at h
  exact h

/-! ## One rule per construct -/

theorem ends_pure {a : α} (h : Q a s) : Ends (pure a : EStateM ε σ α) s Q E := h

theorem ends_throw {e : ε} (h : E s) : Ends (throw e : EStateM ε σ α) s Q E := h

theorem ends_bind {x : EStateM ε σ α} {f : α → EStateM ε σ β} (hx : Ends x s Q E)
    (hf : ∀ a s', Q a s' → Ends (f a) s' R E) : Ends (x >>= f) s R E := by
  unfold Ends at hx
  cases hrun : x s with
  | ok a s' =>
    rw [hrun] at hx
    have hnext := hf a s' hx
    unfold Ends at hnext ⊢
    rw [bind_run_ok hrun]
    exact hnext
  | error e s' =>
    rw [hrun] at hx
    unfold Ends
    rw [bind_run_error hrun]
    exact hx

/-- A method whose result is mapped afterwards. -/
theorem ends_map {x : EStateM ε σ α} {g : α → β} (hx : Ends x s (fun a s' => R (g a) s') E) :
    Ends (g <$> x) s R E := by
  unfold Ends at hx ⊢
  simp only [Functor.map, EStateM.map]
  cases hrun : x s with
  | ok a s' => rw [hrun] at hx; exact hx
  | error e s' => rw [hrun] at hx; exact hx

theorem ends_get_bind {f : σ → EStateM ε σ β} (h : Ends (f s) s R E) :
    Ends (get >>= f) s R E := h

theorem ends_modify {g : σ → σ} {Q : PUnit → σ → Prop} (h : Q ⟨⟩ (g s)) :
    Ends (modify g : EStateM ε σ PUnit) s Q E := h

theorem ends_modify_bind {g : σ → σ} {f : PUnit → EStateM ε σ β} (h : Ends (f ⟨⟩) (g s) R E) :
    Ends (modify g >>= f) s R E := h

theorem ends_set {s' : σ} {Q : PUnit → σ → Prop} (h : Q ⟨⟩ s') :
    Ends (set s' : EStateM ε σ PUnit) s Q E := h

theorem ends_set_bind {s' : σ} {f : PUnit → EStateM ε σ β} (h : Ends (f ⟨⟩) s' R E) :
    Ends (set s' >>= f) s R E := h

theorem ends_rejectIf {c : Prop} [Decidable c] {e : ε} {P : Unit → σ → Prop} (he : c → E s)
    (h : ¬ c → P () s) : Ends (rejectIf c e : EStateM ε σ Unit) s P E := by
  by_cases hc : c
  · rw [rejectIf, if_pos hc]
    exact ends_throw (he hc)
  · rw [rejectIf, if_neg hc]
    exact ends_pure (h hc)

theorem ends_rejectIf_bind {c : Prop} [Decidable c] {e : ε} {f : Unit → EStateM ε σ β}
    (he : c → E s) (h : ¬ c → Ends (f ()) s R E) : Ends (rejectIf c e >>= f) s R E :=
  ends_bind (Q := fun _ s' => s' = s ∧ ¬ c) (ends_rejectIf he fun hc => ⟨rfl, hc⟩)
    fun _ _ ⟨heq, hc⟩ => heq ▸ h hc

theorem ends_mapErr {g : ε' → ε} {x : Except ε' α} (he : ∀ e, x = .error e → E s)
    (h : ∀ a, x = .ok a → Q a s) : Ends (mapErr g x : EStateM ε σ α) s Q E := by
  cases x with
  | error e => exact ends_throw (he e rfl)
  | ok a => exact ends_pure (h a rfl)

theorem ends_mapErr_ok_bind {g : ε' → ε} {a : α} {f : α → EStateM ε σ β} (h : Ends (f a) s R E) :
    Ends (mapErr g (.ok a) >>= f) s R E := h

theorem ends_okOr {o : Option α} {e : ε} (he : o = none → E s) (h : ∀ a, o = some a → Q a s) :
    Ends (okOr o e : EStateM ε σ α) s Q E := by
  cases o with
  | none => exact ends_throw (he rfl)
  | some a => exact ends_pure (h a rfl)

theorem ends_ite {c : Prop} [Decidable c] {x y : EStateM ε σ α}
    (hx : c → Ends x s Q E) (hy : ¬ c → Ends y s Q E) : Ends (if c then x else y) s Q E := by
  by_cases hc : c
  · rw [if_pos hc]; exact hx hc
  · rw [if_neg hc]; exact hy hc

/-- The outcome of any method, with what it leaves behind. -/
theorem ends_attempt_of {x : EStateM ε' σ α} {P : α → σ → Prop} {F : σ → Prop}
    {Q : Except ε' α → σ → Prop} (hx : Ends x s P F) (hok : ∀ a s', P a s' → Q (.ok a) s')
    (herror : ∀ e {s'}, F s' → Q (.error e) s') :
    Ends (attempt x : EStateM ε σ (Except ε' α)) s Q E := by
  unfold Ends at hx
  unfold Ends attempt
  cases hr : x s with
  | ok a s' => rw [hr] at hx; exact hok a s' hx
  | error e s' => rw [hr] at hx; exact herror e hx

theorem ends_of_atomic {x : EStateM ε σ α} (hx : Atomic x s Q) (he : E s) : Ends x s Q E := by
  unfold Atomic EStateM.run at hx
  unfold Ends
  cases hr : x s with
  | ok a s' => rw [hr] at hx; exact hx
  | error e s' => rw [hr] at hx; simp only [] at hx ⊢; rw [hx]; exact he

theorem Ends.mono {Q' : α → σ → Prop} {E' : σ → Prop} {x : EStateM ε σ α} (h : Ends x s Q E)
    (hq : ∀ a s', Q a s' → Q' a s') (he : ∀ s', E s' → E' s') : Ends x s Q' E' := by
  unfold Ends at h ⊢
  cases hx : x s with
  | ok a s' => rw [hx] at h; exact hq a s' h
  | error e s' => rw [hx] at h; exact he s' h

/-- A method that cannot fail does not. -/
theorem Ends.succeeds {x : EStateM ε σ α} (h : Ends x s Q fun _ => False) :
    ∃ a s', x s = .ok a s' ∧ Q a s' := by
  unfold Ends at h
  cases hx : x s with
  | ok a s' => rw [hx] at h; exact ⟨a, s', rfl, h⟩
  | error e s' => rw [hx] at h; exact h.elim

theorem Ends.and {Q' : α → σ → Prop} {E' : σ → Prop} {x : EStateM ε σ α} (h : Ends x s Q E)
    (h' : Ends x s Q' E') : Ends x s (fun a s' => Q a s' ∧ Q' a s') fun s' => E s' ∧ E' s' := by
  unfold Ends at *
  cases hx : x s with
  | ok a s' => rw [hx] at h h'; exact ⟨h, h'⟩
  | error e s' => rw [hx] at h h'; exact ⟨h, h'⟩

/-! ## Methods whose failure is final

  When nothing looks at the state after a failure, what matters of it is which error it was. -/

/-- What holds of the result and the state after success, and of the error after failure. -/
def Yields (x : EStateM ε σ α) (s : σ) (Q : α → σ → Prop) (F : ε → Prop) : Prop :=
  match x s with
  | .ok a s' => Q a s'
  | .error e _ => F e

section Yields
variable {F : ε → Prop}

theorem yields_pure {a : α} (h : Q a s) : Yields (pure a : EStateM ε σ α) s Q F := h

theorem yields_bind {x : EStateM ε σ α} {f : α → EStateM ε σ β} (hx : Yields x s Q F)
    (hf : ∀ a s', Q a s' → Yields (f a) s' R F) : Yields (x >>= f) s R F := by
  unfold Yields at hx
  cases hrun : x s with
  | ok a s' =>
    rw [hrun] at hx
    have hnext := hf a s' hx
    unfold Yields at hnext ⊢
    rw [bind_run_ok hrun]
    exact hnext
  | error e s' =>
    rw [hrun] at hx
    unfold Yields
    rw [bind_run_error hrun]
    exact hx

theorem yields_get_bind {f : σ → EStateM ε σ β} (h : Yields (f s) s R F) :
    Yields (get >>= f) s R F := h

theorem yields_set {s' : σ} {Q : PUnit → σ → Prop} (h : Q ⟨⟩ s') :
    Yields (set s' : EStateM ε σ PUnit) s Q F := h

theorem yields_set_bind {s' : σ} {f : PUnit → EStateM ε σ β} (h : Yields (f ⟨⟩) s' R F) :
    Yields (set s' >>= f) s R F := h

theorem yields_modify {g : σ → σ} {Q : PUnit → σ → Prop} (h : Q ⟨⟩ (g s)) :
    Yields (modify g : EStateM ε σ PUnit) s Q F := h

theorem yields_modify_bind {g : σ → σ} {f : PUnit → EStateM ε σ β} (h : Yields (f ⟨⟩) (g s) R F) :
    Yields (modify g >>= f) s R F := h

theorem yields_rejectIf_bind {c : Prop} [Decidable c] {e : ε} {f : Unit → EStateM ε σ β}
    (he : c → F e) (h : ¬ c → Yields (f ()) s R F) : Yields (rejectIf c e >>= f) s R F := by
  by_cases hc : c
  · rw [rejectIf, if_pos hc]
    exact he hc
  · rw [rejectIf, if_neg hc]
    exact h hc

theorem yields_okOr_bind {o : Option α} {e : ε} {f : α → EStateM ε σ β} (he : o = none → F e)
    (h : ∀ a, o = some a → Yields (f a) s R F) : Yields (okOr o e >>= f) s R F := by
  cases o with
  | none => exact he rfl
  | some a => exact h a rfl

theorem yields_ite {c : Prop} [Decidable c] {x y : EStateM ε σ α}
    (hx : c → Yields x s Q F) (hy : ¬ c → Yields y s Q F) : Yields (if c then x else y) s Q F := by
  by_cases hc : c
  · rw [if_pos hc]; exact hx hc
  · rw [if_neg hc]; exact hy hc

theorem yields_mapErr_bind {g : ε' → ε} {x : Except ε' α} {f : α → EStateM ε σ β}
    (he : ∀ e, x = .error e → F (g e)) (h : ∀ a, x = .ok a → Yields (f a) s R F) :
    Yields (mapErr g x >>= f) s R F := by
  cases x with
  | error e => exact he e rfl
  | ok a => exact h a rfl

theorem yields_zoom {τ : Type} {view : σ → τ} {put : τ → σ → σ} {x : EStateM ε τ α}
    (hx : Yields x (view s) (fun a t => Q a (put t s)) F) : Yields (zoom view put id x) s Q F := by
  unfold Yields zoom at *
  cases hr : x (view s) with
  | ok a t => rw [hr] at hx; exact hx
  | error e t => rw [hr] at hx; exact hx

theorem Yields.of_ok {x : EStateM ε σ α} {a : α} {s' : σ} (h : Yields x s Q F)
    (hx : x s = .ok a s') : Q a s' := by
  unfold Yields at h
  rw [hx] at h
  exact h

theorem Yields.mono {Q' : α → σ → Prop} {x : EStateM ε σ α} (h : Yields x s Q F)
    (hq : ∀ a s', Q a s' → Q' a s') : Yields x s Q' F := by
  unfold Yields at h ⊢
  cases hx : x s with
  | ok a s' => rw [hx] at h; exact hq a s' h
  | error e s' => rw [hx] at h; exact h

/-- Two facts about one run. -/
theorem Yields.and {Q' : α → σ → Prop} {x : EStateM ε σ α} {F' : ε → Prop} (h : Yields x s Q F)
    (h' : Yields x s Q' F') : Yields x s (fun a s' => Q a s' ∧ Q' a s') F := by
  unfold Yields at h h' ⊢
  cases hx : x s with
  | ok a s' => rw [hx] at h h'; exact ⟨h, h'⟩
  | error e s' => rw [hx] at h; exact h

/-- What a method ends with is its result. -/
theorem yields_result (x : EStateM ε σ α) (s : σ) :
    Yields x s (fun a s' => x s = .ok a s') fun _ => True := by
  unfold Yields
  split <;> trivial

end Yields

/-! ## Calls that cannot fail -/

/-- What holds after a call that has no failure. -/
def Runs (x : StateM σ α) (s : σ) (Q : α → σ → Prop) : Prop := Q (x s).1 (x s).2

theorem runs_pure {a : α} (h : Q a s) : Runs (pure a : StateM σ α) s Q := h

theorem runs_bind {x : StateM σ α} {f : α → StateM σ β} (hx : Runs x s Q)
    (hf : ∀ a s', Q a s' → Runs (f a) s' R) : Runs (x >>= f) s R :=
  hf _ _ hx

theorem runs_get_bind {f : σ → StateM σ β} (h : Runs (f s) s R) : Runs (get >>= f) s R := h

theorem runs_modify_bind {g : σ → σ} {f : PUnit → StateM σ β} (h : Runs (f ⟨⟩) (g s) R) :
    Runs (modify g >>= f) s R := h

theorem runs_ite {c : Prop} [Decidable c] {x y : StateM σ α} (hx : c → Runs x s Q)
    (hy : ¬ c → Runs y s Q) : Runs (if c then x else y) s Q := by
  by_cases hc : c
  · rw [if_pos hc]; exact hx hc
  · rw [if_neg hc]; exact hy hc

theorem Runs.mono {Q' : α → σ → Prop} {x : StateM σ α} (h : Runs x s Q)
    (hq : ∀ a s', Q a s' → Q' a s') : Runs x s Q' :=
  hq _ _ h

/-! ## Reached states -/

/-- **What every move preserves holds of every state reached.** -/
theorem reached_invariant {move : σ → σ → Prop} (Inv : σ → Prop)
    (hmove : ∀ {s s' : σ}, Inv s → move s s' → Inv s') {s' : σ} (hs : Inv s)
    (h : ReflTransGen move s s') : Inv s' := by
  induction h with
  | refl => exact hs
  | tail _ hstep ih => exact hmove ih hstep

end Triple
