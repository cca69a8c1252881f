/-
  The points of a periodic clock: all times congruent to a phase modulo a period.

  `IsNext p a now t` says that `t` is the first such time after `now`.  It is the one point within a
  period of `now` (`isNext_iff`), whole periods away from any point up to `now` (`isNext_of_le`).
-/
import Mathlib

namespace TimeGrid

variable {p a now now' t u : Nat}

/-- `t` is the first time after `now` that is congruent to `a` modulo `p`. -/
def IsNext (p a now t : Nat) : Prop := IsLeast {u | u ≡ a [MOD p] ∧ now < u} t

/-- Two points of a grid are equal or at least a period apart. -/
theorem add_le_of_lt (ht : t ≡ a [MOD p]) (hu : u ≡ a [MOD p]) (h : t < u) : t + p ≤ u := by
  have hdvd : p ∣ u - t := (Nat.modEq_iff_dvd' h.le).mp (ht.trans hu.symm)
  have := Nat.le_of_dvd (by omega) hdvd
  omega

/-- The next point is the one within a period. -/
theorem isNext_iff (hp : 0 < p) :
    IsNext p a now t ↔ t ≡ a [MOD p] ∧ now < t ∧ t ≤ now + p := by
  constructor
  · rintro ⟨⟨hgrid, hlater⟩, hleast⟩
    refine ⟨hgrid, hlater, ?_⟩
    -- Otherwise the point a period earlier is still after `now`.
    by_contra hfar
    have hback : t - p ≡ a [MOD p] := by
      have : t - p + p ≡ a [MOD p] := by rwa [Nat.sub_add_cancel (by omega)]
      exact (Nat.add_modEq_right).symm.trans this
    have := hleast ⟨hback, by omega⟩
    omega
  · rintro ⟨hgrid, hlater, hnear⟩
    refine ⟨⟨hgrid, hlater⟩, ?_⟩
    rintro u ⟨hu, hnow⟩
    by_contra hless
    have := add_le_of_lt hu hgrid (by omega)
    omega

/-- From a point at or before `now`, the next one is whole periods away. -/
theorem isNext_of_le (hp : 0 < p) (hle : t ≤ now) :
    IsNext p t now (t + ((now - t) / p + 1) * p) := by
  have hmod := Nat.mod_lt (now - t) hp
  have hdiv := Nat.div_add_mod (now - t) p
  have hmul : ((now - t) / p + 1) * p = p * ((now - t) / p) + p := by ring
  rw [isNext_iff hp, hmul]
  refine ⟨?_, by omega, by omega⟩
  rw [← hmul]
  exact Nat.add_mul_modulus_modEq_iff.mpr rfl

end TimeGrid
