/-
  Removal from a vector in constant time: the last element takes the place of the removed one.

  As a multiset nothing but the removed element is lost (`swapRemove_perm`), and the elements before
  it stay where they are (`take_swapRemove`), so a loop that removes elements while it walks over
  the vector looks at every element once.
-/
import Mathlib

namespace SwapRemove

variable {α β : Type} {l : List α} {index : Nat} {a : α}

/-- `Vec::swap_remove`. -/
def swapRemove (l : List α) (index : Nat) : List α :=
  match l.getLast? with
  | some last => (l.set index last).dropLast
  | none => []

theorem swapRemove_last (front : List α) (a : α) :
    swapRemove (front ++ [a]) front.length = front := by
  simp [swapRemove]

theorem swapRemove_inner (front back : List α) (a last : α) :
    swapRemove (front ++ a :: (back ++ [last])) front.length = front ++ last :: back := by
  have hlast : (front ++ a :: (back ++ [last])).getLast? = some last := by
    rw [← List.cons_append, ← List.append_assoc, List.getLast?_concat]
  unfold swapRemove
  rw [hlast]
  simp only [List.set_append_right _ _ (Nat.le_refl _), Nat.sub_self, List.set_cons_zero]
  rw [← List.cons_append, ← List.append_assoc, List.dropLast_concat]

/-- **Nothing but the removed element is lost.** -/
theorem swapRemove_perm (h : l[index]? = some a) : (a :: swapRemove l index).Perm l := by
  obtain ⟨hlt, rfl⟩ := List.getElem?_eq_some_iff.mp h
  obtain ⟨front, back, hl, hlen⟩ : ∃ front back, l = front ++ l[index] :: back ∧
      front.length = index :=
    ⟨l.take index, l.drop (index + 1), by simp, by rw [List.length_take]; omega⟩
  generalize l[index] = a at hl
  subst hl hlen
  rcases List.eq_nil_or_concat' back with rfl | ⟨back, last, rfl⟩
  · rw [swapRemove_last]
    exact (List.perm_append_singleton a front).symm
  · rw [swapRemove_inner]
    have hswap : (last :: back).Perm (back ++ [last]) := (List.perm_append_singleton last back).symm
    exact List.perm_middle.symm.trans ((hswap.cons a).append_left front)

theorem length_swapRemove (h : l[index]? = some a) : (swapRemove l index).length + 1 = l.length := by
  rw [← (swapRemove_perm h).length_eq, List.length_cons]

/-- The elements before the removed one stay where they are. -/
theorem take_swapRemove (h : index < l.length) : (swapRemove l index).take index = l.take index := by
  unfold swapRemove
  cases hget : l.getLast? with
  | none =>
    rw [List.getLast?_eq_none_iff] at hget
    subst hget
    cases h
  | some last =>
    simp only [List.dropLast_eq_take, List.length_set, List.take_take]
    rw [Nat.min_eq_left (by omega)]
    exact List.take_set_of_le (Nat.le_refl _)

theorem map_swapRemove (f : α → β) (l : List α) (index : Nat) :
    (swapRemove l index).map f = swapRemove (l.map f) index := by
  unfold swapRemove
  rw [List.getLast?_map]
  cases l.getLast? with
  | none => rfl
  | some last => simp [List.map_dropLast, List.map_set]

/-- Where the elements are told apart by a key, the others are those with another key. -/
theorem mem_swapRemove {key : α → β} (hnodup : (l.map key).Nodup) (h : l[index]? = some a) {b : α} :
    b ∈ swapRemove l index ↔ b ∈ l ∧ key b ≠ key a := by
  have hperm := swapRemove_perm h
  have hkeys : (key a :: (swapRemove l index).map key).Nodup := (hperm.map key).nodup_iff.mpr hnodup
  rw [← hperm.mem_iff, List.mem_cons]
  constructor
  · intro hb
    refine ⟨.inr hb, fun heq => ?_⟩
    exact (List.nodup_cons.mp hkeys).1 (heq ▸ List.mem_map_of_mem hb)
  · rintro ⟨rfl | hb, hne⟩
    · exact absurd rfl hne
    · exact hb

theorem nodup_swapRemove {key : α → β} (hnodup : (l.map key).Nodup) (h : l[index]? = some a) :
    ((swapRemove l index).map key).Nodup :=
  (List.nodup_cons.mp (((swapRemove_perm h).map key).nodup_iff.mpr hnodup)).2

end SwapRemove
