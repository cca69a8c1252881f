/-
  The bounds that CPU capacities give (`Policy::from_capacities`).

  The code counts CPUs by capacity in a loop, in the order it meets them, and cuts each capacity at
  1024 first, so different capacities may fall into one tier.  Here that loop is compared with an
  order-free description of the machine:

  1. **Tiers are counts** (`Tallies`) — after any prefix of the CPUs there is one tier for each
     capacity met, with the number of times it was met.
  2. **Sorting forgets the order** — two lists with the same CPUs have the same sorted tiers.
  3. **The largest wide tier** — the search from the end finds the greatest capacity that two CPUs
     share; `IsWide` says so with sets, without tiers.

  The additions and multiplications are 32 bits wide; `checkedFromCapacities` fails where one
  leaves them, and never does.
-/
import Droidloom.Power.Floors

namespace Droidloom.Power

/-! ## The checked arithmetic -/

def checkedBaselineOf (tiers : List (Nat × Nat)) (ceiling : Nat) : Except Overflow Nat :=
  match tiers with
  | (little, _) :: _ :: _ =>
    if little < ceiling then do
      let raised ← add32 little (UTIL_MAX / 16)
      return min raised ceiling
    else .ok (ceiling / 2)
  | _ => .ok (ceiling / 2)

/-- `Policy.fromCapacities` with every 32-bit operation checked. -/
def Policy.checkedFromCapacities (capacities : List Nat) : Except Overflow Policy := do
  let tiers := tiersOf capacities
  let scaled ← mul32 (wideOf tiers) 4
  let ceiling := scaled / 5
  let baseline ← checkedBaselineOf tiers ceiling
  let sum ← add32 baseline ceiling
  return { baseline, interaction := sum / 2, ceiling }

namespace Controller

theorem checkedBaselineOf_eq {tiers : List (Nat × Nat)} {ceiling : Nat}
    (hceiling : ceiling ≤ UTIL_MAX) :
    checkedBaselineOf tiers ceiling = .ok (baselineOf tiers ceiling) := by
  match tiers with
  | [] => rfl
  | [_] => rfl
  | (little, _) :: _ :: _ =>
    simp only [checkedBaselineOf, baselineOf]
    by_cases hlittle : little < ceiling
    · rw [if_pos hlittle, if_pos hlittle, add32_ok (by unfold UTIL_MAX at *; omega)]
      rfl
    · rw [if_neg hlittle, if_neg hlittle]

/-- **Nothing overflows.** -/
theorem checkedFromCapacities_eq (capacities : List Nat) :
    Policy.checkedFromCapacities capacities = .ok (Policy.fromCapacities capacities) := by
  have hwide := wideOf_le (tiersOf_le capacities)
  have hbaseline := baselineOf_le (tiersOf capacities) (wideOf (tiersOf capacities) * 4 / 5)
  unfold UTIL_MAX at hwide
  have hscaled : mul32 (wideOf (tiersOf capacities)) 4 = .ok (wideOf (tiersOf capacities) * 4) :=
    if_pos (by omega)
  unfold Policy.checkedFromCapacities
  simp only [hscaled, bind, Except.bind]
  rw [checkedBaselineOf_eq (by unfold UTIL_MAX; omega)]
  simp only [add32_ok (show baselineOf (tiersOf capacities) (wideOf (tiersOf capacities) * 4 / 5) +
    wideOf (tiersOf capacities) * 4 / 5 < 2 ^ 32 by omega)]
  rfl

/-! ## Tiers are counts -/

/-- One tier for each capacity met, with the number of times it was met. -/
structure Tallies (met : List Nat) (tiers : List (Nat × Nat)) : Prop where
  nodup : (tiers.map Prod.fst).Nodup
  mem : ∀ capacity count,
    (capacity, count) ∈ tiers ↔ capacity ∈ met ∧ count = met.count capacity

theorem Tallies.nil : Tallies [] [] := ⟨List.nodup_nil, by simp⟩

theorem Tallies.mem_fst {met : List Nat} {tiers : List (Nat × Nat)} (h : Tallies met tiers)
    {capacity : Nat} : capacity ∈ tiers.map Prod.fst ↔ capacity ∈ met := by
  constructor
  · intro hmem
    obtain ⟨⟨_, count⟩, htier, rfl⟩ := List.mem_map.1 hmem
    exact ((h.mem _ count).1 htier).1
  · intro hmem
    exact List.mem_map.2 ⟨(capacity, met.count capacity), (h.mem _ _).2 ⟨hmem, rfl⟩, rfl⟩

/-- A CPU more, in a tier that is there. -/
theorem Tallies.count_more {met : List Nat} {tiers : List (Nat × Nat)} (h : Tallies met tiers)
    {capacity : Nat} (hmet : capacity ∈ met) :
    Tallies (met ++ [capacity])
      (tiers.map fun tier => if tier.1 = capacity then (tier.1, tier.2 + 1) else tier) where
  nodup := by
    have hfst : (tiers.map fun tier => if tier.1 = capacity then (tier.1, tier.2 + 1) else tier).map
        Prod.fst = tiers.map Prod.fst := by
      rw [List.map_map]
      refine List.map_congr_left fun tier _ => ?_
      show (if tier.1 = capacity then (tier.1, tier.2 + 1) else tier).1 = tier.1
      split <;> rfl
    rw [hfst]
    exact h.nodup
  mem := by
    intro other count
    rw [List.mem_map, List.count_append, List.count_singleton]
    constructor
    · rintro ⟨⟨first, n⟩, htier, heq⟩
      obtain ⟨hfirst, rfl⟩ := (h.mem first n).1 htier
      by_cases hsame : first = capacity
      · rw [if_pos hsame] at heq
        cases heq
        simp [hsame]
      · rw [if_neg hsame] at heq
        cases heq
        simp [hfirst, Ne.symm hsame]
    · rintro ⟨hother, rfl⟩
      have hother : other ∈ met := by
        rcases List.mem_append.1 hother with hold | hnew
        · exact hold
        · rw [List.mem_singleton.1 hnew]
          exact hmet
      refine ⟨(other, met.count other), (h.mem _ _).2 ⟨hother, rfl⟩, ?_⟩
      by_cases hsame : other = capacity
      · simp [hsame]
      · simp [hsame, Ne.symm hsame]

/-- The first CPU of a tier. -/
theorem Tallies.count_first {met : List Nat} {tiers : List (Nat × Nat)} (h : Tallies met tiers)
    {capacity : Nat} (hmet : capacity ∉ met) :
    Tallies (met ++ [capacity]) (tiers ++ [(capacity, 1)]) where
  nodup := by
    rw [List.map_append]
    refine List.Nodup.append h.nodup (by simp) ?_
    intro other hother hlast
    have hlast : other = capacity := by simpa using hlast
    exact hmet (hlast ▸ h.mem_fst.1 hother)
  mem := by
    intro other count
    have hzero := List.count_eq_zero_of_not_mem hmet
    rw [List.mem_append, h.mem, List.count_append, List.count_singleton]
    by_cases hsame : other = capacity
    · subst hsame
      simp [hmet, hzero]
    · simp [hsame, Ne.symm hsame]

theorem Tallies.countTier {met : List Nat} {tiers : List (Nat × Nat)} (h : Tallies met tiers)
    (capacity : Nat) : Tallies (met ++ [capacity]) (countTier tiers capacity) := by
  have hany : tiers.any (·.1 = capacity) = true ↔ capacity ∈ met := by
    rw [← h.mem_fst, List.any_eq_true, List.mem_map]
    simp
  unfold Power.countTier
  by_cases hmet : capacity ∈ met
  · rw [if_pos (hany.2 hmet)]
    exact h.count_more hmet
  · rw [if_neg (mt hany.1 hmet)]
    exact h.count_first hmet

/-- The loop over the CPUs. -/
theorem tallies_foldl (capacities : List Nat) :
    Tallies capacities (capacities.foldl Power.countTier []) := by
  induction capacities using List.reverseRecOn with
  | nil => exact .nil
  | append_singleton before last ih =>
    rw [List.foldl_append]
    exact ih.countTier last

end Controller

/-! ## Sorted tiers -/

/-- The capacities that count, each cut at the highest utilization. -/
def capped (capacities : List Nat) : List Nat :=
  (capacities.filter (0 < ·)).map (min · UTIL_MAX)

namespace Controller

theorem tallies_tiersOf (capacities : List Nat) :
    Tallies (capped capacities) (tiersOf capacities) := by
  have h := tallies_foldl (capped capacities)
  have hperm : (tiersOf capacities).Perm ((capped capacities).foldl Power.countTier []) :=
    List.perm_insertionSort _ _
  exact ⟨(hperm.map Prod.fst).nodup_iff.2 h.nodup, fun capacity count =>
    hperm.mem_iff.trans (h.mem capacity count)⟩

theorem tiersOf_sorted (capacities : List Nat) :
    (tiersOf capacities).Pairwise fun a b => a.1 ≤ b.1 := by
  have : Std.Total fun a b : Nat × Nat => a.1 ≤ b.1 := ⟨fun a b => Nat.le_total a.1 b.1⟩
  have : IsTrans (Nat × Nat) fun a b => a.1 ≤ b.1 := ⟨fun _ _ _ => Nat.le_trans⟩
  exact List.pairwise_insertionSort _ _

/-- **The order of the CPUs does not matter, nor do those without a capacity.** -/
theorem tiersOf_congr {capacities capacities' : List Nat}
    (h : (capacities.filter (0 < ·)).Perm (capacities'.filter (0 < ·))) :
    tiersOf capacities = tiersOf capacities' := by
  have hcapped : (capped capacities).Perm (capped capacities') := h.map _
  have htallies := tallies_tiersOf capacities
  have htallies' := tallies_tiersOf capacities'
  have hmem : ∀ tier, tier ∈ tiersOf capacities ↔ tier ∈ tiersOf capacities' := by
    rintro ⟨capacity, count⟩
    rw [htallies.mem, htallies'.mem, hcapped.mem_iff, hcapped.count_eq]
  have hperm := (List.perm_ext_iff_of_nodup (List.Nodup.of_map _ htallies.nodup)
    (List.Nodup.of_map _ htallies'.nodup)).2 hmem
  refine List.Perm.eq_of_pairwise ?_ (tiersOf_sorted _) (tiersOf_sorted _) hperm
  -- two tiers of one capacity have one count
  rintro ⟨a, m⟩ ⟨b, n⟩ ha hb hab hba
  have hsame : a = b := Nat.le_antisymm hab hba
  subst hsame
  rw [((htallies.mem a m).1 ha).2, ((htallies.mem a n).1 ((hmem _).2 hb)).2]

end Controller

/-! ## The widest tier -/

/-- The capacity that sets the ceiling: the largest one that two CPUs share, the largest one where
    none is shared, the highest utilization where there is none. -/
inductive IsWide (capacities : List Nat) : Nat → Prop
  | shared {wide : Nat} (h : IsGreatest { c | 2 ≤ (capped capacities).count c } wide) :
      IsWide capacities wide
  | single {wide : Nat} (hnone : ∀ c, ¬ 2 ≤ (capped capacities).count c)
      (h : IsGreatest { c | c ∈ capped capacities } wide) : IsWide capacities wide
  | none (h : capped capacities = []) : IsWide capacities UTIL_MAX

namespace Controller

/-- A search from the end of a sorted list finds the greatest. -/
theorem le_of_find?_reverse {tiers : List (Nat × Nat)} {p : Nat × Nat → Bool} {found : Nat × Nat}
    (hsorted : tiers.Pairwise fun a b => a.1 ≤ b.1) (hfound : tiers.reverse.find? p = some found) :
    ∀ tier ∈ tiers, p tier = true → tier.1 ≤ found.1 := by
  obtain ⟨-, after, before, hsplit, hafter⟩ := List.find?_eq_some_iff_append.1 hfound
  have hreverse : (after ++ found :: before).Pairwise fun a b => b.1 ≤ a.1 := by
    rw [← hsplit]
    exact List.pairwise_reverse.2 hsorted
  intro tier htier hp
  have hmem : tier ∈ after ++ found :: before := hsplit ▸ List.mem_reverse.2 htier
  rcases List.mem_append.1 hmem with hlater | hrest
  · have hnot := hafter tier hlater
    rw [hp] at hnot
    cases hnot
  · rcases List.mem_cons.1 hrest with rfl | hearlier
    · exact le_rfl
    · exact (List.pairwise_cons.1 (List.pairwise_append.1 hreverse).2.1).1 tier hearlier

theorem le_of_getLast? {tiers : List (Nat × Nat)} {last : Nat × Nat}
    (hsorted : tiers.Pairwise fun a b => a.1 ≤ b.1) (hlast : tiers.getLast? = some last) :
    ∀ tier ∈ tiers, tier.1 ≤ last.1 := by
  obtain ⟨before, rfl⟩ := List.getLast?_eq_some_iff.1 hlast
  intro tier htier
  rcases List.mem_append.1 htier with hbefore | hsame
  · exact (List.pairwise_append.1 hsorted).2.2 tier hbefore last (List.mem_singleton.2 rfl)
  · rw [List.mem_singleton.1 hsame]

theorem isWide_wideOf (capacities : List Nat) :
    IsWide capacities (wideOf (tiersOf capacities)) := by
  have htallies := tallies_tiersOf capacities
  have hsorted := tiersOf_sorted capacities
  -- the tier of a capacity that is there
  have htier : ∀ {c}, c ∈ capped capacities →
      (c, (capped capacities).count c) ∈ tiersOf capacities := fun hc =>
    (htallies.mem _ _).2 ⟨hc, rfl⟩
  have hpos : ∀ {c}, 2 ≤ (capped capacities).count c → c ∈ capped capacities := fun hc =>
    List.count_pos_iff.1 (by omega)
  unfold wideOf
  cases hfound : (tiersOf capacities).reverse.find? (2 ≤ ·.2) with
  | some found =>
    have hmem : found ∈ tiersOf capacities :=
      List.mem_reverse.1 (List.mem_of_find?_eq_some hfound)
    have hcount := List.find?_some hfound
    obtain ⟨-, hn⟩ := (htallies.mem found.1 found.2).1 hmem
    refine .shared ⟨?_, fun c hc => ?_⟩
    · show 2 ≤ (capped capacities).count found.1
      rw [← hn]
      exact of_decide_eq_true hcount
    · exact le_of_find?_reverse hsorted hfound _ (htier (hpos hc)) (decide_eq_true hc)
  | none =>
    have hnone : ∀ c, ¬ 2 ≤ (capped capacities).count c := by
      intro c hc
      have hall := List.find?_eq_none.1 hfound _ (List.mem_reverse.2 (htier (hpos hc)))
      exact hall (decide_eq_true hc)
    cases hlast : (tiersOf capacities).getLast? with
    | some last =>
      have hmem := List.mem_of_getLast? hlast
      refine .single hnone ⟨((htallies.mem last.1 last.2).1 hmem).1, fun c hc => ?_⟩
      exact le_of_getLast? hsorted hlast _ (htier hc)
    | none =>
      refine .none (List.eq_nil_iff_forall_not_mem.2 fun c hc => ?_)
      have hempty := List.getLast?_eq_none_iff.1 hlast
      have hmem := htier hc
      rw [hempty] at hmem
      cases hmem

/-! ## The smallest tier -/

/-- With two tiers, the first of the sorted ones is the smallest, and the baseline is above it. -/
theorem lt_baselineOf {capacities : List Nat} {little other ceiling : Nat}
    (hlittle : IsLeast { c | c ∈ capped capacities } little) (hother : other ∈ capped capacities)
    (hne : other ≠ little) (hlt : little < ceiling) :
    little < baselineOf (tiersOf capacities) ceiling := by
  have htallies := tallies_tiersOf capacities
  have hsorted := tiersOf_sorted capacities
  obtain ⟨hmem, hleast⟩ := hlittle
  have hfirst := (htallies.mem little _).2 ⟨hmem, rfl⟩
  have hsecond := (htallies.mem other _).2 ⟨hother, rfl⟩
  match htiers : tiersOf capacities with
  | [] =>
    rw [htiers] at hfirst
    cases hfirst
  | [tier] =>
    rw [htiers, List.mem_singleton] at hfirst hsecond
    rw [← hfirst] at hsecond
    cases hsecond
    exact absurd rfl hne
  | (first, n) :: second :: rest =>
    have hin : first ∈ capped capacities :=
      ((htallies.mem first n).1 (htiers ▸ List.mem_cons_self)).1
    have hle : first ≤ little := by
      rw [htiers] at hsorted hfirst
      rcases List.mem_cons.1 hfirst with hsame | hlater
      · cases hsame
        exact le_rfl
      · exact (List.pairwise_cons.1 hsorted).1 _ hlater
    have heq : first = little := Nat.le_antisymm hle (hleast hin)
    subst heq
    show first < if first < ceiling then min (first + UTIL_MAX / 16) ceiling else ceiling / 2
    rw [if_pos hlt]
    exact lt_min (by unfold UTIL_MAX; omega) hlt

end Controller

open Controller in
/-- **The bounds of a machine.**  For every list of capacities: no 32-bit operation overflows; the
    bounds are in order and at most 819; the order of the list and its zeros do not matter; the
    ceiling is four fifths of the widest capacity; and where there are two different capacities and
    the smallest is below the ceiling, the baseline is above the smallest. -/
theorem capacities_give_bounds (capacities : List Nat) :
    Policy.checkedFromCapacities capacities = .ok (Policy.fromCapacities capacities) ∧
    (Policy.fromCapacities capacities).baseline ≤ (Policy.fromCapacities capacities).interaction ∧
    (Policy.fromCapacities capacities).interaction ≤ (Policy.fromCapacities capacities).ceiling ∧
    (Policy.fromCapacities capacities).ceiling ≤ 819 ∧
    (∀ capacities' : List Nat,
      (capacities'.filter (0 < ·)).Perm (capacities.filter (0 < ·)) →
        Policy.fromCapacities capacities' = Policy.fromCapacities capacities) ∧
    (∃ wide, IsWide capacities wide ∧
      (Policy.fromCapacities capacities).ceiling = wide * 4 / 5) ∧
    ∀ little other, IsLeast { c | c ∈ capped capacities } little → other ∈ capped capacities →
      other ≠ little → little < (Policy.fromCapacities capacities).ceiling →
        little < (Policy.fromCapacities capacities).baseline := by
  set policy := Policy.fromCapacities capacities
  have hwide := wideOf_le (tiersOf_le capacities)
  have hbaseline : policy.baseline ≤ policy.ceiling := (fromCapacities_ordered capacities).1
  refine ⟨checkedFromCapacities_eq capacities, ?_, ?_, ?_, fun capacities' hperm => ?_, ?_, ?_⟩
  · show policy.baseline ≤ (policy.baseline + policy.ceiling) / 2
    omega
  · exact (fromCapacities_ordered capacities).2.1
  · show wideOf (tiersOf capacities) * 4 / 5 ≤ 819
    unfold UTIL_MAX at hwide
    omega
  · show Policy.fromCapacities capacities' = Policy.fromCapacities capacities
    unfold Policy.fromCapacities
    rw [tiersOf_congr hperm]
  · exact ⟨_, isWide_wideOf capacities, rfl⟩
  · intro little other hlittle hother hne hlt
    exact lt_baselineOf hlittle hother hne hlt

/-- Four little, two big and one prime CPU: the prime CPU sets no bound. -/
example : Policy.fromCapacities [1024, 364, 364, 829, 364, 829, 364] = ⟨428, 545, 663⟩ := by
  decide +kernel

end Droidloom.Power
