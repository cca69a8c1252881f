/-
  GPU time per client and engine (`droidloom-frame-timing`: `gpu::summarize`).

  Counters may fall back, clients may vanish and return, and capacities may change.  A high-water
  mark for every client and engine makes the busy times telescope: whatever rows they are spread
  over, they sum to no more than the counter rose (`usage_not_overcounted`).
-/
import Mathlib

namespace Droidloom.Timing

structure ClientKey where
  driver : String
  device : Option String
  clientId : UInt64
deriving DecidableEq, Repr

structure Process where
  pid : UInt32
  label : String
  startTicks : UInt64
deriving DecidableEq, Repr

/-- What the summary reads of a client. -/
structure Client where
  key : ClientKey
  owners : Finset Process
  engineNs : Std.ExtTreeMap String UInt64 compare
  capacity : Std.ExtTreeMap String UInt64 compare

structure Snapshot where
  elapsedNs : UInt64
  clients : List Client

/-- One row, without its percentage. -/
structure EngineUsage where
  client : ClientKey
  owners : Finset Process := ∅
  engine : String
  capacity : UInt64
  busyNs : Nat := 0
  coveredNs : Nat := 0
  intervals : Nat := 0
  regressions : Nat := 0
  discontinuities : Nat := 0

/-- The high-water mark, the time, the sample and the capacity of a client's engine. -/
structure Seen where
  high : Nat
  time : Nat
  index : Nat
  capacity : UInt64

/-- An engine of a client in a sample: what the inner loop is about. -/
structure Observation where
  index : Nat
  time : Nat
  client : ClientKey
  owners : Finset Process
  engine : String
  counter : Nat
  capacity : UInt64

/-- The rows in the order of their first sight, and the map `previous`. -/
structure Summary where
  rows : List EngineUsage := []
  previous : ClientKey × String → Option Seen := fun _ => none

/-- `entry(..).or_insert_with(..)` and the changes to the entry. -/
def upsert {α : Type} (p : α → Bool) (fresh : α) (change : α → α) : List α → List α
  | [] => [change fresh]
  | row :: rows => if p row then change row :: rows else row :: upsert p fresh change rows

def Matches (o : Observation) (row : EngineUsage) : Prop :=
  row.client = o.client ∧ row.engine = o.engine ∧ row.capacity = o.capacity

instance (o : Observation) (row : EngineUsage) : Decidable (Matches o row) :=
  inferInstanceAs (Decidable (_ ∧ _))

/-- The interval since the mark is counted. -/
def Counted (seen : Seen) (o : Observation) : Prop :=
  seen.index + 1 = o.index ∧ seen.capacity = o.capacity ∧ seen.time < o.time

instance (seen : Seen) (o : Observation) : Decidable (Counted seen o) :=
  inferInstanceAs (Decidable (_ ∧ _))

def EngineUsage.add (row : EngineUsage) (seen : Seen) (o : Observation) : EngineUsage :=
  let row := { row with owners := row.owners ∪ o.owners }
  if seen.index = o.index then row
  else if Counted seen o then
    { row with
      busyNs := row.busyNs + (o.counter - seen.high)
      coveredNs := row.coveredNs + (o.time - seen.time)
      intervals := row.intervals + 1
      regressions := row.regressions + if o.counter < seen.high then 1 else 0 }
  else { row with discontinuities := row.discontinuities + 1 }

def Observation.key (o : Observation) : ClientKey × String := (o.client, o.engine)

/-- The mark that an observation is compared with: its own, if it is the first. -/
def Summary.seen (s : Summary) (o : Observation) : Seen :=
  (s.previous o.key).getD ⟨o.counter, o.time, o.index, o.capacity⟩

def observe (s : Summary) (o : Observation) : Summary where
  rows := upsert (fun row => Matches o row)
    { client := o.client, engine := o.engine, capacity := o.capacity }
    (fun row => row.add (s.seen o) o) s.rows
  previous := Function.update s.previous o.key (some
    (if (s.seen o).index = o.index then s.seen o
      else ⟨max o.counter (s.seen o).high, o.time, o.index, o.capacity⟩))

def Client.observations (client : Client) (index time : Nat) : List Observation :=
  client.engineNs.toList.map fun (engine, counter) =>
    { index, time, client := client.key, owners := client.owners, engine
      counter := counter.toNat, capacity := client.capacity.getD engine 1 }

def Snapshot.observations (sample : Snapshot) (index : Nat) : List Observation :=
  sample.clients.flatMap (·.observations index sample.elapsedNs.toNat)

def observationsFrom (index : Nat) : List Snapshot → List Observation
  | [] => []
  | sample :: samples => sample.observations index ++ observationsFrom (index + 1) samples

def observations (samples : List Snapshot) : List Observation := observationsFrom 0 samples

def summarize (samples : List Snapshot) : List EngineUsage :=
  ((observations samples).foldl observe {}).rows

/-! ## Rows of one key -/

/-- A figure of the rows, summed over the capacities of a client's engine. -/
def total (key : ClientKey × String) (figure : EngineUsage → Nat) (rows : List EngineUsage) : Nat :=
  (rows.map fun row => if (row.client, row.engine) = key then figure row else 0).sum

theorem sum_upsert {α : Type} {p : α → Bool} {fresh : α} {change : α → α} {g : α → Nat} {gain : Nat}
    (hfresh : g (change fresh) = gain) (hchange : ∀ row, p row → g (change row) = g row + gain)
    (rows : List α) : ((upsert p fresh change rows).map g).sum = (rows.map g).sum + gain := by
  induction rows with
  | nil => simp [upsert, hfresh]
  | cons row rows ih =>
    unfold upsert
    split
    · rename_i hp
      rw [List.map_cons, List.sum_cons, List.map_cons, List.sum_cons, hchange row hp]
      omega
    · rw [List.map_cons, List.sum_cons, ih, List.map_cons, List.sum_cons]
      omega

theorem add_key (row : EngineUsage) (seen : Seen) (o : Observation) :
    (row.add seen o).client = row.client ∧ (row.add seen o).engine = row.engine ∧
      (row.add seen o).capacity = row.capacity := by
  unfold EngineUsage.add
  split
  · exact ⟨rfl, rfl, rfl⟩
  · split <;> exact ⟨rfl, rfl, rfl⟩

/-- An observation adds the same to whatever row it is added to. -/
theorem total_observe {figure : EngineUsage → Nat} {s : Summary} {o : Observation} {gain : Nat}
    (hfresh : figure { client := o.client, engine := o.engine, capacity := o.capacity } = 0)
    (hgain : ∀ row, Matches o row → figure (row.add (s.seen o) o) = figure row + gain)
    (key : ClientKey × String) :
    total key figure (observe s o).rows =
      total key figure s.rows + if o.key = key then gain else 0 := by
  have hmeasure : ∀ row, Matches o row →
      (if ((row.add (s.seen o) o).client, (row.add (s.seen o) o).engine) = key then
        figure (row.add (s.seen o) o) else 0) =
      (if (row.client, row.engine) = key then figure row else 0) +
        if o.key = key then gain else 0 := by
    intro row hrow
    have hkey : (row.client, row.engine) = o.key := by rw [hrow.1, hrow.2.1]; rfl
    rw [(add_key row _ o).1, (add_key row _ o).2.1, hgain row hrow, hkey]
    split <;> rfl
  refine sum_upsert ?_ (fun row hrow => hmeasure row (of_decide_eq_true hrow)) s.rows
  rw [hmeasure _ ⟨rfl, rfl, rfl⟩, hfresh, ite_self, Nat.zero_add]

/-- Consecutive elements that are related. -/
def countPairs {α : Type} (R : α → α → Bool) : List α → Nat
  | a :: b :: rest => (if R a b then 1 else 0) + countPairs R (b :: rest)
  | _ => 0

theorem countPairs_concat {α : Type} {R : α → α → Bool} (l : List α) (a b : α) :
    countPairs R (l ++ [a] ++ [b]) = countPairs R (l ++ [a]) + if R a b then 1 else 0 := by
  induction l with
  | nil => simp [countPairs]
  | cons x l ih =>
    cases l with
    | nil => simp [countPairs]
    | cons y l =>
      simp only [List.cons_append, countPairs] at ih ⊢
      omega

/-- Two readings of consecutive samples at this capacity. -/
def Consecutive (capacity : UInt64) (a b : Observation) : Bool :=
  a.index + 1 = b.index && a.capacity = capacity && b.capacity = capacity

def highest (readings : List Observation) : Nat := (readings.map (·.counter)).foldl max 0

theorem highest_concat (readings : List Observation) (o : Observation) :
    highest (readings ++ [o]) = max (highest readings) o.counter := by
  simp [highest]

def Later (a b : Observation) : Prop := a.index < b.index ∧ a.time < b.time

/-- **What the summary knows of a key** after these readings of it. -/
structure Tracked (key : ClientKey × String) (s : Summary) (readings : List Observation) :
    Prop where
  seen : s.previous key = readings.getLast?.map fun last =>
    ⟨highest readings, last.time, last.index, last.capacity⟩
  busy : total key (·.busyNs) s.rows + (readings.head?.map (·.counter)).getD 0 ≤ highest readings
  covered : total key (·.coveredNs) s.rows + (readings.head?.map (·.time)).getD 0 ≤
    (readings.getLast?.map (·.time)).getD 0
  intervals : ∀ capacity,
    total key (fun row => if row.capacity = capacity then row.intervals else 0) s.rows =
      countPairs (Consecutive capacity) readings
  counts : total key (fun row => row.intervals + row.discontinuities) s.rows ≤ readings.length
  regressions : total key (·.regressions) s.rows ≤ readings.length

section Step
variable {key : ClientKey × String} {s : Summary} {readings : List Observation} {o : Observation}

theorem busy_gain (row : EngineUsage) (seen : Seen) (o : Observation) :
    (row.add seen o).busyNs =
      row.busyNs + if Counted seen o ∧ seen.index ≠ o.index then o.counter - seen.high else 0 := by
  unfold EngineUsage.add
  grind

theorem covered_gain (row : EngineUsage) (seen : Seen) (o : Observation) :
    (row.add seen o).coveredNs =
      row.coveredNs + if Counted seen o ∧ seen.index ≠ o.index then o.time - seen.time else 0 := by
  unfold EngineUsage.add
  grind

theorem intervals_gain (capacity : UInt64) {row : EngineUsage} (seen : Seen) {o : Observation}
    (h : Matches o row) :
    (if (row.add seen o).capacity = capacity then (row.add seen o).intervals else 0) =
      (if row.capacity = capacity then row.intervals else 0) +
        if (Counted seen o ∧ seen.index ≠ o.index) ∧ o.capacity = capacity then 1 else 0 := by
  rw [(add_key row seen o).2.2, h.2.2]
  unfold EngineUsage.add
  grind

theorem counts_gain (row : EngineUsage) (seen : Seen) (o : Observation) :
    (row.add seen o).intervals + (row.add seen o).discontinuities =
      row.intervals + row.discontinuities + if seen.index = o.index then 0 else 1 := by
  unfold EngineUsage.add
  grind

theorem regressions_gain (row : EngineUsage) (seen : Seen) (o : Observation) :
    (row.add seen o).regressions = row.regressions +
      if (Counted seen o ∧ seen.index ≠ o.index) ∧ o.counter < seen.high then 1 else 0 := by
  unfold EngineUsage.add
  grind

/-- The five totals after an observation. -/
theorem totals_observe (key : ClientKey × String) (s : Summary) (o : Observation) :
    (total key (·.busyNs) (observe s o).rows = total key (·.busyNs) s.rows +
      if o.key = key then
        if Counted (s.seen o) o ∧ (s.seen o).index ≠ o.index then o.counter - (s.seen o).high else 0
      else 0) ∧
    (total key (·.coveredNs) (observe s o).rows = total key (·.coveredNs) s.rows +
      if o.key = key then
        if Counted (s.seen o) o ∧ (s.seen o).index ≠ o.index then o.time - (s.seen o).time else 0
      else 0) ∧
    (∀ capacity, total key (fun row => if row.capacity = capacity then row.intervals else 0)
        (observe s o).rows =
      total key (fun row => if row.capacity = capacity then row.intervals else 0) s.rows +
      if o.key = key then
        if (Counted (s.seen o) o ∧ (s.seen o).index ≠ o.index) ∧ o.capacity = capacity then 1 else 0
      else 0) ∧
    (total key (fun row => row.intervals + row.discontinuities) (observe s o).rows ≤
      total key (fun row => row.intervals + row.discontinuities) s.rows +
        if o.key = key then 1 else 0) ∧
    total key (·.regressions) (observe s o).rows ≤
      total key (·.regressions) s.rows + if o.key = key then 1 else 0 := by
  refine ⟨total_observe rfl (fun row _ => busy_gain row _ o) key,
    total_observe rfl (fun row _ => covered_gain row _ o) key,
    fun capacity => total_observe (ite_self _) (fun row hrow => intervals_gain capacity _ hrow) key,
    ?_, ?_⟩
  · rw [total_observe rfl (fun row _ => counts_gain row _ o) key]
    grind
  · rw [total_observe rfl (fun row _ => regressions_gain row _ o) key]
    grind

theorem Tracked.other (h : Tracked key s readings) (hne : o.key ≠ key) :
    Tracked key (observe s o) readings := by
  obtain ⟨hbusy, hcovered, hintervals, hcounts, hregressions⟩ := totals_observe key s o
  simp only [if_neg hne, Nat.add_zero] at hbusy hcovered hintervals hcounts hregressions
  refine ⟨?_, hbusy ▸ h.busy, hcovered ▸ h.covered, fun capacity => (hintervals capacity).trans
    (h.intervals capacity), hcounts.trans h.counts, hregressions.trans h.regressions⟩
  exact (Function.update_of_ne hne.symm _ _).trans h.seen

theorem Tracked.first (h : Tracked key s []) (hkey : o.key = key) :
    Tracked key (observe s o) [o] := by
  have hseen : s.seen o = ⟨o.counter, o.time, o.index, o.capacity⟩ := by
    rw [Summary.seen, hkey, h.seen]
    rfl
  obtain ⟨hbusy, hcovered, hintervals, hcounts, hregressions⟩ := totals_observe key s o
  simp only [hseen, ne_eq, not_true_eq_false, and_false, false_and, if_false, ite_self,
    Nat.add_zero] at hbusy hcovered hintervals
  have hbusy' := h.busy
  have hcovered' := h.covered
  simp only [List.head?_nil, Option.map_none, Option.getD_none, List.getLast?_nil, highest,
    List.map_nil, List.foldl_nil] at hbusy' hcovered'
  refine ⟨?_, ?_, ?_, ?_, ?_, ?_⟩
  · simp [observe, hseen, hkey, highest]
  · simp only [List.head?_cons, Option.map_some, Option.getD_some, highest, List.map_cons,
      List.map_nil, List.foldl_cons, List.foldl_nil]
    omega
  · simp only [List.head?_cons, Option.map_some, Option.getD_some, List.getLast?_singleton]
    omega
  · exact fun capacity => (hintervals capacity).trans (h.intervals capacity)
  · rw [if_pos hkey] at hcounts
    exact hcounts.trans (Nat.add_le_add_right h.counts 1)
  · rw [if_pos hkey] at hregressions
    exact hregressions.trans (Nat.add_le_add_right h.regressions 1)

theorem Tracked.next {last : Observation} (h : Tracked key s (readings ++ [last]))
    (hkey : o.key = key) (hlater : Later last o) :
    Tracked key (observe s o) (readings ++ [last] ++ [o]) := by
  have hseen : s.seen o = ⟨highest (readings ++ [last]), last.time, last.index, last.capacity⟩ := by
    rw [Summary.seen, hkey, h.seen]
    simp
  obtain ⟨hbusy, hcovered, hintervals, hcounts, hregressions⟩ := totals_observe key s o
  rw [if_pos hkey] at hbusy hcovered hcounts hregressions
  have hindex : last.index ≠ o.index := Nat.ne_of_lt hlater.1
  have hhead : (readings ++ [last] ++ [o]).head? = (readings ++ [last]).head? := by
    cases readings <;> rfl
  have hlength : (readings ++ [last] ++ [o]).length = (readings ++ [last]).length + 1 :=
    List.length_append
  have hbusy' := h.busy
  have hcovered' := h.covered
  refine ⟨?_, ?_, ?_, fun capacity => ?_, ?_, ?_⟩
  · rw [highest_concat, Nat.max_comm]
    simp [observe, hseen, hkey, hindex]
  · -- what is added is at most the rise of the high-water mark
    rw [hhead, highest_concat, hbusy, hseen]
    dsimp only
    split <;> omega
  · rw [hhead, hcovered, hseen]
    have hlast : ((readings ++ [last]).getLast?.map (·.time)).getD 0 = last.time := by simp
    have hlast' : ((readings ++ [last] ++ [o]).getLast?.map (·.time)).getD 0 = o.time := by simp
    have htime := hlater.2
    rw [hlast] at hcovered'
    rw [hlast']
    dsimp only
    split <;> omega
  · rw [countPairs_concat, hintervals capacity, if_pos hkey, h.intervals capacity, hseen]
    congr 1
    refine if_congr ?_ rfl rfl
    simp only [Counted, Consecutive, Bool.and_eq_true, decide_eq_true_eq]
    have htime := hlater.2
    constructor
    · rintro ⟨⟨⟨hnext, hsame, -⟩, -⟩, rfl⟩
      exact ⟨⟨hnext, hsame⟩, rfl⟩
    · rintro ⟨⟨hnext, hlast⟩, rfl⟩
      exact ⟨⟨⟨hnext, hlast, htime⟩, hindex⟩, rfl⟩
  · rw [hlength]
    exact hcounts.trans (Nat.add_le_add_right h.counts 1)
  · rw [hlength]
    exact hregressions.trans (Nat.add_le_add_right h.regressions 1)

end Step

def readingsOf (key : ClientKey × String) (seen : List Observation) : List Observation :=
  seen.filter fun o => o.key = key

/-- **A whole run**: by induction on the observations, the last one first. -/
theorem tracked_foldl (key : ClientKey × String) (seen : List Observation)
    (h : (readingsOf key seen).Pairwise Later) :
    Tracked key (seen.foldl observe {}) (readingsOf key seen) := by
  induction seen using List.reverseRecOn with
  | nil => exact ⟨rfl, Nat.le_refl 0, Nat.le_refl 0, fun _ => rfl, Nat.le_refl 0, Nat.le_refl 0⟩
  | append_singleton seen o ih =>
    rw [List.foldl_append, List.foldl_cons, List.foldl_nil]
    by_cases hkey : o.key = key
    · have happend : readingsOf key (seen ++ [o]) = readingsOf key seen ++ [o] := by
        simp [readingsOf, hkey]
      rw [happend] at h ⊢
      obtain ⟨hseen, -, hlater⟩ := List.pairwise_append.mp h
      have htracked := ih hseen
      rcases List.eq_nil_or_concat (readingsOf key seen) with hnil | ⟨readings, last, hlast⟩
      · rw [hnil] at htracked ⊢
        exact htracked.first hkey
      · rw [List.concat_eq_append] at hlast
        rw [hlast] at htracked hlater ⊢
        exact htracked.next hkey
          (hlater last (List.mem_append_right _ List.mem_cons_self) o List.mem_cons_self)
    · have happend : readingsOf key (seen ++ [o]) = readingsOf key seen := by
        simp [readingsOf, hkey]
      rw [happend] at h ⊢
      exact (ih h).other hkey

/-! ## The readings of a list of samples -/

/-- Strictly increasing times, and every client once in a sample. -/
structure WellTimed (samples : List Snapshot) : Prop where
  times : samples.Pairwise fun a b => a.elapsedNs < b.elapsedNs
  keys : ∀ sample ∈ samples, (sample.clients.map (·.key)).Nodup

theorem Client.key_of_mem {client : Client} {index time : Nat} {o : Observation}
    (h : o ∈ client.observations index time) :
    o.client = client.key ∧ o.index = index ∧ o.time = time ∧ o.counter < 2 ^ 64 := by
  obtain ⟨⟨engine, counter⟩, -, rfl⟩ := List.mem_map.mp h
  exact ⟨rfl, rfl, rfl, counter.toNat_lt⟩

theorem Snapshot.of_mem {sample : Snapshot} {index : Nat} {o : Observation}
    (h : o ∈ sample.observations index) :
    o.index = index ∧ o.time = sample.elapsedNs.toNat ∧ o.counter < 2 ^ 64 := by
  obtain ⟨client, -, hmem⟩ := List.mem_flatMap.mp h
  exact (Client.key_of_mem hmem).2

theorem Snapshot.distinct {sample : Snapshot} (h : (sample.clients.map (·.key)).Nodup)
    (index : Nat) : (sample.observations index).Pairwise fun a b => a.key ≠ b.key := by
  refine List.pairwise_flatMap.mpr ⟨fun client _ => ?_, ?_⟩
  · refine List.pairwise_map.mpr (client.engineNs.distinct_keys_toList.imp ?_)
    intro a b hne heq
    have hengine : a.1 = b.1 := (Prod.ext_iff.mp heq).2
    rw [hengine] at hne
    exact hne Std.ReflCmp.compare_self
  · refine (List.pairwise_map.mp h).imp fun hne a ha b hb heq => hne ?_
    rw [← (Client.key_of_mem ha).1, ← (Client.key_of_mem hb).1]
    exact (Prod.ext_iff.mp heq).1

/-- A sample has at most one reading of a key. -/
theorem Snapshot.reading {sample : Snapshot} (h : (sample.clients.map (·.key)).Nodup)
    (key : ClientKey × String) (index : Nat) :
    readingsOf key (sample.observations index) = [] ∨
      ∃ o, readingsOf key (sample.observations index) = [o] := by
  have hdistinct := (Snapshot.distinct h index).filter fun o => decide (o.key = key)
  have hkeys : ∀ o ∈ readingsOf key (sample.observations index), o.key = key :=
    fun o hmem => of_decide_eq_true (List.mem_filter.mp hmem).2
  change (readingsOf key _).Pairwise _ at hdistinct
  match readingsOf key (sample.observations index), hdistinct, hkeys with
  | [], _, _ => exact .inl rfl
  | [o], _, _ => exact .inr ⟨o, rfl⟩
  | a :: b :: rest, hdistinct, hkeys =>
    refine absurd ?_ (List.rel_of_pairwise_cons hdistinct List.mem_cons_self)
    rw [hkeys a List.mem_cons_self, hkeys b (List.mem_cons_of_mem _ List.mem_cons_self)]

theorem of_mem_observationsFrom {samples : List Snapshot} {index : Nat} {o : Observation}
    (h : o ∈ observationsFrom index samples) :
    index ≤ o.index ∧ o.counter < 2 ^ 64 ∧
      ∃ sample ∈ samples, o.time = sample.elapsedNs.toNat := by
  induction samples generalizing index with
  | nil => cases h
  | cons sample samples ih =>
    rcases List.mem_append.mp h with hmem | hmem
    · obtain ⟨hindex, htime, hcounter⟩ := Snapshot.of_mem hmem
      exact ⟨hindex.ge, hcounter, sample, List.mem_cons_self, htime⟩
    · obtain ⟨hindex, hcounter, other, hother, htime⟩ := ih hmem
      exact ⟨Nat.le_of_succ_le hindex, hcounter, other, List.mem_cons_of_mem _ hother, htime⟩

theorem readingsOf_cons (key : ClientKey × String) (sample : Snapshot) (samples : List Snapshot)
    (index : Nat) : readingsOf key (observationsFrom index (sample :: samples)) =
      readingsOf key (sample.observations index) ++
        readingsOf key (observationsFrom (index + 1) samples) :=
  List.filter_append _ _

theorem WellTimed.tail {sample : Snapshot} {samples : List Snapshot}
    (h : WellTimed (sample :: samples)) : WellTimed samples :=
  ⟨(List.pairwise_cons.mp h.times).2, fun other hmem => h.keys other (List.mem_cons_of_mem _ hmem)⟩

theorem WellTimed.later {samples : List Snapshot} (h : WellTimed samples)
    (key : ClientKey × String) (index : Nat) :
    (readingsOf key (observationsFrom index samples)).Pairwise Later := by
  induction samples generalizing index with
  | nil => exact .nil
  | cons sample samples ih =>
    rw [readingsOf_cons]
    refine List.pairwise_append.mpr ⟨?_, ih h.tail (index + 1), fun a ha b hb => ?_⟩
    · rcases Snapshot.reading (h.keys sample List.mem_cons_self) key index with hnone | ⟨o, hone⟩
      · rw [hnone]
        exact .nil
      · rw [hone]
        exact List.pairwise_singleton _ _
    · obtain ⟨hindex, htime, -⟩ := Snapshot.of_mem (List.mem_filter.mp ha).1
      obtain ⟨hindex', -, other, hother, htime'⟩ :=
        of_mem_observationsFrom (List.mem_filter.mp hb).1
      refine ⟨by omega, ?_⟩
      rw [htime, htime']
      exact UInt64.lt_iff_toNat_lt.mp ((List.pairwise_cons.mp h.times).1 other hother)

/-- The sample contains the client's engine with this capacity. -/
def Snapshot.contains (key : ClientKey × String) (capacity : UInt64) (sample : Snapshot) : Bool :=
  (readingsOf key (sample.observations 0)).any fun o => o.capacity = capacity

theorem any_reading (key : ClientKey × String) (capacity : UInt64) (sample : Snapshot)
    (index : Nat) : ((readingsOf key (sample.observations index)).any fun o =>
      o.capacity = capacity) = sample.contains key capacity := by
  simp only [Snapshot.contains, readingsOf, Snapshot.observations, Client.observations,
    Observation.key, List.any_filter, List.any_flatMap, List.any_map]
  rfl

/-- Consecutive readings at one capacity are those of consecutive samples. -/
theorem countPairs_readings {samples : List Snapshot} (h : WellTimed samples)
    (key : ClientKey × String) (capacity : UInt64) (index : Nat) :
    countPairs (Consecutive capacity) (readingsOf key (observationsFrom index samples)) =
      countPairs (fun a b => a.contains key capacity && b.contains key capacity) samples := by
  induction samples generalizing index with
  | nil => rfl
  | cons sample samples ih =>
    have hrest := ih h.tail (index + 1)
    rw [readingsOf_cons]
    have hcontains := any_reading key capacity sample index
    rcases Snapshot.reading (h.keys sample List.mem_cons_self) key index with hnone | ⟨o, hone⟩
    · rw [hnone] at hcontains ⊢
      rw [List.nil_append, hrest]
      cases samples with
      | nil => rfl
      | cons next samples => simp [countPairs, ← hcontains]
    · have ho : o.index = index := by
        have hmem : o ∈ readingsOf key (sample.observations index) := by
          rw [hone]
          exact List.mem_cons_self
        exact (Snapshot.of_mem (List.mem_filter.mp hmem).1).1
      rw [hone] at hcontains ⊢
      rw [List.singleton_append]
      cases samples with
      | nil => rfl
      | cons next samples =>
        have hnext := any_reading key capacity next (index + 1)
        rw [countPairs, ← hrest, ← hcontains, ← hnext]
        rw [readingsOf_cons]
        have hnext_keys := h.keys next (List.mem_cons_of_mem _ List.mem_cons_self)
        rcases Snapshot.reading hnext_keys key (index + 1) with hnone' | ⟨o', hone'⟩
        · -- the next reading, if there is one, is of a later sample
          rw [hnone', List.nil_append]
          cases hlater : readingsOf key (observationsFrom (index + 1 + 1) samples) with
          | nil => simp [countPairs]
          | cons b readings =>
            have hb : b ∈ readingsOf key (observationsFrom (index + 1 + 1) samples) := by
              rw [hlater]
              exact List.mem_cons_self
            have hindex := (of_mem_observationsFrom (List.mem_filter.mp hb).1).1
            have hgap : o.index + 1 ≠ b.index := by omega
            simp [countPairs, Consecutive, hgap]
        · have ho' : o'.index = index + 1 := by
            have hmem : o' ∈ readingsOf key (next.observations (index + 1)) := by
              rw [hone']
              exact List.mem_cons_self
            exact (Snapshot.of_mem (List.mem_filter.mp hmem).1).1
          rw [hone', List.singleton_append, countPairs]
          simp [Consecutive, ho, ho']

/-! ## The summary -/

theorem le_total {key : ClientKey × String} (figure : EngineUsage → Nat) {rows : List EngineUsage}
    {row : EngineUsage} (hmem : row ∈ rows) (hkey : (row.client, row.engine) = key) :
    figure row ≤ total key figure rows := by
  have hle := List.le_sum_of_mem (List.mem_map_of_mem (f := fun row : EngineUsage =>
    if (row.client, row.engine) = key then figure row else 0) hmem)
  rwa [if_pos hkey] at hle

theorem highest_le {readings : List Observation} {bound : Nat}
    (h : ∀ o ∈ readings, o.counter ≤ bound) : highest readings ≤ bound := by
  induction readings using List.reverseRecOn with
  | nil => exact Nat.zero_le _
  | append_singleton readings o ih =>
    rw [highest_concat]
    exact Nat.max_le.mpr ⟨ih fun other hmem => h other (List.mem_append_left _ hmem),
      h o (List.mem_append_right _ List.mem_cons_self)⟩

/-- **Busy time is never over-counted**, for every client and engine: the busy times are at most
    the highest minus the first counter, the covered times at most the last minus the first time,
    the intervals of a capacity are the pairs of consecutive samples that both contain the engine
    at it, and after any number of observations no figure has left 64 bits. -/
theorem usage_not_overcounted (samples : List Snapshot) (h : WellTimed samples)
    (key : ClientKey × String) :
    (∀ first ∈ (readingsOf key (observations samples)).head?, ∀ bound,
      (∀ o ∈ readingsOf key (observations samples), o.counter ≤ bound) →
        total key (·.busyNs) (summarize samples) ≤ bound - first.counter) ∧
    (∀ first ∈ (readingsOf key (observations samples)).head?,
      ∀ last ∈ (readingsOf key (observations samples)).getLast?,
        total key (·.coveredNs) (summarize samples) ≤ last.time - first.time) ∧
    (∀ capacity,
      total key (fun row => if row.capacity = capacity then row.intervals else 0)
          (summarize samples) =
        countPairs (fun a b => a.contains key capacity && b.contains key capacity) samples) ∧
    ∀ seen, seen <+: observations samples → ∀ row ∈ (seen.foldl observe {}).rows,
      row.busyNs < 2 ^ 64 ∧ row.coveredNs < 2 ^ 64 ∧ row.intervals ≤ seen.length ∧
      row.regressions ≤ seen.length ∧ row.discontinuities ≤ seen.length := by
  have htracked := tracked_foldl key (observations samples) (h.later key 0)
  refine ⟨fun first hfirst bound hbound => ?_, fun first hfirst last hlast => ?_,
    fun capacity => ?_, fun seen hseen row hrow => ?_⟩
  · have hbusy := htracked.busy
    rw [Option.mem_def.mp hfirst] at hbusy
    have hhighest := highest_le hbound
    exact Nat.le_sub_of_add_le (hbusy.trans hhighest)
  · have hcovered := htracked.covered
    rw [Option.mem_def.mp hfirst, Option.mem_def.mp hlast] at hcovered
    exact Nat.le_sub_of_add_le hcovered
  · exact (htracked.intervals capacity).trans (countPairs_readings h key capacity 0)
  · -- a figure of a row is at most the total of its key, and that is bounded by the readings
    have hsub : (readingsOf (row.client, row.engine) seen).Sublist
        (readingsOf (row.client, row.engine) (observations samples)) := hseen.sublist.filter _
    have hrun := tracked_foldl (row.client, row.engine) seen
      ((h.later (row.client, row.engine) 0).sublist hsub)
    have hreading : ∀ o ∈ readingsOf (row.client, row.engine) seen,
        o.counter < 2 ^ 64 ∧ o.time < 2 ^ 64 := by
      intro o hmem
      obtain ⟨-, hcounter, sample, -, htime⟩ :=
        of_mem_observationsFrom (List.mem_filter.mp (hsub.mem hmem)).1
      exact ⟨hcounter, htime ▸ sample.elapsedNs.toNat_lt⟩
    have hlength : (readingsOf (row.client, row.engine) seen).length ≤ seen.length :=
      List.length_filter_le _ _
    have hbusy := le_total ((·.busyNs)) hrow rfl
    have hcovered := le_total ((·.coveredNs)) hrow rfl
    have hcounts := le_total (fun row => row.intervals + row.discontinuities) hrow rfl
    have hregressions := le_total ((·.regressions)) hrow rfl
    have hhighest : highest (readingsOf (row.client, row.engine) seen) ≤ 2 ^ 64 - 1 :=
      highest_le fun o hmem => Nat.le_sub_one_of_lt (hreading o hmem).1
    have hlast : ((readingsOf (row.client, row.engine) seen).getLast?.map (·.time)).getD 0 <
        2 ^ 64 := by
      cases hget : (readingsOf (row.client, row.engine) seen).getLast? with
      | none => simp
      | some last => exact (hreading last (List.mem_of_getLast? hget)).2
    have hrun_busy := hrun.busy
    have hrun_covered := hrun.covered
    have hrun_counts := hrun.counts
    have hrun_regressions := hrun.regressions
    refine ⟨by omega, by omega, by omega, by omega, by omega⟩

def renderClient : ClientKey := ⟨"amdgpu", none, 1⟩

def renderSample (time counter : UInt64) : Snapshot :=
  ⟨time, [⟨renderClient, ∅, Std.ExtTreeMap.empty.insert "render" counter, ∅⟩]⟩

/-- A counter that falls back and catches up. -/
def regressing : List Snapshot :=
  [renderSample 0 100, renderSample 100 90, renderSample 200 95, renderSample 300 130]

theorem regressing_usage :
    total (renderClient, "render") (·.busyNs) (summarize regressing) ≤ 130 - 100 := by
  have htimed : WellTimed regressing := ⟨by decide +kernel, by decide +kernel⟩
  have hcounters : ((readingsOf (renderClient, "render") (observations regressing)).map
      (·.counter)) = [100, 90, 95, 130] := by decide +kernel
  obtain ⟨first, hfirst, hcounter⟩ : ∃ first ∈ (readingsOf (renderClient, "render")
      (observations regressing)).head?, first.counter = 100 := by
    have hhead := congrArg List.head? hcounters
    rw [List.head?_map] at hhead
    exact Option.map_eq_some_iff.mp hhead
  rw [← hcounter]
  refine (usage_not_overcounted regressing htimed _).1 first hfirst 130 fun o hmem => ?_
  have hmem' := List.mem_map_of_mem (f := (·.counter)) hmem
  rw [hcounters] at hmem'
  simp only [List.mem_cons, List.not_mem_nil, or_false] at hmem'
  omega

end Droidloom.Timing
