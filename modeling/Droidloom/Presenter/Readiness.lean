/-
  Which task has which work to do (`readiness.rs`): a map from tasks to the bits of work that were
  marked for them, and one absolute deadline for tasks without an event descriptor.

  Everything rests on `owes`, the bits that a task still has to be given, and on one statement of
  what an operation can do to it (`step_owes`): a bit is owed afterwards exactly if it was marked
  now, or was owed before and neither handed out nor cancelled by a removal.  That no work is lost
  and that repeated marks are handed out once are both read off it along a run.
-/
import Droidloom.Lib.History

namespace Droidloom.Readiness

open Std History

abbrev TaskObjectId := Nat
/-- A point on the monotonic clock, in nanoseconds. -/
abbrev Instant := Nat
abbrev Duration := Nat

/-! ## Bits of work -/

def REQUESTS : UInt8 := 1
def RELEASES : UInt8 := 2
def CONFIG : UInt8 := 4
def FRAMES : UInt8 := 8
def UNMAP : UInt8 := 16
def CLEANUP : UInt8 := 32
def RESIZE : UInt8 := 64
def TIMELINE : UInt8 := 128

/-- The bit `i` is in the set of work `w`. -/
def hasBit (w : UInt8) (i : Fin 8) : Prop := w.toBitVec.getLsbD i = true

instance (w : UInt8) (i : Fin 8) : Decidable (hasBit w i) :=
  inferInstanceAs (Decidable (w.toBitVec.getLsbD i = true))

section Bits
variable {v w : UInt8} {i : Fin 8}

@[simp] theorem hasBit_zero : ¬ hasBit 0 i := by simp [hasBit]

@[simp] theorem hasBit_or : hasBit (v ||| w) i ↔ hasBit v i ∨ hasBit w i := by simp [hasBit]

@[simp] theorem hasBit_and : hasBit (v &&& w) i ↔ hasBit v i ∧ hasBit w i := by simp [hasBit]

@[simp] theorem hasBit_clear : hasBit (v &&& ~~~w) i ↔ hasBit v i ∧ ¬ hasBit w i := by
  have := i.isLt
  simp [hasBit]

theorem ne_zero_of_hasBit (h : hasBit w i) : w ≠ 0 := by
  rintro rfl
  exact hasBit_zero h

theorem ext_bits (h : ∀ i, hasBit v i ↔ hasBit w i) : v = w := by
  apply UInt8.toBitVec_inj.mp
  apply BitVec.eq_of_getLsbD_eq
  intro k hk
  exact Bool.eq_iff_iff.mpr (h ⟨k, hk⟩)

theorem left_ne_zero (h : v &&& w ≠ 0) : v ≠ 0 := by
  rintro rfl
  exact h UInt8.zero_and

/-- Clearing work that is not there changes nothing. -/
theorem clear_of_disjoint (h : v &&& w = 0) : v &&& ~~~w = v := by
  apply ext_bits
  intro i
  rw [hasBit_clear, and_iff_left_iff_imp]
  intro hv hw
  exact ne_zero_of_hasBit (hasBit_and.mpr ⟨hv, hw⟩) h

end Bits

/-! ## The operations -/

structure Tasks where
  ready : ExtTreeMap TaskObjectId UInt8 compare := ∅
  streams : ExtTreeSet TaskObjectId compare := ∅
  frames : ExtTreeSet TaskObjectId compare := ∅
  layerFallback : ExtTreeSet TaskObjectId compare := ∅
  frameFallback : ExtTreeSet TaskObjectId compare := ∅
  fallbackDeadline : Option Instant := none

namespace Tasks

/-- `*self.ready.entry(object).or_default() |= work`. -/
def mark (t : Tasks) (object : TaskObjectId) (work : UInt8) : Tasks :=
  { t with ready := t.ready.insert object (t.ready[object]?.getD 0 ||| work) }

def pending (t : Tasks) : Bool := ¬ t.ready.isEmpty

/-- What `pop` does with the bits of the task that it found. -/
def clear (t : Tasks) (object : TaskObjectId) (bits : UInt8) : Tasks :=
  if bits = 0 then { t with ready := t.ready.erase object }
  else { t with ready := t.ready.insert object bits }

/-- The first task, in the order of identities, with some of `work`. -/
def pop (t : Tasks) (work : UInt8) : Option TaskObjectId × Tasks :=
  match t.ready.toList.find? (fun entry => entry.2 &&& work ≠ 0) with
  | none => (none, t)
  | some (object, bits) => (some object, t.clear object (bits &&& ~~~work))

/-- One turn: every task with some of `work`.  What is marked later is left for the next turn. -/
def take (t : Tasks) (work : UInt8) : List TaskObjectId × Tasks :=
  ((t.ready.toList.filter (fun entry => entry.2 &&& work ≠ 0)).map Prod.fst,
    { t with ready := t.ready.filterMap fun _ bits =>
        let bits := if bits &&& work ≠ 0 then bits &&& ~~~work else bits
        if bits ≠ 0 then some bits else none })

def remove (t : Tasks) (object : TaskObjectId) : Tasks :=
  { t with
    ready := t.ready.erase object
    streams := t.streams.erase object
    frames := t.frames.erase object
    layerFallback := t.layerFallback.erase object
    frameFallback := t.frameFallback.erase object }

def setMembership (set : ExtTreeSet TaskObjectId compare) (object : TaskObjectId)
    (enabled : Bool) : ExtTreeSet TaskObjectId compare :=
  if enabled then set.insert object else set.erase object

def setLayerFallback (t : Tasks) (object : TaskObjectId) (enabled : Bool) : Tasks :=
  { t with layerFallback := setMembership t.layerFallback object enabled }

def setFrameFallback (t : Tasks) (object : TaskObjectId) (enabled : Bool) : Tasks :=
  { t with frameFallback := setMembership t.frameFallback object enabled }

def arm (t : Tasks) (now : Instant) (interval : Duration) : Option Instant :=
  if t.layerFallback.isEmpty ∧ t.frameFallback.isEmpty then none
  else if t.fallbackDeadline.isNone then some (now + interval)
  else t.fallbackDeadline

/-- The end of the next poll, armed when first needed. -/
def deadline (t : Tasks) (now : Instant) (interval : Duration) : Option Instant × Tasks :=
  (t.arm now interval, { t with fallbackDeadline := t.arm now interval })

/-- The deadline is over at `now`. -/
def fires (t : Tasks) (now : Instant) : Prop := ∃ d ∈ t.fallbackDeadline, d ≤ now

instance (t : Tasks) (now : Instant) : Decidable (t.fires now) :=
  inferInstanceAs (Decidable (∃ d ∈ t.fallbackDeadline, d ≤ now))

/-- `for object in objects { *self.ready.entry(*object).or_default() |= work }`. -/
def markAll (t : Tasks) (objects : List TaskObjectId) (work : UInt8) : Tasks :=
  objects.foldl (fun t object => t.mark object work) t

def notifyFallback (t : Tasks) (now : Instant) : Tasks :=
  if t.fires now then
    { (t.markAll t.layerFallback.toList RELEASES).markAll t.frameFallback.toList FRAMES with
      fallbackDeadline := none }
  else t

end Tasks

def POLLIN : UInt16 := 1
def POLLERR : UInt16 := 8
def POLLHUP : UInt16 := 16
def POLLNVAL : UInt16 := 32

/-- What a polled descriptor stands for. -/
inductive Source
  | other
  | task (object : TaskObjectId) (work : UInt8) (eventfd : Bool)
deriving DecidableEq, Repr

/-- Mark the work of a descriptor that polled ready; the result says whether to drain it. -/
def Source.notify (source : Source) (tasks : Tasks) (revents : UInt16) : Bool × Tasks :=
  match source with
  | .other => (false, tasks)
  | .task object work eventfd =>
    (eventfd && revents &&& POLLIN ≠ 0,
      if revents &&& (POLLIN ||| POLLHUP ||| POLLERR ||| POLLNVAL) ≠ 0 then tasks.mark object work
      else tasks)

/-! ## What is owed -/

namespace Tasks

variable {t : Tasks} {object other : TaskObjectId} {work : UInt8} {i : Fin 8}

/-- The work marked for a task and not handed out yet. -/
def bits (t : Tasks) (object : TaskObjectId) : UInt8 := t.ready[object]?.getD 0

/-- The task still has to be given the work `i`. -/
def owes (t : Tasks) (object : TaskObjectId) (i : Fin 8) : Prop := hasBit (t.bits object) i

theorem mark_bits : (t.mark object work).bits other =
    if object = other then t.bits object ||| work else t.bits other := by
  simp only [bits, mark, ExtTreeMap.getElem?_insert, Std.compare_eq_iff_eq]
  split
  · rfl
  · rfl

theorem remove_bits : (t.remove object).bits other =
    if object = other then 0 else t.bits other := by
  simp only [bits, remove, ExtTreeMap.getElem?_erase, Std.compare_eq_iff_eq]
  split
  · rfl
  · rfl

theorem clear_bits {bits : UInt8} : (t.clear object bits).bits other =
    if object = other then bits else t.bits other := by
  unfold clear
  split
  · rename_i h
    subst h
    simp only [Tasks.bits, ExtTreeMap.getElem?_erase, Std.compare_eq_iff_eq]
    split
    · rfl
    · rfl
  · simp only [Tasks.bits, ExtTreeMap.getElem?_insert, Std.compare_eq_iff_eq]
    split
    · rfl
    · rfl

theorem mem_toList_iff {bits : UInt8} (hne : bits ≠ 0) :
    (object, bits) ∈ t.ready.toList ↔ t.bits object = bits := by
  rw [ExtTreeMap.mem_toList_iff_getElem?_eq_some, Tasks.bits]
  cases t.ready[object]? with
  | none => simp [Ne.symm hne]
  | some b => simp

/-- `pop` either finds no such work at all, or clears it for the task that it returns. -/
theorem pop_spec (t : Tasks) (work : UInt8) :
    ((t.pop work) = (none, t) ∧ ∀ o, t.bits o &&& work = 0) ∨
      ∃ o, t.bits o &&& work ≠ 0 ∧ t.pop work = (some o, t.clear o (t.bits o &&& ~~~work)) := by
  unfold pop
  split
  · rename_i hnone
    refine .inl ⟨rfl, fun o => ?_⟩
    by_contra hne
    have hmem := (mem_toList_iff (left_ne_zero hne)).mpr rfl
    exact List.find?_eq_none.mp hnone _ hmem (by simpa using hne)
  · rename_i o bits hsome
    have hwork : bits &&& work ≠ 0 := by simpa using List.find?_some hsome
    have hown := (mem_toList_iff (left_ne_zero hwork)).mp (List.mem_of_find?_eq_some hsome)
    refine .inr ⟨o, ?_, ?_⟩
    · rwa [hown]
    · rw [hown]

theorem mem_take : object ∈ (t.take work).1 ↔ t.bits object &&& work ≠ 0 := by
  simp only [take, List.mem_map, List.mem_filter, decide_eq_true_eq]
  constructor
  · rintro ⟨⟨o, bits⟩, ⟨hmem, hwork⟩, rfl⟩
    rwa [(mem_toList_iff (left_ne_zero hwork)).mp hmem]
  · intro hwork
    exact ⟨(object, t.bits object), ⟨(mem_toList_iff (left_ne_zero hwork)).mpr rfl, hwork⟩, rfl⟩

/-- A task is named once in a turn. -/
theorem take_nodup : (t.take work).1.Nodup := by
  have hkeys : (t.ready.toList.map Prod.fst).Nodup := by
    rw [List.nodup_iff_pairwise_ne, List.pairwise_map]
    exact ExtTreeMap.distinct_keys_toList.imp fun h heq => h (by simp [heq])
  exact hkeys.sublist (List.filter_sublist.map _)

theorem take_bits : (t.take work).2.bits object = t.bits object &&& ~~~work := by
  simp only [bits, take, ExtTreeMap.getElem?_filterMap']
  cases t.ready[object]? with
  | none => simp
  | some bits =>
    have hcleared : (if bits &&& work ≠ 0 then bits &&& ~~~work else bits) = bits &&& ~~~work := by
      split
      · rfl
      · rename_i h
        exact (clear_of_disjoint (not_not.mp h)).symm
    simp only [Option.bind_some, hcleared, Option.getD_some]
    split
    · rfl
    · rename_i h
      exact (not_not.mp h).symm

theorem pending_of_owes (h : t.owes object i) : t.pending = true := by
  have hne : t.bits object ≠ 0 := ne_zero_of_hasBit h
  have hempty : ¬ t.ready.isEmpty = true := by
    intro hempty
    rw [bits, ExtTreeMap.isEmpty_iff.mp hempty] at hne
    simp at hne
  simpa [pending] using hempty

theorem markAll_bits {objects : List TaskObjectId} : (t.markAll objects work).bits other =
    if other ∈ objects then t.bits other ||| work else t.bits other := by
  induction objects generalizing t with
  | nil => simp [markAll]
  | cons o rest ih =>
    have hcons : t.markAll (o :: rest) work = (t.mark o work).markAll rest work := rfl
    rw [hcons, ih, mark_bits]
    by_cases ho : o = other
    · subst ho
      simp [UInt8.or_assoc]
    · simp [ho, Ne.symm ho]

/-- The work that the deadline stands in for. -/
def fallbackWork (t : Tasks) (object : TaskObjectId) : UInt8 :=
  (if object ∈ t.layerFallback then RELEASES else 0) |||
    (if object ∈ t.frameFallback then FRAMES else 0)

theorem notifyFallback_bits {now : Instant} (hfires : t.fires now) :
    (t.notifyFallback now).bits object = t.bits object ||| t.fallbackWork object := by
  rw [notifyFallback, if_pos hfires]
  have hbits : ∀ (t' : Tasks) d, ({ t' with fallbackDeadline := d } : Tasks).bits object =
      t'.bits object := fun _ _ => rfl
  rw [hbits, markAll_bits, markAll_bits, fallbackWork]
  simp only [ExtTreeSet.mem_toList]
  split <;> split <;> simp [UInt8.or_assoc]

end Tasks

/-! ## Runs -/

inductive Op
  | mark (object : TaskObjectId) (work : UInt8)
  | pop (work : UInt8)
  | take (work : UInt8)
  | remove (object : TaskObjectId)
  | layerFallback (object : TaskObjectId) (enabled : Bool)
  | frameFallback (object : TaskObjectId) (enabled : Bool)
  | deadline (now : Instant) (interval : Duration)
  | notifyFallback (now : Instant)
  | notify (source : Source) (revents : UInt16)
deriving DecidableEq, Repr

namespace Tasks

variable {t : Tasks} {object other : TaskObjectId} {work : UInt8} {i : Fin 8} {op : Op}

def step (t : Tasks) : Op → Tasks
  | .mark object work => t.mark object work
  | .pop work => (t.pop work).2
  | .take work => (t.take work).2
  | .remove object => t.remove object
  | .layerFallback object enabled => t.setLayerFallback object enabled
  | .frameFallback object enabled => t.setFrameFallback object enabled
  | .deadline now interval => (t.deadline now interval).2
  | .notifyFallback now => t.notifyFallback now
  | .notify source revents => (source.notify t revents).2

def run (t : Tasks) (ops : List Op) : Tasks := ops.foldl step t

/-- The tasks that a `pop` or a `take` returns, and the work it asks for. -/
def handed (t : Tasks) : Op → List TaskObjectId × UInt8
  | .pop work => ((t.pop work).1.toList, work)
  | .take work => ((t.take work).1, work)
  | _ => ([], 0)

/-- The operation hands the work `i`, that the task has to do, to its caller. -/
def HandsOut (t : Tasks) (op : Op) (object : TaskObjectId) (i : Fin 8) : Prop :=
  t.owes object i ∧ object ∈ (t.handed op).1 ∧ hasBit (t.handed op).2 i

/-- The work that an operation marks for a task. -/
def marked (t : Tasks) (object : TaskObjectId) : Op → UInt8
  | .mark o work => if o = object then work else 0
  | .notifyFallback now => if t.fires now then t.fallbackWork object else 0
  | .notify (.task o work _) revents =>
    if revents &&& (POLLIN ||| POLLHUP ||| POLLERR ||| POLLNVAL) ≠ 0 ∧ o = object then work else 0
  | _ => 0

def Marks (t : Tasks) (op : Op) (object : TaskObjectId) (i : Fin 8) : Prop :=
  hasBit (t.marked object op) i

/-- The work that an operation leaves alone. -/
def kept (t : Tasks) (object : TaskObjectId) (op : Op) : UInt8 :=
  if op = .remove object then 0
  else if object ∈ (t.handed op).1 then t.bits object &&& ~~~(t.handed op).2
  else t.bits object

theorem pop_kept : (t.pop work).2.bits object = t.kept object (.pop work) := by
  rcases t.pop_spec work with ⟨hnone, -⟩ | ⟨o, -, hsome⟩
  · simp [kept, handed, hnone]
  · simp only [kept, handed, hsome, clear_bits, Option.toList_some, List.mem_singleton]
    by_cases ho : o = object
    · subst ho
      simp
    · simp [ho, Ne.symm ho]

theorem take_kept : (t.take work).2.bits object = t.kept object (.take work) := by
  simp only [kept, handed, take_bits, mem_take, reduceCtorEq, if_false]
  split
  · rfl
  · rename_i h
    exact clear_of_disjoint (not_not.mp h)

theorem step_bits : (t.step op).bits object = t.kept object op ||| t.marked object op := by
  cases op with
  | pop w => simp [step, pop_kept, marked]
  | take w => simp [step, take_kept, marked]
  | mark o w =>
    simp only [step, mark_bits, kept, handed, marked]
    by_cases ho : o = object <;> simp [ho]
  | remove o =>
    simp only [step, remove_bits, kept, handed, marked]
    by_cases ho : o = object <;> simp [ho]
  | layerFallback o enabled =>
    have hbits : (t.step (.layerFallback o enabled)).bits object = t.bits object := rfl
    simp [hbits, kept, handed, marked]
  | frameFallback o enabled =>
    have hbits : (t.step (.frameFallback o enabled)).bits object = t.bits object := rfl
    simp [hbits, kept, handed, marked]
  | deadline now interval =>
    have hbits : (t.step (.deadline now interval)).bits object = t.bits object := rfl
    simp [hbits, kept, handed, marked]
  | notifyFallback now =>
    by_cases hfires : t.fires now
    · simp [step, notifyFallback_bits hfires, kept, handed, marked, hfires]
    · simp [step, notifyFallback, kept, handed, marked, hfires]
  | notify source revents =>
    cases source with
    | other => simp [step, Source.notify, kept, handed, marked]
    | task o w eventfd =>
      simp only [step, Source.notify, kept, handed, marked, reduceCtorEq, if_false,
        List.not_mem_nil]
      by_cases hready : revents &&& (POLLIN ||| POLLHUP ||| POLLERR ||| POLLNVAL) ≠ 0
      · by_cases ho : o = object <;> simp [hready, mark_bits, ho]
      · simp [hready]

/-- **What an operation can do.**  A bit is owed afterwards exactly if it is marked now, or was owed
    and is neither handed out nor cancelled. -/
theorem step_owes : (t.step op).owes object i ↔
    t.Marks op object i ∨ (t.owes object i ∧ ¬ t.HandsOut op object i ∧ op ≠ .remove object) := by
  rw [owes, step_bits, hasBit_or, or_comm, Marks]
  apply or_congr_right
  by_cases hremove : op = .remove object
  · simp [kept, hremove]
  · by_cases hmem : object ∈ (t.handed op).1
    · simp only [kept, hremove, hmem, if_true, if_false, hasBit_clear, HandsOut, owes]
      tauto
    · simp [kept, hremove, hmem, HandsOut, owes]

theorem run_append_cons (t : Tasks) (before after : List Op) (op : Op) :
    t.run (before ++ op :: after) = ((t.run before).step op).run after := List.foldl_append

/-- What every step of a run keeps, the run keeps. -/
theorem run_keeps {ops : List Op} (Q : Tasks → Op → Prop) (I : Tasks → Prop)
    (hops : Along (fun done op => Q (t.run done) op) ops) (hstart : I t)
    (hstep : ∀ s op, Q s op → I s → I (s.step op)) : I (t.run ops) :=
  Along.foldl hops hstart hstep

/-- Owed work stays owed until it is handed out or its task removed. -/
theorem run_owes {ops : List Op} (howes : t.owes object i)
    (hkept : Along (fun done op => op ≠ .remove object ∧ ¬ (t.run done).HandsOut op object i) ops) :
    (t.run ops).owes object i :=
  run_keeps (fun s op => op ≠ .remove object ∧ ¬ s.HandsOut op object i) (·.owes object i) hkept
    howes (fun _ _ hop h => step_owes.mpr (.inr ⟨h, hop.2, hop.1⟩))

/-- And work that nobody marks does not become owed. -/
theorem run_not_owes {ops : List Op} (howes : ¬ t.owes object i)
    (hunmarked : Along (fun done op => ¬ (t.run done).Marks op object i) ops) :
    ¬ (t.run ops).owes object i := by
  refine run_keeps (fun s op => ¬ s.Marks op object i) (¬ ·.owes object i) hunmarked howes ?_
  intro s op hop h hnext
  rcases step_owes.mp hnext with hmark | ⟨howed, -⟩
  · exact hop hmark
  · exact h howed

theorem not_owes_of_handsOut (h : t.HandsOut op object i) : ¬ (t.step op).owes object i := by
  intro hnext
  rcases step_owes.mp hnext with hmark | ⟨-, hkept, -⟩
  · -- Only `pop` and `take` hand work out, and they mark none.
    cases op with
    | pop w | take w => exact hasBit_zero hmark
    | _ => exact absurd h.2.1 List.not_mem_nil
  · exact hkept h

theorem mem_take_of_owes (howes : t.owes object i) (hwork : hasBit work i) :
    object ∈ (t.take work).1 :=
  mem_take.mpr (ne_zero_of_hasBit (hasBit_and.mpr ⟨howes, hwork⟩))

/-- Before nothing is pending, owed work is handed out or cancelled. -/
theorem handed_before_idle {ops : List Op} (howes : t.owes object i)
    (hidle : (t.run ops).pending = false) :
    ∃ done x rest, ops = done ++ x :: rest ∧
      (x = .remove object ∨ (t.run done).HandsOut x object i) := by
  by_contra hlost
  have hkept : (t.run ops).owes object i := by
    refine run_owes howes ?_
    intro done x rest heq
    exact ⟨fun h => hlost ⟨done, x, rest, heq, .inl h⟩,
      fun h => hlost ⟨done, x, rest, heq, .inr h⟩⟩
  rw [pending_of_owes hkept] at hidle
  cases hidle

/-- Work that is not owed is owed again only after it was marked. -/
theorem marked_before_owed {ops : List Op} (hfree : ¬ t.owes object i)
    (howes : (t.run ops).owes object i) :
    ∃ done x rest, ops = done ++ x :: rest ∧ (t.run done).Marks x object i := by
  by_contra hnone
  refine run_not_owes hfree ?_ howes
  intro done x rest heq h
  exact hnone ⟨done, x, rest, heq, h⟩

/-! ### The deadline -/

/-- Some task has no event descriptor to wake the poll. -/
def Registered (t : Tasks) : Prop := t.layerFallback ≠ ∅ ∨ t.frameFallback ≠ ∅

/-- The operation is the deadline's expiry. -/
def Expires (t : Tasks) (op : Op) : Prop := ∃ now, op = .notifyFallback now ∧ t.fires now

theorem arm_of_registered {now : Instant} {interval : Duration} {d : Instant}
    (hregistered : t.Registered) (harmed : t.fallbackDeadline = some d) :
    t.arm now interval = some d := by
  have hsome : ¬ (t.layerFallback.isEmpty = true ∧ t.frameFallback.isEmpty = true) := by
    rintro ⟨hlayer, hframe⟩
    rcases hregistered with h | h
    · exact h (ExtTreeSet.isEmpty_iff.mp hlayer)
    · exact h (ExtTreeSet.isEmpty_iff.mp hframe)
  rw [arm, if_neg hsome, harmed]
  rfl

theorem pop_fallbackDeadline : (t.pop work).2.fallbackDeadline = t.fallbackDeadline := by
  rcases t.pop_spec work with ⟨hnone, -⟩ | ⟨o, -, hsome⟩
  · rw [hnone]
  · rw [hsome]
    unfold clear
    split
    · rfl
    · rfl

/-- Only its expiry ends an armed deadline while some task needs it. -/
theorem step_fallbackDeadline {d : Instant} (hregistered : t.Registered) (hop : ¬ t.Expires op)
    (harmed : t.fallbackDeadline = some d) : (t.step op).fallbackDeadline = some d := by
  cases op with
  | deadline now interval => exact arm_of_registered hregistered harmed
  | notifyFallback now =>
    have hfires : ¬ t.fires now := fun hfires => hop ⟨now, rfl, hfires⟩
    rwa [step, notifyFallback, if_neg hfires]
  | pop w => rwa [step, pop_fallbackDeadline]
  | notify source revents =>
    cases source with
    | other => exact harmed
    | task o w eventfd =>
      simp only [step, Source.notify]
      split
      · exact harmed
      · exact harmed
  | mark | take | remove | layerFallback | frameFallback => exact harmed

theorem run_append (t : Tasks) (before after : List Op) :
    t.run (before ++ after) = (t.run before).run after := List.foldl_append

theorem deadline_stands {ops : List Op} {d : Instant} (harmed : t.fallbackDeadline = some d)
    (hstands : Along (fun done x => (t.run done).Registered ∧ ¬ (t.run done).Expires x) ops) :
    (t.run ops).fallbackDeadline = some d :=
  run_keeps (fun s op => s.Registered ∧ ¬ s.Expires op) (·.fallbackDeadline = some d) hstands harmed
    (fun _ _ hop h => step_fallbackDeadline hop.1 hop.2 h)

theorem hasBit_fallbackWork : hasBit (t.fallbackWork object) i ↔
    (object ∈ t.layerFallback ∧ hasBit RELEASES i) ∨
      (object ∈ t.frameFallback ∧ hasBit FRAMES i) := by
  rw [fallbackWork, hasBit_or]
  apply or_congr
  · split <;> simp [*]
  · split <;> simp [*]

/-- A fired deadline marks the registered tasks and nothing else. -/
theorem notifyFallback_owes {now : Instant} (hfires : t.fires now) :
    (t.notifyFallback now).owes object i ↔ t.owes object i ∨
      (object ∈ t.layerFallback ∧ hasBit RELEASES i) ∨
        (object ∈ t.frameFallback ∧ hasBit FRAMES i) := by
  rw [owes, notifyFallback_bits hfires, hasBit_or, hasBit_fallbackWork, owes]

/-- **Readiness loses no work.**  In every run: work marked for a task is handed out, or the task
    removed, before nothing is pending; marks that repeat before that count once; what is marked
    while a turn is worked off is part of a later turn; and an armed deadline stands until it
    expires, and then marks exactly the tasks registered for it. -/
theorem readiness_loses_no_work :
    (∀ before op after object i, (run {} before).Marks op object i →
      (run {} (before ++ op :: after)).pending = false →
      ∃ mid x rest, after = mid ++ x :: rest ∧
        (x = .remove object ∨ (run {} (before ++ op :: mid)).HandsOut x object i)) ∧
    (∀ before x mid y object i, (run {} before).HandsOut x object i →
      (run {} (before ++ x :: mid)).HandsOut y object i →
      ∃ done m rest, mid = done ++ m :: rest ∧
        (run {} (before ++ x :: done)).Marks m object i) ∧
    (∀ ops work, ((run {} ops).take work).1.Nodup) ∧
    (∀ before turn during op after work object i,
      (run {} (before ++ .take turn :: during)).Marks op object i →
      Along (fun done x => x ≠ .remove object ∧
        ¬ (run {} (before ++ .take turn :: (during ++ op :: done))).HandsOut x object i) after →
      hasBit work i →
      object ∈ ((run {} (before ++ .take turn :: (during ++ op :: after))).take work).1) ∧
    (∀ before d ops, (run {} before).fallbackDeadline = some d →
      Along (fun done x => (run {} (before ++ done)).Registered ∧
        ¬ (run {} (before ++ done)).Expires x) ops →
      (run {} (before ++ ops)).fallbackDeadline = some d ∧
        ((run {} (before ++ ops)).Registered →
          ∀ now interval, ((run {} (before ++ ops)).deadline now interval).1 = some d)) ∧
    ∀ ops now, (run {} ops).fires now → ∀ object i,
      (run {} (ops ++ [.notifyFallback now])).owes object i ↔ (run {} ops).owes object i ∨
        (object ∈ (run {} ops).layerFallback ∧ hasBit RELEASES i) ∨
          (object ∈ (run {} ops).frameFallback ∧ hasBit FRAMES i) := by
  refine ⟨?_, ?_, fun _ _ => take_nodup, ?_, ?_, ?_⟩
  · intro before op after object i hmark hidle
    rw [run_append_cons] at hidle
    obtain ⟨mid, x, rest, heq, hx⟩ := handed_before_idle (step_owes.mpr (.inl hmark)) hidle
    exact ⟨mid, x, rest, heq, by rwa [run_append_cons]⟩
  · intro before x mid y object i hfirst hsecond
    rw [run_append_cons] at hsecond
    obtain ⟨done, m, rest, heq, hm⟩ :=
      marked_before_owed (not_owes_of_handsOut hfirst) hsecond.1
    exact ⟨done, m, rest, heq, by rwa [run_append_cons]⟩
  · intro before turn during op after work object i hmark hkept hwork
    have hrun : ∀ done, run {} (before ++ .take turn :: (during ++ op :: done)) =
        ((run {} (before ++ .take turn :: during)).step op).run done := by
      intro done
      rw [run_append_cons, run_append_cons, run_append_cons]
    simp only [hrun] at hkept ⊢
    exact mem_take_of_owes (run_owes (step_owes.mpr (.inl hmark)) hkept) hwork
  · intro before d ops harmed hstands
    simp only [run_append] at hstands ⊢
    have hkept := deadline_stands harmed hstands
    exact ⟨hkept, fun hregistered now interval => arm_of_registered hregistered hkept⟩
  · intro ops now hfires object i
    rw [run_append_cons]
    exact notifyFallback_owes hfires

-- Repeated readiness is one turn, and the other work of the task stays.
example : ((run {} [.mark 7 (REQUESTS ||| RELEASES), .mark 7 REQUESTS]).take REQUESTS).1 = [7] ∧
    (run {} [.mark 7 (REQUESTS ||| RELEASES), .mark 7 REQUESTS, .take REQUESTS]).bits 7 =
      RELEASES := by
  decide +kernel

end Tasks

end Droidloom.Readiness
