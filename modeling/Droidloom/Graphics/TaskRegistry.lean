/-
  Task reservations of the Composer service (`task_control.rs`).

  A window needs its display and its protocol object BEFORE Android has launched the activity, and
  its task identity only afterwards.  The registry therefore hands out the two numbers first, from
  two counters that never go back, and binds the task later.  Two maps describe the live windows:
  `registrations` by object and `tasks` by task; each of the seven operations touches both, one or
  none of them, and the invariant is that they describe the same windows.
-/
import Droidloom.Graphics.Composer

namespace Droidloom.Graphics

open Std Fallible

def MAX_EXTERNAL_ID : UInt64 := 0x7fffffffffffffff

inductive TaskRegistrationPhase
  | reserved
  | staged
  | connected
  | bound
  | removing
deriving DecidableEq, Repr

structure TaskRegistration where
  object : TaskObjectId
  reservation : ReservedTaskWindowSpec
  task : Option TaskId
  androidDisplay : Option UInt32
  phase : TaskRegistrationPhase
deriving DecidableEq, Repr

inductive TaskControlError
  | taskLimit
  | duplicateTask (task : TaskId)
  | unknownObject (object : TaskObjectId)
  | unknownTask (task : TaskId)
  | invalidPhase (object : TaskObjectId) (actual requested : TaskRegistrationPhase)
  | identifierExhausted
  | invalidSpec (error : TaskWindowError)
deriving DecidableEq, Repr

structure TaskControlRegistry where
  registrations : ExtTreeMap TaskObjectId TaskRegistration compare := ∅
  tasks : ExtTreeMap TaskId TaskObjectId compare := ∅
  nextDisplay : Option UInt64 := some 1
  nextObject : Option UInt64 := some 1

namespace TaskControlRegistry

abbrev Method := EStateM TaskControlError TaskControlRegistry

/-! ## The operations -/

def withFirstIds (firstDisplay firstObject : UInt64) :
    Except TaskControlError TaskControlRegistry := do
  rejectIf (¬ (1 ≤ firstDisplay ∧ firstDisplay ≤ MAX_EXTERNAL_ID) ∨
      ¬ (1 ≤ firstObject ∧ firstObject ≤ MAX_EXTERNAL_ID)) .identifierExhausted
  return { nextDisplay := some firstDisplay, nextObject := some firstObject }

def nextExternalId (current : UInt64) : Option UInt64 :=
  (checkedSucc current).filter (· ≤ MAX_EXTERNAL_ID)

/-- A registration as `reserve` creates it. -/
def freshRegistration (object : TaskObjectId) (display : DisplayId) (package : String) :
    TaskRegistration where
  object
  reservation := { display, package }
  task := none
  androidDisplay := none
  phase := .reserved

/-- A later cancellation consumes rather than reuses the two numbers. -/
def reserve (package : String) : Method TaskRegistration := do
  let r ← get
  rejectIf (r.registrations.size ≥ MAX_TASK_WINDOWS) .taskLimit
  let display ← okOr r.nextDisplay .identifierExhausted
  let object ← okOr r.nextObject .identifierExhausted
  let registration := freshRegistration object display package
  mapErr .invalidSpec registration.reservation.validate
  set { r with
    nextDisplay := nextExternalId display
    nextObject := nextExternalId object
    registrations := r.registrations.insert object registration }
  return registration

/-- The registration moved to another phase. -/
def moved (r : TaskControlRegistry) (object : TaskObjectId) (registration : TaskRegistration)
    (phase : TaskRegistrationPhase) : TaskControlRegistry :=
  { r with registrations := r.registrations.insert object { registration with phase } }

def transition (object : TaskObjectId) (expected requested : TaskRegistrationPhase) :
    Method Unit := do
  let r ← get
  let registration ← okOr r.registrations[object]? (.unknownObject object)
  rejectIf (registration.phase ≠ expected) (.invalidPhase object registration.phase requested)
  set (r.moved object registration requested)

def markStaged (object : TaskObjectId) : Method Unit := transition object .reserved .staged

def markConnected (object : TaskObjectId) : Method Unit := transition object .staged .connected

/-- The registration with its Android identity. -/
def bound (registration : TaskRegistration) (task : TaskId) (androidDisplay : UInt32) :
    TaskRegistration :=
  { registration with
    task := some task, androidDisplay := some androidDisplay, phase := .bound }

def bindTask (object : TaskObjectId) (task : TaskId) (androidDisplay : UInt32) :
    Method TaskWindowSpec := do
  let r ← get
  rejectIf (task = 0) (.invalidSpec .invalidTask)
  rejectIf (task ∈ r.tasks) (.duplicateTask task)
  let registration ← okOr r.registrations[object]? (.unknownObject object)
  rejectIf (registration.phase ≠ .connected) (.invalidPhase object registration.phase .bound)
  set { r with
    registrations := r.registrations.insert object (bound registration task androidDisplay)
    tasks := r.tasks.insert task object }
  return {
    task
    display := registration.reservation.display
    package := registration.reservation.package }

def beginRemoval (object : TaskObjectId) : Method Unit := do
  let r ← get
  let registration ← okOr r.registrations[object]? (.unknownObject object)
  rejectIf (registration.phase = .reserved ∨ registration.phase = .removing)
    (.invalidPhase object registration.phase .removing)
  set (r.moved object registration .removing)

/-- The registry without a window. -/
def removed (r : TaskControlRegistry) (object : TaskObjectId) (registration : TaskRegistration) :
    TaskControlRegistry :=
  { r with
    registrations := r.registrations.erase object
    tasks := registration.task.elim r.tasks fun task => r.tasks.erase task }

def removeInPhase (object : TaskObjectId) (expected : TaskRegistrationPhase) :
    Method TaskRegistration := do
  let r ← get
  let registration ← okOr r.registrations[object]? (.unknownObject object)
  rejectIf (registration.phase ≠ expected) (.invalidPhase object registration.phase expected)
  set (r.removed object registration)
  return registration

def cancelReservation (object : TaskObjectId) : Method TaskRegistration :=
  removeInPhase object .reserved

def finishRemoval (object : TaskObjectId) : Method TaskRegistration :=
  removeInPhase object .removing

def lookup (r : TaskControlRegistry) (object : TaskObjectId) :
    Except TaskControlError TaskRegistration :=
  okOr r.registrations[object]? (.unknownObject object)

/-! ## What each operation can do -/

variable {r : TaskControlRegistry}

theorem reserve_spec {package : String} :
    Atomic (reserve package) r fun registration r' =>
      ∃ display object, r.nextDisplay = some display ∧ r.nextObject = some object ∧
        registration = freshRegistration object display package ∧
        r' = { r with
          nextDisplay := nextExternalId display
          nextObject := nextExternalId object
          registrations := r.registrations.insert object registration } :=
  atomic_get_bind (atomic_rejectIf_bind fun _ => atomic_okOr_bind fun display hd =>
    atomic_okOr_bind fun object ho => atomic_mapErr_bind fun _ _ =>
    atomic_set_pure ⟨display, object, hd, ho, rfl, rfl⟩)

theorem transition_spec {object : TaskObjectId} {expected requested : TaskRegistrationPhase} :
    Atomic (transition object expected requested) r fun _ r' =>
      ∃ registration, r.registrations[object]? = some registration ∧
        registration.phase = expected ∧ r' = r.moved object registration requested :=
  atomic_get_bind (atomic_okOr_bind fun registration hr => atomic_rejectIf_bind fun hp =>
    atomic_set ⟨registration, hr, not_not.mp hp, rfl⟩)

theorem bindTask_spec {object : TaskObjectId} {task : TaskId} {androidDisplay : UInt32} :
    Atomic (bindTask object task androidDisplay) r fun _ r' =>
      ∃ registration, r.registrations[object]? = some registration ∧ task ∉ r.tasks ∧
        registration.phase = .connected ∧
        r' = { r with
          registrations := r.registrations.insert object (bound registration task androidDisplay)
          tasks := r.tasks.insert task object } :=
  atomic_get_bind (atomic_rejectIf_bind fun _ => atomic_rejectIf_bind fun ht =>
    atomic_okOr_bind fun registration hr => atomic_rejectIf_bind fun hp =>
    atomic_set_pure ⟨registration, hr, ht, not_not.mp hp, rfl⟩)

theorem beginRemoval_spec {object : TaskObjectId} :
    Atomic (beginRemoval object) r fun _ r' =>
      ∃ registration, r.registrations[object]? = some registration ∧
        registration.phase ≠ .reserved ∧ r' = r.moved object registration .removing :=
  atomic_get_bind (atomic_okOr_bind fun registration hr => atomic_rejectIf_bind fun hp =>
    atomic_set ⟨registration, hr, (not_or.mp hp).1, rfl⟩)

theorem removeInPhase_spec {object : TaskObjectId} {expected : TaskRegistrationPhase} :
    Atomic (removeInPhase object expected) r fun registration r' =>
      r.registrations[object]? = some registration ∧ registration.phase = expected ∧
        r' = r.removed object registration :=
  atomic_get_bind (atomic_okOr_bind fun _ hr => atomic_rejectIf_bind fun hp =>
    atomic_set_pure ⟨hr, not_not.mp hp, rfl⟩)

/-! ## A counter that never goes back -/

/-- `ids` were issued, in this order, by a counter that will issue `next`. -/
structure Issued (next : Option UInt64) (ids : List UInt64) : Prop where
  rising : ids.Pairwise (· < ·)
  bounded : ∀ id ∈ ids, id ≤ MAX_EXTERNAL_ID
  ahead : ∀ n, next = some n → n ≤ MAX_EXTERNAL_ID ∧ ∀ id ∈ ids, id < n

theorem Issued.issue {id : UInt64} {ids : List UInt64} (h : Issued (some id) ids) :
    Issued (nextExternalId id) (ids ++ [id]) := by
  obtain ⟨hle, hlt⟩ := h.ahead id rfl
  refine ⟨?_, ?_, ?_⟩
  · refine List.pairwise_append.mpr ⟨h.rising, List.pairwise_singleton _ _, ?_⟩
    intro old hold last hlast
    obtain rfl := List.mem_singleton.mp hlast
    exact hlt old hold
  · intro old hold
    rcases List.mem_append.mp hold with hold | hold
    · exact h.bounded old hold
    · obtain rfl := List.mem_singleton.mp hold
      exact hle
  · intro n hn
    obtain ⟨hsucc, hmax⟩ := Option.filter_eq_some_iff.mp hn
    have hnext : id < n := lt_of_checkedSucc hsucc
    refine ⟨of_decide_eq_true hmax, fun old hold => ?_⟩
    rcases List.mem_append.mp hold with hold | hold
    · exact UInt64.lt_trans (hlt old hold) hnext
    · obtain rfl := List.mem_singleton.mp hold
      exact hnext

/-! ## The two maps describe the same windows -/

structure Coherent (r : TaskControlRegistry) : Prop where
  keyed : ∀ (object : TaskObjectId) (registration : TaskRegistration),
    r.registrations[object]? = some registration → registration.object = object
  tasks_iff : ∀ (task : TaskId) (object : TaskObjectId), r.tasks[task]? = some object ↔
    ∃ registration, r.registrations[object]? = some registration ∧
      registration.task = some task
  bound_identity : ∀ (object : TaskObjectId) (registration : TaskRegistration),
    r.registrations[object]? = some registration → registration.phase = .bound →
      registration.task.isSome ∧ registration.androidDisplay.isSome
  /-- A task is bound once: before `bind_task` there is none. -/
  task_phase : ∀ (object : TaskObjectId) (registration : TaskRegistration),
    r.registrations[object]? = some registration → registration.task.isSome →
      registration.phase = .bound ∨ registration.phase = .removing

namespace Coherent

variable {object : TaskObjectId} {registration : TaskRegistration}

/-- No two live registrations share a task. -/
theorem task_unique (h : Coherent r) {first second : TaskObjectId}
    {reg reg' : TaskRegistration} {task : TaskId} (hfirst : r.registrations[first]? = some reg)
    (hsecond : r.registrations[second]? = some reg') (htask : reg.task = some task)
    (htask' : reg'.task = some task) : first = second := by
  have h1 := (h.tasks_iff task first).mpr ⟨reg, hfirst, htask⟩
  have h2 := (h.tasks_iff task second).mpr ⟨reg', hsecond, htask'⟩
  exact Option.some.inj (h1.symm.trans h2)

theorem unbound (h : Coherent r) (hr : r.registrations[object]? = some registration)
    (hbound : registration.phase ≠ .bound) (hremoving : registration.phase ≠ .removing) :
    registration.task = none := by
  rcases ht : registration.task with _ | task
  · rfl
  · rcases h.task_phase object registration hr (by simp [ht]) with hp | hp
    · exact absurd hp hbound
    · exact absurd hp hremoving

theorem reserve (h : Coherent r) {display : DisplayId} {package : String}
    {nextDisplay nextObject : Option UInt64} (hfresh : r.registrations[object]? = none) :
    Coherent { r with
      nextDisplay, nextObject,
      registrations := r.registrations.insert object
        (freshRegistration object display package) } := by
  have hget (o : TaskObjectId) (reg : TaskRegistration) :
      (r.registrations.insert object (freshRegistration object display package))[o]? =
        some reg ↔ (o = object ∧ reg = freshRegistration object display package) ∨
          (o ≠ object ∧ r.registrations[o]? = some reg) := by grind
  refine ⟨?_, ?_, ?_, ?_⟩
  · intro o reg hreg
    rcases (hget o reg).mp hreg with ⟨rfl, rfl⟩ | ⟨-, hold⟩
    · rfl
    · exact h.keyed o reg hold
  · intro task o
    rw [h.tasks_iff]
    constructor
    · rintro ⟨reg, hreg, ht⟩
      have hne : o ≠ object := fun he => by rw [he, hfresh] at hreg; cases hreg
      exact ⟨reg, (hget o reg).mpr (.inr ⟨hne, hreg⟩), ht⟩
    · rintro ⟨reg, hreg, ht⟩
      rcases (hget o reg).mp hreg with ⟨-, rfl⟩ | ⟨-, hold⟩
      · cases ht
      · exact ⟨reg, hold, ht⟩
  · intro o reg hreg hp
    rcases (hget o reg).mp hreg with ⟨-, rfl⟩ | ⟨-, hold⟩
    · cases hp
    · exact h.bound_identity o reg hold hp
  · intro o reg hreg ht
    rcases (hget o reg).mp hreg with ⟨-, rfl⟩ | ⟨-, hold⟩
    · cases ht
    · exact h.task_phase o reg hold ht

/-- A phase change keeps the task; it may leave `bound` but not enter it. -/
theorem moved (h : Coherent r) (hr : r.registrations[object]? = some registration)
    {phase : TaskRegistrationPhase} (hbound : phase ≠ .bound)
    (htask : phase = .removing ∨ registration.task = none) :
    Coherent (r.moved object registration phase) := by
  have hget (o : TaskObjectId) (reg : TaskRegistration) :
      (r.moved object registration phase).registrations[o]? = some reg ↔
        (o = object ∧ reg = { registration with phase }) ∨
          (o ≠ object ∧ r.registrations[o]? = some reg) := by
    simp only [TaskControlRegistry.moved]
    grind
  refine ⟨?_, ?_, ?_, ?_⟩
  · intro o reg hreg
    rcases (hget o reg).mp hreg with ⟨rfl, rfl⟩ | ⟨-, hold⟩
    · exact h.keyed o registration hr
    · exact h.keyed o reg hold
  · intro task o
    refine (h.tasks_iff task o).trans ⟨?_, ?_⟩
    · rintro ⟨reg, hreg, ht⟩
      by_cases he : o = object
      · subst he
        obtain rfl := Option.some.inj (hr.symm.trans hreg)
        exact ⟨_, (hget o _).mpr (.inl ⟨rfl, rfl⟩), ht⟩
      · exact ⟨reg, (hget o reg).mpr (.inr ⟨he, hreg⟩), ht⟩
    · rintro ⟨reg, hreg, ht⟩
      rcases (hget o reg).mp hreg with ⟨rfl, rfl⟩ | ⟨-, hold⟩
      · exact ⟨registration, hr, ht⟩
      · exact ⟨reg, hold, ht⟩
  · intro o reg hreg hp
    rcases (hget o reg).mp hreg with ⟨-, rfl⟩ | ⟨-, hold⟩
    · exact absurd hp hbound
    · exact h.bound_identity o reg hold hp
  · intro o reg hreg ht
    rcases (hget o reg).mp hreg with ⟨-, rfl⟩ | ⟨-, hold⟩
    · rcases htask with hp | hnone
      · exact .inr hp
      · rw [hnone] at ht
        cases ht
    · exact h.task_phase o reg hold ht

theorem bindTask (h : Coherent r) (hr : r.registrations[object]? = some registration)
    {task : TaskId} {androidDisplay : UInt32} (hfree : task ∉ r.tasks)
    (hphase : registration.phase = .connected) :
    Coherent { r with
      registrations := r.registrations.insert object (bound registration task androidDisplay)
      tasks := r.tasks.insert task object } := by
  have hnone : registration.task = none := h.unbound hr (by simp [hphase]) (by simp [hphase])
  have hget (o : TaskObjectId) (reg : TaskRegistration) :
      (r.registrations.insert object (bound registration task androidDisplay))[o]? = some reg ↔
        (o = object ∧ reg = bound registration task androidDisplay) ∨
          (o ≠ object ∧ r.registrations[o]? = some reg) := by grind
  refine ⟨?_, ?_, ?_, ?_⟩
  · intro o reg hreg
    rcases (hget o reg).mp hreg with ⟨rfl, rfl⟩ | ⟨-, hold⟩
    · exact h.keyed o registration hr
    · exact h.keyed o reg hold
  · intro other o
    have hfree' : r.tasks[task]? = none := by grind
    constructor
    · intro hother
      by_cases ht : other = task
      · subst ht
        have ho : o = object := by grind
        subst ho
        exact ⟨_, (hget o _).mpr (.inl ⟨rfl, rfl⟩), rfl⟩
      · have hold : r.tasks[other]? = some o := by grind
        obtain ⟨reg, hreg, htask⟩ := (h.tasks_iff other o).mp hold
        have hne : o ≠ object := by
          rintro rfl
          obtain rfl := Option.some.inj (hr.symm.trans hreg)
          rw [hnone] at htask
          cases htask
        exact ⟨reg, (hget o reg).mpr (.inr ⟨hne, hreg⟩), htask⟩
    · rintro ⟨reg, hreg, htask⟩
      rcases (hget o reg).mp hreg with ⟨rfl, rfl⟩ | ⟨hne, hold⟩
      · obtain rfl := Option.some.inj htask
        grind
      · have hmap := (h.tasks_iff other o).mpr ⟨reg, hold, htask⟩
        have hne' : other ≠ task := by
          rintro rfl
          rw [hfree'] at hmap
          cases hmap
        grind
  · intro o reg hreg hp
    rcases (hget o reg).mp hreg with ⟨-, rfl⟩ | ⟨-, hold⟩
    · exact ⟨rfl, rfl⟩
    · exact h.bound_identity o reg hold hp
  · intro o reg hreg ht
    rcases (hget o reg).mp hreg with ⟨-, rfl⟩ | ⟨-, hold⟩
    · exact .inl rfl
    · exact h.task_phase o reg hold ht

theorem removed (h : Coherent r) (hr : r.registrations[object]? = some registration) :
    Coherent (r.removed object registration) := by
  have hget (o : TaskObjectId) (reg : TaskRegistration) :
      (r.removed object registration).registrations[o]? = some reg ↔
        o ≠ object ∧ r.registrations[o]? = some reg := by
    simp only [TaskControlRegistry.removed]
    grind
  refine ⟨?_, ?_, ?_, ?_⟩
  · exact fun o reg hreg => h.keyed o reg ((hget o reg).mp hreg).2
  · intro other o
    -- the task map loses the one entry that named this object
    have htasks : (r.removed object registration).tasks[other]? = some o ↔
        registration.task ≠ some other ∧ r.tasks[other]? = some o := by
      simp only [TaskControlRegistry.removed]
      cases registration.task with
      | none => simp
      | some task =>
        simp only [Option.elim]
        grind
    rw [htasks, h.tasks_iff]
    constructor
    · rintro ⟨hne, reg, hreg, htask⟩
      refine ⟨reg, (hget o reg).mpr ⟨?_, hreg⟩, htask⟩
      rintro rfl
      obtain rfl := Option.some.inj (hr.symm.trans hreg)
      exact hne htask
    · rintro ⟨reg, hreg, htask⟩
      obtain ⟨hne, hold⟩ := (hget o reg).mp hreg
      exact ⟨fun he => hne (h.task_unique hold hr htask he), reg, hold, htask⟩
  · exact fun o reg hreg hp => h.bound_identity o reg ((hget o reg).mp hreg).2 hp
  · exact fun o reg hreg ht => h.task_phase o reg ((hget o reg).mp hreg).2 ht

end Coherent

/-! ## Whole runs -/

inductive Operation
  | reserve (package : String)
  | markStaged (object : TaskObjectId)
  | markConnected (object : TaskObjectId)
  | bindTask (object : TaskObjectId) (task : TaskId) (androidDisplay : UInt32)
  | beginRemoval (object : TaskObjectId)
  | cancelReservation (object : TaskObjectId)
  | finishRemoval (object : TaskObjectId)

/-- One call; the result is the registration that it hands out, if it hands one out. -/
def perform : Operation → Method (Option TaskRegistration)
  | .reserve package => some <$> reserve package
  | .markStaged object => (fun _ => none) <$> markStaged object
  | .markConnected object => (fun _ => none) <$> markConnected object
  | .bindTask object task androidDisplay =>
    (fun _ => none) <$> bindTask object task androidDisplay
  | .beginRemoval object => (fun _ => none) <$> beginRemoval object
  | .cancelReservation object => (fun _ => none) <$> cancelReservation object
  | .finishRemoval object => (fun _ => none) <$> finishRemoval object

/-- The registry after a call, next to the registrations handed out so far. -/
def execute (state : TaskControlRegistry × List TaskRegistration) (op : Operation) :
    TaskControlRegistry × List TaskRegistration :=
  match perform op state.1 with
  | .ok issued r => (r, state.2 ++ issued.toList)
  | .error _ r => (r, state.2)

def run (r : TaskControlRegistry) (ops : List Operation) :
    TaskControlRegistry × List TaskRegistration :=
  ops.foldl execute (r, [])

structure Audited (r : TaskControlRegistry) (issued : List TaskRegistration) : Prop where
  coherent : Coherent r
  objects : Issued r.nextObject (issued.map (·.object))
  displays : Issued r.nextDisplay (issued.map (·.reservation.display))
  live : ∀ object, object ∈ r.registrations → object ∈ issued.map (·.object)

/-- Operations other than `reserve` leave the counters alone and create no registration. -/
theorem Audited.keep {issued : List TaskRegistration} {r' : TaskControlRegistry}
    (h : Audited r issued) (hcoherent : Coherent r') (hobject : r'.nextObject = r.nextObject)
    (hdisplay : r'.nextDisplay = r.nextDisplay)
    (hlive : ∀ object, object ∈ r'.registrations → object ∈ r.registrations) :
    Audited r' (issued ++ (none : Option TaskRegistration).toList) := by
  rw [Option.toList_none, List.append_nil]
  exact ⟨hcoherent, hobject ▸ h.objects, hdisplay ▸ h.displays,
    fun object ho => h.live object (hlive object ho)⟩

/-- **One call**: it fails and changes nothing, or keeps the registry audited. -/
theorem Audited.perform {issued : List TaskRegistration} (h : Audited r issued)
    (op : Operation) :
    Atomic (perform op) r fun handed r' => Audited r' (issued ++ handed.toList) := by
  have htransition (object : TaskObjectId) {expected requested : TaskRegistrationPhase}
      (hexpected : expected ≠ .bound ∧ expected ≠ .removing) (hrequested : requested ≠ .bound) :
      Atomic ((fun _ => none) <$> transition object expected requested) r fun handed r' =>
        Audited r' (issued ++ (handed : Option TaskRegistration).toList) := by
    refine atomic_map (transition_spec.mono fun _ r' hspec => ?_)
    obtain ⟨registration, hr, rfl, rfl⟩ := hspec
    have hnone := h.coherent.unbound hr hexpected.1 hexpected.2
    refine h.keep (h.coherent.moved hr hrequested (.inr hnone)) rfl rfl fun o ho => ?_
    simp only [moved] at ho
    grind
  have hremove (object : TaskObjectId) (expected : TaskRegistrationPhase) :
      Atomic ((fun _ => none) <$> removeInPhase object expected) r fun handed r' =>
        Audited r' (issued ++ (handed : Option TaskRegistration).toList) := by
    refine atomic_map (removeInPhase_spec.mono fun registration r' hspec => ?_)
    obtain ⟨hr, -, rfl⟩ := hspec
    refine h.keep (h.coherent.removed hr) rfl rfl fun o ho => ?_
    simp only [removed] at ho
    grind
  cases op with
  | reserve package =>
    refine atomic_map (reserve_spec.mono fun registration r' hspec => ?_)
    obtain ⟨display, object, hdisplay, hobject, rfl, rfl⟩ := hspec
    have hobjects : Issued (some object) (issued.map (·.object)) := hobject ▸ h.objects
    have hdisplays : Issued (some display) (issued.map (·.reservation.display)) :=
      hdisplay ▸ h.displays
    -- every live object was issued, hence lies below the counter
    have hfresh : r.registrations[object]? = none := by
      by_contra hne
      have hmem : object ∈ r.registrations := by grind
      exact UInt64.lt_irrefl _ ((hobjects.ahead object rfl).2 object (h.live object hmem))
    refine ⟨h.coherent.reserve hfresh, ?_, ?_, ?_⟩
    · rw [List.map_append]
      exact hobjects.issue
    · rw [List.map_append]
      exact hdisplays.issue
    · intro o ho
      rw [List.map_append, List.mem_append]
      by_cases he : o = object
      · exact .inr (by simp [he, freshRegistration])
      · exact .inl (h.live o (by grind))
  | markStaged object => exact htransition object (by decide) (by decide)
  | markConnected object => exact htransition object (by decide) (by decide)
  | bindTask object task androidDisplay =>
    refine atomic_map (bindTask_spec.mono fun _ r' hspec => ?_)
    obtain ⟨registration, hr, hfree, hphase, rfl⟩ := hspec
    exact h.keep (h.coherent.bindTask hr hfree hphase) rfl rfl fun o ho => by grind
  | beginRemoval object =>
    refine atomic_map (beginRemoval_spec.mono fun _ r' hspec => ?_)
    obtain ⟨registration, hr, -, rfl⟩ := hspec
    refine h.keep (h.coherent.moved hr (by decide) (.inl rfl)) rfl rfl fun o ho => ?_
    simp only [moved] at ho
    grind
  | cancelReservation object => exact hremove object .reserved
  | finishRemoval object => exact hremove object .removing

theorem Audited.execute {state : TaskControlRegistry × List TaskRegistration}
    (h : Audited state.1 state.2) (op : Operation) :
    Audited (execute state op).1 (execute state op).2 := by
  have hop := h.perform op
  unfold TaskControlRegistry.execute
  cases hrun : TaskControlRegistry.perform op state.1 with
  | ok handed r' => exact hop.of_ok hrun
  | error e r' =>
    obtain rfl := hop.of_error hrun
    exact h

theorem Audited.run {first : TaskControlRegistry} (h : Audited first []) (ops : List Operation) :
    Audited (run first ops).1 (run first ops).2 := by
  have hfold : ∀ (ops : List Operation) (state : TaskControlRegistry × List TaskRegistration),
      Audited state.1 state.2 →
        Audited (ops.foldl TaskControlRegistry.execute state).1
          (ops.foldl TaskControlRegistry.execute state).2 := by
    intro ops
    induction ops with
    | nil => exact fun _ hs => hs
    | cons op ops ih => exact fun state hs => ih _ (hs.execute op)
  exact hfold ops (first, []) h

theorem audited_withFirstIds {firstDisplay firstObject : UInt64} {first : TaskControlRegistry}
    (hfirst : withFirstIds firstDisplay firstObject = .ok first) : Audited first [] := by
  simp only [withFirstIds, bind_eq_ok, rejectIf_eq_ok, pure_eq_ok, not_or, not_not] at hfirst
  obtain ⟨-, ⟨⟨-, hd⟩, -, ho⟩, rfl⟩ := hfirst
  have hnone (object : TaskObjectId) :
      (∅ : ExtTreeMap TaskObjectId TaskRegistration compare)[object]? = none := by grind
  refine ⟨⟨?_, ?_, ?_, ?_⟩, ⟨.nil, by simp, ?_⟩, ⟨.nil, by simp, ?_⟩, by grind⟩
  · intro object registration hr
    rw [hnone] at hr
    cases hr
  · intro task object
    simp only [hnone]
    grind
  · intro object registration hr
    rw [hnone] at hr
    cases hr
  · intro object registration hr
    rw [hnone] at hr
    cases hr
  · rintro n ⟨⟩
    exact ⟨ho, by simp⟩
  · rintro n ⟨⟩
    exact ⟨hd, by simp⟩

/-- **Identities of the registry.**  Along every run the objects and the displays handed out are
    strictly increasing and at most `i64::MAX`; the task map is exactly the set of pairs of a live
    registration's task and object, so no task is shared; a bound registration has a task and an
    Android display; and a call that fails changes nothing. -/
theorem registry_identities {firstDisplay firstObject : UInt64} {first : TaskControlRegistry}
    (hfirst : withFirstIds firstDisplay firstObject = .ok first) (ops : List Operation) :
    ((run first ops).2.map (·.object)).Pairwise (· < ·) ∧
    ((run first ops).2.map (·.reservation.display)).Pairwise (· < ·) ∧
    (∀ registration ∈ (run first ops).2, registration.object ≤ MAX_EXTERNAL_ID ∧
      registration.reservation.display ≤ MAX_EXTERNAL_ID) ∧
    (∀ (task : TaskId) (object : TaskObjectId), (run first ops).1.tasks[task]? = some object ↔
      ∃ registration, (run first ops).1.registrations[object]? = some registration ∧
        registration.object = object ∧ registration.task = some task) ∧
    (∀ (o o' : TaskObjectId) (registration registration' : TaskRegistration) (task : TaskId),
      (run first ops).1.registrations[o]? = some registration →
      (run first ops).1.registrations[o']? = some registration' →
      registration.task = some task → registration'.task = some task → o = o') ∧
    (∀ (object : TaskObjectId) (registration : TaskRegistration),
      (run first ops).1.registrations[object]? = some registration →
      registration.phase = .bound →
        registration.task.isSome ∧ registration.androidDisplay.isSome) ∧
    ∀ (op : Operation) (e : TaskControlError) (r' : TaskControlRegistry),
      perform op (run first ops).1 = .error e r' → r' = (run first ops).1 := by
  have h := (audited_withFirstIds hfirst).run ops
  refine ⟨h.objects.rising, h.displays.rising, ?_, ?_, ?_, h.coherent.bound_identity, ?_⟩
  · intro registration hmem
    exact ⟨h.objects.bounded _ (List.mem_map_of_mem hmem),
      h.displays.bounded _ (List.mem_map_of_mem hmem)⟩
  · intro task object
    rw [h.coherent.tasks_iff]
    constructor
    · rintro ⟨registration, hr, ht⟩
      exact ⟨registration, hr, h.coherent.keyed object registration hr, ht⟩
    · rintro ⟨registration, hr, -, ht⟩
      exact ⟨registration, hr, ht⟩
  · intro o o' registration registration' task hr hr' ht ht'
    exact h.coherent.task_unique hr hr' ht ht'
  · intro op e r' hrun
    exact (h.perform op).of_error hrun

/-- The default registry, two windows of which the first is cancelled. -/
theorem registry_identities_default :
    withFirstIds 1 1 = .ok {} ∧
    ((run {} [.reserve "a", .cancelReservation 1, .reserve "b"]).2.map (·.object)).Pairwise
      (· < ·) :=
  ⟨rfl, (@registry_identities 1 1 {} rfl
    [.reserve "a", .cancelReservation 1, .reserve "b"]).1⟩

end TaskControlRegistry

end Droidloom.Graphics
