/-
  The task map of a window set, over whole runs.

  A window set holds the windows of a session under their displays, and beside them a map from
  Android tasks to displays.  The two are kept apart by hand: `bind_task` writes both, `create`
  reserves, binds and rolls back on one of them only, `remove` goes through the second to the first.

  `Outcome` lists what an operation can leave behind; `Mapped` is the invariant: the task map is
  exactly what the stored specs say.  Each outcome keeps it (`Outcome.mapped`), and an operation
  that fails leaves the set as it was (`Operation.atomic`); `mapping_kept` assembles both for a run.
-/
import Droidloom.Graphics.Composer

namespace Droidloom.Graphics

open Fallible Triple
open Std (ExtTreeMap)

namespace TaskWindowSet

/-! ## Operations and runs -/

inductive Operation
  | create (spec : TaskWindowSpec)
  | reserve (reservation : ReservedTaskWindowSpec)
  | bindTask (display : DisplayId) (task : TaskId)
  | remove (task : TaskId)
  | removeDisplay (display : DisplayId)
  /-- Any call on the Composer of a display: presents, releases and everything else. -/
  | onDisplay (display : DisplayId) (x : Composer.Method Unit)
  /-- Any call on the Composer of a task. -/
  | onTask (task : TaskId) (x : Composer.Method Unit)

def Operation.perform : Operation → Method Unit
  | .create spec => TaskWindowSet.create spec
  | .reserve reservation => TaskWindowSet.reserve reservation
  | .bindTask display task => do let _ ← TaskWindowSet.bindTask display task
  | .remove task => do let _ ← TaskWindowSet.remove task
  | .removeDisplay display => do let _ ← TaskWindowSet.removeDisplay display
  | .onDisplay display x => borrow display x
  | .onTask task x => borrowFor task x

/-- The set after a list of operations, failed ones included. -/
def run (operations : List Operation) : TaskWindowSet :=
  operations.foldl (fun s operation => final operation.perform s) {}

/-! ## The invariant -/

structure Mapped (s : TaskWindowSet) : Prop where
  tasks_iff : ∀ (task : TaskId) (display : DisplayId), s.tasks[task]? = some display ↔
    ∃ (window : TaskWindow) (spec : TaskWindowSpec), s.windows[display]? = some window ∧
      window.spec = some spec ∧ spec.task = task
  reserved : ∀ (display : DisplayId) (window : TaskWindow), s.windows[display]? = some window →
    window.reservation.display = display
  bound : ∀ (display : DisplayId) (window : TaskWindow) (spec : TaskWindowSpec),
    s.windows[display]? = some window → window.spec = some spec →
    spec.display = display ∧ spec.package = window.reservation.package

theorem mapped_empty : Mapped {} where
  tasks_iff := by simp
  reserved := by simp
  bound := by simp

variable {s s' : TaskWindowSet}

/-- A task that the map does not have is in no spec. -/
theorem Mapped.fresh (h : Mapped s) {task : TaskId} (htask : task ∉ s.tasks) {display : DisplayId}
    {window : TaskWindow} {spec : TaskWindowSpec} (hw : s.windows[display]? = some window)
    (hspec : window.spec = some spec) : spec.task ≠ task := by
  intro heq
  have hmap := (h.tasks_iff task display).mpr ⟨window, spec, hw, hspec, heq⟩
  exact htask (ExtTreeMap.mem_iff_isSome_getElem?.mpr (by simp [hmap]))

/-- Two windows never carry one task. -/
theorem Mapped.display_unique (h : Mapped s) {d d' : DisplayId} {w v : TaskWindow}
    {spec spec' : TaskWindowSpec} (hw : s.windows[d]? = some w) (hspec : w.spec = some spec)
    (hv : s.windows[d']? = some v) (hspec' : v.spec = some spec') (htask : spec.task = spec'.task) :
    d = d' := by
  have hd := (h.tasks_iff spec'.task d).mpr ⟨w, spec, hw, hspec, htask⟩
  have hd' := (h.tasks_iff spec'.task d').mpr ⟨v, spec', hv, hspec', rfl⟩
  exact Option.some.inj (hd.symm.trans hd')

/-! ## One change at a time -/

theorem put_self {display : DisplayId} {window : TaskWindow} :
    (s.put display window).windows[display]? = some window := by
  unfold put
  grind

theorem assigned_self {display : DisplayId} {window : TaskWindow} {task : TaskId} :
    (s.assigned display window task).windows[display]? = some { window with
      spec := some { task, display, package := window.reservation.package } } := by
  unfold assigned
  grind

theorem Mapped.staged (h : Mapped s) {reservation : ReservedTaskWindowSpec}
    (hfree : reservation.display ∉ s.windows) :
    Mapped (s.put reservation.display (staged reservation)) := by
  have hnone : s.windows[reservation.display]? = none := by grind
  have hother : ∀ display window, (s.put reservation.display
      (TaskWindowSet.staged reservation)).windows[display]? = some window →
      display = reservation.display ∧ window = TaskWindowSet.staged reservation ∨
        s.windows[display]? = some window := by
    intro display window hw
    unfold put at hw
    grind
  constructor
  case tasks_iff =>
    intro task display
    refine (h.tasks_iff task display).trans ⟨?_, ?_⟩
    · rintro ⟨window, spec, hw, hspec⟩
      have hne : display ≠ reservation.display := by rintro rfl; simp [hnone] at hw
      exact ⟨window, spec, by unfold put; grind, hspec⟩
    · rintro ⟨window, spec, hw, hspec, htask⟩
      rcases hother display window hw with ⟨-, rfl⟩ | hw
      -- the staged window has no task
      · cases hspec
      · exact ⟨window, spec, hw, hspec, htask⟩
  case reserved =>
    intro display window hw
    rcases hother display window hw with ⟨rfl, rfl⟩ | hw
    · rfl
    · exact h.reserved display window hw
  case bound =>
    intro display window spec hw hspec
    rcases hother display window hw with ⟨-, rfl⟩ | hw
    · cases hspec
    · exact h.bound display window spec hw hspec

/-- The invariant does not look at the Composer. -/
theorem Mapped.called (h : Mapped s) {display : DisplayId} {window : TaskWindow}
    (hw : s.windows[display]? = some window) (composer : Composer) :
    Mapped (s.put display { window with composer }) := by
  have hsame : ∀ (d : DisplayId) (v : TaskWindow),
      (s.put display { window with composer }).windows[d]? = some v →
      ∃ w : TaskWindow, s.windows[d]? = some w ∧ v.spec = w.spec ∧ v.reservation = w.reservation := by
    intro d v hv
    unfold put at hv
    by_cases hd : d = display
    · subst hd
      exact ⟨window, hw, by grind⟩
    · exact ⟨v, by grind⟩
  constructor
  case tasks_iff =>
    intro task d
    refine (h.tasks_iff task d).trans ⟨?_, ?_⟩
    · rintro ⟨w, spec, hd, hspec, htask⟩
      by_cases hne : d = display
      · subst hne
        obtain rfl := Option.some.inj (hw.symm.trans hd)
        exact ⟨_, spec, put_self, hspec, htask⟩
      · exact ⟨w, spec, by unfold put; grind, hspec, htask⟩
    · rintro ⟨v, spec, hv, hspec, htask⟩
      obtain ⟨w, hd, heq, -⟩ := hsame d v hv
      exact ⟨w, spec, hd, heq ▸ hspec, htask⟩
  case reserved =>
    intro d v hv
    obtain ⟨w, hd, -, heq⟩ := hsame d v hv
    exact heq ▸ h.reserved d w hd
  case bound =>
    intro d v spec hv hspec
    obtain ⟨w, hd, hs, hr⟩ := hsame d v hv
    exact hr ▸ h.bound d w spec hd (hs ▸ hspec)

theorem Mapped.assigned (h : Mapped s) {display : DisplayId} {window : TaskWindow} {task : TaskId}
    (hw : s.windows[display]? = some window) (hnone : window.spec = none)
    (hfree : task ∉ s.tasks) : Mapped (s.assigned display window task) := by
  have hother : ∀ d v, (s.assigned display window task).windows[d]? = some v →
      d = display ∧ v.reservation = window.reservation ∧
        v.spec = some { task, display, package := window.reservation.package } ∨
      d ≠ display ∧ s.windows[d]? = some v := by
    intro d v hv
    unfold TaskWindowSet.assigned at hv
    grind
  constructor
  case tasks_iff =>
    intro t d
    by_cases ht : t = task
    · subst ht
      have hmap : (s.assigned display window t).tasks[t]? = some display := by
        unfold TaskWindowSet.assigned
        grind
      rw [hmap, Option.some.injEq]
      constructor
      · rintro rfl
        exact ⟨_, _, assigned_self, rfl, rfl⟩
      · rintro ⟨v, spec, hv, hspec, htask⟩
        rcases hother d v hv with ⟨rfl, -⟩ | ⟨-, hold⟩
        · rfl
        · exact absurd htask (h.fresh hfree hold hspec)
    · have hmap : (s.assigned display window task).tasks[t]? = s.tasks[t]? := by
        unfold TaskWindowSet.assigned
        grind
      rw [hmap]
      refine (h.tasks_iff t d).trans ⟨?_, ?_⟩
      · rintro ⟨w, spec, hd, hspec, htask⟩
        -- the window that gets the task had none, so this is another one
        have hne : d ≠ display := by
          rintro rfl
          obtain rfl := Option.some.inj (hw.symm.trans hd)
          simp [hnone] at hspec
        exact ⟨w, spec, by unfold TaskWindowSet.assigned; grind, hspec, htask⟩
      · rintro ⟨v, spec, hv, hspec, htask⟩
        rcases hother d v hv with ⟨-, -, hnew⟩ | ⟨-, hold⟩
        · obtain rfl := Option.some.inj (hnew.symm.trans hspec)
          exact absurd htask.symm ht
        · exact ⟨v, spec, hold, hspec, htask⟩
  case reserved =>
    intro d v hv
    rcases hother d v hv with ⟨rfl, heq, -⟩ | ⟨-, hold⟩
    · exact heq ▸ h.reserved d window hw
    · exact h.reserved d v hold
  case bound =>
    intro d v spec hv hspec
    rcases hother d v hv with ⟨rfl, heq, hnew⟩ | ⟨-, hold⟩
    · obtain rfl := Option.some.inj (hnew.symm.trans hspec)
      exact ⟨rfl, heq ▸ rfl⟩
    · exact h.bound d v spec hold hspec

theorem Mapped.without (h : Mapped s) {display : DisplayId} {window : TaskWindow}
    (hw : s.windows[display]? = some window) : Mapped (s.without display window) := by
  have hwindows : ∀ d v, (s.without display window).windows[d]? = some v ↔
      d ≠ display ∧ s.windows[d]? = some v := by
    intro d v
    unfold TaskWindowSet.without
    grind
  constructor
  case tasks_iff =>
    intro task d
    have htasks : (s.without display window).tasks[task]? = some d ↔
        s.tasks[task]? = some d ∧ ∀ spec, window.spec = some spec → spec.task ≠ task := by
      unfold TaskWindowSet.without
      cases hspec : window.spec <;> grind
    rw [htasks, h.tasks_iff]
    constructor
    · rintro ⟨⟨w, spec, hd, hspec, htask⟩, hkept⟩
      refine ⟨w, spec, (hwindows d w).mpr ⟨?_, hd⟩, hspec, htask⟩
      rintro rfl
      obtain rfl := Option.some.inj (hw.symm.trans hd)
      exact hkept spec hspec htask
    · rintro ⟨v, spec, hv, hspec, htask⟩
      obtain ⟨hne, hold⟩ := (hwindows d v).mp hv
      refine ⟨⟨v, spec, hold, hspec, htask⟩, fun gone hgone heq => hne ?_⟩
      exact h.display_unique hold hspec hw hgone (htask.trans heq.symm)
  case reserved =>
    intro d v hv
    exact h.reserved d v ((hwindows d v).mp hv).2
  case bound =>
    intro d v spec hv hspec
    exact h.bound d v spec ((hwindows d v).mp hv).2 hspec

/-! ## What an operation can leave behind -/

inductive Outcome (s : TaskWindowSet) : TaskWindowSet → Prop
  | unchanged : Outcome s s
  | staged {reservation : ReservedTaskWindowSpec} (hfree : reservation.display ∉ s.windows) :
    Outcome s (s.put reservation.display (staged reservation))
  | assigned {display : DisplayId} {window : TaskWindow} {task : TaskId}
    (hw : s.windows[display]? = some window) (hnone : window.spec = none)
    (hfree : task ∉ s.tasks) : Outcome s (s.assigned display window task)
  | created {reservation : ReservedTaskWindowSpec} {task : TaskId}
    (hdisplay : reservation.display ∉ s.windows) (hfree : task ∉ s.tasks) :
    Outcome s ((s.put reservation.display (TaskWindowSet.staged reservation)).assigned
      reservation.display (TaskWindowSet.staged reservation) task)
  | called {display : DisplayId} {window : TaskWindow} (hw : s.windows[display]? = some window)
    (composer : Composer) : Outcome s (s.put display { window with composer })
  | removed {display : DisplayId} {window : TaskWindow} (hw : s.windows[display]? = some window)
    (hdrained : window.composer.inFlightCount = 0) : Outcome s (s.without display window)

theorem Outcome.mapped (h : Mapped s) : Outcome s s' → Mapped s'
  | .unchanged => h
  | .staged hfree => h.staged hfree
  | .assigned hw hnone hfree => h.assigned hw hnone hfree
  | .created hdisplay hfree => (h.staged hdisplay).assigned put_self rfl hfree
  | .called hw composer => h.called hw composer
  | .removed hw _ => h.without hw

/-- Every window is still there under its reservation, or had no frame in flight. -/
def Keeps (s s' : TaskWindowSet) : Prop :=
  ∀ (display : DisplayId) (window : TaskWindow), s.windows[display]? = some window →
    (∃ window' : TaskWindow, s'.windows[display]? = some window' ∧
      window'.reservation = window.reservation) ∨
    window.composer.inFlightCount = 0

theorem Outcome.keeps : Outcome s s' → Keeps s s' := by
  intro h display window hw
  cases h with
  | unchanged => exact .inl ⟨window, hw, rfl⟩
  | staged hfree => exact .inl ⟨window, by unfold put; grind, rfl⟩
  | @assigned d v task hv hnone hfree =>
    left
    by_cases hd : display = d
    · subst hd
      obtain rfl := Option.some.inj (hv.symm.trans hw)
      exact ⟨_, assigned_self, rfl⟩
    · exact ⟨window, by unfold TaskWindowSet.assigned; grind, rfl⟩
  | created hdisplay hfree =>
    exact .inl ⟨window, by unfold TaskWindowSet.assigned put; grind, rfl⟩
  | @called d v hv composer =>
    left
    by_cases hd : display = d
    · subst hd
      obtain rfl := Option.some.inj (hv.symm.trans hw)
      exact ⟨_, put_self, rfl⟩
    · exact ⟨window, by unfold put; grind, rfl⟩
  | @removed d v hv hdrained =>
    by_cases hd : display = d
    · subst hd
      obtain rfl := Option.some.inj (hv.symm.trans hw)
      exact .inr hdrained
    · exact .inl ⟨window, by unfold TaskWindowSet.without; grind, rfl⟩

/-! ## Every operation has one of the outcomes, or fails and changes nothing -/

theorem put_erase {display : DisplayId} (hfree : display ∉ s.windows) (window : TaskWindow) :
    { s.put display window with windows := (s.put display window).windows.erase display } = s := by
  have hwindows : (s.windows.insert display window).erase display = s.windows := by
    ext d v
    grind
  unfold put
  rw [hwindows]

/-- The rollback of a creation deletes what its reservation stored, and nothing else was stored. -/
theorem create_atomic (spec : TaskWindowSpec) :
    Atomic (create spec) s fun _ s' => Outcome s s' := by
  unfold create
  refine atomic_mapErr_bind fun _ _ => ?_
  unfold Atomic EStateM.run
  cases hreserve : TaskWindowSet.reserve { display := spec.display, package := spec.package } s with
  | error e s₁ =>
    rw [bind_run_error hreserve]
    exact reserve_spec.of_error hreserve
  | ok _ s₁ =>
    obtain ⟨hfree, rfl⟩ := reserve_spec.of_ok hreserve
    rw [bind_run_ok hreserve]
    set s₁ := s.put spec.display (staged { display := spec.display, package := spec.package })
    cases hbind : TaskWindowSet.bindTask spec.display spec.task s₁ with
    | error e s₂ =>
      obtain rfl := bindTask_spec.of_error hbind
      rw [bind_run_ok (attempt_error hbind)]
      exact put_erase hfree _
    | ok _ s₂ =>
      obtain ⟨htask, window, hw, hcase⟩ := bindTask_spec.of_ok hbind
      obtain rfl := Option.some.inj (put_self.symm.trans hw)
      rw [bind_run_ok (attempt_ok hbind)]
      rcases hcase with ⟨_, hsome, -⟩ | ⟨-, rfl⟩
      · cases hsome
      · exact .created hfree htask

/-- The window that the task map names carries a spec, so the second lookup of `remove` finds it
    and its last step cannot fail after the window is gone. -/
theorem remove_atomic (h : Mapped s) (task : TaskId) :
    Atomic (TaskWindowSet.remove task) s fun _ s' => Outcome s s' := by
  refine atomic_get_bind (atomic_okOr_bind fun display hd => atomic_okOr_bind fun window hw =>
    atomic_rejectIf_bind fun hcount => ?_)
  obtain ⟨v, spec, hv, hspec, -⟩ := (h.tasks_iff task display).mp hd
  obtain rfl := Option.some.inj (hw.symm.trans hv)
  unfold Atomic EStateM.run
  cases hrun : TaskWindowSet.removeDisplay display s with
  | error e s₁ =>
    rw [bind_run_error hrun]
    exact removeDisplay_spec.of_error hrun
  | ok gone s₁ =>
    obtain ⟨v, hv, hdrained, rfl, rfl⟩ := removeDisplay_spec.of_ok hrun
    obtain rfl := Option.some.inj (hw.symm.trans hv)
    rw [bind_run_ok hrun, hspec]
    exact .removed hw hdrained

theorem Operation.atomic (h : Mapped s) (operation : Operation) :
    Atomic operation.perform s fun _ s' => Outcome s s' := by
  cases operation with
  | create spec => exact create_atomic spec
  | reserve reservation =>
    refine reserve_spec.mono fun _ s' hs' => ?_
    obtain ⟨hfree, rfl⟩ := hs'
    exact .staged hfree
  | bindTask display task =>
    refine bindTask_spec.discard.mono fun _ s' hs' => ?_
    obtain ⟨_, hfree, window, hw, ⟨_, _, _, rfl⟩ | ⟨hnone, rfl⟩⟩ := hs'
    · exact .unchanged
    · exact .assigned hw hnone hfree
  | remove task =>
    exact (remove_atomic h task).discard.mono fun _ _ ⟨_, houtcome⟩ => houtcome
  | removeDisplay display =>
    refine removeDisplay_spec.discard.mono fun _ s' hs' => ?_
    obtain ⟨_, window, hw, hdrained, -, rfl⟩ := hs'
    exact .removed hw hdrained
  | onDisplay display x =>
    exact atomic_get_bind (atomic_okOr_bind fun window hw => atomic_set (.called hw _))
  | onTask task x =>
    exact atomic_get_bind (atomic_okOr_bind fun display _ => atomic_okOr_bind fun window hw =>
      atomic_set (.called hw _))

theorem Operation.outcome (h : Mapped s) (operation : Operation) :
    Outcome s (final operation.perform s) := by
  unfold final
  cases hrun : operation.perform s with
  | ok _ s' => exact (operation.atomic h).of_ok hrun
  | error _ s' => exact (operation.atomic h).of_error hrun ▸ .unchanged

theorem run_mapped (operations : List Operation) : Mapped (run operations) := by
  unfold run
  suffices hfrom : ∀ s, Mapped s →
      Mapped (operations.foldl (fun s operation => final operation.perform s) s) from
    hfrom {} mapped_empty
  induction operations with
  | nil => exact fun s h => h
  | cons operation rest ih => exact fun s h => ih _ ((operation.outcome h).mapped h)

/-- **The task map is what the windows say.**  After any operations: the task map holds exactly the
    tasks of the stored specs, each with its window's display, every spec is under its own display
    and has the reserved package; the next operation changes nothing when it fails, and takes away
    no window that has a frame in flight. -/
theorem mapping_kept (operations : List Operation) :
    (∀ (task : TaskId) (display : DisplayId), (run operations).tasks[task]? = some display ↔
      ∃ (window : TaskWindow) (spec : TaskWindowSpec), (run operations).windows[display]? = some window ∧
        window.spec = some spec ∧ spec.task = task) ∧
    (∀ (display : DisplayId) (window : TaskWindow) (spec : TaskWindowSpec),
      (run operations).windows[display]? = some window → window.spec = some spec →
      spec.display = display ∧ window.reservation.display = display ∧ spec.package = window.reservation.package) ∧
    ∀ operation : Operation,
      (∀ e s', operation.perform (run operations) = .error e s' → s' = run operations) ∧
      Keeps (run operations) (final operation.perform (run operations)) := by
  have h := run_mapped operations
  refine ⟨h.tasks_iff, fun display window spec hw hspec => ?_, fun operation => ⟨?_, ?_⟩⟩
  · obtain ⟨hdisplay, hpackage⟩ := h.bound display window spec hw hspec
    exact ⟨hdisplay, h.reserved display window hw, hpackage⟩
  · exact fun e s' hrun => (operation.atomic h).of_error hrun
  · exact (operation.outcome h).keeps

end TaskWindowSet

end Droidloom.Graphics
