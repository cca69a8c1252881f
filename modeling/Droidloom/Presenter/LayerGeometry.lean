/-
  Where the layers of a scene are shown (`droidloom-wayland`: `scale_dimension`, `configure_task`,
  `submit_layer_scene`, `Geometry::new`).

  A configured task has a physical size of at most 16384 pixels a side, and a scene is taken only if
  every edge of its layers falls on a logical pixel.  The rounded divisions of `Geometry.new` are
  then exact, nothing of it leaves the range of an `i32`, and the layers keep their places
  relative to each other (`exact_layer_geometry`).
-/
import Droidloom.Presenter.LayerStream

namespace Droidloom.Layers

/-! ## The size of a task -/

/-- A size from the compositor (`NonZeroU32`), from an output (`oriented_output_size`) or from the
    window policy (`LogicalSize::validate`): no side is zero. -/
structure LogicalSize where
  width : UInt32
  height : UInt32
  width_pos : 0 < width.toNat
  height_pos : 0 < height.toNat

def LogicalSize.pair (size : LogicalSize) : UInt32 × UInt32 := (size.width, size.height)

def FRACTIONAL_SCALE_DENOMINATOR : Nat := 120
def MAX_BUFFER_DIMENSION : Nat := 16384

def rounded (logical scale120 : UInt32) : Nat :=
  (logical.toNat * scale120.toNat + FRACTIONAL_SCALE_DENOMINATOR / 2) / FRACTIONAL_SCALE_DENOMINATOR

def scaleDimension (logical scale120 : UInt32) : Except String UInt32 :=
  if scale120 = 0 then .error "fractional scale numerator is zero"
  else if 2 ^ 32 ≤ rounded logical scale120 then .error "scaled window dimension overflowed"
  else if MAX_BUFFER_DIMENSION < max (rounded logical scale120) 1 then
    .error "scaled window dimension exceeds protocol limit"
  else .ok (UInt32.ofNat (max (rounded logical scale120) 1))

structure Configure where
  size : LogicalSize
  scale120 : UInt32

/-- What `configure_task` keeps of a task. -/
structure TaskSize where
  configureSerial : UInt32 := 0
  logicalSize : Option LogicalSize := none
  appliedScale120 : UInt32 := 120
  bufferSize : UInt32 × UInt32 := (0, 0)

def TaskSize.pair (task : TaskSize) : Option (UInt32 × UInt32) :=
  task.logicalSize.map LogicalSize.pair

/-- `retired` is what aborting the timeline and retiring the targets comes to; what is sent
    afterwards leaves the size. -/
def configureTask (task : TaskSize) (configure : Configure) (retired : Except String Unit) :
    Except String TaskSize := do
  let width ← scaleDimension configure.size.width configure.scale120
  let height ← scaleDimension configure.size.height configure.scale120
  if task.configureSerial = 0 ∨ task.pair ≠ some configure.size.pair ∨
      task.appliedScale120 ≠ configure.scale120 ∨ task.bufferSize ≠ (width, height) then
    retired
    if task.configureSerial = 0xffffffff then throw "configure serial exhausted"
    return {
      configureSerial := task.configureSerial + 1
      logicalSize := some configure.size
      appliedScale120 := configure.scale120
      bufferSize := (width, height) }
  else return task

/-- A task after its configures; one that fails changes nothing. -/
def configured (task : TaskSize) : List (Configure × Except String Unit) → TaskSize
  | [] => task
  | (configure, retired) :: rest =>
    match configureTask task configure retired with
    | .ok task => configured task rest
    | .error _ => configured task rest

/-- The task that a scene is checked against. -/
def TaskSize.view (size : TaskSize) (task : TaskView) : TaskView :=
  { task with
    configureSerial := size.configureSerial
    logicalSize := size.pair
    bufferSize := size.bufferSize }

theorem scaleDimension_eq_ok {logical scale120 physical : UInt32}
    (h : scaleDimension logical scale120 = .ok physical) :
    physical.toNat ≤ 16384 ∧ logical.toNat < 2 ^ 21 := by
  unfold scaleDimension at h
  split_ifs at h with hzero hlarge hmax
  obtain rfl := Except.ok.inj h
  simp only [rounded, FRACTIONAL_SCALE_DENOMINATOR, MAX_BUFFER_DIMENSION] at hlarge hmax ⊢
  have hscale : 0 < scale120.toNat := by
    rw [Nat.pos_iff_ne_zero]
    exact fun h0 => hzero (UInt32.toNat_inj.mp h0)
  have hlogical : logical.toNat * 1 ≤ logical.toNat * scale120.toNat :=
    Nat.mul_le_mul_left _ hscale
  rw [UInt32.toNat_ofNat_of_lt' (show _ < 2 ^ 32 by omega)]
  omega

/-- Sizes that the arithmetic of a scene is safe for. -/
def Bounded (task : TaskSize) : Prop :=
  ∀ size, task.logicalSize = some size →
    task.bufferSize.1.toNat ≤ 16384 ∧ size.width.toNat < 2 ^ 21 ∧
    task.bufferSize.2.toNat ≤ 16384 ∧ size.height.toNat < 2 ^ 21

theorem configureTask_bounded {task task' : TaskSize} {configure : Configure}
    {retired : Except String Unit} (h : Bounded task)
    (hok : configureTask task configure retired = .ok task') : Bounded task' := by
  simp only [configureTask, Fallible.bind_eq_ok] at hok
  obtain ⟨width, hwidth, height, hheight, hok⟩ := hok
  split at hok
  · simp only [Fallible.bind_eq_ok] at hok
    obtain ⟨-, -, hok⟩ := hok
    split at hok
    · cases hok
    · injection hok with hok
      subst hok
      rintro size hsize
      obtain rfl := Option.some.inj hsize
      obtain ⟨hbuffer, hlogical⟩ := scaleDimension_eq_ok hwidth
      exact ⟨hbuffer, hlogical, scaleDimension_eq_ok hheight⟩
  · injection hok with hok
    exact hok ▸ h

theorem configured_bounded {task : TaskSize} (h : Bounded task)
    (configures : List (Configure × Except String Unit)) :
    Bounded (configured task configures) := by
  induction configures generalizing task with
  | nil => exact h
  | cons step rest ih =>
    obtain ⟨configure, retired⟩ := step
    unfold configured
    cases hstep : configureTask task configure retired with
    | ok task' => exact ih (configureTask_bounded h hstep)
    | error _ => exact ih h

/-! ## Exact edges -/

def Fits (v : Int) : Prop := -2 ^ 31 ≤ v ∧ v < 2 ^ 31

theorem toInt_add_of_fits {a b : Int32} (h : Fits (a.toInt + b.toInt)) :
    (a + b).toInt = a.toInt + b.toInt := by
  rw [Int32.toInt_add]
  exact Int.bmod_eq_of_le h.1 h.2

theorem toInt_sub_of_fits {a b : Int32} (h : Fits (a.toInt - b.toInt)) :
    (a - b).toInt = a.toInt - b.toInt := by
  rw [Int32.toInt_sub]
  exact Int.bmod_eq_of_le h.1 h.2

theorem max_one {a : Int32} (h : 1 ≤ a.toInt) : max a 1 = a := by
  change (if a ≤ 1 then 1 else a) = a
  split
  · rename_i hle
    rw [Int32.le_iff_toInt_le] at hle
    exact Int32.toInt_inj.mp (Int.le_antisymm h hle)
  · rfl

/-- What `edge` converts to an `i32`. -/
def quotient (v : Int) (logical physical : UInt32) : Int :=
  Int.tdiv (v * logical.toNat + (physical.toNat / 2 : Nat)) physical.toNat

/-- An axis on which sizes are small and positive. -/
structure Axis (logical physical : UInt32) : Prop where
  logical_pos : 0 < logical.toNat
  logical_lt : logical.toNat < 2 ^ 21
  physical_pos : 0 < physical.toNat
  physical_le : physical.toNat ≤ 16384

section Exact
variable {logical physical : UInt32}

/-- An exact edge is not rounded, and stays within the logical size. -/
theorem quotient_exact (axis : Axis logical physical) {v : Int} (hv : 0 ≤ v ∧ v ≤ physical.toNat)
    (hexact : v * logical.toNat % physical.toNat = 0) :
    quotient v logical physical * physical.toNat = v * logical.toNat ∧
      0 ≤ quotient v logical physical ∧ quotient v logical physical ≤ logical.toNat := by
  obtain ⟨q, hq⟩ := Int.dvd_of_emod_eq_zero hexact
  have hphysical : (0 : Int) < physical.toNat := by exact_mod_cast axis.physical_pos
  have hproduct : 0 ≤ v * logical.toNat := Int.mul_nonneg hv.1 (Int.natCast_nonneg _)
  have hq_nonneg : 0 ≤ q := by
    rw [hq] at hproduct
    exact Int.nonneg_of_mul_nonneg_right hproduct hphysical
  have hquotient : quotient v logical physical = q := by
    have hhalf : ((physical.toNat / 2 : Nat) : Int) / physical.toNat = 0 :=
      Int.ediv_eq_zero_of_lt (Int.natCast_nonneg _) (by omega)
    rw [quotient, Int.tdiv_eq_ediv_of_nonneg (by omega), hq,
      Int.mul_add_ediv_left _ _ (ne_of_gt hphysical), hhalf, Int.add_zero]
  refine ⟨by rw [hquotient, hq, Int.mul_comm], hquotient ▸ hq_nonneg, ?_⟩
  have hle : (physical.toNat : Int) * q ≤ physical.toNat * logical.toNat := by
    rw [← hq]
    exact Int.mul_le_mul_of_nonneg_right hv.2 (Int.natCast_nonneg _)
  rw [hquotient]
  exact Int.le_of_mul_le_mul_left hle hphysical

theorem edge_toInt (axis : Axis logical physical) {v : Int32}
    (hv : 0 ≤ v.toInt ∧ v.toInt ≤ physical.toNat)
    (hexact : v.toInt * logical.toNat % physical.toNat = 0) :
    (edge v logical physical).toInt = quotient v.toInt logical physical := by
  obtain ⟨-, hnonneg, hle⟩ := quotient_exact axis hv hexact
  have hlogical := axis.logical_lt
  have hconvert : ∀ q : Int, 0 ≤ q → q ≤ logical.toNat → (Int32.ofInt q).toInt = q :=
    fun q hq hq' => Int32.toInt_ofInt_of_le (by omega) (by omega)
  exact hconvert _ hnonneg hle

/-- The order of exact edges is the order of what they are scaled to. -/
theorem le_iff_scaled_le (axis : Axis logical physical) {e e' p p' : Int}
    (h : p * physical.toNat = e * logical.toNat) (h' : p' * physical.toNat = e' * logical.toNat) :
    p ≤ p' ↔ e ≤ e' := by
  have hphysical : (0 : Int) < physical.toNat := by exact_mod_cast axis.physical_pos
  have hlogical : (0 : Int) < logical.toNat := by exact_mod_cast axis.logical_pos
  rw [← Int.mul_le_mul_iff_of_pos_right hphysical, h, h', Int.mul_le_mul_iff_of_pos_right hlogical]

/-- A span of pixels is shown as `[out, out + max (…) 1]`: what one axis of a layer comes to. -/
structure ShownExactly (logical physical : UInt32) (start extent out outExtent : Int32) : Prop where
  pixel : 1 ≤ outExtent.toInt
  low : out.toInt * physical.toNat = start.toInt * logical.toNat
  high : (out.toInt + outExtent.toInt) * physical.toNat =
    (start.toInt + extent.toInt) * logical.toNat
  sum_fits : Fits (start.toInt + extent.toInt)
  low_fits : Fits (quotient start.toInt logical physical)
  high_fits : Fits (quotient (start.toInt + extent.toInt) logical physical)
  extent_fits : Fits (quotient (start.toInt + extent.toInt) logical physical -
    quotient start.toInt logical physical)

theorem shownExactly (axis : Axis logical physical) {start extent : Int32}
    (hstart : 0 ≤ start.toInt) (hextent : 0 < extent.toInt)
    (hend : start.toInt + extent.toInt ≤ physical.toNat)
    (hlow : start.toInt * logical.toNat % physical.toNat = 0)
    (hhigh : (start.toInt + extent.toInt) * logical.toNat % physical.toNat = 0) :
    ShownExactly logical physical start extent (edge start logical physical)
      (max (edge (start + extent) logical physical - edge start logical physical) 1) := by
  have hphysical := axis.physical_le
  have hlogical := axis.logical_lt
  have hsum : Fits (start.toInt + extent.toInt) := ⟨by omega, by omega⟩
  have hadd := toInt_add_of_fits hsum
  obtain ⟨hlow_eq, hlow_nonneg, hlow_le⟩ :=
    quotient_exact axis ⟨hstart, by omega⟩ hlow
  obtain ⟨hhigh_eq, hhigh_nonneg, hhigh_le⟩ :=
    quotient_exact axis (v := start.toInt + extent.toInt) ⟨by omega, hend⟩ hhigh
  have hdifference : 1 ≤ quotient (start.toInt + extent.toInt) logical physical -
      quotient start.toInt logical physical := by
    have hle := le_iff_scaled_le axis hhigh_eq hlow_eq
    omega
  have hedge := edge_toInt axis ⟨hstart, by omega⟩ hlow
  have hedge' : (edge (start + extent) logical physical).toInt =
      quotient (start.toInt + extent.toInt) logical physical := by
    rw [← hadd] at hhigh hend ⊢
    exact edge_toInt axis ⟨by omega, hend⟩ hhigh
  have hfits : Fits ((edge (start + extent) logical physical).toInt -
      (edge start logical physical).toInt) := by
    rw [hedge, hedge']
    exact ⟨by omega, by omega⟩
  have hsub := toInt_sub_of_fits hfits
  rw [hedge, hedge'] at hsub
  rw [max_one (by rw [hsub]; exact hdifference)]
  refine ⟨?_, ?_, ?_, hsum, ⟨by omega, by omega⟩, ⟨by omega, by omega⟩, ⟨by omega, by omega⟩⟩
  · rw [hsub]
    exact hdifference
  · rw [hedge, hlow_eq]
  · rw [hsub, hedge, add_sub_cancel, hhigh_eq]

end Exact

/-! ## The layers of a scene -/

/-- A layer's rectangle is inside the scene. -/
structure Inside (d : Rect Int32) (width height : UInt32) : Prop where
  x_nonneg : 0 ≤ d.x.toInt
  y_nonneg : 0 ≤ d.y.toInt
  w_pos : 0 < d.w.toInt
  h_pos : 0 < d.h.toInt
  right_le : d.x.toInt + d.w.toInt ≤ width.toNat
  bottom_le : d.y.toInt + d.h.toInt ≤ height.toNat

theorem toNat_toUInt32 {a : Int32} (h : 0 ≤ a.toInt) : (a.toUInt32.toNat : Int) = a.toInt := by
  rw [Int32.toNat_toUInt32_of_le (Int32.le_iff_toInt_le.mpr h)]
  exact Int.toNat_of_nonneg h

theorem Layer.inside_of_validate {l : Layer} {width height : UInt32} {buffer : Option Buffer}
    (h : l.validate width height buffer = true) : Inside l.destination width height := by
  simp only [Layer.validate, Bool.if_false_left, Bool.and_eq_true, Bool.not_eq_true',
    decide_eq_false_iff_not] at h
  obtain ⟨hgeometry, -⟩ := h
  have hzero : (0 : Int32).toInt = 0 := rfl
  simp only [not_or, Int32.le_iff_toInt_le, Int32.lt_iff_toInt_lt, hzero, not_le,
    not_lt] at hgeometry
  obtain ⟨-, hx, hy, hw, hh, -, hright, hbottom⟩ := hgeometry
  have hx' := toNat_toUInt32 hx
  have hy' := toNat_toUInt32 hy
  have hw' := toNat_toUInt32 hw.le
  have hh' := toNat_toUInt32 hh.le
  exact ⟨hx, hy, hw, hh, by omega, by omega⟩

theorem validate_of_assessLayers {width height : UInt32} {lastTicket : UInt64}
    {source : UInt64 → Option SourceState} {attached : UInt64 → Option (UInt64 × UInt64)}
    {layers : List (Layer × Bool)} {ids buffers tickets : Finset UInt64} {busy : Bool}
    (h : assessLayers width height lastTicket source attached layers ids buffers tickets busy ≠
      .invalid) :
    ∀ l ∈ layers, l.1.validate width height ((source l.1.buffer).map (·.buffer)) = true := by
  induction layers generalizing ids buffers tickets busy with
  | nil => simp
  | cons layer layers ih =>
    obtain ⟨l, hasAcquire⟩ := layer
    unfold assessLayers at h
    split at h
    · exact absurd rfl h
    · rename_i hvalid
      rw [not_or, not_not] at hvalid
      -- whatever the source of the layer is, the loop goes on or ends as invalid
      have hrest : ∀ other ∈ layers, other.1.validate width height
          ((source other.1.buffer).map (·.buffer)) = true := by
        split at h
        · split at h
          · exact absurd rfl h
          · exact ih h
        · split at h
          · exact absurd rfl h
          · split_ifs at h
            · exact absurd rfl h
            · exact absurd rfl h
            · exact ih h
            · exact absurd rfl h
            · exact ih h
      exact List.forall_mem_cons.mpr ⟨hvalid.2, hrest⟩

def toInts (d : Rect Int32) : Rect Int := ⟨d.x.toInt, d.y.toInt, d.w.toInt, d.h.toInt⟩

def Disjoint (a b : Rect Int) : Prop :=
  a.x + a.w ≤ b.x ∨ b.x + b.w ≤ a.x ∨ a.y + a.h ≤ b.y ∨ b.y + b.h ≤ a.y

/-- The two share a piece of an edge. -/
def Adjacent (a b : Rect Int) : Prop :=
  ((a.x + a.w = b.x ∨ b.x + b.w = a.x) ∧ a.y < b.y + b.h ∧ b.y < a.y + a.h) ∨
  ((a.y + a.h = b.y ∨ b.y + b.h = a.y) ∧ a.x < b.x + b.w ∧ b.x < a.x + a.w)

/-- A layer is shown at exactly its pixel edges. -/
structure PlacedExactly (logical physical : UInt32 × UInt32) (d out : Rect Int32) : Prop where
  across : ShownExactly logical.1 physical.1 d.x d.w out.x out.w
  down : ShownExactly logical.2 physical.2 d.y d.h out.y out.h

section Placed
variable {logical physical : UInt32 × UInt32} {d d' out out' : Rect Int32}

theorem disjoint_iff_placed (across : Axis logical.1 physical.1) (down : Axis logical.2 physical.2)
    (h : PlacedExactly logical physical d out) (h' : PlacedExactly logical physical d' out') :
    Disjoint (toInts out) (toInts out') ↔ Disjoint (toInts d) (toInts d') := by
  simp only [Disjoint, toInts, le_iff_scaled_le across h.across.high h'.across.low,
    le_iff_scaled_le across h'.across.high h.across.low,
    le_iff_scaled_le down h.down.high h'.down.low, le_iff_scaled_le down h'.down.high h.down.low]

theorem adjacent_iff_placed (across : Axis logical.1 physical.1) (down : Axis logical.2 physical.2)
    (h : PlacedExactly logical physical d out) (h' : PlacedExactly logical physical d' out') :
    Adjacent (toInts out) (toInts out') ↔ Adjacent (toInts d) (toInts d') := by
  simp only [Adjacent, toInts, le_antisymm_iff, ← not_le,
    le_iff_scaled_le across h.across.high h'.across.low,
    le_iff_scaled_le across h'.across.high h.across.low,
    le_iff_scaled_le across h.across.low h'.across.high,
    le_iff_scaled_le across h'.across.low h.across.high,
    le_iff_scaled_le down h.down.high h'.down.low, le_iff_scaled_le down h'.down.high h.down.low,
    le_iff_scaled_le down h.down.low h'.down.high, le_iff_scaled_le down h'.down.low h.down.high]

end Placed

/-- What is known of a scene that is not refused. -/
theorem Stream.status_ne_invalid {s : Stream} {task : TaskView} {commit : PendingCommit}
    (h : s.status task commit ≠ .invalid) :
    task.bufferSize = (commit.width, commit.height) ∧
    exactGeometry task s.staged.layers commit.width commit.height = true ∧
    ∀ l ∈ s.staged.layers, Inside l.1.destination commit.width commit.height := by
  unfold Stream.status at h
  split at h
  · rename_i hvalid
    refine ⟨hvalid.2.2.2.2.1, hvalid.2.2.2.2.2, fun l hl => ?_⟩
    unfold assessScene at h
    split at h
    · exact absurd rfl h
    · exact Layer.inside_of_validate (validate_of_assessLayers h l hl)
  · exact absurd rfl h

/-- **Exact layer geometry**: whatever configures came before, every layer of a scene that is not
    refused is shown at exactly its pixel edges, at least one logical pixel wide and high and
    without leaving `i32`, and the layers are disjoint or adjacent as their pixels are. -/
theorem exact_layer_geometry (configures : List (Configure × Except String Unit)) (s : Stream)
    (task : TaskView) (commit : PendingCommit) (logical : UInt32 × UInt32)
    (hlogical : (configured {} configures).pair = some logical)
    (haccepted : s.status ((configured {} configures).view task) commit ≠ .invalid) :
    (∀ l ∈ s.staged.layers, ∀ above, PlacedExactly logical (commit.width, commit.height)
      l.1.destination (Geometry.new l.1 above logical (commit.width, commit.height)).destination) ∧
    ∀ l ∈ s.staged.layers, ∀ m ∈ s.staged.layers, ∀ above above',
      (Disjoint (toInts (Geometry.new l.1 above logical (commit.width, commit.height)).destination)
          (toInts (Geometry.new m.1 above' logical (commit.width, commit.height)).destination) ↔
        Disjoint (toInts l.1.destination) (toInts m.1.destination)) ∧
      (Adjacent (toInts (Geometry.new l.1 above logical (commit.width, commit.height)).destination)
          (toInts (Geometry.new m.1 above' logical (commit.width, commit.height)).destination) ↔
        Adjacent (toInts l.1.destination) (toInts m.1.destination)) := by
  obtain ⟨hbuffer, hexact, hinside⟩ := Stream.status_ne_invalid haccepted
  obtain ⟨size, hsize, rfl⟩ := Option.map_eq_some_iff.mp hlogical
  have hinitial : Bounded {} := fun _ h => nomatch h
  obtain ⟨hwidth, hwidth', hheight, hheight'⟩ := configured_bounded hinitial configures size hsize
  have hbuffer' : (configured {} configures).bufferSize = (commit.width, commit.height) := hbuffer
  rw [hbuffer'] at hwidth hheight
  have hedges : ∀ l ∈ s.staged.layers, Axis size.pair.1 commit.width ∧
      Axis size.pair.2 commit.height ∧ ∀ above, PlacedExactly size.pair
        (commit.width, commit.height) l.1.destination
        (Geometry.new l.1 above size.pair (commit.width, commit.height)).destination := by
    intro l hl
    have hl' := List.all_eq_true.mp hexact l hl
    have hpair : ((configured {} configures).view task).logicalSize = some size.pair := hlogical
    simp only [hpair, Bool.and_eq_true, decide_eq_true_eq] at hl'
    obtain ⟨⟨⟨⟨hw, hx⟩, hh, hy⟩, -, hright⟩, -, hbottom⟩ := hl'
    have across : Axis size.pair.1 commit.width := ⟨size.width_pos, hwidth', hw, hwidth⟩
    have down : Axis size.pair.2 commit.height := ⟨size.height_pos, hheight', hh, hheight⟩
    have hin := hinside l hl
    exact ⟨across, down, fun above =>
      ⟨shownExactly across hin.x_nonneg hin.w_pos hin.right_le hx hright,
        shownExactly down hin.y_nonneg hin.h_pos hin.bottom_le hy hbottom⟩⟩
  refine ⟨fun l hl => (hedges l hl).2.2, fun l hl m hm above above' => ?_⟩
  obtain ⟨across, down, hplaced⟩ := hedges l hl
  obtain ⟨-, -, hplaced'⟩ := hedges m hm
  exact ⟨disjoint_iff_placed across down (hplaced above) (hplaced' above'),
    adjacent_iff_placed across down (hplaced above) (hplaced' above')⟩

/-- A task of 400 by 300 logical pixels at twice the scale. -/
def doubled : List (Configure × Except String Unit) :=
  [({ size := ⟨400, 300, by decide, by decide⟩, scale120 := 240 }, .ok ())]

def halfScene : Stream :=
  { staged := { layers := [
      (⟨1, 0, 0, ⟨0, 0, 400, 600⟩, ⟨0, 0, 256, 256⟩, 0, 0xffffffff, true, 0⟩, false),
      (⟨2, 0, 0, ⟨400, 0, 400, 600⟩, ⟨0, 0, 256, 256⟩, 0, 0xffffffff, true, 0⟩, false)] } }

def doubledTask : TaskView :=
  (configured {} doubled).view ⟨true, true, 0, (0, 0), none, false, false, true⟩

theorem halves_shown_exactly :
    halfScene.status doubledTask ⟨none, 1, 800, 600, 2⟩ ≠ .invalid ∧
    ∀ l ∈ halfScene.staged.layers, ∀ above, PlacedExactly (400, 300) (800, 600) l.1.destination
      (Geometry.new l.1 above (400, 300) (800, 600)).destination := by
  have haccepted : halfScene.status doubledTask ⟨none, 1, 800, 600, 2⟩ ≠ .invalid := by
    decide +kernel
  exact ⟨haccepted, (exact_layer_geometry doubled halfScene _ ⟨none, 1, 800, 600, 2⟩ (400, 300)
    rfl haccepted).1⟩

end Droidloom.Layers
