/-
  The records of a layer stream (`droidloom-surface-bridge`, `layers.rs`): how a packet and the
  number of its descriptors become a request.

  A batch brings up to four fence descriptors, and each of its layer records names at most one of
  them by its index.  `decodeBatch` accepts a batch only if every index is in range, no two records
  name the same descriptor and no descriptor is left over; so the indices of an accepted batch are a
  permutation of `0, …, n - 1` (`decodeBatch_indices`).  What the host relies on when it moves the
  descriptors out is collected in `WellFenced`.
-/
import Droidloom.Lib.ByteCodec
import Droidloom.Presenter.LayerStream

namespace Droidloom.Layers

open Fallible
open ByteCodec (Bytes ofLeBytes)

inductive WireError
  | header
  | length
  | descriptors
  | field
deriving DecidableEq, Repr

def MAX_BATCH_LAYERS : Nat := 16
/-- Header, commit fields and sixteen indexed layer records. -/
def MAX_LAYER_PACKET : Nat := 16 + 28 + MAX_BATCH_LAYERS * 76

namespace Wire

def readU32 (bytes : Bytes) (offset : Nat) : Except WireError UInt32 :=
  if offset + 4 ≤ bytes.length then
    .ok (UInt32.ofNat (ofLeBytes ((bytes.drop offset).take 4)))
  else .error .length

def readU64 (bytes : Bytes) (offset : Nat) : Except WireError UInt64 :=
  if offset + 8 ≤ bytes.length then
    .ok (UInt64.ofNat (ofLeBytes ((bytes.drop offset).take 8)))
  else .error .length

/-! ## Layers and batches -/

def decodeLayer (p : Bytes) (fenced : Bool) : Except WireError Layer := do
  let flags ← readU32 p 64
  let id ← readU64 p 0
  let buffer ← readU64 p 8
  let ticket ← readU64 p 16
  let left ← readU32 p 24
  let top ← readU32 p 28
  let width ← readU32 p 32
  let height ← readU32 p 36
  let sourceLeft ← readU32 p 40
  let sourceTop ← readU32 p 44
  let sourceWidth ← readU32 p 48
  let sourceHeight ← readU32 p 52
  let transform ← readU32 p 56
  let alpha ← readU32 p 60
  let color ← readU32 p 68
  rejectIf (flags > 1 ∨ (buffer = 0 ∧ fenced)) .field
  return {
    id, buffer, ticket
    destination := ⟨left.toInt32, top.toInt32, width.toInt32, height.toInt32⟩
    source := ⟨sourceLeft, sourceTop, sourceWidth, sourceHeight⟩
    transform, alpha
    isOpaque := flags = 1
    color }

/-- The descriptor that a record names, and the descriptors named so far. -/
def claimIndex (descriptors : Nat) (index : UInt32) (used : List Bool) :
    Except WireError (Option Nat × List Bool) :=
  if index = 0xffffffff then .ok (none, used)
  else if index.toNat ≥ descriptors ∨ used[index.toNat]? = some true then .error .descriptors
  else .ok (some index.toNat, used.set index.toNat true)

/-- The loop over the records of a batch. -/
def decodeRecords (descriptors : Nat) :
    Nat → Bytes → List Bool → Except WireError (List BatchLayer × List Bool)
  | 0, _, used => return ([], used)
  | count + 1, p, used => do
    let record := p.take 76
    let index ← readU32 record 72
    let (fenceIndex, used) ← claimIndex descriptors index used
    let layer ← decodeLayer record fenceIndex.isSome
    let (layers, used) ← decodeRecords descriptors count (p.drop 76) used
    return (⟨layer, fenceIndex⟩ :: layers, used)

def decodeBatch (p : Bytes) (descriptors : Nat) : Except WireError (List BatchLayer) := do
  let count ← readU32 p 0
  rejectIf (count = 0 ∨ count.toNat > MAX_BATCH_LAYERS ∨ p.length ≠ 4 + count.toNat * 76) .length
  rejectIf (descriptors > 4) .descriptors
  let (layers, used) ← decodeRecords descriptors count.toNat (p.drop 4) (List.replicate 4 false)
  rejectIf (¬ (used.take descriptors).all (·)) .descriptors
  return layers

/-! ## Requests -/

/-- The strides of the planes; nothing else of them is looked at. -/
def readStrides (p : Bytes) : Nat → Except WireError (List UInt32)
  | 0 => return []
  | n + 1 => do
    let strides ← readStrides p n
    let _ ← readU32 p (40 + n * 8)
    let stride ← readU32 p (44 + n * 8)
    return strides ++ [stride]

def decodeBuffer (p : Bytes) (descriptors : Nat) : Except WireError Buffer := do
  rejectIf (p.length < 40) .length
  let n ← readU32 p 36
  rejectIf (n = 0 ∨ n > 4 ∨ n.toNat ≠ descriptors ∨ p.length ≠ 40 + n.toNat * 8) .descriptors
  let id ← readU64 p 0
  let width ← readU32 p 8
  let height ← readU32 p 12
  let fourcc ← readU32 p 16
  let modifier ← readU64 p 24
  let strides ← readStrides p n.toNat
  let reserved ← readU32 p 20
  let reserved' ← readU32 p 32
  rejectIf (id = 0 ∨ width = 0 ∨ height = 0 ∨ width > 16384 ∨ height > 16384 ∨ fourcc = 0 ∨
    modifier = 0xffffffffffffffff ∨ reserved ≠ 0 ∨ reserved' ≠ 0 ∨ strides.any (· = 0)) .field
  return { id, width, height, fourcc, modifier }

def decodeRegister (opcode : UInt32) (p : Bytes) (descriptors : Nat) :
    Except WireError Request := do
  if opcode = 10 then
    let attempt ← readU64 p 0
    rejectIf (attempt = 0) .field
    let buffer ← decodeBuffer (p.drop 8) descriptors
    return .registerAsync attempt buffer
  else
    let buffer ← decodeBuffer p descriptors
    return .register buffer

def decodeStage (opcode : UInt32) (p : Bytes) (descriptors : Nat) : Except WireError Request := do
  let layer ← decodeLayer p (descriptors ≠ 0)
  return if opcode = 7 then .stageAsync layer (descriptors ≠ 0) else .stage layer (descriptors ≠ 0)

def decodeStageBatch (p : Bytes) (descriptors : Nat) : Except WireError Request := do
  let layers ← decodeBatch p descriptors
  return .stageBatch layers descriptors

def decodeCommitBatch (p : Bytes) (descriptors : Nat) : Except WireError Request := do
  let scene ← readU64 p 0
  let serial ← readU32 p 8
  let width ← readU32 p 12
  let height ← readU32 p 16
  let count ← readU32 p 20
  let layers ← decodeBatch (p.drop 24) descriptors
  return .commitBatch scene serial width height count layers descriptors

def decodeCommit (p : Bytes) : Except WireError Request := do
  let serial ← readU32 p 0
  let width ← readU32 p 4
  let height ← readU32 p 8
  let count ← readU32 p 12
  return .commit serial width height count

def decodeCommitAsync (p : Bytes) : Except WireError Request := do
  let scene ← readU64 p 0
  let serial ← readU32 p 8
  let width ← readU32 p 12
  let height ← readU32 p 16
  let count ← readU32 p 20
  return .commitAsync scene serial width height count

def decodeUnregister (p : Bytes) : Except WireError Request := do
  let id ← readU64 p 0
  return .unregister id

/-- The match on the opcode; a scene is numbered from one. -/
def decodePayload (opcode : UInt32) (p : Bytes) (descriptors : Nat) : Except WireError Request :=
  if opcode = 1 ∧ p = [] ∧ descriptors = 0 then .ok .config
  else if opcode = 8 ∧ p = [] ∧ descriptors = 0 then .ok .subscribeConfig
  else if opcode = 2 ∨ opcode = 10 then decodeRegister opcode p descriptors
  else if opcode = 3 ∧ p.length = 8 ∧ descriptors = 0 then decodeUnregister p
  else if (opcode = 4 ∨ opcode = 7) ∧ p.length = 72 ∧ descriptors ≤ 1 then
    decodeStage opcode p descriptors
  else if opcode = 11 then decodeStageBatch p descriptors
  else if opcode = 12 ∧ p.length ≥ 28 ∧ readU64 p 0 ≠ .ok 0 then decodeCommitBatch p descriptors
  else if opcode = 5 ∧ p.length = 16 ∧ descriptors = 0 then decodeCommit p
  else if opcode = 9 ∧ p.length = 24 ∧ descriptors = 0 ∧ readU64 p 0 ≠ .ok 0 then decodeCommitAsync p
  else if opcode = 6 ∧ p = [] ∧ descriptors = 0 then .ok .abort
  else .error .length

def decode (bytes : Bytes) (descriptors : Nat) : Except WireError Request := do
  rejectIf (bytes.length < 16 ∨ bytes.length > MAX_LAYER_PACKET) .header
  -- "DLL1"
  rejectIf (bytes.take 4 ≠ [0x44, 0x4c, 0x4c, 0x31]) .header
  let length ← readU32 bytes 8
  rejectIf (length.toNat ≠ bytes.length - 16) .header
  let count ← readU32 bytes 12
  rejectIf (count.toNat ≠ descriptors) .header
  let opcode ← readU32 bytes 4
  decodePayload opcode (bytes.drop 16) descriptors

/-! ## What an accepted record says about its descriptors -/

/-- The descriptors that the layers of a batch name. -/
def indices (layers : List BatchLayer) : List Nat := layers.filterMap (·.fenceIndex)

theorem claimIndex_ok {descriptors : Nat} {index : UInt32} {used used' : List Bool}
    {fenceIndex : Option Nat} (h : claimIndex descriptors index used = .ok (fenceIndex, used')) :
    (fenceIndex = none ∧ used' = used) ∨
      ∃ i, fenceIndex = some i ∧ i < descriptors ∧ used[i]? ≠ some true ∧
        used' = used.set i true := by
  unfold claimIndex at h
  split at h
  · cases h
    exact .inl ⟨rfl, rfl⟩
  · split at h
    · cases h
    · rename_i hfree
      obtain ⟨hlt, hfree⟩ := not_or.mp hfree
      cases h
      exact .inr ⟨_, rfl, Nat.not_le.mp hlt, hfree, rfl⟩

/-- The loop names fresh descriptors only, each once, and marks just these. -/
theorem decodeRecords_indices {descriptors count : Nat} {p : Bytes} {used used' : List Bool}
    {layers : List BatchLayer} (hused : descriptors ≤ used.length)
    (h : decodeRecords descriptors count p used = .ok (layers, used')) :
    used'.length = used.length ∧ (indices layers).Nodup ∧
      (∀ i ∈ indices layers, i < descriptors ∧ used[i]? ≠ some true) ∧
      ∀ i, used'[i]? = some true ↔ used[i]? = some true ∨ i ∈ indices layers := by
  induction count generalizing p used layers with
  | zero =>
    cases h
    simp [indices]
  | succ count ih =>
    simp only [decodeRecords, bind_eq_ok, pure_eq_ok] at h
    obtain ⟨index, -, ⟨fenceIndex, marked⟩, hclaim, layer, -, ⟨rest, used''⟩, hrest, heq⟩ := h
    cases heq
    rcases claimIndex_ok hclaim with ⟨rfl, rfl⟩ | ⟨i, rfl, hlt, hfree, rfl⟩
    · have hrest := ih hused hrest
      exact hrest
    · have hindices : indices (⟨layer, some i⟩ :: rest) = i :: indices rest := rfl
      obtain ⟨hlength, hnodup, hfresh, hmarks⟩ := ih (by rwa [List.length_set]) hrest
      have hmarked : (used.set i true)[i]? = some true := by
        rw [List.getElem?_set_self (by omega)]
      rw [hindices]
      refine ⟨hlength.trans List.length_set,
        List.nodup_cons.mpr ⟨fun hmem => (hfresh i hmem).2 hmarked, hnodup⟩, ?_, ?_⟩
      · refine List.forall_mem_cons.mpr ⟨⟨hlt, hfree⟩, fun j hj => ?_⟩
        have hne : i ≠ j := fun heq => (hfresh j hj).2 (heq ▸ hmarked)
        exact ⟨(hfresh j hj).1, by rw [← List.getElem?_set_ne hne]; exact (hfresh j hj).2⟩
      · intro j
        rw [hmarks j, List.mem_cons]
        by_cases hj : i = j
        · subst hj
          simp [hmarked]
        · rw [List.getElem?_set_ne hj]
          simp [Ne.symm hj]

/-- **The indices of an accepted batch.**  Every descriptor is named by exactly one layer. -/
theorem decodeBatch_indices {p : Bytes} {descriptors : Nat} {layers : List BatchLayer}
    (h : decodeBatch p descriptors = .ok layers) :
    descriptors ≤ 4 ∧ (indices layers).Perm (List.range descriptors) := by
  simp only [decodeBatch, bind_eq_ok, pure_eq_ok, rejectIf_eq_ok] at h
  obtain ⟨count, -, -, -, -, hfew, ⟨layers', used⟩, hrecords, -, hall, heq⟩ := h
  cases heq
  have hfew : descriptors ≤ 4 := Nat.not_lt.mp hfew
  obtain ⟨hlength, hnodup, hfresh, hmarks⟩ := decodeRecords_indices (by simpa using hfew) hrecords
  refine ⟨hfew, (List.perm_ext_iff_of_nodup hnodup List.nodup_range).mpr fun i => ?_⟩
  rw [List.mem_range]
  refine ⟨fun hi => (hfresh i hi).1, fun hi => ?_⟩
  -- the last check: no descriptor is left over
  rw [not_not, List.all_eq_true] at hall
  have hlt : i < used.length := by
    rw [hlength, List.length_replicate]
    omega
  have hmem : used[i] ∈ used.take descriptors :=
    List.mem_take_iff_getElem.mpr ⟨i, lt_min hi hlt, rfl⟩
  have hmark : used[i]? = some true := by
    rw [List.getElem?_eq_getElem hlt, hall used[i] hmem]
  have hstart : (List.replicate 4 false)[i]? ≠ some true := by
    rw [List.getElem?_replicate]
    split <;> simp
  exact ((hmarks i).mp hmark).resolve_left hstart

/-- What the number of descriptors says about a request. -/
def WellFenced (descriptors : Nat) : Request → Prop
  | .stage _ acquire | .stageAsync _ acquire => descriptors ≤ 1 ∧ acquire = decide (descriptors ≠ 0)
  | .stageBatch layers fences | .commitBatch _ _ _ _ _ layers fences =>
    fences = descriptors ∧ descriptors ≤ 4 ∧ (indices layers).Perm (List.range descriptors)
  | _ => True

/-- **An accepted request is well fenced.** -/
theorem decode_wellFenced {bytes : Bytes} {descriptors : Nat} {request : Request}
    (h : decode bytes descriptors = .ok request) : WellFenced descriptors request := by
  simp only [decode, bind_eq_ok, rejectIf_eq_ok] at h
  obtain ⟨-, -, -, -, -, -, -, -, -, -, -, -, opcode, -, h⟩ := h
  unfold decodePayload at h
  split at h
  · cases h
    trivial
  split at h
  · cases h
    trivial
  split at h
  · -- registrations
    unfold decodeRegister at h
    split at h
    · simp only [bind_eq_ok, pure_eq_ok] at h
      obtain ⟨-, -, -, -, -, -, rfl⟩ := h
      trivial
    · simp only [bind_eq_ok, pure_eq_ok] at h
      obtain ⟨-, -, rfl⟩ := h
      trivial
  split at h
  · simp only [decodeUnregister, bind_eq_ok, pure_eq_ok] at h
    obtain ⟨-, -, rfl⟩ := h
    trivial
  split at h
  · rename_i hstage
    simp only [decodeStage, bind_eq_ok, pure_eq_ok] at h
    obtain ⟨layer, -, rfl⟩ := h
    split <;> exact ⟨hstage.2.2, rfl⟩
  split at h
  · simp only [decodeStageBatch, bind_eq_ok, pure_eq_ok] at h
    obtain ⟨layers, hbatch, rfl⟩ := h
    exact ⟨rfl, decodeBatch_indices hbatch⟩
  split at h
  · simp only [decodeCommitBatch, bind_eq_ok, pure_eq_ok] at h
    obtain ⟨-, -, -, -, -, -, -, -, -, -, layers, hbatch, rfl⟩ := h
    exact ⟨rfl, decodeBatch_indices hbatch⟩
  split at h
  · simp only [decodeCommit, bind_eq_ok, pure_eq_ok] at h
    obtain ⟨-, -, -, -, -, -, -, -, rfl⟩ := h
    trivial
  split at h
  · simp only [decodeCommitAsync, bind_eq_ok, pure_eq_ok] at h
    obtain ⟨-, -, -, -, -, -, -, -, -, -, rfl⟩ := h
    trivial
  split at h
  · cases h
    trivial
  · cases h

end Wire

end Droidloom.Layers
