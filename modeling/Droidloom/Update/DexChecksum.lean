/-
  The checksum of a DEX file (`droidloom-update`, `bundle.rs`): Adler-32 with the reductions delayed
  to the ends of blocks.

  1. **Program** — every addition to an accumulator is checked to stay in 32 bits.
  2. **Specification** — both sums are reduced after every byte.
  3. Reduction commutes with the sums (`sums_congr`), and `n` bytes add at most `n * a` and the
     quadratic `255 * n * (n + 1) / 2` to the second sum (`addBytes_eq`); 5552 bytes just fit.
-/
import Mathlib

namespace Droidloom.Update

/-! ## Program and specification -/

def MODULUS : Nat := 65521

def BLOCK : Nat := 5552

/-- An addition in `u32`. -/
def addU32 (a b : Nat) : Option Nat := if a + b < 2 ^ 32 then some (a + b) else none

def addByte (sums : Nat × Nat) (byte : UInt8) : Option (Nat × Nat) := do
  let a ← addU32 sums.1 byte.toNat
  let b ← addU32 sums.2 a
  return (a, b)

def addBlock (sums : Nat × Nat) (block : List UInt8) : Option (Nat × Nat) := do
  let (a, b) ← block.foldlM addByte sums
  return (a % MODULUS, b % MODULUS)

/-- `chunks(5552)`, with the bytes of the block in hand. -/
def blocksFrom (block : List UInt8) : List UInt8 → List (List UInt8)
  | [] => if block = [] then [] else [block]
  | byte :: data =>
    if block.length + 1 = BLOCK then (block ++ [byte]) :: blocksFrom [] data
    else blocksFrom (block ++ [byte]) data

def dexChecksum (data : List UInt8) : Option Nat := do
  let (a, b) ← (blocksFrom [] data).foldlM addBlock (1, 0)
  return (b <<< 16) % 2 ^ 32 ||| a

def adlerStep (sums : Nat × Nat) (byte : UInt8) : Nat × Nat :=
  let a := (sums.1 + byte.toNat) % MODULUS
  (a, (sums.2 + a) % MODULUS)

def adler32 (data : List UInt8) : Nat :=
  let (a, b) := data.foldl adlerStep (1, 0)
  b * 65536 + a

/-! ## Blocks -/

theorem blocksFrom_spec (block data : List UInt8) (h : block.length < BLOCK) :
    (blocksFrom block data).flatten = block ++ data ∧
      ∀ part ∈ blocksFrom block data, part.length ≤ BLOCK := by
  induction data generalizing block with
  | nil =>
    unfold blocksFrom
    split_ifs with hempty
    · simp [hempty]
    · simp [h.le]
  | cons byte data ih =>
    have hlength : (block ++ [byte]).length = block.length + 1 := List.length_append
    unfold blocksFrom
    split_ifs with hfull
    · obtain ⟨hflatten, hparts⟩ := ih [] (by decide)
      refine ⟨by simp [hflatten], fun part hpart => ?_⟩
      rcases List.mem_cons.mp hpart with rfl | hpart
      · omega
      · exact hparts part hpart
    · obtain ⟨hflatten, hparts⟩ := ih (block ++ [byte]) (by omega)
      exact ⟨by simp [hflatten], hparts⟩

/-! ## The sums without reduction -/

def plainStep (sums : Nat × Nat) (byte : UInt8) : Nat × Nat :=
  (sums.1 + byte.toNat, sums.2 + (sums.1 + byte.toNat))

def Congruent (s t : Nat × Nat) : Prop := s.1 ≡ t.1 [MOD MODULUS] ∧ s.2 ≡ t.2 [MOD MODULUS]

theorem Congruent.step {s t : Nat × Nat} (h : Congruent s t) (byte : UInt8) :
    Congruent (plainStep s byte) (adlerStep t byte) := by
  have ha : s.1 + byte.toNat ≡ (t.1 + byte.toNat) % MODULUS [MOD MODULUS] :=
    (h.1.add_right _).trans (Nat.mod_modEq _ _).symm
  exact ⟨ha, (h.2.add ha).trans (Nat.mod_modEq _ _).symm⟩

theorem sums_congr {s t : Nat × Nat} (h : Congruent s t) (bytes : List UInt8) :
    Congruent (bytes.foldl plainStep s) (bytes.foldl adlerStep t) := by
  induction bytes generalizing s t with
  | nil => exact h
  | cons byte bytes ih => exact ih (h.step byte)

theorem adler_reduced {t : Nat × Nat} (h : t.1 < MODULUS ∧ t.2 < MODULUS) (bytes : List UInt8) :
    (bytes.foldl adlerStep t).1 < MODULUS ∧ (bytes.foldl adlerStep t).2 < MODULUS := by
  induction bytes generalizing t with
  | nil => exact h
  | cons byte bytes ih => exact ih ⟨Nat.mod_lt _ (by decide), Nat.mod_lt _ (by decide)⟩

/-- **The quadratic bound**: with room for what the bytes can add at most, no addition
    overflows. -/
theorem addBytes_eq {a b : Nat} (bytes : List UInt8)
    (h : 2 * b + 2 * bytes.length * a + 255 * bytes.length * (bytes.length + 1) < 2 * 2 ^ 32)
    (ha : a + 255 * bytes.length < 2 ^ 32) :
    bytes.foldlM addByte (a, b) = some (bytes.foldl plainStep (a, b)) := by
  induction bytes generalizing a b with
  | nil => rfl
  | cons byte bytes ih =>
    have hbyte : byte.toNat ≤ 255 := Nat.lt_succ_iff.mp byte.toNat_lt
    set n := bytes.length with hn
    have hlength : (byte :: bytes).length = n + 1 := rfl
    rw [hlength] at h ha
    -- what is left for the other bytes is what this byte leaves
    have hroom : 2 * (b + (a + 255)) + 2 * n * (a + 255) + 255 * n * (n + 1) =
        2 * b + 2 * (n + 1) * a + 255 * (n + 1) * (n + 1 + 1) := by ring
    have hproduct : 2 * n * (a + byte.toNat) ≤ 2 * n * (a + 255) :=
      Nat.mul_le_mul_left _ (by omega)
    have hfirst : addU32 a byte.toNat = some (a + byte.toNat) := if_pos (by omega)
    have hsecond : addU32 b (a + byte.toNat) = some (b + (a + byte.toNat)) :=
      if_pos (by omega)
    rw [List.foldlM_cons, addByte, hfirst]
    show (addU32 b (a + byte.toNat) >>= fun b' => some (a + byte.toNat, b')) >>=
      (List.foldlM addByte · bytes) = _
    rw [hsecond]
    exact ih (by omega) (by omega)

/-- A block of at most 5552 bytes fits, whatever the reduced sums before it. -/
theorem addBlock_eq {t : Nat × Nat} (ht : t.1 < MODULUS ∧ t.2 < MODULUS) {block : List UInt8}
    (hblock : block.length ≤ BLOCK) : addBlock t block = some (block.foldl adlerStep t) := by
  obtain ⟨a, b⟩ := t
  have ha : a ≤ 65520 := Nat.lt_succ_iff.mp ht.1
  have hb : b ≤ 65520 := Nat.lt_succ_iff.mp ht.2
  have hlinear : 2 * block.length * a ≤ 2 * 5552 * 65520 :=
    Nat.mul_le_mul (Nat.mul_le_mul_left 2 hblock) ha
  have hsquare : 255 * block.length * (block.length + 1) ≤ 255 * 5552 * (5552 + 1) :=
    Nat.mul_le_mul (Nat.mul_le_mul_left 255 hblock) (Nat.succ_le_succ hblock)
  have hfold := addBytes_eq block (a := a) (b := b) (by omega) (by unfold BLOCK at hblock; omega)
  obtain ⟨hfirst, hsecond⟩ := sums_congr (s := (a, b)) ⟨rfl, rfl⟩ block
  obtain ⟨hlt, hlt'⟩ := adler_reduced ht block
  rw [addBlock, hfold]
  show some (_, _) = _
  have hfirst' := Eq.trans hfirst (Nat.mod_eq_of_lt hlt)
  have hsecond' := Eq.trans hsecond (Nat.mod_eq_of_lt hlt')
  rw [hfirst', hsecond']

theorem addBlocks_eq {t : Nat × Nat} (ht : t.1 < MODULUS ∧ t.2 < MODULUS)
    {blocks : List (List UInt8)} (hblocks : ∀ block ∈ blocks, block.length ≤ BLOCK) :
    blocks.foldlM addBlock t = some (blocks.flatten.foldl adlerStep t) := by
  induction blocks generalizing t with
  | nil => rfl
  | cons block blocks ih =>
    rw [List.foldlM_cons, addBlock_eq ht (hblocks block List.mem_cons_self), List.flatten_cons,
      List.foldl_append]
    exact ih (adler_reduced ht block) fun other hmem => hblocks other (List.mem_cons_of_mem _ hmem)

/-- **The checksum is Adler-32**, and no accumulator leaves 32 bits. -/
theorem dexChecksum_eq_adler32 (data : List UInt8) : dexChecksum data = some (adler32 data) := by
  obtain ⟨hflatten, hlength⟩ := blocksFrom_spec [] data (by decide)
  have hstart : (1, 0).1 < MODULUS ∧ (1, 0).2 < MODULUS := by decide
  have hfold : (blocksFrom [] data).foldlM addBlock (1, 0) =
      some (data.foldl adlerStep (1, 0)) := by
    rw [addBlocks_eq hstart hlength, hflatten, List.nil_append]
  obtain ⟨ha, hb⟩ := adler_reduced hstart data
  rw [dexChecksum, hfold]
  unfold adler32
  set sums := data.foldl adlerStep (1, 0)
  show some ((sums.2 <<< 16) % 2 ^ 32 ||| sums.1) = some (sums.2 * 65536 + sums.1)
  unfold MODULUS at ha hb
  have hshift : sums.2 <<< 16 = sums.2 * 65536 := Nat.shiftLeft_eq _ _
  rw [Nat.mod_eq_of_lt (by omega), ← Nat.shiftLeft_add_eq_or_of_lt (by omega), hshift]

example : dexChecksum "Wikipedia".toUTF8.data.toList = some 0x11e60398 := by decide +kernel

end Droidloom.Update
