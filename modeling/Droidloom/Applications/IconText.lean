/-
  The base64 text of an icon (`droidloom-applications`, `decode_base64`).

  The decoder takes groups of four characters, padding in the last one only.  Its eight-bit shifts
  drop bits: the low four or two bits of the last character before the padding are not looked at.
  So a text is accepted exactly when it is the standard encoding of some bytes up to those bits.
-/
import Droidloom.Lib.ByteCodec
import Droidloom.Lib.Checked

namespace Droidloom.Applications

open ByteCodec (Bytes)
open Checked Fallible

/-! ## The decoder -/

inductive CatalogError
  | lifecycle (message : String)
  | control (message : String)
  | missingResponseData (what : String)
  | invalidApplication (message : String)
  | invalidIcon (message : String)
  | io (context : String)
deriving DecidableEq, Repr

def addU8 (a b : Nat) : Except (Halt CatalogError) Nat :=
  if a + b < 256 then .ok (a + b) else .error .panic

def iconError (message : String) : Halt CatalogError := .error (.invalidIcon message)

def base64Value (byte : UInt8) : Except (Halt CatalogError) Nat :=
  let n := byte.toNat
  if 65 ≤ n ∧ n ≤ 90 then sub n 65
  else if 97 ≤ n ∧ n ≤ 122 then do addU8 (← sub n 97) 26
  else if 48 ≤ n ∧ n ≤ 57 then do addU8 (← sub n 48) 52
  else if n = 43 then .ok 62
  else if n = 47 then .ok 63
  else .error (iconError "base64 payload contains an invalid character")

/-- `=` -/
def PAD : UInt8 := 61

/-- The value of a character that may be padding. -/
def paddedValue (byte : UInt8) : Except (Halt CatalogError) Nat :=
  if byte = PAD then .ok 0 else base64Value byte

def decodeGroup (final : Bool) (chunk : List UInt8) : Except (Halt CatalogError) Bytes := do
  let third ← index chunk 2
  let fourth ← index chunk 3
  rejectIf (¬ final ∧ (third = PAD ∨ fourth = PAD))
    (iconError "base64 padding appears before the final block")
  let a ← base64Value (← index chunk 0)
  let b ← base64Value (← index chunk 1)
  let c ← paddedValue third
  let d ← paddedValue fourth
  rejectIf (third = PAD ∧ fourth ≠ PAD) (iconError "base64 payload has invalid padding")
  let first := .ofNat ((a <<< 2) % 256 ||| (b >>> 4))
  let second := .ofNat ((b <<< 4) % 256 ||| (c >>> 2))
  let last := .ofNat ((c <<< 6) % 256 ||| d)
  return first :: ((if third ≠ PAD then [second] else []) ++ if fourth ≠ PAD then [last] else [])

/-- `chunks_exact(4)` -/
def groups : List UInt8 → List (List UInt8)
  | a :: b :: c :: d :: rest => [a, b, c, d] :: groups rest
  | _ => []

def decodeGroups (count : Nat) : Nat → List (List UInt8) → Except (Halt CatalogError) Bytes
  | _, [] => return []
  | i, chunk :: chunks => do
    let bytes ← decodeGroup (i + 1 = count) chunk
    let rest ← decodeGroups count (i + 1) chunks
    return bytes ++ rest

def decodeBase64 (encoded : List UInt8) : Except (Halt CatalogError) Bytes := do
  rejectIf (encoded.length % 4 ≠ 0) (iconError "base64 payload has an invalid length")
  decodeGroups (encoded.length / 4) 0 (groups encoded)

/-! ## The standard encoding -/

def symbol (n : Nat) : UInt8 :=
  if n < 26 then .ofNat (n + 65) else if n < 52 then .ofNat (n + 71)
  else if n < 62 then .ofNat (n - 4) else if n = 62 then 43 else 47

def encodeBase64 : Bytes → List UInt8
  | [] => []
  | [x] => [symbol (x.toNat / 4), symbol (x.toNat % 4 * 16), PAD, PAD]
  | [x, y] => [symbol (x.toNat / 4), symbol (x.toNat % 4 * 16 + y.toNat / 16),
      symbol (y.toNat % 16 * 4), PAD]
  | x :: y :: z :: rest => [symbol (x.toNat / 4), symbol (x.toNat % 4 * 16 + y.toNat / 16),
      symbol (y.toNat % 16 * 4 + z.toNat / 64), symbol (z.toNat % 64)] ++ encodeBase64 rest

def value (byte : UInt8) : Nat := (base64Value byte).toOption.getD 0

/-- A character without the bits below `unit`. -/
def clear (unit : Nat) (byte : UInt8) : UInt8 := symbol (value byte / unit * unit)

/-- A text without the bits of its last group that the padding leaves unused. -/
def clearUnused : List UInt8 → List UInt8
  | [p, q, r, s] =>
    if r = PAD then [p, clear 16 q, r, s] else if s = PAD then [p, q, clear 4 r, s] else [p, q, r, s]
  | p :: q :: r :: s :: rest => p :: q :: r :: s :: clearUnused rest
  | text => text

/-! ## Characters -/

theorem base64Value_symbol : ∀ n < 64, base64Value (symbol n) = .ok n ∧ symbol n ≠ PAD := by
  decide +kernel

/-- A character has a value and is its symbol, or is refused. -/
theorem base64Value_table (byte : UInt8) :
    (∃ n < 64, base64Value byte = .ok n ∧ symbol n = byte) ∨
      base64Value byte = .error (iconError "base64 payload contains an invalid character") := by
  have htable : ∀ k < 256, (∃ n < 64, base64Value (.ofNat k) = .ok n ∧ symbol n = .ofNat k) ∨
      base64Value (.ofNat k) =
        .error (iconError "base64 payload contains an invalid character") := by
    decide +kernel
  have h := htable byte.toNat byte.toNat_lt
  rwa [UInt8.ofNat_toNat] at h

theorem base64Value_eq_ok {byte : UInt8} {n : Nat} :
    base64Value byte = .ok n ↔ n < 64 ∧ symbol n = byte := by
  constructor
  · intro h
    rcases base64Value_table byte with ⟨m, hm, hvalue, hsymbol⟩ | hrefused
    · obtain rfl : m = n := Except.ok.inj (hvalue.symm.trans h)
      exact ⟨hm, hsymbol⟩
    · rw [hrefused] at h
      cases h
  · rintro ⟨hn, rfl⟩
    exact (base64Value_symbol n hn).1

theorem value_symbol {n : Nat} (h : n < 64) : value (symbol n) = n := by
  rw [value, (base64Value_symbol n h).1]
  rfl

theorem symbol_ne_pad {n : Nat} (h : n < 64) : symbol n ≠ PAD := (base64Value_symbol n h).2

/-! ## Groups -/

section Bits

variable {a b c d : Nat}

/-- An eight-bit shift drops bits; what it leaves free is filled by the other operand. -/
theorem shift_or (k kept : Nat) {m r : Nat} (hsplit : kept * 2 ^ k = 256) (hr : r < 2 ^ k) :
    (m <<< k) % 256 ||| r = m % kept * 2 ^ k + r := by
  have hshift : (m <<< k) % 256 = (m % kept) <<< k := by
    rw [Nat.shiftLeft_eq, Nat.shiftLeft_eq, ← hsplit, Nat.mul_mod_mul_right]
  rw [hshift, ← Nat.shiftLeft_add_eq_or_of_lt hr, Nat.shiftLeft_eq]

theorem first_bits (ha : a < 64) (hb : b < 64) : (a <<< 2) % 256 ||| (b >>> 4) = a * 4 + b / 16 := by
  have hdown : b >>> 4 = b / 16 := Nat.shiftRight_eq_div_pow _ _
  rw [hdown, shift_or 2 64 rfl (by omega), Nat.mod_eq_of_lt ha]
  rfl

theorem second_bits (hc : c < 64) : (b <<< 4) % 256 ||| (c >>> 2) = b % 16 * 16 + c / 4 := by
  have hdown : c >>> 2 = c / 4 := Nat.shiftRight_eq_div_pow _ _
  rw [hdown, shift_or 4 16 rfl (by omega)]
  rfl

theorem last_bits (hd : d < 64) : (c <<< 6) % 256 ||| d = c % 4 * 64 + d :=
  shift_or 6 4 rfl hd

end Bits

/-- **What a group can be**: four characters, or in the last group three or two and padding. -/
theorem decodeGroup_eq_ok {final : Bool} {p q r s : UInt8} {out : Bytes}
    (h : decodeGroup final [p, q, r, s] = .ok out) :
    ∃ a < 64, ∃ b < 64, p = symbol a ∧ q = symbol b ∧
      ((final = true ∧ r = PAD ∧ s = PAD ∧ out = [.ofNat (a * 4 + b / 16)]) ∨
        ∃ c < 64, r = symbol c ∧
          ((final = true ∧ s = PAD ∧
              out = [.ofNat (a * 4 + b / 16), .ofNat (b % 16 * 16 + c / 4)]) ∨
            ∃ d < 64, s = symbol d ∧ out = [.ofNat (a * 4 + b / 16),
              .ofNat (b % 16 * 16 + c / 4), .ofNat (c % 4 * 64 + d)])) := by
  have hthird : (index [p, q, r, s] 2 : Except (Halt CatalogError) UInt8) = .ok r := rfl
  have hfourth : (index [p, q, r, s] 3 : Except (Halt CatalogError) UInt8) = .ok s := rfl
  simp only [decodeGroup, hthird, hfourth, bind_eq_ok, rejectIf_eq_ok, exists_const, pure_eq_ok,
    Except.ok.injEq, exists_eq_left'] at h
  obtain ⟨hpadding, p', hp, a, hva, q', hq, b, hvb, c, hvc, d, hvd, hshape, rfl⟩ := h
  obtain rfl : p = p' := Except.ok.inj hp
  obtain rfl : q = q' := Except.ok.inj hq
  obtain ⟨ha, rfl⟩ := base64Value_eq_ok.mp hva
  obtain ⟨hb, rfl⟩ := base64Value_eq_ok.mp hvb
  refine ⟨a, ha, b, hb, rfl, rfl, ?_⟩
  rw [first_bits ha hb]
  unfold paddedValue at hvc hvd
  by_cases hr : r = PAD
  · have hs : s = PAD := by
      by_contra hne
      exact hshape ⟨hr, hne⟩
    have hfinal : final = true := by
      by_contra hne
      exact hpadding ⟨hne, .inl hr⟩
    exact .inl ⟨hfinal, hr, hs, by simp [hr, hs]⟩
  · rw [if_neg hr] at hvc
    obtain ⟨hc, rfl⟩ := base64Value_eq_ok.mp hvc
    refine .inr ⟨c, hc, rfl, ?_⟩
    rw [second_bits hc]
    by_cases hs : s = PAD
    · have hfinal : final = true := by
        by_contra hne
        exact hpadding ⟨hne, .inr hs⟩
      exact .inl ⟨hfinal, hs, by simp [hr, hs]⟩
    · rw [if_neg hs] at hvd
      obtain ⟨hd, rfl⟩ := base64Value_eq_ok.mp hvd
      exact .inr ⟨d, hd, rfl, by simp [hr, hs, last_bits hd]⟩

section Symbols

variable {a b c d : Nat} (final : Bool) (ha : a < 64) (hb : b < 64) (hc : c < 64) (hd : d < 64)
include ha hb

theorem decodeGroup_one : decodeGroup true [symbol a, symbol b, PAD, PAD] =
    .ok [.ofNat (a * 4 + b / 16)] := by
  rw [← first_bits ha hb]
  simp [decodeGroup, index, base64Value_symbol a ha, base64Value_symbol b hb, paddedValue, rejectIf]

include hc

theorem decodeGroup_two : decodeGroup true [symbol a, symbol b, symbol c, PAD] =
    .ok [.ofNat (a * 4 + b / 16), .ofNat (b % 16 * 16 + c / 4)] := by
  rw [← first_bits ha hb, ← second_bits hc]
  simp [decodeGroup, index, base64Value_symbol a ha, base64Value_symbol b hb,
    base64Value_symbol c hc, paddedValue, rejectIf]

include hd

theorem decodeGroup_full : decodeGroup final [symbol a, symbol b, symbol c, symbol d] =
    .ok [.ofNat (a * 4 + b / 16), .ofNat (b % 16 * 16 + c / 4), .ofNat (c % 4 * 64 + d)] := by
  rw [← first_bits ha hb, ← second_bits hc, ← last_bits hd]
  simp [decodeGroup, index, base64Value_symbol a ha, base64Value_symbol b hb,
    base64Value_symbol c hc, base64Value_symbol d hd, paddedValue, rejectIf]

end Symbols

/-! ## Panics -/

def NoPanic {α : Type} (x : Except (Halt CatalogError) α) : Prop := x ≠ .error .panic

theorem NoPanic.bind {α β : Type} {x : Except (Halt CatalogError) α}
    {f : α → Except (Halt CatalogError) β} (hx : NoPanic x) (hf : ∀ a, NoPanic (f a)) :
    NoPanic (x >>= f) := by
  cases x with
  | ok a => exact hf a
  | error e => exact fun h => hx (congrArg Except.error (Except.error.inj h))

theorem noPanic_rejectIf {c : Prop} [Decidable c] (message : String) :
    NoPanic (rejectIf c (iconError message)) := by
  unfold rejectIf
  split
  · exact fun h => nomatch h
  · exact fun h => nomatch h

theorem noPanic_base64Value (byte : UInt8) : NoPanic (base64Value byte) := by
  rcases base64Value_table byte with ⟨n, -, hvalue, -⟩ | hrefused
  · rw [hvalue]
    exact fun h => nomatch h
  · rw [hrefused]
    exact fun h => nomatch h

theorem noPanic_paddedValue (byte : UInt8) : NoPanic (paddedValue byte) := by
  unfold paddedValue
  split
  · exact fun h => nomatch h
  · exact noPanic_base64Value byte

theorem noPanic_decodeGroup (final : Bool) (p q r s : UInt8) :
    NoPanic (decodeGroup final [p, q, r, s]) := by
  have hindex : ∀ i < 4, NoPanic (index [p, q, r, s] i) := by
    intro i hi
    interval_cases i <;> exact fun h => nomatch h
  refine (hindex 2 (by decide)).bind fun third => (hindex 3 (by decide)).bind fun fourth =>
    (noPanic_rejectIf _).bind fun _ => (hindex 0 (by decide)).bind fun first =>
    (noPanic_base64Value first).bind fun a => (hindex 1 (by decide)).bind fun second =>
    (noPanic_base64Value second).bind fun b => (noPanic_paddedValue third).bind fun c =>
    (noPanic_paddedValue fourth).bind fun d => (noPanic_rejectIf _).bind fun _ => ?_
  exact fun h => nomatch h

theorem noPanic_decodeGroups (count i : Nat) (text : List UInt8) :
    NoPanic (decodeGroups count i (groups text)) := by
  induction text using groups.induct generalizing i with
  | case1 p q r s rest ih =>
    refine (noPanic_decodeGroup _ p q r s).bind fun bytes => (ih (i + 1)).bind fun more => ?_
    exact fun h => nomatch h
  | case2 text h =>
    rw [groups]
    · exact fun h => nomatch h
    · exact h

/-! ## Texts -/

/-- A position in the groups: the last one is the one that ends the text. -/
theorem final_iff (i : Nat) (rest : List UInt8) (hlength : rest.length % 4 = 0) :
    decide (i + 1 = i + (rest.length + 4) / 4) = rest.isEmpty := by
  cases rest with
  | nil => simp
  | cons x rest =>
    simp only [List.length_cons, List.isEmpty_cons, decide_eq_false_iff_not] at hlength ⊢
    omega

theorem decodeGroups_cons (i : Nat) (p q r s : UInt8) (rest : List UInt8)
    (hlength : rest.length % 4 = 0) :
    decodeGroups (i + (p :: q :: r :: s :: rest).length / 4) i (groups (p :: q :: r :: s :: rest)) =
      do let bytes ← decodeGroup rest.isEmpty [p, q, r, s]
         let more ← decodeGroups (i + 1 + rest.length / 4) (i + 1) (groups rest)
         return bytes ++ more := by
  have hcount : i + (p :: q :: r :: s :: rest).length / 4 = i + 1 + rest.length / 4 := by
    simp only [List.length_cons]
    omega
  have hfinal := final_iff i rest hlength
  rw [show i + (rest.length + 4) / 4 = i + 1 + rest.length / 4 by omega] at hfinal
  rw [hcount, groups, decodeGroups, hfinal]

theorem toNat_ofNat {n : Nat} (h : n < 256) : (UInt8.ofNat n).toNat = n :=
  UInt8.toNat_ofNat_of_lt h

theorem ofNat_eq {n : Nat} {x : UInt8} (h : n = x.toNat) : UInt8.ofNat n = x := by
  rw [h, UInt8.ofNat_toNat]

/-- **The encoding of what was decoded** is the text, but for unused bits. -/
theorem encode_of_decodeGroups (text : List UInt8) (i : Nat) {bytes : Bytes}
    (hlength : text.length % 4 = 0)
    (h : decodeGroups (i + text.length / 4) i (groups text) = .ok bytes) :
    encodeBase64 bytes = clearUnused text := by
  induction text using groups.induct generalizing i bytes with
  | case1 p q r s rest ih =>
    have hrest : rest.length % 4 = 0 := by
      simp only [List.length_cons] at hlength
      omega
    rw [decodeGroups_cons i p q r s rest hrest] at h
    simp only [bind_eq_ok, pure_eq_ok] at h
    obtain ⟨out, hout, more, hmore, rfl⟩ := h
    have hencoded := ih (i + 1) hrest hmore
    obtain ⟨a, ha, b, hb, rfl, rfl, hshape⟩ := decodeGroup_eq_ok hout
    have hx := toNat_ofNat (n := a * 4 + b / 16) (by omega)
    rcases hshape with ⟨hfinal, rfl, rfl, rfl⟩ | ⟨c, hc, rfl, hshape⟩
    · obtain rfl : rest = [] := List.isEmpty_iff.mp hfinal
      obtain rfl : more = [] := (Except.ok.inj hmore).symm
      simp only [List.append_nil, encodeBase64, hx, clearUnused, if_true, clear, value_symbol hb]
      rw [show (a * 4 + b / 16) / 4 = a by omega,
        show (a * 4 + b / 16) % 4 * 16 = b / 16 * 16 by omega]
    have hy := toNat_ofNat (n := b % 16 * 16 + c / 4) (by omega)
    rcases hshape with ⟨hfinal, rfl, rfl⟩ | ⟨d, hd, rfl, rfl⟩
    · obtain rfl : rest = [] := List.isEmpty_iff.mp hfinal
      obtain rfl : more = [] := (Except.ok.inj hmore).symm
      simp only [List.append_nil, encodeBase64, hx, hy, clearUnused, symbol_ne_pad hc, if_false,
        if_true, clear, value_symbol hc]
      rw [show (a * 4 + b / 16) / 4 = a by omega,
        show (a * 4 + b / 16) % 4 * 16 + (b % 16 * 16 + c / 4) / 16 = b by omega,
        show (b % 16 * 16 + c / 4) % 16 * 4 = c / 4 * 4 by omega]
    · have hz := toNat_ofNat (n := c % 4 * 64 + d) (by omega)
      simp only [List.cons_append, List.nil_append, encodeBase64, hx, hy, hz, hencoded]
      rw [show (a * 4 + b / 16) / 4 = a by omega,
        show (a * 4 + b / 16) % 4 * 16 + (b % 16 * 16 + c / 4) / 16 = b by omega,
        show (b % 16 * 16 + c / 4) % 16 * 4 + (c % 4 * 64 + d) / 64 = c by omega,
        show (c % 4 * 64 + d) % 64 = d by omega]
      cases rest with
      | nil => simp [clearUnused, symbol_ne_pad hc, symbol_ne_pad hd]
      | cons x rest => rfl
  | case2 text hshort =>
    rcases text with _ | ⟨p, _ | ⟨q, _ | ⟨r, _ | ⟨s, rest⟩⟩⟩⟩
    · obtain rfl : [] = bytes := Except.ok.inj h
      rfl
    · simp at hlength
    · simp at hlength
    · simp at hlength
    · exact absurd rfl (hshort p q r s rest)

theorem length_encodeBase64 (bytes : Bytes) : (encodeBase64 bytes).length % 4 = 0 := by
  induction bytes using encodeBase64.induct with
  | case1 => rfl
  | case2 x => simp [encodeBase64]
  | case3 x y => simp [encodeBase64]
  | case4 x y z rest ih =>
    simp only [encodeBase64, List.length_append, List.length_cons, List.length_nil]
    omega

/-- **What was encoded is decoded**. -/
theorem decodeGroups_encode (bytes : Bytes) (i : Nat) :
    decodeGroups (i + (encodeBase64 bytes).length / 4) i (groups (encodeBase64 bytes)) =
      .ok bytes := by
  induction bytes using encodeBase64.induct generalizing i with
  | case1 => rfl
  | case2 x =>
    have hx : x.toNat < 256 := x.toNat_lt
    rw [encodeBase64, decodeGroups_cons i _ _ _ _ [] rfl, List.isEmpty_nil,
      decodeGroup_one (by omega) (by omega), ofNat_eq (x := x) (by omega)]
    rfl
  | case3 x y =>
    have hx : x.toNat < 256 := x.toNat_lt
    have hy : y.toNat < 256 := y.toNat_lt
    rw [encodeBase64, decodeGroups_cons i _ _ _ _ [] rfl, List.isEmpty_nil,
      decodeGroup_two (by omega) (by omega) (by omega), ofNat_eq (x := x) (by omega),
      ofNat_eq (x := y) (by omega)]
    rfl
  | case4 x y z rest ih =>
    have hx : x.toNat < 256 := x.toNat_lt
    have hy : y.toNat < 256 := y.toNat_lt
    have hz : z.toNat < 256 := z.toNat_lt
    rw [encodeBase64]
    simp only [List.cons_append, List.nil_append]
    rw [decodeGroups_cons i _ _ _ _ _ (length_encodeBase64 rest),
      decodeGroup_full _ (by omega) (by omega) (by omega) (by omega), ih (i + 1),
      ofNat_eq (x := x) (by omega), ofNat_eq (x := y) (by omega), ofNat_eq (x := z) (by omega)]
    rfl

/-- **Icons decode exactly**: what was encoded is decoded; an accepted text is the encoding of its
    bytes, but for unused bits before the padding; and no text makes the decoder panic. -/
theorem icons_decode_exactly :
    (∀ bytes, decodeBase64 (encodeBase64 bytes) = .ok bytes) ∧
    (∀ text bytes, decodeBase64 text = .ok bytes → encodeBase64 bytes = clearUnused text) ∧
    ∀ text, decodeBase64 text ≠ .error .panic := by
  refine ⟨fun bytes => ?_, fun text bytes h => ?_, fun text => ?_⟩
  · have hgroups := decodeGroups_encode bytes 0
    rw [Nat.zero_add] at hgroups
    rw [decodeBase64, rejectIf, if_neg (not_not.mpr (length_encodeBase64 bytes))]
    exact hgroups
  · simp only [decodeBase64, bind_eq_ok, rejectIf_eq_ok, exists_const, not_not] at h
    exact encode_of_decodeGroups text 0 h.1 (by rw [Nat.zero_add]; exact h.2)
  · exact (noPanic_rejectIf _).bind fun _ => noPanic_decodeGroups _ 0 text

end Droidloom.Applications
