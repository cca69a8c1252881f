/-
  Little-endian printing and parsing over byte lists.

  A parser is a `Reader`: it consumes a prefix of the remaining bytes or fails.  The point of this
  file is that every parser's success is described by an EQUIVALENCE with the matching printer,

      r.run bs = ok (a, rest)  ↔  bs = print a ++ rest,

  so that one simplification of a decoder's body yields both inverse directions of a codec: the
  bytes that it accepts are exactly the printed ones.
-/
import Droidloom.Lib.Fallible

namespace ByteCodec

open Fallible

abbrev Bytes := List UInt8

/-! ## Little-endian words -/

/-- The low `n` bytes of `v`, least significant first. -/
def leBytes : Nat → Nat → Bytes
  | 0, _ => []
  | n + 1, v => UInt8.ofNat v :: leBytes n (v / 256)

def ofLeBytes : Bytes → Nat
  | [] => 0
  | b :: bs => b.toNat + 256 * ofLeBytes bs

@[simp] theorem length_leBytes (n v : Nat) : (leBytes n v).length = n := by
  induction n generalizing v with
  | zero => rfl
  | succ n ih => simp [leBytes, ih]

theorem ofLeBytes_leBytes (n v : Nat) : ofLeBytes (leBytes n v) = v % 256 ^ n := by
  induction n generalizing v with
  | zero => simp [leBytes, ofLeBytes, Nat.mod_one]
  | succ n ih =>
    rw [leBytes, ofLeBytes, ih, pow_succ', Nat.mod_mul]
    simp

theorem ofLeBytes_lt (bs : Bytes) : ofLeBytes bs < 256 ^ bs.length := by
  induction bs with
  | nil => simp [ofLeBytes]
  | cons b bs ih =>
    rw [ofLeBytes, List.length_cons, pow_succ']
    have := b.toNat_lt
    omega

theorem leBytes_ofLeBytes (bs : Bytes) : leBytes bs.length (ofLeBytes bs) = bs := by
  induction bs with
  | nil => rfl
  | cons b bs ih =>
    have hb := b.toNat_lt
    have hdiv : (b.toNat + 256 * ofLeBytes bs) / 256 = ofLeBytes bs := by omega
    have hlow : UInt8.ofNat (b.toNat + 256 * ofLeBytes bs) = b := by
      apply UInt8.toNat_inj.mp
      simp only [UInt8.toNat_ofNat']
      omega
    rw [List.length_cons, ofLeBytes, leBytes, hdiv, ih, hlow]

/-- An `n`-byte field holds `v` exactly if it is the printed `v`. -/
theorem ofLeBytes_eq_iff {n v : Nat} {bs : Bytes} (hv : v < 256 ^ n) (hlen : bs.length = n) :
    ofLeBytes bs = v ↔ bs = leBytes n v := by
  constructor
  · rintro rfl
    rw [← hlen, leBytes_ofLeBytes]
  · rintro rfl
    rw [ofLeBytes_leBytes, Nat.mod_eq_of_lt hv]

def u8 (v : UInt8) : Bytes := [v]
def u16 (v : UInt16) : Bytes := leBytes 2 v.toNat
def u32 (v : UInt32) : Bytes := leBytes 4 v.toNat
def u64 (v : UInt64) : Bytes := leBytes 8 v.toNat
/-- Two's complement. -/
def i32 (v : Int32) : Bytes := u32 v.toUInt32

@[simp] theorem length_u16 (v : UInt16) : (u16 v).length = 2 := length_leBytes 2 _
@[simp] theorem length_u32 (v : UInt32) : (u32 v).length = 4 := length_leBytes 4 _
@[simp] theorem length_u64 (v : UInt64) : (u64 v).length = 8 := length_leBytes 8 _

@[simp] theorem ofLeBytes_u16 (v : UInt16) : ofLeBytes (u16 v) = v.toNat := by
  rw [u16, ofLeBytes_leBytes]
  exact Nat.mod_eq_of_lt v.toNat_lt

@[simp] theorem ofLeBytes_u32 (v : UInt32) : ofLeBytes (u32 v) = v.toNat := by
  rw [u32, ofLeBytes_leBytes]
  exact Nat.mod_eq_of_lt v.toNat_lt

@[simp] theorem ofLeBytes_u64 (v : UInt64) : ofLeBytes (u64 v) = v.toNat := by
  rw [u64, ofLeBytes_leBytes]
  exact Nat.mod_eq_of_lt v.toNat_lt

/-- Fixed-width words are a prefix code: printed sequences are equal field by field. -/
theorem leBytes_append_inj {n v w : Nat} {x y : Bytes} (hv : v < 256 ^ n) (hw : w < 256 ^ n) :
    leBytes n v ++ x = leBytes n w ++ y ↔ v = w ∧ x = y := by
  constructor
  · intro h
    obtain ⟨h1, h2⟩ := List.append_inj h (by simp)
    refine ⟨?_, h2⟩
    rw [← Nat.mod_eq_of_lt hv, ← Nat.mod_eq_of_lt hw, ← ofLeBytes_leBytes, ← ofLeBytes_leBytes, h1]
  · rintro ⟨rfl, rfl⟩
    rfl

@[simp] theorem u16_append_inj {v w : UInt16} {x y : Bytes} :
    u16 v ++ x = u16 w ++ y ↔ v = w ∧ x = y := by
  rw [u16, u16, leBytes_append_inj v.toNat_lt w.toNat_lt, UInt16.toNat_inj]

/-! ## Big-endian words -/

def beBytes (n v : Nat) : Bytes := (leBytes n v).reverse

def ofBeBytes (bs : Bytes) : Nat := ofLeBytes bs.reverse

/-- The `count` bytes at `offset` as a little-endian number. -/
def field (bytes : Bytes) (offset count : Nat) : Nat := ofLeBytes ((bytes.drop offset).take count)

/-- A field and what follows it, for a word type with reader `of` and value `val`. -/
theorem drop_word {ω : Type} {bytes : Bytes} {offset n : Nat} {of : Nat → ω} {val : ω → Nat}
    (hword : ∀ k, k < 256 ^ n → val (of k) = k) (h : offset + n ≤ bytes.length) :
    bytes.drop offset =
      leBytes n (val (of (field bytes offset n))) ++ bytes.drop (offset + n) := by
  have hlen : ((bytes.drop offset).take n).length = n := by
    rw [List.length_take, List.length_drop]
    omega
  have hlt : field bytes offset n < 256 ^ n := by
    have := ofLeBytes_lt ((bytes.drop offset).take n)
    rwa [hlen] at this
  have hprint := leBytes_ofLeBytes ((bytes.drop offset).take n)
  rw [hlen] at hprint
  rw [hword _ hlt, field, hprint, ← List.drop_drop, List.take_append_drop]

section Drop
variable {bytes : Bytes} {offset : Nat}

theorem drop_u8 (h : offset + 1 ≤ bytes.length) :
    bytes.drop offset = u8 (UInt8.ofNat (field bytes offset 1)) ++ bytes.drop (offset + 1) := by
  have hprint : ∀ v : UInt8, u8 v = leBytes 1 v.toNat := by simp [u8, leBytes]
  rw [hprint]
  exact drop_word (fun _ hk => UInt8.toNat_ofNat_of_lt' hk) h

theorem drop_u16 (h : offset + 2 ≤ bytes.length) :
    bytes.drop offset = u16 (UInt16.ofNat (field bytes offset 2)) ++ bytes.drop (offset + 2) :=
  drop_word (fun _ hk => UInt16.toNat_ofNat_of_lt' hk) h

theorem drop_u32 (h : offset + 4 ≤ bytes.length) :
    bytes.drop offset = u32 (UInt32.ofNat (field bytes offset 4)) ++ bytes.drop (offset + 4) :=
  drop_word (fun _ hk => UInt32.toNat_ofNat_of_lt' hk) h

theorem drop_u64 (h : offset + 8 ≤ bytes.length) :
    bytes.drop offset = u64 (UInt64.ofNat (field bytes offset 8)) ++ bytes.drop (offset + 8) :=
  drop_word (fun _ hk => UInt64.toNat_ofNat_of_lt' hk) h

end Drop

/-! ## Readers -/

abbrev Reader (ε : Type) := StateT Bytes (Except ε)

variable {ε α β : Type}

@[simp] theorem reader_bind_eq_ok {x : Reader ε α} {f : α → Reader ε β} {bs rest : Bytes} {b : β} :
    (x >>= f).run bs = .ok (b, rest) ↔
      ∃ a mid, x.run bs = .ok (a, mid) ∧ (f a).run mid = .ok (b, rest) := by
  rw [StateT.run_bind, bind_eq_ok]
  constructor
  · rintro ⟨⟨a, mid⟩, h1, h2⟩
    exact ⟨a, mid, h1, h2⟩
  · rintro ⟨a, mid, h1, h2⟩
    exact ⟨(a, mid), h1, h2⟩

@[simp] theorem reader_pure_eq_ok {a b : α} {bs rest : Bytes} :
    (pure a : Reader ε α).run bs = .ok (b, rest) ↔ a = b ∧ bs = rest := by
  rw [StateT.run_pure, pure_eq_ok, Prod.mk.injEq]

@[simp] theorem reader_throw_eq_ok {e : ε} {b : α} {bs rest : Bytes} :
    (throw e : Reader ε α).run bs = .ok (b, rest) ↔ False := by
  simp [throw, throwThe, MonadExceptOf.throw, StateT.run, StateT.lift, bind, Except.bind]

/-- `check?` inside a reader: a pure check that consumes nothing. -/
def check (x : Except ε α) : Reader ε α := fun bs =>
  match x with
  | .ok a => .ok (a, bs)
  | .error e => .error e

@[simp] theorem check_eq_ok {x : Except ε α} {bs rest : Bytes} {a : α} :
    (check x).run bs = .ok (a, rest) ↔ x = .ok a ∧ bs = rest := by
  cases x <;> simp [check, StateT.run]

def take (truncated : ε) (count : Nat) : Reader ε Bytes := fun bs =>
  if bs.length < count then .error truncated else .ok (bs.take count, bs.drop count)

@[simp] theorem take_eq_ok {e : ε} {n : Nat} {bs v rest : Bytes} :
    (take e n).run bs = .ok (v, rest) ↔ v.length = n ∧ bs = v ++ rest := by
  show (if bs.length < n then _ else _) = _ ↔ _
  split
  · rename_i h
    constructor
    · intro hc; cases hc
    · rintro ⟨rfl, rfl⟩
      rw [List.length_append] at h
      omega
  · rename_i h
    simp only [Except.ok.injEq, Prod.mk.injEq]
    constructor
    · rintro ⟨rfl, rfl⟩
      exact ⟨by rw [List.length_take]; omega, (List.take_append_drop n bs).symm⟩
    · rintro ⟨rfl, rfl⟩
      simp

def readU8 (e : ε) : Reader ε UInt8 := do
  let bytes ← take e 1
  return UInt8.ofNat (ofLeBytes bytes)

def readU16 (e : ε) : Reader ε UInt16 := do
  let bytes ← take e 2
  return UInt16.ofNat (ofLeBytes bytes)

def readU32 (e : ε) : Reader ε UInt32 := do
  let bytes ← take e 4
  return UInt32.ofNat (ofLeBytes bytes)

def readU64 (e : ε) : Reader ε UInt64 := do
  let bytes ← take e 8
  return UInt64.ofNat (ofLeBytes bytes)

def readI32 (e : ε) : Reader ε Int32 := do
  let value ← readU32 e
  return value.toInt32

/-- The common shape of the fixed-width readers: `of` reads the word, `val` is its inverse. -/
theorem readWord_eq_ok {ω : Type} {e : ε} {n : Nat} {of : Nat → ω} {val : ω → Nat}
    (hlt : ∀ v, val v < 256 ^ n) (hof : ∀ k, k < 256 ^ n → ∀ v, of k = v ↔ k = val v)
    {bs rest : Bytes} {v : ω} :
    (do let bytes ← take e n; return of (ofLeBytes bytes) : Reader ε ω).run bs = .ok (v, rest) ↔
      bs = leBytes n (val v) ++ rest := by
  simp only [reader_bind_eq_ok, take_eq_ok, reader_pure_eq_ok]
  constructor
  · rintro ⟨bytes, mid, ⟨hlen, rfl⟩, hv, rfl⟩
    have hk : ofLeBytes bytes < 256 ^ n := by rw [← hlen]; exact ofLeBytes_lt bytes
    rw [← (ofLeBytes_eq_iff (hlt v) hlen).mp ((hof _ hk v).mp hv)]
  · rintro rfl
    refine ⟨_, rest, ⟨length_leBytes n _, rfl⟩, ?_, rfl⟩
    rw [ofLeBytes_leBytes, Nat.mod_eq_of_lt (hlt v)]
    exact (hof _ (hlt v) v).mpr rfl

@[simp] theorem readU16_eq_ok {e : ε} {bs rest : Bytes} {v : UInt16} :
    (readU16 e).run bs = .ok (v, rest) ↔ bs = u16 v ++ rest :=
  readWord_eq_ok (fun v => v.toNat_lt)
    (fun k hk v => by rw [← UInt16.toNat_inj, UInt16.toNat_ofNat_of_lt' hk])

@[simp] theorem readU32_eq_ok {e : ε} {bs rest : Bytes} {v : UInt32} :
    (readU32 e).run bs = .ok (v, rest) ↔ bs = u32 v ++ rest :=
  readWord_eq_ok (fun v => v.toNat_lt)
    (fun k hk v => by rw [← UInt32.toNat_inj, UInt32.toNat_ofNat_of_lt' hk])

@[simp] theorem readU64_eq_ok {e : ε} {bs rest : Bytes} {v : UInt64} :
    (readU64 e).run bs = .ok (v, rest) ↔ bs = u64 v ++ rest :=
  readWord_eq_ok (fun v => v.toNat_lt)
    (fun k hk v => by rw [← UInt64.toNat_inj, UInt64.toNat_ofNat_of_lt' hk])

/-! ## Lists and strings -/

/-- `for _ in 0..count { items.push(item()?) }`. -/
def readMany (item : Reader ε α) : Nat → Reader ε (List α)
  | 0 => pure []
  | n + 1 => do
    let a ← item
    let as ← readMany item n
    return a :: as

def utf8 (s : String) : Bytes := s.toUTF8.data.toList

@[simp] theorem length_utf8 (s : String) : (utf8 s).length = s.utf8ByteSize := rfl

/-- `str::from_utf8`. -/
def fromUtf8 (bs : Bytes) : Option String := String.fromUTF8? ⟨bs.toArray⟩

@[simp] theorem fromUtf8_eq_some {bs : Bytes} {s : String} :
    fromUtf8 bs = some s ↔ bs = utf8 s := by
  unfold fromUtf8 String.fromUTF8? utf8
  split
  · rename_i h
    rw [Option.some_inj]
    constructor
    · rintro rfl; rfl
    · rintro rfl; rfl
  · rename_i h
    constructor
    · intro hc; cases hc
    · rintro rfl
      exact absurd s.isValidUTF8 h

end ByteCodec
