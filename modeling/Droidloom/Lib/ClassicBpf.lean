/-
  Classic BPF over a read-only buffer of 32-bit words.

  The machine has ONE accumulator and only FORWARD jumps, so a run never visits an instruction
  twice.  `evaluate` is the usual pc-indexed loop (with the program length as fuel); `exec` runs
  the same program by structural recursion on the instruction list, where a jump is a number of
  instructions still to skip.  `evaluate_eq_exec` identifies the two, so proofs about generated
  programs go block by block along the list and never compute a program counter.
-/
import Mathlib

namespace ClassicBpf

/-! ## Instructions -/

def LD : UInt16 := 0x20
def JEQ : UInt16 := 0x15
def JSET : UInt16 := 0x45
def AND : UInt16 := 0x54
def RET : UInt16 := 0x06

structure SockFilter where
  code : UInt16
  jt : UInt8
  jf : UInt8
  k : UInt32
deriving DecidableEq, Repr

def ins (code : UInt16) (jt jf : UInt8) (k : UInt32) : SockFilter := ⟨code, jt, jf, k⟩

/-- What one instruction does to the accumulator: fall through (or jump `skip` further
    instructions), return, or fault (unknown opcode, or a load outside the buffer). -/
inductive Effect
  | next (skip : Nat) (a : UInt32)
  | ret (k : UInt32)
  | fault
deriving DecidableEq, Repr

def effect (words : List UInt32) (op : SockFilter) (a : UInt32) : Effect :=
  if op.code = LD then
    match words[op.k.toNat / 4]? with
    | some w => .next 0 w
    | none => .fault
  else if op.code = AND then .next 0 (a &&& op.k)
  else if op.code = JEQ then .next (if a = op.k then op.jt else op.jf).toNat a
  else if op.code = JSET then .next (if a &&& op.k ≠ 0 then op.jt else op.jf).toNat a
  else if op.code = RET then .ret op.k
  else .fault

/-! ## The pc-indexed loop -/

/-- `none` means that the run left the program, faulted or ran out of fuel. -/
def evaluateLoop (code : List SockFilter) (words : List UInt32) :
    Nat → Nat → UInt32 → Option UInt32
  | 0, _, _ => none
  | fuel + 1, pc, a =>
    match code[pc]? with
    | none => none
    | some op =>
      match effect words op a with
      | .next skip a' => evaluateLoop code words fuel (pc + 1 + skip) a'
      | .ret k => some k
      | .fault => none

def evaluate (code : List SockFilter) (words : List UInt32) : Option UInt32 :=
  evaluateLoop code words code.length 0 0

/-! ## Structural execution -/

/-- Runs a program suffix; the `Nat` is how many instructions are still to be skipped. -/
def exec (words : List UInt32) : List SockFilter → Nat → UInt32 → Option UInt32
  | [], _, _ => none
  | _ :: rest, n + 1, a => exec words rest n a
  | op :: rest, 0, a =>
    match effect words op a with
    | .next skip a' => exec words rest skip a'
    | .ret k => some k
    | .fault => none

variable {words : List UInt32} {rest : List SockFilter} {a : UInt32}

theorem exec_eq_exec_drop (code : List SockFilter) (n : Nat) (a : UInt32) :
    exec words code n a = exec words (code.drop n) 0 a := by
  induction code generalizing n with
  | nil => simp [exec]
  | cons op rest ih =>
    cases n with
    | zero => rfl
    | succ n => rw [exec, ih, List.drop_succ_cons]

/-- The loop started at `pc` runs the suffix from `pc` on, as soon as the fuel covers that
    suffix.  The induction is on the fuel; a jump only makes the suffix shorter. -/
theorem evaluateLoop_eq_exec (code : List SockFilter) (fuel pc : Nat) (a : UInt32)
    (h : code.length ≤ pc + fuel) :
    evaluateLoop code words fuel pc a = exec words (code.drop pc) 0 a := by
  induction fuel generalizing pc a with
  | zero => rw [List.drop_eq_nil_of_le (by omega)]; rfl
  | succ fuel ih =>
    rcases Nat.lt_or_ge pc code.length with hpc | hpc
    · simp only [List.drop_eq_getElem_cons hpc, evaluateLoop, List.getElem?_eq_getElem hpc, exec]
      cases effect words code[pc] a with
      | next skip a' =>
        show evaluateLoop code words fuel (pc + 1 + skip) a' = exec words _ skip a'
        rw [ih _ _ (by omega), exec_eq_exec_drop _ skip, List.drop_drop]
      | ret k => rfl
      | fault => rfl
    · rw [List.drop_eq_nil_of_le hpc, evaluateLoop, List.getElem?_eq_none hpc]; rfl

theorem evaluate_eq_exec (code : List SockFilter) (words : List UInt32) :
    evaluate code words = exec words code 0 0 := by
  rw [evaluate, evaluateLoop_eq_exec _ _ _ _ (by omega), List.drop_zero]

/-! ## One rule per instruction, and the rule for blocks -/

@[simp] theorem exec_skip (op : SockFilter) (n : Nat) :
    exec words (op :: rest) (n + 1) a = exec words rest n a := rfl

theorem exec_ld {k w : UInt32} (hw : words[k.toNat / 4]? = some w) :
    exec words (ins LD 0 0 k :: rest) 0 a = exec words rest 0 w := by
  simp [exec, effect, ins, hw]

@[simp] theorem exec_and (k : UInt32) :
    exec words (ins AND 0 0 k :: rest) 0 a = exec words rest 0 (a &&& k) := rfl

@[simp] theorem exec_jeq (jt jf : UInt8) (k : UInt32) :
    exec words (ins JEQ jt jf k :: rest) 0 a =
      exec words rest (if a = k then jt else jf).toNat a := rfl

@[simp] theorem exec_jset (jt jf : UInt8) (k : UInt32) :
    exec words (ins JSET jt jf k :: rest) 0 a =
      exec words rest (if a &&& k ≠ 0 then jt else jf).toNat a := rfl

@[simp] theorem exec_ret (jt jf : UInt8) (k : UInt32) :
    exec words (ins RET jt jf k :: rest) 0 a = some k := rfl

/-- Skipping a whole block lands on what follows it. -/
theorem exec_append_skip (block : List SockFilter) (n : Nat) :
    exec words (block ++ rest) (block.length + n) a = exec words rest n a := by
  rw [exec_eq_exec_drop, List.drop_length_add_append, ← exec_eq_exec_drop]

/-- A table of equality tests, each followed by a return of the same value: the accumulator is
    looked up in the table, and the run falls through with the accumulator unchanged when it is
    not there. -/
theorem exec_table (table : List UInt32) (verdict : UInt32) :
    exec words (table.flatMap (fun k => [ins JEQ 0 1 k, ins RET 0 0 verdict]) ++ rest) 0 a =
      if a ∈ table then some verdict else exec words rest 0 a := by
  induction table with
  | nil => simp
  | cons k table ih =>
    simp only [List.flatMap_cons, List.cons_append, List.nil_append]
    by_cases hk : a = k
    · simp [hk]
    · rw [exec_jeq, if_neg hk]
      show exec words (ins RET 0 0 verdict :: _) (0 + 1) a = _
      rw [exec_skip, ih]
      simp [hk]

end ClassicBpf
