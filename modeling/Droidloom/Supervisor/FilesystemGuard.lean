/-
  The seccomp guard that the supervisor installs before Android's init runs
  (`filesystem_guard.rs`): a classic BPF program over the kernel's `seccomp_data`.

  Three layers:
    1. `abiPolicy`, `program` — the generated instruction lists, exactly as the source builds them;
    2. `abiVerdict`, `verdict` — what such a program COMPUTES (`evaluate_program`): every jump lands
       on the intended instruction, the run always ends in a `RET`;
    3. `dispatch`, `mustDeny` — the kernel's own system-call tables, and the calls the guard exists
       to refuse.

  The crux is where 2 and 3 meet.  The program clears the two top bits of the system-call number
  and then looks for ONE ioctl number per ABI.  The x32 table numbers ioctl 514 (and not 16), so
  an x32 ioctl passes whatever its request is; every other guarded call is refused
  (`program_denies_iff`).
-/
import Droidloom.Lib.ClassicBpf

namespace Droidloom.FilesystemGuard

open ClassicBpf

/-! ## The generated program -/

def ALLOW : UInt32 := 0x7fff0000
/-- `SECCOMP_RET_ERRNO | EPERM`. -/
def DENY : UInt32 := 0x00050000 ||| 1
/-- `SECCOMP_RET_ERRNO | ENOSYS`. -/
def ENOSYS : UInt32 := 0x00050000 ||| 38

def MS_REMOUNT : UInt32 := 32
def MS_BIND : UInt32 := 4096

/-- The refused ioctl requests, by their low 16 bits (type and number). -/
def deniedRequests : List UInt32 :=
  [ 0x5877, 0x5878, 0x5879, 0x587d, -- freeze, thaw, trim, shutdown
    0x6607, 0x6608, 0x6610, 0x6611, -- ext4 resize/group/boot inode swap
    0x662b, 0x662c, 0x662e, -- checkpoint, UUID, superblock tuning
    0x9432, -- filesystem label
    0xf506, 0xf50a, 0xf50b, 0xf510 ] -- f2fs GC/flush/resize

/-- The loops of the source that push one comparison and one refusal per table entry. -/
def denyEach (table : List UInt32) : List SockFilter :=
  table.flatMap fun k => [ins JEQ 0 1 k, ins RET 0 0 DENY]

def abiPolicy (ioctl mount quota : UInt32) : List SockFilter :=
  [ins LD 0 0 0, ins AND 0 0 0x3fffffff] ++
  -- quotactl_fd uses the common new syscall numbering
  (denyEach [quota, 443] ++
  -- fsconfig(FSCONFIG_CMD_RECONFIGURE) can change a shared superblock
  ([ins JEQ 0 4 431,
    ins LD 0 0 24,
    ins JEQ 0 1 7,
    ins RET 0 0 DENY,
    ins RET 0 0 ALLOW] ++
  -- a bind remount changes mount flags only; ordinary remount changes the superblock
  ([ins JEQ 0 5 mount,
    ins LD 0 0 40,
    ins JSET 0 2 MS_REMOUNT,
    ins JSET 1 0 MS_BIND,
    ins RET 0 0 DENY,
    ins RET 0 0 ALLOW,
    ins JEQ 1 0 ioctl,
    ins RET 0 0 ALLOW,
    ins LD 0 0 24,
    ins AND 0 0 0xffff] ++
  (denyEach deniedRequests ++
  [ins RET 0 0 ALLOW]))))

inductive TargetArch
  | x86_64
  | aarch64
deriving DecidableEq, Repr

def TargetArch.nativeArch : TargetArch → UInt32
  | .x86_64 => 0xc000003e
  | .aarch64 => 0xc00000b7

def TargetArch.compatArch : TargetArch → UInt32
  | .x86_64 => 0x40000003
  | .aarch64 => 0x40000028

def TargetArch.native : TargetArch → List SockFilter
  | .x86_64 => abiPolicy 16 165 179
  | .aarch64 => abiPolicy 29 40 60

def compat : List SockFilter := abiPolicy 54 21 131

def program (target : TargetArch) : List SockFilter :=
  [ins LD 0 0 4, ins JEQ 0 (UInt8.ofNat target.native.length) target.nativeArch] ++
  (target.native ++
  ([ins JEQ 0 (UInt8.ofNat compat.length) target.compatArch] ++
  (compat ++
  [ins RET 0 0 ENOSYS])))

/-! ## What the program reads -/

/-- The kernel's `struct seccomp_data`. -/
structure SeccompData where
  nr : UInt32
  arch : UInt32
  instructionPointer : UInt64
  args : Fin 6 → UInt64

def lowWord (value : UInt64) : UInt32 := value.toUInt32
def highWord (value : UInt64) : UInt32 := (value >>> 32).toUInt32

def SeccompData.words (d : SeccompData) : List UInt32 :=
  [d.nr, d.arch, lowWord d.instructionPointer, highWord d.instructionPointer] ++
    (List.ofFn d.args).flatMap fun value => [lowWord value, highWord value]

theorem load_nr (d : SeccompData) : d.words[(0 : UInt32).toNat / 4]? = some d.nr := rfl
theorem load_arch (d : SeccompData) : d.words[(4 : UInt32).toNat / 4]? = some d.arch := rfl

theorem load_arg1 (d : SeccompData) :
    d.words[(24 : UInt32).toNat / 4]? = some (lowWord (d.args 1)) := by
  simp [SeccompData.words, List.ofFn_succ]

theorem load_arg3 (d : SeccompData) :
    d.words[(40 : UInt32).toNat / 4]? = some (lowWord (d.args 3)) := by
  simp [SeccompData.words, List.ofFn_succ]

/-! ## What the program computes -/

/-- The verdict of one ABI block, as a decision table on the masked number. -/
def abiVerdict (ioctl mount quota : UInt32) (d : SeccompData) : UInt32 :=
  let nr := d.nr &&& 0x3fffffff
  if nr = quota ∨ nr = 443 then DENY
  else if nr = 431 then if lowWord (d.args 1) = 7 then DENY else ALLOW
  else if nr = mount then
    if lowWord (d.args 3) &&& MS_REMOUNT ≠ 0 ∧ lowWord (d.args 3) &&& MS_BIND = 0 then DENY
    else ALLOW
  else if nr = ioctl then
    if lowWord (d.args 1) &&& 0xffff ∈ deniedRequests then DENY else ALLOW
  else ALLOW

/-- The fsconfig test: entered on 431, it always returns; otherwise it falls through. -/
theorem exec_fsconfig (d : SeccompData) (rest : List SockFilter) (nr : UInt32) :
    exec d.words (ins JEQ 0 4 431 :: ins LD 0 0 24 :: ins JEQ 0 1 7 :: ins RET 0 0 DENY ::
        ins RET 0 0 ALLOW :: rest) 0 nr =
      if nr = 431 then some (if lowWord (d.args 1) = 7 then DENY else ALLOW)
      else exec d.words rest 0 nr := by
  rw [exec_jeq]
  by_cases h431 : nr = 431
  · rw [if_pos h431, if_pos h431]
    show exec d.words _ 0 nr = _
    rw [exec_ld (load_arg1 d), exec_jeq]
    split <;> rfl
  · rw [if_neg h431, if_neg h431]
    rfl

/-- The mount test: entered on the ABI's mount number, it always returns. -/
theorem exec_mount (d : SeccompData) (mount : UInt32) (rest : List SockFilter) (nr : UInt32) :
    exec d.words (ins JEQ 0 5 mount :: ins LD 0 0 40 :: ins JSET 0 2 MS_REMOUNT ::
        ins JSET 1 0 MS_BIND :: ins RET 0 0 DENY :: ins RET 0 0 ALLOW :: rest) 0 nr =
      if nr = mount then
        some (if lowWord (d.args 3) &&& MS_REMOUNT ≠ 0 ∧ lowWord (d.args 3) &&& MS_BIND = 0
          then DENY else ALLOW)
      else exec d.words rest 0 nr := by
  rw [exec_jeq]
  by_cases hm : nr = mount
  · rw [if_pos hm, if_pos hm]
    show exec d.words _ 0 nr = _
    rw [exec_ld (load_arg3 d), exec_jset]
    by_cases hr : lowWord (d.args 3) &&& MS_REMOUNT = 0
    · simp only [hr, ne_eq, not_true_eq_false, false_and, if_false]
      rfl
    · simp only [hr, ne_eq, not_false_eq_true, true_and, if_true]
      show exec d.words (ins JSET 1 0 MS_BIND :: _) 0 _ = _
      rw [exec_jset]
      by_cases hb : lowWord (d.args 3) &&& MS_BIND = 0
      · simp only [hb, ne_eq, not_true_eq_false, if_false, if_true]
        rfl
      · simp only [hb, ne_eq, not_false_eq_true, if_false, if_true]
        rfl
  · rw [if_neg hm, if_neg hm]
    rfl

/-- The ioctl test and the request table, which end every ABI block. -/
theorem exec_ioctl (d : SeccompData) (ioctl : UInt32) (rest : List SockFilter) (nr : UInt32) :
    exec d.words (ins JEQ 1 0 ioctl :: ins RET 0 0 ALLOW :: ins LD 0 0 24 ::
        ins AND 0 0 0xffff :: (denyEach deniedRequests ++ (ins RET 0 0 ALLOW :: rest))) 0 nr =
      some (if nr = ioctl then
        if lowWord (d.args 1) &&& 0xffff ∈ deniedRequests then DENY else ALLOW
      else ALLOW) := by
  rw [exec_jeq]
  by_cases hi : nr = ioctl
  · rw [if_pos hi, if_pos hi]
    show exec d.words (ins RET 0 0 ALLOW :: _) (0 + 1) nr = _
    rw [exec_skip, exec_ld (load_arg1 d), exec_and, denyEach, exec_table, exec_ret]
    split <;> rfl
  · rw [if_neg hi, if_neg hi]
    rfl

/-- **One ABI block**: it returns its verdict whatever follows it and whatever the accumulator
    holds on entry; no path falls out of its end. -/
theorem exec_abiPolicy (ioctl mount quota : UInt32) (d : SeccompData) (rest : List SockFilter)
    (a : UInt32) :
    exec d.words (abiPolicy ioctl mount quota ++ rest) 0 a =
      some (abiVerdict ioctl mount quota d) := by
  simp only [abiPolicy, List.append_assoc, List.cons_append, List.nil_append]
  rw [exec_ld (load_nr d), exec_and, denyEach, exec_table, exec_fsconfig, exec_mount, exec_ioctl]
  simp only [abiVerdict, List.mem_cons, List.not_mem_nil, or_false]
  split_ifs <;> rfl

def TargetArch.nativeVerdict : TargetArch → SeccompData → UInt32
  | .x86_64 => abiVerdict 16 165 179
  | .aarch64 => abiVerdict 29 40 60

/-- The verdict of the whole program: the architecture selects the block. -/
def verdict (target : TargetArch) (d : SeccompData) : UInt32 :=
  if d.arch = target.nativeArch then target.nativeVerdict d
  else if d.arch = target.compatArch then abiVerdict 54 21 131 d
  else ENOSYS

theorem exec_native (target : TargetArch) (d : SeccompData) (rest : List SockFilter) (a : UInt32) :
    exec d.words (target.native ++ rest) 0 a = some (target.nativeVerdict d) := by
  cases target <;> exact exec_abiPolicy _ _ _ d rest a

/-- The 8-bit jump over a block is not truncated. -/
theorem native_length (target : TargetArch) :
    (UInt8.ofNat target.native.length).toNat = target.native.length + 0 := by
  cases target <;> rfl

theorem compat_length : (UInt8.ofNat compat.length).toNat = compat.length + 0 := rfl

/-- **The program is total and computes `verdict`** on every architecture word, number and
    argument vector. -/
theorem evaluate_program (target : TargetArch) (d : SeccompData) :
    evaluate (program target) d.words = some (verdict target d) := by
  rw [evaluate_eq_exec]
  simp only [program, List.cons_append, List.nil_append]
  rw [exec_ld (load_arch d), exec_jeq, verdict]
  by_cases hn : d.arch = target.nativeArch
  · rw [if_pos hn, if_pos hn]
    exact exec_native target d _ _
  · rw [if_neg hn, if_neg hn, native_length, exec_append_skip, exec_jeq]
    by_cases hc : d.arch = target.compatArch
    · rw [if_pos hc, if_pos hc]
      exact exec_abiPolicy _ _ _ d _ _
    · rw [if_neg hc, if_neg hc, compat_length, exec_append_skip]
      rfl

/-! ### The verdict as one condition

  The blocks compare one number after the other and the first match decides.  The numbers of an ABI
  are distinct, so the order does not matter and the refusals are a plain disjunction. -/

/-- The numbers that one block is generated from. -/
structure Abi where
  ioctl : UInt32
  mount : UInt32
  quota : UInt32
deriving DecidableEq, Repr

/-- No number of the block is another one's, nor one of the two common numbers. -/
def Abi.Distinct (abi : Abi) : Prop :=
  [abi.quota, 443, 431, abi.mount, abi.ioctl].Nodup

def Abi.Denies (abi : Abi) (d : SeccompData) : Prop :=
  let nr := d.nr &&& 0x3fffffff
  nr = abi.quota ∨ nr = 443 ∨
    (nr = 431 ∧ lowWord (d.args 1) = 7) ∨
    (nr = abi.mount ∧ lowWord (d.args 3) &&& MS_REMOUNT ≠ 0 ∧ lowWord (d.args 3) &&& MS_BIND = 0) ∨
    (nr = abi.ioctl ∧ lowWord (d.args 1) &&& 0xffff ∈ deniedRequests)

def TargetArch.nativeAbi : TargetArch → Abi
  | .x86_64 => ⟨16, 165, 179⟩
  | .aarch64 => ⟨29, 40, 60⟩

def compatAbi : Abi := ⟨54, 21, 131⟩

theorem allow_ne_deny : ALLOW ≠ DENY := by decide

/-- A block with distinct numbers refuses exactly what `Denies` says and allows the rest. -/
theorem abiVerdict_cases {abi : Abi} (habi : abi.Distinct) (d : SeccompData) :
    abi.Denies d ∧ abiVerdict abi.ioctl abi.mount abi.quota d = DENY ∨
      ¬ abi.Denies d ∧ abiVerdict abi.ioctl abi.mount abi.quota d = ALLOW := by
  unfold Abi.Distinct at habi
  simp only [List.nodup_cons, List.mem_cons, List.not_mem_nil, or_false, not_or] at habi
  obtain ⟨⟨-, hq431, hqm, hqi⟩, ⟨-, h443m, h443i⟩, ⟨h431m, h431i⟩, hmi, -⟩ := habi
  simp only [Abi.Denies, abiVerdict]
  generalize d.nr &&& 0x3fffffff = nr
  -- one case per number, in the order in which the block compares them
  by_cases hquota : nr = abi.quota ∨ nr = 443
  · left
    rw [if_pos hquota]
    refine ⟨?_, rfl⟩
    rcases hquota with hquota | hquota
    · exact .inl hquota
    · exact .inr (.inl hquota)
  rw [if_neg hquota]
  rw [not_or] at hquota
  by_cases h431 : nr = 431
  · subst h431
    rw [if_pos rfl]
    by_cases hreconfigure : lowWord (d.args 1) = 7
    · simp [hreconfigure]
    · simp [hreconfigure, hquota, h431m, h431i]
  rw [if_neg h431]
  by_cases hmount : nr = abi.mount
  · subst hmount
    rw [if_pos rfl]
    by_cases hremount : lowWord (d.args 3) &&& MS_REMOUNT ≠ 0 ∧ lowWord (d.args 3) &&& MS_BIND = 0
    · simp [hremount]
    · simp only [hquota, h431, hmi, hremount, if_false, false_and, and_false, or_false, not_false_eq_true,
        and_self, or_true]
  rw [if_neg hmount]
  by_cases hioctl : nr = abi.ioctl
  · subst hioctl
    rw [if_pos rfl]
    by_cases hrequest : lowWord (d.args 1) &&& 0xffff ∈ deniedRequests
    · simp [hrequest]
    · simp [hrequest, hquota, h431, hmount]
  · simp [hquota, h431, hmount, hioctl]

theorem nativeAbi_distinct (target : TargetArch) : target.nativeAbi.Distinct := by
  cases target <;> unfold Abi.Distinct TargetArch.nativeAbi <;> decide

theorem compatAbi_distinct : compatAbi.Distinct := by
  unfold Abi.Distinct compatAbi
  decide

theorem nativeVerdict_eq (target : TargetArch) (d : SeccompData) :
    target.nativeVerdict d =
      abiVerdict target.nativeAbi.ioctl target.nativeAbi.mount target.nativeAbi.quota d := by
  cases target <;> rfl

/-- **The program is exact**: it ends on every input, answers `ENOSYS` exactly to foreign
    architectures, `DENY` exactly to the refused calls of the two ABIs and `ALLOW` to the rest. -/
theorem program_exact (target : TargetArch) (d : SeccompData) :
    ∃ answer, evaluate (program target) d.words = some answer ∧
      (answer = ENOSYS ↔ d.arch ≠ target.nativeArch ∧ d.arch ≠ target.compatArch) ∧
      (d.arch = target.nativeArch →
        (answer = DENY ↔ target.nativeAbi.Denies d) ∧
          (answer = ALLOW ↔ ¬ target.nativeAbi.Denies d)) ∧
      (d.arch = target.compatArch →
        (answer = DENY ↔ compatAbi.Denies d) ∧ (answer = ALLOW ↔ ¬ compatAbi.Denies d)) := by
  have harches : target.nativeArch ≠ target.compatArch := by cases target <;> decide
  have hdenied : DENY ≠ ENOSYS := by decide
  have hallowed : ALLOW ≠ ENOSYS := by decide
  refine ⟨verdict target d, evaluate_program target d, ?_⟩
  unfold verdict
  by_cases hnative : d.arch = target.nativeArch
  · have hcompat : d.arch ≠ target.compatArch := fun h => harches (hnative.symm.trans h)
    rw [if_pos hnative, nativeVerdict_eq]
    rcases abiVerdict_cases (nativeAbi_distinct target) d with ⟨hdenies, hv⟩ | ⟨hdenies, hv⟩
    · simp [hv, hnative, harches, hdenies, hdenied, allow_ne_deny.symm]
    · simp [hv, hnative, harches, hdenies, hallowed, allow_ne_deny]
  · rw [if_neg hnative]
    by_cases hcompat : d.arch = target.compatArch
    · rw [if_pos hcompat]
      have hv := abiVerdict_cases compatAbi_distinct d
      rw [show abiVerdict compatAbi.ioctl compatAbi.mount compatAbi.quota d =
        abiVerdict 54 21 131 d from rfl] at hv
      rcases hv with ⟨hdenies, hv⟩ | ⟨hdenies, hv⟩
      · simp [hv, hcompat, hdenies, hdenied, allow_ne_deny.symm, harches.symm]
      · simp [hv, hcompat, hdenies, hallowed, allow_ne_deny, harches.symm]
    · rw [if_neg hcompat]
      simp [hnative, hcompat]

/-! ## The kernel's side -/

/-- The system calls that the guard is about. -/
inductive SysCall
  | ioctl
  | mount
  | quotactl
  | fsconfig
  | quotactlFd
deriving DecidableEq, Repr

/-- The 64-bit x86 table. -/
def x64Table (nr : UInt32) : Option SysCall :=
  if nr = 16 then some .ioctl
  else if nr = 165 then some .mount
  else if nr = 179 then some .quotactl
  else if nr = 431 then some .fsconfig
  else if nr = 443 then some .quotactlFd
  else none

/-- The x32 table shares the common numbers and has its own ioctl. -/
def x32Table (nr : UInt32) : Option SysCall :=
  if nr = 514 then some .ioctl else x64Table nr

def i386Table (nr : UInt32) : Option SysCall :=
  if nr = 54 then some .ioctl
  else if nr = 21 then some .mount
  else if nr = 131 then some .quotactl
  else if nr = 431 then some .fsconfig
  else if nr = 443 then some .quotactlFd
  else none

def AUDIT_ARCH_X86_64 : UInt32 := 0xc000003e
def AUDIT_ARCH_I386 : UInt32 := 0x40000003
def X32_SYSCALL_BIT : UInt32 := 0x40000000

/-- How an x86-64 kernel dispatches a number: below bit 30 through the 64-bit table, otherwise
    through the x32 table after subtracting that bit. -/
def dispatch (arch nr : UInt32) : Option SysCall :=
  if arch = AUDIT_ARCH_X86_64 then
    if nr < X32_SYSCALL_BIT then x64Table nr else x32Table (nr - X32_SYSCALL_BIT)
  else if arch = AUDIT_ARCH_I386 then i386Table nr
  else none

/-- The operations on a shared filesystem, by system call and arguments.  `ioctl` and `fsconfig`
    take their request as an `unsigned int`, `mount` its flags as an `unsigned long`. -/
def SysCall.reachesSharedFilesystem (args : Fin 6 → UInt64) : SysCall → Bool
  | .ioctl => lowWord (args 1) &&& 0xffff ∈ deniedRequests
  | .mount => args 3 &&& MS_REMOUNT.toUInt64 ≠ 0 ∧ args 3 &&& MS_BIND.toUInt64 = 0
  | .quotactl => true
  | .fsconfig => lowWord (args 1) = 7
  | .quotactlFd => true

/-- The calls that the guard has to refuse. -/
def mustDeny (d : SeccompData) : Bool :=
  (dispatch d.arch d.nr).any (SysCall.reachesSharedFilesystem d.args)

/-! ## Where the two sides meet -/

/-- A flag test on the low word is the flag test on the whole argument. -/
theorem and_toUInt64_eq_zero_iff (value : UInt64) (flag : UInt32) :
    value &&& flag.toUInt64 = 0 ↔ lowWord value &&& flag = 0 := by
  rw [lowWord, ← UInt64.toBitVec_inj, ← UInt32.toBitVec_inj]
  constructor
  · intro h
    ext i hi
    have hb := congrArg (fun b => b.getLsbD i) h
    simp only [UInt32.toBitVec_and, UInt64.toBitVec_toUInt32, BitVec.getElem_and]
    simp [hi] at hb ⊢
    intro hv
    exact hb hv (by omega)
  · intro h
    ext i hi
    have := congrArg (fun b => b.getLsbD i) h
    simp at this ⊢
    grind

/-- The five numbers that an ABI block knows. -/
def abiNumber (ioctl mount quota : UInt32) : SysCall → UInt32
  | .ioctl => ioctl
  | .mount => mount
  | .quotactl => quota
  | .fsconfig => 431
  | .quotactlFd => 443

theorem x64Table_eq_some {nr : UInt32} {c : SysCall} (h : x64Table nr = some c) :
    nr = abiNumber 16 165 179 c := by
  unfold x64Table at h
  split_ifs at h <;> (cases h; assumption)

theorem i386Table_eq_some {nr : UInt32} {c : SysCall} (h : i386Table nr = some c) :
    nr = abiNumber 54 21 131 c := by
  unfold i386Table at h
  split_ifs at h <;> (cases h; assumption)

/-- A block refuses every guarded call whose masked number is the block's own number for it.
    The numbers have to be distinct, since the first comparison that matches decides. -/
theorem abiVerdict_eq_deny {ioctl mount quota : UInt32} {d : SeccompData} {c : SysCall}
    (hinj : Function.Injective (abiNumber ioctl mount quota))
    (hnr : d.nr &&& 0x3fffffff = abiNumber ioctl mount quota c)
    (hc : c.reachesSharedFilesystem d.args) :
    abiVerdict ioctl mount quota d = DENY := by
  have hne : ∀ c', c ≠ c' → abiNumber ioctl mount quota c ≠ abiNumber ioctl mount quota c' :=
    fun c' h he => h (hinj he)
  have h1 := hne .quotactl
  have h2 := hne .quotactlFd
  have h3 := hne .fsconfig
  have h4 := hne .mount
  simp only [abiVerdict, hnr]
  cases c with
  | quotactl => simp [abiNumber]
  | quotactlFd => simp [abiNumber]
  | fsconfig => simp_all [abiNumber, SysCall.reachesSharedFilesystem]
  | mount => simp_all [abiNumber, SysCall.reachesSharedFilesystem, and_toUInt64_eq_zero_iff]
  | ioctl => simp_all [abiNumber, SysCall.reachesSharedFilesystem]

theorem abiNumber_x64_injective : Function.Injective (abiNumber 16 165 179) := by
  intro a b h
  cases a <;> cases b <;> first | rfl | exact absurd h (by decide)

theorem abiNumber_i386_injective : Function.Injective (abiNumber 54 21 131) := by
  intro a b h
  cases a <;> cases b <;> first | rfl | exact absurd h (by decide)

/-- The x32 ioctl carrying a refused request. -/
def x32DeniedIoctl (d : SeccompData) : Bool :=
  d.arch = AUDIT_ARCH_X86_64 ∧ d.nr = X32_SYSCALL_BIT + 514 ∧
    lowWord (d.args 1) &&& 0xffff ∈ deniedRequests

/-- Every guarded call other than the x32 ioctl has, after masking, the number its block
    compares with.  The cases are the three tables of `dispatch`. -/
theorem verdict_eq_deny {d : SeccompData} (hd : mustDeny d) (hx : ¬ x32DeniedIoctl d) :
    verdict .x86_64 d = DENY := by
  rw [mustDeny, Option.any_eq_true] at hd
  obtain ⟨c, hdisp, hc⟩ := hd
  unfold dispatch at hdisp
  split_ifs at hdisp with harch hlow hcompat
  · -- the 64-bit table: bit 30 is clear, masking changes nothing
    have hnr := x64Table_eq_some hdisp
    rw [verdict, if_pos (by exact harch)]
    refine abiVerdict_eq_deny abiNumber_x64_injective ?_ hc
    rw [hnr]
    cases c <;> rfl
  · unfold x32Table at hdisp
    split_ifs at hdisp with h514
    · -- x32's own ioctl, the one number that no block compares with
      have hnr : d.nr = X32_SYSCALL_BIT + 514 := eq_add_of_sub_eq' h514
      cases hdisp
      rw [SysCall.reachesSharedFilesystem, decide_eq_true_eq] at hc
      exact absurd (decide_eq_true ⟨harch, hnr, hc⟩) hx
    · -- the common numbers: masking clears exactly bit 30
      have hnr : d.nr = abiNumber 16 165 179 c + X32_SYSCALL_BIT :=
        eq_add_of_sub_eq (x64Table_eq_some hdisp)
      rw [verdict, if_pos (by exact harch)]
      refine abiVerdict_eq_deny abiNumber_x64_injective ?_ hc
      rw [hnr]
      cases c <;> rfl
  · have hnr := i386Table_eq_some hdisp
    rw [verdict, if_neg (by exact harch), if_pos (by exact hcompat)]
    refine abiVerdict_eq_deny abiNumber_i386_injective ?_ hc
    rw [hnr]
    cases c <;> rfl

/-- On x32's ioctl number the program falls through every comparison of its native block. -/
theorem verdict_x32_ioctl {d : SeccompData} (harch : d.arch = AUDIT_ARCH_X86_64)
    (hnr : d.nr = X32_SYSCALL_BIT + 514) : verdict .x86_64 d = ALLOW := by
  rw [verdict, if_pos (by exact harch)]
  have hmask : d.nr &&& 0x3fffffff = 514 := by rw [hnr]; rfl
  simp only [TargetArch.nativeVerdict, abiVerdict, hmask]
  rfl

theorem mustDeny_of_x32DeniedIoctl {d : SeccompData} (hx : x32DeniedIoctl d) : mustDeny d := by
  simp only [x32DeniedIoctl, decide_eq_true_eq] at hx
  obtain ⟨harch, hnr, hreq⟩ := hx
  have hdisp : dispatch d.arch d.nr = some .ioctl := by rw [harch, hnr]; rfl
  simpa [mustDeny, hdisp, SysCall.reachesSharedFilesystem] using hreq

/-- **What the installed program refuses.**  At every architecture word, number and argument
    vector: if the kernel would carry out a guarded operation then the program answers `DENY` —
    EXCEPT for x32's ioctl with a refused request, and there it never does. -/
theorem program_denies_iff (d : SeccompData) :
    (mustDeny d → evaluate (program .x86_64) d.words = some DENY) ↔ ¬ x32DeniedIoctl d := by
  rw [evaluate_program, Option.some_inj]
  constructor
  · intro h hx
    have hdeny := h (mustDeny_of_x32DeniedIoctl hx)
    simp only [x32DeniedIoctl, decide_eq_true_eq] at hx
    rw [verdict_x32_ioctl hx.1 hx.2.1] at hdeny
    exact absurd hdeny (by decide)
  · intro hx hd
    exact verdict_eq_deny hd hx

/-- `FIFREEZE` (0xc0045877) through the x32 ioctl. -/
def x32Freeze : SeccompData where
  nr := 0x40000202
  arch := AUDIT_ARCH_X86_64
  instructionPointer := 0
  args := fun i => if i = 1 then 0xc0045877 else 0

/-- The x32 freeze has to be refused and the program allows it. -/
theorem x32_freeze_allowed :
    mustDeny x32Freeze ∧ evaluate (program .x86_64) x32Freeze.words = some ALLOW ∧
      ¬ (∀ d, mustDeny d → evaluate (program .x86_64) d.words = some DENY) := by
  have hallow : evaluate (program .x86_64) x32Freeze.words = some ALLOW := by decide
  have hdeny : mustDeny x32Freeze := by decide
  refine ⟨hdeny, hallow, fun h => ?_⟩
  have := (h x32Freeze hdeny).symm.trans hallow
  exact absurd this (by decide)

end Droidloom.FilesystemGuard
