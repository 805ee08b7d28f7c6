import DeviceDrivers.Lib.Run
import DeviceDrivers.Lib.UserMem

/-!
# The ioctl driver: the value behind WR_VALUE and RD_VALUE

`etx_ioctl` of `Ioctl_kernel_device_driver.c` keeps one `int32_t` for all its
callers. A fault in either copy is noticed, but the call returns 0. The numbers of the
commands have the size of a pointer in them, which is a parameter: 4 bytes on the
machine that the head of the file names.

`register_law_iff`: the calls behave as a register, with failing calls refused,
exactly in the histories in which no WR_VALUE or RD_VALUE call faults.
-/

namespace DeviceDrivers.Ioctl

/-! ## Source -/

/-- `_IOC`, with the direction 1 for `_IOW` and 2 for `_IOR`. -/
def ioc (dir type nr size : Nat) : BitVec 32 :=
  BitVec.ofNat 32 (dir <<< 30 ||| size <<< 16 ||| type <<< 8 ||| nr)

/-- `_IOW('a','a',int32_t*)`, with pointers of `ptr` bytes. -/
def WR_VALUE (ptr : Nat) : BitVec 32 := ioc 1 'a'.toNat 'a'.toNat ptr

/-- `_IOR('a','b',int32_t*)`, with pointers of `ptr` bytes. -/
def RD_VALUE (ptr : Nat) : BitVec 32 := ioc 2 'a'.toNat 'b'.toNat ptr

/-- The messages of `etx_ioctl`. -/
inductive IoctlMsg
  /-- `pr_err("Data Write : Err!\n")` -/
  | dataWriteErr
  /-- `pr_info("Value = %d\n", value)` -/
  | value (v : BitVec 32)
  /-- `pr_err("Data Read : Err!\n")` -/
  | dataReadErr
  /-- `pr_info("Default\n")` -/
  | default
deriving DecidableEq, Repr

/-- What a call returns and leaves behind: `value`, the caller's memory and the
messages. -/
structure IoctlResult where
  ret : Int
  value : BitVec 32
  user : UserMem
  log : List IoctlMsg

/-- The `int32_t` whose bytes in memory are `bs`. -/
def int32OfBytes (bs : List Byte) : BitVec 32 := BitVec.ofNat 32 (leValue bs)

/-- The bytes of an `int32_t` in memory. -/
def int32Bytes (v : BitVec 32) : List Byte := leBytes 4 v.toNat

def etxIoctl (ptr : Nat) (cmd : BitVec 32) (arg : Nat) (u : UserMem) (value : BitVec 32) :
    IoctlResult :=
  if cmd = WR_VALUE ptr then
    let (left, dst) := copyFromUser u arg 4
    let value := int32OfBytes dst
    -- The message is all that a fault changes; the call goes on with what was copied.
    let err := if left ≠ 0 then [.dataWriteErr] else []
    ⟨0, value, u, err ++ [.value value]⟩
  else if cmd = RD_VALUE ptr then
    let (left, u) := copyToUser u arg (int32Bytes value)
    ⟨0, value, u, if left ≠ 0 then [.dataReadErr] else []⟩
  else
    ⟨0, value, u, [.default]⟩

/-! ## One call -/

variable {ptr : Nat}

/-- The number of a command is its lowest byte. -/
theorem getLsbD_ioc (dir type nr size : Nat) : (ioc dir type nr size).getLsbD 0 = nr.testBit 0 := by
  simp only [ioc, BitVec.getLsbD_ofNat, Nat.testBit_or, Nat.testBit_shiftLeft]
  simp

theorem wr_ne_rd : WR_VALUE ptr ≠ RD_VALUE ptr := by
  intro heq
  have hbit := congrArg (BitVec.getLsbD · 0) heq
  simp only [WR_VALUE, RD_VALUE, getLsbD_ioc] at hbit
  exact absurd hbit (by decide)

theorem int32Bytes_length (v : BitVec 32) : (int32Bytes v).length = 4 := length_leBytes _ _

@[simp] theorem etxIoctl_ret (cmd : BitVec 32) (arg : Nat) (u : UserMem) (v : BitVec 32) :
    (etxIoctl ptr cmd arg u v).ret = 0 := by
  unfold etxIoctl
  split
  · rfl
  · split <;> rfl

theorem etxIoctl_value_of_ne {cmd : BitVec 32} (h : cmd ≠ WR_VALUE ptr) (arg : Nat) (u : UserMem)
    (v : BitVec 32) : (etxIoctl ptr cmd arg u v).value = v := by
  unfold etxIoctl
  rw [if_neg h]
  split <;> rfl

theorem etxIoctl_write {arg : Nat} {u : UserMem} (h : u.Accessible arg 4) (v : BitVec 32) :
    (etxIoctl ptr (WR_VALUE ptr) arg u v).value = int32OfBytes (u.bytes arg 4) := by
  simp [etxIoctl, copyFromUser_of_accessible h]

theorem etxIoctl_read {arg : Nat} {u : UserMem} (h : u.Accessible arg 4) (v : BitVec 32) :
    (etxIoctl ptr (RD_VALUE ptr) arg u v).user = u.store arg (int32Bytes v) := by
  have hcopy : copyToUser u arg (int32Bytes v) = (0, u.store arg (int32Bytes v)) :=
    copyToUser_of_accessible (by rw [int32Bytes_length]; exact h)
  simp [etxIoctl, wr_ne_rd.symm, hcopy]

theorem etxIoctl_accessible (cmd : BitVec 32) (arg : Nat) (u : UserMem) (v : BitVec 32) :
    (etxIoctl ptr cmd arg u v).user.accessible = u.accessible := by
  unfold etxIoctl
  split
  · rfl
  · split <;> rfl

/-! ## Histories -/

/-- A call by some process, with the memory of that process at that time. -/
structure IoctlCall where
  pid : Nat
  cmd : BitVec 32
  arg : Nat
  user : UserMem

namespace IoctlCall

def result (ptr : Nat) (c : IoctlCall) (v : BitVec 32) : IoctlResult :=
  etxIoctl ptr c.cmd c.arg c.user v

/-- The call moves an `int32_t`, and one of its four bytes is not accessible. -/
def Faults (ptr : Nat) (c : IoctlCall) : Prop :=
  (c.cmd = WR_VALUE ptr ∨ c.cmd = RD_VALUE ptr) ∧ ¬ c.user.Accessible c.arg 4

/-- The `int32_t` at the caller's address. -/
def int32 (c : IoctlCall) : BitVec 32 := int32OfBytes (c.user.bytes c.arg 4)

end IoctlCall

/-- The state of a history: the driver's `value`, and what it should be, the
`int32_t` of the most recent WR_VALUE call that returned 0. -/
structure History where
  value : BitVec 32
  written : BitVec 32

/-- `int32_t value = 0`, and no call so far. -/
def History.start : History := ⟨0, 0⟩

def History.step (ptr : Nat) (h : History) (c : IoctlCall) : History where
  value := (c.result ptr h.value).value
  written := if c.cmd = WR_VALUE ptr ∧ (c.result ptr h.value).ret = 0 then c.int32 else h.written

/-- The memory holds `v` at `a`, in four bytes that the caller can access. -/
def StoredAt (u : UserMem) (a : Nat) (v : BitVec 32) : Prop :=
  u.Accessible a 4 ∧ u.bytes a 4 = int32Bytes v

/-- What a register promises of the call `c`: a read that returns 0 has stored
the value last written, and a write that faults is refused. -/
structure RegisterLaw (ptr : Nat) (h : History) (c : IoctlCall) : Prop where
  read : c.cmd = RD_VALUE ptr → (c.result ptr h.value).ret = 0 →
    StoredAt (c.result ptr h.value).user c.arg h.written
  write : c.cmd = WR_VALUE ptr → c.Faults ptr →
    (c.result ptr h.value).ret ≠ 0 ∧ (c.result ptr h.value).value = h.value

theorem step_agree {h : History} (heq : h.value = h.written) {c : IoctlCall}
    (hc : ¬ c.Faults ptr) : (h.step ptr c).value = (h.step ptr c).written := by
  by_cases hcmd : c.cmd = WR_VALUE ptr
  · have hacc : c.user.Accessible c.arg 4 := by
      by_contra hacc
      exact hc ⟨.inl hcmd, hacc⟩
    simp only [History.step, IoctlCall.result, hcmd, etxIoctl_ret, and_self, if_true,
      etxIoctl_write hacc, IoctlCall.int32]
  · simp [History.step, IoctlCall.result, hcmd, etxIoctl_value_of_ne hcmd, heq]

theorem registerLaw_of_agree {h : History} (heq : h.value = h.written) {c : IoctlCall}
    (hc : ¬ c.Faults ptr) : RegisterLaw ptr h c where
  read hcmd _ := by
    have hacc : c.user.Accessible c.arg 4 := by
      by_contra hacc
      exact hc ⟨.inr hcmd, hacc⟩
    rw [IoctlCall.result, hcmd, etxIoctl_read hacc, ← heq]
    refine ⟨hacc, ?_⟩
    have hlen := int32Bytes_length h.value
    have := c.user.bytes_store c.arg (int32Bytes h.value)
    rwa [hlen] at this
  write _ hfault := absurd hfault hc

/-- A call that faults breaks the law: it returns 0 all the same. -/
theorem not_registerLaw_of_faults {h : History} {c : IoctlCall} (hc : c.Faults ptr) :
    ¬ RegisterLaw ptr h c := by
  intro hlaw
  rcases hc.1 with hwr | hrd
  · exact (hlaw.write hwr hc).1 (etxIoctl_ret _ _ _ _)
  · have hacc := (hlaw.read hrd (etxIoctl_ret _ _ _ _)).1
    rw [UserMem.accessible_iff, IoctlCall.result, etxIoctl_accessible,
      ← UserMem.accessible_iff] at hacc
    exact hc.2 hacc

/-- The ioctl calls of all processes, in the order in which they run, behave as
one register exactly when none of them faults. -/
theorem register_law_iff (ptr : Nat) (calls : List IoctlCall) :
    Run.Along (History.step ptr) (RegisterLaw ptr) .start calls ↔ ∀ c ∈ calls, ¬ c.Faults ptr := by
  have halong : Run.Along (History.step ptr) (fun _ c => ¬ c.Faults ptr) .start calls ↔
      ∀ c ∈ calls, ¬ c.Faults ptr := Run.along_const
  rw [← halong]
  refine Run.along_iff_of_inv (I := fun h => h.value = h.written) ?_ ?_ rfl calls
  · intro h c heq hc
    exact ⟨registerLaw_of_agree heq hc, step_agree heq hc⟩
  · intro h c _ hlaw hc
    exact not_registerLaw_of_faults hc hlaw

/-- A WR_VALUE call on an `int32_t` of which only the first two bytes, both
`0xff`, can be read. Pointers have 4 bytes. -/
def halfMapped : IoctlCall where
  pid := 1
  cmd := WR_VALUE 4
  arg := 0x1000
  user := ⟨fun _ => 0xff, fun a => decide (a < 0x1002)⟩

/-- The call returns 0 and sets `value` to the two bytes that were read. -/
theorem halfMapped_accepted :
    (halfMapped.result 4 0).ret = 0 ∧ (halfMapped.result 4 0).value = 0xffff ∧
    ¬ Run.Along (History.step 4) (RegisterLaw 4) .start [halfMapped] := by
  refine ⟨by decide, by decide, fun h => ?_⟩
  have hfault : halfMapped.Faults 4 := ⟨.inl rfl, by rw [UserMem.accessible_iff]; decide⟩
  exact not_registerLaw_of_faults hfault h.1

end DeviceDrivers.Ioctl
