import DeviceDrivers.Kernel.Tables
import DeviceDrivers.Lib.Heap
import DeviceDrivers.Lib.Run
import DeviceDrivers.Lib.UserMem

/-!
# The SPI character driver: read

`spi_char_read` of `CharSpiKS.c`, as a body over the heap and the memory of the
process that reads. `spi_transfer` is not in the repository: it returns NULL or a
fresh buffer with a sample of `DATA_SIZE` bytes.

Without a sample the driver takes the super block of its node for a `struct device`.
The word that lies there in the place of `driver_data` goes to `dev_err`, which follows
it unless it is NULL.

1. `read_noData`, `read_transferred`: what a call returns and leaves.
2. `reads_meet_iff`: a call returns the number of bytes it stored or `-EFAULT`, stores
   nothing but the sample, and frees the buffer it got, exactly as long as that word is
   NULL or a device whenever there is no sample.
-/

namespace DeviceDrivers.SpiCharRead

/-! ## Source -/

/-- The pointer `spi_data`. -/
inductive Via
  | spiData
deriving DecidableEq, Repr

/-- What the kernel has at the addresses that the message is about: the super block
of an open file, the word in the place of `driver_data`, and whether `dev_err` can
print from there, as from a `struct device`. -/
structure KernelWords where
  dSb : Addr → Addr
  driverData : Addr → Option Addr
  prints : Addr → Bool

/-- What decides the calls of one `spi_char_read`, with its arguments: where
`spi_transfer` puts the sample, and the sample; which bytes of the process can be
accessed; what a read outside an object finds. -/
structure ReadCall extends KernelWords where
  filp : Addr
  userBuf : Nat
  count : Nat
  transfer : Option Addr
  sample : Nat → Byte
  accessible : Nat → Bool
  wild : Nat → Byte

structure ReadState where
  mem : Mem Via
  user : Nat → Byte
  printed : List String

/-- The kernel follows a pointer to no device, and the process ends in the call. -/
inductive Oops
  | badDevice (p : Addr)
deriving DecidableEq, Repr

inductive KernelCall
  | spiTransfer (busId deviceId n : Nat)
  | copyToUser (dst : Nat) (p : Addr) (n : Nat)
  | kfree (p : Addr)
  | loadDSb (filp : Addr)
  | devGetDrvdata (dev : Addr)
  | devErr (dev : Option Addr) (msg : String)

@[reducible] def KernelCall.Res : KernelCall → Type
  | spiTransfer .. | devGetDrvdata _ => Option Addr
  | copyToUser .. => Nat
  | loadDSb _ => Addr
  | _ => Unit

abbrev ReadProg : Type → Type := Prog KernelCall KernelCall.Res

@[simp] def spiTransfer (busId deviceId n : Nat) : ReadProg (Option Addr) :=
  .call (.spiTransfer busId deviceId n) .ret
@[simp] def copyToUserBuf (dst : Nat) (p : Addr) (n : Nat) : ReadProg Nat :=
  .call (.copyToUser dst p n) .ret
@[simp] def kfree (p : Addr) : ReadProg Unit := .call (.kfree p) .ret
@[simp] def loadDSb (filp : Addr) : ReadProg Addr := .call (.loadDSb filp) .ret
@[simp] def devGetDrvdata (dev : Addr) : ReadProg (Option Addr) := .call (.devGetDrvdata dev) .ret
@[simp] def devErr (dev : Option Addr) (msg : String) : ReadProg Unit :=
  .call (.devErr dev msg) .ret

def EFAULT : Errno := ⟨14, by decide, by decide⟩

@[simp] def SPI_BUS_ID : Nat := 0
@[simp] def SPI_DEVICE_ID : Nat := 0
@[simp] def DATA_SIZE : Nat := 16

def noDataMsg : String := "Failed to receive data from SPI device\n"

def spiCharRead (filp : Addr) (userBuf count : Nat) : ReadProg Int := do
  match ← spiTransfer SPI_BUS_ID SPI_DEVICE_ID DATA_SIZE with
  | none =>
    -- `dev_get_drvdata(filp->f_dentry->d_sb)`: a super block, not a device.
    let dev ← devGetDrvdata (← loadDSb filp)
    devErr dev noDataMsg
    return EFAULT.code
  | some spiData =>
  let count := min count DATA_SIZE
  if (← copyToUserBuf userBuf spiData count) ≠ 0 then
    kfree spiData
    return EFAULT.code
  else
  kfree spiData
  return count

/-! ## What the calls do -/

/-- `dev_err` prints without a device when it gets NULL, and else reads the name of the
device first. -/
@[simp] def readcall (c : ReadCall) :
    (k : KernelCall) → ReadState → Except Oops k.Res × ReadState
  | .spiTransfer _ _ n, s =>
    (.ok (s.mem.alloc c.transfer c.sample n).1,
      { s with mem := (s.mem.alloc c.transfer c.sample n).2 })
  | .copyToUser dst p n, s =>
    let bs := (s.mem.load c.wild .spiData p 0 n).1
    (.ok (copyToUser ⟨s.user, c.accessible⟩ dst bs).1,
      { s with
        mem := (s.mem.load c.wild .spiData p 0 n).2
        user := (copyToUser ⟨s.user, c.accessible⟩ dst bs).2.byte })
  | .kfree p, s => (.ok (), { s with mem := s.mem.free p })
  | .loadDSb filp, s => (.ok (c.dSb filp), s)
  | .devGetDrvdata dev, s => (.ok (c.driverData dev), s)
  | .devErr none msg, s => (.ok (), { s with printed := msg :: s.printed })
  | .devErr (some p) msg, s =>
    if c.prints p then (.ok (), { s with printed := msg :: s.printed })
    else (.error (.badDevice p), s)

/-! ## One call -/

/-- `spi_transfer` returns the free address `p`. -/
def Transfers (c : ReadCall) (s : ReadState) (p : Addr) : Prop := s.mem.Gives c.transfer p

/-- The number of bytes that the call is to store. -/
def stored (c : ReadCall) : Nat := min c.count 16

/-- The part of the sample that the call is to store. -/
def answer (c : ReadCall) : List Byte := (List.range (stored c)).map c.sample

@[simp] theorem length_answer (c : ReadCall) : (answer c).length = stored c := by
  simp [answer]

/-- The call finds all the bytes that it is to store accessible. -/
def Reachable (c : ReadCall) : Prop := ∀ i < stored c, c.accessible (c.userBuf + i) = true

/-- The word that `dev_err` gets: NULL, or an address it can print from. -/
def Printable (w : KernelWords) (filp : Addr) : Prop :=
  ∀ p, w.driverData (w.dSb filp) = some p → w.prints p = true

/-- The answer of a call and the state after it. -/
def read (s : ReadState) (c : ReadCall) : Except Oops Int × ReadState :=
  (spiCharRead c.filp c.userBuf c.count).tries.exec (readcall c) s

theorem read_noData {c : ReadCall} {s : ReadState} (h : ∀ p, ¬ Transfers c s p)
    (hprints : Printable c.toKernelWords c.filp) :
    read s c = (.ok EFAULT.code, { s with printed := noDataMsg :: s.printed }) := by
  have halloc := Mem.alloc_of_not_gives h c.sample 16
  cases hdev : c.driverData (c.dSb c.filp) with
  | none => simp [read, spiCharRead, halloc, hdev]
  | some p => simp [read, spiCharRead, halloc, hdev, hprints p hdev]

/-- The process ends in `dev_err`. -/
theorem read_oops {c : ReadCall} {s : ReadState} (h : ∀ p, ¬ Transfers c s p)
    (hoops : ¬ Printable c.toKernelWords c.filp) : ∃ p, read s c = (.error (.badDevice p), s) := by
  have halloc := Mem.alloc_of_not_gives h c.sample 16
  unfold Printable at hoops
  push Not at hoops
  obtain ⟨p, hdev, hprints⟩ := hoops
  exact ⟨p, by simp [read, spiCharRead, halloc, hdev, hprints]⟩

/-- A call that gets a sample: the buffer is gone again, and the log has its one
access and its free. -/
theorem read_transferred {c : ReadCall} {s : ReadState} {p : Addr} (h : Transfers c s p) :
    read s c =
      (.ok (if (copyToUser ⟨s.user, c.accessible⟩ c.userBuf (answer c)).1 = 0 then (stored c : Int)
        else EFAULT.code),
      { s with
        mem := ⟨s.mem.heap, .free p true :: .use .spiData p 0 (stored c) (some 16) ::
          .alloc p 16 :: s.mem.log⟩
        user := (copyToUser ⟨s.user, c.accessible⟩ c.userBuf (answer c)).2.byte }) := by
  have halloc := Mem.alloc_of_gives h c.sample 16
  have hback : Function.update s.mem.heap p none = s.mem.heap := Mem.update_none h.2
  have hsample : readAt c.wild ((List.range 16).map c.sample) 0 (min c.count 16) = answer c :=
    readAt_prefix c.wild c.sample (Nat.min_le_right c.count 16)
  by_cases hcopy : (copyToUser ⟨s.user, c.accessible⟩ c.userBuf (answer c)).1 = 0
  · simp [read, spiCharRead, halloc, hback, hsample, hcopy, stored]
  · simp [read, spiCharRead, halloc, hback, hsample, hcopy, stored]

/-! ## Runs of calls -/

def step (s : ReadState) (c : ReadCall) : ReadState := (read s c).2

/-- The call gets a sample, and can store what it is to store. -/
def Succeeds (s : ReadState) (c : ReadCall) : Prop := (∃ p, Transfers c s p) ∧ Reachable c

/-- The user memory with the bytes `bs` at `a`. -/
def overwritten (user : Nat → Byte) (a : Nat) (bs : List Byte) (x : Nat) : Byte :=
  if a ≤ x ∧ x < a + bs.length then bs.getD (x - a) 0 else user x

/-- A successful call returns the number of bytes asked for, but at most that of
a sample, and stores exactly that many bytes of the sample. One that fails
returns `-EFAULT`. The entries `new` of the log are those of the call. -/
structure ReadMeets (s : ReadState) (c : ReadCall) : Prop where
  ok : Succeeds s c → (read s c).1 = .ok (min c.count 16 : Nat) ∧
    (step s c).user = overwritten s.user c.userBuf ((List.range (min c.count 16)).map c.sample)
  fail : ¬ Succeeds s c → (read s c).1 = .ok EFAULT.code
  freed : ∃ new, (step s c).mem.log = new ++ s.mem.log ∧ UsesLive new ∧
    ∀ p, (Transfers c s p → freesOf p new = 1) ∧ (¬ Transfers c s p → freesOf p new = 0)
  live : (step s c).mem.heap = s.mem.heap

/-- There is a sample, or a device to print the message for. -/
def Fits (s : ReadState) (c : ReadCall) : Prop :=
  (∃ p, Transfers c s p) ∨ Printable c.toKernelWords c.filp

theorem reachable_iff (c : ReadCall) (user : Nat → Byte) :
    Reachable c ↔ (UserMem.mk user c.accessible).Accessible c.userBuf (answer c).length := by
  rw [UserMem.accessible_iff, length_answer]
  rfl

theorem store_eq_overwritten (u : UserMem) (a : Nat) (bs : List Byte) :
    (u.store a bs).byte = overwritten u.byte a bs := by
  funext x
  unfold UserMem.store overwritten
  by_cases ha : a ≤ x
  · by_cases hx : x - a < bs.length
    · have hlt : x < a + bs.length := by omega
      simp [ha, hx, hlt]
    · have hge : ¬ x < a + bs.length := by omega
      simp [ha, hge, List.getElem?_eq_none (Nat.not_lt.mp hx)]
  · simp [ha]

/-- A call without a sample. -/
theorem meets_of_noData {c : ReadCall} {s : ReadState} (h : ∀ p, ¬ Transfers c s p)
    (hprints : Printable c.toKernelWords c.filp) : ReadMeets s c where
  ok hok := absurd hok.1 (fun ⟨p, hp⟩ => h p hp)
  fail _ := by rw [read_noData h hprints]
  freed := by
    refine ⟨[], ?_, usesLive_nil, fun p => ⟨fun hp => absurd hp (h p), fun _ => rfl⟩⟩
    rw [step, read_noData h hprints]
    rfl
  live := by rw [step, read_noData h hprints]

/-- A call with a sample, whether it can be stored or not. -/
theorem meets_of_transfers {c : ReadCall} {s : ReadState} {p : Addr} (h : Transfers c s p) :
    ReadMeets s c where
  ok hok := by
    have hacc := (reachable_iff c s.user).mp hok.2
    rw [step, read_transferred h, copyToUser_of_accessible hacc, store_eq_overwritten]
    exact ⟨rfl, rfl⟩
  fail hfail := by
    have hacc : ¬ (UserMem.mk s.user c.accessible).Accessible c.userBuf (answer c).length :=
      fun hacc => hfail ⟨⟨p, h⟩, (reachable_iff c s.user).mpr hacc⟩
    have hfault := (copyToUser_fault_iff ⟨s.user, c.accessible⟩ c.userBuf (answer c)).mpr hacc
    rw [read_transferred h, if_neg hfault]
  freed := by
    refine ⟨[.free p true, .use .spiData p 0 (stored c) (some 16), .alloc p 16], ?_, by simp, ?_⟩
    · rw [step, read_transferred h]
      rfl
    · intro q
      refine ⟨fun hq => ?_, fun hq => ?_⟩
      · simp [h.unique hq]
      · have hne : p ≠ q := fun heq => hq (heq ▸ h)
        simp [hne]
  live := by rw [step, read_transferred h]

theorem meets_iff (s : ReadState) (c : ReadCall) : ReadMeets s c ↔ Fits s c := by
  rcases Classical.em (∃ p, Transfers c s p) with ⟨p, hp⟩ | hfail
  · exact iff_of_true (meets_of_transfers hp) (.inl ⟨p, hp⟩)
  · have hnone : ∀ p, ¬ Transfers c s p := fun p hp => hfail ⟨p, hp⟩
    rw [Fits, or_iff_right hfail]
    refine ⟨fun h => ?_, meets_of_noData hnone⟩
    by_contra hoops
    obtain ⟨p, hread⟩ := read_oops hnone hoops
    have hcode := h.fail fun hok => hfail hok.1
    rw [hread] at hcode
    cases hcode

/-- Also a call that ends in an oops leaves the heap as it was. -/
theorem heap_step (s : ReadState) (c : ReadCall) : (step s c).mem.heap = s.mem.heap := by
  rcases Classical.em (Fits s c) with hfits | hnot
  · exact ((meets_iff s c).mpr hfits).live
  · obtain ⟨hfail, hoops⟩ := not_or.mp hnot
    obtain ⟨p, hread⟩ := read_oops (fun p hp => hfail ⟨p, hp⟩) hoops
    rw [step, hread]

/-- Every call of a run is as `ReadMeets` says if and only if each has a sample, or a word
in its super block that `dev_err` can take. The buffers that are live after a run are
always those that were live before it. -/
theorem reads_meet_iff (s : ReadState) (calls : List ReadCall) :
    (Run.Along step ReadMeets s calls ∧ (Run.run step s calls).mem.heap = s.mem.heap ↔
      Run.Along step Fits s calls) ∧
    (Run.run step s calls).mem.heap = s.mem.heap := by
  have hheap : (Run.run step s calls).mem.heap = s.mem.heap := by
    refine Run.inv_run (I := fun t : ReadState => t.mem.heap = s.mem.heap) (fun t c h => ?_) rfl
      calls
    rw [heap_step, h]
  have halong : Run.Along step ReadMeets s calls ↔ Run.Along step Fits s calls :=
    Run.along_iff_of_inv (I := fun _ => True) (fun s c _ h => ⟨(meets_iff s c).mpr h, trivial⟩)
      (fun s c _ h => (meets_iff s c).mp h) trivial calls
  exact ⟨⟨fun h => halong.mp h.1, fun h => ⟨halong.mpr h, hheap⟩⟩, hheap⟩

/-- There is no sample, and the super block has a pointer in the place, to no device. -/
def noSample : ReadCall where
  dSb _ := 0x40
  driverData _ := some 0x80
  prints _ := false
  filp := 0x20
  userBuf := 0x1000
  count := 16
  transfer := none
  sample _ := 0
  accessible _ := true
  wild _ := 0

/-- The read returns no error: the process ends in `dev_err`. -/
theorem noSample_oops :
    let s : ReadState := ⟨⟨fun _ => none, []⟩, fun _ => 0, []⟩
    (read s noSample).1 = .error (.badDevice 0x80) ∧ ¬ Run.Along step ReadMeets s [noSample] := by
  intro s
  have hread : (read s noSample).1 = .error (.badDevice 0x80) := by
    simp [read, spiCharRead, noSample, Mem.alloc]
  have hfail : ¬ Succeeds s noSample := by
    rintro ⟨⟨p, hp⟩, -⟩
    cases hp.1
  refine ⟨hread, fun h => ?_⟩
  have hcode := h.1.fail hfail
  rw [hread] at hcode
  cases hcode

end DeviceDrivers.SpiCharRead
