import DeviceDrivers.Drivers.FileOps
import DeviceDrivers.User.Receive

/-!
# The Wi-Fi program on the drivers of the repository

`Wi-fi_userSpace.c` opens `/dev/myWi-Fi`, writes a command and prints the answer. The
node stands for some device number, and behind the number is whatever driver is
loaded.

`wiFi_on_driver`: with any loaded driver of the repository behind it, the program
prints an empty answer or says that the write failed, and never old memory.
-/

namespace DeviceDrivers.User.WifiOnDrivers

open Receive FileOps

/-- The open file of the program, what the drivers have logged, the newest first, and
what the program has printed. -/
structure DevState where
  file : Option (FileOperations Module) := none
  klog : List String := []
  console : Console := .start

/-- The kernel under the program: the tables at the time of the open, the number that a
path stands for, and what the functions answer that `body` does not know. -/
structure Below where
  kernel : Kernel Module
  node : String → Option Dev
  fd : Nat
  other : Handler Module → Nat → Int × List Byte

/-- A call of the function in a slot. -/
def callSlot (b : Below) (h : Handler Module) (len : Nat) (s : DevState) :
    (Int × List Byte) × DevState :=
  match body h with
  | some f => ((f.ret len, []), { s with klog := f.log.toList ++ s.klog })
  | none => (b.other h len, s)

def EINVAL : Errno := ⟨22, by decide, by decide⟩

/-- A read or write is refused where the slot is empty. -/
def transfer (b : Below) (op : FileOp) (len : Nat) (s : DevState) :
    (Int × List Byte) × DevState :=
  match s.file.bind (·.slot op) with
  | none => ((EINVAL.code, []), s)
  | some h => callSlot b h len s

/-- Opening and closing works where the slot is empty. -/
def enter (b : Below) (op : FileOp) (fops : FileOperations Module) (s : DevState) : DevState :=
  match fops.slot op with
  | none => s
  | some h => (callSlot b h 0 s).2

/-- A failed call returns -1 to the program. -/
def toUser (ret : Int) : Int := if ret < 0 then -1 else ret

/-- The calls of the program on the kernel. It makes no others. -/
def devcall (b : Below) : (c : UserCall) → DevState → Except Fault c.Res × DevState
  | .openDev path, s =>
    match (b.node path).bind b.kernel.fopsOf with
    | none => (.ok (-1), s)
    | some fops => (.ok b.fd, { enter b .open fops s with file := some fops })
  | .write _ bs, s =>
    let (r, s) := transfer b .write bs.length s
    (.ok (toUser r.1), s)
  | .read _ n, s =>
    let (r, s) := transfer b .read n s
    (.ok (toUser r.1, r.2), s)
  | .close _, s =>
    match s.file with
    | none => (.ok (), s)
    | some fops => (.ok (), { enter b .release fops s with file := none })
  | .perror msg, s => (.ok (), { s with console := s.console.eprint msg })
  | .printf args, s => ((s.console.printf args).1, { s with console := (s.console.printf args).2 })
  | .socketCan, s | .bindCan .., s => (.ok (-1), s)
  | .siocgifindex .., s => (.ok 0, s)
  | .setSpeed .., s => (.ok (), s)

/-! ## One call -/

theorem slot_driver (i : CharDriver) (op : FileOp) :
    i.fops.slot op = if op ∈ i.fops.ops then some ⟨i.name, op⟩ else none := by
  rw [FileOperations.slot, fops_driver]

/-- The state after a call that only logs. -/
def logged (i : CharDriver) (op : FileOp) (s : DevState) : DevState :=
  { s with klog := logOf i op ++ s.klog }

theorem callSlot_logged (b : Below) (i : CharDriver) (op : FileOp) (len : Nat) (s : DevState) :
    (callSlot b ⟨i.name, op⟩ len s).2 = logged i op s := by
  unfold callSlot logged logOf
  cases body ⟨i.name, op⟩ <;> rfl

theorem logged_of_not_mem {i : CharDriver} {op : FileOp} (h : op ∉ i.fops.ops) (s : DevState) :
    logged i op s = s := by
  rw [logged, logOf_of_not_mem h, List.nil_append]

theorem enter_eq (b : Below) (i : CharDriver) (op : FileOp) (s : DevState) :
    enter b op i.fops s = logged i op s := by
  unfold enter
  rw [slot_driver]
  split_ifs with hmem
  · exact callSlot_logged b i op 0 s
  · exact (logged_of_not_mem hmem s).symm

theorem transfer_snd (b : Below) {i : CharDriver} (op : FileOp) (len : Nat) {s : DevState}
    (hfile : s.file = some i.fops) : (transfer b op len s).2 = logged i op s := by
  unfold transfer
  rw [hfile, Option.bind_some, slot_driver]
  split_ifs with hmem
  · exact callSlot_logged b i op len s
  · exact (logged_of_not_mem hmem s).symm

/-- A write to one of the drivers is refused or takes everything. -/
theorem write_ret (b : Below) {i : CharDriver} (len : Nat) {s : DevState}
    (hfile : s.file = some i.fops) :
    toUser (transfer b .write len s).1.1 = if .write ∈ i.fops.ops then (len : Int) else -1 := by
  simp only [transfer, hfile, Option.bind_some, slot_driver]
  cases i with
  | fixed i => cases i <;> rfl
  | etx | esp32 | i2cChar | spiChar => rfl

/-- The drivers that take a write hand out nothing. -/
theorem read_ret (b : Below) {i : CharDriver} (len : Nat) {s : DevState}
    (hfile : s.file = some i.fops) (hwrite : .write ∈ i.fops.ops) :
    (transfer b .read len s).1 = (0, []) := by
  simp only [transfer, hfile, Option.bind_some, slot_driver]
  cases i with
  | fixed i => cases i <;> rfl
  | etx | i2cChar => rfl
  | esp32 | spiChar => exact absurd hwrite (by decide)

/-! ## The program -/

/-- The answer that the program prints when nothing was read. -/
def emptyAnswer : Out := .stdout [.text "Received from device: ", .str [], .text "\n"]

/-- With an empty answer the buffer starts with the NUL that the program has set. -/
theorem exists_buffer (m : Memory) :
    ∃ rest, (writeAt (m.buffer 256) 0 []).set 0 NUL ++ m.after = NUL :: rest := by
  have hpos : 0 < (writeAt (m.buffer 256) 0 []).length := by simp [length_buffer]
  cases hbuffer : writeAt (m.buffer 256) 0 [] with
  | nil =>
    rw [hbuffer] at hpos
    cases hpos
  | cons b rest => exact ⟨rest ++ m.after, rfl⟩

theorem print_empty (b : Below) (m : Memory) {s : DevState} (hstart : s.console = .start) :
    devcall b (.printf [.text "Received from device: ",
      .str ((writeAt (m.buffer 256) 0 []).set 0 NUL ++ m.after), .text "\n"]) s =
      (.ok (), { s with console := ⟨[emptyAnswer], [1]⟩ }) := by
  obtain ⟨rest, hrest⟩ := exists_buffer m
  simp [devcall, hrest, hstart, Console.printf, Console.start, convert, cString, scansOf, scanned,
    emptyAnswer]

/-- What the driver logs in a run of the program, the newest first. -/
def runLog (i : CharDriver) : List String :=
  logOf i .release ++ (if FileOp.write ∈ i.fops.ops then logOf i .read else []) ++
    logOf i .write ++ logOf i .open

/-- The program with the file operations of one of the drivers behind the node. -/
theorem run_of_fops (b : Below) {i : CharDriver} (m : Memory)
    (hfops : (b.node "/dev/myWi-Fi").bind b.kernel.fopsOf = some i.fops) :
    (wiFiMain m).execE (devcall b) {} =
      if FileOp.write ∈ i.fops.ops then (.ok 0, ⟨none, runLog i, ⟨[emptyAnswer], [1]⟩⟩)
      else (.ok (-1), ⟨none, runLog i, ⟨[.stderr "Failed to write to device"], []⟩⟩) := by
  have hfd : ¬(b.fd : Int) < 0 := Int.not_lt.mpr (Int.natCast_nonneg _)
  have hopen : devcall b (.openDev "/dev/myWi-Fi") {} =
      (.ok (b.fd : Int), ⟨some i.fops, logOf i .open, .start⟩) := by
    simp only [devcall, hfops, enter_eq, logged, List.append_nil]
  have hclose (log : List String) (c : Console) : devcall b (.close b.fd) ⟨some i.fops, log, c⟩ =
      (.ok (), ⟨none, logOf i .release ++ log, c⟩) := by
    simp only [devcall, enter_eq, logged]
  have hwrite (log : List String) :
      devcall b (.write b.fd (ascii "AT\r\n")) ⟨some i.fops, log, .start⟩ =
        (.ok (if .write ∈ i.fops.ops then (4 : Int) else -1),
          ⟨some i.fops, logOf i .write ++ log, .start⟩) := by
    have hret := write_ret b (ascii "AT\r\n").length (s := ⟨some i.fops, log, .start⟩) rfl
    have hlog := transfer_snd b .write (ascii "AT\r\n").length (s := ⟨some i.fops, log, .start⟩) rfl
    simp only [devcall, hret, hlog, logged]
    rfl
  split_ifs with hmem
  · have hread (log : List String) :
        devcall b (.read b.fd 255) ⟨some i.fops, log, .start⟩ =
          (.ok (0, []), ⟨some i.fops, logOf i .read ++ log, .start⟩) := by
      have hret := read_ret b 255 (s := ⟨some i.fops, log, .start⟩) rfl hmem
      have hlog := transfer_snd b .read 255 (s := ⟨some i.fops, log, .start⟩) rfl
      simp only [devcall, hret, hlog, logged]
      rfl
    simp only [if_pos hmem] at hwrite
    simp [wiFiMain, Prog.execE, hopen, hfd, hwrite, hread, print_empty, hclose, runLog, hmem]
  · simp only [if_neg hmem] at hwrite
    have hperror (log : List String) :
        devcall b (.perror "Failed to write to device") ⟨some i.fops, log, .start⟩ =
          (.ok (), ⟨some i.fops, log, ⟨[.stderr "Failed to write to device"], []⟩⟩) := rfl
    simp [wiFiMain, Prog.execE, hopen, hfd, hwrite, hperror, hclose, runLog, hmem]

/-- The program on a node that some loaded driver of the repository serves, at any
time while the drivers come and go. -/
theorem wiFi_on_driver {k₀ : Kernel Module} (hk₀ : ∀ i : CharDriver, k₀.Foreign i.name)
    (acts : List (ModAct CharDriver Module)) (node : String → Option Dev) (fd : Nat)
    (other : Handler Module → Nat → Int × List Byte) (m : Memory) {i : CharDriver}
    {st : i.Statics} (hi : i ≠ .i2cChar) :
    let s := Run.run (ModSys.step CharDriver.driver) (ModSys.boot k₀) acts
    s.phase i = .live st → node "/dev/myWi-Fi" = some (i.devNum st) →
    (wiFiMain m).execE (devcall ⟨s.kernel, node, fd, other⟩) {} =
      if FileOp.write ∈ i.fops.ops then (.ok 0, ⟨none, runLog i, ⟨[emptyAnswer], [1]⟩⟩)
      else (.ok (-1), ⟨none, runLog i, ⟨[.stderr "Failed to write to device"], []⟩⟩) := by
  intro s hlive hnode
  obtain ⟨hs, hshared, hphase⟩ : CharDriver.Inv k₀ s :=
    ModSys.inv_run naming CharDriver.driver_name conforms (CharDriver.inv_boot hk₀) acts
  have hon := hphase i
  rw [hlive] at hon
  refine run_of_fops _ m ?_
  show (node "/dev/myWi-Fi").bind s.kernel.fopsOf = _
  rw [hnode, Option.bind_some]
  exact (CharDriver.On.up hshared hon).opens hi

/-- ESP32 refuses the command. -/
theorem wiFi_on_esp32 :
    let k₀ : Kernel Module := {}
    let o : Outcomes Module := { alloc := fun _ => .ok 254 }
    let acts := .insmod .esp32 :: List.replicate 5 (.call .esp32 o)
    let s := Run.run (ModSys.step CharDriver.driver) (ModSys.boot k₀) acts
    (wiFiMain ones).execE
        (devcall ⟨s.kernel, fun _ => some ⟨254, 0⟩, 3, fun _ _ => (0, [])⟩) {} =
      (.ok (-1), ⟨none, ["Closed /dev/my-Wi-Fi device\n", "Opened /dev/myWi-Fi device\n"],
        ⟨[.stderr "Failed to write to device"], []⟩⟩) := by
  intro k₀ o acts s
  have hk₀ : ∀ i : CharDriver, k₀.Foreign i.name := fun i => Kernel.foreign_empty i.name
  have hlive : s.phase .esp32 = .live (Esp32.statics ⟨254, 0⟩) := rfl
  have hserved : CharDriver.esp32 ≠ .i2cChar := nofun
  exact wiFi_on_driver hk₀ acts (fun _ => some ⟨254, 0⟩) 3 (fun _ _ => (0, [])) ones hserved
    hlive rfl

end DeviceDrivers.User.WifiOnDrivers
