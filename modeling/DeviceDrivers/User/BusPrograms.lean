import DeviceDrivers.Lib.CallProg
import DeviceDrivers.Lib.Headers
import DeviceDrivers.Lib.HexText

/-!
# Programs for the I2C, SPI and Bluetooth buses

`main` of `I2c_userSpace_testV1_0.c`, `Spi_userSpace_test_v1_0.c` and
`Bluetooth_userSpace.c`. They print what they get from the bus in hexadecimal.

`prints_data`: a program prints the message of the first call that failed, and returns
1. When none has failed it returns 0, and what it has printed can be read back, and is
what came over the bus: two bytes, three bytes, and the address of each device in order.
-/

namespace DeviceDrivers.User.BusPrograms

/-! ## Source -/

/-- The six bytes of a `bdaddr_t`, the last part of the address first. -/
abbrev Bdaddr : Type := Mac

inductive BusCall
  | openDev (path : String)
  | i2cSlave (fd : Int) (addr : Nat)
  | spiWrMode (fd : Int) (mode : Nat)
  | spiWrMaxSpeedHz (fd : Int) (speed : Nat)
  | spiMessage (fd : Int) (tx : List Byte) (len : Nat)
  | write (fd : Int) (bs : List Byte)
  | read (fd : Int) (n : Nat)
  | socketHci
  | hciGetRoute
  | hciInquiry (devId : Int) (len maxRsp : Nat)
  | loadBdaddr (devices : Nat) (i : Nat)
  | free (devices : Nat)
  | close (fd : Int)
  | perror (msg : String)
  | printf (text : List Char)

/-- An inquiry returns the number of devices and where they are. -/
@[reducible] def BusCall.Res : BusCall → Type
  | openDev _ | socketHci | hciGetRoute | i2cSlave .. | spiWrMode .. | spiWrMaxSpeedHz ..
  | write .. => Int
  | spiMessage .. | read .. => Int × List Byte
  | hciInquiry .. => Int × Nat
  | loadBdaddr .. => Bdaddr
  | free _ | close _ | perror _ | printf _ => Unit

abbrev BusProg : Type → Type := Prog BusCall BusCall.Res

@[simp] def openDev (path : String) : BusProg Int := .call (.openDev path) .ret
@[simp] def i2cSlave (fd : Int) (addr : Nat) : BusProg Int := .call (.i2cSlave fd addr) .ret
@[simp] def spiWrMode (fd : Int) (mode : Nat) : BusProg Int := .call (.spiWrMode fd mode) .ret
@[simp] def spiWrMaxSpeedHz (fd : Int) (speed : Nat) : BusProg Int :=
  .call (.spiWrMaxSpeedHz fd speed) .ret
@[simp] def spiMessage (fd : Int) (tx : List Byte) (len : Nat) : BusProg (Int × List Byte) :=
  .call (.spiMessage fd tx len) .ret
@[simp] def write (fd : Int) (bs : List Byte) : BusProg Int := .call (.write fd bs) .ret
@[simp] def read (fd : Int) (n : Nat) : BusProg (Int × List Byte) := .call (.read fd n) .ret
@[simp] def socketHci : BusProg Int := .call .socketHci .ret
@[simp] def hciGetRoute : BusProg Int := .call .hciGetRoute .ret
@[simp] def hciInquiry (devId : Int) (len maxRsp : Nat) : BusProg (Int × Nat) :=
  .call (.hciInquiry devId len maxRsp) .ret
@[simp] def loadBdaddr (devices i : Nat) : BusProg Bdaddr := .call (.loadBdaddr devices i) .ret
@[simp] def free (devices : Nat) : BusProg Unit := .call (.free devices) .ret
@[simp] def close (fd : Int) : BusProg Unit := .call (.close fd) .ret
@[simp] def perror (msg : String) : BusProg Unit := .call (.perror msg) .ret
@[simp] def printf (text : List Char) : BusProg Unit := .call (.printf text) .ret

/-! The formats. -/

def i2cFormat : List Part :=
  [.lit "Received data: 0x".toList, .hex false, .lit " 0x".toList, .hex false, .lit "\n".toList]

def spiFormat : List Part := [.lit "Received: 0x".toList, .hex true, .lit "\n".toList]

/-- What `ba2str` writes, from the last byte to the first. -/
def ba2strFormat : List Part :=
  [.hex true, .lit [':'], .hex true, .lit [':'], .hex true, .lit [':'], .hex true, .lit [':'],
    .hex true, .lit [':'], .hex true]

def ba2str (ba : Bdaddr) : List Char :=
  render ba2strFormat (Mac.bytes ba).reverse

def foundText (numDevices : Int) : List Char :=
  "Found ".toList ++ (toString numDevices).toList ++ " devices:\n".toList

/-- A buffer that had `old`, with `bs` from its front on. -/
def filled (old bs : List Byte) : List Byte := writeAt old 0 bs

def i2cMain : BusProg Int := do
  let file ← openDev "/dev/i2c-1"
  if file < 0 then
    perror "Failed to open the I2C device"
    return 1
  else
  if (← i2cSlave file 0x48) < 0 then
    perror "Failed to set I2C slave address"
    close file
    return 1
  else
  let buffer : List Byte := [0x00, 0x00]
  if (← write file buffer) ≠ 2 then
    perror "Failed to write to the I2C device"
    close file
    return 1
  else
  let (ret, bs) ← read file 2
  let buffer := filled buffer bs
  if ret ≠ 2 then
    perror "Failed to read from the I2C device"
    close file
    return 1
  else
  printf (render i2cFormat buffer)
  close file
  return 0

/-- `spi_init`. An error is the code that the process exits with. -/
def spiInit : BusProg (Except Int Int) := do
  let spiFd ← openDev "/dev/spidev0.0"
  if spiFd < 0 then
    perror "Failed to open SPI device"
    return .error 1
  else
  if (← spiWrMode spiFd 0) < 0 then
    perror "Failed to set SPI mode"
    return .error 1
  else
  if (← spiWrMaxSpeedHz spiFd 1000000) < 0 then
    perror "Failed to set SPI speed"
    return .error 1
  else return .ok spiFd

/-- `spi_transfer`, which leaves the received bytes over `rxBuf`. -/
def spiTransfer (spiFd : Int) (txBuf rxBuf : List Byte) (len : Nat) :
    BusProg (Except Int (List Byte)) := do
  let (ret, bs) ← spiMessage spiFd txBuf len
  if ret < 0 then
    perror "SPI transfer error"
    return .error 1
  else return .ok (filled rxBuf bs)

/-- The loop over `rx_buffer`. -/
def printAll : List Byte → BusProg Unit
  | [] => return ()
  | b :: bs => do
    printf (render spiFormat [b])
    printAll bs

/-- `old` is what `rx_buffer` has before the transfer. -/
def spiMain (old : Fin 3 → Byte) : BusProg Int := do
  match ← spiInit with
  | .error code => return code
  | .ok spiFd =>
  match ← spiTransfer spiFd [0x01, 0x02, 0x03] [old 0, old 1, old 2] 3 with
  | .error code => return code
  | .ok rxBuffer =>
  printAll rxBuffer
  close spiFd
  return 0

/-- The loop over the devices, from the `i`-th on. -/
def printDevices (devices : Nat) : Nat → Nat → BusProg Unit
  | _, 0 => return ()
  | i, n + 1 => do
    let ba ← loadBdaddr devices i
    printf (ba2str ba ++ ['\n'])
    printDevices devices (i + 1) n

def bluetoothMain : BusProg Int := do
  let sock ← socketHci
  if sock < 0 then
    perror "Socket creation failed"
    return 1
  else
  let (numDevices, devices) ← hciInquiry (← hciGetRoute) 8 10
  if numDevices < 0 then
    perror "Device discovery failed"
    close sock
    return 1
  else
  printf (foundText numDevices)
  printDevices devices 0 numDevices.toNat
  free devices
  close sock
  return 0

/-! ## What the calls do -/

/-- What the calls answer: the descriptor, the results of the other calls, the bytes that
come over the bus, and the addresses of the devices that are found, none when the
inquiry fails. -/
structure BusOutcomes where
  fd : Int
  slave : Int
  mode : Int
  speed : Int
  written : Int
  route : Int
  transferred : Option (List Byte)
  incoming : Option (List Byte)
  found : Option (List Bdaddr)
  devices : Nat

/-- What is printed, the newest first. -/
structure BusConsole where
  stdout : List (List Char) := []
  stderr : List String := []

/-- A transfer gets as many bytes as it sends, a read no more than it asks for. -/
@[simp] def buscall (o : BusOutcomes) : (c : BusCall) → BusConsole → c.Res × BusConsole
  | .openDev _, s | .socketHci, s => (o.fd, s)
  | .i2cSlave .., s => (o.slave, s)
  | .spiWrMode .., s => (o.mode, s)
  | .spiWrMaxSpeedHz .., s => (o.speed, s)
  | .spiMessage _ _ len, s =>
    match o.transferred with
    | none => ((-1, []), s)
    | some bs => ((len, (List.range len).map (byteAt bs)), s)
  | .write .., s => (o.written, s)
  | .read _ n, s =>
    match o.incoming with
    | none => ((-1, []), s)
    | some bs => (((bs.take n).length, bs.take n), s)
  | .hciGetRoute, s => (o.route, s)
  | .hciInquiry .., s =>
    match o.found with
    | none => ((-1, 0), s)
    | some bas => ((bas.length, o.devices), s)
  | .loadBdaddr _ i, s => (((o.found.getD [])[i]?).getD fun _ => 0, s)
  | .free _, s | .close _, s => ((), s)
  | .perror msg, s => ((), { s with stderr := msg :: s.stderr })
  | .printf text, s => ((), { s with stdout := text :: s.stdout })

/-! ## What is printed -/

section

variable (o : BusOutcomes)

/-- The calls of a program that can fail, in order: whether they do, and the message for
that. -/
abbrev Checks : Type := List (Bool × String)

/-- The message for the first call that fails. -/
def firstFailure (checks : Checks) : Option String := (checks.find? Prod.fst).map Prod.snd

/-- If a call fails, the run returns 1 and has printed its message alone. If none does, it
returns 0 and has printed lines that `Data` holds of. -/
def Reports (checks : Checks) (Data : List (List Char) → Prop) (r : Int × BusConsole) : Prop :=
  match firstFailure checks with
  | some msg => r = (1, ⟨[], [msg]⟩)
  | none => r.1 = 0 ∧ r.2.stderr = [] ∧ Data r.2.stdout.reverse

/-- A read fails also when it gets fewer bytes than it asks for. -/
def i2cChecks : Checks :=
  [(o.fd < 0, "Failed to open the I2C device"),
    (o.slave < 0, "Failed to set I2C slave address"),
    (o.written ≠ 2, "Failed to write to the I2C device"),
    (o.incoming.all (·.length < 2), "Failed to read from the I2C device")]

def spiChecks : Checks :=
  [(o.fd < 0, "Failed to open SPI device"),
    (o.mode < 0, "Failed to set SPI mode"),
    (o.speed < 0, "Failed to set SPI speed"),
    (o.transferred.isNone, "SPI transfer error")]

/-- The result of `hci_get_route` is not looked at. -/
def bluetoothChecks : Checks :=
  [(o.fd < 0, "Socket creation failed"), (o.found.isNone, "Device discovery failed")]

/-- One line, from which the two bytes that were read can be read back. -/
def I2cData (lines : List (List Char)) : Prop :=
  ∃ bs line, o.incoming = some bs ∧ 2 ≤ bs.length ∧ lines = [line] ∧
    scan i2cFormat line = some (bs.take 2, [])

/-- A line for each of the three bytes that came back. -/
def SpiData (lines : List (List Char)) : Prop :=
  ∃ bs, o.transferred = some bs ∧ lines.map (scan spiFormat) =
    [some ([byteAt bs 0], []), some ([byteAt bs 1], []), some ([byteAt bs 2], [])]

/-- The number of devices, and a line for each of them with its address. -/
def BluetoothData (lines : List (List Char)) : Prop :=
  ∃ bas rest, o.found = some bas ∧ lines = foundText bas.length :: rest ∧
    rest.map (scan ba2strFormat) =
      bas.map fun ba => some ((Mac.bytes ba).reverse, ['\n'])

/-- The line of some bytes alone. -/
theorem scan_line {ps : List Part} {bs : List Byte} (h : bs.length = holes ps) :
    scan ps (render ps bs) = some (bs, []) := by
  have hscan := scan_render h []
  rwa [List.append_nil] at hscan

theorem scan_ba2str (ba : Bdaddr) (text : List Char) :
    scan ba2strFormat (ba2str ba ++ text) = some ((Mac.bytes ba).reverse, text) :=
  scan_render rfl text

theorem i2c_prints : Reports (i2cChecks o) (I2cData o) (i2cMain.exec (buscall o) {}) := by
  by_cases hfd : o.fd < 0
  · simp [Reports, firstFailure, i2cChecks, i2cMain, hfd]
  by_cases hslave : o.slave < 0
  · simp [Reports, firstFailure, i2cChecks, i2cMain, hfd, hslave]
  by_cases hwritten : o.written = 2
  · cases hin : o.incoming with
    | none => simp [Reports, firstFailure, i2cChecks, i2cMain, hfd, hslave, hwritten, hin]
    | some bs =>
      -- The program asks for two bytes.
      rcases bs with _ | ⟨b₀, _ | ⟨b₁, bs⟩⟩
      · simp [Reports, firstFailure, i2cChecks, i2cMain, hfd, hslave, hwritten, hin]
      · simp [Reports, firstFailure, i2cChecks, i2cMain, hfd, hslave, hwritten, hin]
      · have hbuffer : filled [0#8, 0#8] [b₀, b₁] = [b₀, b₁] := writeAt_all rfl
        have hnone : firstFailure (i2cChecks o) = none := by
          simp [firstFailure, i2cChecks, hfd, hslave, hwritten, hin]
        have hrun : i2cMain.exec (buscall o) {} =
            (0, { stdout := [render i2cFormat [b₀, b₁]] }) := by
          simp [i2cMain, hfd, hslave, hwritten, hin, hbuffer]
        rw [Reports, hnone, hrun]
        exact ⟨rfl, rfl, b₀ :: b₁ :: bs, _, hin, by simp, rfl, scan_line rfl⟩
  · simp [Reports, firstFailure, i2cChecks, i2cMain, hfd, hslave, hwritten]

theorem exec_printAll (bs : List Byte) (s : BusConsole) : (printAll bs).exec (buscall o) s =
    ((), { s with stdout := (bs.map fun b => render spiFormat [b]).reverse ++ s.stdout }) := by
  induction bs generalizing s with
  | nil => rfl
  | cons b bs ih =>
    simp only [printAll, printf, Prog.call_bind, Prog.ret_bind, Prog.exec_call, buscall]
    rw [ih]
    simp

theorem spi_prints (old : Fin 3 → Byte) :
    Reports (spiChecks o) (SpiData o) ((spiMain old).exec (buscall o) {}) := by
  by_cases hfd : o.fd < 0
  · simp [Reports, firstFailure, spiChecks, spiMain, spiInit, hfd]
  by_cases hmode : o.mode < 0
  · simp [Reports, firstFailure, spiChecks, spiMain, spiInit, hfd, hmode]
  by_cases hspeed : o.speed < 0
  · simp [Reports, firstFailure, spiChecks, spiMain, spiInit, hfd, hmode, hspeed]
  cases hin : o.transferred with
  | none =>
    simp [Reports, firstFailure, spiChecks, spiMain, spiInit, spiTransfer, hfd, hmode, hspeed, hin]
  | some bs =>
    -- The transfer fills the buffer, whatever it had before.
    have hbuffer : filled [old 0, old 1, old 2] ((List.range 3).map (byteAt bs)) =
        [byteAt bs 0, byteAt bs 1, byteAt bs 2] := writeAt_all rfl
    have hnone : firstFailure (spiChecks o) = none := by
      simp [firstFailure, spiChecks, hfd, hmode, hspeed, hin]
    have hrun : (spiMain old).exec (buscall o) {} =
        (0, { stdout := [render spiFormat [byteAt bs 2], render spiFormat [byteAt bs 1],
          render spiFormat [byteAt bs 0]] }) := by
      simp [spiMain, spiInit, spiTransfer, hfd, hmode, hspeed, hin, hbuffer, Prog.exec_bind,
        exec_printAll]
    rw [Reports, hnone, hrun]
    refine ⟨rfl, rfl, bs, hin, ?_⟩
    simp [scan_line (show [_].length = holes spiFormat from rfl)]

/-- The address of the `i`-th device that was found. -/
def bdaddrAt (i : Nat) : Bdaddr := ((o.found.getD [])[i]?).getD fun _ => 0

theorem exec_printDevices (devices i n : Nat) (s : BusConsole) :
    (printDevices devices i n).exec (buscall o) s = ((), { s with
      stdout := ((List.range' i n).map fun j => ba2str (bdaddrAt o j) ++ ['\n']).reverse ++
        s.stdout }) := by
  induction n generalizing i s with
  | zero => rfl
  | succ n ih =>
    simp only [printDevices, loadBdaddr, printf, Prog.call_bind, Prog.ret_bind, Prog.exec_call,
      buscall]
    rw [ih]
    simp [List.range'_succ, bdaddrAt]

theorem map_bdaddrAt {bas : List Bdaddr} (h : o.found = some bas) :
    (List.range' 0 bas.length).map (bdaddrAt o) = bas := by
  apply List.ext_getElem
  · simp
  · intro i hi hlen
    simp [bdaddrAt, h, hlen]

theorem bluetooth_prints :
    Reports (bluetoothChecks o) (BluetoothData o) (bluetoothMain.exec (buscall o) {}) := by
  by_cases hfd : o.fd < 0
  · simp [Reports, firstFailure, bluetoothChecks, bluetoothMain, hfd]
  cases hin : o.found with
  | none => simp [Reports, firstFailure, bluetoothChecks, bluetoothMain, hfd, hin]
  | some bas =>
    have hcount : ¬ (bas.length : Int) < 0 := Int.not_lt.mpr (Int.natCast_nonneg _)
    have hnone : firstFailure (bluetoothChecks o) = none := by
      simp [firstFailure, bluetoothChecks, hfd, hin]
    have hrun : bluetoothMain.exec (buscall o) {} =
        (0, { stdout := ((List.range' 0 bas.length).map fun j =>
          ba2str (bdaddrAt o j) ++ ['\n']).reverse ++ [foundText bas.length] }) := by
      simp [bluetoothMain, hfd, hin, hcount, Prog.exec_bind, exec_printDevices]
    rw [Reports, hnone, hrun]
    refine ⟨rfl, rfl, bas, _, hin, by rw [List.reverse_append, List.reverse_reverse]; rfl, ?_⟩
    conv_rhs => rw [← map_bdaddrAt o hin]
    simp [scan_ba2str]

/-- Whatever the calls answer, each program prints the message of the first one that
failed and returns 1, or, if none did, exactly the data that came over its bus, and
returns 0. -/
theorem prints_data (old : Fin 3 → Byte) :
    Reports (i2cChecks o) (I2cData o) (i2cMain.exec (buscall o) {}) ∧
    Reports (spiChecks o) (SpiData o) ((spiMain old).exec (buscall o) {}) ∧
    Reports (bluetoothChecks o) (BluetoothData o) (bluetoothMain.exec (buscall o) {}) :=
  ⟨i2c_prints o, spi_prints o old, bluetooth_prints o⟩

end

end DeviceDrivers.User.BusPrograms
