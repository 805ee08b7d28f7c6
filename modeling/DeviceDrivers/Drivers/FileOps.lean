import DeviceDrivers.Drivers.Together

/-!
# The file operations of the character drivers

The functions behind the slots of the drivers' `file_operations`, but for
`spi_char_read` and `etx_ioctl`, which have their own modules. They log what they do,
hand out no data and take all that is written.

`body_isSome_iff`: every slot that a driver fills has a function, and no other.
-/

namespace DeviceDrivers

/-- What a function logs, and what it returns for a length. -/
structure Body where
  log : Option String
  ret : Nat → Int

namespace FileOps

/-! ## Source -/

/-- An `open` or `release` with a message. -/
def announces (msg : String) : Body := ⟨some msg, fun _ => 0⟩

/-- A read that returns 0 bytes. -/
def readsNothing (log : Option String) : Body := ⟨log, fun _ => 0⟩

/-- A write that returns the length. -/
def takesAll (log : Option String) : Body := ⟨log, fun len => len⟩

def canOpen : Body := announces "CAN device opened\n"
def canRelease : Body := announces "CAN device closed\n"
def canRead : Body := readsNothing none
def canWrite : Body := takesAll none

def wifiOpen : Body := announces "Wi-Fi device opened\n"
def wifiRelease : Body := announces "Wi-Fi device closed\n"
def wifiRead : Body := readsNothing none
def wifiWrite : Body := takesAll none

def bluetoothOpen : Body := announces "Bluetooth device opened\n"
def bluetoothRelease : Body := announces "Bluetooth device closed\n"
def bluetoothRead : Body := readsNothing none
def bluetoothWrite : Body := takesAll none

def etxOpen : Body := announces "Device File Opened...!!!\n"
def etxRelease : Body := announces "Device File Closed...!!!\n"
def etxRead : Body := readsNothing "Read Function\n"
def etxWrite : Body := takesAll "Write function\n"

def esp32Open : Body := announces "Opened /dev/myWi-Fi device\n"
def esp32Release : Body := announces "Closed /dev/my-Wi-Fi device\n"

def i2cCharDriverOpen : Body := announces "I2C char driver opened\n"
def i2cCharDriverRelease : Body := announces "I2C char driver closed\n"
def i2cCharDriverRead : Body := readsNothing none
def i2cCharDriverWrite : Body := takesAll none

/-- The function behind a slot. -/
def body : Handler Module → Option Body
  | ⟨.can, .open⟩ => some canOpen
  | ⟨.can, .release⟩ => some canRelease
  | ⟨.can, .read⟩ => some canRead
  | ⟨.can, .write⟩ => some canWrite
  | ⟨.wifi, .open⟩ => some wifiOpen
  | ⟨.wifi, .release⟩ => some wifiRelease
  | ⟨.wifi, .read⟩ => some wifiRead
  | ⟨.wifi, .write⟩ => some wifiWrite
  | ⟨.bluetooth, .open⟩ => some bluetoothOpen
  | ⟨.bluetooth, .release⟩ => some bluetoothRelease
  | ⟨.bluetooth, .read⟩ => some bluetoothRead
  | ⟨.bluetooth, .write⟩ => some bluetoothWrite
  | ⟨.etx, .open⟩ => some etxOpen
  | ⟨.etx, .release⟩ => some etxRelease
  | ⟨.etx, .read⟩ => some etxRead
  | ⟨.etx, .write⟩ => some etxWrite
  | ⟨.esp32, .open⟩ => some esp32Open
  | ⟨.esp32, .release⟩ => some esp32Release
  | ⟨.i2cChar, .open⟩ => some i2cCharDriverOpen
  | ⟨.i2cChar, .release⟩ => some i2cCharDriverRelease
  | ⟨.i2cChar, .read⟩ => some i2cCharDriverRead
  | ⟨.i2cChar, .write⟩ => some i2cCharDriverWrite
  | _ => none

/-! ## Slots and functions -/

theorem fops_driver (i : CharDriver) : i.fops.driver = i.name := by
  cases i with
  | fixed i => cases i <;> rfl
  | etx | esp32 | i2cChar | spiChar => rfl

/-- The slots that a driver fills are those with a function, here or in a module of its
own. -/
theorem body_isSome_iff (i : CharDriver) (op : FileOp) :
    op ∈ i.fops.ops ↔ (body ⟨i.name, op⟩).isSome ∨ (i = .spiChar ∧ op = .read) ∨
      (i = .etx ∧ op = .unlockedIoctl) := by
  cases i with
  | fixed i => cases i <;> cases op <;> decide
  | etx | esp32 | i2cChar | spiChar => cases op <;> decide

/-- What the function in a slot logs. -/
def logOf (i : CharDriver) (op : FileOp) : List String :=
  (body ⟨i.name, op⟩).elim [] (·.log.toList)

theorem logOf_of_not_mem {i : CharDriver} {op : FileOp} (h : op ∉ i.fops.ops) :
    logOf i op = [] := by
  cases hbody : body ⟨i.name, op⟩ with
  | none => simp only [logOf, hbody, Option.elim_none]
  | some f =>
    have hsome : (body ⟨i.name, op⟩).isSome := Option.isSome_iff_exists.mpr ⟨f, hbody⟩
    exact absurd ((body_isSome_iff i op).mpr (.inl hsome)) h

end FileOps

end DeviceDrivers
