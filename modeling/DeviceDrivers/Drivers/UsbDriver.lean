import DeviceDrivers.Kernel.Tables
import DeviceDrivers.Lib.DriverCore

/-!
# The USB driver

`USB_device_driver_v1_1.c`. The driver says in the kernel log when a device of its
table is plugged in and when it is unplugged.

`usb_log`: in every run the log has one line for each call, in order, with the ids of
the table, and as many devices are bound as were plugged in and not unplugged again.
-/

namespace DeviceDrivers.UsbDriver

/-! ## Source -/

/-- The fields of `struct usb_device_id` that `USB_DEVICE` sets. -/
structure UsbDeviceId where
  idVendor : BitVec 16
  idProduct : BitVec 16
deriving DecidableEq, Repr

/-- A `struct usb_interface`, with the ids in the descriptor of its device. -/
structure UsbInterface where
  number : Nat
  descriptor : UsbDeviceId
deriving DecidableEq, Repr

/-- The two messages, with the ids that they print. -/
inductive UsbMsg
  | plugged (id : UsbDeviceId)
  | unplugged (id : UsbDeviceId)
deriving DecidableEq, Repr

def myUsbProbe (_interface : UsbInterface) (id : UsbDeviceId) (log : List UsbMsg) :
    Int × List UsbMsg := (0, .plugged id :: log)

def myUsbDisconnect (interface : UsbInterface) (log : List UsbMsg) : List UsbMsg :=
  .unplugged interface.descriptor :: log

/-- The second entry is the terminating one. -/
def myUsbTable : List UsbDeviceId := [⟨0x1234, 0x5678⟩, ⟨0, 0⟩]

/-! ## The USB core -/

def ENODEV : Errno := ⟨19, by decide, by decide⟩

/-- `usb_match_id`: the first entry with the ids of the device, up to the terminating
one. -/
def usbMatchId (interface : UsbInterface) : List UsbDeviceId → Option UsbDeviceId
  | [] => none
  | id :: table =>
    if id = ⟨0, 0⟩ then none
    else if interface.descriptor = id then some id
    else usbMatchId interface table

/-- `my_usb_driver` as the core calls it: the probe gets the entry that matches. -/
def myUsbDriver : CoreDriver UsbInterface (List UsbMsg) where
  takes interface := (usbMatchId interface myUsbTable).isSome
  probe interface log :=
    match usbMatchId interface myUsbTable with
    | some id => myUsbProbe interface id log
    | none => (ENODEV.code, log)
  remove := myUsbDisconnect

/-- `outcome` is the error of `usb_register`, if any, and `order` that of the calls
that follow. -/
inductive UsbAct
  | insmod (outcome : Option Errno) (order : List UsbInterface)
  | rmmod (order : List UsbInterface)
  | plug (interface : UsbInterface)
  | unplug (interface : UsbInterface)

/-- The module is loaded when `my_usb_init` returns 0, that is when `usb_register`
does. -/
def step (c : Core UsbInterface (List UsbMsg)) : UsbAct → Core UsbInterface (List UsbMsg)
  | .insmod none order => c.step myUsbDriver (.register order)
  | .insmod (some _) _ => c
  | .rmmod order => c.step myUsbDriver (.deregister order)
  | .plug interface => c.step myUsbDriver (.plug interface)
  | .unplug interface => c.step myUsbDriver (.unplug interface)

/-! ## The log -/

/-- The ids of the device that the driver is for. -/
def exampleId : UsbDeviceId := ⟨0x1234, 0x5678⟩

theorem usbMatchId_eq (interface : UsbInterface) : usbMatchId interface myUsbTable =
    if interface.descriptor = exampleId then some exampleId else none := by
  show (if exampleId = ⟨0, 0⟩ then none else if interface.descriptor = exampleId then
    some exampleId else none) = _
  exact if_neg (by decide)

theorem takes_iff (interface : UsbInterface) :
    myUsbDriver.takes interface = true ↔ interface.descriptor = exampleId := by
  simp only [myUsbDriver, usbMatchId_eq]
  split <;> simp_all

/-- The line of a call. -/
def line : Callback UsbInterface → UsbMsg
  | .probe _ => .plugged exampleId
  | .remove _ => .unplugged exampleId

/-- The log has the lines of the calls, and counts the bound devices. -/
structure Logged (bound : List UsbInterface) (calls : List (Callback UsbInterface))
    (log : List UsbMsg) : Prop where
  lines : log = calls.map line
  counts : log.count (.plugged exampleId) = log.count (.unplugged exampleId) + bound.length
  bound : ∀ interface ∈ bound, interface.descriptor = exampleId

theorem keeps_logged : myUsbDriver.Keeps Logged where
  binds interface log htakes := by
    rw [takes_iff] at htakes
    simp [myUsbDriver, usbMatchId_eq, htakes, myUsbProbe]
  probe interface bound calls log htakes _ h := by
    rw [takes_iff] at htakes
    simp only [myUsbDriver, usbMatchId_eq, if_pos htakes, myUsbProbe]
    refine ⟨by rw [h.lines]; rfl, ?_, List.forall_mem_cons.mpr ⟨htakes, h.bound⟩⟩
    rw [List.count_cons_self, List.count_cons_of_ne (by simp), h.counts, List.length_cons]
    rfl
  remove interface bound calls log hbound _ h := by
    have hid := h.bound interface hbound
    simp only [myUsbDriver, myUsbDisconnect, hid]
    refine ⟨by rw [h.lines]; rfl, ?_, fun i hi => h.bound i (List.mem_of_mem_erase hi)⟩
    rw [List.count_cons_self, List.count_cons_of_ne (by simp), h.counts,
      List.length_erase_of_mem hbound]
    have hpos := List.length_pos_of_mem hbound
    omega

theorem inv_step {c : Core UsbInterface (List UsbMsg)} (h : Core.Inv myUsbDriver Logged c)
    (a : UsbAct) : Core.Inv myUsbDriver Logged (step c a) := by
  cases a with
  | insmod outcome order =>
    cases outcome with
    | none => exact Core.inv_step keeps_logged h (.register order)
    | some e => exact h
  | rmmod order => exact Core.inv_step keeps_logged h (.deregister order)
  | plug interface => exact Core.inv_step keeps_logged h (.plug interface)
  | unplug interface => exact Core.inv_step keeps_logged h (.unplug interface)

/-- The driver is loaded and unloaded, and devices come and go, in any order. -/
theorem usb_log (acts : List UsbAct) :
    let c := Run.run step (Core.boot []) acts
    (∀ d, d ∈ c.bound ↔ c.registered = true ∧ d ∈ c.present ∧ d.descriptor = exampleId) ∧
    (∀ d, Callback.boundAfter d c.calls = some (decide (d ∈ c.bound))) ∧
    c.state = c.calls.map line ∧
    c.state.count (.plugged exampleId) = c.state.count (.unplugged exampleId) + c.bound.length := by
  intro c
  have hinv : Core.Inv myUsbDriver Logged c :=
    Run.inv_run (I := Core.Inv myUsbDriver Logged) (fun _ a h => inv_step h a)
      (Core.inv_boot ⟨rfl, rfl, nofun⟩) acts
  refine ⟨fun d => ?_, hinv.turns, hinv.kept.lines, hinv.kept.counts⟩
  rw [hinv.bound_iff, takes_iff]

end DeviceDrivers.UsbDriver
