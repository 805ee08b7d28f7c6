import DeviceDrivers.Drivers.NetSpiRuns

/-!
# The SPI network driver: the life of the module

`my_netdev_init` and `my_netdev_exit` of `netSpi.c` around the opens and closes. The
network core opens an interface that is registered and down, closes one that is up, and
closes it before it is unregistered. SPI devices are plugged in and out at any time. A
device can be unplugged while the interface is up; the close then passes a device that
is gone to `spi_unregister_device`, which is assumed to do nothing.

`opens_le`: as every close takes a device off the bus, the interface is opened no more
often than there were devices with the driver's numbers, however often the module is
loaded. The other devices on the bus are left alone.
-/

namespace DeviceDrivers.NetSpi

/-! ## Source: init and exit -/

/-- `ret` is what `register_netdev` returns. -/
def myNetdevInit (ret : Int) : Int × List String :=
  if ret < 0 then (ret, ["Failed to register netdev: " ++ toString ret ++ "\n"]) else (0, [])

/-! ## The machine -/

/-- The device has the numbers that the driver looks for. -/
def SpiDevice.matched (d : SpiDevice) : Bool :=
  d.busId == SPI_BUS_ID && d.deviceId == SPI_DEVICE_ID

namespace SpiBus

/-- There is a device with the numbers of `d`. -/
def Taken (bus : SpiBus) (d : SpiDevice) : Prop :=
  (d.busId, d.deviceId) ∈ bus.devices.map fun d => (d.busId, d.deviceId)

instance (bus : SpiBus) (d : SpiDevice) : Decidable (bus.Taken d) := by
  unfold Taken; infer_instance

/-- A device is registered, unless its numbers are taken. -/
def plug (bus : SpiBus) (d : SpiDevice) : SpiBus :=
  if h : bus.Taken d then bus else ⟨d :: bus.devices, List.nodup_cons.mpr ⟨h, bus.distinct⟩⟩

def matching (bus : SpiBus) : List SpiDevice := bus.devices.filter SpiDevice.matched

def others (bus : SpiBus) : List SpiDevice := bus.devices.filter fun d => !d.matched

end SpiBus

/-- `opened` counts the opens that worked, and `plugged` the devices with the driver's
numbers that came later. -/
structure NetLife where
  bus : SpiBus
  registered : Bool := false
  up : Bool := false
  mySpiDev : Option SpiDevice := none
  printed : List String := []
  opened : Nat := 0
  plugged : Nat := 0

/-- `insmod ret` is a load in which `register_netdev` returns `ret`. -/
inductive NetEvent
  | insmod (ret : Int)
  | rmmod
  | up
  | down
  | plug (d : SpiDevice)
  | unplug (d : SpiDevice)

namespace NetLife

/-- The interface is closed if it is up. -/
def shut (s : NetLife) : NetLife :=
  if s.up then { s with bus := (myNetdevClose s.bus s.mySpiDev).2, up := false } else s

def step (s : NetLife) : NetEvent → NetLife
  | .insmod ret =>
    if s.registered then s
    else
      let (r, msgs) := myNetdevInit ret
      { s with registered := r = 0, mySpiDev := none, printed := msgs ++ s.printed }
  | .rmmod => if s.registered then { s.shut with registered := false } else s
  | .up =>
    if s.registered && !s.up then
      let (ret, mySpiDev, msgs) := myNetdevOpen s.bus
      { s with
        up := ret = 0
        mySpiDev
        printed := msgs ++ s.printed
        opened := if ret = 0 then s.opened + 1 else s.opened }
    else s
  | .down => s.shut
  | .plug d =>
    { s with
      bus := s.bus.plug d
      plugged := if s.bus.Taken d ∨ d.matched = false then s.plugged else s.plugged + 1 }
  | .unplug d => { s with bus := s.bus.unregisterDevice d }

end NetLife

/-- What happens to the bus apart from the driver. -/
def SpiBus.event (bus : SpiBus) : NetEvent → SpiBus
  | .plug d => bus.plug d
  | .unplug d => bus.unregisterDevice d
  | _ => bus

/-! ## The devices on the bus -/

namespace SpiBus

theorem matched_of_findDevice {bus : SpiBus} {dev : SpiDevice}
    (h : bus.findDevice SPI_BUS_ID SPI_DEVICE_ID = some dev) : dev.matched = true := by
  have hkey := List.find?_some h
  exact hkey

theorem matching_unregister (bus : SpiBus) (d : SpiDevice) :
    (bus.unregisterDevice d).matching = bus.matching.filter (· != d) := by
  simp only [matching, unregisterDevice, List.filter_filter, Bool.and_comm]

theorem others_unregister (bus : SpiBus) (d : SpiDevice) :
    (bus.unregisterDevice d).others = bus.others.filter (· != d) := by
  simp only [others, unregisterDevice, List.filter_filter, Bool.and_comm]

theorem plug_of_taken {bus : SpiBus} {d : SpiDevice} (h : bus.Taken d) : bus.plug d = bus := by
  unfold plug
  rw [dif_pos h]

theorem devices_plug {bus : SpiBus} {d : SpiDevice} (h : ¬ bus.Taken d) :
    (bus.plug d).devices = d :: bus.devices := by
  unfold plug
  rw [dif_neg h]

theorem matching_plug {bus : SpiBus} {d : SpiDevice} (h : ¬ bus.Taken d) :
    (bus.plug d).matching = if d.matched then d :: bus.matching else bus.matching := by
  simp only [matching, devices_plug h, List.filter_cons]

theorem others_plug {bus : SpiBus} {d : SpiDevice} (h : ¬ bus.Taken d) :
    (bus.plug d).others = if d.matched then bus.others else d :: bus.others := by
  simp only [others, devices_plug h, List.filter_cons]
  cases d.matched <;> rfl

/-- The numbers of a device are taken by one that matches as it does. -/
theorem taken_iff_others {bus : SpiBus} {d : SpiDevice} (h : d.matched = false) :
    bus.Taken d ↔ ∃ e ∈ bus.others, (e.busId, e.deviceId) = (d.busId, d.deviceId) := by
  simp only [Taken, List.mem_map, others, List.mem_filter]
  constructor
  · rintro ⟨e, he, hids⟩
    obtain ⟨hbus, hdevice⟩ := Prod.mk.inj hids
    refine ⟨e, ⟨he, ?_⟩, hids⟩
    rw [SpiDevice.matched, hbus, hdevice, ← SpiDevice.matched, h]
    rfl
  · rintro ⟨e, ⟨he, -⟩, hids⟩
    exact ⟨e, he, hids⟩

/-- What others register depends only on the devices that the driver leaves alone. -/
theorem others_event {bus bus' : SpiBus} (h : bus.others = bus'.others) (e : NetEvent) :
    (bus.event e).others = (bus'.event e).others := by
  cases e with
  | insmod _ | rmmod | up | down => exact h
  | unplug d =>
    show (bus.unregisterDevice d).others = (bus'.unregisterDevice d).others
    rw [others_unregister, others_unregister, h]
  | plug d =>
    show (bus.plug d).others = (bus'.plug d).others
    cases hd : d.matched with
    | true =>
      have hsame : ∀ b : SpiBus, (b.plug d).others = b.others := by
        intro b
        by_cases htaken : b.Taken d
        · rw [plug_of_taken htaken]
        · rw [others_plug htaken, if_pos hd]
      rw [hsame, hsame, h]
    | false =>
      have htaken : bus.Taken d ↔ bus'.Taken d := by
        rw [taken_iff_others hd, taken_iff_others hd, h]
      by_cases ht : bus.Taken d
      · rw [plug_of_taken ht, plug_of_taken (htaken.mp ht), h]
      · rw [others_plug ht, others_plug (mt htaken.mpr ht), h]

end SpiBus

/-! ## The invariant -/

namespace NetLife

/-- The devices with the driver's numbers that an open is still to find: the one of the
interface that is up goes with the close. -/
def spare (s : NetLife) : List SpiDevice :=
  if s.up then s.bus.matching.filter fun d => some d != s.mySpiDev else s.bus.matching

structure Inv (bus₀ : SpiBus) (s : NetLife) : Prop where
  budget : s.opened + s.spare.length ≤ bus₀.matching.length + s.plugged
  pointer : s.up = true → ∃ dev, s.mySpiDev = some dev ∧ dev.matched = true
  loaded : s.up = true → s.registered = true

theorem inv_start (bus : SpiBus) : Inv bus { bus } where
  budget := by simp [spare]
  pointer := nofun
  loaded := nofun

variable {bus₀ : SpiBus} {s : NetLife}

/-- Closing takes exactly the device of the interface. -/
theorem Inv.shut (h : Inv bus₀ s) : Inv bus₀ s.shut ∧ s.shut.up = false ∧
    s.shut.bus.others = s.bus.others := by
  unfold NetLife.shut
  split
  · rename_i hup
    obtain ⟨dev, hdev, hmatched⟩ := h.pointer hup
    have hclose : (myNetdevClose s.bus s.mySpiDev).2 = s.bus.unregisterDevice dev := by
      rw [hdev]
      rfl
    rw [hclose]
    refine ⟨⟨?_, nofun, nofun⟩, rfl, ?_⟩
    · have hbudget := h.budget
      rw [spare, if_pos hup, hdev] at hbudget
      simpa [spare, SpiBus.matching_unregister, bne] using hbudget
    · rw [SpiBus.others_unregister]
      refine List.filter_eq_self.mpr fun e he => ?_
      have hother : (!e.matched) = true := (List.mem_filter.mp he).2
      refine bne_iff_ne.mpr ?_
      rintro rfl
      rw [hmatched] at hother
      cases hother
  · rename_i hup
    exact ⟨h, by simpa using hup, rfl⟩

/-- An open that works finds a spare device, and takes it. -/
theorem Inv.up (h : Inv bus₀ s) : Inv bus₀ (s.step .up) := by
  simp only [step]
  split
  · rename_i hdown
    obtain ⟨hregistered, hup⟩ := Bool.and_eq_true_iff.mp hdown
    rw [Bool.not_eq_true'] at hup
    have hbudget := h.budget
    rw [spare, if_neg (by simp [hup])] at hbudget
    rcases myNetdevOpen_cases s.bus with ⟨-, hopen⟩ | ⟨dev, hfind, hopen⟩
    · have hfail : EOPNOTSUPP.code ≠ 0 := by decide
      rw [hopen]
      exact ⟨by simpa [spare, hfail] using hbudget, by simp [hfail], fun _ => hregistered⟩
    · have hmatched := SpiBus.matched_of_findDevice hfind
      have hmem : dev ∈ s.bus.matching :=
        List.mem_filter.mpr ⟨SpiBus.mem_of_findDevice hfind, hmatched⟩
      have hlt : (s.bus.matching.filter fun d => some d != some dev).length <
          s.bus.matching.length :=
        List.length_filter_lt_length_iff_exists.mpr ⟨dev, hmem, by simp⟩
      rw [hopen]
      refine ⟨?_, fun _ => ⟨dev, rfl, hmatched⟩, fun _ => hregistered⟩
      simp only [spare, decide_true, if_true]
      omega
  · exact h

theorem Inv.plug (h : Inv bus₀ s) (d : SpiDevice) : Inv bus₀ (s.step (.plug d)) := by
  by_cases htaken : s.bus.Taken d
  · simpa [step, SpiBus.plug_of_taken htaken, htaken] using h
  refine ⟨?_, h.pointer, h.loaded⟩
  have hbudget := h.budget
  cases hd : d.matched with
  | false => simpa [step, spare, SpiBus.matching_plug htaken, htaken, hd] using hbudget
  | true =>
    have hone : (s.step (.plug d)).spare.length ≤ s.spare.length + 1 := by
      simp only [step, spare, SpiBus.matching_plug htaken, hd, if_true]
      split
      · rw [List.filter_cons]
        split
        · exact Nat.le_refl _
        · exact Nat.le_succ _
      · exact Nat.le_refl _
    have hopened : (s.step (.plug d)).opened = s.opened := rfl
    have hplugged : (s.step (.plug d)).plugged = s.plugged + 1 := by simp [step, htaken, hd]
    rw [hopened, hplugged]
    omega

theorem Inv.unplug (h : Inv bus₀ s) (d : SpiDevice) : Inv bus₀ (s.step (.unplug d)) := by
  refine ⟨Nat.le_trans (Nat.add_le_add_left ?_ _) h.budget, h.pointer, h.loaded⟩
  simp only [step, spare, SpiBus.matching_unregister]
  split
  · exact (List.filter_sublist.filter _).length_le
  · exact List.filter_sublist.length_le

theorem inv_step (h : Inv bus₀ s) (e : NetEvent) : Inv bus₀ (s.step e) := by
  cases e with
  | up => exact h.up
  | down => exact h.shut.1
  | plug d => exact h.plug d
  | unplug d => exact h.unplug d
  | insmod ret =>
    simp only [step]
    split
    · exact h
    · rename_i hoff
      have hup : s.up = false := by
        cases hup : s.up with
        | false => rfl
        | true => exact absurd (h.loaded hup) hoff
      have hbudget := h.budget
      rw [spare, if_neg (by simp [hup])] at hbudget
      exact ⟨by simpa [spare, hup] using hbudget, by simp [hup], by simp [hup]⟩
  | rmmod =>
    simp only [step]
    split
    · obtain ⟨hshut, hdown, -⟩ := h.shut
      exact ⟨hshut.budget, hshut.pointer, by simp [hdown]⟩
    · exact h

theorem others_step (h : Inv bus₀ s) (e : NetEvent) :
    (s.step e).bus.others = (s.bus.event e).others := by
  cases e with
  | down => exact h.shut.2.2
  | plug d | unplug d => rfl
  | insmod ret | up =>
    simp only [step]
    split <;> rfl
  | rmmod =>
    simp only [step]
    split
    · exact h.shut.2.2
    · rfl

theorem run_inv (h : Inv bus₀ s) {bus : SpiBus} (hothers : s.bus.others = bus.others)
    (events : List NetEvent) : Inv bus₀ (Run.run step s events) ∧
      (Run.run step s events).bus.others = (Run.run SpiBus.event bus events).others := by
  induction events generalizing s bus with
  | nil => exact ⟨h, hothers⟩
  | cons e events ih =>
    exact ih (inv_step h e) ((others_step h e).trans (SpiBus.others_event hothers e))

/-- Over the whole life of the module, with any number of loads, the interface is opened
at most once for every device that was there with the driver's numbers or came later, is
up only while it is registered, and leaves the other devices on the bus alone. This
assumes that `spi_unregister_device` does nothing for a device that was unplugged. -/
theorem opens_le (bus : SpiBus) (events : List NetEvent) :
    let s := Run.run step { bus } events
    s.opened ≤ bus.matching.length + s.plugged ∧ (s.up = true → s.registered = true) ∧
    s.bus.others = (Run.run SpiBus.event bus events).others := by
  intro s
  obtain ⟨hinv, hothers⟩ := run_inv (inv_start bus) rfl events
  exact ⟨Nat.le_trans (Nat.le_add_right _ _) hinv.budget, hinv.loaded, hothers⟩

end NetLife

end DeviceDrivers.NetSpi
