import DeviceDrivers.Lib.Run

/-!
# Probe and remove

`probe` and `remove` of `Spi_kernel_space_test_v1_1.c` and `I2c_driver_test.c`.
Each driver has one global pointer, to the device that was probed last, while any
number of devices can be bound to the driver.

1. `along_iff`: when the pointer of a driver that stores the probed device is
   right all along a run.
2. `pointer_iff`: for the SPI driver, when only the last bound device is ever
   removed; for the I2C driver, when the newest bound device is never removed.
-/

namespace DeviceDrivers.Probe

variable {δ : Type}

/-! ## Source -/

/-- The two callbacks of a `struct spi_driver` or `struct i2c_driver`, over the
global pointer of the driver. -/
structure BusDriver (δ : Type) where
  probe : δ → Option δ → Int × Option δ
  remove : δ → Option δ → Int × Option δ

def spiDriverProbe (spi : δ) (_spiDev : Option δ) : Int × Option δ := (0, some spi)

def spiDriverRemove (_spi : δ) (_spiDev : Option δ) : Int × Option δ := (0, none)

def spiDriver : BusDriver δ := ⟨spiDriverProbe, spiDriverRemove⟩

def i2cCharDriverProbe (client : δ) (_i2cClient : Option δ) : Int × Option δ := (0, some client)

/-- The pointer is not touched. -/
def i2cCharDriverRemove (_client : δ) (i2cClient : Option δ) : Int × Option δ := (0, i2cClient)

def i2cCharDriver : BusDriver δ := ⟨i2cCharDriverProbe, i2cCharDriverRemove⟩

/-! ## The driver core -/

/-- The devices bound to a driver, the newest first, and its global pointer. -/
structure Binding (δ : Type) where
  bound : List δ
  pointer : Option δ
  distinct : bound.Nodup

def unbound : Binding δ := ⟨[], none, List.nodup_nil⟩

inductive Event (δ : Type)
  | probe (dev : δ)
  | remove (dev : δ)

variable [DecidableEq δ]

/-- Only an unbound device is probed, and it is bound when the probe returns 0.
Only a bound device is removed. -/
def step (drv : BusDriver δ) (s : Binding δ) : Event δ → Binding δ
  | .probe dev =>
    if h : dev ∈ s.bound then s
    else if (drv.probe dev s.pointer).1 = 0 then
      ⟨dev :: s.bound, (drv.probe dev s.pointer).2, List.nodup_cons.mpr ⟨h, s.distinct⟩⟩
    else { s with pointer := (drv.probe dev s.pointer).2 }
  | .remove dev =>
    if dev ∈ s.bound then
      ⟨s.bound.erase dev, (drv.remove dev s.pointer).2, s.distinct.erase dev⟩
    else s

/-- The pointer stands for the bound devices: it is NULL when there are none, and
else it names one of them. -/
structure PointerRight (s : Binding δ) : Prop where
  nonNull : s.pointer.isSome ↔ s.bound ≠ []
  names : ∀ dev, s.pointer = some dev → dev ∈ s.bound

instance (s : Binding δ) : Decidable (PointerRight s) :=
  decidable_of_iff ((s.pointer.isSome ↔ s.bound ≠ []) ∧ ∀ dev ∈ s.pointer, dev ∈ s.bound)
    ⟨fun h => ⟨h.1, h.2⟩, fun h => ⟨h.nonNull, h.names⟩⟩

/-! ## A driver that stores the probed device -/

/-- The pointer names the newest bound device. This is what the invariant of a
run is, for as long as the pointer is right. -/
def Newest (s : Binding δ) : Prop := s.pointer = s.bound.head?

omit [DecidableEq δ] in
theorem Newest.pointerRight {s : Binding δ} (h : Newest s) : PointerRight s := by
  unfold Newest at h
  constructor
  · rw [h]
    cases s.bound <;> simp
  · intro dev hdev
    rw [h] at hdev
    exact List.mem_of_head? hdev

/-- The driver stores each device that it probes, and the removal of a bound
device leaves the pointer right exactly when `Fits` allowed it. -/
structure Tracks (drv : BusDriver δ) (Fits : Binding δ → δ → Prop) : Prop where
  probe : ∀ dev p, drv.probe dev p = (0, some dev)
  keeps : ∀ s dev, Newest s → dev ∈ s.bound → Fits s dev → Newest (step drv s (.remove dev))
  exact : ∀ s dev, Newest s → dev ∈ s.bound → PointerRight (step drv s (.remove dev)) → Fits s dev

/-- A step that really removes a device meets `Fits`. -/
def RemovesFit (Fits : Binding δ → δ → Prop) (s : Binding δ) (e : Event δ) : Prop :=
  ∀ dev, e = .remove dev → dev ∈ s.bound → Fits s dev

variable {drv : BusDriver δ} {Fits : Binding δ → δ → Prop}

theorem newest_probe (h : Tracks drv Fits) {s : Binding δ} (hs : Newest s) (dev : δ) :
    Newest (step drv s (.probe dev)) := by
  by_cases hdev : dev ∈ s.bound
  · simpa [step, hdev] using hs
  · simp [step, hdev, h.probe, Newest]

theorem newest_step (h : Tracks drv Fits) {s : Binding δ} (hs : Newest s) {e : Event δ}
    (he : RemovesFit Fits s e) : Newest (step drv s e) := by
  cases e with
  | probe dev => exact newest_probe h hs dev
  | remove dev =>
    by_cases hdev : dev ∈ s.bound
    · exact h.keeps s dev hs hdev (he dev rfl hdev)
    · simpa [step, hdev] using hs

/-- The pointer is right after every step of a run if and only if all its
removals fit. -/
theorem along_iff (h : Tracks drv Fits) (events : List (Event δ)) :
    Run.Along (step drv) (fun s e => PointerRight (step drv s e)) unbound events ↔
      Run.Along (step drv) (RemovesFit Fits) unbound events := by
  have hunbound : Newest (unbound : Binding δ) := rfl
  refine Run.along_iff_of_inv (I := Newest) (fun s e hs he => ?_) ?_ hunbound events
  · have hnext : Newest (step drv s e) := newest_step h hs he
    exact ⟨hnext.pointerRight, hnext⟩
  · rintro s _ hs hright dev rfl hdev
    exact h.exact s dev hs hdev hright

/-! ## The two drivers -/

/-- `dev` is the only bound device. -/
def IsLast (s : Binding δ) (dev : δ) : Prop := s.bound = [dev]

/-- `dev` is not the newest of the bound devices. -/
def NotNewest (s : Binding δ) (dev : δ) : Prop := s.bound.head? ≠ some dev

theorem spiDriver_tracks : Tracks (spiDriver (δ := δ)) IsLast where
  probe _ _ := rfl
  keeps s dev _ hdev hlast := by
    unfold IsLast at hlast
    simp [step, hlast, Newest, spiDriver, spiDriverRemove]
  exact s dev _ hdev hright := by
    -- The pointer is NULL now, so nothing is left.
    have hlast : s.bound ≠ [] → s.bound = [dev] := by
      simpa [step, hdev, spiDriver, spiDriverRemove] using hright.nonNull
    exact hlast (List.ne_nil_of_mem hdev)

theorem i2cCharDriver_tracks : Tracks (i2cCharDriver (δ := δ)) NotNewest where
  probe _ _ := rfl
  keeps s dev hs hdev hfit := by
    obtain ⟨_ | ⟨newest, older⟩, pointer, distinct⟩ := s
    · cases hdev
    · have hne : newest ≠ dev := fun heq => hfit (congrArg some heq)
      have hpointer : pointer = some newest := hs
      simp [step, hdev, i2cCharDriver, i2cCharDriverRemove, Newest, hpointer, hne]
  exact s dev hs hdev hright := by
    intro hnewest
    -- The pointer still names the removed device.
    have hstale : (step i2cCharDriver s (.remove dev)).pointer = some dev := by
      simp only [step, hdev, if_true]
      exact hs.trans hnewest
    have hmem : dev ∈ s.bound.erase dev := by
      simpa [step, hdev] using hright.names dev hstale
    exact s.distinct.not_mem_erase hmem

/-- The pointer of the SPI driver is right all along a run if and only if each
device that is removed is the last one bound, and that of the I2C driver if and
only if none is the newest one bound. -/
theorem pointer_iff (events : List (Event δ)) :
    (Run.Along (step spiDriver) (fun s e => PointerRight (step spiDriver s e)) unbound events ↔
      Run.Along (step spiDriver) (RemovesFit IsLast) unbound events) ∧
    (Run.Along (step i2cCharDriver) (fun s e => PointerRight (step i2cCharDriver s e)) unbound
        events ↔
      Run.Along (step i2cCharDriver) (RemovesFit NotNewest) unbound events) :=
  ⟨along_iff spiDriver_tracks events, along_iff i2cCharDriver_tracks events⟩

/-- The older of two SPI devices is unplugged, and the only I2C device. -/
theorem pointer_wrong :
    ¬ PointerRight (Run.run (step spiDriver) unbound [.probe 1, .probe 2, .remove 1]) ∧
    ¬ PointerRight (Run.run (step i2cCharDriver) unbound [.probe 1, .remove 1]) := by
  decide

end DeviceDrivers.Probe
