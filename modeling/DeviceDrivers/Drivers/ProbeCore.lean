import DeviceDrivers.Drivers.Probe
import DeviceDrivers.Lib.DriverCore

/-!
# The SPI and I2C drivers on their buses

The drivers of `Probe` with the kernel that calls them: devices come and go while the
modules are loaded and unloaded. The init of a module registers its driver, the exit
deregisters it, and a module that is loaded again starts with a NULL pointer. An init of
the I2C driver that fails after `i2c_add_driver` is, for the bus, a load and an unload.

1. `Follows`: the calls that a driver gets are a run of `Probe.step`, in which only
   an unbound device is probed and only a bound one removed.
2. `pointers_on_bus`: the pointer of the SPI driver never names a device that is not
   bound. That of the I2C driver names the device probed last since the load, also when
   it is gone.
-/

namespace DeviceDrivers.Probe

/-! ## Source -/

/-- A device on the SPI bus. Without a table the core compares its name with that of
the driver. -/
structure SpiDevice where
  number : Nat
  modalias : String
deriving DecidableEq, Repr

/-- A device on the I2C bus. -/
structure I2cClient where
  number : Nat
  name : String
deriving DecidableEq, Repr

def spiDriverName : String := "my_spi_driver"

/-- `i2c_char_driver_id`, up to the entry without a name. -/
def i2cCharDriverId : List String := ["i2c_device_name"]

/-- A driver as its bus calls it, over the global pointer. -/
def BusDriver.onBus {δ : Type} (drv : BusDriver δ) (takes : δ → Bool) :
    CoreDriver δ (Option δ) where
  takes := takes
  probe := drv.probe
  remove d pointer := (drv.remove d pointer).2

def spiOnBus : CoreDriver SpiDevice (Option SpiDevice) :=
  spiDriver.onBus fun dev => dev.modalias = spiDriverName

def i2cOnBus : CoreDriver I2cClient (Option I2cClient) :=
  i2cCharDriver.onBus fun client => client.name ∈ i2cCharDriverId

/-! ## The calls of the bus -/

variable {δ : Type} [DecidableEq δ]

def event : Callback δ → Event δ
  | .probe d => .probe d
  | .remove d => .remove d

/-- The binding that the calls lead to, the newest of them first. -/
def after (drv : BusDriver δ) (calls : List (Callback δ)) : Binding δ :=
  Run.run (step drv) unbound (calls.reverse.map event)

@[simp] theorem after_cons (drv : BusDriver δ) (call : Callback δ) (calls : List (Callback δ)) :
    after drv (call :: calls) = step drv (after drv calls) (event call) := by
  simp [after, Run.run_append]

/-- What the bus knows is what the driver has seen. -/
structure Follows (drv : BusDriver δ) (bound : List δ) (calls : List (Callback δ))
    (pointer : Option δ) : Prop where
  bound : (after drv calls).bound = bound
  pointer : (after drv calls).pointer = pointer

theorem Follows.probe {drv : BusDriver δ} {bound : List δ} {calls : List (Callback δ)}
    {pointer : Option δ} (h : Follows drv bound calls pointer) {d : δ} (hnot : d ∉ bound)
    (hbinds : (drv.probe d pointer).1 = 0) :
    Follows drv (d :: bound) (.probe d :: calls) (drv.probe d pointer).2 := by
  obtain ⟨rfl, rfl⟩ := h
  constructor
  · simp [event, step, hnot, hbinds]
  · simp [event, step, hnot, hbinds]

theorem Follows.remove {drv : BusDriver δ} {bound : List δ} {calls : List (Callback δ)}
    {pointer : Option δ} (h : Follows drv bound calls pointer) {d : δ} (hbound : d ∈ bound) :
    Follows drv (bound.erase d) (.remove d :: calls) (drv.remove d pointer).2 := by
  obtain ⟨rfl, rfl⟩ := h
  constructor
  · simp [event, step, hbound]
  · simp [event, step, hbound]

/-! ## The two pointers -/

/-- The SPI driver sets its pointer to NULL whenever a device is removed. -/
structure SpiPointer (bound : List SpiDevice) (calls : List (Callback SpiDevice))
    (pointer : Option SpiDevice) : Prop where
  follows : Follows spiDriver bound calls pointer
  names : ∀ d, pointer = some d → d ∈ bound

theorem spi_keeps : spiOnBus.Keeps SpiPointer where
  binds _ _ _ := rfl
  probe d bound calls pointer _ hnot h := by
    refine ⟨h.follows.probe hnot rfl, fun d' hd' => ?_⟩
    obtain rfl := Option.some.inj hd'
    exact List.mem_cons_self
  remove d bound calls pointer hbound _ h := ⟨h.follows.remove hbound, nofun⟩

/-- The device that was probed last. -/
def lastProbed : List (Callback δ) → Option δ
  | [] => none
  | .probe d :: _ => some d
  | .remove _ :: calls => lastProbed calls

/-- The I2C driver keeps its pointer when a device is removed. -/
structure I2cPointer (bound : List I2cClient) (calls : List (Callback I2cClient))
    (pointer : Option I2cClient) : Prop where
  follows : Follows i2cCharDriver bound calls pointer
  last : pointer = lastProbed calls
  taken : ∀ d, pointer = some d → i2cOnBus.takes d = true

theorem i2c_keeps : i2cOnBus.Keeps I2cPointer where
  binds _ _ _ := rfl
  probe d bound calls pointer htakes hnot h := by
    refine ⟨h.follows.probe hnot rfl, rfl, fun d' hd' => ?_⟩
    obtain rfl := Option.some.inj hd'
    exact htakes
  remove d bound calls pointer hbound _ h := ⟨h.follows.remove hbound, h.last, h.taken⟩

/-- The modules are loaded and unloaded, and devices come and go, in any order. What a
driver sees since its load is a run of `step`; the pointer of the SPI driver is NULL or
names a bound device; that of the I2C driver is NULL or names the device probed last,
which is not bound exactly when that device or the driver has gone. -/
theorem pointers_on_bus (spiActs : List (LoadAct SpiDevice)) (i2cActs : List (LoadAct I2cClient)) :
    let spi := Run.run (Core.life spiOnBus none) (Core.boot none) spiActs
    let i2c := Run.run (Core.life i2cOnBus none) (Core.boot none) i2cActs
    (Follows spiDriver spi.bound spi.calls spi.state ∧
      (∀ d, Callback.boundAfter d spi.calls = some (decide (d ∈ spi.bound))) ∧
      ∀ d, spi.state = some d → d ∈ spi.bound) ∧
    (Follows i2cCharDriver i2c.bound i2c.calls i2c.state ∧
      (∀ d, Callback.boundAfter d i2c.calls = some (decide (d ∈ i2c.bound))) ∧
      i2c.state = lastProbed i2c.calls ∧
      ∀ d, i2c.state = some d → (d ∈ i2c.bound ↔ i2c.registered = true ∧ d ∈ i2c.present)) := by
  intro spi i2c
  have hspi : Core.Inv spiOnBus SpiPointer spi :=
    Core.inv_life spi_keeps ⟨⟨rfl, rfl⟩, nofun⟩ spiActs
  have hi2c : Core.Inv i2cOnBus I2cPointer i2c :=
    Core.inv_life i2c_keeps ⟨⟨rfl, rfl⟩, rfl, nofun⟩ i2cActs
  refine ⟨⟨hspi.kept.follows, hspi.turns, hspi.kept.names⟩, hi2c.kept.follows, hi2c.turns,
    hi2c.kept.last, fun d hd => ?_⟩
  have htakes := hi2c.kept.taken d hd
  rw [hi2c.bound_iff]
  exact ⟨fun ⟨hon, hthere, _⟩ => ⟨hon, hthere⟩, fun ⟨hon, hthere⟩ => ⟨hon, hthere, htakes⟩⟩

/-- A device that went while the I2C driver was not loaded is forgotten. -/
example : let d : I2cClient := ⟨0, "i2c_device_name"⟩
    (Run.run (Core.life i2cOnBus none) (Core.boot none)
      [.plug d, .insmod 0 [], .rmmod [], .unplug d, .insmod 0 []]).state = none := by decide

end DeviceDrivers.Probe
