import DeviceDrivers.Drivers.ProbeCore
import DeviceDrivers.Drivers.Together

/-!
# The I2C driver while devices come and go

The I2C character driver registers its bus driver first and its device number
afterwards. All the drivers are loaded and unloaded call by call, and between any two
calls I2C devices come and go.

`i2c_on_bus`: the bus calls the driver only while its module is there, and a module
that is gone, also after an init that failed half way, has no device bound. A loaded
one has all devices with its name.
-/

namespace DeviceDrivers

/-! ## The machine -/

/-- The kernel with all drivers, and the I2C bus as `I2c_driver_test.c` sees it. -/
structure I2cSys where
  sys : ModSys CharDriver Module CharDriver.Statics
  bus : Core Probe.I2cClient (Option Probe.I2cClient)

/-- `order` is that of the calls when a bus driver is registered or deregistered. -/
inductive I2cAct
  | mod (a : ModAct CharDriver Module) (order : List Probe.I2cClient)
  | plug (client : Probe.I2cClient)
  | unplug (client : Probe.I2cClient)

namespace I2cSys

/-- The table has a bus driver of `I2c_driver_test.c`. -/
def listed (k : Kernel Module) : Bool := k.i2cDrivers.any fun d => d.owner = .i2cChar

/-- The module gets new static variables when it is loaded. -/
def insmod (bus : Core Probe.I2cClient (Option Probe.I2cClient)) :
    Core Probe.I2cClient (Option Probe.I2cClient) :=
  bus.reload none

def afterMod (s : I2cSys) (a : ModAct CharDriver Module) (order : List Probe.I2cClient) :
    Core Probe.I2cClient (Option Probe.I2cClient) :=
  match a, s.sys.phase .i2cChar with
  | .insmod .i2cChar, .unloaded => insmod s.bus
  | _, _ =>
    -- The bus follows what the call has done to the table of bus drivers.
    if listed (s.sys.step CharDriver.driver a).kernel then
      s.bus.step Probe.i2cOnBus (.register order)
    else s.bus.step Probe.i2cOnBus (.deregister order)

def step (s : I2cSys) : I2cAct → I2cSys
  | .mod a order => ⟨s.sys.step CharDriver.driver a, s.afterMod a order⟩
  | .plug client => { s with bus := s.bus.step Probe.i2cOnBus (.plug client) }
  | .unplug client => { s with bus := s.bus.step Probe.i2cOnBus (.unplug client) }

def boot (k : Kernel Module) : I2cSys := ⟨ModSys.boot k, Core.boot none⟩

/-! ## The invariant -/

/-- The bus knows the driver exactly when the table lists it. -/
structure Inv (k₀ : Kernel Module) (s : I2cSys) : Prop where
  sys : CharDriver.Inv k₀ s.sys
  bus : Core.Inv Probe.i2cOnBus Probe.I2cPointer s.bus
  registered : s.bus.registered = listed s.sys.kernel

variable {k₀ : Kernel Module}

theorem listed_iff {name : CharDriver → Module} {hs : CharDriver → Held Module}
    {k : Kernel Module} (hname : name .i2cChar = .i2cChar) (h : Entries name foreign k₀ hs k) :
    listed k = true ↔ (hs .i2cChar).i2cDriver.isSome := by
  have hown := h.i2cDrivers.own .i2cChar
  rw [hname] at hown
  simp only [listed, List.any_eq_true, decide_eq_true_eq]
  constructor
  · rintro ⟨d, hd, howner⟩
    have hmine := h.i2cDrivers.mem_own (i := .i2cChar) hd (howner.trans hname.symm)
    cases hheld : (hs .i2cChar).i2cDriver with
    | none => simp [hheld] at hmine
    | some d => rfl
  · intro hsome
    obtain ⟨d, hd⟩ := Option.isSome_iff_exists.mp hsome
    have hmem := h.i2cDrivers.mem_of_own (i := .i2cChar) (e := d) (by simp [hd])
    exact ⟨d, hmem.1, hmem.2.trans hname⟩

/-- A module that is not loaded is not listed. -/
theorem not_listed {s : ModSys CharDriver Module CharDriver.Statics} (h : CharDriver.Inv k₀ s)
    (hphase : s.phase .i2cChar = .unloaded) : listed s.kernel = false := by
  obtain ⟨hs, hshared, hin⟩ := h
  have hoff := hin .i2cChar
  rw [hphase] at hoff
  obtain ⟨hheld, -⟩ : CharDriver.i2cChar.Off (hs .i2cChar) := hoff
  rw [Bool.eq_false_iff, ne_eq, listed_iff rfl hshared.entries, hheld]
  simp

/-- A loaded module is listed. -/
theorem listed_live {s : ModSys CharDriver Module CharDriver.Statics} (h : CharDriver.Inv k₀ s)
    {st : CharDriver.Statics .i2cChar} (hphase : s.phase .i2cChar = .live st) :
    listed s.kernel = true := by
  obtain ⟨hs, hshared, hin⟩ := h
  have hon := hin .i2cChar
  rw [hphase] at hon
  obtain ⟨dev, node, -, -, hheld⟩ : CharDriver.i2cChar.On st (hs .i2cChar) := hon
  rw [listed_iff rfl hshared.entries, hheld]
  rfl

theorem step_insmod {s : ModSys CharDriver Module CharDriver.Statics} (i : CharDriver) :
    (s.step CharDriver.driver (.insmod i)).kernel = s.kernel := by
  simp only [ModSys.step]
  split <;> rfl

theorem inv_insmod {bus : Core Probe.I2cClient (Option Probe.I2cClient)}
    (h : Core.Inv Probe.i2cOnBus Probe.I2cPointer bus) :
    Core.Inv Probe.i2cOnBus Probe.I2cPointer (insmod bus) :=
  h.reload ⟨⟨rfl, rfl⟩, rfl, nofun⟩

/-- How the bus follows a call: it is told of the driver, or that it is gone, or the
module is just being loaded. -/
theorem afterMod_cases (s : I2cSys) (a : ModAct CharDriver Module)
    (order : List Probe.I2cClient) :
    (s.sys.phase .i2cChar = .unloaded ∧ a = .insmod .i2cChar ∧
      s.afterMod a order = insmod s.bus) ∨
    s.afterMod a order = s.bus.step Probe.i2cOnBus
      (if listed (s.sys.step CharDriver.driver a).kernel then .register order
        else .deregister order) := by
  unfold afterMod
  split
  · rename_i hphase
    exact .inl ⟨hphase, rfl, rfl⟩
  · right
    split <;> rfl

theorem inv_step {s : I2cSys} (h : s.Inv k₀) (a : I2cAct) : (s.step a).Inv k₀ := by
  cases a with
  | mod a order =>
    have hsys : CharDriver.Inv k₀ (s.sys.step CharDriver.driver a) := CharDriver.inv_step h.sys a
    rcases s.afterMod_cases a order with ⟨hphase, rfl, hbus⟩ | hbus
    · refine ⟨hsys, ?_, ?_⟩
      · show Core.Inv _ _ (s.afterMod _ order)
        rw [hbus]
        exact inv_insmod h.bus
      · show (s.afterMod _ order).registered = listed (s.sys.step CharDriver.driver _).kernel
        rw [hbus, step_insmod, not_listed h.sys hphase]
        rfl
    · refine ⟨hsys, ?_, ?_⟩
      · show Core.Inv _ _ (s.afterMod a order)
        rw [hbus]
        exact Core.inv_step Probe.i2c_keeps h.bus _
      · show (s.afterMod a order).registered = listed (s.sys.step CharDriver.driver a).kernel
        rw [hbus, Core.registered_step]
        cases listed (s.sys.step CharDriver.driver a).kernel <;> rfl
  | plug client =>
    exact ⟨h.sys, Core.inv_step Probe.i2c_keeps h.bus (.plug client),
      (Core.registered_step ..).trans h.registered⟩
  | unplug client =>
    exact ⟨h.sys, Core.inv_step Probe.i2c_keeps h.bus (.unplug client),
      (Core.registered_step ..).trans h.registered⟩

theorem inv_boot (hk₀ : ∀ i : CharDriver, k₀.Foreign i.name) : (boot k₀).Inv k₀ where
  sys := CharDriver.inv_boot hk₀
  bus := Core.inv_boot ⟨⟨rfl, rfl⟩, rfl, nofun⟩
  registered := (not_listed (CharDriver.inv_boot hk₀) rfl).symm

/-- Nothing is called as long as the module is not there. -/
theorem calls_of_unloaded {s : I2cSys} (h : s.Inv k₀) (hphase : s.sys.phase .i2cChar = .unloaded)
    (a : I2cAct) : (s.step a).bus.calls.length ≤ s.bus.calls.length := by
  have hoff : s.bus.registered = false := h.registered.trans (not_listed h.sys hphase)
  cases a with
  | mod a order =>
    show (s.afterMod a order).calls.length ≤ _
    rcases s.afterMod_cases a order with ⟨-, rfl, hbus⟩ | hbus
    · rw [hbus]
      exact Nat.zero_le _
    · have hnot : listed (s.sys.step CharDriver.driver a).kernel = false := by
        rcases ModSys.phase_of_unloaded CharDriver.driver hphase a with hphase' | rfl
        · exact not_listed (CharDriver.inv_step h.sys a) hphase'
        · rw [step_insmod]
          exact not_listed h.sys hphase
      rw [hbus, hnot]
      exact Nat.le_of_eq (congrArg List.length (h.bus.calls_of_off hoff nofun))
  | plug client => exact Nat.le_of_eq (congrArg List.length (h.bus.calls_of_off hoff nofun))
  | unplug client => exact Nat.le_of_eq (congrArg List.length (h.bus.calls_of_off hoff nofun))

/-- All drivers are loaded and unloaded call by call, and I2C devices come and go in
between: the callbacks run only while the module is there, no device is bound when it
is gone, and a loaded module has every device with its name. -/
theorem i2c_on_bus {k₀ : Kernel Module} (hk₀ : ∀ i : CharDriver, k₀.Foreign i.name)
    (acts : List I2cAct) :
    Run.Along step (fun s a => s.bus.calls.length < (s.step a).bus.calls.length →
      s.sys.phase .i2cChar ≠ .unloaded) (boot k₀) acts ∧
    let s := Run.run step (boot k₀) acts
    (∀ d, Callback.boundAfter d s.bus.calls = some (decide (d ∈ s.bus.bound))) ∧
    (s.sys.phase .i2cChar = .unloaded → s.bus.bound = []) ∧
    ∀ st, s.sys.phase .i2cChar = .live st →
      ∀ d, d ∈ s.bus.bound ↔ d ∈ s.bus.present ∧ d.name ∈ Probe.i2cCharDriverId := by
  refine ⟨Run.along_of_step (I := Inv k₀) (fun s a h => ⟨fun hcalls hphase => ?_, inv_step h a⟩)
    (inv_boot hk₀) acts, ?_⟩
  · exact absurd hcalls (Nat.not_lt.mpr (calls_of_unloaded h hphase a))
  intro s
  have h : s.Inv k₀ := Run.inv_run (I := Inv k₀) (fun _ a h => inv_step h a) (inv_boot hk₀) acts
  refine ⟨h.bus.turns, fun hphase => ?_, fun st hphase d => ?_⟩
  · have hoff : s.bus.registered = false := h.registered.trans (not_listed h.sys hphase)
    refine List.eq_nil_iff_forall_not_mem.mpr fun d hd => ?_
    rw [h.bus.bound_iff, hoff] at hd
    cases hd.1
  · have hon : s.bus.registered = true := h.registered.trans (listed_live h.sys hphase)
    rw [h.bus.bound_iff]
    simp [hon, Probe.i2cOnBus, Probe.BusDriver.onBus]

/-- A device is there while the module is loaded, and the init fails after the
registration of the bus driver. -/
theorem i2c_half_loaded :
    let o : Outcomes Module := { alloc := fun _ => .error EBUSY }
    let client : Probe.I2cClient := ⟨0, "i2c_device_name"⟩
    let acts : List I2cAct := [.plug client, .mod (.insmod .i2cChar) [],
      .mod (.call .i2cChar o) [], .mod (.call .i2cChar o) [], .mod (.call .i2cChar o) [],
      .mod (.call .i2cChar o) []]
    let s := Run.run step (boot {}) acts
    s.bus.calls = [.remove client, .probe client] ∧ s.bus.bound = [] := by
  intro o client acts s
  have hk₀ : ∀ i : CharDriver, ({} : Kernel Module).Foreign i.name :=
    fun i => Kernel.foreign_empty i.name
  exact ⟨by decide, (i2c_on_bus hk₀ acts).2.2.1 rfl⟩

end I2cSys

end DeviceDrivers
