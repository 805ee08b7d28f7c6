import DeviceDrivers.Drivers.Esp32
import DeviceDrivers.Drivers.FixedMajor
import DeviceDrivers.Drivers.I2cChar
import DeviceDrivers.Drivers.Ioctl
import DeviceDrivers.Drivers.SpiChar
import DeviceDrivers.Kernel.AllModules

/-!
# All character drivers in one kernel

The seven drivers are loaded and unloaded at the same time, call by call, in any
order and with any outcomes.

1. `conforms`: each driver adds its own entries and takes back only what it has,
   also `etx`, which may leave its cdev behind.
2. `together`: a loaded driver has its number for itself and, but for `i2cChar`,
   serves it; one that is not loaded has nothing, but for the cdevs of `etx`; all
   other registrations stay as they are.
-/

namespace DeviceDrivers

open FixedMajor (Fixed)

/-- The character drivers of the repository. -/
inductive CharDriver
  | fixed (i : Fixed)
  | etx
  | esp32
  | i2cChar
  | spiChar
deriving DecidableEq, Repr

namespace CharDriver

@[simp] def name : CharDriver → Module
  | fixed i => i.name
  | etx => .etx
  | esp32 => .esp32
  | i2cChar => .i2cChar
  | spiChar => .spiChar

@[reducible] def Statics : CharDriver → Type
  | fixed _ => FixedStatics
  | etx => EtxStatics
  | esp32 => Esp32Statics
  | i2cChar => I2cStatics
  | spiChar => SpiStatics

def driver : (i : CharDriver) → Driver Module i.Statics
  | fixed i => i.driver
  | etx => Ioctl.driver
  | esp32 => Esp32.driver
  | i2cChar => I2cChar.driver
  | spiChar => SpiChar.driver

/-- The file operations in the source of the driver. -/
def fops : CharDriver → FileOperations Module
  | fixed i => i.fops
  | etx => Ioctl.fops
  | esp32 => Esp32.esp32Fops
  | i2cChar => I2cChar.i2cCharDriverFops
  | spiChar => SpiChar.spiCharFops

/-- The device number of the loaded driver. -/
def devNum : (i : CharDriver) → i.Statics → Dev
  | fixed _, st => st.dev
  | etx, st => st.dev
  | esp32, st => st.devNum
  | i2cChar, st => st.devNum
  | spiChar, st => st.devNum

end CharDriver

/-- The module is not in the repository. -/
def foreign : Module → Bool
  | .other _ => true
  | _ => false

theorem naming : Naming CharDriver.name foreign where
  inj i j h := by
    cases i with
    | fixed i =>
      cases j with
      | fixed j => rw [FixedMajor.Fixed.name_inj h]
      | etx | esp32 | i2cChar | spiChar => cases i <;> cases h
    | etx | esp32 | i2cChar | spiChar =>
      cases j with
      | fixed j => cases j <;> cases h
      | etx | esp32 | i2cChar | spiChar => first | rfl | cases h
  known i := by
    cases i with
    | fixed i => cases i <;> rfl
    | etx | esp32 | i2cChar | spiChar => rfl

/-! ## What a driver has -/

namespace CharDriver

/-- What a driver has when it is not loaded: nothing, and `etx` perhaps cdevs that
it left behind. -/
def Off (i : CharDriver) (p : Held Module) : Prop :=
  p = { stale := p.stale } ∧ (i ≠ etx → p.stale = [])

/-- What a driver has when it is loaded. -/
def On : (i : CharDriver) → i.Statics → Held Module → Prop
  | fixed i, st, p =>
    st = ⟨i.dev, i.cdev⟩ ∧ p = { region := some i.region, cdev := some i.cdev }
  | etx, st, p => ∃ dev, st = Ioctl.statics dev ∧
    p = { region := some ⟨.etx, "etx_Dev", dev, 1⟩, cdev := some (Ioctl.etxCdev dev),
          cls := some st.devClass, node := some ⟨st.devClass, dev, "etx_device"⟩,
          stale := p.stale }
  | esp32, st, p => ∃ dev, st = Esp32.statics dev ∧
    p = { region := some ⟨.esp32, Esp32.driverName, dev, 1⟩, cdev := some st.cdev,
          cls := some st.esp32Class, node := some st.esp32Device }
  | i2cChar, st, p => ∃ dev node, st = I2cChar.statics dev ∧
    (∀ n, node = some n → n.cls = st.devClass ∧ n.dev = dev) ∧
    p = { region := some ⟨.i2cChar, I2cChar.driverName, dev, 1⟩, cls := some st.devClass,
          node := node, i2cDriver := some I2cChar.i2cCharDriver }
  | spiChar, st, p => ∃ dev, st = SpiChar.statics dev ∧
    p = { region := some ⟨.spiChar, SpiChar.deviceName, dev, 1⟩, cdev := some st.myCdev }

end CharDriver

/-- The last call of an exit, and of a failed init: the numbers are given back. -/
theorem giveBack_obeys {m : Module} {A : Type} {Q : A → Held Module → Prop} {a : A} {dev : Dev}
    {p : Held Module} (hp : p.Has dev 1) (hq : Q a p.withoutRegion) :
    (Prog.call (.unregisterChrdevRegion dev 1) fun _ => .ret a).Obeys (registering m) Q p := by
  refine ⟨hp, fun _ p' hp' => ?_⟩
  obtain rfl : p' = p.withoutRegion := hp'
  exact hq

theorem fixed_conforms (i : Fixed) :
    Conforms i.driver (CharDriver.fixed i).Off (CharDriver.fixed i).On where
  init p hp := by
    obtain ⟨hp, hstale⟩ := hp
    have hempty : p = {} := by rw [hp, hstale (by simp)]
    subst hempty
    rw [Fixed.driver_init, Fixed.driver_name]
    refine ⟨⟨rfl, by decide, rfl⟩, ?_⟩
    rintro (e | _) p' hp'
    · obtain rfl : p' = {} := hp'
      exact ⟨rfl, fun _ => rfl⟩
    obtain rfl := hp'
    refine ⟨⟨by simp [cdevInit], rfl, _, rfl, rfl, rfl⟩, ?_⟩
    rintro (e | c) p' hp'
    · obtain rfl := hp'
      exact giveBack_obeys ⟨_, rfl, rfl, rfl⟩ ⟨rfl, fun _ => rfl⟩
    · obtain ⟨rfl, rfl⟩ := hp'
      exact ⟨rfl, rfl⟩
  exit st p hp := by
    obtain ⟨rfl, rfl⟩ := hp
    rw [Fixed.driver_exit, Fixed.driver_name]
    refine ⟨rfl, fun _ p' hp' => ?_⟩
    obtain rfl := hp'
    exact giveBack_obeys ⟨_, rfl, rfl, rfl⟩ ⟨rfl, fun _ => rfl⟩

/-- The two labels of the ioctl driver, from where the cdev is perhaps registered. -/
theorem rClass_obeys (dev : Dev) (c : Option (Cdev Module)) (stale : List (Cdev Module)) :
    (Ioctl.rClass dev).Obeys (registering .etx) (Returned CharDriver.etx.Off CharDriver.etx.On)
      { region := some ⟨.etx, "etx_Dev", dev, 1⟩, cdev := c, stale := stale } := by
  exact giveBack_obeys ⟨_, rfl, rfl, rfl⟩ ⟨rfl, fun h => absurd rfl h⟩

theorem etx_conforms : Conforms Ioctl.driver CharDriver.etx.Off CharDriver.etx.On where
  init p hp := by
    obtain ⟨hp, -⟩ := hp
    generalize p.stale = stale at hp
    subst hp
    refine ⟨⟨rfl, by decide, rfl⟩, ?_⟩
    rintro (e | dev) p' hp'
    · obtain rfl := hp'
      exact ⟨rfl, fun h => absurd rfl h⟩
    obtain ⟨hminor, rfl⟩ := hp'
    refine ⟨⟨rfl, rfl, _, rfl, rfl, rfl⟩, ?_⟩
    rintro (e | c) p' hp'
    · obtain rfl := hp'
      exact rClass_obeys dev none stale
    obtain ⟨rfl, rfl⟩ := hp'
    refine ⟨⟨rfl, rfl⟩, ?_⟩
    rintro (e | cls) p' hp'
    · obtain rfl := hp'
      exact rClass_obeys dev _ stale
    obtain ⟨rfl, rfl⟩ := hp'
    refine ⟨⟨rfl, rfl⟩, ?_⟩
    rintro (e | n) p' hp'
    · obtain rfl := hp'
      refine ⟨rfl, fun _ p' hp' => ?_⟩
      obtain rfl := hp'
      exact rClass_obeys dev _ stale
    · obtain ⟨rfl, rfl⟩ := hp'
      exact ⟨dev, rfl, rfl⟩
  exit st p hp := by
    obtain ⟨dev, rfl, hp⟩ := hp
    generalize p.stale = stale at hp
    subst hp
    refine ⟨⟨rfl, fun n hn => ?_⟩, fun _ p' hp' => ?_⟩
    · obtain rfl := Option.some.inj hn
      exact ⟨rfl, rfl⟩
    obtain rfl := hp'
    refine ⟨rfl, fun _ p' hp' => ?_⟩
    obtain rfl := hp'
    refine ⟨rfl, fun _ p' hp' => ?_⟩
    obtain rfl := hp'
    exact giveBack_obeys ⟨_, rfl, rfl, rfl⟩ ⟨rfl, fun h => absurd rfl h⟩

theorem esp32_conforms : Conforms Esp32.driver CharDriver.esp32.Off CharDriver.esp32.On where
  init p hp := by
    obtain ⟨hp, hstale⟩ := hp
    have hempty : p = {} := by rw [hp, hstale (by simp)]
    subst hempty
    refine ⟨⟨rfl, by decide, rfl⟩, ?_⟩
    rintro (e | dev) p' hp'
    · obtain rfl := hp'
      exact ⟨rfl, fun _ => rfl⟩
    obtain ⟨hminor, rfl⟩ := hp'
    refine ⟨⟨rfl, rfl⟩, ?_⟩
    rintro (e | cls) p' hp'
    · obtain rfl := hp'
      exact giveBack_obeys ⟨_, rfl, rfl, rfl⟩ ⟨rfl, fun _ => rfl⟩
    obtain ⟨rfl, rfl⟩ := hp'
    refine ⟨⟨rfl, rfl⟩, ?_⟩
    rintro (e | n) p' hp'
    · obtain rfl := hp'
      refine ⟨rfl, fun _ p' hp' => ?_⟩
      obtain rfl := hp'
      exact giveBack_obeys ⟨_, rfl, rfl, rfl⟩ ⟨rfl, fun _ => rfl⟩
    obtain ⟨rfl, rfl⟩ := hp'
    refine ⟨⟨rfl, rfl, _, rfl, rfl, rfl⟩, ?_⟩
    rintro (e | c) p' hp'
    · obtain rfl := hp'
      refine ⟨⟨rfl, fun n hn => ?_⟩, fun _ p' hp' => ?_⟩
      · obtain rfl := Option.some.inj hn
        exact ⟨rfl, rfl⟩
      obtain rfl := hp'
      refine ⟨rfl, fun _ p' hp' => ?_⟩
      obtain rfl := hp'
      exact giveBack_obeys ⟨_, rfl, rfl, rfl⟩ ⟨rfl, fun _ => rfl⟩
    · obtain ⟨rfl, rfl⟩ := hp'
      exact ⟨dev, rfl, rfl⟩
  exit st p hp := by
    obtain ⟨dev, rfl, rfl⟩ := hp
    refine ⟨rfl, fun _ p' hp' => ?_⟩
    obtain rfl := hp'
    refine ⟨⟨rfl, fun n hn => ?_⟩, fun _ p' hp' => ?_⟩
    · obtain rfl := Option.some.inj hn
      exact ⟨rfl, rfl⟩
    obtain rfl := hp'
    refine ⟨rfl, fun _ p' hp' => ?_⟩
    obtain rfl := hp'
    exact giveBack_obeys ⟨_, rfl, rfl, rfl⟩ ⟨rfl, fun _ => rfl⟩

theorem i2cChar_conforms :
    Conforms I2cChar.driver CharDriver.i2cChar.Off CharDriver.i2cChar.On where
  init p hp := by
    obtain ⟨hp, hstale⟩ := hp
    have hempty : p = {} := by rw [hp, hstale (by simp)]
    subst hempty
    refine ⟨⟨rfl, rfl⟩, ?_⟩
    rintro (e | _) p' hp'
    · obtain rfl := hp'
      exact ⟨rfl, fun _ => rfl⟩
    obtain rfl := hp'
    refine ⟨⟨rfl, by decide, rfl⟩, ?_⟩
    rintro (e | dev) p' hp'
    · obtain rfl := hp'
      refine ⟨rfl, fun _ p' hp' => ?_⟩
      obtain rfl := hp'
      exact ⟨rfl, fun _ => rfl⟩
    obtain ⟨hminor, rfl⟩ := hp'
    refine ⟨⟨rfl, rfl⟩, ?_⟩
    rintro (e | cls) p' hp'
    · obtain rfl := hp'
      refine ⟨⟨_, rfl, rfl, rfl⟩, fun _ p' hp' => ?_⟩
      obtain rfl := hp'
      refine ⟨rfl, fun _ p' hp' => ?_⟩
      obtain rfl := hp'
      exact ⟨rfl, fun _ => rfl⟩
    obtain ⟨rfl, rfl⟩ := hp'
    refine ⟨⟨rfl, rfl⟩, ?_⟩
    -- The source goes on whether there is a node or not.
    rintro (e | n) p' hp'
    · obtain rfl := hp'
      exact ⟨dev, none, rfl, fun n hn => (by cases hn), rfl⟩
    · obtain ⟨rfl, rfl⟩ := hp'
      refine ⟨dev, some _, rfl, fun n hn => ?_, rfl⟩
      obtain rfl := Option.some.inj hn
      exact ⟨rfl, rfl⟩
  exit st p hp := by
    obtain ⟨dev, node, rfl, hnode, rfl⟩ := hp
    refine ⟨⟨rfl, hnode⟩, fun _ p' hp' => ?_⟩
    obtain rfl := hp'
    refine ⟨rfl, fun _ p' hp' => ?_⟩
    obtain rfl := hp'
    refine ⟨⟨_, rfl, rfl, rfl⟩, fun _ p' hp' => ?_⟩
    obtain rfl := hp'
    refine ⟨rfl, fun _ p' hp' => ?_⟩
    obtain rfl := hp'
    exact ⟨rfl, fun _ => rfl⟩

theorem spiChar_conforms :
    Conforms SpiChar.driver CharDriver.spiChar.Off CharDriver.spiChar.On where
  init p hp := by
    obtain ⟨hp, hstale⟩ := hp
    have hempty : p = {} := by rw [hp, hstale (by simp)]
    subst hempty
    refine ⟨⟨rfl, by decide, rfl⟩, ?_⟩
    rintro (e | dev) p' hp'
    · obtain rfl := hp'
      exact ⟨rfl, fun _ => rfl⟩
    obtain ⟨hminor, rfl⟩ := hp'
    refine ⟨trivial, ?_⟩
    rintro (_ | _) p' hp'
    · obtain rfl := hp'
      refine ⟨trivial, fun _ p' hp' => ?_⟩
      obtain rfl := hp'
      exact giveBack_obeys ⟨_, rfl, rfl, rfl⟩ ⟨rfl, fun _ => rfl⟩
    obtain rfl := hp'
    refine ⟨trivial, ?_⟩
    rintro (_ | _) p' hp'
    · obtain rfl := hp'
      exact giveBack_obeys ⟨_, rfl, rfl, rfl⟩ ⟨rfl, fun _ => rfl⟩
    obtain rfl := hp'
    refine ⟨⟨rfl, rfl, _, rfl, rfl, rfl⟩, ?_⟩
    rintro (e | c) p' hp'
    · obtain rfl := hp'
      refine ⟨trivial, fun _ p' hp' => ?_⟩
      obtain rfl := hp'
      exact giveBack_obeys ⟨_, rfl, rfl, rfl⟩ ⟨rfl, fun _ => rfl⟩
    · obtain ⟨rfl, rfl⟩ := hp'
      exact ⟨dev, rfl, rfl⟩
  exit st p hp := by
    obtain ⟨dev, rfl, rfl⟩ := hp
    refine ⟨rfl, fun _ p' hp' => ?_⟩
    obtain rfl := hp'
    exact giveBack_obeys ⟨_, rfl, rfl, rfl⟩ ⟨rfl, fun _ => rfl⟩

theorem conforms (i : CharDriver) : Conforms i.driver i.Off i.On := by
  cases i with
  | fixed i => exact fixed_conforms i
  | etx => exact etx_conforms
  | esp32 => exact esp32_conforms
  | i2cChar => exact i2cChar_conforms
  | spiChar => exact spiChar_conforms

/-! ## Every run -/

namespace CharDriver

/-- The tables serve the driver, loaded with the static variables `st`. -/
structure Up (i : CharDriver) (st : i.Statics) (k : Kernel Module) : Prop where
  region : ∃ r : Region Module, k.regions.filter (fun r => r.owner = i.name) = [r] ∧
    r.dev = i.devNum st ∧ r.count = 1
  /-- Nobody else has the number. -/
  alone : ∀ r ∈ k.regions, r.covers (i.devNum st) = true → r.owner = i.name
  opens : i ≠ i2cChar → k.fopsOf (i.devNum st) = some i.fops
  nodes : ∀ n ∈ k.nodes, n.cls.owner = i.name → n.dev = i.devNum st
  published : i = etx ∨ i = esp32 → ∃ n ∈ k.nodes, n.cls.owner = i.name

/-- The tables know nothing of the driver, but for the cdevs of `etx`. -/
structure Down (i : CharDriver) (k : Kernel Module) : Prop where
  regions : ∀ r ∈ k.regions, r.owner ≠ i.name
  cdevs : i ≠ etx → ∀ c ∈ k.cdevs, c.ops.driver ≠ i.name
  classes : ∀ c ∈ k.classes, c.owner ≠ i.name
  nodes : ∀ n ∈ k.nodes, n.cls.owner ≠ i.name
  i2cDrivers : ∀ d ∈ k.i2cDrivers, d.owner ≠ i.name

/-- What a loaded driver has, as far as the users of its number see it. -/
theorem On.number {i : CharDriver} {st : i.Statics} {p : Held Module} (h : i.On st p) :
    p.Has (i.devNum st) 1 ∧ (i ≠ i2cChar → ∃ c, p.cdev = some c ∧ c.ops = i.fops) ∧
    (∀ n, p.node = some n → n.dev = i.devNum st) ∧
    (i = etx ∨ i = esp32 → ∃ n, p.node = some n) := by
  cases i with
  | fixed i =>
    obtain ⟨rfl, rfl⟩ := h
    exact ⟨⟨_, rfl, rfl, rfl⟩, fun _ => ⟨_, rfl, rfl⟩, nofun, by simp⟩
  | etx =>
    obtain ⟨dev, rfl, hp⟩ := h
    rw [hp]
    refine ⟨⟨_, rfl, rfl, rfl⟩, fun _ => ⟨_, rfl, rfl⟩, fun n hn => ?_, fun _ => ⟨_, rfl⟩⟩
    obtain rfl := Option.some.inj hn
    rfl
  | esp32 =>
    obtain ⟨dev, rfl, rfl⟩ := h
    refine ⟨⟨_, rfl, rfl, rfl⟩, fun _ => ⟨_, rfl, rfl⟩, fun n hn => ?_, fun _ => ⟨_, rfl⟩⟩
    obtain rfl := Option.some.inj hn
    rfl
  | i2cChar =>
    obtain ⟨dev, node, rfl, hnode, rfl⟩ := h
    exact ⟨⟨_, rfl, rfl, rfl⟩, fun h => absurd rfl h, fun n hn => (hnode n hn).2, by simp⟩
  | spiChar =>
    obtain ⟨dev, rfl, rfl⟩ := h
    exact ⟨⟨_, rfl, rfl, rfl⟩, fun _ => ⟨_, rfl, rfl⟩, nofun, by simp⟩

variable {k₀ k : Kernel Module} {hs : CharDriver → Held Module}

theorem On.up {i : CharDriver} {st : i.Statics} (hshared : Shared name foreign k₀ hs k)
    (h : i.On st (hs i)) : i.Up st k := by
  obtain ⟨⟨r, hr, hdev, hcount⟩, hcdev, hnode, hpublished⟩ := h.number
  have hcovers : r.covers (i.devNum st) = true := by
    simp [Region.covers, hdev, hcount]
  have hown : r ∈ k.regions ∧ r.owner = i.name :=
    hshared.entries.regions.mem_of_own (i := i) (by simp [hr])
  refine ⟨⟨r, ?_, hdev, hcount⟩, fun r' hmem hcovers' => ?_, fun hne => ?_, fun n hmem howner => ?_,
    fun heq => ?_⟩
  · simpa [hr] using hshared.entries.regions.own i
  · obtain ⟨-, honly⟩ := hshared.exclusive i r hr
    rw [honly r' hmem (Region.overlaps_of_covers hcovers hcovers')]
    exact hown.2
  · obtain ⟨c, hc, hops⟩ := hcdev hne
    obtain ⟨r', hr', -, -, hserves⟩ := hshared.serving i c hc
    obtain rfl := Option.some.inj (hr.symm.trans hr')
    rw [Kernel.fopsOf, hserves _ hcovers, Option.map_some, hops]
  · have hmine := hshared.entries.nodes.mem_own hmem howner
    exact hnode n (by simpa using hmine)
  · obtain ⟨n, hn⟩ := hpublished heq
    exact ⟨n, hshared.entries.nodes.mem_of_own (i := i) (by simp [hn])⟩

theorem Off.down {i : CharDriver} (hshared : Shared name foreign k₀ hs k) (h : i.Off (hs i)) :
    i.Down k := by
  obtain ⟨hp, hstale⟩ := h
  refine ⟨fun r hmem howner => ?_, fun hne c hmem howner => ?_, fun c hmem howner => ?_,
    fun n hmem howner => ?_, fun d hmem howner => ?_⟩
  · have hmine := hshared.entries.regions.mem_own hmem howner
    rw [hp] at hmine
    cases hmine
  · have hmine := hshared.entries.cdevs.mem_own hmem howner
    rw [hp, hstale hne] at hmine
    cases hmine
  · have hmine := hshared.entries.classes.mem_own hmem howner
    rw [hp] at hmine
    cases hmine
  · have hmine := hshared.entries.nodes.mem_own hmem howner
    rw [hp] at hmine
    cases hmine
  · have hmine := hshared.entries.i2cDrivers.mem_own hmem howner
    rw [hp] at hmine
    cases hmine

end CharDriver

/-- The entries of the modules that are not in the repository are those of `k₀`. -/
structure SameForeign (k₀ k : Kernel Module) : Prop where
  regions : k.regions.filter (fun r => foreign r.owner) = k₀.regions
  cdevs : k.cdevs.filter (fun c => foreign c.ops.driver) = k₀.cdevs
  classes : k.classes.filter (fun c => foreign c.owner) = k₀.classes
  nodes : k.nodes.filter (fun n => foreign n.cls.owner) = k₀.nodes
  i2cDrivers : k.i2cDrivers.filter (fun d => foreign d.owner) = k₀.i2cDrivers

theorem foreign_of_ne {m : Module} (h : ∀ i : CharDriver, i.name ≠ m) : foreign m = true := by
  cases m with
  | other n => rfl
  | can => exact absurd rfl (h (.fixed .can))
  | wifi => exact absurd rfl (h (.fixed .wifi))
  | bluetooth => exact absurd rfl (h (.fixed .bluetooth))
  | etx => exact absurd rfl (h .etx)
  | esp32 => exact absurd rfl (h .esp32)
  | i2cChar => exact absurd rfl (h .i2cChar)
  | spiChar => exact absurd rfl (h .spiChar)

theorem CharDriver.driver_name (i : CharDriver) : i.driver.name = i.name := by
  cases i with
  | fixed i => exact i.driver_name
  | etx | esp32 | i2cChar | spiChar => rfl

/-- The tables and phases that the drivers can bring about. -/
abbrev CharDriver.Inv (k₀ : Kernel Module) (s : ModSys CharDriver Module CharDriver.Statics) :
    Prop :=
  s.Inv CharDriver.name foreign k₀ CharDriver.Off CharDriver.On

theorem CharDriver.inv_boot {k₀ : Kernel Module} (hk₀ : ∀ i : CharDriver, k₀.Foreign i.name) :
    CharDriver.Inv k₀ (ModSys.boot k₀) :=
  ModSys.inv_boot naming hk₀ (fun _ => foreign_of_ne) fun _ => ⟨rfl, fun _ => rfl⟩

theorem CharDriver.inv_step {k₀ : Kernel Module}
    {s : ModSys CharDriver Module CharDriver.Statics} (h : CharDriver.Inv k₀ s)
    (a : ModAct CharDriver Module) : CharDriver.Inv k₀ (s.step CharDriver.driver a) :=
  ModSys.inv_step naming CharDriver.driver_name conforms h a

/-- Any number of the drivers are loaded and unloaded at the same time: in every state
a loaded one is served and one that is not loaded has left nothing behind. -/
theorem together {k₀ : Kernel Module} (hk₀ : ∀ i : CharDriver, k₀.Foreign i.name)
    (acts : List (ModAct CharDriver Module)) :
    let s := Run.run (ModSys.step CharDriver.driver) (ModSys.boot k₀) acts
    (∀ i st, s.phase i = .live st → i.Up st s.kernel) ∧
    (∀ i, s.phase i = .unloaded → i.Down s.kernel) ∧ SameForeign k₀ s.kernel := by
  intro s
  obtain ⟨hs, hshared, hphase⟩ : CharDriver.Inv k₀ s :=
    ModSys.inv_run naming CharDriver.driver_name conforms (CharDriver.inv_boot hk₀) acts
  refine ⟨fun i st hlive => ?_, fun i hunloaded => ?_, ?_⟩
  · have hi := hphase i
    rw [hlive] at hi
    exact CharDriver.On.up hshared hi
  · have hi := hphase i
    rw [hunloaded] at hi
    exact CharDriver.Off.down hshared hi
  · obtain ⟨hregions, hcdevs, hclasses, hnodes, hi2c⟩ := hshared.entries
    exact ⟨hregions.others, hcdevs.others, hclasses.others, hnodes.others, hi2c.others⟩

/-- CAN is loaded while ESP32 is, call by call, next to a module that has a number. -/
theorem together_can_esp32 :
    let k₀ : Kernel Module := { regions := [⟨.other 0, "other", ⟨240, 0⟩, 1⟩] }
    let o : Outcomes Module := { alloc := fun _ => .ok 254 }
    let acts := [.insmod .esp32, .insmod (.fixed .can), .call .esp32 o, .call (.fixed .can) o,
      .call .esp32 o, .call .esp32 o, .call (.fixed .can) o, .call .esp32 o, .call .esp32 o]
    let s := Run.run (ModSys.step CharDriver.driver) (ModSys.boot k₀) acts
    CharDriver.esp32.Up (Esp32.statics ⟨254, 0⟩) s.kernel ∧ CharDriver.etx.Down s.kernel := by
  intro k₀ o acts s
  have hk₀ : ∀ i : CharDriver, k₀.Foreign i.name := by
    rintro (i | _ | _ | _ | _)
    · cases i <;> exact ⟨by decide, by decide, by decide, by decide, by decide⟩
    all_goals exact ⟨by decide, by decide, by decide, by decide, by decide⟩
  obtain ⟨hup, hdown, -⟩ := together hk₀ acts
  exact ⟨hup .esp32 _ rfl, hdown .etx rfl⟩

end DeviceDrivers
