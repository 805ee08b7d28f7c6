import DeviceDrivers.Drivers.Together
import DeviceDrivers.Kernel.OpenFiles
import Mathlib.Data.Finset.Insert

/-!
# The drivers and the open files of all processes

The seven drivers are loaded and unloaded call by call while processes open, use and
close files.

`called_when_loaded`: the functions of the CAN, Wi-Fi, Bluetooth, I2C and SPI drivers run
only while the module is loaded. The other two are left out: `etx` may fail when it has
added its cdev, and the cdev of `esp32` names no module.
-/

namespace DeviceDrivers

open FixedMajor (Fixed)

instance : Fintype CharDriver where
  elems := {.fixed .can, .fixed .wifi, .fixed .bluetooth, .etx, .esp32, .i2cChar, .spiChar}
  complete i := by
    cases i with
    | fixed i => cases i <;> decide
    | etx | esp32 | i2cChar | spiChar => decide

namespace CharDriver

/-- The driver adds its cdev last, and the cdev names it. -/
def Careful (i : CharDriver) : Prop := i ≠ etx ∧ i ≠ esp32

/-- A failed init gives its numbers back, with no cdev in the table. -/
theorem giveBack_publishing {σ : Type} (m : Module) (dev : Dev) (e : Int) :
    (Prog.call (.unregisterChrdevRegion dev 1) fun _ => .ret (.error e) :
      KProg Module (Except Int σ)).Obeys (publishing m) Works false := by
  refine ⟨⟨rfl, trivial⟩, ?_⟩
  rintro _ _ rfl
  exact nofun

theorem fixed_publishesLast (i : Fixed) : PublishesLast i.driver where
  init := by
    rw [Fixed.driver_init, Fixed.driver_name]
    refine ⟨⟨rfl, trivial⟩, ?_⟩
    rintro (e | _) _ rfl
    · exact nofun
    refine ⟨⟨rfl, by simp [cdevInit]⟩, ?_⟩
    rintro (e | c) _ rfl
    · exact giveBack_publishing _ _ _
    · exact fun _ => ⟨_, rfl⟩
  exit st := by
    rw [Fixed.driver_exit]
    exact ⟨trivial, fun _ _ _ => ⟨trivial, fun _ _ _ => trivial⟩⟩

/-- This driver adds no cdev at all. -/
theorem i2cChar_publishesLast : PublishesLast I2cChar.driver where
  init := by
    refine ⟨⟨rfl, trivial⟩, ?_⟩
    rintro (e | _) _ rfl
    · exact nofun
    refine ⟨⟨rfl, trivial⟩, ?_⟩
    rintro (e | dev) _ rfl
    · refine ⟨⟨rfl, trivial⟩, ?_⟩
      rintro _ _ rfl
      exact nofun
    refine ⟨⟨rfl, trivial⟩, ?_⟩
    rintro (e | cls) _ rfl
    · refine ⟨⟨rfl, trivial⟩, ?_⟩
      rintro _ _ rfl
      refine ⟨⟨rfl, trivial⟩, ?_⟩
      rintro _ _ rfl
      exact nofun
    · exact ⟨⟨rfl, trivial⟩, fun _ _ _ _ => ⟨_, rfl⟩⟩
  exit st := by
    refine ⟨trivial, fun _ _ _ => ⟨trivial, fun _ _ _ => ⟨trivial, fun _ _ _ => ?_⟩⟩⟩
    exact ⟨trivial, fun _ _ _ => trivial⟩

theorem spiChar_publishesLast : PublishesLast SpiChar.driver where
  init := by
    refine ⟨⟨rfl, trivial⟩, ?_⟩
    rintro (e | dev) _ rfl
    · exact nofun
    refine ⟨⟨rfl, trivial⟩, ?_⟩
    rintro (_ | _) _ rfl
    · refine ⟨⟨rfl, trivial⟩, ?_⟩
      rintro _ _ rfl
      exact giveBack_publishing _ _ _
    refine ⟨⟨rfl, trivial⟩, ?_⟩
    rintro (_ | _) _ rfl
    · exact giveBack_publishing _ _ _
    refine ⟨⟨rfl, rfl⟩, ?_⟩
    rintro (e | c) _ rfl
    · refine ⟨⟨rfl, trivial⟩, ?_⟩
      rintro _ _ rfl
      exact giveBack_publishing _ _ _
    · exact fun _ => ⟨_, rfl⟩
  exit st := ⟨trivial, fun _ _ _ => ⟨trivial, fun _ _ _ => trivial⟩⟩

theorem publishesLast {i : CharDriver} (hi : i.Careful) : PublishesLast i.driver := by
  cases i with
  | etx => exact absurd rfl hi.1
  | esp32 => exact absurd rfl hi.2
  | fixed i => exact fixed_publishesLast i
  | i2cChar => exact i2cChar_publishesLast
  | spiChar => exact spiChar_publishesLast

end CharDriver

/-- Drivers are loaded and unloaded call by call, and processes open, use and close files,
in any order: the functions of a careful driver run only while it is loaded, and so does
the driver of every file that is open. -/
theorem called_when_loaded {k₀ : Kernel Module} (hk₀ : ∀ i : CharDriver, k₀.Foreign i.name)
    (acts : List (FileAct CharDriver Module)) :
    Run.Along (FileSys.step CharDriver.name CharDriver.driver)
      (fun s a => ∀ h i, s.dispatch CharDriver.name a = some h → i.Careful →
        h.driver = i.name → (s.sys.phase i).Loaded) (FileSys.boot k₀) acts ∧
    let s := Run.run (FileSys.step CharDriver.name CharDriver.driver) (FileSys.boot k₀) acts
    ∀ i : CharDriver, i.Careful → ∀ f ∈ s.files, f.fops.driver = i.name →
      (s.sys.phase i).Loaded := by
  have hstep : ∀ (s : FileSys CharDriver Module CharDriver.Statics) a,
      s.Inv CharDriver.name foreign k₀ CharDriver.Off CharDriver.On CharDriver.Careful →
      (s.step CharDriver.name CharDriver.driver a).Inv CharDriver.name foreign k₀ CharDriver.Off
        CharDriver.On CharDriver.Careful := by
    intro s a h
    refine FileSys.inv_step naming CharDriver.driver_name conforms
      (fun _ => CharDriver.publishesLast) (fun i hi p hoff => ?_) h a
    exact ⟨by rw [hoff.1], hoff.2 hi.1⟩
  have hboot := FileSys.inv_boot CharDriver.Careful hk₀ (CharDriver.inv_boot hk₀)
  refine ⟨Run.along_of_step (fun s a h => ⟨fun handler i hcall hi hdriver => ?_, hstep s a h⟩)
    hboot acts, ?_⟩
  · exact h.called hcall hi hdriver
  · intro s i hi f hf hdriver
    exact ((Run.inv_run hstep hboot acts).files i hi f hf hdriver).2

/-- A file of CAN is open while SPI is being loaded, so that CAN cannot be unloaded. -/
theorem called_can_spiChar :
    let o : Outcomes Module := { alloc := fun _ => .ok 254 }
    let acts := [.mod (.insmod (.fixed .can)), .mod (.call (.fixed .can) o),
      .mod (.call (.fixed .can) o), .open 3 ⟨250, 0⟩, .mod (.insmod .spiChar),
      .mod (.call .spiChar o), .mod (.call (.fixed .can) o), .mod (.rmmod (.fixed .can))]
    let s := Run.run (FileSys.step CharDriver.name CharDriver.driver) (FileSys.boot {}) acts
    s.dispatch CharDriver.name (.use 3 .write) = some ⟨.can, .write⟩ ∧
    (s.sys.phase (.fixed .can)).Loaded := by
  intro o acts s
  have hk₀ : ∀ i : CharDriver, ({} : Kernel Module).Foreign i.name :=
    fun i => Kernel.foreign_empty i.name
  have hfile : (⟨3, FixedMajor.canFops, [.can, .can]⟩ : File Module) ∈ s.files :=
    List.mem_cons_self
  exact ⟨rfl, (called_when_loaded hk₀ acts).2 (.fixed .can) ⟨nofun, nofun⟩ _ hfile rfl⟩

end DeviceDrivers
