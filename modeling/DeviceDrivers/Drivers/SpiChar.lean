import DeviceDrivers.Drivers.Module

/-!
# The SPI character driver: registration

`CharSpiKS.c`. The init acquires a device number, a reference to the SPI device
and a cdev. `my_cdev` is NULL until `cdev_alloc` returned it, and the branch for
a missing SPI device follows it before that.

1. `init_case`: what the init can do.
2. `exit_installed`: the exit keeps the reference to the SPI device.
3. `loads_meet_iff`: a run is as it should be exactly when each of its loads
   fails at the device number or works, and a loaded driver is never unloaded.
-/

namespace DeviceDrivers

/-- The static variables `dev_num` and `my_cdev`. -/
structure SpiStatics where
  devNum : Dev
  myCdev : Cdev Module
deriving DecidableEq, Repr

namespace SpiChar

/-! ## Source -/

def deviceName : String := "spi_char_dev"

def spiCharFops : FileOperations Module :=
  { driver := .spiChar, owner := some .spiChar, ops := [.read] }

/-- The label `err_free_chrdev`. -/
def errFreeChrdev (devNum : Dev) (ret : Errno) : KProg Module (Except Int SpiStatics) := do
  unregisterChrdevRegion devNum 1
  return .error ret.code

/-- The label `err_free_cdev`. -/
def errFreeCdev (myCdev : Cdev Module) (devNum : Dev) (ret : Errno) :
    KProg Module (Except Int SpiStatics) := do
  kobjectPut myCdev
  errFreeChrdev devNum ret

def spiCharInit : KProg Module (Except Int SpiStatics) := do
  match ← allocChrdevRegion .spiChar 0 1 deviceName with
  | .error ret => return .error ret.code
  | .ok devNum =>
  match ← spiBusFindDevice 0 0 with
  | false =>
    -- `dev_get_drvdata(my_cdev->dev)` for the message, with `my_cdev` still NULL.
    derefCdev none
    errFreeChrdev devNum EOPNOTSUPP
  | true =>
  match ← cdevAlloc with
  | false => errFreeChrdev devNum ENOMEM
  | true =>
  let myCdev : Cdev Module := cdevInit spiCharFops
  match ← cdevAdd myCdev devNum 1 with
  | .error ret => errFreeCdev myCdev devNum ret
  | .ok myCdev => return .ok ⟨devNum, myCdev⟩

def spiCharExit (st : SpiStatics) : KProg Module Unit := do
  cdevDel st.myCdev
  unregisterChrdevRegion st.devNum 1

def driver : Driver Module SpiStatics := ⟨.spiChar, spiCharInit, spiCharExit⟩

/-! ## What init and exit do -/

/-- The static variables of the loaded driver. -/
def statics (devNum : Dev) : SpiStatics :=
  ⟨devNum, { cdevInit spiCharFops with dev := devNum, count := 1 }⟩

/-- The tables with the entries of the loaded driver on top. -/
def installed (devNum : Dev) (k : Kernel Module) : Kernel Module :=
  { k with
    regions := ⟨.spiChar, deviceName, devNum, 1⟩ :: k.regions
    cdevs := (statics devNum).myCdev :: k.cdevs
    spiRefs := k.spiRefs + 1 }

/-- The number that `alloc_chrdev_region` finds. -/
def devNumOf (o : Outcomes Module) (k : Kernel Module) : Except Errno Dev :=
  (k.allocRegion o .spiChar 0 1 deviceName).1

/-- What an init can return, and the tables that it leaves. -/
inductive InitCase (o : Outcomes Module) (k : Kernel Module) :
    Except Int SpiStatics → Kernel Module → Prop
  | noNumber {e : Errno} : devNumOf o k = .error e → InitCase o k (.error e.code) k
  | noDevice {devNum : Dev} : devNumOf o k = .ok devNum → o.spiFound = false →
      InitCase o k (.error EOPNOTSUPP.code) { k with nullDerefs := k.nullDerefs + 1 }
  | noMemory {devNum : Dev} : devNumOf o k = .ok devNum → o.spiFound = true →
      o.cdevAlloc = false → InitCase o k (.error ENOMEM.code) { k with spiRefs := k.spiRefs + 1 }
  | notAdded {devNum : Dev} {e : Errno} : devNumOf o k = .ok devNum → o.spiFound = true →
      o.cdevAlloc = true → o.cdevAdd = some e →
      InitCase o k (.error e.code) { k with spiRefs := k.spiRefs + 1 }
  | loaded {devNum : Dev} : devNumOf o k = .ok devNum → o.spiFound = true →
      o.cdevAlloc = true → o.cdevAdd = none →
      InitCase o k (.ok (statics devNum)) (installed devNum k)

theorem init_case (o : Outcomes Module) (k : Kernel Module) :
    InitCase o k (spiCharInit.exec (kcall o) k).1 (spiCharInit.exec (kcall o) k).2 := by
  rcases k.allocRegion_cases o .spiChar 0 1 deviceName with ⟨e, halloc⟩ | ⟨major, -, -, halloc⟩
  · have hnum : devNumOf o k = .error e := by simp [devNumOf, halloc]
    simpa [spiCharInit, halloc] using InitCase.noNumber hnum
  have hnum : devNumOf o k = .ok ⟨major, 0⟩ := by simp [devNumOf, halloc]
  cases hspi : o.spiFound with
  | false => simpa [spiCharInit, halloc, hspi, errFreeChrdev] using InitCase.noDevice hnum hspi
  | true =>
    cases hcdev : o.cdevAlloc with
    | false =>
      simpa [spiCharInit, halloc, hspi, hcdev, errFreeChrdev] using
        InitCase.noMemory hnum hspi hcdev
    | true =>
      cases hadd : o.cdevAdd with
      | some e =>
        simpa [spiCharInit, halloc, hspi, hcdev, hadd, errFreeCdev, errFreeChrdev] using
          InitCase.notAdded hnum hspi hcdev hadd
      | none =>
        simpa [spiCharInit, halloc, hspi, hcdev, hadd, statics, installed] using
          InitCase.loaded hnum hspi hcdev hadd

/-- The exit takes back the number and the cdev, not the reference. -/
theorem exit_installed (devNum : Dev) (k : Kernel Module) :
    ((spiCharExit (statics devNum)).exec (kcall .idle) (installed devNum k)).2 =
      { k with spiRefs := k.spiRefs + 1 } := by
  simp [spiCharExit, statics, installed]

/-! ## Runs -/

/-- The machine with this driver. -/
abbrev SpiSys : Type := Sys Unit Module SpiStatics

abbrev step : SpiSys → Act Unit Module → SpiSys := Sys.step (Solo.drv driver)

/-- The device numbers, the cdevs and the references to the SPI device are the
same. -/
structure SameHolds (k k' : Kernel Module) : Prop where
  regions : k.regions = k'.regions
  cdevs : k.cdevs = k'.cdevs
  spiRefs : k.spiRefs = k'.spiRefs

/-- What an init should do on the tables `k`, where `r` is what it returns and
`k'` what it leaves: it follows no NULL pointer, and when it fails it returns a
negative code and holds nothing. -/
structure LoadMeets (k : Kernel Module) (r : Except Int SpiStatics) (k' : Kernel Module) :
    Prop where
  noNullDeref : k'.nullDerefs = k.nullDerefs
  fail : ∀ c, r = .error c → c < 0 ∧ SameHolds k' k

/-- What a step should do: a load as `LoadMeets` says, and an unload that removes
the driver restores what was held before the load. -/
structure StepMeets (k₀ : Kernel Module) (s : SpiSys) (a : Act Unit Module) : Prop where
  load : ∀ o, a = .load () o → s.live () = none →
    LoadMeets s.kernel (s.loading (Solo.drv driver) () o).1 (s.loading (Solo.drv driver) () o).2
  unload : a = .unload () → (s.live ()).isSome → (step s a).live () = none →
    SameHolds (step s a).kernel k₀

/-- The init fails before it has acquired anything, or nothing fails. -/
def AllOrNothing (o : Outcomes Module) (k : Kernel Module) : Prop :=
  (∃ e, devNumOf o k = .error e) ∨
    (o.spiFound = true ∧ o.cdevAlloc = true ∧ o.cdevAdd = none)

/-- Each load is all or nothing, and no unload finds the driver loaded and not
in use. -/
structure StepFits (s : SpiSys) (a : Act Unit Module) : Prop where
  load : Solo.LoadsWell AllOrNothing s a
  unload : a = .unload () → (s.live ()).isSome → s.Pinned .spiChar

/-- The invariant: the tables are `k₀` with or without the driver's entries. -/
structure Inv (k₀ : Kernel Module) (s : SpiSys) : Prop where
  off : s.live () = none → s.kernel = k₀
  on : ∀ st, s.live () = some st →
    ∃ devNum, st = statics devNum ∧ s.kernel = installed devNum k₀

theorem inv_boot (k₀ : Kernel Module) : Inv k₀ (Sys.boot k₀) where
  off _ := rfl
  on _ h := by cases h

theorem InitCase.meets_iff {o : Outcomes Module} {k k' : Kernel Module}
    {r : Except Int SpiStatics} (h : InitCase o k r k') : LoadMeets k r k' ↔ AllOrNothing o k := by
  cases h with
  | noNumber hnum =>
    refine iff_of_true ⟨rfl, ?_⟩ (.inl ⟨_, hnum⟩)
    rintro c ⟨⟩
    exact ⟨Errno.code_neg _, rfl, rfl, rfl⟩
  | loaded _ hspi hcdev hadd => exact iff_of_true ⟨rfl, nofun⟩ (.inr ⟨hspi, hcdev, hadd⟩)
  -- Otherwise a NULL pointer is followed, or the reference is kept.
  | noDevice hnum hspi =>
    refine iff_of_false (fun hmeets => ?_) (by simp [AllOrNothing, hnum, hspi])
    exact absurd hmeets.noNullDeref (by simp)
  | noMemory hnum _ hcdev =>
    refine iff_of_false (fun hmeets => ?_) (by simp [AllOrNothing, hnum, hcdev])
    exact absurd (hmeets.fail _ rfl).2.spiRefs (by simp)
  | notAdded hnum _ _ hadd =>
    refine iff_of_false (fun hmeets => ?_) (by simp [AllOrNothing, hnum, hadd])
    exact absurd (hmeets.fail _ rfl).2.spiRefs (by simp)

/-- An init that fails before it has acquired anything leaves the tables, and one
in which nothing fails loads the driver. -/
theorem InitCase.of_allOrNothing {o : Outcomes Module} {k k' : Kernel Module}
    {r : Except Int SpiStatics} (h : InitCase o k r k') (ho : AllOrNothing o k) :
    (∃ c, r = .error c ∧ k' = k) ∨
      ∃ devNum, r = .ok (statics devNum) ∧ k' = installed devNum k := by
  cases h with
  | noNumber _ => exact .inl ⟨_, rfl, rfl⟩
  | loaded _ _ _ _ => exact .inr ⟨_, rfl, rfl⟩
  | noDevice hnum hspi => simp [AllOrNothing, hnum, hspi] at ho
  | noMemory hnum _ hcdev => simp [AllOrNothing, hnum, hcdev] at ho
  | notAdded hnum _ _ hadd => simp [AllOrNothing, hnum, hadd] at ho

theorem loading_case (s : SpiSys) (o : Outcomes Module) :
    InitCase o s.kernel (s.loading (Solo.drv driver) () o).1
      (s.loading (Solo.drv driver) () o).2 :=
  init_case o s.kernel

theorem Inv.unloading {k₀ : Kernel Module} {s : SpiSys} (h : Inv k₀ s) {st : SpiStatics}
    (hl : s.live () = some st) :
    s.unloading (Solo.drv driver) () st = { k₀ with spiRefs := k₀.spiRefs + 1 } := by
  obtain ⟨devNum, rfl, hs⟩ := h.on st hl
  show ((spiCharExit (statics devNum)).exec (kcall .idle) s.kernel).2 = _
  rw [hs]
  exact exit_installed devNum k₀

theorem inv_step {k₀ : Kernel Module} {s : SpiSys} (h : Inv k₀ s) {a : Act Unit Module}
    (ha : StepFits s a) : Inv k₀ (step s a) := by
  have hcase : Sys.StepCase (Solo.drv driver) s a (step s a) := Sys.stepCase _ s a
  generalize step s a = s' at hcase
  cases hcase with
  | @loadFailed _ o c hl hr =>
    rcases (loading_case s o).of_allOrNothing (ha.load o rfl hl) with ⟨_, _, hk⟩ | ⟨_, hok, _⟩
    · rw [hk]
      exact h
    · rw [hr] at hok
      cases hok
  | @loaded _ o st hl hr =>
    rcases (loading_case s o).of_allOrNothing (ha.load o rfl hl) with
      ⟨_, herr, _⟩ | ⟨devNum, hok, hk⟩
    · rw [hr] at herr
      cases herr
    · obtain rfl : st = statics devNum := Except.ok.inj (hr.symm.trans hok)
      refine ⟨fun hnone => by simp at hnone, fun st' hst' => ?_⟩
      obtain rfl : statics devNum = st' := by simpa using hst'
      exact ⟨devNum, rfl, by rw [hk, h.off hl]⟩
  | @unloaded _ st hl hp => exact absurd (ha.unload rfl (by simp [hl])) hp
  | opened _ _ | closed => exact ⟨h.off, h.on⟩
  | same => exact h

theorem StepFits.stepMeets {k₀ : Kernel Module} {s : SpiSys} {a : Act Unit Module}
    (ha : StepFits s a) : StepMeets k₀ s a where
  load o hload hl := (loading_case s o).meets_iff.mpr (ha.load o hload hl)
  unload hunload hl hgone := by
    subst hunload
    obtain ⟨st, hst⟩ := Option.isSome_iff_exists.mp hl
    have hpin : s.Pinned (Solo.drv driver ()).name := ha.unload rfl hl
    simp [step, Sys.step, hst, hpin] at hgone

theorem Inv.stepFits {k₀ : Kernel Module} {s : SpiSys} (h : Inv k₀ s) {a : Act Unit Module}
    (ha : StepMeets k₀ s a) : StepFits s a where
  load o hload hl := (loading_case s o).meets_iff.mp (ha.load o hload hl)
  unload hunload hl := by
    subst hunload
    obtain ⟨st, hst⟩ := Option.isSome_iff_exists.mp hl
    by_contra hfree
    have hpin : ¬ s.Pinned (Solo.drv driver ()).name := hfree
    have hkernel : (step s (.unload ())).kernel = { k₀ with spiRefs := k₀.spiRefs + 1 } := by
      simp [step, Sys.step, hst, hpin, h.unloading hst]
    have hsame := ha.unload rfl hl (by simp [step, Sys.step, hst, hpin])
    exact absurd hsame.spiRefs (by simp [hkernel])

/-- Every load and unload of a run is as it should be if and only if each load
fails at the device number or works, and no unload removes the driver. -/
theorem loads_meet_iff (k₀ : Kernel Module) (acts : List (Act Unit Module)) :
    Run.Along step (StepMeets k₀) (Sys.boot k₀) acts ↔
      Run.Along step StepFits (Sys.boot k₀) acts :=
  Run.along_iff_of_inv (I := Inv k₀) (fun _ _ h ha => ⟨ha.stepMeets, inv_step h ha⟩)
    (fun _ _ h ha => h.stepFits ha) (inv_boot k₀) acts

/-- The SPI device is missing and `my_cdev` is followed while NULL; there is no
memory for the cdev and the reference to the device stays; a load and an unload
that work leave it too. -/
theorem device_kept :
    let works : Outcomes Module := { alloc := fun _ => .ok 240 }
    ¬ Run.Along step (StepMeets {}) (Sys.boot {}) [.load () { works with spiFound := false }] ∧
    ¬ Run.Along step (StepMeets {}) (Sys.boot {}) [.load () { works with cdevAlloc := false }] ∧
    ¬ Run.Along step (StepMeets {}) (Sys.boot {}) [.load () works, .unload ()] := by
  intro works
  refine ⟨fun h => ?_, fun h => ?_, fun h => ?_⟩
  · exact absurd (h.1.load _ rfl rfl).noNullDeref (by decide)
  · exact absurd ((h.1.load _ rfl rfl).fail _ rfl).2.spiRefs (by decide)
  · exact absurd (h.2.1.unload rfl (by decide) (by decide)).spiRefs (by decide)

end SpiChar

end DeviceDrivers
