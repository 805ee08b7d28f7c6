import DeviceDrivers.Drivers.Module

/-!
# The I2C character driver

`I2c_driver_test.c`. The init adds the bus driver and acquires a device number, a
class and a device node. It does not look at what `device_create` returns, and
there is no `struct cdev` in the file.

1. `init_cases`: what the init can do.
2. `complete_iff`: an init that returns 0 never leaves a device that can be
   opened, so a run is as it should be exactly when none of its loads succeeds.
   The exit restores the tables in every run.
-/

namespace DeviceDrivers

/-- The static variables `dev_num` and `dev_class`. -/
structure I2cStatics where
  devNum : Dev
  devClass : Class Module
deriving DecidableEq, Repr

namespace I2cChar

/-! ## Source -/

def driverName : String := "i2c_char_driver"

def i2cCharDriverFops : FileOperations Module :=
  { driver := .i2cChar, ops := [.open, .release, .read, .write] }

def i2cCharDriver : I2cDriver Module := ⟨.i2cChar, driverName⟩

def i2cCharDriverInit : KProg Module (Except Int I2cStatics) := do
  match ← i2cAddDriver i2cCharDriver with
  | .error ret => return .error ret.code
  | .ok () =>
  match ← allocChrdevRegion .i2cChar 0 1 driverName with
  | .error ret =>
    i2cDelDriver i2cCharDriver
    return .error ret.code
  | .ok devNum =>
  match ← classCreate .i2cChar driverName with
  | .error err =>
    unregisterChrdevRegion devNum 1
    i2cDelDriver i2cCharDriver
    return .error err.code
  | .ok devClass =>
  -- The source does not test the result with IS_ERR.
  let _ ← deviceCreate devClass devNum driverName
  return .ok ⟨devNum, devClass⟩

def i2cCharDriverExit (st : I2cStatics) : KProg Module Unit := do
  deviceDestroy st.devClass st.devNum
  classDestroy st.devClass
  unregisterChrdevRegion st.devNum 1
  i2cDelDriver i2cCharDriver

def driver : Driver Module I2cStatics := ⟨.i2cChar, i2cCharDriverInit, i2cCharDriverExit⟩

/-! ## What init and exit do -/

def devClass : Class Module := ⟨.i2cChar, driverName⟩

/-- The static variables of the loaded driver. -/
def statics (devNum : Dev) : I2cStatics := ⟨devNum, devClass⟩

/-- The device node, when `device_create` works. -/
def devNodes (o : Outcomes Module) (devNum : Dev) : List (Node Module) :=
  if o.deviceCreate = none then [⟨devClass, devNum, driverName⟩] else []

/-- The tables with the entries of the loaded driver on top. -/
def installed (devNum : Dev) (nodes : List (Node Module)) (k : Kernel Module) : Kernel Module :=
  { k with
    i2cDrivers := i2cCharDriver :: k.i2cDrivers
    regions := ⟨.i2cChar, driverName, devNum, 1⟩ :: k.regions
    classes := devClass :: k.classes
    nodes := nodes ++ k.nodes }

/-- The error of the first call that fails, among those that the init looks at. -/
def checkedFailure (o : Outcomes Module) (k : Kernel Module) : Option Errno :=
  o.i2cAddDriver <|>
    match (k.allocRegion o .i2cChar 0 1 driverName).1 with
    | .error e => some e
    | .ok _ => o.classCreate

/-- The error of the first call that fails. -/
def failure (o : Outcomes Module) (k : Kernel Module) : Option Errno :=
  checkedFailure o k <|> o.deviceCreate

/-- An init returns the error of a call it looks at and leaves the tables, or
loads the driver, with or without its node. -/
theorem init_cases (o : Outcomes Module) (k : Kernel Module) :
    (∃ e, checkedFailure o k = some e ∧
      i2cCharDriverInit.exec (kcall o) k = (.error e.code, k)) ∨
    (∃ devNum, checkedFailure o k = none ∧
      i2cCharDriverInit.exec (kcall o) k =
        (.ok (statics devNum), installed devNum (devNodes o devNum) k)) := by
  unfold checkedFailure
  cases hbus : o.i2cAddDriver with
  | some e => exact .inl ⟨e, by simp, by simp [i2cCharDriverInit, hbus]⟩
  | none =>
    have hfst : (k.allocRegion o .i2cChar 0 1 driverName).1 =
        (Kernel.allocRegion o .i2cChar 0 1 driverName
          { k with i2cDrivers := i2cCharDriver :: k.i2cDrivers }).1 := by
      apply Kernel.allocRegion_fst_congr
      rfl
    rcases Kernel.allocRegion_cases o .i2cChar 0 1 driverName
        { k with i2cDrivers := i2cCharDriver :: k.i2cDrivers } with
      ⟨e, halloc⟩ | ⟨major, _, _, halloc⟩
    · refine .inl ⟨e, ?_, by simp [i2cCharDriverInit, hbus, halloc]⟩
      rw [hfst, halloc]
      rfl
    cases hclass : o.classCreate with
    | some e =>
      refine .inl ⟨e, ?_, by simp [i2cCharDriverInit, hbus, halloc, hclass]⟩
      rw [hfst, halloc]
      rfl
    | none =>
      refine .inr ⟨⟨major, 0⟩, ?_, ?_⟩
      · rw [hfst, halloc]
        rfl
      · cases hdevice : o.deviceCreate <;>
          simp [i2cCharDriverInit, hbus, halloc, hclass, hdevice, statics, installed, devNodes,
            devClass]

/-- The exit takes away the entries of the loaded driver, with or without its
node. -/
theorem exit_restores {k : Kernel Module} (hk : k.Foreign .i2cChar) (o : Outcomes Module)
    (devNum : Dev) :
    ((i2cCharDriverExit (statics devNum)).exec (kcall .idle)
      (installed devNum (devNodes o devNum) k)).2 = k := by
  have hnodes : k.nodes.eraseP (fun n => n.cls == devClass && n.dev == devNum) = k.nodes := by
    refine List.eraseP_of_forall_not fun n hn hkey => hk.nodes n hn ?_
    simp only [Bool.and_eq_true, beq_iff_eq] at hkey
    rw [hkey.1]
    rfl
  cases hdevice : o.deviceCreate <;>
    simp [i2cCharDriverExit, statics, installed, devNodes, hdevice, hnodes]

/-! ## Runs -/

/-- The machine with this driver. -/
abbrev I2cSys : Type := Sys Unit Module I2cStatics

abbrev step : I2cSys → Act Unit Module → I2cSys := Sys.step (Solo.drv driver)

/-- The invariant: the tables are `k₀` with or without the driver's entries, and
no open file pins the driver. -/
structure Inv (k₀ : Kernel Module) (s : I2cSys) : Prop where
  off : s.live () = none → s.kernel = k₀
  on : ∀ st, s.live () = some st →
    ∃ o devNum, st = statics devNum ∧ s.kernel = installed devNum (devNodes o devNum) k₀
  unpinned : ¬ s.Pinned .i2cChar

theorem inv_boot (k₀ : Kernel Module) : Inv k₀ (Sys.boot k₀) where
  off _ := rfl
  on _ h := by cases h
  unpinned := by simp [Sys.Pinned, Sys.boot]

/-- The driver never has a cdev. -/
theorem Inv.cdevs {k₀ : Kernel Module} {s : I2cSys} (h : Inv k₀ s) :
    s.kernel.cdevs = k₀.cdevs := by
  cases hl : s.live () with
  | none => rw [h.off hl]
  | some st =>
    obtain ⟨o, devNum, -, hs⟩ := h.on st hl
    rw [hs]
    rfl

/-- A load of the driver: the error of a call that the init looks at, or the
entries of the driver. -/
theorem loading_cases (s : I2cSys) (o : Outcomes Module) :
    (∃ e, checkedFailure o s.kernel = some e ∧
      s.loading (Solo.drv driver) () o = (.error e.code, s.kernel)) ∨
    (∃ devNum, checkedFailure o s.kernel = none ∧
      s.loading (Solo.drv driver) () o =
        (.ok (statics devNum), installed devNum (devNodes o devNum) s.kernel)) :=
  init_cases o s.kernel

theorem Inv.unloading {k₀ : Kernel Module} (hk : k₀.Foreign .i2cChar) {s : I2cSys} (h : Inv k₀ s)
    {st : I2cStatics} (hl : s.live () = some st) : s.unloading (Solo.drv driver) () st = k₀ := by
  obtain ⟨o, devNum, rfl, hs⟩ := h.on st hl
  show ((i2cCharDriverExit (statics devNum)).exec (kcall .idle) s.kernel).2 = k₀
  rw [hs]
  exact exit_restores hk o devNum

/-- An unload is not kept back. -/
theorem Inv.unload_live {k₀ : Kernel Module} {s : I2cSys} (h : Inv k₀ s) :
    (step s (.unload ())).live () = none := by
  cases hl : s.live () with
  | none => simp [step, Sys.step, hl]
  | some st =>
    have hpin : ¬ s.Pinned (Solo.drv driver ()).name := h.unpinned
    simp [step, Sys.step, hl, hpin]

theorem inv_step {k₀ : Kernel Module} (hk : k₀.Foreign .i2cChar) {s : I2cSys} (h : Inv k₀ s)
    (a : Act Unit Module) : Inv k₀ (step s a) := by
  have hunpinned : ¬ (step s a).Pinned .i2cChar :=
    Sys.unpinned_step (fun c hc => (hk.cdevs c (h.cdevs ▸ hc)).2) h.unpinned a
  have hcase : Sys.StepCase (Solo.drv driver) s a (step s a) := Sys.stepCase _ s a
  generalize step s a = s' at hcase hunpinned ⊢
  cases hcase with
  -- A load returns what `init_cases` says; the other steps leave the tables or are the exit.
  | @loadFailed _ o c hl hr =>
    rcases loading_cases s o with ⟨e, _, heq⟩ | ⟨devNum, _, heq⟩
    · rw [heq]
      exact h
    · rw [heq] at hr
      cases hr
  | @loaded _ o st hl hr =>
    rcases loading_cases s o with ⟨e, _, heq⟩ | ⟨devNum, _, heq⟩
    · rw [heq] at hr
      cases hr
    · rw [heq] at hr
      cases hr
      refine ⟨fun hnone => by simp at hnone, fun st' hst' => ?_, hunpinned⟩
      obtain rfl : statics devNum = st' := by simpa using hst'
      exact ⟨o, devNum, rfl, by rw [heq, h.off hl]⟩
  | @unloaded _ st hl _ =>
    exact ⟨fun _ => h.unloading hk hl, fun st' hst' => by simp at hst', hunpinned⟩
  | opened _ _ | closed => exact ⟨h.off, h.on, hunpinned⟩
  | same => exact h

/-! ### What a load should do -/

/-- The driver's four entries are in place and the number `st.devNum` is
dispatched to `i2c_char_driver_fops`. -/
structure InPlace (k : Kernel Module) (st : I2cStatics) : Prop where
  bus : i2cCharDriver ∈ k.i2cDrivers
  region : ∃ r ∈ k.regions, r.owner = .i2cChar ∧ r.covers st.devNum = true
  cls : st.devClass ∈ k.classes
  node : ∃ n ∈ k.nodes, n.cls = st.devClass ∧ n.dev = st.devNum
  dispatched : k.fopsOf st.devNum = some i2cCharDriverFops

/-- A load that returns 0 has everything in place, and one with a call that
fails returns a negative code and leaves the tables as they were. -/
structure LoadMeets (s : I2cSys) (o : Outcomes Module) : Prop where
  ok : ∀ st, (s.loading (Solo.drv driver) () o).1 = .ok st →
    InPlace (step s (.load () o)).kernel st
  fail : failure o s.kernel ≠ none →
    ∃ c, (s.loading (Solo.drv driver) () o).1 = .error c ∧ c < 0 ∧
      (step s (.load () o)).kernel = s.kernel

theorem Inv.not_inPlace {k₀ : Kernel Module} (hk : k₀.Foreign .i2cChar) {s : I2cSys}
    (h : Inv k₀ s) (st : I2cStatics) : ¬ InPlace s.kernel st := by
  intro hplace
  obtain ⟨c, hc, hops⟩ := Option.map_eq_some_iff.mp hplace.dispatched
  have hmem : c ∈ k₀.cdevs := h.cdevs ▸ Kernel.mem_of_cdevOf hc
  exact (hk.cdevs c hmem).1 (by rw [hops]; rfl)

theorem loadMeets_of_failure {s : I2cSys} (hl : s.live () = none) {o : Outcomes Module}
    (hfail : checkedFailure o s.kernel ≠ none) : LoadMeets s o := by
  rcases loading_cases s o with ⟨e, _, heq⟩ | ⟨_, hnone, _⟩
  · refine ⟨fun st hst => ?_, fun _ => ⟨e.code, by rw [heq], e.code_neg, ?_⟩⟩
    · rw [heq] at hst
      cases hst
    · simp [step, Sys.step, hl, heq]
  · exact absurd hnone hfail

/-- A load in which every call that the init looks at works returns 0, and the
number that it got cannot be opened. -/
theorem Inv.not_loadMeets {k₀ : Kernel Module} (hk : k₀.Foreign .i2cChar) {s : I2cSys}
    (h : Inv k₀ s) {o : Outcomes Module} (hnone : checkedFailure o s.kernel = none) :
    ¬ LoadMeets s o := by
  intro hmeets
  rcases loading_cases s o with ⟨_, hsome, _⟩ | ⟨devNum, _, heq⟩
  · rw [hnone] at hsome
    cases hsome
  · exact (inv_step hk h _).not_inPlace hk _ (hmeets.ok (statics devNum) (by rw [heq]))

/-- An unload that finds the driver loaded removes it and restores the tables
that were there before the load. -/
def UnloadRestores (k₀ : Kernel Module) (s : I2cSys) (a : Act Unit Module) : Prop :=
  a = .unload () → (step s a).live () = none ∧ (step s a).kernel = k₀

theorem Inv.unloadRestores {k₀ : Kernel Module} (hk : k₀.Foreign .i2cChar) {s : I2cSys}
    (h : Inv k₀ s) (a : Act Unit Module) : UnloadRestores k₀ s a := by
  rintro rfl
  have hlive : (step s (.unload ())).live () = none := h.unload_live
  exact ⟨hlive, (inv_step hk h _).off hlive⟩

/-- Along every run of loads and unloads, from any tables of other
registrations, the exits restore the tables. All loads of a run do what they
should if and only if in each of them `i2c_add_driver`, `alloc_chrdev_region` or
`class_create` fails. -/
theorem complete_iff {k₀ : Kernel Module} (hk : k₀.Foreign .i2cChar)
    (acts : List (Act Unit Module)) :
    Run.Along step (UnloadRestores k₀) (Sys.boot k₀) acts ∧
    (Run.Along step (fun s a => (∀ o, a = .load () o → s.live () = none → LoadMeets s o) ∧
        UnloadRestores k₀ s a) (Sys.boot k₀) acts ↔
      Run.Along step (Solo.LoadsWell fun o k => checkedFailure o k ≠ none)
        (Sys.boot k₀) acts) := by
  constructor
  · refine Run.along_of_step (I := Inv k₀) (fun s a h => ?_) (inv_boot k₀) acts
    exact ⟨h.unloadRestores hk a, inv_step hk h a⟩
  · refine Run.along_iff_of_inv (I := Inv k₀) (fun s a h ha => ?_) ?_ (inv_boot k₀) acts
    · refine ⟨⟨?_, h.unloadRestores hk a⟩, inv_step hk h a⟩
      rintro o rfl hl
      exact loadMeets_of_failure hl (ha o rfl hl)
    · rintro s a h ⟨hmeets, -⟩ o rfl hl hnone
      exact h.not_loadMeets hk hnone (hmeets o rfl hl)

/-- `class_create` fails in a load, on a kernel that has a serial driver. -/
theorem complete_of_class_fails :
    let k₀ : Kernel Module := { regions := [⟨.other 0, "ttyS", ⟨4, 64⟩, 32⟩] }
    Run.Along step (fun s a => (∀ o, a = .load () o → s.live () = none → LoadMeets s o) ∧
        UnloadRestores k₀ s a) (Sys.boot k₀)
      [.load () { alloc := fun _ => .ok 240, classCreate := some ENOMEM }, .unload ()] := by
  intro k₀
  have hk : k₀.Foreign .i2cChar := Kernel.foreign_region (by decide)
  refine (complete_iff hk _).2.mpr ⟨?_, nofun, trivial⟩
  rintro o ⟨⟩ _
  decide

/-- Every call works or only `device_create` fails, and the load returns 0: an
open of the number finds nothing, and in the second load there is no node. -/
theorem load_incomplete :
    let works : Outcomes Module := { alloc := fun _ => .ok 240 }
    let noDevice : Outcomes Module := { works with deviceCreate := some ENOMEM }
    (step (Sys.boot {}) (.load () works)).kernel.fopsOf ⟨240, 0⟩ = none ∧
    (step (Sys.boot {}) (.load () noDevice)).kernel.nodes = [] ∧
    ¬ LoadMeets (Sys.boot {}) works ∧ ¬ LoadMeets (Sys.boot {}) noDevice := by
  intro works noDevice
  have h : Inv {} (Sys.boot {}) := inv_boot {}
  exact ⟨by decide, by decide, h.not_loadMeets (Kernel.foreign_empty _) (by decide),
    h.not_loadMeets (Kernel.foreign_empty _) (by decide)⟩

end I2cChar

end DeviceDrivers
