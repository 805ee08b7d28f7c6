import DeviceDrivers.Drivers.Module

/-!
# The ioctl driver: registration

`Ioctl_kernel_device_driver.c`. The init acquires a device number, a cdev, a
class and a device node, and unwinds over the labels `r_device` and `r_class`.

1. `etxDriverInit_cases`: what the init can do. When `class_create` or
   `device_create` fails, the cdev stays registered.
2. `registered_iff_no_leak`: the tables hold the driver's entries exactly when
   it is loaded, along every run in which no load ends in that case, and only
   along those.
-/

namespace DeviceDrivers

/-- The static variables `dev`, `dev_class` and `etx_cdev`. -/
structure EtxStatics where
  dev : Dev
  devClass : Class Module
  etxCdev : Cdev Module
deriving DecidableEq, Repr

namespace Ioctl

/-! ## Source -/

def fops : FileOperations Module :=
  { driver := .etx, owner := some .etx, ops := [.read, .write, .open, .unlockedIoctl, .release] }

/-- The label `r_class`. -/
def rClass (dev : Dev) : KProg Module (Except Int EtxStatics) := do
  -- No `cdev_del`, also when the jump comes from behind `cdev_add`.
  unregisterChrdevRegion dev 1
  return .error (-1)

/-- The label `r_device`. -/
def rDevice (devClass : Class Module) (dev : Dev) : KProg Module (Except Int EtxStatics) := do
  classDestroy devClass
  rClass dev

def etxDriverInit : KProg Module (Except Int EtxStatics) := do
  match ← allocChrdevRegion .etx 0 1 "etx_Dev" with
  | .error _ => return .error (-1)
  | .ok dev =>
  match ← cdevAdd (cdevInit fops) dev 1 with
  | .error _ => rClass dev
  | .ok etxCdev =>
  match ← classCreate .etx "etx_class" with
  | .error _ => rClass dev
  | .ok devClass =>
  match ← deviceCreate devClass dev "etx_device" with
  | .error _ => rDevice devClass dev
  | .ok _ => return .ok ⟨dev, devClass, etxCdev⟩

def etxDriverExit (st : EtxStatics) : KProg Module Unit := do
  deviceDestroy st.devClass st.dev
  classDestroy st.devClass
  cdevDel st.etxCdev
  unregisterChrdevRegion st.dev 1

def driver : Driver Module EtxStatics := ⟨.etx, etxDriverInit, etxDriverExit⟩

/-! ## What init and exit do -/

/-- `etx_cdev` as `cdev_add` registers it. -/
def etxCdev (dev : Dev) : Cdev Module := ⟨none, fops, dev, 1⟩

/-- The static variables of the loaded driver. -/
def statics (dev : Dev) : EtxStatics := ⟨dev, ⟨.etx, "etx_class"⟩, etxCdev dev⟩

/-- The tables with the entries of the loaded driver on top. -/
def installed (st : EtxStatics) : Kernel Module → Kernel Module :=
  Kernel.put ⟨.etx, "etx_Dev", st.dev, 1⟩ st.etxCdev st.devClass ⟨st.devClass, st.dev, "etx_device"⟩

theorem installed_registered (dev : Dev) (k : Kernel Module) {loaded : Prop} (hl : loaded) :
    (installed (statics dev) k).RegisteredIff .etx loaded := by
  show (Kernel.put _ _ _ _ k).RegisteredIff .etx loaded
  refine Kernel.registeredIff_put ?_ ?_ ?_ ?_ k hl <;> rfl

/-- The load gets a number and a cdev, and then the class or the device fails. -/
def Leaks (o : Outcomes Module) (k : Kernel Module) : Prop :=
  (∃ dev, (k.allocRegion o .etx 0 1 "etx_Dev").1 = .ok dev) ∧ o.cdevAdd = none ∧
    (o.classCreate ≠ none ∨ o.deviceCreate ≠ none)

/-- An init ends in one of three ways: the tables are as before, the cdev is
left behind, or the driver is loaded. -/
theorem etxDriverInit_cases (o : Outcomes Module) (k : Kernel Module) :
    (¬ Leaks o k ∧ etxDriverInit.exec (kcall o) k = (.error (-1), k)) ∨
    (∃ dev, Leaks o k ∧
      etxDriverInit.exec (kcall o) k =
        (.error (-1), { k with cdevs := etxCdev dev :: k.cdevs })) ∨
    (∃ dev, ¬ Leaks o k ∧
      etxDriverInit.exec (kcall o) k = (.ok (statics dev), installed (statics dev) k)) := by
  unfold Leaks
  rcases k.allocRegion_cases o .etx 0 1 "etx_Dev" with ⟨e, halloc⟩ | ⟨major, _, _, halloc⟩
  · exact .inl ⟨by simp [halloc], by simp [etxDriverInit, halloc]⟩
  cases hcdev : o.cdevAdd with
  | some e =>
    exact .inl ⟨by simp, by simp [etxDriverInit, rClass, halloc, hcdev]⟩
  | none =>
    cases hclass : o.classCreate with
    | some e =>
      refine .inr (.inl ⟨⟨major, 0⟩, ⟨⟨_, by rw [halloc]⟩, rfl, .inl (by simp)⟩, ?_⟩)
      simp [etxDriverInit, rClass, halloc, hcdev, hclass, etxCdev, cdevInit]
    | none =>
      cases hdevice : o.deviceCreate with
      | some e =>
        refine .inr (.inl ⟨⟨major, 0⟩, ⟨⟨_, by rw [halloc]⟩, rfl, .inr (by simp)⟩, ?_⟩)
        simp [etxDriverInit, rClass, rDevice, halloc, hcdev, hclass, hdevice, etxCdev, cdevInit]
      | none =>
        refine .inr (.inr ⟨⟨major, 0⟩, by simp, ?_⟩)
        simp [etxDriverInit, halloc, hcdev, hclass, hdevice, etxCdev, cdevInit, statics, installed,
          Kernel.put]

theorem restoring :
    Restoring driver (fun st => ∃ dev, st = statics dev) installed (fun o k => ¬ Leaks o k) where
  fail o k c hG hc := by
    rcases etxDriverInit_cases o k with ⟨_, h⟩ | ⟨_, hleak, _⟩ | ⟨_, _, h⟩
    · exact congrArg Prod.snd h
    · exact absurd hleak hG
    · simp [driver, h] at hc
  ok o k st hG hst := by
    rcases etxDriverInit_cases o k with ⟨_, h⟩ | ⟨_, hleak, _⟩ | ⟨dev, _, h⟩
    · simp [driver, h] at hst
    · exact absurd hleak hG
    · obtain rfl : statics dev = st := by simpa [driver, h] using hst
      exact ⟨⟨dev, rfl⟩, congrArg Prod.snd h⟩
  exit st k := by
    rintro ⟨dev, rfl⟩
    simp [driver, etxDriverExit, installed, Kernel.put, statics, etxCdev]

/-! ## Runs -/

/-- The machine with this driver. -/
abbrev EtxSys : Type := Sys Unit Module EtxStatics

abbrev step : EtxSys → Act Unit Module → EtxSys := Sys.step (Solo.drv driver)

/-- The tables hold the driver's region, cdev, class and device node exactly
when it is loaded. -/
def RegisteredIffLoaded (s : EtxSys) : Prop := s.kernel.RegisteredIff .etx (s.live ()).isSome

/-- A load whose init fails leaves the tables as they were. -/
def FailedInitRestores (s : EtxSys) (a : Act Unit Module) : Prop :=
  ∀ o c, a = .load () o → (s.loading (Solo.drv driver) () o).1 = .error c →
    (step s a).kernel = s.kernel

/-- The invariant: the tables are `k₀` with or without the driver's entries, and
every file of the driver pins it. -/
structure Inv (k₀ : Kernel Module) (s : EtxSys) : Prop where
  tabled : Solo.Tabled (fun st => ∃ dev, st = statics dev) installed k₀ s
  pins : s.PinsLive (Solo.drv driver)
  files : ∀ f ∈ s.files, f.fops.driver = .etx → .etx ∈ f.pins

theorem inv_boot (k₀ : Kernel Module) : Inv k₀ (Sys.boot k₀) where
  tabled := Solo.tabled_boot
  pins := by simp [Sys.PinsLive, Sys.Pinned, Sys.boot]
  files := by simp [Sys.boot]

section

variable {k₀ : Kernel Module} (hk : k₀.Foreign .etx) {s : EtxSys}

include hk

theorem Inv.registered (h : Inv k₀ s) : RegisteredIffLoaded s := by
  show s.kernel.RegisteredIff .etx (s.live ()).isSome
  cases hl : s.live () with
  | none =>
    rw [h.tabled.off hl]
    exact hk.registeredIff (by simp)
  | some st =>
    obtain ⟨⟨dev, rfl⟩, hs⟩ := h.tabled.on st hl
    rw [hs]
    exact installed_registered dev k₀ rfl

/-- A cdev of the driver, or one that names it, is there because it is loaded,
and an open through it pins the driver. -/
theorem Inv.of_cdev (h : Inv k₀ s) {c : Cdev Module} (hc : c ∈ s.kernel.cdevs)
    (hown : c.ops.driver = .etx ∨ .etx ∈ c.pins) : (s.live ()).isSome ∧ .etx ∈ c.pins := by
  have hforeign : c ∉ k₀.cdevs := by
    intro hc₀
    rcases hown with hdrv | hpin
    · exact (hk.cdevs c hc₀).1 hdrv
    · exact (hk.cdevs c hc₀).2 hpin
  cases hl : s.live () with
  | none =>
    rw [h.tabled.off hl] at hc
    exact absurd hc hforeign
  | some st =>
    obtain ⟨⟨dev, rfl⟩, hs⟩ := h.tabled.on st hl
    rw [hs] at hc
    rcases List.mem_cons.mp hc with rfl | hc
    · exact ⟨rfl, by simp [statics, etxCdev, Cdev.pins, fops]⟩
    · exact absurd hc hforeign

theorem Inv.called (h : Inv k₀ s) (a : Act Unit Module) : Solo.CalledWhenLoaded driver s a := by
  intro hd hdisp hdrv
  rcases Sys.dispatch_cases hdisp with ⟨_, d, c, _, hc, hown⟩ | ⟨id, _, f, _, hf, hown⟩
  · exact (h.of_cdev hk (Kernel.mem_of_cdevOf hc) (.inl (hown.trans hdrv))).1
  · have hmem := Sys.mem_of_file hf
    exact h.pins () ⟨f, hmem, h.files f hmem (hown.trans hdrv)⟩

theorem inv_step (h : Inv k₀ s) {a : Act Unit Module}
    (ha : Solo.LoadsWell (fun o k => ¬ Leaks o k) s a) : Inv k₀ (step s a) where
  tabled := Solo.tabled_step restoring h.tabled ha
  pins := Sys.pinsLive_step (fun _ c hc hpin => (h.of_cdev hk hc (.inr hpin)).1) h.pins a
  files := by
    have hcase : Sys.StepCase (Solo.drv driver) s a (step s a) := Sys.stepCase _ s a
    generalize step s a = s' at hcase ⊢
    cases hcase with
    | loadFailed _ _ | loaded _ _ | unloaded _ _ | same => exact h.files
    | opened _ hc =>
      intro f hf hdrv
      rcases List.mem_cons.mp hf with rfl | hf
      · exact (h.of_cdev hk (Kernel.mem_of_cdevOf hc) (.inl hdrv)).2
      · exact h.files f hf hdrv
    | closed => exact fun f hf => h.files f (List.mem_of_mem_filter hf)

end

theorem failedInitRestores {s : EtxSys} {a : Act Unit Module}
    (ha : Solo.LoadsWell (fun o k => ¬ Leaks o k) s a) : FailedInitRestores s a := by
  rintro o c rfl hc
  cases hl : s.live () with
  | some st => simp [step, Sys.step, hl]
  | none =>
    have hk : (s.loading (Solo.drv driver) () o).2 = s.kernel :=
      restoring.fail o _ c (ha o rfl hl) hc
    simp [step, Sys.step, hl, hc, hk]

/-- A load that leaks leaves a cdev of the driver without the driver. -/
theorem not_registered_of_leak {s : EtxSys} {o : Outcomes Module} (hl : s.live () = none)
    (hleak : Leaks o s.kernel) : ¬ RegisteredIffLoaded (step s (.load () o)) := by
  rcases etxDriverInit_cases o s.kernel with ⟨hno, _⟩ | ⟨dev, _, h⟩ | ⟨_, hno, _⟩
  · exact absurd hleak hno
  · have hload : s.loading (Solo.drv driver) () o =
        (.error (-1), { s.kernel with cdevs := etxCdev dev :: s.kernel.cdevs }) := h
    intro hreg
    have hcdev := hreg.cdev
    simp [step, Sys.step, hl, hload, etxCdev, fops] at hcdev
  · exact absurd hleak hno

/-- Along a run of loads, unloads, opens, ioctls and closes, from any tables of
other registrations, the tables hold the driver's four entries exactly when it
is loaded, a failed init leaves them as they were, and no open reaches the
driver while it is not loaded, if and only if no load leaks. -/
theorem registered_iff_no_leak {k₀ : Kernel Module} (hk : k₀.Foreign .etx)
    (acts : List (Act Unit Module)) :
    Run.Along step (fun s a => RegisteredIffLoaded (step s a) ∧ FailedInitRestores s a ∧
        Solo.CalledWhenLoaded driver s a) (Sys.boot k₀) acts ↔
      Run.Along step (Solo.LoadsWell fun o k => ¬ Leaks o k) (Sys.boot k₀) acts := by
  refine Run.along_iff_of_inv (I := Inv k₀) (fun s a h ha => ?_) ?_ (inv_boot k₀) acts
  · have hnext := inv_step hk h ha
    exact ⟨⟨hnext.registered hk, failedInitRestores ha, h.called hk a⟩, hnext⟩
  · rintro s a - ⟨hreg, -, -⟩ o rfl hl hleak
    exact not_registered_of_leak hl hleak hreg

/-- A load in which every call works, on a kernel that has a serial driver. -/
theorem registered_of_load :
    Run.Along step (fun s a => RegisteredIffLoaded (step s a) ∧ FailedInitRestores s a ∧
        Solo.CalledWhenLoaded driver s a)
      (Sys.boot { regions := [⟨.other 0, "ttyS", ⟨4, 64⟩, 32⟩] })
      [.load () { alloc := fun _ => .ok 240 }, .open 3 ⟨240, 0⟩, .unload (), .close 3] :=
  (registered_iff_no_leak (Kernel.foreign_region (by decide)) _).mpr
    (by
      refine ⟨?_, nofun, nofun, nofun, trivial⟩
      rintro o ⟨⟩ _ ⟨_, _, hclass | hdevice⟩
      · exact hclass rfl
      · exact hdevice rfl)

/-- `class_create` runs out of memory. -/
def classFails : Outcomes Module := { alloc := fun _ => .ok 240, classCreate := some ENOMEM }

/-- After such a load the driver is gone and an open of its number calls
`etx_open`. -/
theorem open_after_failed_load :
    let s := Run.run step (Sys.boot {}) [.load () classFails]
    s.live () = none ∧ s.dispatch (.open 3 ⟨240, 0⟩) = some ⟨.etx, .open⟩ ∧
    ¬ Run.Along step (fun s a => RegisteredIffLoaded (step s a) ∧ FailedInitRestores s a ∧
        Solo.CalledWhenLoaded driver s a) (Sys.boot {}) [.load () classFails] := by
  refine ⟨by decide, by decide, fun h => ?_⟩
  have hleak : Leaks classFails ({} : Kernel Module) := ⟨⟨⟨240, 0⟩, rfl⟩, rfl, .inl (by decide)⟩
  exact not_registered_of_leak rfl hleak h.1.1

end Ioctl

end DeviceDrivers
