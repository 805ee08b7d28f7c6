import DeviceDrivers.Drivers.Module

/-!
# The ESP32 Wi-Fi driver

`MyWi-fiDriver.c`. The init acquires a device number, a class, a device node and
a cdev, each failure with its own list of calls to undo the ones before.

1. `restoring`: a failed init leaves the tables as they were, the exit takes
   away what a successful one put in.
2. `esp32_tables`: the same along every run, with the error codes.
3. `esp32_files_iff`: the file operations do not set `owner`, so an open file
   does not pin the driver. Its functions are called after it is gone exactly
   when an unload is not kept back by the users.
-/

namespace DeviceDrivers

/-- The static variables `dev_num`, `esp32_class`, `esp32_device` and `cdev`. -/
structure Esp32Statics where
  devNum : Dev
  esp32Class : Class Module
  esp32Device : Node Module
  cdev : Cdev Module
deriving DecidableEq, Repr

namespace Esp32

/-! ## Source -/

def driverName : String := "esp32_wifi"

def esp32Fops : FileOperations Module := { driver := .esp32, ops := [.open, .release] }

def esp32Init : KProg Module (Except Int Esp32Statics) := do
  match ← allocChrdevRegion .esp32 0 1 driverName with
  | .error ret => return .error ret.code
  | .ok devNum =>
  match ← classCreate .esp32 driverName with
  | .error err =>
    unregisterChrdevRegion devNum 1
    return .error err.code
  | .ok esp32Class =>
  -- The node is there from here on, the cdev only after `cdev_add`.
  match ← deviceCreate esp32Class devNum driverName with
  | .error err =>
    classDestroy esp32Class
    unregisterChrdevRegion devNum 1
    return .error err.code
  | .ok esp32Device =>
  match ← cdevAdd (cdevInit esp32Fops) devNum 1 with
  | .error ret =>
    deviceDestroy esp32Class devNum
    classDestroy esp32Class
    unregisterChrdevRegion devNum 1
    return .error ret.code
  | .ok cdev => return .ok ⟨devNum, esp32Class, esp32Device, cdev⟩

def esp32Exit (st : Esp32Statics) : KProg Module Unit := do
  cdevDel st.cdev
  deviceDestroy st.esp32Class st.devNum
  classDestroy st.esp32Class
  unregisterChrdevRegion st.devNum 1

def driver : Driver Module Esp32Statics := ⟨.esp32, esp32Init, esp32Exit⟩

/-! ## What init and exit do -/

def esp32Class : Class Module := ⟨.esp32, driverName⟩

/-- The static variables of the loaded driver. -/
def statics (devNum : Dev) : Esp32Statics :=
  ⟨devNum, esp32Class, ⟨esp32Class, devNum, driverName⟩, ⟨none, esp32Fops, devNum, 1⟩⟩

/-- The tables with the entries of the loaded driver on top. -/
def installed (st : Esp32Statics) : Kernel Module → Kernel Module :=
  Kernel.put ⟨.esp32, driverName, st.devNum, 1⟩ st.cdev st.esp32Class st.esp32Device

theorem installed_registered (devNum : Dev) (k : Kernel Module) {loaded : Prop} (hl : loaded) :
    (installed (statics devNum) k).RegisteredIff .esp32 loaded := by
  show (Kernel.put _ _ _ _ k).RegisteredIff .esp32 loaded
  refine Kernel.registeredIff_put ?_ ?_ ?_ ?_ k hl <;> rfl

/-- The error of the call of the init that fails, in the order of its calls. -/
def failure (o : Outcomes Module) (k : Kernel Module) : Option Errno :=
  match (k.allocRegion o .esp32 0 1 driverName).1 with
  | .error e => some e
  | .ok _ => o.classCreate <|> o.deviceCreate <|> o.cdevAdd

/-- An init returns the error of the call that failed and leaves the tables, or
loads the driver. -/
theorem esp32Init_cases (o : Outcomes Module) (k : Kernel Module) :
    (∃ e, failure o k = some e ∧ esp32Init.exec (kcall o) k = (.error e.code, k)) ∨
    (∃ devNum, failure o k = none ∧
      esp32Init.exec (kcall o) k = (.ok (statics devNum), installed (statics devNum) k)) := by
  unfold failure
  rcases k.allocRegion_cases o .esp32 0 1 driverName with ⟨e, halloc⟩ | ⟨major, _, _, halloc⟩
  · exact .inl ⟨e, by simp [halloc], by simp [esp32Init, halloc]⟩
  cases hclass : o.classCreate with
  | some e => exact .inl ⟨e, by simp [halloc], by simp [esp32Init, halloc, hclass]⟩
  | none =>
    cases hdevice : o.deviceCreate with
    | some e => exact .inl ⟨e, by simp [halloc], by simp [esp32Init, halloc, hclass, hdevice]⟩
    | none =>
      cases hcdev : o.cdevAdd with
      | some e =>
        exact .inl ⟨e, by simp [halloc], by simp [esp32Init, halloc, hclass, hdevice, hcdev]⟩
      | none =>
        refine .inr ⟨⟨major, 0⟩, by simp [halloc], ?_⟩
        simp [esp32Init, halloc, hclass, hdevice, hcdev, cdevInit, statics, installed,
          Kernel.put, esp32Class]

theorem restoring : Restoring driver (fun st => ∃ devNum, st = statics devNum) installed
    (fun _ _ => True) where
  fail o k c _ hc := by
    rcases esp32Init_cases o k with ⟨_, _, h⟩ | ⟨_, _, h⟩
    · exact congrArg Prod.snd h
    · simp [driver, h] at hc
  ok o k st _ hst := by
    rcases esp32Init_cases o k with ⟨_, _, h⟩ | ⟨devNum, _, h⟩
    · simp [driver, h] at hst
    · obtain rfl : statics devNum = st := by simpa [driver, h] using hst
      exact ⟨⟨devNum, rfl⟩, congrArg Prod.snd h⟩
  exit st k := by
    rintro ⟨devNum, rfl⟩
    simp [driver, esp32Exit, installed, Kernel.put, statics]

/-! ## Runs -/

/-- The machine with this driver. -/
abbrev Esp32Sys : Type := Sys Unit Module Esp32Statics

abbrev step : Esp32Sys → Act Unit Module → Esp32Sys := Sys.step (Solo.drv driver)

/-- The invariant: the tables are `k₀` with or without the driver's entries, and
no open file pins the driver. -/
structure Inv (k₀ : Kernel Module) (s : Esp32Sys) : Prop where
  tabled : Solo.Tabled (fun st => ∃ devNum, st = statics devNum) installed k₀ s
  unpinned : ¬ s.Pinned .esp32

theorem inv_boot (k₀ : Kernel Module) : Inv k₀ (Sys.boot k₀) where
  tabled := Solo.tabled_boot
  unpinned := by simp [Sys.Pinned, Sys.boot]

section

variable {k₀ : Kernel Module} (hk : k₀.Foreign .esp32) {s : Esp32Sys}

include hk

/-- No cdev pins the driver, and one that serves its functions is there because
it is loaded. -/
theorem Inv.of_cdev (h : Inv k₀ s) {c : Cdev Module} (hc : c ∈ s.kernel.cdevs) :
    .esp32 ∉ c.pins ∧ (c.ops.driver = .esp32 → (s.live ()).isSome) := by
  cases hl : s.live () with
  | none =>
    rw [h.tabled.off hl] at hc
    exact ⟨(hk.cdevs c hc).2, fun hdrv => absurd hdrv (hk.cdevs c hc).1⟩
  | some st =>
    refine ⟨?_, fun _ => rfl⟩
    obtain ⟨⟨devNum, rfl⟩, hs⟩ := h.tabled.on st hl
    rw [hs] at hc
    rcases List.mem_cons.mp hc with rfl | hc
    · simp [statics, Cdev.pins, esp32Fops]
    · exact (hk.cdevs c hc).2

theorem inv_step (h : Inv k₀ s) (a : Act Unit Module) : Inv k₀ (step s a) where
  tabled := Solo.tabled_step restoring h.tabled fun _ _ _ => trivial
  unpinned := Sys.unpinned_step (fun _ hc => (h.of_cdev hk hc).1) h.unpinned a

end

/-! ### The tables -/

/-- A load returns the error of the call that failed and leaves the tables as
they were, or returns 0 and puts one entry into each of the four tables. -/
def LoadExact (s : Esp32Sys) (o : Outcomes Module) : Prop :=
  match (s.loading (Solo.drv driver) () o).1 with
  | .error c => ∃ e, failure o s.kernel = some e ∧ c = e.code ∧
      (step s (.load () o)).kernel = s.kernel
  | .ok st => failure o s.kernel = none ∧ (step s (.load () o)).kernel = installed st s.kernel

/-- An unload takes these four entries away. -/
def UnloadExact (s : Esp32Sys) (st : Esp32Statics) : Prop :=
  s.kernel = installed st (step s (.unload ())).kernel

theorem loadExact {s : Esp32Sys} (hl : s.live () = none) (o : Outcomes Module) : LoadExact s o := by
  unfold LoadExact
  rcases esp32Init_cases o s.kernel with ⟨e, hfail, h⟩ | ⟨devNum, hfail, h⟩
  · have hload : s.loading (Solo.drv driver) () o = (.error e.code, s.kernel) := h
    rw [hload]
    exact ⟨e, hfail, rfl, by simp [step, Sys.step, hl, hload]⟩
  · have hload : s.loading (Solo.drv driver) () o =
        (.ok (statics devNum), installed (statics devNum) s.kernel) := h
    rw [hload]
    exact ⟨hfail, by simp [step, Sys.step, hl, hload]⟩

theorem Inv.unloadExact {k₀ : Kernel Module} {s : Esp32Sys} (h : Inv k₀ s) {st : Esp32Statics}
    (hl : s.live () = some st) : UnloadExact s st := by
  obtain ⟨hst, hs⟩ := h.tabled.on st hl
  have hstep : (step s (.unload ())).kernel = s.unloading (Solo.drv driver) () st := by
    have hpin : ¬ s.Pinned (Solo.drv driver ()).name := h.unpinned
    simp [step, Sys.step, hl, hpin]
  show s.kernel = installed st (step s (.unload ())).kernel
  rw [hstep, Sys.unloading, hs]
  exact congrArg (installed st) (restoring.exit st k₀ hst).symm

/-- The tables along every run of loads and unloads, whatever else the users do:
a failed init returns the error of the call that failed and changes nothing, a
successful one adds its four entries, the exit removes them, and so the four
tables hold an entry of the driver exactly when it is loaded. -/
theorem esp32_tables {k₀ : Kernel Module} (hk : k₀.Foreign .esp32) (acts : List (Act Unit Module)) :
    Run.Along step (fun s a =>
      (∀ o, a = .load () o → s.live () = none → LoadExact s o) ∧
      (∀ st, a = .unload () → s.live () = some st → UnloadExact s st) ∧
      (step s a).kernel.RegisteredIff .esp32 ((step s a).live ()).isSome) (Sys.boot k₀) acts := by
  refine Run.along_of_step (I := Inv k₀) (fun s a h => ?_) (inv_boot k₀) acts
  have hnext := inv_step hk h a
  refine ⟨⟨fun o _ hl => loadExact hl o, fun st _ hl => h.unloadExact hl, ?_⟩, hnext⟩
  cases hl : (step s a).live () with
  | none =>
    rw [hnext.tabled.off hl]
    exact hk.registeredIff (by simp)
  | some st =>
    obtain ⟨⟨devNum, rfl⟩, hs⟩ := hnext.tabled.on st hl
    rw [hs]
    exact installed_registered devNum k₀ rfl

/-- A load whose last call fails, a load that works, and an unload. -/
theorem esp32_tables_run :
    Run.Along step (fun s a =>
      (∀ o, a = .load () o → s.live () = none → LoadExact s o) ∧
      (∀ st, a = .unload () → s.live () = some st → UnloadExact s st) ∧
      (step s a).kernel.RegisteredIff .esp32 ((step s a).live ()).isSome)
      (Sys.boot { regions := [⟨.other 0, "ttyS", ⟨4, 64⟩, 32⟩] })
      [.load () { alloc := fun _ => .ok 240, cdevAdd := some ENOMEM },
        .load () { alloc := fun _ => .ok 240 }, .unload ()] :=
  esp32_tables (Kernel.foreign_region (by decide)) _

/-! ### Open files -/

/-- No file opened through `esp32_fops` is open. -/
def NoFiles (s : Esp32Sys) : Prop := ∀ f ∈ s.files, f.fops.driver ≠ .esp32

/-- The users do not unload the driver while they have one of its files open. -/
def UnloadWaits (s : Esp32Sys) (a : Act Unit Module) : Prop :=
  a = .unload () → (s.live ()).isSome → NoFiles s

/-- No file of the driver is open once it is gone. -/
def NoStaleFiles (s : Esp32Sys) : Prop := s.live () = none → NoFiles s

section

variable {k₀ : Kernel Module} (hk : k₀.Foreign .esp32) {s : Esp32Sys}

include hk

theorem Inv.called (h : Inv k₀ s) (hf : NoStaleFiles s) (a : Act Unit Module) :
    Solo.CalledWhenLoaded driver s a := by
  intro hd hdisp hdrv
  rcases Sys.dispatch_cases hdisp with ⟨_, d, c, _, hc, hown⟩ | ⟨id, _, f, _, hfile, hown⟩
  · exact (h.of_cdev hk (Kernel.mem_of_cdevOf hc)).2 (hown.trans hdrv)
  · by_contra hnone
    exact hf (by simpa using hnone) f (Sys.mem_of_file hfile) (hown.trans hdrv)

theorem noStaleFiles_step (h : Inv k₀ s) (hf : NoStaleFiles s) {a : Act Unit Module}
    (ha : UnloadWaits s a) : NoStaleFiles (step s a) := by
  have hcase : Sys.StepCase (Solo.drv driver) s a (step s a) := Sys.stepCase _ s a
  generalize step s a = s' at hcase ⊢
  cases hcase with
  | loadFailed _ _ | same => exact hf
  | loaded _ _ => exact fun hnone => by simp at hnone
  | unloaded hl _ => exact fun _ => ha rfl (by rw [hl]; rfl)
  | opened _ hc =>
    intro hnone f hmem
    rcases List.mem_cons.mp hmem with rfl | hmem
    · intro hdrv
      have := (h.of_cdev hk (Kernel.mem_of_cdevOf hc)).2 hdrv
      rw [show s.live () = none from hnone] at this
      cases this
    · exact hf hnone f hmem
  | closed => exact fun hnone f hmem => hf hnone f (List.mem_of_mem_filter hmem)

end

/-- Along a run of loads, unloads, opens and closes, the driver's functions are
called only while it is loaded and no file of it outlives it, if and only if no
unload is made while such a file is open. -/
theorem esp32_files_iff {k₀ : Kernel Module} (hk : k₀.Foreign .esp32)
    (acts : List (Act Unit Module)) :
    Run.Along step (fun s a => Solo.CalledWhenLoaded driver s a ∧ NoStaleFiles (step s a))
        (Sys.boot k₀) acts ↔
      Run.Along step UnloadWaits (Sys.boot k₀) acts := by
  refine Run.along_iff_of_inv (I := fun s => Inv k₀ s ∧ NoStaleFiles s) ?_ ?_
    ⟨inv_boot k₀, fun _ f hf => by cases hf⟩ acts
  · rintro s a ⟨h, hf⟩ ha
    have hfiles := noStaleFiles_step hk h hf ha
    exact ⟨⟨h.called hk hf a, hfiles⟩, inv_step hk h a, hfiles⟩
  · rintro s a ⟨h, -⟩ ⟨-, hstale⟩ rfl hl
    obtain ⟨st, hst⟩ := Option.isSome_iff_exists.mp hl
    have hpin : ¬ s.Pinned (Solo.drv driver ()).name := h.unpinned
    have hstep : step s (.unload ()) =
        ⟨s.unloading (Solo.drv driver) () st, Function.update s.live () none, s.files⟩ := by
      simp [step, Sys.step, hst, hpin]
    rw [hstep] at hstale
    exact hstale (by simp)

/-- The file is closed before the unload. -/
theorem files_of_close_first :
    Run.Along step (fun s a => Solo.CalledWhenLoaded driver s a ∧ NoStaleFiles (step s a))
      (Sys.boot {})
      [.load () { alloc := fun _ => .ok 240 }, .open 3 ⟨240, 0⟩, .close 3, .unload ()] :=
  (esp32_files_iff (Kernel.foreign_empty Module.esp32) _).mpr
    ⟨nofun, nofun, nofun, fun _ _ => List.forall_mem_nil _, trivial⟩

/-- The driver is unloaded while a file of it is open, and then the close calls
`esp32_release`. -/
theorem release_after_unload :
    let s := Run.run step (Sys.boot {})
      [.load () { alloc := fun _ => .ok 240 }, .open 3 ⟨240, 0⟩, .unload ()]
    s.live () = none ∧ s.dispatch (.close 3) = some ⟨.esp32, .release⟩ ∧
    ¬ Solo.CalledWhenLoaded driver s (.close 3) := by
  refine ⟨by decide, by decide, fun h => ?_⟩
  have hlive := h ⟨.esp32, .release⟩ (by decide) rfl
  revert hlive
  decide

end Esp32

end DeviceDrivers
