import DeviceDrivers.Drivers.Module
import DeviceDrivers.Lib.FirstMatch

/-!
# The drivers with a fixed major: CAN, Wi-Fi and Bluetooth

`MyCanDriver.c`, `Wi-fi_device_driver.c` and `MyBlutooth_Device_Driver.c` differ
in their names and numbers only. Each registers the one device number
`(major, 0)` and a cdev for it.

1. `driver_init_cases`: what an init can do.
2. `inv_step`: the two tables, the open files and the loaded drivers stay in step.
3. `fixed_drivers_isolated`: the three drivers in one kernel do not disturb each
   other, whoever else is registered.
-/

namespace DeviceDrivers

/-- The static variables `dev` and `cdev`. -/
structure FixedStatics where
  dev : Dev
  cdev : Cdev Module
deriving DecidableEq, Repr

namespace FixedMajor

/-! ## The common source -/

/-- The `struct file_operations` of the driver `m`. -/
def fixedFops (m : Module) : FileOperations Module :=
  { driver := m, owner := some m, ops := [.open, .release, .read, .write] }

/-- `can_init`, `wifi_init` and `bluetooth_init`. -/
def fixedInit (m : Module) (majorNum minorNum numMinors : Nat) (devName : String)
    (fops : FileOperations Module) : KProg Module (Except Int FixedStatics) := do
  let dev : Dev := ⟨majorNum, minorNum⟩
  match ← registerChrdevRegion m dev numMinors devName with
  | .error ret => return .error ret.code
  | .ok () =>
  let cdev : Cdev Module := { cdevInit fops with owner := some m }
  match ← cdevAdd cdev dev numMinors with
  | .error ret =>
    unregisterChrdevRegion dev numMinors
    return .error ret.code
  | .ok cdev => return .ok ⟨dev, cdev⟩

/-- `can_exit`, `wifi_exit` and `bluetooth_exit`. -/
def fixedExit (numMinors : Nat) (st : FixedStatics) : KProg Module Unit := do
  cdevDel st.cdev
  unregisterChrdevRegion st.dev numMinors

/-! ## The three drivers -/

def canFops : FileOperations Module := fixedFops .can
def canInit : KProg Module (Except Int FixedStatics) :=
  fixedInit .can 250 0 1 "mycandevice" canFops
def canExit : FixedStatics → KProg Module Unit := fixedExit 1

def wifiFops : FileOperations Module := fixedFops .wifi
def wifiInit : KProg Module (Except Int FixedStatics) :=
  fixedInit .wifi 251 0 1 "mywifidevice" wifiFops
def wifiExit : FixedStatics → KProg Module Unit := fixedExit 1

def bluetoothFops : FileOperations Module := fixedFops .bluetooth
def bluetoothInit : KProg Module (Except Int FixedStatics) :=
  fixedInit .bluetooth 252 0 1 "mybluetoothdevice" bluetoothFops
def bluetoothExit : FixedStatics → KProg Module Unit := fixedExit 1

/-- The drivers with a fixed major. -/
inductive Fixed
  | can
  | wifi
  | bluetooth
deriving DecidableEq, Repr

namespace Fixed

def name : Fixed → Module
  | can => .can
  | wifi => .wifi
  | bluetooth => .bluetooth

def majorNum : Fixed → Nat
  | can => 250
  | wifi => 251
  | bluetooth => 252

def devName : Fixed → String
  | can => "mycandevice"
  | wifi => "mywifidevice"
  | bluetooth => "mybluetoothdevice"

def fops : Fixed → FileOperations Module
  | can => canFops
  | wifi => wifiFops
  | bluetooth => bluetoothFops

def driver : Fixed → Driver Module FixedStatics
  | can => ⟨.can, canInit, canExit⟩
  | wifi => ⟨.wifi, wifiInit, wifiExit⟩
  | bluetooth => ⟨.bluetooth, bluetoothInit, bluetoothExit⟩

/-- The driver's device number. -/
def dev (i : Fixed) : Dev := ⟨i.majorNum, 0⟩

/-- The driver's region. -/
def region (i : Fixed) : Region Module := ⟨i.name, i.devName, i.dev, 1⟩

/-- The driver's cdev, as `cdev_add` registers it. -/
def cdev (i : Fixed) : Cdev Module := ⟨some i.name, i.fops, i.dev, 1⟩

@[simp] theorem driver_name (i : Fixed) : i.driver.name = i.name := by cases i <;> rfl

theorem driver_init (i : Fixed) :
    i.driver.init = fixedInit i.name i.majorNum 0 1 i.devName i.fops := by cases i <;> rfl

theorem driver_exit (i : Fixed) : i.driver.exit = fixedExit 1 := by cases i <;> rfl

theorem name_inj {i j : Fixed} (h : i.name = j.name) : i = j := by
  cases i <;> cases j <;> first | rfl | cases h

theorem majorNum_inj {i j : Fixed} (h : i.majorNum = j.majorNum) : i = j := by
  revert h
  cases i <;> cases j <;> decide

@[simp] theorem fops_driver (i : Fixed) : i.fops.driver = i.name := by cases i <;> rfl

@[simp] theorem fops_owner (i : Fixed) : i.fops.owner = some i.name := by cases i <;> rfl

@[simp] theorem cdev_pins (i : Fixed) : i.cdev.pins = [i.name, i.name] := by cases i <;> rfl

end Fixed

/-! ## What init and exit do -/

/-- An init ends in one of three ways: the number is not to be had, `cdev_add`
fails, or the driver is loaded. -/
theorem driver_init_cases (i : Fixed) (o : Outcomes Module) (k : Kernel Module) :
    (∃ e : Errno, (o.register = some e ∨ k.regions.any i.region.overlaps = true) ∧
      i.driver.init.exec (kcall o) k = (.error e.code, k)) ∨
    (∃ e : Errno, o.cdevAdd = some e ∧ i.driver.init.exec (kcall o) k = (.error e.code, k)) ∨
    (o.register = none ∧ k.regions.any i.region.overlaps = false ∧ o.cdevAdd = none ∧
      i.driver.init.exec (kcall o) k =
        (.ok ⟨i.dev, i.cdev⟩,
          { k with regions := i.region :: k.regions, cdevs := i.cdev :: k.cdevs })) := by
  rw [Fixed.driver_init]
  rcases k.registerRegion_cases o i.region with ⟨e, hfail, hreg⟩ | ⟨hr, hfree, hreg⟩
  · refine .inl ⟨e, hfail, ?_⟩
    simp only [Fixed.region, Fixed.dev] at hreg
    simp [fixedInit, hreg]
  · simp only [Fixed.region, Fixed.dev] at hreg
    cases hc : o.cdevAdd with
    | some e =>
      refine .inr (.inl ⟨e, rfl, ?_⟩)
      simp [fixedInit, hreg, hc]
    | none =>
      refine .inr (.inr ⟨hr, hfree, rfl, ?_⟩)
      simp [fixedInit, hreg, hc, cdevInit, Fixed.region, Fixed.cdev, Fixed.dev]

/-- The exit removes the cdev and the region, each found by its number. -/
theorem driver_exit_exec (i : Fixed) (k : Kernel Module) :
    ((i.driver.exit ⟨i.dev, i.cdev⟩).exec (kcall .idle) k).2 =
      (k.delCdev i.dev 1).delRegion i.dev 1 := by
  rw [Fixed.driver_exit]
  simp [fixedExit, Fixed.cdev]

/-! ## The three drivers in one kernel -/

/-- The machine with the three drivers. -/
abbrev FixedSys : Type := Sys Fixed Module FixedStatics

/-- `i` owns its region and its cdev, and nothing more, while it is loaded, and
neither when it is not. -/
def OwnsExactly (s : FixedSys) (i : Fixed) : Prop :=
  (s.kernel.regions.filter fun r => r.owner == i.name) =
    (if (s.live i).isSome then [i.region] else []) ∧
  (s.kernel.cdevs.filter fun c => c.ops.driver == i.name) =
    (if (s.live i).isSome then [i.cdev] else [])

/-- The key under which the kernel finds the entries of `i` to remove them. -/
def regionKey (i : Fixed) (r : Region Module) : Bool := r.dev == i.dev && r.count == 1
def cdevKey (i : Fixed) (c : Cdev Module) : Bool := c.dev == i.dev && c.count == 1

/-- The invariant of the three drivers. -/
structure Inv (s : FixedSys) : Prop where
  statics : ∀ i st, s.live i = some st → st = ⟨i.dev, i.cdev⟩
  owns : ∀ i, OwnsExactly s i
  region : ∀ i, (s.live i).isSome → s.kernel.regions.find? (regionKey i) = some i.region
  cdev : ∀ i, (s.live i).isSome → s.kernel.cdevOf i.dev = some i.cdev
  named : ∀ i : Fixed, ∀ c ∈ s.kernel.cdevs, i.name ∈ c.pins → c.ops.driver = i.name

theorem cdevKey_covers {i : Fixed} {c : Cdev Module} (h : cdevKey i c = true) :
    c.covers i.dev = true := by
  simp only [cdevKey, Bool.and_eq_true, beq_iff_eq] at h
  simp [Cdev.covers, h.1, h.2]

theorem cdevKey_not_covers {i j : Fixed} (hij : i ≠ j) {c : Cdev Module}
    (h : cdevKey i c = true) : c.covers j.dev = false := by
  simp only [cdevKey, Bool.and_eq_true, beq_iff_eq] at h
  have hmajor : i.majorNum ≠ j.majorNum := fun heq => hij (Fixed.majorNum_inj heq)
  simp [Cdev.covers, h.1, Fixed.dev, hmajor]

theorem regionKey_disjoint {i j : Fixed} (hij : i ≠ j) {r : Region Module}
    (h : regionKey i r = true) : regionKey j r = false := by
  simp only [regionKey, Bool.and_eq_true, beq_iff_eq] at h
  have hmajor : i.majorNum ≠ j.majorNum := fun heq => hij (Fixed.majorNum_inj heq)
  simp [regionKey, h.1, Fixed.dev, hmajor]

/-- A cdev in the table that names `i` is there because `i` is loaded. -/
theorem Inv.live_of_pins {s : FixedSys} (h : Inv s) {i : Fixed} {c : Cdev Module}
    (hc : c ∈ s.kernel.cdevs) (hpin : i.name ∈ c.pins) : (s.live i).isSome := by
  have hown := (h.owns i).2
  by_contra hnone
  rw [if_neg hnone, List.filter_eq_nil_iff] at hown
  exact hown c hc (by simpa using h.named i c hc hpin)

theorem Inv.cdev_found {s : FixedSys} (h : Inv s) {i : Fixed} (hl : (s.live i).isSome) :
    s.kernel.cdevs.find? (cdevKey i) = some i.cdev :=
  FirstMatch.find?_narrow (h.cdev i hl) (fun _ => cdevKey_covers) (by simp [cdevKey, Fixed.cdev])

theorem inv_boot {k₀ : Kernel Module} (hk : ∀ i : Fixed, k₀.Foreign i.name) :
    Inv (Sys.boot k₀) where
  statics := by simp [Sys.boot]
  owns i := by
    constructor
    · simpa [Sys.boot] using (hk i).regions
    · simpa [Sys.boot] using fun c hc => ((hk i).cdevs c hc).1
  region := by simp [Sys.boot]
  cdev := by simp [Sys.boot]
  named i c hc hpin := absurd hpin ((hk i).cdevs c hc).2

/-- The tables with `i` put in. -/
def installed (i : Fixed) (k : Kernel Module) : Kernel Module :=
  { k with regions := i.region :: k.regions, cdevs := i.cdev :: k.cdevs }

/-- The tables with `i` taken out. -/
def removed (i : Fixed) (k : Kernel Module) : Kernel Module := (k.delCdev i.dev 1).delRegion i.dev 1

theorem regionKey_self (i : Fixed) : regionKey i i.region = true := by
  simp [regionKey, Fixed.region]

theorem cdev_covers_self (i : Fixed) : i.cdev.covers i.dev = true := by
  simp [Cdev.covers, Fixed.cdev]

theorem cdev_not_covers {i j : Fixed} (hij : i ≠ j) : i.cdev.covers j.dev = false :=
  cdevKey_not_covers hij (by simp [cdevKey, Fixed.cdev])

/-- What the invariant says of the driver `i`. -/
structure Entry (s : FixedSys) (i : Fixed) : Prop where
  statics : ∀ st, s.live i = some st → st = ⟨i.dev, i.cdev⟩
  owns : OwnsExactly s i
  region : (s.live i).isSome → s.kernel.regions.find? (regionKey i) = some i.region
  cdev : (s.live i).isSome → s.kernel.cdevOf i.dev = some i.cdev

theorem Inv.entry {s : FixedSys} (h : Inv s) (i : Fixed) : Entry s i :=
  ⟨h.statics i, h.owns i, h.region i, h.cdev i⟩

/-- `s'` has changed the entries of `i` only: it is enough to look at that driver
and, for any other one, at what it had. -/
theorem inv_of_entries {s s' : FixedSys} {i : Fixed} (h : Inv s) (hself : Entry s' i)
    (hother : ∀ j, j ≠ i → Entry s j → Entry s' j)
    (hnamed : ∀ j : Fixed, ∀ c ∈ s'.kernel.cdevs, j.name ∈ c.pins → c.ops.driver = j.name) :
    Inv s' := by
  have hall : ∀ j, Entry s' j := by
    intro j
    by_cases hji : j = i
    · rw [hji]
      exact hself
    · exact hother j hji (h.entry j)
  exact ⟨fun j => (hall j).statics, fun j => (hall j).owns, fun j => (hall j).region,
    fun j => (hall j).cdev, hnamed⟩

theorem name_ne {i j : Fixed} (h : j ≠ i) : i.name ≠ j.name :=
  fun heq => h (Fixed.name_inj heq).symm

/-- Loading `i` keeps the invariant. -/
theorem Inv.load {s : FixedSys} (h : Inv s) {i : Fixed} (hl : s.live i = none) :
    Inv { s with
      kernel := installed i s.kernel
      live := Function.update s.live i (some ⟨i.dev, i.cdev⟩) } := by
  refine inv_of_entries (i := i) h ?self ?other ?named
  case self =>
    obtain ⟨hr, hc⟩ := h.owns i
    simp only [hl] at hr hc
    refine ⟨fun st hst => ?_, ⟨?_, ?_⟩, fun _ => ?_, fun _ => ?_⟩
    · simpa using hst.symm
    · simpa [installed, Fixed.region] using hr
    · simpa [installed, Fixed.cdev] using hc
    · simp [installed, regionKey_self]
    · simp [installed, Kernel.cdevOf, cdev_covers_self]
  case other =>
    intro j hji hj
    obtain ⟨hr, hc⟩ := hj.owns
    have hname : i.name ≠ j.name := name_ne hji
    have hkey : regionKey j i.region = false := regionKey_disjoint (Ne.symm hji) (regionKey_self i)
    refine ⟨fun st hst => ?_, ⟨?_, ?_⟩, fun hlive => ?_, fun hlive => ?_⟩
    · exact hj.statics st (by simpa [hji] using hst)
    · simpa [installed, Fixed.region, hname, hji] using hr
    · simpa [installed, Fixed.cdev, hname, hji] using hc
    · simp only [Function.update_of_ne hji] at hlive
      simpa [installed, hkey] using hj.region hlive
    · simp only [Function.update_of_ne hji] at hlive
      simpa [installed, Kernel.cdevOf, cdev_not_covers (Ne.symm hji)] using hj.cdev hlive
  case named =>
    intro j c hc hpin
    rcases List.mem_cons.mp hc with rfl | hc
    · simp only [Fixed.cdev_pins, List.mem_cons, List.not_mem_nil, or_false, or_self] at hpin
      simpa [Fixed.cdev] using hpin.symm
    · exact h.named j c hc hpin

/-- Unloading `i` keeps the invariant. -/
theorem Inv.unload {s : FixedSys} (h : Inv s) {i : Fixed} (hl : (s.live i).isSome) :
    Inv { s with kernel := removed i s.kernel, live := Function.update s.live i none } := by
  -- What the two removals find are the entries of `i` itself.
  have hregion := h.region i hl
  have hcdev := h.cdev_found hl
  refine inv_of_entries (i := i) h ?self ?other ?named
  case self =>
    obtain ⟨hr, hc⟩ := h.owns i
    rw [if_pos hl] at hr hc
    have hnone : ∀ P : Prop,
        (Function.update s.live i (none : Option FixedStatics) i).isSome → P := by
      intro P hlive
      simp at hlive
    refine ⟨fun st hst => ?_, ?_, fun hlive => hnone _ hlive, fun hlive => hnone _ hlive⟩
    · simp at hst
    · simp only [OwnsExactly, Function.update_self, Option.isSome_none, Bool.false_eq_true,
        if_false]
      constructor
      · exact FirstMatch.filter_eraseP_of_pos hregion (by simp [Fixed.region]) hr
      · exact FirstMatch.filter_eraseP_of_pos hcdev (by simp [Fixed.cdev]) hc
  case other =>
    intro j hji hj
    obtain ⟨hr, hc⟩ := hj.owns
    have hname : i.name ≠ j.name := name_ne hji
    refine ⟨fun st hst => ?_, ?_, fun hlive => ?_, fun hlive => ?_⟩
    · exact hj.statics st (by simpa [hji] using hst)
    · simp only [OwnsExactly, Function.update_of_ne hji]
      rw [← hr, ← hc]
      constructor
      · exact FirstMatch.filter_eraseP_of_neg hregion (by simpa [Fixed.region] using hname)
      · exact FirstMatch.filter_eraseP_of_neg hcdev (by simpa [Fixed.cdev] using hname)
    · simp only [Function.update_of_ne hji] at hlive
      rw [← hj.region hlive]
      exact FirstMatch.find?_eraseP (fun _ => regionKey_disjoint (Ne.symm hji)) _
    · simp only [Function.update_of_ne hji] at hlive
      rw [← hj.cdev hlive]
      exact FirstMatch.find?_eraseP (fun _ => cdevKey_not_covers (Ne.symm hji)) _
  case named =>
    intro j c hc
    exact h.named j c (List.mem_of_mem_eraseP hc)

/-! ### What a step does to the tables -/

/-- A load by `i` that fails, or that puts `i` into the tables. -/
theorem loading_cases (s : FixedSys) (i : Fixed) (o : Outcomes Module) :
    (∃ e : Errno, s.loading Fixed.driver i o = (.error e.code, s.kernel)) ∨
    s.loading Fixed.driver i o = (.ok ⟨i.dev, i.cdev⟩, installed i s.kernel) := by
  rcases driver_init_cases i o s.kernel with ⟨e, _, h⟩ | ⟨e, _, h⟩ | ⟨_, _, _, h⟩
  · exact .inl ⟨e, h⟩
  · exact .inl ⟨e, h⟩
  · exact .inr h

theorem loading_error {s : FixedSys} {i : Fixed} {o : Outcomes Module} {c : Int}
    (h : (s.loading Fixed.driver i o).1 = .error c) :
    (s.loading Fixed.driver i o).2 = s.kernel := by
  rcases loading_cases s i o with ⟨e, heq⟩ | heq
  · rw [heq]
  · rw [heq] at h
    cases h

theorem loading_ok {s : FixedSys} {i : Fixed} {o : Outcomes Module} {st : FixedStatics}
    (h : (s.loading Fixed.driver i o).1 = .ok st) :
    st = ⟨i.dev, i.cdev⟩ ∧ (s.loading Fixed.driver i o).2 = installed i s.kernel := by
  rcases loading_cases s i o with ⟨e, heq⟩ | heq
  · rw [heq] at h
    cases h
  · rw [heq] at h ⊢
    exact ⟨(Except.ok.inj h).symm, rfl⟩

theorem Inv.unloading {s : FixedSys} (h : Inv s) {i : Fixed} {st : FixedStatics}
    (hl : s.live i = some st) : s.unloading Fixed.driver i st = removed i s.kernel := by
  rw [h.statics i st hl]
  exact driver_exit_exec i s.kernel

theorem inv_step {s : FixedSys} (h : Inv s) (a : Act Fixed Module) :
    Inv (s.step Fixed.driver a) := by
  have hcase := Sys.stepCase Fixed.driver s a
  generalize s.step Fixed.driver a = s' at hcase
  cases hcase with
  | loadFailed _ hr =>
    rw [loading_error hr]
    exact h
  | loaded hl hr =>
    obtain ⟨rfl, hkernel⟩ := loading_ok hr
    rw [hkernel]
    exact h.load hl
  | @unloaded i st hl _ =>
    rw [h.unloading hl]
    exact h.unload (by simp [hl])
  | opened _ _ => exact ⟨h.statics, h.owns, h.region, h.cdev, h.named⟩
  | closed => exact ⟨h.statics, h.owns, h.region, h.cdev, h.named⟩
  | same => exact h

/-- A failed init leaves the tables as they were. -/
def FailedInitRestores (s : FixedSys) (a : Act Fixed Module) : Prop :=
  ∀ i o c, a = .load i o → (s.loading Fixed.driver i o).1 = .error c →
    (s.step Fixed.driver a).kernel = s.kernel

/-- The registrations of the module `m`. -/
def regionsOf (m : Module) (k : Kernel Module) : List (Region Module) :=
  k.regions.filter fun r => r.owner == m
def cdevsOf (m : Module) (k : Kernel Module) : List (Cdev Module) :=
  k.cdevs.filter fun c => c.ops.driver == m

/-- A step changes no registration of an owner that it does not load or unload. -/
def OthersUntouched (s : FixedSys) (a : Act Fixed Module) : Prop :=
  ∀ m, (∀ i, a.target = some i → i.name ≠ m) →
    regionsOf m (s.step Fixed.driver a).kernel = regionsOf m s.kernel ∧
    cdevsOf m (s.step Fixed.driver a).kernel = cdevsOf m s.kernel

theorem failedInitRestores (s : FixedSys) (a : Act Fixed Module) : FailedInitRestores s a := by
  rintro i o c rfl hr
  have hkernel : (s.loading Fixed.driver i o).2 = s.kernel := loading_error hr
  cases hl : s.live i with
  | some st => simp [Sys.step, hl]
  | none => simp [Sys.step, hl, hr, hkernel]

theorem Inv.othersUntouched {s : FixedSys} (h : Inv s) (a : Act Fixed Module) :
    OthersUntouched s a := by
  intro m
  have hcase := Sys.stepCase Fixed.driver s a
  generalize s.step Fixed.driver a = s' at hcase
  intro hm
  cases hcase with
  | loadFailed _ hr =>
    rw [loading_error hr]
    exact ⟨rfl, rfl⟩
  | @loaded i o st _ hr =>
    have hname : i.name ≠ m := hm i rfl
    rw [(loading_ok hr).2]
    constructor
    · simp [regionsOf, installed, Fixed.region, hname]
    · simp [cdevsOf, installed, Fixed.cdev, hname]
  | @unloaded i st hl _ =>
    have hname : i.name ≠ m := hm i rfl
    have hsome : (s.live i).isSome := by simp [hl]
    rw [h.unloading hl]
    constructor
    · exact FirstMatch.filter_eraseP_of_neg (h.region i hsome) (by simpa [Fixed.region] using hname)
    · exact FirstMatch.filter_eraseP_of_neg (h.cdev_found hsome) (by simpa [Fixed.cdev] using hname)
  | opened _ _ | closed | same => exact ⟨rfl, rfl⟩

/-! ### Open files -/

/-- The module `i` owns the number `d`. -/
def OwnsNumber (s : FixedSys) (i : Fixed) (d : Dev) : Prop :=
  ∃ r ∈ s.kernel.regions, r.owner = i.name ∧ r.covers d = true

theorem Inv.of_ownsNumber {s : FixedSys} (h : Inv s) {i : Fixed} {d : Dev}
    (ho : OwnsNumber s i d) : d = i.dev ∧ (s.live i).isSome := by
  obtain ⟨r, hr, howner, hcovers⟩ := ho
  have hmem : r ∈ s.kernel.regions.filter fun r => r.owner == i.name :=
    List.mem_filter.mpr ⟨hr, by simpa using howner⟩
  rw [(h.owns i).1] at hmem
  by_cases hl : (s.live i).isSome
  · rw [if_pos hl, List.mem_singleton] at hmem
    subst hmem
    refine ⟨?_, hl⟩
    simp only [Region.covers, Fixed.region, Fixed.dev, Bool.and_eq_true, beq_iff_eq] at hcovers
    obtain ⟨⟨hmajor, _⟩, hminor⟩ := hcovers
    cases d
    simp only [Fixed.dev, Dev.mk.injEq]
    exact ⟨hmajor.symm, by simpa using hminor⟩
  · rw [if_neg hl] at hmem
    cases hmem

theorem Inv.pinsLive_step {s : FixedSys} (h : Inv s) (hp : s.PinsLive Fixed.driver)
    (a : Act Fixed Module) : (s.step Fixed.driver a).PinsLive Fixed.driver := by
  refine Sys.pinsLive_step (fun i c hc hpin => ?_) hp a
  rw [Fixed.driver_name] at hpin
  exact h.live_of_pins hc hpin

/-- The states that a run reaches keep the invariant, with every pinned module
loaded. -/
theorem inv_run {k₀ : Kernel Module} (hk : ∀ i : Fixed, k₀.Foreign i.name)
    (acts : List (Act Fixed Module)) :
    Inv (Run.run (Sys.step Fixed.driver) (Sys.boot k₀) acts) ∧
      (Run.run (Sys.step Fixed.driver) (Sys.boot k₀) acts).PinsLive Fixed.driver := by
  refine Run.inv_run (I := fun s => Inv s ∧ s.PinsLive Fixed.driver) ?_ ⟨inv_boot hk, ?_⟩ acts
  · rintro s a ⟨h, hp⟩
    exact ⟨inv_step h a, h.pinsLive_step hp a⟩
  · simp [Sys.PinsLive, Sys.Pinned, Sys.boot]

/-- The file that an open of `i`'s number makes is served by `i`, and pins it. -/
theorem Inv.open_file {s : FixedSys} (h : Inv s) {i : Fixed} {d : Dev} {id : Nat}
    (ho : OwnsNumber s i d) (hfile : s.file id = none) :
    (s.step Fixed.driver (.open id d)).file id = some ⟨id, i.fops, i.cdev.pins⟩ := by
  obtain ⟨rfl, hl⟩ := h.of_ownsNumber ho
  have hcdev : s.kernel.cdevOf i.dev = some i.cdev := h.cdev i hl
  simp only [Sys.step, hfile, hcdev]
  simp [Sys.file, Fixed.cdev]

/-! ### The three drivers do not disturb each other -/

/-- Every run of loads, unloads, opens, reads, writes and closes of the three
drivers, from any tables of other registrations:
* after every step each driver owns its region and its cdev while it is loaded
  and nothing when it is not, a failed init changes no table, and no step
  changes a registration of another owner;
* a file opened through a number while the driver owns it calls that driver's
  own handlers as long as it is open, and the driver is loaded all that time. -/
theorem fixed_drivers_isolated {k₀ : Kernel Module} (hk : ∀ i : Fixed, k₀.Foreign i.name) :
    (∀ acts, Run.Along (Sys.step Fixed.driver)
      (fun s a => (∀ i, OwnsExactly (s.step Fixed.driver a) i) ∧ FailedInitRestores s a ∧
        OthersUntouched s a) (Sys.boot k₀) acts) ∧
    (∀ pre mid id d i, let s := Run.run (Sys.step Fixed.driver) (Sys.boot k₀) pre
      let s' := Run.run (Sys.step Fixed.driver) s (.open id d :: mid)
      OwnsNumber s i d → s.file id = none → Act.close id ∉ mid →
        s.dispatch (.open id d) = some ⟨i.name, .open⟩ ∧ (s'.live i).isSome ∧
        ∀ a op, a.fileOp = some (id, op) → s'.dispatch a = i.fops.slot op) := by
  constructor
  · intro acts
    refine Run.along_of_step (I := Inv) (fun s a h => ?_) (inv_boot hk) acts
    exact ⟨⟨(inv_step h a).owns, failedInitRestores s a, h.othersUntouched a⟩, inv_step h a⟩
  · intro pre mid id d i s s' ho hfile hclose
    have hs : Inv s := (inv_run hk pre).1
    obtain ⟨rfl, hl⟩ := hs.of_ownsNumber ho
    have hopen := hs.open_file ho hfile
    have hfile' : s'.file id = some ⟨id, i.fops, i.cdev.pins⟩ := Sys.file_run hopen hclose
    refine ⟨?_, ?_, ?_⟩
    · simp only [Sys.dispatch, hfile, Kernel.fopsOf, hs.cdev i hl]
      cases i <;> rfl
    · have hrun : s' =
          Run.run (Sys.step Fixed.driver) (Sys.boot k₀) (pre ++ .open id i.dev :: mid) :=
        (Run.run_append _ _ _).symm
      have hpins : s'.PinsLive Fixed.driver := hrun ▸ (inv_run hk _).2
      exact hpins i ⟨_, Sys.mem_of_file hfile', by simp⟩
    · intro a op ha
      cases a <;> simp_all [Act.fileOp, Sys.dispatch]

/-- CAN's major is occupied by somebody else; Wi-Fi is loaded and opened, and
cannot be unloaded then. -/
theorem wifi_isolated :
    let k₀ : Kernel Module := { regions := [⟨.other 0, "occupied", ⟨250, 0⟩, 256⟩] }
    let o : Outcomes Module := .idle
    let s := Run.run (Sys.step Fixed.driver) (Sys.boot k₀) [.load .can o, .load .wifi o]
    let s' := Run.run (Sys.step Fixed.driver) s [.open 3 ⟨251, 0⟩, .unload .wifi]
    (∀ i, OwnsExactly s i) ∧ (s'.live .wifi).isSome ∧
      s'.dispatch (.read 3) = some ⟨.wifi, .read⟩ := by
  intro k₀ o s s'
  have hk : ∀ i : Fixed, k₀.Foreign i.name := fun i =>
    Kernel.foreign_region (by cases i <;> decide)
  obtain ⟨hsteps, hfiles⟩ := fixed_drivers_isolated hk
  have howns : OwnsNumber s .wifi ⟨251, 0⟩ := ⟨Fixed.region .wifi, by decide, rfl, by decide⟩
  obtain ⟨-, hlive, hread⟩ :=
    hfiles [.load .can o, .load .wifi o] [.unload .wifi] 3 ⟨251, 0⟩ .wifi howns rfl (by simp)
  exact ⟨(hsteps [.load .can o, .load .wifi o]).2.1.1, hlive, hread (.read 3) .read rfl⟩

end FixedMajor

end DeviceDrivers
