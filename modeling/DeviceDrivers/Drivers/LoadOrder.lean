import DeviceDrivers.Drivers.FixedMajor
import DeviceDrivers.Drivers.Ioctl
import DeviceDrivers.Drivers.Esp32
import DeviceDrivers.Drivers.I2cChar
import DeviceDrivers.Drivers.SpiChar
import Mathlib.Data.List.Perm.Basic

/-!
# The order in which the drivers are loaded

CAN, Wi-Fi and Bluetooth ask for the majors 250, 251 and 252, which
`alloc_chrdev_region` also hands out. Here no call fails for lack of memory or
hardware, and a set of modules is loaded in some order.

1. `load_fixed`, `load_dynamic`: what one load does. A dynamic module takes the
   head of the list of free majors, which is sorted downwards.
2. `loadAll_of_room`, `loadAll_of_late`: two conditions under which everything
   is loaded.
3. `not_mem_loadAll_of_crowd`: an order in which a dynamic module takes the
   major of a driver with a fixed one.
4. `order_free_iff`: the order makes no difference exactly when there is room
   for the dynamic modules above the fixed majors, or none of them takes the
   minor 0.
-/

namespace DeviceDrivers.LoadOrder

open FixedMajor (Fixed)

/-! ## Majors -/

/-- The majors that `alloc_chrdev_region` looks at, in its order. -/
def dynMajors : List Nat := (List.range' 234 21).reverse

/-- No range is registered on the major. -/
def IsFree (rs : List (Region Module)) (major : Nat) : Prop := ∀ r ∈ rs, r.dev.major ≠ major

instance (rs : List (Region Module)) (major : Nat) : Decidable (IsFree rs major) := by
  unfold IsFree; infer_instance

def freeMajors (rs : List (Region Module)) : List Nat := dynMajors.filter fun m => IsFree rs m

/-- No call fails for lack of memory or hardware, and `alloc_chrdev_region` takes
the highest free major. -/
def available : Outcomes Module where
  alloc rs := match freeMajors rs with
    | [] => .error EBUSY
    | major :: _ => .ok major

theorem available_works : available.cdevAdd = none ∧ available.classCreate = none ∧
    available.deviceCreate = none ∧ available.i2cAddDriver = none ∧ available.spiFound = true ∧
    available.cdevAlloc = true := ⟨rfl, rfl, rfl, rfl, rfl, rfl⟩

theorem freeMajors_sorted (rs : List (Region Module)) : (freeMajors rs).Pairwise (· > ·) :=
  List.Pairwise.filter _ (by decide)

theorem isFree_cons {r : Region Module} {rs : List (Region Module)} {major : Nat} :
    IsFree (r :: rs) major ↔ r.dev.major ≠ major ∧ IsFree rs major := by
  simp [IsFree]

/-- Registering a range takes its major out of the free ones. -/
theorem freeMajors_cons (r : Region Module) (rs : List (Region Module)) :
    freeMajors (r :: rs) = (freeMajors rs).filter fun m => r.dev.major ≠ m := by
  unfold freeMajors
  rw [List.filter_filter]
  refine List.filter_congr fun m _ => ?_
  simp [isFree_cons]

/-- The free majors above `g`. -/
def freeAbove (g : Nat) (rs : List (Region Module)) : List Nat :=
  (freeMajors rs).filter fun m => g < m

/-- A range on a major up to `g` does not change what is free above `g`. -/
theorem freeAbove_of_le {g : Nat} {r : Region Module} (h : r.dev.major ≤ g)
    (rs : List (Region Module)) : freeAbove g (r :: rs) = freeAbove g rs := by
  unfold freeAbove
  rw [freeMajors_cons, List.filter_filter]
  refine List.filter_congr fun m _ => ?_
  rw [← Bool.decide_and, decide_eq_decide]
  omega

/-- A range takes at most one of the free majors. -/
theorem length_freeMajors_le (r : Region Module) (rs : List (Region Module)) :
    (freeMajors rs).length ≤ (freeMajors (r :: rs)).length + 1 := by
  have hnodup : (freeMajors rs).Nodup := (freeMajors_sorted rs).imp fun h => by omega
  have herase : freeMajors (r :: rs) = (freeMajors rs).erase r.dev.major := by
    rw [freeMajors_cons, hnodup.erase_eq_filter]
    refine List.filter_congr fun m _ => ?_
    rw [Bool.eq_iff_iff, bne_iff_ne, decide_eq_true_eq, ne_comm]
  have hlen := (freeMajors rs).le_length_erase (a := r.dev.major)
  rw [herase]
  omega

/-- A range on the head of the free majors leaves the tail. -/
theorem freeMajors_of_head {rs : List (Region Module)} {major : Nat} {rest : List Nat}
    (h : freeMajors rs = major :: rest) {r : Region Module} (hr : r.dev.major = major) :
    freeMajors (r :: rs) = rest := by
  have hsorted := freeMajors_sorted rs
  rw [h, List.pairwise_cons] at hsorted
  rw [freeMajors_cons, h, hr, List.filter_cons_of_neg (by simp), List.filter_eq_self]
  intro m hm
  have := hsorted.1 m hm
  simp only [decide_eq_true_eq]
  omega

/-! ## One load -/

/-- The range that a module outside the repository asks for: the first minor and
the number of minors. -/
structure Request where
  baseminor : Nat
  count : Nat
deriving DecidableEq, Repr

/-- Whether an init returned 0. -/
def succeeded {σ : Type} (init : KProg Module (Except Int σ)) : KProg Module Bool := do
  match ← init with
  | .error _ => return false
  | .ok _ => return true

@[simp] def isOk {σ : Type} : Except Int σ → Bool
  | .error _ => false
  | .ok _ => true

theorem exec_succeeded {σ : Type} (init : KProg Module (Except Int σ)) (o : Outcomes Module)
    (k : Kernel Module) :
    (succeeded init).exec (kcall o) k =
      (isOk (init.exec (kcall o) k).1, (init.exec (kcall o) k).2) := by
  unfold succeeded
  rw [Prog.exec_bind]
  cases (init.exec (kcall o) k).1 <;> rfl

section

variable (req : Nat → Request)

/-- The init of a module outside the repository, as far as it is known. -/
def otherInit (n : Nat) : KProg Module (Except Int Dev) := do
  match ← allocChrdevRegion (.other n) (req n).baseminor (req n).count "other" with
  | .error ret => return .error ret.code
  | .ok dev => return .ok dev

def initOf : Module → KProg Module Bool
  | .can => succeeded FixedMajor.canInit
  | .wifi => succeeded FixedMajor.wifiInit
  | .bluetooth => succeeded FixedMajor.bluetoothInit
  | .etx => succeeded Ioctl.etxDriverInit
  | .esp32 => succeeded Esp32.esp32Init
  | .i2cChar => succeeded I2cChar.i2cCharDriverInit
  | .spiChar => succeeded SpiChar.spiCharInit
  | .other n => succeeded (otherInit req n)

/-- The driver with a fixed major that a module is. -/
def fixed : Module → Option Fixed
  | .can => some .can
  | .wifi => some .wifi
  | .bluetooth => some .bluetooth
  | _ => none

/-- What a dynamic module asks for. -/
def request : Module → Request
  | .other n => req n
  | _ => ⟨0, 1⟩

/-- Load a module: whether it works, and the tables after it. -/
def load (m : Module) (k : Kernel Module) : Bool × Kernel Module :=
  (initOf req m).exec (kcall available) k

theorem fixed_name (i : Fixed) : fixed i.name = some i := by cases i <;> rfl

theorem name_of_fixed {m : Module} {i : Fixed} (h : fixed m = some i) : m = i.name := by
  cases m <;> cases h <;> rfl

/-- A driver with a fixed major is loaded exactly when its number is not taken. -/
theorem load_fixed (i : Fixed) (k : Kernel Module) :
    (k.regions.any i.region.overlaps = true ∧ load req i.name k = (false, k)) ∨
    (k.regions.any i.region.overlaps = false ∧
      load req i.name k = (true, FixedMajor.installed i k)) := by
  have hload : load req i.name k =
      (isOk (i.driver.init.exec (kcall available) k).1,
        (i.driver.init.exec (kcall available) k).2) := by
    cases i <;> exact exec_succeeded _ _ _
  rw [hload]
  rcases FixedMajor.driver_init_cases i available k with
    ⟨e, hreg | hover, h⟩ | ⟨e, hcdev, _⟩ | ⟨_, hfree, _, h⟩
  · cases hreg
  · exact .inl ⟨hover, by rw [h]; rfl⟩
  · cases hcdev
  · exact .inr ⟨hfree, by rw [h]; rfl⟩

theorem allocRegion_none {k : Kernel Module} (h : freeMajors k.regions = []) (m : Module)
    (baseminor count : Nat) (name : String) :
    k.allocRegion available m baseminor count name = (.error EBUSY, k) := by
  simp [Kernel.allocRegion, available, h]

theorem allocRegion_head {k : Kernel Module} {major : Nat} {rest : List Nat}
    (h : freeMajors k.regions = major :: rest) (m : Module) (baseminor count : Nat)
    (name : String) :
    k.allocRegion available m baseminor count name =
      (.ok ⟨major, baseminor⟩,
        { k with regions := ⟨m, name, ⟨major, baseminor⟩, count⟩ :: k.regions }) := by
  have hfree : IsFree k.regions major := by
    have hmem : major ∈ freeMajors k.regions := h ▸ List.mem_cons_self
    simpa [freeMajors] using (List.mem_filter.mp hmem).2
  have hover : k.regions.any
      (Region.overlaps ⟨m, name, ⟨major, baseminor⟩, count⟩) = false := by
    rw [List.any_eq_false]
    intro r hr
    simp [Region.overlaps, (hfree r hr).symm]
  simp [Kernel.allocRegion, available, h, Kernel.addRegion, hover]

/-- A dynamic module is loaded exactly when a major is free, and takes the
highest one. -/
theorem load_dynamic {m : Module} (hm : fixed m = none) (k : Kernel Module) :
    (freeMajors k.regions = [] ∧ load req m k = (false, k)) ∨
    (∃ r rest, freeMajors k.regions = r.dev.major :: rest ∧
      r.dev.minor = (request req m).baseminor ∧ r.count = (request req m).count ∧
      (load req m k).1 = true ∧ (load req m k).2.regions = r :: k.regions) := by
  -- The I2C driver looks for a number after it has entered its bus driver.
  let kBus : Kernel Module := { k with i2cDrivers := I2cChar.i2cCharDriver :: k.i2cDrivers }
  cases h : freeMajors k.regions with
  | nil =>
    refine .inl ⟨rfl, ?_⟩
    have hBus : freeMajors kBus.regions = [] := h
    cases m with
    | can | wifi | bluetooth => cases hm
    | etx => simp [load, initOf, exec_succeeded, Ioctl.etxDriverInit, allocRegion_none h]
    | esp32 => simp [load, initOf, exec_succeeded, Esp32.esp32Init, allocRegion_none h]
    | i2cChar =>
      simp [load, initOf, exec_succeeded, I2cChar.i2cCharDriverInit, available_works,
        allocRegion_none hBus, kBus]
    | spiChar => simp [load, initOf, exec_succeeded, SpiChar.spiCharInit, allocRegion_none h]
    | other n => simp [load, initOf, exec_succeeded, otherInit, allocRegion_none h]
  | cons major rest =>
    have hBus : freeMajors kBus.regions = major :: rest := h
    have hloads : ∃ name, (load req m k).1 = true ∧ (load req m k).2.regions =
        ⟨m, name, ⟨major, (request req m).baseminor⟩, (request req m).count⟩ :: k.regions := by
      cases m with
      | can | wifi | bluetooth => cases hm
      | etx =>
        simp [load, initOf, exec_succeeded, Ioctl.etxDriverInit, allocRegion_head h,
          available_works, request]
      | esp32 =>
        simp [load, initOf, exec_succeeded, Esp32.esp32Init, allocRegion_head h, available_works,
          request]
      | i2cChar =>
        simp [load, initOf, exec_succeeded, I2cChar.i2cCharDriverInit, available_works,
          allocRegion_head hBus, kBus, request]
      | spiChar =>
        simp [load, initOf, exec_succeeded, SpiChar.spiCharInit, allocRegion_head h,
          available_works, request]
      | other n => simp [load, initOf, exec_succeeded, otherInit, allocRegion_head h, request]
    obtain ⟨name, hok, hregions⟩ := hloads
    exact .inr ⟨_, rest, rfl, rfl, rfl, hok, hregions⟩

/-! ## Loading a set of modules -/

/-- The tables after loading the modules in the order of the list. -/
def tables (ms : List Module) (k : Kernel Module) : Kernel Module :=
  ms.foldl (fun k m => (load req m k).2) k

/-- The modules that get loaded. -/
def loadAll : List Module → Kernel Module → List Module
  | [], _ => []
  | m :: ms, k =>
    if (load req m k).1 then m :: loadAll ms (load req m k).2 else loadAll ms (load req m k).2

/-- The modules that use `alloc_chrdev_region`. -/
def dynamics (ms : List Module) : List Module := ms.filter fun m => fixed m = none

theorem loadAll_append (xs ys : List Module) (k : Kernel Module) :
    loadAll req (xs ++ ys) k = loadAll req xs k ++ loadAll req ys (tables req xs k) := by
  induction xs generalizing k with
  | nil => rfl
  | cons m xs ih =>
    simp only [List.cons_append, loadAll, ih]
    split <;> rfl

theorem loadAll_subset (ms : List Module) (k : Kernel Module) : loadAll req ms k ⊆ ms := by
  induction ms generalizing k with
  | nil => exact List.Subset.refl _
  | cons m ms ih =>
    simp only [loadAll]
    split
    · exact List.cons_subset_cons m (ih _)
    · exact List.subset_cons_of_subset m (ih _)

/-! ### Taken numbers -/

/-- The number that the driver `i` asks for is in a registered range. -/
def Taken (i : Fixed) (rs : List (Region Module)) : Prop := rs.any i.region.overlaps = true

/-- A range of the request has the minor 0. -/
def Request.HasMinor0 (q : Request) : Prop := q.baseminor = 0 ∧ 0 < q.count

instance (q : Request) : Decidable q.HasMinor0 := by
  unfold Request.HasMinor0; infer_instance

theorem overlaps_iff {i : Fixed} {r : Region Module} :
    i.region.overlaps r = true ↔ r.dev.major = i.majorNum ∧ r.dev.minor = 0 ∧ 0 < r.count := by
  have heq : i.region.overlaps r = (i.majorNum == r.dev.major &&
      decide (0 < r.dev.minor + r.count) && decide (r.dev.minor < 0 + 1)) := rfl
  rw [heq]
  simp only [Bool.and_eq_true, beq_iff_eq, decide_eq_true_eq]
  omega

theorem taken_cons {i : Fixed} {r : Region Module} {rs : List (Region Module)} :
    Taken i (r :: rs) ↔ i.region.overlaps r = true ∨ Taken i rs := by
  simp [Taken]

theorem not_taken_of_isFree {i : Fixed} {rs : List (Region Module)}
    (h : IsFree rs i.majorNum) : ¬ Taken i rs := by
  simp only [Taken, List.any_eq_true, not_exists, not_and]
  intro r hr hover
  exact h r hr (overlaps_iff.mp hover).1

/-- The drivers with a fixed major do not take each other's number. -/
theorem not_overlaps_of_ne {i j : Fixed} (hij : i ≠ j) : ¬ j.region.overlaps i.region = true :=
  fun hover => hij (FixedMajor.Fixed.majorNum_inj (overlaps_iff.mp hover).1)

theorem load_regions (m : Module) (k : Kernel Module) :
    (load req m k).2.regions = k.regions ∨ ∃ r, (load req m k).2.regions = r :: k.regions := by
  cases hm : fixed m with
  | some i =>
    obtain rfl := name_of_fixed hm
    rcases load_fixed req i k with ⟨_, h⟩ | ⟨_, h⟩
    · exact .inl (by rw [h])
    · exact .inr ⟨i.region, by rw [h]; rfl⟩
  | none =>
    rcases load_dynamic req hm k with ⟨_, h⟩ | ⟨r, _, _, _, _, _, h⟩
    · exact .inl (by rw [h])
    · exact .inr ⟨r, h⟩

/-- A number that is taken stays taken. -/
theorem taken_load {i : Fixed} {k : Kernel Module} (h : Taken i k.regions) (m : Module) :
    Taken i (load req m k).2.regions := by
  rcases load_regions req m k with hregions | ⟨r, hregions⟩
  · rwa [hregions]
  · rw [hregions, taken_cons]
    exact .inr h

theorem not_mem_loadAll_of_taken {i : Fixed} {k : Kernel Module} (h : Taken i k.regions)
    (ms : List Module) : i.name ∉ loadAll req ms k := by
  induction ms generalizing k with
  | nil => exact List.not_mem_nil
  | cons m ms ih =>
    have hrest := ih (taken_load req h m)
    simp only [loadAll]
    split
    · rename_i hok
      rw [List.mem_cons, not_or]
      refine ⟨?_, hrest⟩
      rintro rfl
      rcases load_fixed req i k with ⟨_, hload⟩ | ⟨hnot, _⟩
      · rw [hload] at hok
        cases hok
      · unfold Taken at h
        rw [hnot] at h
        cases h
    · exact hrest

/-! ### Orders in which everything is loaded -/

theorem dynamics_cons_fixed {m : Module} {i : Fixed} (hm : fixed m = some i) (ms : List Module) :
    dynamics (m :: ms) = dynamics ms := by
  simp [dynamics, hm]

theorem dynamics_cons_dynamic {m : Module} (hm : fixed m = none) (ms : List Module) :
    dynamics (m :: ms) = m :: dynamics ms := by
  simp [dynamics, hm]

/-- A driver whose major is free is loaded. -/
theorem load_fixed_of_not_taken {i : Fixed} {k : Kernel Module} (h : ¬ Taken i k.regions) :
    load req i.name k = (true, FixedMajor.installed i k) := by
  rcases load_fixed req i k with ⟨hover, _⟩ | ⟨_, hload⟩
  · exact absurd hover h
  · exact hload

/-- While a free major above `g` is left, the next dynamic module takes the
highest one. -/
theorem load_dynamic_above {m : Module} (hm : fixed m = none) {g : Nat} {k : Kernel Module}
    (hroom : 0 < (freeAbove g k.regions).length) :
    ∃ r, g < r.dev.major ∧ (load req m k).1 = true ∧ (load req m k).2.regions = r :: k.regions ∧
      (freeAbove g (r :: k.regions)).length + 1 = (freeAbove g k.regions).length := by
  rcases load_dynamic req hm k with ⟨hnil, _⟩ | ⟨r, rest, hfree, _, _, hok, hregions⟩
  · simp [freeAbove, hnil] at hroom
  · have hg : g < r.dev.major := by
      obtain ⟨x, hx⟩ := List.exists_mem_of_length_pos hroom
      obtain ⟨hmem, hgx⟩ := List.mem_filter.mp hx
      have hsorted := freeMajors_sorted k.regions
      rw [hfree, List.pairwise_cons] at hsorted
      rw [hfree] at hmem
      rw [decide_eq_true_eq] at hgx
      rcases List.mem_cons.mp hmem with rfl | hmem
      · exact hgx
      · have := hsorted.1 x hmem
        omega
    refine ⟨r, hg, hok, hregions, ?_⟩
    unfold freeAbove
    rw [freeMajors_of_head hfree rfl, hfree,
      List.filter_cons_of_pos (by simpa using hg), List.length_cons]

/-- If the majors asked for are free and at most `g`, and there is room for the
dynamic modules above `g`, then everything is loaded. -/
theorem loadAll_of_room {g : Nat} {ms : List Module} {k : Kernel Module} (hnodup : ms.Nodup)
    (hfixed : ∀ i : Fixed, i.name ∈ ms → i.majorNum ≤ g ∧ IsFree k.regions i.majorNum)
    (hroom : (dynamics ms).length ≤ (freeAbove g k.regions).length) :
    loadAll req ms k = ms := by
  induction ms generalizing k with
  | nil => rfl
  | cons m ms ih =>
    obtain ⟨hm, hrest⟩ := List.nodup_cons.mp hnodup
    cases hfix : fixed m with
    | some i =>
      obtain rfl := name_of_fixed hfix
      obtain ⟨hle, hfree⟩ := hfixed i List.mem_cons_self
      simp only [loadAll, load_fixed_of_not_taken req (not_taken_of_isFree hfree), if_true]
      rw [ih hrest]
      · intro j hj
        obtain ⟨hjg, hjfree⟩ := hfixed j (List.mem_cons_of_mem _ hj)
        refine ⟨hjg, isFree_cons.mpr ⟨fun heq => hm ?_, hjfree⟩⟩
        rwa [FixedMajor.Fixed.majorNum_inj heq]
      · rw [dynamics_cons_fixed hfix] at hroom
        have hsame : freeAbove g (i.region :: k.regions) = freeAbove g k.regions :=
          freeAbove_of_le hle k.regions
        exact hsame ▸ hroom
    | none =>
      -- It takes a major above `g`, so the majors still asked for stay free.
      rw [dynamics_cons_dynamic hfix, List.length_cons] at hroom
      obtain ⟨r, hg, hok, hregions, hlen⟩ :=
        load_dynamic_above req hfix (Nat.lt_of_lt_of_le (Nat.succ_pos _) hroom)
      simp only [loadAll, hok, if_true]
      rw [ih hrest]
      · intro j hj
        obtain ⟨hjg, hjfree⟩ := hfixed j (List.mem_cons_of_mem _ hj)
        refine ⟨hjg, ?_⟩
        rw [hregions, isFree_cons]
        exact ⟨by omega, hjfree⟩
      · rw [hregions]
        omega

/-- If the numbers asked for are not taken, there is a free major for each
module, and no dynamic module with the minor 0 comes before a driver with a
fixed major, then everything is loaded. -/
theorem loadAll_of_late {ms : List Module} {k : Kernel Module} (hnodup : ms.Nodup)
    (hfixed : ∀ i : Fixed, i.name ∈ ms → ¬ Taken i k.regions)
    (hroom : ms.length ≤ (freeMajors k.regions).length)
    (hlate : ms.Pairwise fun m m' =>
      fixed m = none → (request req m).HasMinor0 → fixed m' = none) :
    loadAll req ms k = ms := by
  induction ms generalizing k with
  | nil => rfl
  | cons m ms ih =>
    obtain ⟨hm, hrest⟩ := List.nodup_cons.mp hnodup
    obtain ⟨hlast, hlater⟩ := List.pairwise_cons.mp hlate
    rw [List.length_cons] at hroom
    cases hfix : fixed m with
    | some i =>
      obtain rfl := name_of_fixed hfix
      simp only [loadAll, load_fixed_of_not_taken req (hfixed i List.mem_cons_self), if_true]
      rw [ih hrest _ _ hlater]
      · intro j hj
        have hij : i ≠ j := by
          rintro rfl
          exact hm hj
        show ¬ Taken j (i.region :: k.regions)
        rw [taken_cons, not_or]
        exact ⟨not_overlaps_of_ne hij, hfixed j (List.mem_cons_of_mem _ hj)⟩
      · have hlen := length_freeMajors_le i.region k.regions
        exact Nat.le_of_succ_le_succ (Nat.le_trans hroom hlen)
    | none =>
      rcases load_dynamic req hfix k with
        ⟨hnil, _⟩ | ⟨r, rest, hfree, hminor, hcount, hok, hregions⟩
      · rw [hnil] at hroom
        simp at hroom
      · simp only [loadAll, hok, if_true]
        rw [ih hrest _ _ hlater]
        · intro j hj
          rw [hregions, taken_cons, not_or]
          refine ⟨fun hover => ?_, hfixed j (List.mem_cons_of_mem _ hj)⟩
          obtain ⟨_, hzero, hpos⟩ := overlaps_iff.mp hover
          have hnone := hlast j.name hj hfix ⟨hminor ▸ hzero, hcount ▸ hpos⟩
          rw [fixed_name] at hnone
          cases hnone
        · rw [hregions, freeMajors_of_head hfree rfl]
          rw [hfree, List.length_cons] at hroom
          omega

/-! ### An order in which a driver is not loaded -/

/-- Dynamic modules take the free majors from the top. -/
theorem freeMajors_tables {ms : List Module} (h : ∀ m ∈ ms, fixed m = none) (k : Kernel Module) :
    freeMajors (tables req ms k).regions = (freeMajors k.regions).drop ms.length := by
  induction ms generalizing k with
  | nil => rfl
  | cons m ms ih =>
    obtain ⟨hm, hms⟩ := List.forall_mem_cons.mp h
    have htail : freeMajors (load req m k).2.regions = (freeMajors k.regions).tail := by
      rcases load_dynamic req hm k with ⟨hnil, hload⟩ | ⟨r, rest, hfree, _, _, _, hregions⟩
      · rw [hload, hnil, List.tail_nil]
      · rw [hregions, freeMajors_of_head hfree rfl, hfree, List.tail_cons]
    calc freeMajors (tables req (m :: ms) k).regions
        = (freeMajors (load req m k).2.regions).drop ms.length := ih hms _
      _ = (freeMajors k.regions).drop (m :: ms).length := by
        rw [htail, List.drop_tail, List.length_cons]

/-- A free major comes after those above it. -/
theorem drop_freeAbove {g : Nat} {rs : List (Region Module)} (hg : g ∈ freeMajors rs) :
    ∃ rest, (freeMajors rs).drop (freeAbove g rs).length = g :: rest := by
  have hsorted := freeMajors_sorted rs
  unfold freeAbove
  generalize freeMajors rs = majors at hg hsorted
  induction majors with
  | nil => cases hg
  | cons x majors ih =>
    obtain ⟨hx, hsorted⟩ := List.pairwise_cons.mp hsorted
    rcases List.mem_cons.mp hg with rfl | hg
    · have hnone : majors.filter (fun m => decide (g < m)) = [] := by
        rw [List.filter_eq_nil_iff]
        intro m hm
        have := hx m hm
        simp only [decide_eq_true_eq]
        omega
      exact ⟨majors, by simp [hnone]⟩
    · have hgx : g < x := hx g hg
      obtain ⟨rest, hrest⟩ := ih hg hsorted
      exact ⟨rest, by simpa [hgx] using hrest⟩

/-- After as many dynamic modules as there are free majors above that of `i`, one
more with the minor 0 takes the number of `i`. -/
theorem not_mem_loadAll_of_crowd {i : Fixed} {pre post : List Module} {b : Module}
    {k : Kernel Module} (hfree : i.majorNum ∈ freeMajors k.regions)
    (hpre : ∀ m ∈ pre, fixed m = none) (hlen : pre.length = (freeAbove i.majorNum k.regions).length)
    (hb : fixed b = none) (hminor : (request req b).HasMinor0) :
    i.name ∉ loadAll req (pre ++ b :: post) k := by
  have htaken : Taken i (load req b (tables req pre k)).2.regions := by
    obtain ⟨rest, hrest⟩ := drop_freeAbove hfree
    rw [← hlen, ← freeMajors_tables req hpre k] at hrest
    rcases load_dynamic req hb (tables req pre k) with
      ⟨hnil, _⟩ | ⟨r, _, hhead, hbase, hcount, _, hregions⟩
    · rw [hnil] at hrest
      cases hrest
    · rw [hrest] at hhead
      obtain ⟨hmajor, _⟩ := List.cons.inj hhead
      rw [hregions, taken_cons, overlaps_iff]
      exact .inl ⟨hmajor.symm, hbase ▸ hminor.1, hcount ▸ hminor.2⟩
  have hdynamic : ∀ m, fixed m = none → m ≠ i.name := by
    rintro m hm rfl
    rw [fixed_name] at hm
    cases hm
  rw [loadAll_append, List.mem_append, not_or]
  constructor
  · exact fun hmem => hdynamic _ (hpre _ (loadAll_subset req pre k hmem)) rfl
  · have hpost := not_mem_loadAll_of_taken req htaken post
    simp only [loadAll]
    split
    · rw [List.mem_cons, not_or]
      exact ⟨(hdynamic b hb).symm, hpost⟩
    · exact hpost

/-! ### When the order makes no difference -/

/-- The same modules get loaded in every order. -/
def OrderFree (ms : List Module) (k : Kernel Module) : Prop :=
  ∀ xs ys, xs.Perm ms → ys.Perm ms → ∀ m, m ∈ loadAll req xs k ↔ m ∈ loadAll req ys k

/-- The dynamic modules of the set fit above each fixed major that is asked for,
or none of them takes the minor 0. -/
def Room (ms : List Module) (k : Kernel Module) : Prop :=
  (∀ i : Fixed, i.name ∈ ms →
    (dynamics ms).length ≤ (freeAbove i.majorNum k.regions).length) ∨
  ∀ m ∈ dynamics ms, ¬ (request req m).HasMinor0

theorem mem_dynamics {m : Module} {ms : List Module} :
    m ∈ dynamics ms ↔ m ∈ ms ∧ fixed m = none := by
  simp [dynamics]

/-- The modules in an order with the fixed majors in front. -/
def fixedFirst (ms : List Module) : List Module :=
  (ms.filter fun m => !decide (fixed m = none)) ++ dynamics ms

theorem fixedFirst_perm (ms : List Module) : (fixedFirst ms).Perm ms :=
  List.perm_append_comm.trans (List.filter_append_perm _ ms)

/-- Above the highest fixed major of the set there is room for its dynamic
modules. -/
theorem exists_bound {ms : List Module} {k : Kernel Module}
    (hsize : ms.length ≤ (freeMajors k.regions).length)
    (hroom : ∀ i : Fixed, i.name ∈ ms →
      (dynamics ms).length ≤ (freeAbove i.majorNum k.regions).length) :
    ∃ g, (∀ i : Fixed, i.name ∈ ms → i.majorNum ≤ g) ∧
      (dynamics ms).length ≤ (freeAbove g k.regions).length := by
  by_cases hbt : Fixed.bluetooth.name ∈ ms
  · exact ⟨252, fun i _ => by cases i <;> decide, hroom .bluetooth hbt⟩
  by_cases hwifi : Fixed.wifi.name ∈ ms
  · refine ⟨251, fun i hi => ?_, hroom .wifi hwifi⟩
    cases i with
    | can | wifi => decide
    | bluetooth => exact absurd hi hbt
  by_cases hcan : Fixed.can.name ∈ ms
  · refine ⟨250, fun i hi => ?_, hroom .can hcan⟩
    cases i with
    | can => decide
    | wifi => exact absurd hi hwifi
    | bluetooth => exact absurd hi hbt
  · refine ⟨0, fun i hi => ?_, ?_⟩
    · cases i with
      | can => exact absurd hi hcan
      | wifi => exact absurd hi hwifi
      | bluetooth => exact absurd hi hbt
    · have hall : freeAbove 0 k.regions = freeMajors k.regions := by
        unfold freeAbove
        rw [List.filter_eq_self]
        intro m hm
        have hpos : ∀ m ∈ dynMajors, 0 < m := by decide
        exact decide_eq_true (hpos m (List.mem_of_mem_filter hm))
      rw [hall]
      exact Nat.le_trans (List.length_filter_le _ ms) hsize

section

variable {ms : List Module} {k : Kernel Module}
  (hfree : ∀ i : Fixed, IsFree k.regions i.majorNum)

include hfree

/-- Without room, some order loses a driver. -/
theorem exists_crowd (hroom : ¬ Room req ms k) :
    ∃ i : Fixed, i.name ∈ ms ∧ ∃ xs, xs.Perm ms ∧ i.name ∉ loadAll req xs k := by
  simp only [Room, not_or, not_forall, Nat.not_le, not_not] at hroom
  obtain ⟨⟨i, hi, hcrowd⟩, b, hb, hminor⟩ := hroom
  let others := (dynamics ms).erase b
  let n := (freeAbove i.majorNum k.regions).length
  let late := ms.filter fun m => !decide (fixed m = none)
  have hperm : (others.take n ++ b :: (others.drop n ++ late)).Perm ms := by
    have hfront : (others.take n ++ b :: (others.drop n ++ late)).Perm (b :: others ++ late) := by
      refine List.perm_middle.trans (List.Perm.of_eq ?_)
      rw [← List.append_assoc, List.take_append_drop, List.cons_append]
    have hback : (b :: others ++ late).Perm (dynamics ms ++ late) :=
      (List.perm_cons_erase hb).symm.append_right late
    exact hfront.trans (hback.trans (List.filter_append_perm _ ms))
  refine ⟨i, hi, _, hperm, ?_⟩
  refine not_mem_loadAll_of_crowd req ?_ ?_ ?_ (mem_dynamics.mp hb).2 hminor
  · unfold freeMajors
    rw [List.mem_filter]
    exact ⟨by cases i <;> decide, by simpa using hfree i⟩
  · intro m hm
    exact (mem_dynamics.mp (List.mem_of_mem_erase (List.mem_of_mem_take hm))).2
  · have hlen : others.length = (dynamics ms).length - 1 := List.length_erase_of_mem hb
    rw [List.length_take]
    omega

variable (hnodup : ms.Nodup) (hsize : ms.length ≤ (freeMajors k.regions).length)

include hnodup hsize

/-- With room, everything is loaded in every order. -/
theorem loadAll_of_hasRoom (hroom : Room req ms k) {xs : List Module} (hxs : xs.Perm ms) :
    loadAll req xs k = xs := by
  have hnodup' : xs.Nodup := hxs.nodup_iff.mpr hnodup
  have hdyn : (dynamics xs).length = (dynamics ms).length := (hxs.filter _).length_eq
  rcases hroom with hroom | hlate
  · obtain ⟨g, hg, hlen⟩ := exists_bound hsize hroom
    refine loadAll_of_room req hnodup' (fun i hi => ⟨hg i (hxs.mem_iff.mp hi), hfree i⟩) ?_
    rwa [hdyn]
  · refine loadAll_of_late req hnodup' (fun i _ => not_taken_of_isFree (hfree i)) ?_ ?_
    · rwa [hxs.length_eq]
    · refine List.pairwise_of_forall_mem_list fun m hm m' _ hnone hminor => ?_
      exact absurd hminor (hlate m (mem_dynamics.mpr ⟨hxs.mem_iff.mp hm, hnone⟩))

/-- With the fixed majors in front, everything is loaded. -/
theorem loadAll_fixedFirst : loadAll req (fixedFirst ms) k = fixedFirst ms := by
  refine loadAll_of_late req ((fixedFirst_perm ms).nodup_iff.mpr hnodup)
    (fun i _ => not_taken_of_isFree (hfree i)) ?_ ?_
  · rwa [(fixedFirst_perm ms).length_eq]
  · unfold fixedFirst
    rw [List.pairwise_append]
    have hfixed : ∀ m ∈ ms.filter (fun m => !decide (fixed m = none)), fixed m ≠ none := by
      simp
    refine ⟨?_, ?_, fun m hm _ _ hnone => absurd hnone (hfixed m hm)⟩
    · exact List.pairwise_of_forall_mem_list fun m hm _ _ hnone => absurd hnone (hfixed m hm)
    · exact List.pairwise_of_forall_mem_list fun _ _ m' hm' _ _ => (mem_dynamics.mp hm').2

/-- From tables in which 250, 251 and 252 are free, a set of modules with a free
major for each ends up the same in every order if and only if there is room, and
then all of it is loaded in every order. -/
theorem order_free_iff :
    (OrderFree req ms k ↔ Room req ms k) ∧
    (Room req ms k → ∀ xs, xs.Perm ms → loadAll req xs k = xs) := by
  refine ⟨⟨fun hsame => ?_, fun hroom xs ys hxs hys m => ?_⟩,
    fun hroom xs hxs => loadAll_of_hasRoom req hfree hnodup hsize hroom hxs⟩
  · by_contra hroom
    obtain ⟨i, hi, xs, hxs, hnot⟩ := exists_crowd req hfree hroom
    have hfirst := fixedFirst_perm ms
    have hmem : i.name ∈ loadAll req (fixedFirst ms) k := by
      rw [loadAll_fixedFirst req hfree hnodup hsize]
      exact hfirst.mem_iff.mpr hi
    exact hnot ((hsame _ _ hfirst hxs i.name).mp hmem)
  · rw [loadAll_of_hasRoom req hfree hnodup hsize hroom hxs,
      loadAll_of_hasRoom req hfree hnodup hsize hroom hys, hxs.mem_iff, hys.mem_iff]

end

end

/-- Bluetooth and two dynamic modules: on empty tables there is room for both above
252, so the order makes no difference. -/
theorem order_free_of_two : OrderFree (fun _ => ⟨0, 1⟩) [.bluetooth, .etx, .esp32] {} := by
  refine (order_free_iff (fun _ => ⟨0, 1⟩) ?_ ?_ ?_).1.mpr ?_
  · simp [IsFree]
  · decide
  · decide
  · exact .inl fun i _ => by cases i <;> decide

/-- Bluetooth is loaded before three dynamic modules and is not after them. -/
theorem bluetooth_last :
    let req : Nat → Request := fun _ => ⟨0, 1⟩
    let ms : List Module := [.bluetooth, .etx, .esp32, .i2cChar]
    let late : List Module := [.etx, .esp32, .i2cChar, .bluetooth]
    loadAll req ms {} = ms ∧ loadAll req late {} = [.etx, .esp32, .i2cChar] ∧
      ¬ OrderFree req ms {} := by
  intro req ms late
  have hms : loadAll req ms {} = ms := by decide
  have hlate : loadAll req late {} = [.etx, .esp32, .i2cChar] := by decide
  refine ⟨hms, hlate, fun hsame => ?_⟩
  have hperm : late.Perm ms := by decide
  have hmem := (hsame ms late (List.Perm.refl ms) hperm .bluetooth).mp (by rw [hms]; decide)
  rw [hlate] at hmem
  revert hmem
  decide

end DeviceDrivers.LoadOrder
