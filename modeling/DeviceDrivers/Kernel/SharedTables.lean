import DeviceDrivers.Kernel.Tables
import DeviceDrivers.Lib.Interleave
import DeviceDrivers.Lib.OwnedTable

/-!
# Kernel tables that several modules change

Any number of modules make their calls in any order. `Held` is what one of them
has registered, `registering` the contract of its calls: it adds its own entries
and takes back only what it has.

1. `Shared`: the tables are put together from what the modules hold and what
   others have registered. No region overlaps one that a module holds, and the
   numbers of a module are served by its cdev.
2. `sound`: the kernel honours the contract. In particular a cdev that a module
   has left behind does not serve the numbers of another one.
-/

namespace DeviceDrivers

/-! ## The contract -/

/-- What a module has registered. `stale` are the cdevs that were still there when
it gave their numbers back. -/
structure Held (M : Type) where
  region : Option (Region M) := none
  cdev : Option (Cdev M) := none
  stale : List (Cdev M) := []
  cls : Option (Class M) := none
  node : Option (Node M) := none
  i2cDriver : Option (I2cDriver M) := none

namespace Held

variable {M : Type}

/-- The region is the range of `n` numbers at `dev`. -/
def Has (p : Held M) (dev : Dev) (n : Nat) : Prop :=
  ∃ r, p.region = some r ∧ r.dev = dev ∧ r.count = n

/-- What is left when the numbers are given back. -/
def withoutRegion (p : Held M) : Held M :=
  { p with region := none, cdev := none, stale := p.cdev.toList ++ p.stale }

/-- The module `m` may make a call when it has what the call takes away, and has
not yet what it adds. -/
def May (m : M) : KCall M → Held M → Prop
  | .allocChrdevRegion owner _ n _, p | .registerChrdevRegion owner _ n _, p =>
    owner = m ∧ 0 < n ∧ p.region = none
  | .unregisterChrdevRegion dev n, p => p.Has dev n
  | .cdevAdd c dev n, p => c.ops.driver = m ∧ p.cdev = none ∧ p.Has dev n
  | .cdevDel c, p => p.cdev = some c
  | .classCreate owner _, p => owner = m ∧ p.cls = none
  | .classDestroy cls, p => p.cls = some cls
  | .deviceCreate cls _ _, p => cls.owner = m ∧ p.node = none
  | .deviceDestroy cls dev, p => cls.owner = m ∧ ∀ n, p.node = some n → n.cls = cls ∧ n.dev = dev
  | .i2cAddDriver d, p => d.owner = m ∧ p.i2cDriver = none
  | .i2cDelDriver d, p => p.i2cDriver = some d
  | .spiBusFindDevice .., _ | .cdevAlloc, _ | .kobjectPut _, _ | .derefCdev _, _ => True

/-- What a module then gets, and has. A call that fails leaves what it has. -/
def Gets : (c : KCall M) → Held M → c.Res → Held M → Prop
  | .allocChrdevRegion owner minor n name, p, .ok dev, p' =>
    dev.minor = minor ∧ p' = { p with region := some ⟨owner, name, dev, n⟩ }
  | .registerChrdevRegion owner dev n name, p, .ok (), p' =>
    p' = { p with region := some ⟨owner, name, dev, n⟩ }
  | .unregisterChrdevRegion _ _, p, _, p' => p' = p.withoutRegion
  | .cdevAdd c dev n, p, .ok c', p' =>
    c' = { c with dev, count := n } ∧ p' = { p with cdev := some c' }
  | .cdevDel _, p, _, p' => p' = { p with cdev := none }
  | .classCreate owner name, p, .ok cls, p' =>
    cls = ⟨owner, name⟩ ∧ p' = { p with cls := some cls }
  | .classDestroy _, p, _, p' => p' = { p with cls := none }
  | .deviceCreate cls dev name, p, .ok n, p' =>
    n = ⟨cls, dev, name⟩ ∧ p' = { p with node := some n }
  | .deviceDestroy _ _, p, _, p' => p' = { p with node := none }
  | .i2cAddDriver d, p, .ok (), p' => p' = { p with i2cDriver := some d }
  | .i2cDelDriver _, p, _, p' => p' = { p with i2cDriver := none }
  | _, p, _, p' => p' = p

end Held

def registering {M : Type} (m : M) : Contract (KCall M) KCall.Res (Held M) :=
  ⟨Held.May m, Held.Gets⟩

/-! ## Tables put together from what is held -/

/-- Two regions that share a number overlap. -/
theorem Region.overlaps_of_covers {M : Type} {r r' : Region M} {d : Dev} (h : r.covers d = true)
    (h' : r'.covers d = true) : r.overlaps r' = true := by
  simp only [covers, overlaps, Bool.and_eq_true, beq_iff_eq, decide_eq_true_eq] at h h' ⊢
  obtain ⟨⟨hmajor, hlow⟩, hhigh⟩ := h
  obtain ⟨⟨hmajor', hlow'⟩, hhigh'⟩ := h'
  exact ⟨⟨hmajor.trans hmajor'.symm, Nat.lt_of_le_of_lt hlow hhigh'⟩,
    Nat.lt_of_le_of_lt hlow' hhigh⟩

theorem Region.overlaps_comm {M : Type} (r r' : Region M) : r.overlaps r' = r'.overlaps r := by
  rw [Bool.eq_iff_iff]
  simp only [overlaps, Bool.and_eq_true, beq_iff_eq, decide_eq_true_eq]
  exact ⟨fun h => ⟨⟨h.1.1.symm, h.2⟩, h.1.2⟩, fun h => ⟨⟨h.1.1.symm, h.2⟩, h.1.2⟩⟩

section

variable {I M : Type} [DecidableEq M]

/-- Each table has the entries of `k₀`, which are foreign, and those that the
modules hold. -/
structure Entries (name : I → M) (foreign : M → Bool) (k₀ : Kernel M) (hs : I → Held M)
    (k : Kernel M) : Prop where
  regions : OwnedTable Region.owner name foreign k₀.regions
    (fun i => (hs i).region.toList) k.regions
  cdevs : OwnedTable (fun c : Cdev M => c.ops.driver) name foreign k₀.cdevs
    (fun i => (hs i).cdev.toList ++ (hs i).stale) k.cdevs
  classes : OwnedTable Class.owner name foreign k₀.classes (fun i => (hs i).cls.toList) k.classes
  nodes : OwnedTable (fun n : Node M => n.cls.owner) name foreign k₀.nodes
    (fun i => (hs i).node.toList) k.nodes
  i2cDrivers : OwnedTable I2cDriver.owner name foreign k₀.i2cDrivers
    (fun i => (hs i).i2cDriver.toList) k.i2cDrivers

/-- A region that a module holds overlaps no other one. -/
def Exclusive (hs : I → Held M) (k : Kernel M) : Prop :=
  ∀ i r, (hs i).region = some r → 0 < r.count ∧ ∀ r' ∈ k.regions, r.overlaps r' = true → r' = r

/-- A cdev that a module holds serves the numbers of its region. -/
def Serving (hs : I → Held M) (k : Kernel M) : Prop :=
  ∀ i c, (hs i).cdev = some c → ∃ r, (hs i).region = some r ∧ c.dev = r.dev ∧
    c.count = r.count ∧ ∀ d, r.covers d = true → k.cdevOf d = some c

structure Shared (name : I → M) (foreign : M → Bool) (k₀ : Kernel M) (hs : I → Held M)
    (k : Kernel M) : Prop where
  entries : Entries name foreign k₀ hs k
  exclusive : Exclusive hs k
  serving : Serving hs k

variable {name : I → M} {foreign : M → Bool} {k₀ k k' : Kernel M} {hs : I → Held M}

namespace Shared

/-- A region that a module holds is the one with its number and size. -/
theorem find_region (h : Shared name foreign k₀ hs k) {i : I} {r : Region M}
    (hr : (hs i).region = some r) :
    k.regions.find? (fun r' => r'.dev == r.dev && r'.count == r.count) = some r := by
  have hmem : r ∈ k.regions := (h.entries.regions.mem_of_own (i := i) (by simp [hr])).1
  refine FirstMatch.find?_of_only hmem (by simp) fun r' hr' hkey => ?_
  obtain ⟨hpos, honly⟩ := h.exclusive i r hr
  simp only [Bool.and_eq_true, beq_iff_eq] at hkey
  refine honly r' hr' ?_
  simp only [Region.overlaps, hkey.1, hkey.2, beq_self_eq_true, Bool.true_and, Bool.and_eq_true,
    decide_eq_true_eq]
  omega

/-- A number of one module's region is not in another one's. -/
theorem not_covers (hn : Naming name foreign) (h : Shared name foreign k₀ hs k) {i j : I}
    (hij : j ≠ i) {r r' : Region M} (hr : (hs i).region = some r) (hr' : (hs j).region = some r')
    {d : Dev} (hd : r'.covers d = true) : r.covers d = false := by
  cases hcovers : r.covers d with
  | false => rfl
  | true =>
    have hmem := h.entries.regions.mem_of_own (i := j) (e := r') (by simp [hr'])
    have heq := (h.exclusive i r hr).2 r' hmem.1 (Region.overlaps_of_covers hcovers hd)
    have howner := (h.entries.regions.mem_of_own (i := i) (e := r) (by simp [hr])).2
    rw [heq, howner] at hmem
    exact absurd (hn.inj hmem.2).symm hij

/-- The cdev of a module is the first one with its number and size. -/
theorem find_cdev (h : Shared name foreign k₀ hs k) {i : I} {c : Cdev M}
    (hc : (hs i).cdev = some c) :
    k.cdevs.find? (fun c' => c'.dev == c.dev && c'.count == c.count) = some c := by
  obtain ⟨r, hr, hdev, hcount, hserves⟩ := h.serving i c hc
  have hpos := (h.exclusive i r hr).1
  have hfound : k.cdevOf r.dev = some c := hserves r.dev (by simp [Region.covers, hpos])
  refine FirstMatch.find?_narrow hfound (fun c' hkey => ?_) (by simp)
  simp only [Bool.and_eq_true, beq_iff_eq] at hkey
  simp [Cdev.covers, hkey.1, hkey.2, hdev, hcount, hpos]

end Shared

/-! ## What one call does -/

variable [DecidableEq I]

/-- The five tables after a call of the module `i`, which then has `p`. -/
theorem Entries.update {i : I} {p : Held M}
    (regions : OwnedTable Region.owner name foreign k₀.regions
      (Function.update (fun j => (hs j).region.toList) i p.region.toList) k'.regions)
    (cdevs : OwnedTable (fun c : Cdev M => c.ops.driver) name foreign k₀.cdevs
      (Function.update (fun j => (hs j).cdev.toList ++ (hs j).stale) i (p.cdev.toList ++ p.stale))
      k'.cdevs)
    (classes : OwnedTable Class.owner name foreign k₀.classes
      (Function.update (fun j => (hs j).cls.toList) i p.cls.toList) k'.classes)
    (nodes : OwnedTable (fun n : Node M => n.cls.owner) name foreign k₀.nodes
      (Function.update (fun j => (hs j).node.toList) i p.node.toList) k'.nodes)
    (i2cDrivers : OwnedTable I2cDriver.owner name foreign k₀.i2cDrivers
      (Function.update (fun j => (hs j).i2cDriver.toList) i p.i2cDriver.toList) k'.i2cDrivers) :
    Entries name foreign k₀ (Function.update hs i p) k' where
  regions := by
    rw [update_field fun p : Held M => p.region.toList]
    exact regions
  cdevs := by
    rw [update_field fun p : Held M => p.cdev.toList ++ p.stale]
    exact cdevs
  classes := by
    rw [update_field fun p : Held M => p.cls.toList]
    exact classes
  nodes := by
    rw [update_field fun p : Held M => p.node.toList]
    exact nodes
  i2cDrivers := by
    rw [update_field fun p : Held M => p.i2cDriver.toList]
    exact i2cDrivers

omit [DecidableEq M] in
theorem Exclusive.update (h : Exclusive hs k) {i : I} {p : Held M}
    (hmine : ∀ r, p.region = some r →
      0 < r.count ∧ ∀ r' ∈ k'.regions, r.overlaps r' = true → r' = r)
    (hothers : ∀ j, j ≠ i → ∀ r, (hs j).region = some r → ∀ r' ∈ k'.regions,
      r.overlaps r' = true → r' ∈ k.regions) : Exclusive (Function.update hs i p) k' := by
  intro j r hr
  by_cases hj : j = i
  · subst hj
    exact hmine r (by simpa using hr)
  · rw [Function.update_of_ne hj] at hr
    obtain ⟨hpos, honly⟩ := h j r hr
    exact ⟨hpos, fun r' hr' hover => honly r' (hothers j hj r hr r' hr' hover) hover⟩

omit [DecidableEq M] in
theorem Serving.update (h : Serving hs k) {i : I} {p : Held M}
    (hmine : ∀ c, p.cdev = some c → ∃ r, p.region = some r ∧ c.dev = r.dev ∧ c.count = r.count ∧
      ∀ d, r.covers d = true → k'.cdevOf d = some c)
    (hothers : ∀ j, j ≠ i → ∀ r, (hs j).region = some r → ∀ d, r.covers d = true →
      k'.cdevOf d = k.cdevOf d) : Serving (Function.update hs i p) k' := by
  intro j c hc
  by_cases hj : j = i
  · subst hj
    rw [Function.update_self] at hc ⊢
    exact hmine c hc
  · rw [Function.update_of_ne hj] at hc ⊢
    obtain ⟨r, hr, hdev, hcount, hserves⟩ := h j c hc
    refine ⟨r, hr, hdev, hcount, fun d hd => ?_⟩
    rw [hothers j hj r hr d hd]
    exact hserves d hd

namespace Shared

section

variable (hn : Naming name foreign) (h : Shared name foreign k₀ hs k) {i : I}

/-- A call that changes neither regions nor cdevs. -/
theorem of_entries (h : Shared name foreign k₀ hs k) {p : Held M}
    (hregion : p.region = (hs i).region) (hcdev : p.cdev = (hs i).cdev)
    (hregions : k'.regions = k.regions) (hcdevs : k'.cdevs = k.cdevs)
    (hentries : Entries name foreign k₀ (Function.update hs i p) k') :
    Shared name foreign k₀ (Function.update hs i p) k' where
  entries := hentries
  exclusive := by
    refine h.exclusive.update (fun r hr => ?_) fun _ _ _ _ r' hr' _ => hregions ▸ hr'
    rw [hregions]
    exact h.exclusive i r (hregion ▸ hr)
  serving := by
    refine h.serving.update (fun c hc => ?_) fun _ _ _ _ d _ => ?_
    · obtain ⟨r, hr, hdev, hcount, hserves⟩ := h.serving i c (hcdev ▸ hc)
      refine ⟨r, hregion ▸ hr, hdev, hcount, fun d hd => ?_⟩
      rw [Kernel.cdevOf, hcdevs]
      exact hserves d hd
    · rw [Kernel.cdevOf, hcdevs]
      rfl

include hn h

theorem addRegion {r : Region M} (howner : r.owner = name i) (hpos : 0 < r.count)
    (hnone : (hs i).region = none) (hfree : k.regions.any r.overlaps = false) :
    Shared name foreign k₀ (Function.update hs i { hs i with region := some r })
      { k with regions := r :: k.regions } where
  entries := by
    refine .update ?_ (h.entries.cdevs.same rfl) (h.entries.classes.same rfl)
      (h.entries.nodes.same rfl) (h.entries.i2cDrivers.same rfl)
    simpa [hnone] using h.entries.regions.add hn howner
  exclusive := by
    rw [List.any_eq_false] at hfree
    refine h.exclusive.update (fun r' hr' => ?_) fun j _ r' hr' r'' hmem hover => ?_
    · obtain rfl := Option.some.inj hr'
      refine ⟨hpos, fun r'' hmem hover => ?_⟩
      rcases List.mem_cons.mp hmem with rfl | hmem
      · rfl
      · exact absurd hover (hfree r'' hmem)
    · rcases List.mem_cons.mp hmem with rfl | hmem
      · have hin := (h.entries.regions.mem_of_own (i := j) (e := r') (by simp [hr'])).1
        rw [Region.overlaps_comm] at hover
        exact absurd hover (hfree r' hin)
      · exact hmem
  serving := by
    refine h.serving.update (fun c hc => ?_) fun _ _ _ _ _ _ => rfl
    obtain ⟨r', hr', -⟩ := h.serving i c hc
    rw [hnone] at hr'
    cases hr'

theorem delRegion {r : Region M} (hr : (hs i).region = some r) :
    Shared name foreign k₀ (Function.update hs i (hs i).withoutRegion)
      (k.delRegion r.dev r.count) where
  entries := by
    refine .update ?_ (h.entries.cdevs.same ?_) (h.entries.classes.same rfl)
      (h.entries.nodes.same rfl) (h.entries.i2cDrivers.same rfl)
    · have howner := (h.entries.regions.mem_of_own (i := i) (e := r) (by simp [hr])).2
      have hown : (hs i).region.toList = r :: [] := by simp [hr]
      exact h.entries.regions.remove hn howner hown (h.find_region hr)
    · simp [Held.withoutRegion]
  exclusive := by
    refine h.exclusive.update (fun r' hr' => by cases hr') fun j _ r' hr' r'' hmem _ => ?_
    exact List.mem_of_mem_eraseP hmem
  serving := h.serving.update (fun c hc => by cases hc) fun _ _ _ _ _ _ => rfl

theorem addCdev {r : Region M} {c : Cdev M} (hdriver : c.ops.driver = name i)
    (hr : (hs i).region = some r) (hdev : c.dev = r.dev) (hcount : c.count = r.count)
    (hnone : (hs i).cdev = none) :
    Shared name foreign k₀ (Function.update hs i { hs i with cdev := some c })
      { k with cdevs := c :: k.cdevs } where
  entries := by
    refine .update (h.entries.regions.same rfl) ?_ (h.entries.classes.same rfl)
      (h.entries.nodes.same rfl) (h.entries.i2cDrivers.same rfl)
    simpa [hnone] using h.entries.cdevs.add hn hdriver
  exclusive := h.exclusive.update (fun r' hr' => h.exclusive i r' hr') fun _ _ _ _ _ hmem _ => hmem
  serving := by
    have hcovers : ∀ d, c.covers d = r.covers d := by
      intro d
      simp only [Cdev.covers, Region.covers, hdev, hcount]
    refine h.serving.update (fun c' hc' => ?_) fun j hj r' hr' d hd => ?_
    · obtain rfl := Option.some.inj hc'
      refine ⟨r, hr, hdev, hcount, fun d hd => ?_⟩
      rw [Kernel.cdevOf, List.find?_cons_of_pos]
      rw [hcovers, hd]
    · rw [Kernel.cdevOf, List.find?_cons_of_neg]
      · rfl
      · simp [hcovers, h.not_covers hn hj hr hr' hd]

theorem delCdev {c : Cdev M} (hc : (hs i).cdev = some c) :
    Shared name foreign k₀ (Function.update hs i { hs i with cdev := none })
      (k.delCdev c.dev c.count) where
  entries := by
    refine .update (h.entries.regions.same rfl) ?_ (h.entries.classes.same rfl)
      (h.entries.nodes.same rfl) (h.entries.i2cDrivers.same rfl)
    have hdriver := (h.entries.cdevs.mem_of_own (i := i) (e := c) (by simp [hc])).2
    exact h.entries.cdevs.remove hn hdriver (by simp [hc]) (h.find_cdev hc)
  exclusive := h.exclusive.update (fun r' hr' => h.exclusive i r' hr') fun _ _ _ _ _ hmem _ => hmem
  serving := by
    obtain ⟨r, hr, hdev, hcount, -⟩ := h.serving i c hc
    refine h.serving.update (fun c' hc' => by cases hc') fun j hj r' hr' d hd => ?_
    -- A cdev with the number of `c` does not cover the number of another module.
    refine FirstMatch.find?_eraseP (fun c' hkey => ?_) k.cdevs
    simp only [Bool.and_eq_true, beq_iff_eq] at hkey
    have hnot := h.not_covers hn hj hr hr' hd
    simpa only [Cdev.covers, Region.covers, hkey.1, hkey.2, hdev, hcount] using hnot

/-! The tables in which nothing depends on the numbers. -/

theorem addClass {cls : Class M} (howner : cls.owner = name i) (hnone : (hs i).cls = none) :
    Shared name foreign k₀ (Function.update hs i { hs i with cls := some cls })
      { k with classes := cls :: k.classes } := by
  refine h.of_entries rfl rfl rfl rfl (.update (h.entries.regions.same rfl)
    (h.entries.cdevs.same rfl) ?_ (h.entries.nodes.same rfl) (h.entries.i2cDrivers.same rfl))
  simpa [hnone] using h.entries.classes.add hn howner

theorem delClass {cls : Class M} (hcls : (hs i).cls = some cls) :
    Shared name foreign k₀ (Function.update hs i { hs i with cls := none }) (k.delClass cls) := by
  refine h.of_entries rfl rfl rfl rfl (.update (h.entries.regions.same rfl)
    (h.entries.cdevs.same rfl) ?_ (h.entries.nodes.same rfl) (h.entries.i2cDrivers.same rfl))
  have hmem := h.entries.classes.mem_of_own (i := i) (e := cls) (by simp [hcls])
  have hown : (hs i).cls.toList = cls :: [] := by simp [hcls]
  refine h.entries.classes.remove hn hmem.2 hown ?_
  exact FirstMatch.find?_of_only hmem.1 (by simp) fun c _ hkey => by simpa using hkey

theorem addNode {n : Node M} (howner : n.cls.owner = name i) (hnone : (hs i).node = none) :
    Shared name foreign k₀ (Function.update hs i { hs i with node := some n })
      { k with nodes := n :: k.nodes } := by
  refine h.of_entries rfl rfl rfl rfl (.update (h.entries.regions.same rfl)
    (h.entries.cdevs.same rfl) (h.entries.classes.same rfl) ?_ (h.entries.i2cDrivers.same rfl))
  simpa [hnone] using h.entries.nodes.add hn howner

/-- Taking a node away, also where `device_create` had failed. -/
theorem delNode {cls : Class M} {dev : Dev} (howner : cls.owner = name i)
    (hnode : ∀ n, (hs i).node = some n → n.cls = cls ∧ n.dev = dev) :
    Shared name foreign k₀ (Function.update hs i { hs i with node := none })
      (k.delNode cls dev) := by
  refine h.of_entries rfl rfl rfl rfl (.update (h.entries.regions.same rfl)
    (h.entries.cdevs.same rfl) (h.entries.classes.same rfl) ?_ (h.entries.i2cDrivers.same rfl))
  have hkey : ∀ n ∈ k.nodes, (n.cls == cls && n.dev == dev) = true → n ∈ (hs i).node.toList := by
    intro n hn' hkey
    simp only [Bool.and_eq_true, beq_iff_eq] at hkey
    exact h.entries.nodes.mem_own hn' (by rw [hkey.1, howner])
  cases hheld : (hs i).node with
  | none =>
    have hsame : k.nodes.eraseP (fun n => n.cls == cls && n.dev == dev) = k.nodes := by
      refine List.eraseP_of_forall_not fun n hmem hn' => ?_
      simpa [hheld] using hkey n hmem hn'
    simp only [Kernel.delNode, hsame]
    exact h.entries.nodes.same (by simp [hheld])
  | some n =>
    obtain ⟨hcls, hdev⟩ := hnode n hheld
    have hmem := h.entries.nodes.mem_of_own (i := i) (e := n) (by simp [hheld])
    have hown : (hs i).node.toList = n :: [] := by simp [hheld]
    refine h.entries.nodes.remove hn hmem.2 hown ?_
    refine FirstMatch.find?_of_only hmem.1 (by simp [hcls, hdev]) fun n' hn' hkey' => ?_
    simpa [hheld] using hkey n' hn' hkey'

theorem addI2cDriver {d : I2cDriver M} (howner : d.owner = name i)
    (hnone : (hs i).i2cDriver = none) :
    Shared name foreign k₀ (Function.update hs i { hs i with i2cDriver := some d })
      { k with i2cDrivers := d :: k.i2cDrivers } := by
  refine h.of_entries rfl rfl rfl rfl (.update (h.entries.regions.same rfl)
    (h.entries.cdevs.same rfl) (h.entries.classes.same rfl) (h.entries.nodes.same rfl) ?_)
  simpa [hnone] using h.entries.i2cDrivers.add hn howner

theorem delI2cDriver {d : I2cDriver M} (hd : (hs i).i2cDriver = some d) :
    Shared name foreign k₀ (Function.update hs i { hs i with i2cDriver := none })
      (k.delI2cDriver d) := by
  refine h.of_entries rfl rfl rfl rfl (.update (h.entries.regions.same rfl)
    (h.entries.cdevs.same rfl) (h.entries.classes.same rfl) (h.entries.nodes.same rfl) ?_)
  have hmem := h.entries.i2cDrivers.mem_of_own (i := i) (e := d) (by simp [hd])
  have hown : (hs i).i2cDriver.toList = d :: [] := by simp [hd]
  refine h.entries.i2cDrivers.remove hn hmem.2 hown ?_
  exact FirstMatch.find?_of_only hmem.1 (by simp) fun d' _ hkey => by simpa using hkey

omit hn in
/-- A call that touches no table. -/
theorem keep {k' : Kernel M}
    (hk : k' = { k with spiRefs := k'.spiRefs, nullDerefs := k'.nullDerefs }) :
    Shared name foreign k₀ (Function.update hs i (hs i)) k' := by
  rw [Function.update_eq_self, hk]
  exact ⟨⟨h.entries.regions, h.entries.cdevs, h.entries.classes, h.entries.nodes,
    h.entries.i2cDrivers⟩, h.exclusive, h.serving⟩

end

/-- The kernel honours the contract of every module, in any order of their calls. -/
theorem sound (hn : Naming name foreign) (k₀ : Kernel M) :
    Sound (fun i => registering (name i)) (fun _ : I => kcall) (Shared name foreign k₀) := by
  intro hs k i c o h hmay
  cases c with
  | allocChrdevRegion owner minor n regionName =>
    obtain ⟨howner, hpos, hnone⟩ := hmay
    rcases k.allocRegion_cases o owner minor n regionName with
      ⟨e, halloc⟩ | ⟨major, -, hfree, halloc⟩
    · simp only [kcall, halloc]
      exact ⟨hs i, rfl, h.keep rfl⟩
    · simp only [kcall, halloc]
      exact ⟨_, ⟨rfl, rfl⟩, h.addRegion hn howner hpos hnone hfree⟩
  | registerChrdevRegion owner dev n regionName =>
    obtain ⟨howner, hpos, hnone⟩ := hmay
    rcases k.registerRegion_cases o ⟨owner, regionName, dev, n⟩ with
      ⟨e, -, hregister⟩ | ⟨-, hfree, hregister⟩
    · simp only [kcall, hregister]
      exact ⟨hs i, rfl, h.keep rfl⟩
    · simp only [kcall, hregister]
      exact ⟨_, rfl, h.addRegion hn howner hpos hnone hfree⟩
  | unregisterChrdevRegion dev n =>
    obtain ⟨r, hr, rfl, rfl⟩ := hmay
    exact ⟨_, rfl, h.delRegion hn hr⟩
  | cdevAdd cdev dev n =>
    obtain ⟨hdriver, hnone, r, hr, rfl, rfl⟩ := hmay
    cases ho : o.cdevAdd with
    | some e =>
      simp only [kcall, ho, attempt_some]
      exact ⟨hs i, rfl, h.keep rfl⟩
    | none =>
      simp only [kcall, ho, attempt_none]
      exact ⟨_, ⟨rfl, rfl⟩, h.addCdev hn hdriver hr rfl rfl hnone⟩
  | cdevDel cdev => exact ⟨_, rfl, h.delCdev hn hmay⟩
  | classCreate owner className =>
    obtain ⟨howner, hnone⟩ := hmay
    cases ho : o.classCreate with
    | some e =>
      simp only [kcall, ho, attempt_some]
      exact ⟨hs i, rfl, h.keep rfl⟩
    | none =>
      simp only [kcall, ho, attempt_none]
      exact ⟨_, ⟨rfl, rfl⟩, h.addClass hn howner hnone⟩
  | classDestroy cls => exact ⟨_, rfl, h.delClass hn hmay⟩
  | deviceCreate cls dev nodeName =>
    obtain ⟨howner, hnone⟩ := hmay
    cases ho : o.deviceCreate with
    | some e =>
      simp only [kcall, ho, attempt_some]
      exact ⟨hs i, rfl, h.keep rfl⟩
    | none =>
      simp only [kcall, ho, attempt_none]
      exact ⟨_, ⟨rfl, rfl⟩, h.addNode hn howner hnone⟩
  | deviceDestroy cls dev => exact ⟨_, rfl, h.delNode hn hmay.1 hmay.2⟩
  | i2cAddDriver d =>
    obtain ⟨howner, hnone⟩ := hmay
    cases ho : o.i2cAddDriver with
    | some e =>
      simp only [kcall, ho, attempt_some]
      exact ⟨hs i, rfl, h.keep rfl⟩
    | none =>
      simp only [kcall, ho, attempt_none]
      exact ⟨_, rfl, h.addI2cDriver hn howner hnone⟩
  | i2cDelDriver d => exact ⟨_, rfl, h.delI2cDriver hn hmay⟩
  | spiBusFindDevice busId deviceId =>
    refine ⟨hs i, rfl, h.keep ?_⟩
    simp only [kcall]
    split <;> rfl
  | cdevAlloc | kobjectPut _ => exact ⟨hs i, rfl, h.keep rfl⟩
  | derefCdev p =>
    refine ⟨hs i, rfl, h.keep ?_⟩
    cases p <;> rfl

end Shared

end

end DeviceDrivers
