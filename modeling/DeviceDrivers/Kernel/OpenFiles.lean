import DeviceDrivers.Kernel.AllModules
import Mathlib.Data.Fintype.Defs

/-!
# Open files while modules come and go

The machine of `AllModules` with the open files of all processes. An open works between
any two calls of an init or exit. It pins the modules that the cdev names, and fails when
one of them is on its way out; a pinned module is not unloaded.

A driver publishes last when no call of its init comes after a `cdev_add` that works, and
its cdev names it. `handlers_loaded`: the functions of such a driver run only while it is
loaded.
-/

namespace DeviceDrivers

/-- The init has worked, and no exit has begun. -/
def Phase.Loaded {M σ : Type} : Phase M σ → Prop
  | .live _ | .initing (.ret (.ok _)) => True
  | _ => False

/-! ## The machine -/

structure FileSys (I M : Type) (σ : I → Type) where
  sys : ModSys I M σ
  files : List (File M)

/-- `use id op` is a read, write or ioctl on an open file. -/
inductive FileAct (I M : Type)
  | mod (a : ModAct I M)
  | open (id : Nat) (d : Dev)
  | use (id : Nat) (op : FileOp)
  | close (id : Nat)

namespace FileSys

variable {I M : Type} {σ : I → Type}

def boot (k : Kernel M) : FileSys I M σ := ⟨.boot k, []⟩

def file (s : FileSys I M σ) (id : Nat) : Option (File M) := s.files.find? fun f => f.id == id

def Pinned (s : FileSys I M σ) (m : M) : Prop := ∃ f ∈ s.files, m ∈ f.pins

variable [DecidableEq M]

instance (s : FileSys I M σ) (m : M) : Decidable (s.Pinned m) := by
  unfold Pinned; infer_instance

variable [Fintype I] (name : I → M)

/-- One of the modules that the cdev names is on its way out. -/
def Going (s : FileSys I M σ) (c : Cdev M) : Prop :=
  ∃ i, name i ∈ c.pins ∧ (s.sys.phase i).going = true

instance (s : FileSys I M σ) (c : Cdev M) : Decidable (s.Going name c) := by
  unfold Going; infer_instance

def opening (s : FileSys I M σ) (id : Nat) (d : Dev) : Option (Cdev M) :=
  s.sys.kernel.opening s.files (s.Going name) id d

/-- The driver function that an action calls. -/
def dispatch (s : FileSys I M σ) : FileAct I M → Option (Handler M)
  | .open id d => (s.opening name id d).bind fun c => c.ops.slot .open
  | .use id op => (s.file id).bind fun f => f.fops.slot op
  | .close id => (s.file id).bind fun f => f.fops.slot .release
  | .mod _ => none

variable [DecidableEq I] (drv : (i : I) → Driver M (σ i))

def step (s : FileSys I M σ) : FileAct I M → FileSys I M σ
  | .mod (.rmmod i) =>
    if s.Pinned (name i) then s else { s with sys := s.sys.step drv (.rmmod i) }
  | .mod a => { s with sys := s.sys.step drv a }
  | .open id d =>
    match s.opening name id d with
    | none => s
    | some c => { s with files := ⟨id, c.ops, c.pins⟩ :: s.files }
  | .use _ _ => s
  | .close id => { s with files := s.files.filter fun f => f.id != id }

end FileSys

/-! ## Publishing last -/

/-- No call comes after a `cdev_add` that worked, and the cdev names the module. The part
is whether there was one. -/
def publishing {M : Type} (m : M) : Contract (KCall M) KCall.Res Bool where
  may c isPublic := isPublic = false ∧
    match c with
    | .cdevAdd cdev _ _ => cdev.ops.owner = some m
    | _ => True
  gets c isPublic r isPublic' := isPublic' =
    match c, r with
    | .cdevAdd .., .ok _ => true
    | _, _ => isPublic

/-- An exit adds no cdev. -/
def withdrawing {M : Type} : Contract (KCall M) KCall.Res Unit where
  may c _ :=
    match c with
    | .cdevAdd .. => False
    | _ => True
  gets _ _ _ _ := True

/-- An init that has published its cdev has worked. -/
def Works {σ : Type} (r : Except Int σ) (isPublic : Bool) : Prop :=
  isPublic = true → ∃ st, r = .ok st

structure PublishesLast {M σ : Type} (d : Driver M σ) : Prop where
  init : d.init.Obeys (publishing d.name) Works false
  exit : ∀ st, (d.exit st).Obeys withdrawing (fun _ _ => True) ()

/-- What a phase allows, when `isPublic` says whether the cdev is in the table. -/
def Phase.Allows {M σ : Type} (m : M) (isPublic : Bool) : Phase M σ → Prop
  | .unloaded => isPublic = false
  | .initing body => body.Obeys (publishing m) Works isPublic
  | .live _ => True
  | .exiting body => body.Obeys withdrawing (fun _ _ => True) ()

/-- A call adds no cdev but that of a `cdev_add` that works. -/
theorem mem_cdevs_kcall {M : Type} [DecidableEq M] {o : Outcomes M} {c : KCall M} {k : Kernel M}
    {cdev : Cdev M} (h : cdev ∈ (kcall o c k).2.cdevs) : cdev ∈ k.cdevs ∨
      ∃ cdev₀ dev n, c = .cdevAdd cdev₀ dev n ∧ o.cdevAdd = none ∧
        cdev = { cdev₀ with dev, count := n } := by
  cases c with
  | allocChrdevRegion owner minor n regionName =>
    rcases k.allocRegion_cases o owner minor n regionName with ⟨e, halloc⟩ | ⟨_, -, -, halloc⟩ <;>
    · rw [kcall, halloc] at h
      exact .inl h
  | registerChrdevRegion owner dev n regionName =>
    rcases k.registerRegion_cases o ⟨owner, regionName, dev, n⟩ with
      ⟨e, -, hregister⟩ | ⟨-, -, hregister⟩ <;>
    · rw [kcall, hregister] at h
      exact .inl h
  | cdevAdd cdev₀ dev n =>
    cases ho : o.cdevAdd with
    | some e =>
      rw [kcall, ho, attempt_some] at h
      exact .inl h
    | none =>
      rw [kcall, ho, attempt_none] at h
      rcases List.mem_cons.mp h with rfl | h
      · exact .inr ⟨cdev₀, dev, n, rfl, rfl, rfl⟩
      · exact .inl h
  | cdevDel cdev₀ => exact .inl (List.mem_of_mem_eraseP h)
  | classCreate owner className =>
    cases ho : o.classCreate <;> simp only [kcall, ho, attempt_some, attempt_none] at h <;>
      exact .inl h
  | deviceCreate cls dev nodeName =>
    cases ho : o.deviceCreate <;> simp only [kcall, ho, attempt_some, attempt_none] at h <;>
      exact .inl h
  | i2cAddDriver d =>
    cases ho : o.i2cAddDriver <;> simp only [kcall, ho, attempt_some, attempt_none] at h <;>
      exact .inl h
  | spiBusFindDevice busId deviceId =>
    rw [kcall] at h
    split at h <;> exact .inl h
  | derefCdev p => cases p <;> exact .inl h
  | unregisterChrdevRegion | classDestroy _ | deviceDestroy _ _ | i2cDelDriver _ | cdevAlloc
  | kobjectPut _ => exact .inl h

/-! ## The invariant -/

namespace ModSys

variable {I M : Type} [DecidableEq I] [DecidableEq M] {σ : I → Type}

/-- The cdevs of the module `i` name it, and there are some only where its phase allows
it. -/
def Serves (name : I → M) (s : ModSys I M σ) (i : I) : Prop :=
  ∃ isPublic, (s.phase i).Allows (name i) isPublic ∧
    ∀ c ∈ s.kernel.cdevs, c.ops.driver = name i →
      isPublic = true ∧ c.ops.owner = some (name i)

variable {name : I → M} {foreign : M → Bool} {k₀ : Kernel M} {Off : I → Held M → Prop}
  {On : (i : I) → σ i → Held M → Prop} {drv : (i : I) → Driver M (σ i)}

omit [DecidableEq I] [DecidableEq M] in
/-- A step that changes neither the phase of the module nor its cdevs. -/
theorem Serves.same {s s' : ModSys I M σ} {i : I} (h : s.Serves name i)
    (hphase : s'.phase i = s.phase i)
    (hcdevs : ∀ c ∈ s'.kernel.cdevs, c.ops.driver = name i → c ∈ s.kernel.cdevs) :
    s'.Serves name i := by
  obtain ⟨isPublic, hallows, hserves⟩ := h
  refine ⟨isPublic, hphase ▸ hallows, fun c hc hdriver => ?_⟩
  exact hserves c (hcdevs c hc hdriver) hdriver

omit [DecidableEq M] in
/-- The module goes on to a phase that allows its cdevs. -/
theorem Serves.setPhase {s : ModSys I M σ} {i : I} {ph : Phase M (σ i)} {isPublic : Bool}
    (hph : ph.Allows (name i) isPublic) (hserves : ∀ c ∈ s.kernel.cdevs, c.ops.driver = name i →
      isPublic = true ∧ c.ops.owner = some (name i)) : (s.setPhase i ph).Serves name i :=
  ⟨isPublic, by simpa [ModSys.setPhase] using hph, hserves⟩

omit [DecidableEq I] in
/-- A module adds no cdev of another one. -/
theorem mem_cdevs_of_may (hn : Naming name foreign) {i j : I} (hij : i ≠ j) {c : KCall M}
    {p : Held M} (hmay : (registering (name j)).may c p) {o : Outcomes M} {k : Kernel M}
    {cdev : Cdev M} (hmem : cdev ∈ (kcall o c k).2.cdevs) (hdriver : cdev.ops.driver = name i) :
    cdev ∈ k.cdevs := by
  rcases mem_cdevs_kcall hmem with hmem | ⟨cdev₀, dev, n, rfl, -, rfl⟩
  · exact hmem
  · obtain ⟨hmine, -, -⟩ := hmay
    exact absurd (hn.inj (hdriver.symm.trans hmine)) hij

omit [DecidableEq I] in
/-- A call of an init: nothing is published before it, and if it publishes, the init has
worked. -/
theorem Serves.init_call {s : ModSys I M σ} {i : I} {c : KCall M}
    {p : c.Res → KProg M (Except Int (σ i))} (hph : s.phase i = .initing (.call c p))
    (h : s.Serves name i) (o : Outcomes M) :
    ∃ isPublic, (Phase.initing (p (kcall o c s.kernel).1)).Allows (name i) isPublic ∧
      ∀ cdev ∈ (kcall o c s.kernel).2.cdevs, cdev.ops.driver = name i →
        isPublic = true ∧ cdev.ops.owner = some (name i) := by
  obtain ⟨isPublic, hallows, hserves⟩ := h
  rw [hph] at hallows
  obtain ⟨⟨rfl, hmay⟩, hnext⟩ := hallows
  refine ⟨_, hnext _ _ rfl, fun cdev hmem hdriver => ?_⟩
  rcases mem_cdevs_kcall hmem with hmem | ⟨cdev₀, dev, n, rfl, ho, rfl⟩
  · exact absurd (hserves cdev hmem hdriver).1 Bool.false_ne_true
  · refine ⟨?_, hmay⟩
    simp only [kcall, ho, attempt_none]

omit [DecidableEq I] in
/-- A call of an exit adds no cdev. -/
theorem Serves.exit_call {s : ModSys I M σ} {i : I} {c : KCall M} {p : c.Res → KProg M Unit}
    (hph : s.phase i = .exiting (.call c p)) (h : s.Serves name i) (o : Outcomes M) :
    ∃ isPublic, (Phase.exiting (p (kcall o c s.kernel).1) : Phase M (σ i)).Allows (name i)
        isPublic ∧ ∀ cdev ∈ (kcall o c s.kernel).2.cdevs, cdev.ops.driver = name i →
        isPublic = true ∧ cdev.ops.owner = some (name i) := by
  obtain ⟨isPublic, hallows, hserves⟩ := h
  rw [hph] at hallows
  obtain ⟨hmay, hnext⟩ := hallows
  refine ⟨isPublic, hnext _ () trivial, fun cdev hmem hdriver => ?_⟩
  rcases mem_cdevs_kcall hmem with hmem | ⟨cdev₀, dev, n, rfl, ho, rfl⟩
  · exact hserves cdev hmem hdriver
  · exact hmay.elim

omit [DecidableEq I] in
/-- A module that is gone has no cdev. -/
theorem Serves.of_unloaded {s : ModSys I M σ} (hinv : s.Inv name foreign k₀ Off On) {i : I}
    (hoff : ∀ p, Off i p → p.cdev = none ∧ p.stale = []) (hph : s.phase i = .unloaded) :
    s.Serves name i := by
  obtain ⟨hs, hshared, hphase⟩ := hinv
  have hi := hphase i
  rw [hph] at hi
  obtain ⟨hcdev, hstale⟩ := hoff _ hi
  refine ⟨false, by rw [hph]; rfl, fun c hc hdriver => ?_⟩
  have hmine := hshared.entries.cdevs.mem_own hc hdriver
  rw [hcdev, hstale] at hmine
  cases hmine

/-- What the other modules do adds no cdev of a module. -/
theorem cdevs_other (hn : Naming name foreign) {s : ModSys I M σ}
    (hinv : s.Inv name foreign k₀ Off On) {i : I} {a : ModAct I M} (ha : i ≠ a.target)
    {c : Cdev M} (hmem : c ∈ (s.step drv a).kernel.cdevs) (hdriver : c.ops.driver = name i) :
    c ∈ s.kernel.cdevs := by
  obtain ⟨hs, hshared, hphase⟩ := hinv
  cases a with
  | insmod j | rmmod j =>
    simp only [step] at hmem
    split at hmem <;> exact hmem
  | call j o =>
    have hj := hphase j
    cases hph : s.phase j with
    | unloaded | live _ => simpa only [step, hph] using hmem
    | initing body | exiting body =>
      rw [hph] at hj
      cases body with
      | call c' p =>
        simp only [step, hph] at hmem
        exact mem_cdevs_of_may hn ha hj.1 hmem hdriver
      | ret r =>
        cases r <;>
        · simp only [step, hph] at hmem
          exact hmem

/-- A step of the module itself. -/
theorem serves_target (hn : Naming name foreign) (hname : ∀ i, (drv i).name = name i)
    (hd : ∀ i, Conforms (drv i) (Off i) (On i)) {s : ModSys I M σ}
    (hinv : s.Inv name foreign k₀ Off On) (a : ModAct I M)
    (hlast : PublishesLast (drv a.target))
    (hoff : ∀ p, Off a.target p → p.cdev = none ∧ p.stale = []) (h : s.Serves name a.target) :
    (s.step drv a).Serves name a.target := by
  have hinv' : (s.step drv a).Inv name foreign k₀ Off On := inv_step hn hname hd hinv a
  have ⟨isPublic, hallows, hserves⟩ := h
  cases a with
  | insmod i =>
    simp only [ModAct.target] at h hlast hallows hserves ⊢
    cases hph : s.phase i with
    | unloaded =>
      rw [hph] at hallows
      obtain rfl : isPublic = false := hallows
      have hinit := hlast.init
      rw [hname i] at hinit
      simp only [step, hph]
      exact Serves.setPhase hinit hserves
    | initing _ | live _ | exiting _ => simpa only [step, hph] using h
  | rmmod i =>
    simp only [ModAct.target] at h hlast hserves ⊢
    cases hph : s.phase i with
    | live st =>
      simp only [step, hph]
      exact Serves.setPhase (hlast.exit st) hserves
    | unloaded | initing _ | exiting _ => simpa only [step, hph] using h
  | call i o =>
    simp only [ModAct.target] at h hoff hserves ⊢
    cases hph : s.phase i with
    | unloaded | live _ => simpa only [step, hph] using h
    | initing body =>
      cases body with
      | call c p =>
        obtain ⟨_, hallows', hserves'⟩ := h.init_call hph o
        simp only [step, hph]
        exact Serves.setPhase hallows' hserves'
      | ret r =>
        cases r with
        | error e =>
          refine Serves.of_unloaded hinv' hoff ?_
          simp [step, hph, ModSys.setPhase]
        | ok st =>
          have hlive : (Phase.live st : Phase M (σ i)).Allows (name i) isPublic := trivial
          simp only [step, hph]
          exact Serves.setPhase hlive hserves
    | exiting body =>
      cases body with
      | call c p =>
        obtain ⟨_, hallows', hserves'⟩ := h.exit_call hph o
        simp only [step, hph]
        exact Serves.setPhase hallows' hserves'
      | ret r =>
        refine Serves.of_unloaded hinv' hoff ?_
        simp [step, hph, ModSys.setPhase]

theorem serves_step (hn : Naming name foreign) (hname : ∀ i, (drv i).name = name i)
    (hd : ∀ i, Conforms (drv i) (Off i) (On i)) {s : ModSys I M σ}
    (hinv : s.Inv name foreign k₀ Off On) {i : I} (hlast : PublishesLast (drv i))
    (hoff : ∀ p, Off i p → p.cdev = none ∧ p.stale = []) (h : s.Serves name i)
    (a : ModAct I M) : (s.step drv a).Serves name i := by
  rcases eq_or_ne i a.target with rfl | hother
  · exact serves_target hn hname hd hinv a hlast hoff h
  · exact h.same (phase_other drv s hother) fun _ => cdevs_other hn hinv hother

/-- A loaded module stays loaded until it is unloaded. -/
theorem loaded_step (drv : (i : I) → Driver M (σ i)) {s : ModSys I M σ} {i : I}
    (h : (s.phase i).Loaded) {a : ModAct I M} (ha : a ≠ .rmmod i) :
    ((s.step drv a).phase i).Loaded := by
  rcases eq_or_ne i a.target with rfl | hother
  · cases a with
    | rmmod j => exact absurd rfl ha
    | insmod j | call j o =>
      simp only [ModAct.target] at h ⊢
      cases hph : s.phase j with
      | live st => simpa only [step, hph] using h
      | unloaded | exiting _ =>
        rw [hph] at h
        exact h.elim
      | initing body =>
        cases body with
        | call c p =>
          rw [hph] at h
          exact h.elim
        | ret r =>
          cases r with
          | error e =>
            rw [hph] at h
            exact h.elim
          | ok st => simp [step, hph, ModSys.setPhase, Phase.Loaded]
  · rw [phase_other drv s hother]
    exact h

end ModSys

/-! ## Every run -/

namespace FileSys

variable {I M : Type} [Fintype I] [DecidableEq I] [DecidableEq M] {σ : I → Type}
  {name : I → M} {foreign : M → Bool} {k₀ : Kernel M} {Off : I → Held M → Prop}
  {On : (i : I) → σ i → Held M → Prop} {drv : (i : I) → Driver M (σ i)}

/-- The files of the drivers in `good` pin them, so that they stay loaded. -/
structure Inv (name : I → M) (foreign : M → Bool) (k₀ : Kernel M) (Off : I → Held M → Prop)
    (On : (i : I) → σ i → Held M → Prop) (good : I → Prop) (s : FileSys I M σ) : Prop where
  mods : s.sys.Inv name foreign k₀ Off On
  serves : ∀ i, good i → s.sys.Serves name i
  files : ∀ i, good i → ∀ f ∈ s.files, f.fops.driver = name i →
    name i ∈ f.pins ∧ (s.sys.phase i).Loaded

omit [DecidableEq I] in
theorem of_opening {s : FileSys I M σ} {id : Nat} {d : Dev} {c : Cdev M}
    (h : s.opening name id d = some c) : s.sys.kernel.cdevOf d = some c ∧ ¬ s.Going name c := by
  unfold opening Kernel.opening at h
  split at h
  · rename_i hcdev
    split_ifs at h with hgoing
    obtain rfl := Option.some.inj h
    exact ⟨hcdev, hgoing⟩
  · cases h

omit [DecidableEq I] in
/-- A driver whose cdev an open finds is loaded, and gets pinned. -/
theorem opens_loaded {s : FileSys I M σ} {i : I} (h : s.sys.Serves name i) {id : Nat} {d : Dev}
    {c : Cdev M} (hc : s.opening name id d = some c) (hdriver : c.ops.driver = name i) :
    name i ∈ c.pins ∧ (s.sys.phase i).Loaded := by
  obtain ⟨isPublic, hallows, hserves⟩ := h
  obtain ⟨hcdev, hgoing⟩ := of_opening hc
  obtain ⟨rfl, howner⟩ := hserves c (Kernel.mem_of_cdevOf hcdev) hdriver
  have hpins : name i ∈ c.pins := by simp [Cdev.pins, howner]
  refine ⟨hpins, ?_⟩
  cases hph : s.sys.phase i with
  | live st => trivial
  | unloaded =>
    rw [hph] at hallows
    cases hallows
  | exiting body => exact absurd ⟨i, hpins, by rw [hph]; rfl⟩ hgoing
  | initing body =>
    rw [hph] at hallows
    cases body with
    | call c p => cases hallows.1.1
    | ret r =>
      obtain ⟨st, rfl⟩ := hallows rfl
      trivial

section

variable {good : I → Prop} (hn : Naming name foreign) (hname : ∀ i, (drv i).name = name i)
  (hd : ∀ i, Conforms (drv i) (Off i) (On i)) (hlast : ∀ i, good i → PublishesLast (drv i))
  (hoff : ∀ i, good i → ∀ p, Off i p → p.cdev = none ∧ p.stale = [])

include hn hname hd hlast hoff

omit [Fintype I] in
/-- A step of the modules that unloads none that is pinned. -/
theorem Inv.mod {s : FileSys I M σ} (h : Inv name foreign k₀ Off On good s) {a : ModAct I M}
    (ha : ∀ i, a = .rmmod i → ¬ s.Pinned (name i)) :
    Inv name foreign k₀ Off On good { s with sys := s.sys.step drv a } where
  mods := ModSys.inv_step hn hname hd h.mods a
  serves i hi := ModSys.serves_step hn hname hd h.mods (hlast i hi) (hoff i hi) (h.serves i hi) a
  files i hi f hf hdriver := by
    obtain ⟨hpins, hloaded⟩ := h.files i hi f hf hdriver
    exact ⟨hpins, ModSys.loaded_step drv hloaded fun heq => ha i heq ⟨f, hf, hpins⟩⟩

theorem inv_step {s : FileSys I M σ} (h : Inv name foreign k₀ Off On good s) (a : FileAct I M) :
    Inv name foreign k₀ Off On good (s.step name drv a) := by
  cases a with
  | mod a =>
    cases a with
    | insmod i | call i o => exact h.mod hn hname hd hlast hoff nofun
    | rmmod i =>
      simp only [step]
      split_ifs with hpinned
      · exact h
      · refine h.mod hn hname hd hlast hoff fun j heq => ?_
        obtain rfl := ModAct.rmmod.inj heq
        exact hpinned
  | use id op => exact h
  | close id =>
    exact ⟨h.mods, h.serves, fun i hi f hf => h.files i hi f (List.mem_of_mem_filter hf)⟩
  | «open» id d =>
    simp only [step]
    split
    · exact h
    · rename_i c hc
      refine ⟨h.mods, h.serves, fun i hi f hf hdriver => ?_⟩
      rcases List.mem_cons.mp hf with rfl | hf
      · exact opens_loaded (h.serves i hi) hc hdriver
      · exact h.files i hi f hf hdriver

end

omit [DecidableEq I] in
/-- A function is called through the cdev that an open finds, or through an open file. -/
theorem dispatch_cases {s : FileSys I M σ} {a : FileAct I M} {h : Handler M}
    (hcall : s.dispatch name a = some h) :
    (∃ id d c, s.opening name id d = some c ∧ c.ops.driver = h.driver) ∨
    ∃ f ∈ s.files, f.fops.driver = h.driver := by
  cases a with
  | mod a => cases hcall
  | «open» id d =>
    obtain ⟨c, hc, hslot⟩ := Option.bind_eq_some_iff.mp hcall
    exact .inl ⟨id, d, c, hc, FileOperations.driver_of_slot hslot⟩
  | use id op | close id =>
    obtain ⟨f, hf, hslot⟩ := Option.bind_eq_some_iff.mp hcall
    exact .inr ⟨f, List.mem_of_find?_eq_some hf, FileOperations.driver_of_slot hslot⟩

omit [DecidableEq I] in
theorem Inv.called {good : I → Prop} {s : FileSys I M σ} (h : Inv name foreign k₀ Off On good s)
    {a : FileAct I M} {handler : Handler M} (hcall : s.dispatch name a = some handler) {i : I}
    (hi : good i) (hdriver : handler.driver = name i) : (s.sys.phase i).Loaded := by
  rcases dispatch_cases hcall with ⟨id, d, c, hc, hops⟩ | ⟨f, hf, hops⟩
  · exact (opens_loaded (h.serves i hi) hc (hops.trans hdriver)).2
  · exact (h.files i hi f hf (hops.trans hdriver)).2

omit [Fintype I] [DecidableEq I] in
theorem inv_boot (good : I → Prop) (hk₀ : ∀ i, k₀.Foreign (name i))
    (hmods : (ModSys.boot k₀ : ModSys I M σ).Inv name foreign k₀ Off On) :
    Inv name foreign k₀ Off On good (boot k₀ : FileSys I M σ) where
  mods := hmods
  serves i _ := ⟨false, rfl, fun c hc hdriver => absurd hdriver ((hk₀ i).cdevs c hc).1⟩
  files _ _ _ hf := by cases hf

end FileSys

end DeviceDrivers
