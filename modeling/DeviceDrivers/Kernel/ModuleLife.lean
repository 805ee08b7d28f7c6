import DeviceDrivers.Kernel.Tables
import DeviceDrivers.Lib.Run
import Mathlib.Logic.Function.Basic

/-!
# Loading, unloading and using modules

The machine in which a set of drivers lives: modules are loaded and unloaded,
and any number of processes open device numbers, use the open files and close
them, in any order. Here an init or an exit runs in one piece.

The kernel's rules are:
* a module whose init fails is discarded;
* an open through a cdev pins the modules that the cdev and its file operations
  name, until the file is closed;
* a pinned module is not unloaded.

`Restoring` is what a well-behaved driver promises about the tables: a failed
init leaves them alone, a successful one puts a known set of entries on top,
and the exit takes exactly these away. `Solo.tabled_step` carries it over the
runs of one such driver.
-/

namespace DeviceDrivers

/-- A driver module. `init` returns an error code, or 0 with the static
variables `σ` that the exit reads. -/
structure Driver (M σ : Type) where
  name : M
  init : KProg M (Except Int σ)
  exit : σ → KProg M Unit

/-- No call of an exit can fail, so this oracle is never asked. -/
def Outcomes.idle {M : Type} : Outcomes M := { alloc := fun _ => .error EBUSY }

/-- An open file. -/
structure File (M : Type) where
  id : Nat
  fops : FileOperations M
  pins : List M

/-- The kernel tables, the static variables of the loaded drivers and the open
files of all processes. -/
structure Sys (I M σ : Type) where
  kernel : Kernel M
  live : I → Option σ
  files : List (File M)

/-- What can happen next. `id` is the file that a process opens or uses. -/
inductive Act (I M : Type)
  | load (i : I) (o : Outcomes M)
  | unload (i : I)
  | open (id : Nat) (d : Dev)
  | read (id : Nat)
  | write (id : Nat)
  | ioctl (id : Nat)
  | close (id : Nat)

/-- The open file that an action is made on, and the slot it goes through. -/
def Act.fileOp {I M : Type} : Act I M → Option (Nat × FileOp)
  | read id => some (id, .read)
  | write id => some (id, .write)
  | ioctl id => some (id, .unlockedIoctl)
  | close id => some (id, .release)
  | load _ _ | unload _ | «open» _ _ => none

/-- The driver that an action loads or unloads. -/
def Act.target {I M : Type} : Act I M → Option I
  | load i _ | unload i => some i
  | _ => none

/-- No driver is loaded and no file is open. -/
def Sys.boot {I M σ : Type} (k : Kernel M) : Sys I M σ := ⟨k, fun _ => none, []⟩

namespace Sys

variable {I M σ : Type}

def file (s : Sys I M σ) (id : Nat) : Option (File M) := s.files.find? fun f => f.id == id

/-- An open file pins the module `m`. -/
def Pinned (s : Sys I M σ) (m : M) : Prop := ∃ f ∈ s.files, m ∈ f.pins

variable [DecidableEq M]

instance (s : Sys I M σ) (m : M) : Decidable (s.Pinned m) := by
  unfold Pinned; infer_instance

variable [DecidableEq I] (drv : I → Driver M σ)

/-- The init of `i` run in one piece on the tables of `s`. -/
def loading (s : Sys I M σ) (i : I) (o : Outcomes M) : Except Int σ × Kernel M :=
  (drv i).init.exec (kcall o) s.kernel

/-- The tables after the exit of `i`. -/
def unloading (s : Sys I M σ) (i : I) (st : σ) : Kernel M :=
  (((drv i).exit st).exec (kcall .idle) s.kernel).2

def step (s : Sys I M σ) : Act I M → Sys I M σ
  | .load i o =>
    match s.live i with
    | some _ => s
    | none =>
      match (s.loading drv i o).1 with
      | .error _ => { s with kernel := (s.loading drv i o).2 }
      | .ok st =>
        { s with kernel := (s.loading drv i o).2, live := Function.update s.live i (some st) }
  | .unload i =>
    match s.live i with
    | none => s
    | some st =>
      if s.Pinned (drv i).name then s
      else { s with kernel := s.unloading drv i st, live := Function.update s.live i none }
  | .open id d =>
    match s.file id, s.kernel.cdevOf d with
    | none, some c => { s with files := ⟨id, c.ops, c.pins⟩ :: s.files }
    | _, _ => s
  | .close id => { s with files := s.files.filter fun f => f.id != id }
  -- The drivers' read, write and ioctl functions do not change the kernel tables.
  | .read _ | .write _ | .ioctl _ => s

/-- The driver function that an action calls. -/
def dispatch (s : Sys I M σ) (a : Act I M) : Option (Handler M) :=
  match a with
  | .open id d =>
    match s.file id with
    | none => (s.kernel.fopsOf d).bind fun fops => fops.slot .open
    | some _ => none
  | a => a.fileOp.bind fun (id, op) => (s.file id).bind fun f => f.fops.slot op

end Sys

/-! ## What a step can do -/

namespace Sys

variable {I M σ : Type}

theorem mem_of_file {s : Sys I M σ} {id : Nat} {f : File M} (h : s.file id = some f) :
    f ∈ s.files :=
  List.mem_of_find?_eq_some h

/-- A handler is called through the cdev that an open finds, or through an open
file. -/
theorem dispatch_cases {s : Sys I M σ} {a : Act I M} {h : Handler M}
    (hd : s.dispatch a = some h) :
    (∃ id d c, a = .open id d ∧ s.kernel.cdevOf d = some c ∧ c.ops.driver = h.driver) ∨
    (∃ id op f, a.fileOp = some (id, op) ∧ s.file id = some f ∧ f.fops.driver = h.driver) := by
  have hfile : ∀ id op, ((s.file id).bind fun f => f.fops.slot op) = some h →
      ∃ f, s.file id = some f ∧ f.fops.driver = h.driver := by
    intro id op hbind
    obtain ⟨f, hf, hslot⟩ := Option.bind_eq_some_iff.mp hbind
    exact ⟨f, hf, FileOperations.driver_of_slot hslot⟩
  cases a with
  | load _ _ | unload _ => cases hd
  | «open» id d =>
    refine .inl ⟨id, d, ?_⟩
    simp only [dispatch] at hd
    cases hf : s.file id with
    | some f => simp [hf] at hd
    | none =>
      rw [hf] at hd
      obtain ⟨fops, hfops, hslot⟩ := Option.bind_eq_some_iff.mp hd
      obtain ⟨c, hc, rfl⟩ := Option.map_eq_some_iff.mp hfops
      exact ⟨c, rfl, hc, FileOperations.driver_of_slot hslot⟩
  | read id | write id | ioctl id | close id =>
    exact .inr ⟨id, _, (hfile id _ hd).imp fun _ h => ⟨rfl, h⟩⟩

variable [DecidableEq M] [DecidableEq I] {drv : I → Driver M σ}

/-- The effects that a step can have. -/
inductive StepCase (drv : I → Driver M σ) (s : Sys I M σ) : Act I M → Sys I M σ → Prop
  | loadFailed {i : I} {o : Outcomes M} {c : Int} :
      s.live i = none → (s.loading drv i o).1 = .error c →
      StepCase drv s (.load i o) { s with kernel := (s.loading drv i o).2 }
  | loaded {i : I} {o : Outcomes M} {st : σ} :
      s.live i = none → (s.loading drv i o).1 = .ok st →
      StepCase drv s (.load i o)
        { s with kernel := (s.loading drv i o).2, live := Function.update s.live i (some st) }
  | unloaded {i : I} {st : σ} :
      s.live i = some st → ¬ s.Pinned (drv i).name →
      StepCase drv s (.unload i)
        { s with kernel := s.unloading drv i st, live := Function.update s.live i none }
  | opened {id : Nat} {d : Dev} {c : Cdev M} :
      s.file id = none → s.kernel.cdevOf d = some c →
      StepCase drv s (.open id d) { s with files := ⟨id, c.ops, c.pins⟩ :: s.files }
  | closed {id : Nat} :
      StepCase drv s (.close id) { s with files := s.files.filter fun f => f.id != id }
  | same {a : Act I M} : StepCase drv s a s

theorem stepCase (drv : I → Driver M σ) (s : Sys I M σ) (a : Act I M) :
    StepCase drv s a (s.step drv a) := by
  cases a with
  | load i o =>
    cases hl : s.live i with
    | some st => simpa [step, hl] using StepCase.same
    | none =>
      cases hr : (s.loading drv i o).1 with
      | error c => simpa [step, hl, hr] using StepCase.loadFailed hl hr
      | ok st => simpa [step, hl, hr] using StepCase.loaded hl hr
  | unload i =>
    cases hl : s.live i with
    | none => simpa [step, hl] using StepCase.same
    | some st =>
      by_cases hp : s.Pinned (drv i).name
      · simpa [step, hl, hp] using StepCase.same
      · simpa [step, hl, hp] using StepCase.unloaded hl hp
  | «open» id d =>
    cases hf : s.file id with
    | some f => simpa [step, hf] using StepCase.same
    | none =>
      cases hc : s.kernel.cdevOf d with
      | none => simpa [step, hf, hc] using StepCase.same
      | some c => simpa [step, hf, hc] using StepCase.opened hf hc
  | close id => exact .closed
  | read _ | write _ | ioctl _ => exact .same

/-- An open file stays as it is until it is closed. -/
theorem file_step {s : Sys I M σ} {id : Nat} {f : File M} (h : s.file id = some f)
    {a : Act I M} (ha : a ≠ .close id) : (s.step drv a).file id = some f := by
  have hcase := stepCase drv s a
  generalize s.step drv a = s' at hcase
  cases hcase with
  | loadFailed _ _ | loaded _ _ | unloaded _ _ | same => exact h
  | @opened id' d c hnone _ =>
    have hid : id' ≠ id := by
      rintro rfl
      rw [h] at hnone
      cases hnone
    simpa [file, hid] using h
  | @closed id' =>
    have hid : id ≠ id' := fun heq => ha (by rw [heq])
    have hkey : ∀ f : File M,
        decide ((f.id != id') = true ∧ (f.id == id) = true) = (f.id == id) := by
      intro f
      by_cases hf : f.id = id <;> simp [hf, hid]
    simp only [file, List.find?_filter, hkey]
    exact h

theorem file_run {s : Sys I M σ} {id : Nat} {f : File M} (h : s.file id = some f)
    {acts : List (Act I M)} (ha : Act.close id ∉ acts) :
    (Run.run (step drv) s acts).file id = some f := by
  induction acts generalizing s with
  | nil => exact h
  | cons a acts ih =>
    rw [List.mem_cons, not_or] at ha
    exact ih (file_step h (Ne.symm ha.1)) ha.2

/-- A module that no cdev in the table names does not get pinned. -/
theorem unpinned_step {s : Sys I M σ} {m : M} (hcdev : ∀ c ∈ s.kernel.cdevs, m ∉ c.pins)
    (h : ¬ s.Pinned m) (a : Act I M) : ¬ (s.step drv a).Pinned m := by
  have hcase := stepCase drv s a
  generalize s.step drv a = s' at hcase
  cases hcase with
  | loadFailed _ _ | loaded _ _ | unloaded _ _ | same => exact h
  | opened _ hc =>
    rintro ⟨f, hf, hpin⟩
    rcases List.mem_cons.mp hf with rfl | hf
    · exact hcdev _ (Kernel.mem_of_cdevOf hc) hpin
    · exact h ⟨f, hf, hpin⟩
  | closed =>
    rintro ⟨f, hf, hpin⟩
    exact h ⟨f, List.mem_of_mem_filter hf, hpin⟩

/-- A module pinned by an open file is loaded. -/
def PinsLive (drv : I → Driver M σ) (s : Sys I M σ) : Prop :=
  ∀ i, s.Pinned (drv i).name → (s.live i).isSome

/-- `PinsLive` is kept as long as the cdevs in the table name only loaded
modules. -/
theorem pinsLive_step {s : Sys I M σ}
    (hcdev : ∀ i, ∀ c ∈ s.kernel.cdevs, (drv i).name ∈ c.pins → (s.live i).isSome)
    (h : PinsLive drv s) (a : Act I M) : PinsLive drv (s.step drv a) := by
  have hcase := stepCase drv s a
  generalize s.step drv a = s' at hcase
  cases hcase with
  | loadFailed _ _ => exact h
  | @loaded i o st _ _ =>
    intro j hj
    by_cases hji : j = i
    · simp [hji]
    · simpa [hji] using h j hj
  | @unloaded i st _ hp =>
    intro j hj
    by_cases hji : j = i
    · subst hji
      exact absurd hj hp
    · simpa [hji] using h j hj
  | @opened id d c _ hc =>
    rintro j ⟨f, hf, hpin⟩
    rcases List.mem_cons.mp hf with rfl | hf
    · exact hcdev j c (Kernel.mem_of_cdevOf hc) hpin
    · exact h j ⟨f, hf, hpin⟩
  | closed =>
    rintro j ⟨f, hf, hpin⟩
    exact h j ⟨f, List.mem_of_mem_filter hf, hpin⟩
  | same => exact h

end Sys

/-! ## One driver that restores the tables -/

/-- The tables hold nothing of the module `m`: its registrations are not there,
and no cdev names it. -/
structure Kernel.Foreign {M : Type} (m : M) (k : Kernel M) : Prop where
  regions : ∀ r ∈ k.regions, r.owner ≠ m
  cdevs : ∀ c ∈ k.cdevs, c.ops.driver ≠ m ∧ m ∉ c.pins
  classes : ∀ c ∈ k.classes, c.owner ≠ m
  nodes : ∀ n ∈ k.nodes, n.cls.owner ≠ m
  i2cDrivers : ∀ d ∈ k.i2cDrivers, d.owner ≠ m

theorem Kernel.foreign_empty {M : Type} (m : M) : ({} : Kernel M).Foreign m := by
  constructor <;> simp

/-- The tables of a kernel in which only `r` is registered. -/
theorem Kernel.foreign_region {M : Type} {m : M} {r : Region M} (h : r.owner ≠ m) :
    ({ regions := [r] } : Kernel M).Foreign m := by
  constructor <;> simp [h]

/-- The tables with a region, a cdev, a class and a device node on top. -/
def Kernel.put {M : Type} (r : Region M) (c : Cdev M) (cls : Class M) (n : Node M)
    (k : Kernel M) : Kernel M :=
  { k with
    regions := r :: k.regions
    cdevs := c :: k.cdevs
    classes := cls :: k.classes
    nodes := n :: k.nodes }

/-- Each of the four tables holds an entry of `m` exactly when `loaded`. -/
structure Kernel.RegisteredIff {M : Type} (m : M) (loaded : Prop) (k : Kernel M) : Prop where
  region : (∃ r ∈ k.regions, r.owner = m) ↔ loaded
  cdev : (∃ c ∈ k.cdevs, c.ops.driver = m) ↔ loaded
  cls : (∃ c ∈ k.classes, c.owner = m) ↔ loaded
  node : (∃ n ∈ k.nodes, n.cls.owner = m) ↔ loaded

theorem Kernel.Foreign.registeredIff {M : Type} {m : M} {k : Kernel M} (h : k.Foreign m)
    {loaded : Prop} (hl : ¬ loaded) : k.RegisteredIff m loaded where
  region := iff_of_false (fun ⟨r, hr, howner⟩ => h.regions r hr howner) hl
  cdev := iff_of_false (fun ⟨c, hc, howner⟩ => (h.cdevs c hc).1 howner) hl
  cls := iff_of_false (fun ⟨c, hc, howner⟩ => h.classes c hc howner) hl
  node := iff_of_false (fun ⟨n, hn, howner⟩ => h.nodes n hn howner) hl

theorem Kernel.registeredIff_put {M : Type} {m : M} {r : Region M} {c : Cdev M} {cls : Class M}
    {n : Node M} (hr : r.owner = m) (hc : c.ops.driver = m) (hcls : cls.owner = m)
    (hn : n.cls.owner = m) (k : Kernel M) {loaded : Prop} (hl : loaded) :
    (k.put r c cls n).RegisteredIff m loaded where
  region := iff_of_true ⟨r, List.mem_cons_self, hr⟩ hl
  cdev := iff_of_true ⟨c, List.mem_cons_self, hc⟩ hl
  cls := iff_of_true ⟨cls, List.mem_cons_self, hcls⟩ hl
  node := iff_of_true ⟨n, List.mem_cons_self, hn⟩ hl

/-- The driver `d` restores the tables on every load that `G` allows:
`installed st k` is `k` with the entries of the loaded driver on top, for static
variables `st` that are `Valid`. -/
structure Restoring {M σ : Type} [DecidableEq M] (d : Driver M σ) (Valid : σ → Prop)
    (installed : σ → Kernel M → Kernel M) (G : Outcomes M → Kernel M → Prop) : Prop where
  fail : ∀ o k c, G o k → (d.init.exec (kcall o) k).1 = .error c → (d.init.exec (kcall o) k).2 = k
  ok : ∀ o k st, G o k → (d.init.exec (kcall o) k).1 = .ok st →
    Valid st ∧ (d.init.exec (kcall o) k).2 = installed st k
  exit : ∀ st k, Valid st → ((d.exit st).exec (kcall .idle) (installed st k)).2 = k

namespace Solo

variable {M σ : Type}

/-- The machine with the one driver `d`. -/
def drv (d : Driver M σ) : Unit → Driver M σ := fun _ => d

/-- The tables are `k₀`, with the entries of the driver on top while it is
loaded. -/
structure Tabled (Valid : σ → Prop) (installed : σ → Kernel M → Kernel M) (k₀ : Kernel M)
    (s : Sys Unit M σ) : Prop where
  off : s.live () = none → s.kernel = k₀
  on : ∀ st, s.live () = some st → Valid st ∧ s.kernel = installed st k₀

/-- A step that really loads the driver meets `G`. -/
def LoadsWell (G : Outcomes M → Kernel M → Prop) (s : Sys Unit M σ) (a : Act Unit M) : Prop :=
  ∀ o, a = .load () o → s.live () = none → G o s.kernel

variable {Valid : σ → Prop} {installed : σ → Kernel M → Kernel M} {k₀ : Kernel M}

theorem tabled_boot : Tabled Valid installed k₀ (Sys.boot k₀ : Sys Unit M σ) where
  off _ := rfl
  on _ h := by cases h

variable [DecidableEq M] {d : Driver M σ} {G : Outcomes M → Kernel M → Prop}

/-- One step of a restoring driver. -/
theorem tabled_step (hd : Restoring d Valid installed G) {s : Sys Unit M σ} {a : Act Unit M}
    (h : Tabled Valid installed k₀ s) (ha : LoadsWell G s a) :
    Tabled Valid installed k₀ (s.step (drv d) a) := by
  have hcase := Sys.stepCase (drv d) s a
  generalize s.step (drv d) a = s' at hcase
  cases hcase with
  | @loadFailed i o c hl hr =>
    have hk : (s.loading (drv d) i o).2 = s.kernel := hd.fail o _ c (ha o rfl hl) hr
    rw [hk]
    exact h
  | @loaded i o st hl hr =>
    obtain ⟨hst, hk⟩ : Valid st ∧ (s.loading (drv d) i o).2 = installed st s.kernel :=
      hd.ok o _ st (ha o rfl hl) hr
    refine ⟨fun hnone => by simp at hnone, fun st' hst' => ?_⟩
    obtain rfl : st = st' := by simpa using hst'
    exact ⟨hst, by rw [hk, h.off hl]⟩
  | @unloaded i st hl _ =>
    obtain ⟨hst, hk⟩ := h.on st hl
    refine ⟨fun _ => ?_, fun st' hst' => by simp at hst'⟩
    simp only [Sys.unloading, hk]
    exact hd.exit st k₀ hst
  | opened _ _ => exact ⟨h.off, h.on⟩
  | closed => exact ⟨h.off, h.on⟩
  | same => exact h

/-- The driver's functions are called only while it is loaded. -/
def CalledWhenLoaded (d : Driver M σ) (s : Sys Unit M σ) (a : Act Unit M) : Prop :=
  ∀ h, s.dispatch a = some h → h.driver = d.name → (s.live ()).isSome

end Solo

end DeviceDrivers
