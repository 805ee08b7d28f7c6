import DeviceDrivers.Lib.CallProg
import Mathlib.Data.List.Basic

/-!
# The kernel tables behind a character driver

The tables that a driver's init and exit change, over any type `M` of modules:

| table        | added by                                           | removed by                 |
|--------------|----------------------------------------------------|----------------------------|
| `regions`    | `alloc_chrdev_region`, `register_chrdev_region`    | `unregister_chrdev_region` |
| `cdevs`      | `cdev_add`                                         | `cdev_del`                 |
| `classes`    | `class_create`                                     | `class_destroy`            |
| `nodes`      | `device_create`                                    | `device_destroy`           |
| `i2cDrivers` | `i2c_add_driver`                                   | `i2c_del_driver`           |

`KCall` is one such call, `kcall` what it does. Whether a call fails, and which
major `alloc_chrdev_region` picks, is read from an oracle, `Outcomes`. A call
that fails returns a negative errno and registers nothing.

A number is taken out of a table by key, as the kernel does it. Entries are
searched from the front and a new entry goes to the front, so that a cdev of
range 1 hides the older ones of the same number.
-/

namespace DeviceDrivers

/-! ## Entries of the tables -/

/-- A device number, `MKDEV(major, minor)`. -/
structure Dev where
  major : Nat
  minor : Nat
deriving DecidableEq, Repr

/-- The absolute value of an error code that `IS_ERR` recognises. -/
structure Errno where
  num : Nat
  pos : 0 < num
  le_max : num ≤ 4095
deriving DecidableEq, Repr

/-- The value a failed call returns. -/
def Errno.code (e : Errno) : Int := -(e.num : Int)

theorem Errno.code_neg (e : Errno) : e.code < 0 := by
  have := e.pos
  unfold Errno.code
  omega

def ENOMEM : Errno := ⟨12, by decide, by decide⟩
def EBUSY : Errno := ⟨16, by decide, by decide⟩
def EOPNOTSUPP : Errno := ⟨95, by decide, by decide⟩

/-- The fields of `struct file_operations` that the drivers set. -/
inductive FileOp
  | open
  | release
  | read
  | write
  | unlockedIoctl
deriving DecidableEq, Repr

/-- A `struct file_operations` in the source of `driver`. The slots in `ops`
hold that driver's own functions, the others are NULL; `owner` is the field of
that name, `none` when it is not set. -/
structure FileOperations (M : Type) where
  driver : M
  owner : Option M := none
  ops : List FileOp
deriving DecidableEq, Repr

/-- A function of a driver that the kernel calls through a slot. -/
structure Handler (M : Type) where
  driver : M
  op : FileOp
deriving DecidableEq, Repr

def FileOperations.slot {M : Type} (fops : FileOperations M) (op : FileOp) : Option (Handler M) :=
  if op ∈ fops.ops then some ⟨fops.driver, op⟩ else none

theorem FileOperations.driver_of_slot {M : Type} {fops : FileOperations M} {op : FileOp}
    {h : Handler M} (hs : fops.slot op = some h) : fops.driver = h.driver := by
  unfold slot at hs
  split at hs
  · obtain rfl := Option.some.inj hs
    rfl
  · cases hs

/-- A range of device numbers, `struct char_device_struct`. -/
structure Region (M : Type) where
  owner : M
  name : String
  dev : Dev
  count : Nat
deriving DecidableEq, Repr

def Region.covers {M : Type} (r : Region M) (d : Dev) : Bool :=
  r.dev.major == d.major && decide (r.dev.minor ≤ d.minor) &&
    decide (d.minor < r.dev.minor + r.count)

def Region.overlaps {M : Type} (r r' : Region M) : Bool :=
  r.dev.major == r'.dev.major && decide (r.dev.minor < r'.dev.minor + r'.count) &&
    decide (r'.dev.minor < r.dev.minor + r.count)

/-- `struct cdev`. `cdev_add` sets `dev` and `count`. -/
structure Cdev (M : Type) where
  owner : Option M := none
  ops : FileOperations M
  dev : Dev := ⟨0, 0⟩
  count : Nat := 0
deriving DecidableEq, Repr

def Cdev.covers {M : Type} (c : Cdev M) (d : Dev) : Bool :=
  c.dev.major == d.major && decide (c.dev.minor ≤ d.minor) &&
    decide (d.minor < c.dev.minor + c.count)

/-- `cdev_init`: the structure is cleared, `owner` included, and `ops` set. -/
def cdevInit {M : Type} (fops : FileOperations M) : Cdev M := { ops := fops }

/-- The modules that an open through the cdev pins. -/
def Cdev.pins {M : Type} (c : Cdev M) : List M := c.owner.toList ++ c.ops.owner.toList

/-- `struct class`. -/
structure Class (M : Type) where
  owner : M
  name : String
deriving DecidableEq, Repr

/-- A device made by `device_create`, with its node under `/dev`. -/
structure Node (M : Type) where
  cls : Class M
  dev : Dev
  name : String
deriving DecidableEq, Repr

/-- `struct i2c_driver`. -/
structure I2cDriver (M : Type) where
  owner : M
  name : String
deriving DecidableEq, Repr

/-- The kernel tables. `spiRefs` counts the references held on the SPI device,
`nullDerefs` the NULL pointers that a driver has dereferenced. -/
structure Kernel (M : Type) where
  regions : List (Region M) := []
  cdevs : List (Cdev M) := []
  classes : List (Class M) := []
  nodes : List (Node M) := []
  i2cDrivers : List (I2cDriver M) := []
  spiRefs : Nat := 0
  nullDerefs : Nat := 0
deriving DecidableEq, Repr

/-! ## Calls -/

/-- What decides the calls of one load: for each fallible call the error it
fails with, `none` when it works. `alloc` is the major that
`alloc_chrdev_region` finds when the table of regions is as given. -/
structure Outcomes (M : Type) where
  alloc : List (Region M) → Except Errno Nat
  register : Option Errno := none
  cdevAdd : Option Errno := none
  classCreate : Option Errno := none
  deviceCreate : Option Errno := none
  i2cAddDriver : Option Errno := none
  spiFound : Bool := true
  cdevAlloc : Bool := true

inductive KCall (M : Type)
  | allocChrdevRegion (owner : M) (baseminor count : Nat) (name : String)
  | registerChrdevRegion (owner : M) (dev : Dev) (count : Nat) (name : String)
  | unregisterChrdevRegion (dev : Dev) (count : Nat)
  | cdevAdd (cdev : Cdev M) (dev : Dev) (count : Nat)
  | cdevDel (cdev : Cdev M)
  | classCreate (owner : M) (name : String)
  | classDestroy (cls : Class M)
  | deviceCreate (cls : Class M) (dev : Dev) (name : String)
  | deviceDestroy (cls : Class M) (dev : Dev)
  | i2cAddDriver (driver : I2cDriver M)
  | i2cDelDriver (driver : I2cDriver M)
  | spiBusFindDevice (busId deviceId : Nat)
  | cdevAlloc
  | kobjectPut (cdev : Cdev M)
  | derefCdev (p : Option (Cdev M))

/-- What a call returns. -/
@[reducible] def KCall.Res {M : Type} : KCall M → Type
  | allocChrdevRegion .. => Except Errno Dev
  | registerChrdevRegion .. => Except Errno Unit
  | cdevAdd .. => Except Errno (Cdev M)
  | classCreate .. => Except Errno (Class M)
  | deviceCreate .. => Except Errno (Node M)
  | i2cAddDriver .. => Except Errno Unit
  | spiBusFindDevice .. => Bool
  | cdevAlloc => Bool
  | _ => Unit

/-- A driver's code: a body over the kernel calls. -/
abbrev KProg (M : Type) : Type → Type := Prog (KCall M) KCall.Res

section

variable {M : Type}

/-! The calls as bodies. -/

@[simp] def allocChrdevRegion (owner : M) (baseminor count : Nat) (name : String) :
    KProg M (Except Errno Dev) := .call (.allocChrdevRegion owner baseminor count name) .ret

@[simp] def registerChrdevRegion (owner : M) (dev : Dev) (count : Nat) (name : String) :
    KProg M (Except Errno Unit) := .call (.registerChrdevRegion owner dev count name) .ret

@[simp] def unregisterChrdevRegion (dev : Dev) (count : Nat) : KProg M Unit :=
  .call (.unregisterChrdevRegion dev count) .ret

@[simp] def cdevAdd (cdev : Cdev M) (dev : Dev) (count : Nat) : KProg M (Except Errno (Cdev M)) :=
  .call (.cdevAdd cdev dev count) .ret

@[simp] def cdevDel (cdev : Cdev M) : KProg M Unit := .call (.cdevDel cdev) .ret

@[simp] def classCreate (owner : M) (name : String) : KProg M (Except Errno (Class M)) :=
  .call (.classCreate owner name) .ret

@[simp] def classDestroy (cls : Class M) : KProg M Unit := .call (.classDestroy cls) .ret

@[simp] def deviceCreate (cls : Class M) (dev : Dev) (name : String) :
    KProg M (Except Errno (Node M)) :=
  .call (.deviceCreate cls dev name) .ret

@[simp] def deviceDestroy (cls : Class M) (dev : Dev) : KProg M Unit :=
  .call (.deviceDestroy cls dev) .ret

@[simp] def i2cAddDriver (driver : I2cDriver M) : KProg M (Except Errno Unit) :=
  .call (.i2cAddDriver driver) .ret

@[simp] def i2cDelDriver (driver : I2cDriver M) : KProg M Unit := .call (.i2cDelDriver driver) .ret

@[simp] def spiBusFindDevice (busId deviceId : Nat) : KProg M Bool :=
  .call (.spiBusFindDevice busId deviceId) .ret

@[simp] def cdevAlloc : KProg M Bool := .call .cdevAlloc .ret

@[simp] def kobjectPut (cdev : Cdev M) : KProg M Unit := .call (.kobjectPut cdev) .ret

@[simp] def derefCdev (p : Option (Cdev M)) : KProg M Unit := .call (.derefCdev p) .ret

/-- The answer of a fallible call that does `f` when it works. -/
def attempt {α : Type} (fail : Option Errno) (a : α) (f k : Kernel M) :
    Except Errno α × Kernel M :=
  match fail with
  | none => (.ok a, f)
  | some e => (.error e, k)

@[simp] theorem attempt_none {α : Type} (a : α) (f k : Kernel M) :
    attempt none a f k = (.ok a, f) := rfl

@[simp] theorem attempt_some {α : Type} (e : Errno) (a : α) (f k : Kernel M) :
    attempt (some e) a f k = (.error e, k) := rfl

/-- `__register_chrdev_region`: the range must not overlap a registered one. -/
def Kernel.addRegion {α : Type} (r : Region M) (a : α) (k : Kernel M) :
    Except Errno α × Kernel M :=
  if k.regions.any r.overlaps then (.error EBUSY, k)
  else (.ok a, { k with regions := r :: k.regions })

def Kernel.allocRegion (o : Outcomes M) (owner : M) (baseminor count : Nat) (name : String)
    (k : Kernel M) : Except Errno Dev × Kernel M :=
  match o.alloc k.regions with
  | .error e => (.error e, k)
  | .ok major => k.addRegion ⟨owner, name, ⟨major, baseminor⟩, count⟩ ⟨major, baseminor⟩

def Kernel.registerRegion (o : Outcomes M) (r : Region M) (k : Kernel M) :
    Except Errno Unit × Kernel M :=
  match o.register with
  | some e => (.error e, k)
  | none => k.addRegion r ()

@[simp] def Kernel.delRegion (dev : Dev) (count : Nat) (k : Kernel M) : Kernel M :=
  { k with regions := k.regions.eraseP fun r => r.dev == dev && r.count == count }

@[simp] def Kernel.delCdev (dev : Dev) (count : Nat) (k : Kernel M) : Kernel M :=
  { k with cdevs := k.cdevs.eraseP fun c => c.dev == dev && c.count == count }

theorem Kernel.addRegion_cases {α : Type} (r : Region M) (a : α) (k : Kernel M) :
    (k.regions.any r.overlaps = true ∧ k.addRegion r a = (.error EBUSY, k)) ∨
    (k.regions.any r.overlaps = false ∧
      k.addRegion r a = (.ok a, { k with regions := r :: k.regions })) := by
  unfold addRegion
  cases hover : k.regions.any r.overlaps with
  | true => exact .inl ⟨rfl, rfl⟩
  | false => exact .inr ⟨rfl, rfl⟩

/-- `alloc_chrdev_region` fails and leaves the tables, or registers a range on
the major it found. -/
theorem Kernel.allocRegion_cases (o : Outcomes M) (owner : M) (baseminor count : Nat)
    (name : String) (k : Kernel M) :
    (∃ e, k.allocRegion o owner baseminor count name = (.error e, k)) ∨
    (∃ major, o.alloc k.regions = .ok major ∧
      k.regions.any (Region.overlaps ⟨owner, name, ⟨major, baseminor⟩, count⟩) = false ∧
      k.allocRegion o owner baseminor count name =
        (.ok ⟨major, baseminor⟩,
          { k with regions := ⟨owner, name, ⟨major, baseminor⟩, count⟩ :: k.regions })) := by
  unfold allocRegion
  cases ho : o.alloc k.regions with
  | error e => exact .inl ⟨e, rfl⟩
  | ok major =>
    rcases k.addRegion_cases ⟨owner, name, ⟨major, baseminor⟩, count⟩ (⟨major, baseminor⟩ : Dev)
      with ⟨_, hadd⟩ | ⟨hfree, hadd⟩
    · exact .inl ⟨EBUSY, hadd⟩
    · exact .inr ⟨major, rfl, hfree, hadd⟩

/-- Which number is found depends on the table of regions only. -/
theorem Kernel.allocRegion_fst_congr {k k' : Kernel M} (h : k.regions = k'.regions)
    (o : Outcomes M) (owner : M) (baseminor count : Nat) (name : String) :
    (k.allocRegion o owner baseminor count name).1 =
      (k'.allocRegion o owner baseminor count name).1 := by
  unfold allocRegion addRegion
  rw [h]
  split
  · rfl
  · split <;> rfl

/-- `register_chrdev_region` fails and leaves the tables, or registers the range. -/
theorem Kernel.registerRegion_cases (o : Outcomes M) (r : Region M) (k : Kernel M) :
    (∃ e, (o.register = some e ∨ k.regions.any r.overlaps = true) ∧
      k.registerRegion o r = (.error e, k)) ∨
    (o.register = none ∧ k.regions.any r.overlaps = false ∧
      k.registerRegion o r = (.ok (), { k with regions := r :: k.regions })) := by
  unfold registerRegion
  cases ho : o.register with
  | some e => exact .inl ⟨e, .inl rfl, rfl⟩
  | none =>
    rcases k.addRegion_cases r () with ⟨hover, hadd⟩ | ⟨hfree, hadd⟩
    · exact .inl ⟨EBUSY, .inr hover, hadd⟩
    · exact .inr ⟨rfl, hfree, hadd⟩

/-! ## Opening a device number -/

/-- The cdev that an open of `d` finds: the first one that covers the number. -/
def Kernel.cdevOf (k : Kernel M) (d : Dev) : Option (Cdev M) :=
  k.cdevs.find? fun c => c.covers d

/-- The file operations that a device number is dispatched to. -/
def Kernel.fopsOf (k : Kernel M) (d : Dev) : Option (FileOperations M) :=
  (k.cdevOf d).map (·.ops)

theorem Kernel.mem_of_cdevOf {k : Kernel M} {d : Dev} {c : Cdev M} (h : k.cdevOf d = some c) :
    c ∈ k.cdevs :=
  List.mem_of_find?_eq_some h

/-! ## What the calls do -/

variable [DecidableEq M]

@[simp] def Kernel.delClass (cls : Class M) (k : Kernel M) : Kernel M :=
  { k with classes := k.classes.eraseP fun c => c == cls }

@[simp] def Kernel.delNode (cls : Class M) (dev : Dev) (k : Kernel M) : Kernel M :=
  { k with nodes := k.nodes.eraseP fun n => n.cls == cls && n.dev == dev }

@[simp] def Kernel.delI2cDriver (driver : I2cDriver M) (k : Kernel M) : Kernel M :=
  { k with i2cDrivers := k.i2cDrivers.eraseP fun d => d == driver }

/-- What a call does and returns. -/
@[simp] def kcall (o : Outcomes M) : (c : KCall M) → Kernel M → c.Res × Kernel M
  | .allocChrdevRegion owner baseminor count name, k => k.allocRegion o owner baseminor count name
  | .registerChrdevRegion owner dev count name, k => k.registerRegion o ⟨owner, name, dev, count⟩
  | .unregisterChrdevRegion dev count, k => ((), k.delRegion dev count)
  | .cdevAdd cdev dev count, k =>
    attempt o.cdevAdd { cdev with dev, count }
      { k with cdevs := { cdev with dev, count } :: k.cdevs } k
  | .cdevDel cdev, k => ((), k.delCdev cdev.dev cdev.count)
  | .classCreate owner name, k =>
    attempt o.classCreate ⟨owner, name⟩ { k with classes := ⟨owner, name⟩ :: k.classes } k
  | .classDestroy cls, k => ((), k.delClass cls)
  | .deviceCreate cls dev name, k =>
    attempt o.deviceCreate ⟨cls, dev, name⟩ { k with nodes := ⟨cls, dev, name⟩ :: k.nodes } k
  | .deviceDestroy cls dev, k => ((), k.delNode cls dev)
  | .i2cAddDriver driver, k =>
    attempt o.i2cAddDriver () { k with i2cDrivers := driver :: k.i2cDrivers } k
  | .i2cDelDriver driver, k => ((), k.delI2cDriver driver)
  | .spiBusFindDevice _ _, k =>
    if o.spiFound then (true, { k with spiRefs := k.spiRefs + 1 }) else (false, k)
  | .cdevAlloc, k => (o.cdevAlloc, k)
  -- The cdev was not added, so it is in no table.
  | .kobjectPut _, k => ((), k)
  | .derefCdev p, k =>
    ((), match p with
      | none => { k with nullDerefs := k.nullDerefs + 1 }
      | some _ => k)

end

end DeviceDrivers
