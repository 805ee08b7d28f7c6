import DeviceDrivers.Drivers.Ioctl
import DeviceDrivers.Drivers.IoctlValue

/-!
# The ioctl driver: the value over the life of the module

`int32_t value` belongs to the module: a load sets it to 0 and an unload takes it away.
The calls get to `etx_ioctl` through open files, and an open file pins the module.

`session_register`: as long as one file of the driver is open, the module stays loaded
and the calls of all processes work on one value, which is what the last WR_VALUE since
the load has copied.
-/

namespace DeviceDrivers.Ioctl

/-- What a WR_VALUE call copies. Bytes that cannot be read count as 0. -/
def IoctlCall.copied (c : IoctlCall) : BitVec 32 := int32OfBytes (copyFromUser c.user c.arg 4).2

/-- What the last WR_VALUE of `calls` has copied. -/
def lastCopied (ptr : Nat) (calls : List IoctlCall) : BitVec 32 :=
  ((calls.filter fun c => c.cmd = WR_VALUE ptr).getLast?.map IoctlCall.copied).getD 0

variable {ptr : Nat}

theorem result_value (c : IoctlCall) (v : BitVec 32) :
    (c.result ptr v).value = if c.cmd = WR_VALUE ptr then c.copied else v := by
  split_ifs with hcmd
  · simp only [IoctlCall.result, etxIoctl, hcmd, if_true, IoctlCall.copied]
  · exact etxIoctl_value_of_ne hcmd _ _ _

theorem lastCopied_append (calls : List IoctlCall) (c : IoctlCall) :
    lastCopied ptr (calls ++ [c]) =
      if c.cmd = WR_VALUE ptr then c.copied else lastCopied ptr calls := by
  split_ifs with hcmd <;> simp [lastCopied, List.filter_append, hcmd]

/-! ## The machine with the value -/

/-- `calls` are the calls of `etx_ioctl` since the module was loaded, the last one at the
end. -/
structure Life where
  sys : EtxSys
  value : BitVec 32
  calls : List IoctlCall

/-- An action, with what it passes if it is an ioctl. -/
structure LifeAct where
  act : Act Unit Module
  call : IoctlCall

namespace Life

def boot (k : Kernel Module) : Life := ⟨Sys.boot k, 0, []⟩

/-- The action brings in a new copy of the module. -/
def fresh (s : Life) : Act Unit Module → Bool
  | .load () _ => (s.sys.live ()).isNone
  | _ => false

/-- The action calls `etx_ioctl`. -/
def enters (s : Life) (a : Act Unit Module) : Bool :=
  s.sys.dispatch a == some ⟨.etx, .unlockedIoctl⟩

def step (ptr : Nat) (s : Life) (a : LifeAct) : Life where
  sys := Ioctl.step s.sys a.act
  value :=
    if s.fresh a.act then 0
    else if s.enters a.act then (a.call.result ptr s.value).value
    else s.value
  calls := if s.fresh a.act then [] else if s.enters a.act then s.calls ++ [a.call] else s.calls

/-- No load leaves the cdev behind. -/
def LoadsWell (s : Life) (a : LifeAct) : Prop :=
  Solo.LoadsWell (fun o k => ¬ Leaks o k) s.sys a.act

/-! ## The invariant -/

structure Inv (ptr : Nat) (k₀ : Kernel Module) (s : Life) : Prop where
  sys : Ioctl.Inv k₀ s.sys
  ops : ∀ f ∈ s.sys.files, f.fops.driver = .etx → f.fops = fops
  value : s.value = lastCopied ptr s.calls

theorem inv_boot (k₀ : Kernel Module) : Inv ptr k₀ (boot k₀) := ⟨Ioctl.inv_boot k₀, nofun, rfl⟩

section

variable {k₀ : Kernel Module} (hk : k₀.Foreign .etx) {s : Life}

include hk

/-- A cdev of the driver has its file operations. -/
theorem Inv.ops_of_cdev (h : Inv ptr k₀ s) {c : Cdev Module} (hc : c ∈ s.sys.kernel.cdevs)
    (hdriver : c.ops.driver = .etx) : c.ops = fops := by
  have hforeign : c ∉ k₀.cdevs := fun hc₀ => (hk.cdevs c hc₀).1 hdriver
  cases hl : s.sys.live () with
  | none =>
    rw [h.sys.tabled.off hl] at hc
    exact absurd hc hforeign
  | some st =>
    obtain ⟨⟨dev, rfl⟩, hs⟩ := h.sys.tabled.on st hl
    rw [hs] at hc
    rcases List.mem_cons.mp hc with rfl | hc
    · rfl
    · exact absurd hc hforeign

theorem inv_step (h : Inv ptr k₀ s) {a : LifeAct} (ha : s.LoadsWell a) :
    Inv ptr k₀ (s.step ptr a) where
  sys := Ioctl.inv_step hk h.sys ha
  ops := by
    obtain ⟨act, call⟩ := a
    have hcase : Sys.StepCase (Solo.drv driver) s.sys act (Ioctl.step s.sys act) :=
      Sys.stepCase _ _ _
    show ∀ f ∈ (Ioctl.step s.sys act).files, _
    generalize Ioctl.step s.sys act = t at hcase ⊢
    cases hcase with
    | loadFailed _ _ | loaded _ _ | unloaded _ _ | same => exact h.ops
    | opened _ hc =>
      intro f hf hdriver
      rcases List.mem_cons.mp hf with rfl | hf
      · exact h.ops_of_cdev hk (Kernel.mem_of_cdevOf hc) hdriver
      · exact h.ops f hf hdriver
    | closed => exact fun f hf => h.ops f (List.mem_of_mem_filter hf)
  value := by
    simp only [step]
    split_ifs
    · rfl
    · rw [result_value, lastCopied_append, h.value]
    · exact h.value

theorem inv_run {acts : List LifeAct} (h : Inv ptr k₀ s)
    (ha : Run.Along (step ptr) LoadsWell s acts) : Inv ptr k₀ (Run.run (step ptr) s acts) := by
  induction acts generalizing s with
  | nil => exact h
  | cons a acts ih => exact ih (inv_step hk h ha.1) ha.2

end

/-! ## Sessions -/

/-- The file `f` of the driver is open as `id`. -/
structure Session (s : Life) (id : Nat) (f : File Module) (st : EtxStatics) : Prop where
  live : s.sys.live () = some st
  file : s.sys.file id = some f
  driver : f.fops.driver = .etx

theorem Session.of_file {k₀ : Kernel Module} {s : Life} (h : Inv ptr k₀ s) {id : Nat}
    {f : File Module} (hf : s.sys.file id = some f) (hdriver : f.fops.driver = .etx) :
    ∃ st, Session s id f st := by
  have hmem := Sys.mem_of_file hf
  obtain ⟨st, hst⟩ := Option.isSome_iff_exists.mp
    (h.sys.pins () ⟨f, hmem, h.sys.files f hmem hdriver⟩)
  exact ⟨st, hst, hf, hdriver⟩

section

variable {k₀ : Kernel Module} {s : Life} {id : Nat} {f : File Module} {st : EtxStatics}

/-- The module is loaded, so that nothing is left to load. -/
theorem Session.loadsWell (h : Session s id f st) (a : LifeAct) : s.LoadsWell a := by
  intro o _ hnone
  rw [h.live] at hnone
  cases hnone

/-- Loads are refused because the module is there, unloads because it is pinned. -/
theorem Session.step (hinv : Inv ptr k₀ s) (h : Session s id f st) {a : LifeAct}
    (ha : a.act ≠ .close id) : Session (s.step ptr a) id f st where
  live := by
    have hmem := Sys.mem_of_file h.file
    have hpinned : s.sys.Pinned .etx := ⟨f, hmem, hinv.sys.files f hmem h.driver⟩
    obtain ⟨act, call⟩ := a
    have hcase : Sys.StepCase (Solo.drv Ioctl.driver) s.sys act (Ioctl.step s.sys act) :=
      Sys.stepCase _ _ _
    show (Ioctl.step s.sys act).live () = some st
    generalize Ioctl.step s.sys act = t at hcase ⊢
    cases hcase with
    | loadFailed hnone _ | loaded hnone _ =>
      rw [h.live] at hnone
      cases hnone
    | unloaded _ hp => exact absurd hpinned hp
    | opened _ _ | closed | same => exact h.live
  file := Sys.file_step h.file ha
  driver := h.driver

theorem Session.calls_step (h : Session s id f st) (a : LifeAct) :
    s.calls <+: (s.step ptr a).calls := by
  have hfresh : s.fresh a.act = false := by
    unfold fresh
    split
    · rw [h.live, Option.isNone_some]
    · rfl
  simp only [Life.step, hfresh, Bool.false_eq_true, if_false]
  split_ifs
  · exact List.prefix_append _ _
  · exact List.prefix_rfl

theorem Session.run (hk : k₀.Foreign .etx) (hinv : Inv ptr k₀ s) (h : Session s id f st)
    {acts : List LifeAct} (hacts : ∀ a ∈ acts, a.act ≠ .close id) :
    Session (Run.run (Life.step ptr) s acts) id f st ∧
      Inv ptr k₀ (Run.run (Life.step ptr) s acts) ∧
      s.calls <+: (Run.run (Life.step ptr) s acts).calls := by
  induction acts generalizing s with
  | nil => exact ⟨h, hinv, List.prefix_rfl⟩
  | cons a acts ih =>
    obtain ⟨ha, hacts⟩ := List.forall_mem_cons.mp hacts
    obtain ⟨hsession, hinv', hcalls⟩ :=
      ih (inv_step hk hinv (h.loadsWell a)) (h.step hinv ha) hacts
    exact ⟨hsession, hinv', (h.calls_step a).trans hcalls⟩

end

/-- A call through an open file of the driver is a call of `etx_ioctl`. -/
theorem Session.enters {k₀ : Kernel Module} {s : Life} {id : Nat} {f : File Module}
    {st : EtxStatics} (hinv : Inv ptr k₀ s) (h : Session s id f st) :
    s.enters (.ioctl id) = true := by
  have hops := hinv.ops f (Sys.mem_of_file h.file) h.driver
  simp only [Life.enters, Sys.dispatch, Act.fileOp, Option.bind_some, h.file, hops]
  rfl

/-- As long as a file of the driver is open, the module stays loaded as it is, the file
works, and what is read is what the last WR_VALUE of any process since the load has
copied. -/
theorem session_register (ptr : Nat) {k₀ : Kernel Module} (hk : k₀.Foreign .etx)
    {before : List LifeAct} (hloads : Run.Along (step ptr) LoadsWell (boot k₀) before) {id : Nat}
    {f : File Module} :
    let s := Run.run (step ptr) (boot k₀) before
    s.sys.file id = some f → f.fops.driver = .etx →
    ∀ during : List LifeAct, (∀ a ∈ during, a.act ≠ .close id) →
      let t := Run.run (step ptr) s during
      (∃ st, s.sys.live () = some st ∧ t.sys.live () = some st) ∧ t.sys.file id = some f ∧
      t.enters (.ioctl id) = true ∧ s.calls <+: t.calls ∧
      ∀ c : IoctlCall, c.cmd = RD_VALUE ptr → c.user.Accessible c.arg 4 →
        StoredAt (c.result ptr t.value).user c.arg (lastCopied ptr t.calls) := by
  intro s hf hdriver during hduring t
  have hinv : Inv ptr k₀ s := inv_run hk (inv_boot k₀) hloads
  obtain ⟨st, hsession⟩ := Session.of_file hinv hf hdriver
  obtain ⟨hlast, hinv', hcalls⟩ := hsession.run hk hinv hduring
  refine ⟨⟨st, hsession.live, hlast.live⟩, hlast.file, hlast.enters hinv', hcalls,
    fun c hcmd hacc => ?_⟩
  have hread : (c.result ptr t.value).user = c.user.store c.arg (int32Bytes t.value) := by
    rw [IoctlCall.result, hcmd, etxIoctl_read hacc]
  rw [hread, ← hinv'.value]
  have hbytes := c.user.bytes_store c.arg (int32Bytes t.value)
  rw [int32Bytes_length] at hbytes
  exact ⟨hacc, hbytes⟩

/-- With pointers of 4 bytes, one process writes through file 4, tries to unload the
driver and closes the file, while another one has file 3 open. -/
theorem session_of_two :
    let o : Outcomes Module := { alloc := fun _ => .ok 240 }
    let u : UserMem := ⟨fun _ => 7, fun _ => true⟩
    let idle : IoctlCall := ⟨0, 0, 0, u⟩
    let s := Run.run (step 4) (boot {})
      [⟨.load () o, idle⟩, ⟨.open 3 ⟨240, 0⟩, idle⟩, ⟨.open 4 ⟨240, 0⟩, idle⟩]
    let t := Run.run (step 4) s
      [⟨.ioctl 4, ⟨2, WR_VALUE 4, 0x1000, u⟩⟩, ⟨.unload (), idle⟩, ⟨.close 4, idle⟩]
    t.enters (.ioctl 3) = true ∧ lastCopied 4 t.calls = 0x07070707 ∧
    ∀ c : IoctlCall, c.cmd = RD_VALUE 4 → c.user.Accessible c.arg 4 →
      StoredAt (c.result 4 t.value).user c.arg (lastCopied 4 t.calls) := by
  intro o u idle s t
  have hloads : Run.Along (step 4) LoadsWell (boot {})
      [⟨.load () o, idle⟩, ⟨.open 3 ⟨240, 0⟩, idle⟩, ⟨.open 4 ⟨240, 0⟩, idle⟩] := by
    refine ⟨?_, nofun, nofun, trivial⟩
    rintro o ⟨⟩ _ ⟨_, _, hclass | hdevice⟩
    · exact hclass rfl
    · exact hdevice rfl
  have hfile : s.sys.file 3 = some ⟨3, fops, [.etx]⟩ := rfl
  obtain ⟨-, -, henters, -, hread⟩ :=
    session_register 4 (Kernel.foreign_empty _) hloads hfile rfl
      [⟨.ioctl 4, ⟨2, WR_VALUE 4, 0x1000, u⟩⟩, ⟨.unload (), idle⟩, ⟨.close 4, idle⟩] (by simp)
  exact ⟨henters, by decide, hread⟩

end Life

end DeviceDrivers.Ioctl
