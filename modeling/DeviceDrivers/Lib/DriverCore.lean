import DeviceDrivers.Lib.Run
import Mathlib.Data.List.Nodup
import Mathlib.Data.List.Perm.Basic

/-!
# Drivers and devices on a bus

The part of a kernel that brings drivers and devices together, for one driver over
any type of devices. Devices come and go, and the driver is registered and
deregistered, in any order. The driver is called for each device that it takes, and
in the order that the kernel likes. A driver whose module is loaded again starts with
a state of its own.

* `Callback.boundAfter`: a history of calls for one device, in which probes and
  removals take turns.
* `Core.Inv`: a device is bound exactly when it is there, the driver is registered
  and takes it.
* `Core.inv_life`: what a driver keeps of its own state, call by call, holds in every
  run of loads and unloads.
-/

namespace DeviceDrivers

/-- A driver on the bus. `σ` is what its callbacks read and write. -/
structure CoreDriver (δ σ : Type) where
  takes : δ → Bool
  probe : δ → σ → Int × σ
  remove : δ → σ → σ

inductive Callback (δ : Type)
  | probe (dev : δ)
  | remove (dev : δ)
deriving DecidableEq, Repr

/-- The devices that are there, those that are bound to the driver, and the calls
that the driver got, each with the newest first. -/
structure Core (δ σ : Type) where
  registered : Bool := false
  present : List δ := []
  bound : List δ := []
  calls : List (Callback δ) := []
  state : σ

/-- What happens on the bus. `order` is the order of the calls that follow. Where it
is not one of all the devices, their own order is taken. -/
inductive CoreAct (δ : Type)
  | register (order : List δ)
  | deregister (order : List δ)
  | plug (dev : δ)
  | unplug (dev : δ)

variable {δ σ : Type} [DecidableEq δ]

/-- Whether the device is bound after the calls, none when a probe or a removal of it
did not have its turn. -/
def Callback.boundAfter (d : δ) : List (Callback δ) → Option Bool
  | [] => some false
  | .probe d' :: calls =>
    if d' = d then (if boundAfter d calls = some false then some true else none)
    else boundAfter d calls
  | .remove d' :: calls =>
    if d' = d then (if boundAfter d calls = some true then some false else none)
    else boundAfter d calls

namespace Core

variable (drv : CoreDriver δ σ)

omit [DecidableEq δ] in
/-- The driver is asked to take the device, and has it when it returns 0. -/
def probe (c : Core δ σ) (d : δ) : Core δ σ :=
  { c with
    bound := if (drv.probe d c.state).1 = 0 then d :: c.bound else c.bound
    calls := .probe d :: c.calls
    state := (drv.probe d c.state).2 }

def remove (c : Core δ σ) (d : δ) : Core δ σ :=
  { c with
    bound := c.bound.erase d
    calls := .remove d :: c.calls
    state := drv.remove d c.state }

/-- The devices `ds` in the order `order`. -/
def arrange (order ds : List δ) : List δ := if order.Perm ds then order else ds

theorem arrange_perm (order ds : List δ) : (arrange order ds).Perm ds := by
  unfold arrange
  split
  · assumption
  · exact List.Perm.refl ds

def step (c : Core δ σ) : CoreAct δ → Core δ σ
  | .register order =>
    if c.registered then c
    else
      ((arrange order c.present).filter drv.takes).foldl (probe drv) { c with registered := true }
  | .deregister order =>
    if c.registered then (arrange order c.bound).foldl (remove drv) { c with registered := false }
    else c
  | .plug d =>
    if d ∈ c.present then c
    else if c.registered && drv.takes d then
      probe drv { c with present := d :: c.present } d
    else { c with present := d :: c.present }
  | .unplug d =>
    if d ∈ c.bound then { remove drv c d with present := c.present.erase d }
    else { c with present := c.present.erase d }

omit [DecidableEq δ] in
@[simp] theorem registered_probeAll (ds : List δ) (c : Core δ σ) :
    (ds.foldl (probe drv) c).registered = c.registered := by
  induction ds generalizing c with
  | nil => rfl
  | cons d ds ih => exact ih _

@[simp] theorem registered_removeAll (ds : List δ) (c : Core δ σ) :
    (ds.foldl (remove drv) c).registered = c.registered := by
  induction ds generalizing c with
  | nil => rfl
  | cons d ds ih => exact ih _

theorem registered_step (c : Core δ σ) (a : CoreAct δ) : (c.step drv a).registered =
    match a with
    | .register _ => true
    | .deregister _ => false
    | .plug _ | .unplug _ => c.registered := by
  cases a with
  | register order =>
    simp only [step]
    split
    · assumption
    · exact registered_probeAll drv _ _
  | deregister order =>
    simp only [step]
    split
    · exact registered_removeAll drv _ _
    · rename_i hoff
      simpa using hoff
  | plug d =>
    simp only [step]
    split
    · rfl
    · split <;> rfl
  | unplug d =>
    simp only [step]
    split <;> rfl

end Core

/-! ## What a driver keeps -/

/-- A probe of a device that the driver takes returns 0, and the callbacks keep `J` of
the bound devices, the calls and the state of the driver. -/
structure CoreDriver.Keeps (drv : CoreDriver δ σ)
    (J : List δ → List (Callback δ) → σ → Prop) : Prop where
  binds : ∀ d st, drv.takes d = true → (drv.probe d st).1 = 0
  probe : ∀ d bound calls st, drv.takes d = true → d ∉ bound → J bound calls st →
    J (d :: bound) (.probe d :: calls) (drv.probe d st).2
  remove : ∀ d bound calls st, d ∈ bound → bound.Nodup → J bound calls st →
    J (bound.erase d) (.remove d :: calls) (drv.remove d st)

namespace Core

variable {drv : CoreDriver δ σ} {J : List δ → List (Callback δ) → σ → Prop} {c : Core δ σ}

/-- What also holds between the calls of a registration or deregistration. -/
structure Legal (drv : CoreDriver δ σ) (J : List δ → List (Callback δ) → σ → Prop)
    (c : Core δ σ) : Prop where
  present : c.present.Nodup
  bound : c.bound.Nodup
  there : ∀ d ∈ c.bound, d ∈ c.present ∧ drv.takes d = true
  turns : ∀ d, Callback.boundAfter d c.calls = some (decide (d ∈ c.bound))
  kept : J c.bound c.calls c.state

/-- A device is bound exactly when it is there, and the driver is registered and takes
it. -/
structure Inv (drv : CoreDriver δ σ) (J : List δ → List (Callback δ) → σ → Prop)
    (c : Core δ σ) : Prop extends Legal drv J c where
  bound_iff : ∀ d, d ∈ c.bound ↔ c.registered = true ∧ d ∈ c.present ∧ drv.takes d = true

theorem Legal.probe (h : Legal drv J c) (hdrv : drv.Keeps J) {d : δ} (hthere : d ∈ c.present)
    (htakes : drv.takes d = true) (hnot : d ∉ c.bound) : Legal drv J (c.probe drv d) where
  present := h.present
  bound := by
    simpa [Core.probe, hdrv.binds d _ htakes] using And.intro hnot h.bound
  there d' hd' := by
    simp only [Core.probe, hdrv.binds d _ htakes, if_true, List.mem_cons] at hd'
    rcases hd' with rfl | hd'
    · exact ⟨hthere, htakes⟩
    · exact h.there d' hd'
  turns d' := by
    simp only [Core.probe, hdrv.binds d _ htakes, if_true, Callback.boundAfter, h.turns]
    by_cases hd : d = d'
    · subst hd
      simp [hnot]
    · simp [hd, Ne.symm hd]
  kept := by
    simpa [Core.probe, hdrv.binds d _ htakes] using hdrv.probe d _ _ _ htakes hnot h.kept

theorem Legal.remove (h : Legal drv J c) (hdrv : drv.Keeps J) {d : δ} (hbound : d ∈ c.bound) :
    Legal drv J (c.remove drv d) where
  present := h.present
  bound := h.bound.erase d
  there d' hd' := h.there d' (List.mem_of_mem_erase hd')
  turns d' := by
    simp only [Core.remove, Callback.boundAfter, h.turns, h.bound.mem_erase_iff]
    by_cases hd : d = d'
    · subst hd
      simp [hbound]
    · simp [hd, Ne.symm hd]
  kept := hdrv.remove d _ _ _ hbound h.bound h.kept

/-- The probes of a registration: all the devices are bound. -/
theorem Legal.probeAll (h : Legal drv J c) (hdrv : drv.Keeps J) {ds : List δ} (hnodup : ds.Nodup)
    (hds : ∀ d ∈ ds, d ∈ c.present ∧ drv.takes d = true ∧ d ∉ c.bound) :
    Legal drv J (ds.foldl (Core.probe drv) c) ∧
      (∀ d, d ∈ (ds.foldl (Core.probe drv) c).bound ↔ d ∈ ds ∨ d ∈ c.bound) ∧
      (ds.foldl (Core.probe drv) c).present = c.present := by
  induction ds generalizing c with
  | nil => exact ⟨h, by simp, rfl⟩
  | cons d ds ih =>
    obtain ⟨hnot, hnodup⟩ := List.nodup_cons.mp hnodup
    obtain ⟨hthere, htakes, hfree⟩ := hds d List.mem_cons_self
    have hbound : (c.probe drv d).bound = d :: c.bound := by
      simp [Core.probe, hdrv.binds d _ htakes]
    have hrest : ∀ d' ∈ ds, d' ∈ (c.probe drv d).present ∧ drv.takes d' = true ∧
        d' ∉ (c.probe drv d).bound := by
      intro d' hd'
      obtain ⟨hthere', htakes', hfree'⟩ := hds d' (List.mem_cons_of_mem _ hd')
      rw [hbound, List.mem_cons]
      refine ⟨hthere', htakes', ?_⟩
      rintro (rfl | hin)
      · exact hnot hd'
      · exact hfree' hin
    obtain ⟨hlegal, hiff, hpresent⟩ := ih (h.probe hdrv hthere htakes hfree) hnodup hrest
    refine ⟨hlegal, fun d' => ?_, hpresent⟩
    rw [List.foldl_cons, hiff, hbound, List.mem_cons, List.mem_cons, or_left_comm, or_assoc]

/-- The removals of a deregistration: no device is bound. -/
theorem Legal.removeAll (h : Legal drv J c) (hdrv : drv.Keeps J) {ds : List δ}
    (hds : ds.Perm c.bound) : Legal drv J (ds.foldl (Core.remove drv) c) ∧
      (ds.foldl (Core.remove drv) c).bound = [] := by
  induction ds generalizing c with
  | nil => exact ⟨h, List.nil_perm.mp hds⟩
  | cons d ds ih =>
    have hbound : d ∈ c.bound := hds.subset List.mem_cons_self
    have hrest : ds.Perm (c.remove drv d).bound := by
      have herase := hds.erase d
      rwa [List.erase_cons_head] at herase
    exact ih (h.remove hdrv hbound) hrest

theorem inv_step (hdrv : drv.Keeps J) (h : Inv drv J c) (a : CoreAct δ) :
    Inv drv J (c.step drv a) := by
  cases a with
  | register order =>
    simp only [step]
    split
    · exact h
    rename_i hoff
    have hnone : ∀ d, d ∉ c.bound := fun d hd => hoff ((h.bound_iff d).mp hd).1
    have hperm := arrange_perm order c.present
    have hlegal : Legal drv J { c with registered := true } :=
      ⟨h.present, h.bound, h.there, h.turns, h.kept⟩
    obtain ⟨hlegal, hiff, hpresent⟩ := hlegal.probeAll hdrv
      ((hperm.nodup_iff.mpr h.present).filter drv.takes) fun d hd =>
        ⟨hperm.subset (List.mem_filter.mp hd).1, (List.mem_filter.mp hd).2, hnone d⟩
    refine ⟨hlegal, fun d => ?_⟩
    rw [hiff, hpresent, registered_probeAll, List.mem_filter, hperm.mem_iff]
    simp [hnone d]
  | deregister order =>
    simp only [step]
    split
    · have hlegal : Legal drv J { c with registered := false } :=
        ⟨h.present, h.bound, h.there, h.turns, h.kept⟩
      obtain ⟨hlegal, hnone⟩ := hlegal.removeAll hdrv (arrange_perm order c.bound)
      refine ⟨hlegal, fun d => ?_⟩
      rw [hnone, registered_removeAll]
      simp
    · exact h
  | plug d =>
    simp only [step]
    split
    · exact h
    rename_i hnew
    have hnot : d ∉ c.bound := fun hd => hnew (h.there d hd).1
    have hlegal : Legal drv J { c with present := d :: c.present } :=
      { h.toLegal with
        present := List.nodup_cons.mpr ⟨hnew, h.present⟩
        there := fun d' hd' => ⟨List.mem_cons_of_mem _ (h.there d' hd').1, (h.there d' hd').2⟩ }
    split
    · rename_i hon
      obtain ⟨hregistered, htakes⟩ : c.registered = true ∧ drv.takes d = true := by
        simpa using hon
      refine ⟨hlegal.probe hdrv List.mem_cons_self htakes hnot, fun d' => ?_⟩
      by_cases hd : d' = d
      · subst hd
        simp [Core.probe, hdrv.binds _ _ htakes, hregistered, htakes]
      · simp [Core.probe, hdrv.binds _ _ htakes, h.bound_iff, hd]
    · rename_i hoff
      refine ⟨hlegal, fun d' => ?_⟩
      by_cases hd : d' = d
      · subst hd
        simpa [hnot] using hoff
      · simp [h.bound_iff, hd]
  | unplug d =>
    simp only [step]
    split
    · rename_i hbound
      have hlegal := h.toLegal.remove hdrv hbound
      have hbound' : (c.remove drv d).bound = c.bound.erase d := rfl
      refine ⟨{ hlegal with
        present := h.present.erase d
        there := fun d' hd' => ?_ }, fun d' => ?_⟩
      · have hd := (h.bound.mem_erase_iff).mp (hbound' ▸ hd')
        exact ⟨h.present.mem_erase_iff.mpr ⟨hd.1, (h.there d' hd.2).1⟩, (h.there d' hd.2).2⟩
      · rw [hbound', h.bound.mem_erase_iff, h.present.mem_erase_iff, h.bound_iff]
        exact ⟨fun ⟨hne, hon, hin, htakes⟩ => ⟨hon, ⟨hne, hin⟩, htakes⟩,
          fun ⟨hon, ⟨hne, hin⟩, htakes⟩ => ⟨hne, hon, hin, htakes⟩⟩
    · rename_i hfree
      refine ⟨{ h.toLegal with
        present := h.present.erase d
        there := fun d' hd' => ?_ }, fun d' => ?_⟩
      · have hne : d' ≠ d := fun heq => hfree (heq ▸ hd')
        exact ⟨h.present.mem_erase_iff.mpr ⟨hne, (h.there d' hd').1⟩, (h.there d' hd').2⟩
      · by_cases hd : d' = d
        · subst hd
          simp [h.present.mem_erase_iff, hfree]
        · simp [h.present.mem_erase_iff, h.bound_iff, hd]

/-- A driver that is not registered gets no calls. -/
theorem Inv.calls_of_off (h : Inv drv J c) (hoff : c.registered = false) {a : CoreAct δ}
    (ha : ∀ order, a ≠ .register order) : (c.step drv a).calls = c.calls := by
  cases a with
  | register order => exact absurd rfl (ha order)
  | deregister order => simp [step, hoff]
  | plug d =>
    simp only [step, hoff, Bool.false_and, Bool.false_eq_true, if_false]
    split <;> rfl
  | unplug d =>
    have hfree : d ∉ c.bound := fun hd => by
      rw [h.bound_iff, hoff] at hd
      cases hd.1
    simp [step, hfree]

omit [DecidableEq δ] in
/-- No device is there and the driver is not registered. -/
def boot (st : σ) : Core δ σ := { state := st }

theorem inv_boot {st : σ} (h : J [] [] st) : Inv drv J (boot st) where
  present := List.nodup_nil
  bound := List.nodup_nil
  there := nofun
  turns _ := by simp [boot, Callback.boundAfter]
  kept := h
  bound_iff := by simp [boot]

/-- The module of the driver is loaded: the state is new, and nothing was called. -/
def reload (st : σ) (c : Core δ σ) : Core δ σ := { boot st with present := c.present }

theorem Inv.reload (hc : Inv drv J c) {st : σ} (h : J [] [] st) : Inv drv J (c.reload st) where
  present := hc.present
  bound := List.nodup_nil
  there := nofun
  turns _ := by simp [Core.reload, boot, Callback.boundAfter]
  kept := h
  bound_iff := by simp [Core.reload, boot]

end Core

/-! ## The module of the driver -/

/-- What happens to the module of a driver, and on its bus. `ret` is what the
registration returns. -/
inductive LoadAct (δ : Type)
  | insmod (ret : Int) (order : List δ)
  | rmmod (order : List δ)
  | plug (dev : δ)
  | unplug (dev : δ)

namespace Core

variable {drv : CoreDriver δ σ} {J : List δ → List (Callback δ) → σ → Prop}

/-- The init of the module registers the driver, its exit deregisters it. `st` is the
state of the driver in the file of the module. -/
def life (drv : CoreDriver δ σ) (st : σ) (c : Core δ σ) : LoadAct δ → Core δ σ
  | .insmod ret order =>
    if c.registered then c
    else if ret < 0 then c.reload st
    else (c.reload st).step drv (.register order)
  | .rmmod order => c.step drv (.deregister order)
  | .plug d => c.step drv (.plug d)
  | .unplug d => c.step drv (.unplug d)

theorem inv_life_step (hdrv : drv.Keeps J) {st : σ} (hst : J [] [] st) {c : Core δ σ}
    (h : Inv drv J c) (a : LoadAct δ) : Inv drv J (c.life drv st a) := by
  cases a with
  | insmod ret order =>
    have hnew : Inv drv J (c.reload st) := h.reload hst
    simp only [life]
    split
    · exact h
    · split
      · exact hnew
      · exact inv_step hdrv hnew (.register order)
  | rmmod order => exact inv_step hdrv h (.deregister order)
  | plug d => exact inv_step hdrv h (.plug d)
  | unplug d => exact inv_step hdrv h (.unplug d)

theorem inv_life (hdrv : drv.Keeps J) {st : σ} (hst : J [] [] st) (acts : List (LoadAct δ)) :
    Inv drv J (Run.run (life drv st) (boot st) acts) :=
  Run.inv_run (I := Inv drv J) (fun _ a h => inv_life_step hdrv hst h a) (inv_boot hst) acts

end Core

end DeviceDrivers
