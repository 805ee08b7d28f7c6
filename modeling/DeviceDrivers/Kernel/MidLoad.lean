import DeviceDrivers.Kernel.ModuleLife

/-!
# Loading a module call by call

User space can act between any two calls of an init or an exit. In this machine
a load and an unload are many steps, one for each call, and each call has its
own outcome. Opens and closes happen in between; an open fails when the module that
it would pin is on its way out.

1. `published_step`: what a body keeps at its calls (`During`) holds in every
   state that a run reaches.
2. `run_initing`, `run_exiting`: the steps of an init or an exit, taken one
   after the other, are the load or unload in one piece.
-/

namespace DeviceDrivers

/-- Where a module is: not loaded, before the rest `p` of its init or exit, or
loaded. -/
inductive Phase (M σ : Type)
  | unloaded
  | initing (p : KProg M (Except Int σ))
  | live (st : σ)
  | exiting (p : KProg M Unit)

/-- The cdev through which an open of `n` gets the file `id`. An open fails when a module
that the cdev names is on its way out. -/
def Kernel.opening {M : Type} (k : Kernel M) (files : List (File M)) (Going : Cdev M → Prop)
    [DecidablePred Going] (id : Nat) (n : Dev) : Option (Cdev M) :=
  match files.find? (fun f => f.id == id), k.cdevOf n with
  | none, some c => if Going c then none else some c
  | _, _ => none

/-- An exit has begun. -/
def Phase.going {M σ : Type} : Phase M σ → Bool
  | .exiting _ => true
  | _ => false

structure MidSys (M σ : Type) where
  kernel : Kernel M
  phase : Phase M σ
  files : List (File M)

/-- `call o` makes the next call of the init or exit under way, with the
outcomes `o`, or takes its return. -/
inductive MidAct (M : Type)
  | insmod
  | call (o : Outcomes M)
  | rmmod
  | open (id : Nat) (d : Dev)
  | close (id : Nat)

namespace MidSys

variable {M σ : Type}

def boot (k : Kernel M) : MidSys M σ := ⟨k, .unloaded, []⟩

/-- The call that the init or exit under way makes next. -/
def pending (s : MidSys M σ) : Option (KCall M) :=
  match s.phase with
  | .initing (.call c _) => some c
  | .exiting (.call c _) => some c
  | _ => none

variable [DecidableEq M]

/-- The cdev names the module `m`, which is on its way out. -/
def Going (m : M) (s : MidSys M σ) (c : Cdev M) : Prop := m ∈ c.pins ∧ s.phase.going = true

instance (m : M) (s : MidSys M σ) (c : Cdev M) : Decidable (s.Going m c) := by
  unfold Going; infer_instance

variable (d : Driver M σ)

def step (s : MidSys M σ) : MidAct M → MidSys M σ
  | .insmod =>
    match s.phase with
    | .unloaded => { s with phase := .initing d.init }
    | _ => s
  | .call o =>
    match s.phase with
    | .initing (.ret (.error _)) => { s with phase := .unloaded }
    | .initing (.ret (.ok st)) => { s with phase := .live st }
    | .initing (.call c p) =>
      { s with kernel := (kcall o c s.kernel).2, phase := .initing (p (kcall o c s.kernel).1) }
    | .exiting (.ret ()) => { s with phase := .unloaded }
    | .exiting (.call c p) =>
      { s with kernel := (kcall o c s.kernel).2, phase := .exiting (p (kcall o c s.kernel).1) }
    | _ => s
  | .rmmod =>
    match s.phase with
    | .live st =>
      if ∃ f ∈ s.files, d.name ∈ f.pins then s else { s with phase := .exiting (d.exit st) }
    | _ => s
  | .open id n =>
    match s.kernel.opening s.files (s.Going d.name) id n with
    | none => s
    | some c => { s with files := ⟨id, c.ops, c.pins⟩ :: s.files }
  | .close id => { s with files := s.files.filter fun f => f.id != id }

theorem step_of_pending {d : Driver M σ} {s : MidSys M σ} {c : KCall M} (h : s.pending = some c)
    (o : Outcomes M) : (s.step d (.call o)).kernel = (kcall o c s.kernel).2 := by
  obtain ⟨k, phase, files⟩ := s
  cases phase with
  | unloaded | live _ => cases h
  | initing p | exiting p =>
    cases p with
    | ret _ => cases h
    | call c' p =>
      cases h
      rfl

/-! ## What holds at every call -/

/-- A call step meets `G`. -/
def CallsWell (G : KCall M → Outcomes M → Kernel M → Prop) (s : MidSys M σ) (a : MidAct M) : Prop :=
  ∀ o c, a = .call o → s.pending = some c → G c o s.kernel

/-- The driver `d` keeps `P` of the tables: at every call of its init, from
tables with `Off`, and of its exit, from tables with `On`. A failed init and an
exit end with `Off`, a successful init with `On`. -/
structure Keeps (d : Driver M σ) (G : KCall M → Outcomes M → Kernel M → Prop)
    (P Off : Kernel M → Prop) (On : σ → Kernel M → Prop) : Prop where
  off : ∀ k, Off k → P k
  on : ∀ st k, On st k → P k
  init : ∀ k, Off k → d.init.During kcall G P
    (fun r k => match r with
      | .error _ => Off k
      | .ok st => On st k) k
  exit : ∀ st k, On st k → (d.exit st).During kcall G P (fun _ k => Off k) k

/-- The invariant: what is still to come of the init or exit keeps `P`. -/
def Published (G : KCall M → Outcomes M → Kernel M → Prop) (P Off : Kernel M → Prop)
    (On : σ → Kernel M → Prop) (s : MidSys M σ) : Prop :=
  match s.phase with
  | .unloaded => Off s.kernel
  | .initing p => p.During kcall G P
    (fun r k => match r with
      | .error _ => Off k
      | .ok st => On st k) s.kernel
  | .live st => On st s.kernel
  | .exiting p => p.During kcall G P (fun _ k => Off k) s.kernel

variable {d} {G : KCall M → Outcomes M → Kernel M → Prop} {P Off : Kernel M → Prop}
  {On : σ → Kernel M → Prop}

theorem Published.keeps (hd : Keeps d G P Off On) {s : MidSys M σ} (h : s.Published G P Off On) :
    P s.kernel := by
  obtain ⟨k, phase, files⟩ := s
  cases phase with
  | unloaded => exact hd.off k h
  | live st => exact hd.on st k h
  | initing p =>
    cases p with
    | call c p => exact h.1
    | ret r =>
      cases r with
      | error _ => exact hd.off k h
      | ok st => exact hd.on st k h
  | exiting p =>
    cases p with
    | call c p => exact h.1
    | ret _ => exact hd.off k h

theorem published_step (hd : Keeps d G P Off On) {s : MidSys M σ} (h : s.Published G P Off On)
    {a : MidAct M} (ha : CallsWell G s a) : (s.step d a).Published G P Off On := by
  obtain ⟨k, phase, files⟩ := s
  cases a with
  | insmod =>
    cases phase with
    | unloaded => exact hd.init k h
    | initing _ | live _ | exiting _ => exact h
  | call o =>
    cases phase with
    | unloaded | live _ => exact h
    | initing p =>
      cases p with
      | call c p => exact h.2 o (ha o c rfl rfl)
      | ret r => cases r <;> exact h
    | exiting p =>
      cases p with
      | call c p => exact h.2 o (ha o c rfl rfl)
      | ret _ => exact h
  | rmmod =>
    cases phase with
    | unloaded | initing _ | exiting _ => exact h
    | live st =>
      simp only [step]
      split
      · exact h
      · exact hd.exit st k h
  | «open» id n =>
    simp only [step]
    split <;> exact h
  | close id => exact h

/-! ## The steps together -/

/-- The phase after an init that returned `r`. -/
def afterInit : Except Int σ → Phase M σ
  | .error _ => .unloaded
  | .ok st => .live st

theorem run_initing (o : Outcomes M) (p : KProg M (Except Int σ)) (k : Kernel M)
    (files : List (File M)) :
    ∃ n, Run.run (step d) ⟨k, .initing p, files⟩ (List.replicate n (.call o)) =
      ⟨(p.exec (kcall o) k).2, afterInit (p.exec (kcall o) k).1, files⟩ := by
  induction p generalizing k with
  | ret r => exact ⟨1, by cases r <;> rfl⟩
  | call c p ih =>
    obtain ⟨n, hn⟩ := ih (kcall o c k).1 (kcall o c k).2
    exact ⟨n + 1, hn⟩

theorem run_exiting (o : Outcomes M) (p : KProg M Unit) (k : Kernel M) (files : List (File M)) :
    ∃ n, Run.run (step d) ⟨k, .exiting p, files⟩ (List.replicate n (.call o)) =
      ⟨(p.exec (kcall o) k).2, .unloaded, files⟩ := by
  induction p generalizing k with
  | ret r => exact ⟨1, rfl⟩
  | call c p ih =>
    obtain ⟨n, hn⟩ := ih (kcall o c k).1 (kcall o c k).2
    exact ⟨n + 1, hn⟩

/-- A module of the machine of `Sys`, as it is between two calls. -/
def ofSys (s : Sys Unit M σ) : MidSys M σ :=
  ⟨s.kernel, match s.live () with
    | none => .unloaded
    | some st => .live st, s.files⟩

/-- A load in one piece is a load call by call. -/
theorem run_load {s : Sys Unit M σ} (hl : s.live () = none) (o : Outcomes M) :
    ∃ n, Run.run (step d) (ofSys s) (.insmod :: List.replicate n (.call o)) =
      ofSys (s.step (Solo.drv d) (.load () o)) := by
  obtain ⟨n, hn⟩ := run_initing (d := d) o d.init s.kernel s.files
  refine ⟨n, ?_⟩
  have hstart : step d (ofSys s) .insmod = ⟨s.kernel, .initing d.init, s.files⟩ := by
    simp [step, ofSys, hl]
  rw [Run.run_cons, hstart, hn]
  simp only [Sys.step, hl]
  cases hr : (s.loading (Solo.drv d) () o).1 with
  | error c =>
    have hr' : (d.init.exec (kcall o) s.kernel).1 = .error c := hr
    simp [ofSys, hl, hr', afterInit, Sys.loading, Solo.drv]
  | ok st =>
    have hr' : (d.init.exec (kcall o) s.kernel).1 = .ok st := hr
    simp [ofSys, hr', afterInit, Sys.loading, Solo.drv]

/-- An unload in one piece is an unload call by call. -/
theorem run_unload {s : Sys Unit M σ} {st : σ} (hl : s.live () = some st)
    (hp : ¬ s.Pinned d.name) :
    ∃ n, Run.run (step d) (ofSys s) (.rmmod :: List.replicate n (.call .idle)) =
      ofSys (s.step (Solo.drv d) (.unload ())) := by
  obtain ⟨n, hn⟩ := run_exiting (d := d) .idle (d.exit st) s.kernel s.files
  refine ⟨n, ?_⟩
  have hpin : ¬ ∃ f ∈ s.files, d.name ∈ f.pins := hp
  have hstart : step d (ofSys s) .rmmod = ⟨s.kernel, .exiting (d.exit st), s.files⟩ := by
    simp only [step, ofSys, hl]
    rw [if_neg hpin]
  rw [Run.run_cons, hstart, hn]
  simp [Sys.step, hl, hp, ofSys, Sys.unloading, Solo.drv]

end MidSys

end DeviceDrivers
