import DeviceDrivers.Kernel.MidLoad
import DeviceDrivers.Kernel.SharedTables

/-!
# Several modules at the same time

The machine of a family of modules on one set of kernel tables. The inits and exits
of all modules are run call by call, and the calls of different modules come in any
order, each with its own outcome. A loaded module can be unloaded at any time, so
the runs with pinned modules are among those of this machine.

`inv_run`: when every driver conforms to the contract of its calls, what it holds
in a state is what its own phase says, whatever the others do.
-/

namespace DeviceDrivers

structure ModSys (I M : Type) (σ : I → Type) where
  kernel : Kernel M
  phase : (i : I) → Phase M (σ i)

inductive ModAct (I M : Type)
  | insmod (i : I)
  | call (i : I) (o : Outcomes M)
  | rmmod (i : I)

/-- The module that an action is about. -/
def ModAct.target {I M : Type} : ModAct I M → I
  | insmod i | call i _ | rmmod i => i

/-- What a module has when its init returned `r`. -/
def Returned {M σ : Type} (Off : Held M → Prop) (On : σ → Held M → Prop) :
    Except Int σ → Held M → Prop
  | .error _, p => Off p
  | .ok st, p => On st p

/-- The driver obeys the contract, from `Off`, what it has when it is not loaded, to
`On st`, what it has when it is loaded with the static variables `st`, and back. -/
structure Conforms {M σ : Type} (d : Driver M σ) (Off : Held M → Prop)
    (On : σ → Held M → Prop) : Prop where
  init : ∀ p, Off p → d.init.Obeys (registering d.name) (Returned Off On) p
  exit : ∀ st p, On st p → (d.exit st).Obeys (registering d.name) (fun _ p => Off p) p

/-- What a module has in a phase: from there on the rest of its init or exit obeys
the contract. -/
def InPhase {M σ : Type} (m : M) (Off : Held M → Prop) (On : σ → Held M → Prop) :
    Phase M σ → Held M → Prop
  | .unloaded, p => Off p
  | .initing body, p => body.Obeys (registering m) (Returned Off On) p
  | .live st, p => On st p
  | .exiting body, p => body.Obeys (registering m) (fun _ p => Off p) p

namespace ModSys

variable {I M : Type} [DecidableEq I] [DecidableEq M] {σ : I → Type}

def boot (k : Kernel M) : ModSys I M σ := ⟨k, fun _ => .unloaded⟩

def setPhase (s : ModSys I M σ) (i : I) (ph : Phase M (σ i)) : ModSys I M σ :=
  { s with phase := Function.update s.phase i ph }

def step (drv : (i : I) → Driver M (σ i)) (s : ModSys I M σ) : ModAct I M → ModSys I M σ
  | .insmod i =>
    match s.phase i with
    | .unloaded => s.setPhase i (.initing (drv i).init)
    | _ => s
  | .call i o =>
    match s.phase i with
    | .initing (.ret (.error _)) => s.setPhase i .unloaded
    | .initing (.ret (.ok st)) => s.setPhase i (.live st)
    | .initing (.call c p) =>
      { s with kernel := (kcall o c s.kernel).2 }.setPhase i (.initing (p (kcall o c s.kernel).1))
    | .exiting (.ret ()) => s.setPhase i .unloaded
    | .exiting (.call c p) =>
      { s with kernel := (kcall o c s.kernel).2 }.setPhase i (.exiting (p (kcall o c s.kernel).1))
    | _ => s
  | .rmmod i =>
    match s.phase i with
    | .live st => s.setPhase i (.exiting ((drv i).exit st))
    | _ => s

omit [DecidableEq M] in
theorem phase_setPhase {s : ModSys I M σ} {i j : I} (hij : i ≠ j) (ph : Phase M (σ j)) :
    (s.setPhase j ph).phase i = s.phase i :=
  Function.update_of_ne hij _ _

/-- What the other modules do leaves the phase of a module alone. -/
theorem phase_other (drv : (i : I) → Driver M (σ i)) (s : ModSys I M σ) {i : I} {a : ModAct I M}
    (ha : i ≠ a.target) : (s.step drv a).phase i = s.phase i := by
  cases a with
  | insmod j | rmmod j | call j o =>
    simp only [step]
    split
    all_goals first | rfl | exact phase_setPhase ha _

/-- Only `insmod` takes a module out of `unloaded`. -/
theorem phase_of_unloaded (drv : (i : I) → Driver M (σ i)) {s : ModSys I M σ} {i : I}
    (h : s.phase i = .unloaded) (a : ModAct I M) :
    (s.step drv a).phase i = .unloaded ∨ a = .insmod i := by
  rcases eq_or_ne i a.target with rfl | hother
  · cases a with
    | insmod i => exact .inr rfl
    | rmmod i | call i o =>
      left
      simp only [ModAct.target] at h ⊢
      simp only [step, h]
  · exact .inl ((phase_other drv s hother).trans h)

/-- Every module holds what its phase says. -/
def Inv (name : I → M) (foreign : M → Bool) (k₀ : Kernel M) (Off : I → Held M → Prop)
    (On : (i : I) → σ i → Held M → Prop) (s : ModSys I M σ) : Prop :=
  ∃ hs, Shared name foreign k₀ hs s.kernel ∧
    ∀ i, InPhase (name i) (Off i) (On i) (s.phase i) (hs i)

variable {name : I → M} {foreign : M → Bool} {k₀ : Kernel M} {Off : I → Held M → Prop}
  {On : (i : I) → σ i → Held M → Prop} {drv : (i : I) → Driver M (σ i)}

/-- A module changes its phase, and what it holds stays the same. -/
theorem Inv.setPhase {s : ModSys I M σ} {hs : I → Held M}
    (hshared : Shared name foreign k₀ hs s.kernel)
    (hphase : ∀ i, InPhase (name i) (Off i) (On i) (s.phase i) (hs i)) {i : I}
    {ph : Phase M (σ i)} (hph : InPhase (name i) (Off i) (On i) ph (hs i)) :
    (s.setPhase i ph).Inv name foreign k₀ Off On := by
  refine ⟨hs, hshared, fun j => ?_⟩
  by_cases hj : j = i
  · subst hj
    simpa [ModSys.setPhase] using hph
  · simpa [ModSys.setPhase, hj] using hphase j

/-- A module makes a call, and then holds what the contract says. -/
theorem Inv.called (hn : Naming name foreign) {s : ModSys I M σ} {hs : I → Held M}
    (hshared : Shared name foreign k₀ hs s.kernel)
    (hphase : ∀ i, InPhase (name i) (Off i) (On i) (s.phase i) (hs i)) {i : I} {c : KCall M}
    (hmay : (registering (name i)).may c (hs i)) (o : Outcomes M) {ph : Phase M (σ i)}
    (hph : ∀ p', (registering (name i)).gets c (hs i) (kcall o c s.kernel).1 p' →
      InPhase (name i) (Off i) (On i) ph p') :
    ({ s with kernel := (kcall o c s.kernel).2 }.setPhase i ph).Inv name foreign k₀ Off On := by
  obtain ⟨p', hgets, hshared'⟩ := Shared.sound hn k₀ i c o hshared hmay
  refine ⟨Function.update hs i p', hshared', fun j => ?_⟩
  by_cases hj : j = i
  · subst hj
    simpa [ModSys.setPhase] using hph p' hgets
  · simpa [ModSys.setPhase, hj] using hphase j

theorem inv_step (hn : Naming name foreign) (hname : ∀ i, (drv i).name = name i)
    (hd : ∀ i, Conforms (drv i) (Off i) (On i)) {s : ModSys I M σ}
    (h : s.Inv name foreign k₀ Off On) (a : ModAct I M) :
    (s.step drv a).Inv name foreign k₀ Off On := by
  obtain ⟨hs, hshared, hphase⟩ := h
  have hsame : s.Inv name foreign k₀ Off On := ⟨hs, hshared, hphase⟩
  cases a with
  | insmod i =>
    have hi := hphase i
    cases hph : s.phase i with
    | unloaded =>
      rw [hph] at hi
      simp only [step, hph]
      refine Inv.setPhase hshared hphase ?_
      show (drv i).init.Obeys (registering (name i)) _ _
      rw [← hname i]
      exact (hd i).init _ hi
    | initing _ | live _ | exiting _ => simpa only [step, hph] using hsame
  | rmmod i =>
    have hi := hphase i
    cases hph : s.phase i with
    | live st =>
      rw [hph] at hi
      simp only [step, hph]
      refine Inv.setPhase hshared hphase ?_
      show ((drv i).exit st).Obeys (registering (name i)) _ _
      rw [← hname i]
      exact (hd i).exit st _ hi
    | unloaded | initing _ | exiting _ => simpa only [step, hph] using hsame
  | call i o =>
    have hi := hphase i
    cases hph : s.phase i with
    | unloaded | live _ => simpa only [step, hph] using hsame
    | initing body =>
      rw [hph] at hi
      cases body with
      | call c p =>
        simp only [step, hph]
        exact Inv.called hn hshared hphase hi.1 o fun p' hgets => hi.2 _ p' hgets
      | ret r =>
        cases r with
        | error e =>
          simp only [step, hph]
          exact Inv.setPhase hshared hphase hi
        | ok st =>
          simp only [step, hph]
          exact Inv.setPhase hshared hphase hi
    | exiting body =>
      rw [hph] at hi
      cases body with
      | call c p =>
        simp only [step, hph]
        exact Inv.called hn hshared hphase hi.1 o fun p' hgets => hi.2 _ p' hgets
      | ret r =>
        simp only [step, hph]
        exact Inv.setPhase hshared hphase hi

omit [DecidableEq I] in
theorem inv_boot (hn : Naming name foreign) (hk₀ : ∀ i, k₀.Foreign (name i))
    (hforeign : ∀ m, (∀ i, name i ≠ m) → foreign m = true) (hoff : ∀ i, Off i {}) :
    (boot k₀ : ModSys I M σ).Inv name foreign k₀ Off On := by
  have hexclusive : Exclusive (fun _ : I => ({} : Held M)) k₀ := fun _ _ h => by cases h
  have hserving : Serving (fun _ : I => ({} : Held M)) k₀ := fun _ _ h => by cases h
  refine ⟨fun _ => {}, ⟨⟨?_, ?_, ?_, ?_, ?_⟩, hexclusive, hserving⟩, hoff⟩
  · exact .of_foreign (fun r hr => hforeign _ fun i => ((hk₀ i).regions r hr).symm) hn
  · exact .of_foreign (fun c hc => hforeign _ fun i => ((hk₀ i).cdevs c hc).1.symm) hn
  · exact .of_foreign (fun c hc => hforeign _ fun i => ((hk₀ i).classes c hc).symm) hn
  · exact .of_foreign (fun n hmem => hforeign _ fun i => ((hk₀ i).nodes n hmem).symm) hn
  · exact .of_foreign (fun d hmem => hforeign _ fun i => ((hk₀ i).i2cDrivers d hmem).symm) hn

theorem inv_run (hn : Naming name foreign) (hname : ∀ i, (drv i).name = name i)
    (hd : ∀ i, Conforms (drv i) (Off i) (On i)) {s : ModSys I M σ}
    (h : s.Inv name foreign k₀ Off On) (acts : List (ModAct I M)) :
    (Run.run (step drv) s acts).Inv name foreign k₀ Off On :=
  Run.inv_run (I := fun s : ModSys I M σ => s.Inv name foreign k₀ Off On)
    (fun _ a hinv => inv_step hn hname hd hinv a) h acts

end ModSys

end DeviceDrivers
