import DeviceDrivers.Lib.CallProg
import DeviceDrivers.Lib.Run
import Mathlib.Logic.Function.Basic

/-!
# Bodies that run at the same time

A pool is a family of bodies over one shared state. A step makes the next call of
one of them, so a run is an interleaving of the bodies, call by call.

A body is not verified in the pool but alone, against a `Contract`: what its part
`P` of the state has to be when it makes a call, and what it then gets and owns.
`Sound` says that the shared state, of which every thread has a part, honours the
contracts.

* `Obeys`: the body keeps to its contract, whatever its calls return.
* `Sound.call`: one call in the shared state is one call of the contract.
* `honours_run`: in every interleaving every thread is where it could be alone,
  and a thread that is done has ended as its own body says.
* `Within`, `rest_of_within`: a thread is done after so many steps of its own.
* `Merge`: a list that the threads have written to, each in its own order.
-/

namespace DeviceDrivers

variable {T C : Type} {R : C → Type} {O S P α β : Type}

/-! ## Contracts -/

/-- `may c p`: whoever owns `p` can make the call `c`. `gets c p r p'`: the call
can return `r` and leave `p'`. -/
structure Contract (C : Type) (R : C → Type) (P : Type) where
  may : C → P → Prop
  gets : (c : C) → P → R c → P → Prop

/-- The contract of calls that do to a part what `h` says, with any oracle. -/
def Contract.ofHandler (h : O → (c : C) → P → R c × P) (may : C → P → Prop) :
    Contract C R P where
  may := may
  gets c p r p' := ∃ o, h o c p = (r, p')

namespace Prog

/-- From the part `p` on, the body makes only calls that it may make, and `Q` holds
of what it returns and of the part it then has. -/
def Obeys (K : Contract C R P) (Q : α → P → Prop) : Prog C R α → P → Prop
  | ret a, p => Q a p
  | call c k, p => K.may c p ∧ ∀ r p', K.gets c p r p' → (k r).Obeys K Q p'

variable {K : Contract C R P}

@[simp] theorem obeys_ret {Q : α → P → Prop} (a : α) (p : P) :
    (ret a : Prog C R α).Obeys K Q p ↔ Q a p := Iff.rfl

@[simp] theorem obeys_pure {Q : α → P → Prop} (a : α) (p : P) :
    (pure a : Prog C R α).Obeys K Q p ↔ Q a p := Iff.rfl

theorem obeys_ite {Q : α → P → Prop} {b : Prop} [Decidable b] {body body' : Prog C R α} {p : P} :
    (if b then body else body').Obeys K Q p ↔
      (b → body.Obeys K Q p) ∧ (¬ b → body'.Obeys K Q p) := by
  split
  · rename_i hb
    simp [hb]
  · rename_i hb
    simp [hb]

theorem obeys_ofHandler {h : O → (c : C) → P → R c × P} {may : C → P → Prop} {Q : α → P → Prop}
    (c : C) (k : R c → Prog C R α) (p : P) : (call c k).Obeys (.ofHandler h may) Q p ↔
      may c p ∧ ∀ o, (k (h o c p).1).Obeys (.ofHandler h may) Q (h o c p).2 := by
  refine and_congr_right fun _ => ⟨fun hobeys o => hobeys _ _ ⟨o, rfl⟩, ?_⟩
  rintro hobeys r p' ⟨o, hcall⟩
  have ho := hobeys o
  rw [hcall] at ho
  exact ho

theorem Obeys.mono {Q Q' : α → P → Prop} (hQ : ∀ a p, Q a p → Q' a p) {body : Prog C R α} {p : P}
    (h : body.Obeys K Q p) : body.Obeys K Q' p := by
  induction body generalizing p with
  | ret a => exact hQ a p h
  | call c k ih => exact ⟨h.1, fun r p' hgets => ih r (h.2 r p' hgets)⟩

/-- The rule of sequence. -/
theorem Obeys.bind {Q : β → P → Prop} {f : α → Prog C R β} {body : Prog C R α} {p : P}
    (h : body.Obeys K (fun a p => (f a).Obeys K Q p) p) : (body >>= f).Obeys K Q p := by
  induction body generalizing p with
  | ret a => exact h
  | call c k ih => exact ⟨h.1, fun r p' hgets => ih r (h.2 r p' hgets)⟩

/-- The body returns after at most `n` calls. -/
def Within : Nat → Prog C R α → Prop
  | _, ret _ => True
  | 0, call _ _ => False
  | n + 1, call _ k => ∀ r, (k r).Within n

@[simp] theorem within_ret (n : Nat) (a : α) : (ret a : Prog C R α).Within n := by
  cases n <;> trivial

@[simp] theorem within_pure (n : Nat) (a : α) : (pure a : Prog C R α).Within n := within_ret n a

@[simp] theorem within_succ (n : Nat) (c : C) (k : R c → Prog C R α) :
    (call c k).Within (n + 1) ↔ ∀ r, (k r).Within n := Iff.rfl

theorem Within.mono {n m : Nat} (hnm : n ≤ m) {body : Prog C R α} (h : body.Within n) :
    body.Within m := by
  induction body generalizing n m with
  | ret a => exact within_ret m a
  | call c k ih =>
    cases n with
    | zero => cases h
    | succ n =>
      obtain ⟨m, rfl⟩ := Nat.exists_eq_add_of_le' (Nat.le_trans (Nat.succ_pos n) hnm)
      exact fun r => ih r (Nat.le_of_succ_le_succ hnm) (h r)

theorem Within.bind {n m : Nat} {body : Prog C R α} (h : body.Within n) {f : α → Prog C R β}
    (hf : ∀ a, (f a).Within m) : (body >>= f).Within (n + m) := by
  induction body generalizing n with
  | ret a => exact (hf a).mono (Nat.le_add_left m n)
  | call c k ih =>
    cases n with
    | zero => cases h
    | succ n =>
      rw [Nat.succ_add]
      exact fun r => ih r (h r)

end Prog

/-! ## Pools -/

/-- The shared state, and what is left of each body. -/
structure Pool (T C : Type) (R : C → Type) (S α : Type) where
  shared : S
  rest : T → Prog C R α

/-- What the parts have in a field `f` when one of them has changed. -/
theorem update_field {B : Type} [DecidableEq T] (f : P → B) (ps : T → P) (t : T) (p : P) :
    (fun u => f (Function.update ps t p u)) = Function.update (fun u => f (ps u)) t (f p) :=
  funext fun u => Function.apply_update (fun _ => f) ps t p u

/-- A field that the change leaves alone. -/
theorem update_field_same {B : Type} [DecidableEq T] (f : P → B) (ps : T → P) (t : T) (p : P)
    (h : f p = f (ps t)) : (fun u => f (Function.update ps t p u)) = fun u => f (ps u) := by
  rw [update_field, h]
  exact Function.update_eq_self t fun u => f (ps u)

/-- Each of a family of parts `ps` honours its contract when together they are a
state as `joint` says: a call that a part may make gets what the contract says,
and leaves the other parts alone. -/
def Sound [DecidableEq T] (K : T → Contract C R P) (h : T → O → (c : C) → S → R c × S)
    (joint : (T → P) → S → Prop) : Prop :=
  ∀ ⦃ps s⦄ t c o, joint ps s → (K t).may c (ps t) →
    ∃ p', (K t).gets c (ps t) (h t o c s).1 p' ∧ joint (Function.update ps t p') (h t o c s).2

namespace Pool

variable [DecidableEq T] (h : T → O → (c : C) → S → R c × S)

/-- The thread `x.1` makes its next call, with the oracle `x.2`. -/
def step (s : Pool T C R S α) (x : T × O) : Pool T C R S α :=
  match s.rest x.1 with
  | .ret _ => s
  | .call c k => ⟨(h x.1 x.2 c s.shared).2, Function.update s.rest x.1 (k (h x.1 x.2 c s.shared).1)⟩

/-- What a step can do. -/
inductive StepCase (s : Pool T C R S α) (t : T) (o : O) : Pool T C R S α → Prop
  | done {a : α} : s.rest t = .ret a → StepCase s t o s
  | called {c : C} {k : R c → Prog C R α} : s.rest t = .call c k →
      StepCase s t o ⟨(h t o c s.shared).2, Function.update s.rest t (k (h t o c s.shared).1)⟩

theorem stepCase (s : Pool T C R S α) (t : T) (o : O) : StepCase h s t o (s.step h (t, o)) := by
  cases hrest : s.rest t with
  | ret a => simpa [step, hrest] using StepCase.done hrest
  | call c k => simpa [step, hrest] using StepCase.called hrest

variable {h}

/-- Every thread has a part of the shared state, from which the rest of its body
obeys the contract. -/
def Honours (K : T → Contract C R P) (joint : (T → P) → S → Prop) (Q : T → α → P → Prop)
    (s : Pool T C R S α) : Prop :=
  ∃ ps, joint ps s.shared ∧ ∀ t, (s.rest t).Obeys (K t) (Q t) (ps t)

variable {K : T → Contract C R P} {joint : (T → P) → S → Prop} {Q : T → α → P → Prop}

theorem honours_step (hs : Sound K h joint) {s : Pool T C R S α} (hh : s.Honours K joint Q)
    (x : T × O) : (s.step h x).Honours K joint Q := by
  obtain ⟨t, o⟩ := x
  obtain ⟨ps, hjoint, hobeys⟩ := hh
  have hcase := stepCase h s t o
  generalize s.step h (t, o) = s' at hcase
  cases hcase with
  | done _ => exact ⟨ps, hjoint, hobeys⟩
  | @called c k hrest =>
    have ht := hobeys t
    rw [hrest] at ht
    obtain ⟨p', hgets, hjoint'⟩ := hs t c o hjoint ht.1
    refine ⟨Function.update ps t p', hjoint', fun u => ?_⟩
    by_cases hu : u = t
    · subst hu
      simpa using ht.2 _ p' hgets
    · simpa [hu] using hobeys u

theorem honours_run (hs : Sound K h joint) {s : Pool T C R S α} (hh : s.Honours K joint Q)
    (acts : List (T × O)) : (Run.run (step h) s acts).Honours K joint Q :=
  Run.inv_run (I := fun s : Pool T C R S α => s.Honours K joint Q)
    (fun _ x hx => honours_step hs hx x) hh acts

/-! ## Termination -/

/-- A step of a thread brings it nearer to its end, and no other thread takes that
back. -/
theorem within_step {s : Pool T C R S α} {t : T} {n : Nat} (hn : (s.rest t).Within n)
    (x : T × O) : ((s.step h x).rest t).Within (n - if x.1 = t then 1 else 0) := by
  obtain ⟨u, o⟩ := x
  have hcase := stepCase h s u o
  generalize s.step h (u, o) = s' at hcase
  cases hcase with
  | @done a hrest =>
    by_cases hu : u = t
    · subst hu
      rw [hrest]
      exact Prog.within_ret _ a
    · simpa [hu] using hn
  | @called c k hrest =>
    by_cases hu : u = t
    · subst hu
      rw [hrest] at hn
      cases n with
      | zero => cases hn
      | succ n => simpa using hn _
    · simpa [hu, Ne.symm hu] using hn

theorem within_run {s : Pool T C R S α} {t : T} {n : Nat} (hn : (s.rest t).Within n)
    (acts : List (T × O)) :
    ((Run.run (step h) s acts).rest t).Within (n - acts.countP fun x => x.1 = t) := by
  induction acts generalizing s n with
  | nil => exact hn
  | cons x acts ih =>
    have hrest := ih (within_step (h := h) hn x)
    rw [Nat.sub_sub, Nat.add_comm] at hrest
    rw [Run.run_cons, List.countP_cons]
    simpa using hrest

/-- A thread of at most `n` calls is done after `n` steps of its own, whatever the
others do meanwhile. -/
theorem rest_of_within {s : Pool T C R S α} {t : T} {n : Nat} (hn : (s.rest t).Within n)
    {acts : List (T × O)} (hacts : n ≤ acts.countP fun x => x.1 = t) :
    ∃ a, (Run.run (step h) s acts).rest t = .ret a := by
  have hleft := within_run (h := h) hn acts
  rw [Nat.sub_eq_zero_of_le hacts] at hleft
  cases hrest : (Run.run (step h) s acts).rest t with
  | ret a => exact ⟨a, rfl⟩
  | call c k =>
    rw [hrest] at hleft
    cases hleft

end Pool

/-! ## Lists that several threads write to -/

section

variable {E : Type} [DecidableEq T]

/-- `Merge f l`: the list `l`, the newest entry first, is put together from what
each thread `t` has written, `f t`. -/
inductive Merge : (T → List E) → List E → Prop
  | nil : Merge (fun _ => []) []
  | cons {f : T → List E} {l : List E} (t : T) (e : E) (h : Merge f l) :
      Merge (Function.update f t (e :: f t)) (e :: l)

/-- Adding an entry to the list and to what a thread has written. -/
theorem Merge.cons_of_eq {f g : T → List E} {l : List E} (h : Merge f l) (t : T) (e : E)
    (hg : g = Function.update f t (e :: f t)) : Merge g (e :: l) := by
  rw [hg]
  exact .cons t e h

end

end DeviceDrivers
