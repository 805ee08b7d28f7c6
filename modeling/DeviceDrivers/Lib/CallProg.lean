import Mathlib.Logic.Basic

/-!
# Programs that make calls

`Prog C R α` is a function body that returns an `α` and on its way makes calls
`c : C`, each answered by an `R c`. The body is an ordinary Lean definition in
`do` notation. What a call does is given separately, by a handler, so the same
body can be run in one piece, or stopped before each of its calls.

* `exec`: the run in one piece; `exec_bind` runs a sequence part by part.
* `execE`: the same where a call can end the run, with `execE_bind`.
* `tries`: such a body as one over calls that answer with a result or an error.
* `During`: what holds at every call, whatever the calls return.
-/

namespace DeviceDrivers

/-- A body over the calls `C` with answers `R`. -/
inductive Prog (C : Type) (R : C → Type) (α : Type) : Type
  | ret (a : α) : Prog C R α
  | call (c : C) (k : R c → Prog C R α) : Prog C R α

namespace Prog

variable {C : Type} {R : C → Type} {S O α β : Type}

def bind : Prog C R α → (α → Prog C R β) → Prog C R β
  | ret a, f => f a
  | call c k, f => call c fun r => (k r).bind f

instance : Monad (Prog C R) where
  pure := ret
  bind := bind

@[simp] theorem ret_bind (a : α) (f : α → Prog C R β) : (ret a : Prog C R α) >>= f = f a := rfl

@[simp] theorem pure_bind (a : α) (f : α → Prog C R β) : (pure a : Prog C R α) >>= f = f a := rfl

@[simp] theorem call_bind (c : C) (k : R c → Prog C R α) (f : α → Prog C R β) :
    call c k >>= f = call c fun r => k r >>= f := rfl

/-! ## Running a body in one piece -/

/-- The answer of a body run without interruption, and the state after it. -/
def exec (h : (c : C) → S → R c × S) : Prog C R α → S → α × S
  | ret a, s => (a, s)
  | call c k, s => exec h (k (h c s).1) (h c s).2

variable (h : (c : C) → S → R c × S)

@[simp] theorem exec_ret (a : α) (s : S) : exec h (ret a) s = (a, s) := rfl

@[simp] theorem exec_pure (a : α) (s : S) : exec h (pure a : Prog C R α) s = (a, s) := rfl

@[simp] theorem exec_call (c : C) (k : R c → Prog C R α) (s : S) :
    exec h (call c k) s = exec h (k (h c s).1) (h c s).2 := rfl

theorem exec_bind (p : Prog C R α) (f : α → Prog C R β) (s : S) :
    exec h (p >>= f) s = exec h (f (exec h p s).1) (exec h p s).2 := by
  induction p generalizing s with
  | ret a => rfl
  | call c k ih => exact ih (h c s).1 (h c s).2

/-! ## Running a body that a call can end -/

section

variable {E : Type}

/-- The answer of a body, or the error of the call that ended it, and the state
after it. -/
def execE (h : (c : C) → S → Except E (R c) × S) : Prog C R α → S → Except E α × S
  | ret a, s => (.ok a, s)
  | call c k, s =>
    match h c s with
    | (.ok r, s') => execE h (k r) s'
    | (.error e, s') => (.error e, s')

variable (h : (c : C) → S → Except E (R c) × S)

@[simp] theorem execE_pure (a : α) (s : S) : execE h (pure a : Prog C R α) s = (.ok a, s) := rfl

theorem execE_call_ok {c : C} {s s' : S} {r : R c} (hr : h c s = (.ok r, s'))
    (k : R c → Prog C R α) : execE h (call c k) s = execE h (k r) s' := by
  simp only [execE, hr]

theorem execE_call_error {c : C} {s s' : S} {e : E} (hr : h c s = (.error e, s'))
    (k : R c → Prog C R α) : execE h (call c k) s = (.error e, s') := by
  simp only [execE, hr]

theorem execE_bind (p : Prog C R α) (f : α → Prog C R β) (s : S) :
    execE h (p >>= f) s =
      match execE h p s with
      | (.ok a, s') => execE h (f a) s'
      | (.error e, s') => (.error e, s') := by
  induction p generalizing s with
  | ret a => rfl
  | call c k ih =>
    cases hr : h c s with
    | mk answer t =>
      cases answer with
      | ok r =>
        rw [call_bind, execE_call_ok h hr, execE_call_ok h hr]
        exact ih r t
      | error e =>
        rw [call_bind, execE_call_error h hr, execE_call_error h hr]

end

/-! ## Bodies whose calls can fail -/

/-- The body when each call can end it: it returns the error of the call that did. -/
def tries {E : Type} : Prog C R α → Prog C (fun c => Except E (R c)) (Except E α)
  | ret a => ret (.ok a)
  | call c k => call c fun
    | .ok r => (k r).tries
    | .error e => ret (.error e)

@[simp] theorem tries_ret {E : Type} (a : α) :
    (ret a : Prog C R α).tries = ret (.ok a : Except E α) := rfl

@[simp] theorem tries_pure {E : Type} (a : α) :
    (pure a : Prog C R α).tries = ret (.ok a : Except E α) := rfl

@[simp] theorem tries_call {E : Type} (c : C) (k : R c → Prog C R α) :
    (call c k).tries = call c fun r : Except E (R c) =>
      match r with
      | .ok r => (k r).tries
      | .error e => ret (.error e) := by
  rw [tries]

/-! ## Running a body one call at a time -/

/-- `During h G P Q p s`: whenever the calls of `p` are answered from `s` on,
each with an oracle `o` that `G` allows, `P` holds before every call, and `Q`
holds of the returned value and the state at the return. -/
def During (h : O → (c : C) → S → R c × S) (G : C → O → S → Prop) (P : S → Prop)
    (Q : α → S → Prop) : Prog C R α → S → Prop
  | ret a, s => Q a s
  | call c k, s => P s ∧ ∀ o, G c o s → During h G P Q (k (h o c s).1) (h o c s).2

end Prog

end DeviceDrivers
