import DeviceDrivers.Lib.Bytes
import Mathlib.Logic.Function.Basic

/-!
# A heap that keeps a log

The objects of a heap are byte strings with an address. `Mem V` is a heap with
the log of what was done to it: which object was allocated, freed or accessed,
with its state at that time. `V` names the pointers of a program, so that the
log tells through which of them an access was made.

The three ways to misuse a heap can be read off the log:
* `UsesLive`: no object is accessed or freed when it is not there;
* `freesOf`: how often an object is freed;
* `use` entries, which have the offsets of an access and the size of the object.
-/

namespace DeviceDrivers

abbrev Addr : Type := Nat

/-- One entry of the log. `size` is the size of the object at that time, `none`
when there is no such object. -/
inductive MemEvent (V : Type)
  | alloc (p : Addr) (n : Nat)
  | free (p : Addr) (live : Bool)
  | use (v : V) (p : Addr) (off n : Nat) (size : Option Nat)
deriving DecidableEq, Repr

/-- A heap and its log, the newest entry first. -/
structure Mem (V : Type) where
  heap : Addr → Option (List Byte)
  log : List (MemEvent V)

namespace Mem

variable {V : Type}

/-- Allocate `n` bytes with the contents `stale` at `place`. The allocation fails
when `place` is not given, or in use. -/
def alloc (place : Option Addr) (stale : Nat → Byte) (n : Nat) (m : Mem V) : Option Addr × Mem V :=
  match place with
  | none => (none, m)
  | some p =>
    match m.heap p with
    | some _ => (none, m)
    | none =>
      (some p, ⟨Function.update m.heap p (some ((List.range n).map stale)), .alloc p n :: m.log⟩)

theorem alloc_of_free {m : Mem V} {p : Addr} (h : m.heap p = none) (stale : Nat → Byte) (n : Nat) :
    m.alloc (some p) stale n =
      (some p, ⟨Function.update m.heap p (some ((List.range n).map stale)),
        .alloc p n :: m.log⟩) := by
  simp [alloc, h]

theorem alloc_of_full {m : Mem V} {place : Option Addr}
    (h : ∀ p, place = some p → (m.heap p).isSome) (stale : Nat → Byte) (n : Nat) :
    m.alloc place stale n = (none, m) := by
  cases hp : place with
  | none => rfl
  | some p =>
    obtain ⟨bs, hbs⟩ := Option.isSome_iff_exists.mp (h p hp)
    simp [alloc, hbs]

/-- Freeing an object that was allocated at `p` gives the heap before it back. -/
theorem update_none {heap : Addr → Option (List Byte)} {p : Addr} (h : heap p = none) :
    Function.update heap p none = heap := by
  rw [← h]
  exact Function.update_eq_self p heap

/-- An allocation at `place` gives the free address `p`. -/
def Gives (m : Mem V) (place : Option Addr) (p : Addr) : Prop := place = some p ∧ m.heap p = none

theorem Gives.unique {m : Mem V} {place : Option Addr} {p q : Addr} (hp : m.Gives place p)
    (hq : m.Gives place q) : p = q :=
  Option.some.inj (hp.1.symm.trans hq.1)

/-- A further allocation next to the object at `p`. -/
theorem gives_next {m m' : Mem V} {p : Addr} {bs : List Byte}
    (h : m'.heap = Function.update m.heap p (some bs)) (place : Option Addr) (q : Addr) :
    m'.Gives place q ↔ m.Gives place q ∧ q ≠ p := by
  unfold Gives
  rw [h]
  by_cases hq : q = p
  · simp [hq]
  · simp [hq]

theorem alloc_of_gives {m : Mem V} {place : Option Addr} {p : Addr} (h : m.Gives place p)
    (stale : Nat → Byte) (n : Nat) :
    m.alloc place stale n =
      (some p, ⟨Function.update m.heap p (some ((List.range n).map stale)),
        .alloc p n :: m.log⟩) := by
  rw [h.1]
  exact alloc_of_free h.2 stale n

theorem alloc_of_not_gives {m : Mem V} {place : Option Addr} (h : ∀ p, ¬ m.Gives place p)
    (stale : Nat → Byte) (n : Nat) : m.alloc place stale n = (none, m) := by
  refine alloc_of_full (fun p hp => ?_) stale n
  rw [Option.isSome_iff_ne_none]
  exact fun hnone => h p ⟨hp, hnone⟩

@[simp] def free (p : Addr) (m : Mem V) : Mem V :=
  ⟨Function.update m.heap p none, .free p (m.heap p).isSome :: m.log⟩

/-- The access of `n` bytes at `off`. -/
@[simp] def touch (v : V) (p : Addr) (off n : Nat) (m : Mem V) : Mem V :=
  { m with log := .use v p off n ((m.heap p).map List.length) :: m.log }

/-- The bytes of an object, none when it is not there. -/
@[simp] def bytes (m : Mem V) (p : Addr) : List Byte := (m.heap p).getD []

@[simp] def load (wild : Nat → Byte) (v : V) (p : Addr) (off n : Nat) (m : Mem V) :
    List Byte × Mem V :=
  (readAt wild (m.bytes p) off n, m.touch v p off n)

@[simp] def store (v : V) (p : Addr) (off : Nat) (bs : List Byte) (m : Mem V) : Mem V :=
  { m.touch v p off bs.length with
    heap := Function.update m.heap p ((m.heap p).map fun old => writeAt old off bs) }

end Mem

/-! ## Reading the log -/

variable {V : Type}

/-- The entry frees `p`. -/
@[simp] def MemEvent.frees (p : Addr) : MemEvent V → Bool
  | .free q _ => q == p
  | _ => false

/-- How often `p` is freed. -/
def freesOf (p : Addr) (log : List (MemEvent V)) : Nat := log.countP (·.frees p)

/-- The object is there. -/
@[simp] def MemEvent.OnLive : MemEvent V → Prop
  | .alloc _ _ => True
  | .free _ live => live = true
  | .use _ _ _ _ size => size.isSome

/-- Nothing is accessed or freed that is not there. -/
def UsesLive (log : List (MemEvent V)) : Prop := ∀ e ∈ log, e.OnLive

@[simp] theorem freesOf_nil (p : Addr) : freesOf p ([] : List (MemEvent V)) = 0 := rfl

@[simp] theorem freesOf_cons (p : Addr) (e : MemEvent V) (log : List (MemEvent V)) :
    freesOf p (e :: log) = freesOf p log + if e.frees p then 1 else 0 := List.countP_cons

@[simp] theorem usesLive_nil : UsesLive ([] : List (MemEvent V)) := List.forall_mem_nil _

@[simp] theorem usesLive_cons (e : MemEvent V) (log : List (MemEvent V)) :
    UsesLive (e :: log) ↔ e.OnLive ∧ UsesLive log := List.forall_mem_cons

end DeviceDrivers
