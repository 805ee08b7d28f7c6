import DeviceDrivers.Lib.Bytes

/-!
# Copies to and from user memory

* `UserMem`: the memory of a process, of which some bytes are not accessible.
* `copyFromUser` and `copyToUser`: both copy the accessible prefix and return
  the number of bytes that were not copied; the first one fills the rest of its
  destination with zeros.
-/

namespace DeviceDrivers

/-! ## User memory -/

/-- The memory of a process. -/
structure UserMem where
  byte : Nat → Byte
  accessible : Nat → Bool

namespace UserMem

/-- The `n` bytes at `a`. -/
def bytes (u : UserMem) (a : Nat) : Nat → List Byte
  | 0 => []
  | n + 1 => u.byte a :: u.bytes (a + 1) n

/-- How many of the `n` bytes at `a` can be accessed before the first fault. -/
def reach (u : UserMem) (a : Nat) : Nat → Nat
  | 0 => 0
  | n + 1 => if u.accessible a then u.reach (a + 1) n + 1 else 0

/-- All `n` bytes at `a` can be accessed. -/
def Accessible (u : UserMem) (a n : Nat) : Prop := u.reach a n = n

instance (u : UserMem) (a n : Nat) : Decidable (u.Accessible a n) := by
  unfold Accessible; infer_instance

/-- The memory with the bytes `bs` written at `a`. -/
def store (u : UserMem) (a : Nat) (bs : List Byte) : UserMem :=
  { u with byte := fun x => if a ≤ x then (bs[x - a]?).getD (u.byte x) else u.byte x }

@[simp] theorem length_bytes (u : UserMem) (a n : Nat) : (u.bytes a n).length = n := by
  induction n generalizing a with
  | zero => rfl
  | succ n ih => simp [bytes, ih]

theorem reach_le (u : UserMem) (a n : Nat) : u.reach a n ≤ n := by
  induction n generalizing a with
  | zero => exact Nat.le_refl 0
  | succ n ih =>
    unfold reach
    split
    · exact Nat.succ_le_succ (ih (a + 1))
    · exact Nat.zero_le _

theorem accessible_iff (u : UserMem) (a n : Nat) :
    u.Accessible a n ↔ ∀ i < n, u.accessible (a + i) = true := by
  induction n generalizing a with
  | zero => simp [Accessible, reach]
  | succ n ih =>
    have hstep : u.Accessible a (n + 1) ↔ u.accessible a = true ∧ u.Accessible (a + 1) n := by
      unfold Accessible
      rw [reach]
      split <;> simp_all
    rw [hstep, ih]
    constructor
    · rintro ⟨h0, h⟩ i hi
      cases i with
      | zero => exact h0
      | succ i =>
        have := h i (by omega)
        rwa [Nat.add_right_comm, Nat.add_assoc] at this
    · intro h
      refine ⟨h 0 (by omega), fun i hi => ?_⟩
      have := h (i + 1) (by omega)
      rwa [← Nat.add_assoc, Nat.add_right_comm] at this

theorem getElem?_bytes (u : UserMem) (a n i : Nat) (hi : i < n) :
    (u.bytes a n)[i]? = some (u.byte (a + i)) := by
  induction n generalizing a i with
  | zero => omega
  | succ n ih =>
    cases i with
    | zero => rfl
    | succ i =>
      rw [bytes, List.getElem?_cons_succ, ih (a + 1) i (by omega), Nat.add_right_comm,
        Nat.add_assoc]

/-- What is written can be read back. -/
theorem bytes_store (u : UserMem) (a : Nat) (bs : List Byte) :
    (u.store a bs).bytes a bs.length = bs := by
  apply List.ext_getElem?
  intro i
  by_cases hi : i < bs.length
  · rw [getElem?_bytes _ _ _ _ hi]
    simp [store, hi]
  · rw [List.getElem?_eq_none (by simpa using hi), List.getElem?_eq_none (by omega)]

end UserMem

/-! ## Copies -/

/-- `copy_from_user` of `n` bytes: the number of bytes not copied, and what the
destination then holds. -/
def copyFromUser (u : UserMem) (src n : Nat) : Nat × List Byte :=
  (n - u.reach src n, u.bytes src (u.reach src n) ++ List.replicate (n - u.reach src n) 0)

/-- `copy_to_user` of `bs`: the number of bytes not copied, and the memory then. -/
def copyToUser (u : UserMem) (dst : Nat) (bs : List Byte) : Nat × UserMem :=
  (bs.length - u.reach dst bs.length, u.store dst (bs.take (u.reach dst bs.length)))

theorem copyFromUser_of_accessible {u : UserMem} {src n : Nat} (h : u.Accessible src n) :
    copyFromUser u src n = (0, u.bytes src n) := by
  have hreach : u.reach src n = n := h
  simp [copyFromUser, hreach]

theorem copyToUser_of_accessible {u : UserMem} {dst : Nat} {bs : List Byte}
    (h : u.Accessible dst bs.length) : copyToUser u dst bs = (0, u.store dst bs) := by
  have hreach : u.reach dst bs.length = bs.length := h
  simp [copyToUser, hreach]

/-- A copy fails exactly when some byte is not accessible. -/
theorem copyToUser_fault_iff (u : UserMem) (dst : Nat) (bs : List Byte) :
    (copyToUser u dst bs).1 ≠ 0 ↔ ¬ u.Accessible dst bs.length := by
  have := u.reach_le dst bs.length
  simp only [copyToUser, UserMem.Accessible]
  omega

end DeviceDrivers
