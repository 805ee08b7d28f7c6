import Mathlib.Data.List.Basic

/-!
# Bytes

* `leBytes` and `leValue`: the bytes of a number on a little-endian machine.
* `readAt` and `writeAt`: a part of a byte string. What a read finds outside it
  is up to the caller, and a write outside it is lost.
* `byteAt` and `slice`: a byte, 0 past the end, and the bytes that are there.
-/

namespace DeviceDrivers

abbrev Byte : Type := BitVec 8

/-! ## Little-endian numbers -/

/-- The low `n` bytes of `v`, the lowest first. -/
def leBytes : Nat → Nat → List Byte
  | 0, _ => []
  | n + 1, v => BitVec.ofNat 8 v :: leBytes n (v / 256)

def leValue : List Byte → Nat
  | [] => 0
  | b :: bs => b.toNat + 256 * leValue bs

@[simp] theorem length_leBytes (n v : Nat) : (leBytes n v).length = n := by
  induction n generalizing v with
  | zero => rfl
  | succ n ih => simp [leBytes, ih]

/-! ## Parts of a byte string -/

/-- The `n` bytes of `bs` at `off`, with `wild` for those that are not there. -/
def readAt (wild : Nat → Byte) (bs : List Byte) (off n : Nat) : List Byte :=
  (List.range n).map fun i => bs.getD (off + i) (wild i)

/-- The bytes `bs` with `vs` written at `off`. -/
def writeAt (bs : List Byte) (off : Nat) (vs : List Byte) : List Byte :=
  bs.mapIdx fun i b => if off ≤ i then vs.getD (i - off) b else b

@[simp] theorem length_writeAt (bs : List Byte) (off : Nat) (vs : List Byte) :
    (writeAt bs off vs).length = bs.length := List.length_mapIdx

/-- Reading a whole byte string. -/
theorem readAt_all (wild : Nat → Byte) (bs : List Byte) : readAt wild bs 0 bs.length = bs := by
  apply List.ext_getElem
  · simp [readAt]
  · intro i _ hi
    simp [readAt, hi]

/-- Reading one byte that is there. -/
theorem readAt_one {wild : Nat → Byte} {bs : List Byte} {off : Nat} (h : off < bs.length)
    (b : Byte) : readAt wild bs off 1 = [b] ↔ bs[off]? = some b := by
  simp [readAt, h]

/-- A read inside the byte string finds its bytes. -/
theorem readAt_inside {bs : List Byte} {off n : Nat} (h : off + n ≤ bs.length)
    (wild wild' : Nat → Byte) : readAt wild bs off n = readAt wild' bs off n := by
  refine List.map_congr_left fun i hi => ?_
  have hlt : off + i < bs.length := by
    rw [List.mem_range] at hi
    omega
  simp [List.getD_eq_getElem?_getD, hlt]

/-- Reading the first bytes of a string that is given byte by byte. -/
theorem readAt_prefix (wild f : Nat → Byte) {k n : Nat} (h : k ≤ n) :
    readAt wild ((List.range n).map f) 0 k = (List.range k).map f := by
  apply List.ext_getElem
  · simp [readAt]
  · intro i _ hi
    have hn : i < n := by
      simp at hi
      omega
    simp [readAt, hn]

/-- Overwriting the front of a byte string. -/
theorem writeAt_zero {bs vs : List Byte} (h : vs.length ≤ bs.length) :
    writeAt bs 0 vs = vs ++ bs.drop vs.length := by
  apply List.ext_getElem
  · simp [h]
  · intro i _ _
    rcases Nat.lt_or_ge i vs.length with hi | hi
    · simp [writeAt, List.getElem_append_left hi, hi]
    · simp [writeAt, List.getElem_append_right hi, hi]

/-- Overwriting a whole byte string. -/
theorem writeAt_all {bs vs : List Byte} (h : bs.length = vs.length) : writeAt bs 0 vs = vs := by
  rw [writeAt_zero (Nat.le_of_eq h.symm), ← h, List.drop_length, List.append_nil]

/-- Overwriting one byte. -/
theorem writeAt_one (bs : List Byte) (off : Nat) (b : Byte) :
    writeAt bs off [b] = bs.set off b := by
  apply List.ext_getElem
  · simp
  · intro i hi _
    by_cases hle : off ≤ i
    · rcases Nat.eq_or_lt_of_le hle with rfl | hlt
      · simp [writeAt]
      · have hsub : i - off ≠ 0 := by omega
        obtain ⟨j, hj⟩ := Nat.exists_eq_succ_of_ne_zero hsub
        simp [writeAt, hle, hj, List.getElem_set_ne (Nat.ne_of_lt hlt)]
    · simp [writeAt, hle, List.getElem_set_ne (fun heq => hle (Nat.le_of_eq heq))]

/-- What lies behind a write is not changed. -/
theorem drop_writeAt {bs vs : List Byte} {off n : Nat} (h : off + vs.length ≤ n) :
    (writeAt bs off vs).drop n = bs.drop n := by
  apply List.ext_getElem
  · simp
  · intro i _ _
    have hle : off ≤ n + i := by omega
    have hpast : vs.length ≤ n + i - off := by omega
    simp [writeAt, hle, List.getElem?_eq_none hpast]

/-- A write and the change of a byte behind it. -/
theorem writeAt_set {bs vs : List Byte} {off i : Nat} (h : off + vs.length ≤ i) (b : Byte) :
    writeAt (bs.set i b) off vs = (writeAt bs off vs).set i b := by
  apply List.ext_getElem
  · simp
  · intro j _ _
    by_cases hij : i = j
    · subst hij
      have hle : off ≤ i := by omega
      have hpast : vs.length ≤ i - off := by omega
      simp [writeAt, hle, List.getElem?_eq_none hpast]
    · simp [writeAt, List.getElem_set_ne hij]

/-- The same write a second time. -/
theorem writeAt_writeAt (bs vs : List Byte) (off : Nat) :
    writeAt (writeAt bs off vs) off vs = writeAt bs off vs := by
  apply List.ext_getElem
  · simp
  · intro i _ _
    by_cases hle : off ≤ i
    · by_cases hlt : i - off < vs.length
      · simp [writeAt, hle, hlt]
      · simp [writeAt, hle, List.getElem?_eq_none (Nat.not_lt.mp hlt)]
    · simp [writeAt, hle]

/-! ## Single bytes -/

/-- The byte at `off`, 0 past the end. -/
def byteAt (bs : List Byte) (off : Nat) : Byte := bs.getD off 0

theorem getElem?_eq_byteAt {bs : List Byte} {off : Nat} (h : off < bs.length) :
    bs[off]? = some (byteAt bs off) := by
  simp [byteAt, h]

/-- The `n` bytes at `off`, fewer at the end. -/
def slice (bs : List Byte) (off n : Nat) : List Byte := (bs.drop off).take n

/-- A byte string from `off` on, cut after `n` bytes. -/
theorem drop_eq_slice_append (bs : List Byte) (off n : Nat) :
    bs.drop off = slice bs off n ++ bs.drop (off + n) := by
  unfold slice
  rw [← List.drop_drop, List.take_append_drop]

theorem length_slice {bs : List Byte} {off n : Nat} (h : off + n ≤ bs.length) :
    (slice bs off n).length = n := by
  unfold slice
  rw [List.length_take, List.length_drop]
  omega

/-- A slice behind the prefix `pre`. -/
theorem slice_append (pre : List Byte) (off k : Nat) (hoff : off = pre.length + k)
    (bs : List Byte) (n : Nat) : slice (pre ++ bs) off n = slice bs k n := by
  subst hoff
  unfold slice
  rw [List.drop_length_add_append]

/-- A slice at the front. -/
theorem slice_zero {mid : List Byte} {n : Nat} (hmid : mid.length = n) (post : List Byte) :
    slice (mid ++ post) 0 n = mid := by
  unfold slice
  rw [List.drop_zero, ← hmid, List.take_left]

theorem byteAt_slice {bs : List Byte} {off n i : Nat} (h : i < n) :
    byteAt (slice bs off n) i = byteAt bs (off + i) := by
  simp [byteAt, slice, List.getD_eq_getElem?_getD, h]

/-! An area of `n` bytes with the contents `f`. -/

theorem byteAt_map_range (f : Nat → Byte) {n i : Nat} (h : i < n) :
    byteAt ((List.range n).map f) i = f i := by
  simp [byteAt, List.getD_eq_getElem?_getD, List.getElem?_range h]

theorem drop_map_range_eq_iff {f g : Nat → Byte} {k n : Nat} :
    ((List.range n).map f).drop k = ((List.range n).map g).drop k ↔
      ∀ i, k ≤ i → i < n → f i = g i := by
  rw [← List.map_drop, ← List.map_drop, List.map_inj_left, List.range_eq_range', List.drop_range']
  simp only [List.mem_range'_1]
  constructor
  · intro h i hlo hhi
    exact h i ⟨by omega, by omega⟩
  · intro h i hi
    exact h i (by omega) (by omega)

/-- Changing one byte leaves the others. -/
theorem byteAt_set {bs : List Byte} {i j : Nat} (h : i ≠ j) (b : Byte) :
    byteAt (bs.set i b) j = byteAt bs j := by
  simp [byteAt, List.getD_eq_getElem?_getD, List.getElem?_set_ne h]

theorem byteAt_set_self {bs : List Byte} {i : Nat} (h : i < bs.length) (b : Byte) :
    byteAt (bs.set i b) i = b := by
  simp [byteAt, List.getD_eq_getElem?_getD, List.getElem?_set_self h]

/-- A string with two bytes at `i`, split there. -/
theorem exists_split {bs : List Byte} {i : Nat} (h : i + 1 < bs.length) :
    ∃ pre x y post, bs = pre ++ x :: y :: post ∧ pre.length = i := by
  refine ⟨bs.take i, bs[i], bs[i + 1], bs.drop (i + 2), ?_, by simp; omega⟩
  rw [← List.drop_eq_getElem_cons, ← List.drop_eq_getElem_cons, List.take_append_drop]

end DeviceDrivers
