import DeviceDrivers.Lib.Bytes

/-!
# Strings in C

A string in memory ends at its first NUL. `mem` is the memory from the start of
the string to the end of what can be read, which may come before any NUL.

* `cut`: a byte string up to its first NUL.
* `cString`: the string at the start of a memory, `none` when no NUL ends it.
* `scanned`: how many bytes are looked at to find it.
* `shows_iff`: exactly when a buffer shows the bytes that it begins with.
* `cString_append` and `cString_differs`: when the string depends on what follows.
* `storeString`: a string stored in a field of fixed size, shortened to fit.
-/

namespace DeviceDrivers

/-! ## Reading a string -/

/-- The bytes of the characters of `s`. -/
def ascii (s : String) : List Byte := s.toList.map fun c => .ofNat 8 c.toNat

def NUL : Byte := 0

def cut (bs : List Byte) : List Byte := bs.takeWhile (· != NUL)

def cString : List Byte → Option (List Byte)
  | [] => none
  | b :: mem => if b = NUL then some [] else (cString mem).map (b :: ·)

/-- The bytes up to and with the NUL. Without one the byte behind the memory is
asked for too. -/
def scanned (mem : List Byte) : Nat := (cut mem).length + 1

@[simp] theorem cut_cons_NUL (bs : List Byte) : cut (NUL :: bs) = [] := by
  simp [cut]

theorem cut_cons {b : Byte} (h : b ≠ NUL) (bs : List Byte) : cut (b :: bs) = b :: cut bs := by
  simp [cut, h]

theorem not_mem_cut (bs : List Byte) : NUL ∉ cut bs := by
  induction bs with
  | nil => exact List.not_mem_nil
  | cons b bs ih =>
    by_cases hb : b = NUL
    · rw [hb, cut_cons_NUL]
      exact List.not_mem_nil
    · rw [cut_cons hb, List.mem_cons]
      exact fun h => h.elim (Ne.symm hb) ih

theorem cut_append_of_not_mem {bs : List Byte} (h : NUL ∉ bs) (rest : List Byte) :
    cut (bs ++ rest) = bs ++ cut rest := by
  refine List.takeWhile_append_of_pos fun b hb => ?_
  simpa using fun heq : b = NUL => h (heq ▸ hb)

theorem cut_of_not_mem {bs : List Byte} (h : NUL ∉ bs) : cut bs = bs := by
  simpa [cut] using cut_append_of_not_mem h []

/-- A byte string with a NUL, split at the first one. -/
theorem exists_cut {bs : List Byte} (h : NUL ∈ bs) : ∃ rest, bs = cut bs ++ NUL :: rest := by
  induction bs with
  | nil => cases h
  | cons b bs ih =>
    by_cases hb : b = NUL
    · exact ⟨bs, by simp [cut, hb]⟩
    · have hmem : NUL ∈ bs := (List.mem_cons.mp h).resolve_left (Ne.symm hb)
      obtain ⟨rest, hrest⟩ := ih hmem
      refine ⟨rest, ?_⟩
      rw [cut_cons hb, List.cons_append, ← hrest]

theorem length_cut_lt {bs : List Byte} (h : NUL ∈ bs) : (cut bs).length < bs.length := by
  obtain ⟨rest, hrest⟩ := exists_cut h
  have hlen := congrArg List.length hrest
  rw [List.length_append, List.length_cons] at hlen
  omega

theorem cut_append_of_mem {bs : List Byte} (h : NUL ∈ bs) (rest : List Byte) :
    cut (bs ++ rest) = cut bs := by
  obtain ⟨tail, htail⟩ := exists_cut h
  conv_lhs => rw [htail]
  rw [List.append_assoc, cut_append_of_not_mem (not_mem_cut bs), List.cons_append, cut_cons_NUL,
    List.append_nil]

/-- The string ends at the first NUL. -/
theorem cString_eq (mem : List Byte) :
    cString mem = if NUL ∈ mem then some (cut mem) else none := by
  induction mem with
  | nil => rfl
  | cons b mem ih =>
    unfold cString
    by_cases hb : b = NUL
    · simp [hb]
    · by_cases hmem : NUL ∈ mem
      · simp [hb, ih, hmem, cut_cons hb]
      · simp [hb, Ne.symm hb, ih, hmem]

theorem cString_of_mem {mem : List Byte} (h : NUL ∈ mem) : cString mem = some (cut mem) := by
  rw [cString_eq, if_pos h]

theorem cString_of_not_mem {mem : List Byte} (h : NUL ∉ mem) : cString mem = none := by
  rw [cString_eq, if_neg h]

/-- The scan stays in the first `n` bytes exactly when there is a NUL in them. -/
theorem scanned_le_iff {mem : List Byte} {n : Nat} (h : n ≤ mem.length) :
    scanned mem ≤ n ↔ NUL ∈ mem.take n := by
  have hlen : (mem.take n).length = n := List.length_take_of_le h
  rw [scanned, ← List.take_append_drop n mem, List.take_left' hlen]
  by_cases hmem : NUL ∈ mem.take n
  · refine iff_of_true ?_ hmem
    rw [cut_append_of_mem hmem]
    exact Nat.le_trans (length_cut_lt hmem) (Nat.le_of_eq hlen)
  · refine iff_of_false ?_ hmem
    rw [cut_append_of_not_mem hmem, List.length_append, hlen]
    omega

/-! ## A buffer and what follows it -/

/-- Memory that begins with `bs` shows `bs` up to its first NUL, and the scan stays
in the buffer `bs ++ rest`, exactly when `bs` has a NUL or one comes right behind it
in the buffer. -/
theorem shows_iff (bs rest after : List Byte) :
    (cString (bs ++ rest ++ after) = some (cut bs) ∧
        scanned (bs ++ rest ++ after) ≤ (bs ++ rest).length) ↔
      NUL ∈ bs ∨ rest.head? = some NUL := by
  rw [List.append_assoc]
  by_cases h : NUL ∈ bs
  · have hmem : NUL ∈ bs ++ (rest ++ after) := List.mem_append_left _ h
    refine iff_of_true ⟨?_, ?_⟩ (.inl h)
    · rw [cString_of_mem hmem, cut_append_of_mem h]
    · rw [scanned, cut_append_of_mem h, List.length_append]
      exact Nat.le_trans (length_cut_lt h) (Nat.le_add_right ..)
  · rw [cString_eq, scanned, cut_of_not_mem h, cut_append_of_not_mem h]
    cases rest with
    | nil =>
      refine iff_of_false (fun hshows => ?_) (by simp [h])
      have hle := hshows.2
      simp only [List.nil_append, List.append_nil, List.length_append] at hle
      omega
    | cons b rest =>
      by_cases hb : b = NUL
      · simp [hb]
      · simp [h, hb, cut_cons hb]

/-- A string that ends in `known` does not depend on what follows. -/
theorem cString_append {known : List Byte} (h : NUL ∈ known) (rest : List Byte) :
    cString (known ++ rest) = some (cut known) := by
  rw [cString_of_mem (List.mem_append_left rest h), cut_append_of_mem h]

/-- One that does not end there is longer or shorter, as the NUL comes late or soon. -/
theorem cString_differs {known : List Byte} (h : NUL ∉ known) :
    cString (known ++ [NUL]) ≠ cString (known ++ [1, NUL]) := by
  intro heq
  have hsoon : NUL ∈ known ++ [NUL] := by simp
  have hlate : NUL ∈ known ++ [1, NUL] := by simp
  rw [cString_of_mem hsoon, cString_of_mem hlate, cut_append_of_not_mem h,
    cut_append_of_not_mem h] at heq
  have htail := List.append_cancel_left (Option.some.inj heq)
  rw [cut_cons_NUL, cut_cons (by decide)] at htail
  cases htail

/-! ## Storing a string -/

/-- The field `old` after the string `text` is stored in it, with its NUL and as many
of its bytes as fit. -/
def storeString (old text : List Byte) : List Byte :=
  writeAt old 0 (text.take (old.length - 1) ++ [NUL])

@[simp] theorem length_storeString (old text : List Byte) :
    (storeString old text).length = old.length := by
  simp [storeString]

theorem storeString_eq {old : List Byte} (h : 0 < old.length) (text : List Byte) :
    ∃ rest, storeString old text = text.take (old.length - 1) ++ NUL :: rest := by
  have hfits : (text.take (old.length - 1) ++ [NUL]).length ≤ old.length := by
    rw [List.length_append, List.length_take, List.length_singleton]
    omega
  refine ⟨old.drop (text.take (old.length - 1) ++ [NUL]).length, ?_⟩
  rw [storeString, writeAt_zero hfits, List.append_assoc, List.singleton_append]

/-- What is stored is always terminated. -/
theorem NUL_mem_storeString {old : List Byte} (h : 0 < old.length) (text : List Byte) :
    NUL ∈ storeString old text := by
  obtain ⟨rest, hrest⟩ := storeString_eq h text
  rw [hrest]
  exact List.mem_append_right _ List.mem_cons_self

/-- Reading back a stored string. -/
theorem cString_storeString {old text : List Byte} (h : 0 < old.length) (htext : NUL ∉ text)
    (after : List Byte) :
    cString (storeString old text ++ after) = some (text.take (old.length - 1)) := by
  obtain ⟨rest, hrest⟩ := storeString_eq h text
  have hcut : NUL ∉ text.take (old.length - 1) := fun hmem => htext (List.mem_of_mem_take hmem)
  rw [cString_append (NUL_mem_storeString h text), hrest, cut_append_of_not_mem hcut,
    cut_cons_NUL, List.append_nil]

end DeviceDrivers
