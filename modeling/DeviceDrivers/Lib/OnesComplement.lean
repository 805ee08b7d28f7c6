import DeviceDrivers.Lib.Bytes
import Mathlib.Data.Nat.ModEq

/-!
# One's complement sums

The sum of words with end-around carry, where `m` is the word of all ones.

* `onesSum_modEq`: up to multiples of `m` it is the ordinary sum.
* `modEq_of_onesSum_eq`: two sums that differ in one word can only be the same
  when that word is, up to multiples of `m`.
* `words`: the 16-bit words of a byte string, in network byte order.
* `eq_of_onesSum_words_eq`: a change of one byte changes the sum of the words.
-/

namespace DeviceDrivers

/-! ## Sums with end-around carry -/

def onesAdd (m a b : Nat) : Nat := if a + b ≤ m then a + b else a + b - m

def onesSum (m : Nat) : List Nat → Nat
  | [] => 0
  | w :: ws => onesAdd m w (onesSum m ws)

theorem onesAdd_modEq (m a b : Nat) : onesAdd m a b ≡ a + b [MOD m] := by
  unfold onesAdd
  split
  · exact Nat.ModEq.refl _
  · rename_i hcarry
    have hle : m ≤ a + b := Nat.le_of_lt (Nat.not_le.mp hcarry)
    exact (Nat.mod_eq_sub_mod hle).symm

theorem onesSum_modEq (m : Nat) (ws : List Nat) : onesSum m ws ≡ ws.sum [MOD m] := by
  induction ws with
  | nil => exact Nat.ModEq.refl 0
  | cons w ws ih =>
    rw [onesSum, List.sum_cons]
    exact (onesAdd_modEq m w (onesSum m ws)).trans (ih.add_left w)

theorem modEq_of_onesSum_eq {m v v' : Nat} {pre post : List Nat}
    (h : onesSum m (pre ++ v :: post) = onesSum m (pre ++ v' :: post)) : v ≡ v' [MOD m] := by
  have hsum : (pre ++ v :: post).sum ≡ (pre ++ v' :: post).sum [MOD m] :=
    (onesSum_modEq m _).symm.trans (h ▸ onesSum_modEq m _)
  simp only [List.sum_append, List.sum_cons] at hsum
  exact (hsum.add_left_cancel' pre.sum).add_right_cancel' post.sum

/-! ## The words of a byte string -/

/-- The number that the bytes stand for in network byte order. -/
def beValue (bs : List Byte) : Nat := bs.foldl (fun v b => 256 * v + b.toNat) 0

/-- The 16-bit words in network byte order. A last odd byte is padded with 0. -/
def words : List Byte → List Nat
  | [] => []
  | [a] => [beValue [a, 0]]
  | a :: b :: bs => beValue [a, b] :: words bs

theorem words_append {pre : List Byte} {n : Nat} (h : pre.length = 2 * n) (post : List Byte) :
    words (pre ++ post) = words pre ++ words post := by
  induction n generalizing pre with
  | zero =>
    obtain rfl : pre = [] := List.length_eq_zero_iff.mp h
    rfl
  | succ n ih =>
    match pre, h with
    | a :: b :: rest, h =>
      have hrest : rest.length = 2 * n := by
        simp only [List.length_cons] at h
        omega
      simp only [List.cons_append, words, ih hrest]

/-- A word is known by its first byte up to multiples of `0xFFFF`. -/
theorem eq_of_beValue_modEq {a b c : Byte} (h : beValue [a, c] ≡ beValue [b, c] [MOD 0xFFFF]) :
    a = b := by
  have ha : a.toNat < 256 := a.isLt
  have hb : b.toNat < 256 := b.isLt
  have hc : c.toNat < 256 := c.isLt
  apply BitVec.eq_of_toNat_eq
  simp only [Nat.ModEq, beValue, List.foldl_cons, List.foldl_nil] at h
  omega

theorem eq_of_onesSum_words_eq {pre post : List Byte} {n : Nat} (hpre : pre.length = 2 * n)
    {a b c : Byte} (h : onesSum 0xFFFF (words (pre ++ a :: c :: post)) =
      onesSum 0xFFFF (words (pre ++ b :: c :: post))) : a = b := by
  rw [words_append hpre, words_append hpre] at h
  exact eq_of_beValue_modEq (modEq_of_onesSum_eq h)

end DeviceDrivers
