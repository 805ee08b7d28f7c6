import DeviceDrivers.Lib.Bytes

/-!
# Text with bytes in hexadecimal

A format is a list of literal pieces and of holes for bytes, which `printf` fills with
`%02x` or `%02X`.

`scan_render`: from the text that a format makes of some bytes, and whatever follows
it, the bytes can be read back.
-/

namespace DeviceDrivers

/-! ## Digits -/

def lowerDigits : List Char :=
  ['0', '1', '2', '3', '4', '5', '6', '7', '8', '9', 'a', 'b', 'c', 'd', 'e', 'f']

def upperDigits : List Char :=
  ['0', '1', '2', '3', '4', '5', '6', '7', '8', '9', 'A', 'B', 'C', 'D', 'E', 'F']

def hexDigit (upper : Bool) (n : Nat) : Char :=
  (if upper then upperDigits else lowerDigits).getD n '0'

/-- The value of a digit in either case. -/
def digitValue (c : Char) : Option Nat :=
  (lowerDigits.findIdx? (· == c)).or (upperDigits.findIdx? (· == c))

theorem digitValue_hexDigit (upper : Bool) {n : Nat} (h : n < 16) :
    digitValue (hexDigit upper n) = some n := by
  have hall : ∀ u, ∀ n < 16, digitValue (hexDigit u n) = some n := by decide
  exact hall upper n h

/-- `%02x` and `%02X`. -/
def hex2 (upper : Bool) (b : Byte) : List Char :=
  [hexDigit upper (b.toNat / 16), hexDigit upper (b.toNat % 16)]

def readHex2 : List Char → Option (Byte × List Char)
  | c :: d :: text =>
    (digitValue c).bind fun hi => (digitValue d).map fun lo => (.ofNat 8 (16 * hi + lo), text)
  | _ => none

theorem readHex2_hex2 (upper : Bool) (b : Byte) (text : List Char) :
    readHex2 (hex2 upper b ++ text) = some (b, text) := by
  have hlt : b.toNat < 256 := b.isLt
  have hhi := digitValue_hexDigit upper (n := b.toNat / 16) (by omega)
  have hlo := digitValue_hexDigit upper (n := b.toNat % 16) (by omega)
  have hb : BitVec.ofNat 8 (16 * (b.toNat / 16) + b.toNat % 16) = b := by
    rw [Nat.div_add_mod, BitVec.ofNat_toNat, BitVec.setWidth_eq]
  simp only [hex2, List.cons_append, List.nil_append, readHex2, hhi, hlo, Option.bind_some,
    Option.map_some, hb]

/-! ## Formats -/

inductive Part
  | lit (s : List Char)
  | hex (upper : Bool)

/-- How many bytes the format takes. -/
def holes : List Part → Nat
  | [] => 0
  | .lit _ :: ps => holes ps
  | .hex _ :: ps => holes ps + 1

def render : List Part → List Byte → List Char
  | .lit s :: ps, bs => s ++ render ps bs
  | .hex upper :: ps, b :: bs => hex2 upper b ++ render ps bs
  | _, _ => []

/-- What follows `s` in the text. -/
def skip (s text : List Char) : Option (List Char) :=
  if s.isPrefixOf text then some (text.drop s.length) else none

def scan : List Part → List Char → Option (List Byte × List Char)
  | [], text => some ([], text)
  | .lit s :: ps, text => (skip s text).bind (scan ps)
  | .hex _ :: ps, text =>
    (readHex2 text).bind fun (b, text) => (scan ps text).map fun (bs, text) => (b :: bs, text)

theorem skip_append (s text : List Char) : skip s (s ++ text) = some text := by
  simp [skip]

theorem scan_render {ps : List Part} {bs : List Byte} (h : bs.length = holes ps)
    (text : List Char) : scan ps (render ps bs ++ text) = some (bs, text) := by
  induction ps generalizing bs with
  | nil =>
    obtain rfl : bs = [] := List.length_eq_zero_iff.mp h
    rfl
  | cons p ps ih =>
    cases p with
    | lit s => rw [render, scan, List.append_assoc, skip_append, Option.bind_some, ih h]
    | hex upper =>
      cases bs with
      | nil => cases h
      | cons b bs =>
        have hrest : bs.length = holes ps := Nat.succ.inj h
        simp only [render, scan, List.append_assoc, readHex2_hex2, Option.bind_some, ih hrest,
          Option.map_some]

end DeviceDrivers
