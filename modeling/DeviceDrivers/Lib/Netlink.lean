import DeviceDrivers.Lib.Headers

/-!
# Netlink attributes and information elements

* `NlAttr`: where the payload of an attribute lies in the memory of its message.
* `NlaParser`: what a program can rely on when it parses attributes without a policy.
* `libnlParser`: a parser of attribute streams as `nla_parse` of libnl is, which takes
  the last attribute of each type.
* `networkName`: the network name in the information elements of a beacon.
-/

namespace DeviceDrivers

/-! ## Attributes -/

/-- The payload of an attribute. -/
structure NlAttr where
  off : Nat
  len : Nat
deriving DecidableEq, Repr

namespace NlAttr

/-- The payload lies in the `len` bytes at `head`. -/
def Inside (a : NlAttr) (head len : Nat) : Prop := head ≤ a.off ∧ a.off + a.len ≤ head + len

def payload (a : NlAttr) (mem : List Byte) : List Byte := slice mem a.off a.len

theorem Inside.trans {a b : NlAttr} {head len : Nat} (hb : b.Inside a.off a.len)
    (ha : a.Inside head len) : b.Inside head len :=
  ⟨Nat.le_trans ha.1 hb.1, Nat.le_trans hb.2 ha.2⟩

end NlAttr

/-- The attributes of a message fill the first `len` bytes of `mem`. What follows is
the memory that can be read behind the message. -/
structure NlMsg where
  mem : List Byte
  len : Nat
  fits : len ≤ mem.length

/-- A parser finds at most one attribute of each type up to `maxtype`. -/
structure NlaParser where
  parse : (maxtype : Nat) → (mem : List Byte) → (head len type : Nat) → Option NlAttr
  inside : ∀ {maxtype : Nat} {mem : List Byte} {head len type : Nat} {a : NlAttr},
    parse maxtype mem head len type = some a → a.Inside head len

/-! ## A parser -/

def NLA_HDRLEN : Nat := 4

/-- The length of an attribute with its padding. -/
def nlaAlign (n : Nat) : Nat := (n + 3) / 4 * 4

def nlaLen (mem : List Byte) (pos : Nat) : Nat :=
  (ofLe16 (byteAt mem pos) (byteAt mem (pos + 1))).toNat

/-- The type without the two flags. -/
def nlaType (mem : List Byte) (pos : Nat) : Nat :=
  (ofLe16 (byteAt mem (pos + 2)) (byteAt mem (pos + 3))).toNat % 2 ^ 14

/-- There is an attribute at the start of the `rem` bytes at `pos`. -/
def NlaOk (mem : List Byte) (pos rem : Nat) : Prop :=
  NLA_HDRLEN ≤ rem ∧ NLA_HDRLEN ≤ nlaLen mem pos ∧ nlaLen mem pos ≤ rem

instance (mem : List Byte) (pos rem : Nat) : Decidable (NlaOk mem pos rem) := by
  unfold NlaOk; infer_instance

/-- The attributes of a stream with their types. -/
def nlaWalk (mem : List Byte) : (fuel pos rem : Nat) → List (Nat × NlAttr)
  | 0, _, _ => []
  | fuel + 1, pos, rem =>
    if NlaOk mem pos rem then
      (nlaType mem pos, ⟨pos + NLA_HDRLEN, nlaLen mem pos - NLA_HDRLEN⟩) ::
        nlaWalk mem fuel (pos + nlaAlign (nlaLen mem pos)) (rem - nlaAlign (nlaLen mem pos))
    else []

/-- Each attribute takes at least its header, so `len` steps are enough. -/
def nlaParse (maxtype : Nat) (mem : List Byte) (head len type : Nat) : Option NlAttr :=
  ((nlaWalk mem len head len).reverse.find? fun a => a.1 ≤ maxtype ∧ a.1 = type).map Prod.snd

/-- No attribute has room in 0 bytes. -/
theorem nlaWalk_of_empty (mem : List Byte) (fuel pos : Nat) : nlaWalk mem fuel pos 0 = [] := by
  cases fuel with
  | zero => rfl
  | succ fuel => exact if_neg fun hok : NlaOk mem pos 0 => absurd hok.1 (by decide)

theorem inside_of_mem_nlaWalk {mem : List Byte} {fuel pos rem : Nat} {a : Nat × NlAttr}
    (h : a ∈ nlaWalk mem fuel pos rem) : a.2.Inside pos rem := by
  induction fuel generalizing pos rem with
  | zero => cases h
  | succ fuel ih =>
    unfold nlaWalk at h
    split at h
    · rename_i hok
      obtain ⟨-, hheader, hlen⟩ := hok
      rcases List.mem_cons.mp h with rfl | htail
      · show pos ≤ pos + NLA_HDRLEN ∧
          pos + NLA_HDRLEN + (nlaLen mem pos - NLA_HDRLEN) ≤ pos + rem
        omega
      · rcases Nat.le_total rem (nlaAlign (nlaLen mem pos)) with hpad | hpad
        · -- The padding takes the rest of the stream.
          rw [Nat.sub_eq_zero_of_le hpad, nlaWalk_of_empty] at htail
          cases htail
        · obtain ⟨hlo, hhi⟩ := ih htail
          show pos ≤ a.2.off ∧ a.2.off + a.2.len ≤ pos + rem
          omega
    · cases h

def libnlParser : NlaParser where
  parse := nlaParse
  inside h := by
    obtain ⟨b, hb, rfl⟩ := Option.map_eq_some_iff.mp h
    exact inside_of_mem_nlaWalk (List.mem_reverse.mp (List.mem_of_find?_eq_some hb))

/-! ## Information elements -/

/-- The content of the first element `id`. Each element has its number and its length
in front. -/
def elementOf (id : Byte) : (fuel : Nat) → List Byte → Option (List Byte)
  | fuel + 1, number :: n :: bs =>
    if bs.length < n.toNat then none
    else if number = id then some (bs.take n.toNat)
    else elementOf id fuel (bs.drop n.toNat)
  | _, _ => none

def networkName (ies : List Byte) : Option (List Byte) := elementOf 0 ies.length ies

end DeviceDrivers
