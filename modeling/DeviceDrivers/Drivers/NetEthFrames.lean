import DeviceDrivers.Drivers.NetEthMemory
import DeviceDrivers.Lib.Ipv4

/-!
# The Ethernet network driver: frames

1. `reports_right_iff`: exactly when the report of an ICMPv6 echo reply is right.
   `my_netdev_rx` takes every frame for an IPv4 frame whose header has no options.
2. `tx_breaks_checksum`: a header checksum that verified does not verify behind
   `my_netdev_tx`, which changes the destination address and the TTL only.
3. `ttl_bounds_iff`: the TTL of a frame that is fed back bounds nothing. The frame is
   dropped in time only when the validation does it, whatever its reason.
-/

namespace DeviceDrivers.NetEth

open Ipv4

/-! ## The recogniser -/

/-- `my_netdev_rx` prints that an echo reply was received. -/
def Reports (o : NetOutcomes) (heap : Addr → Option (List Byte)) (skb : Addr) : Prop :=
  NetMsg.echoReply ∈ ((myNetdevRx skb).exec (netcall o) (start heap)).2.printed

/-- The frame is an IPv4 frame with at least one byte behind the IPv4 header. -/
structure ReachesPayload (frame : List Byte) : Prop where
  isIp : etherType frame = ETH_P_IP
  holds : HoldsHeader frame
  inside : headerEnd frame < frame.length

/-- The frame carries an ICMPv6 echo reply behind its IPv4 header. -/
structure CarriesEchoReply (frame : List Byte) : Prop where
  reaches : ReachesPayload frame
  isIcmpv6 : protocol frame = IPPROTO_ICMPV6
  isReply : byteAt frame (headerEnd frame) = ICMPV6_ECHO_REPLY

/-- The byte at offset 34, where the driver looks for the ICMPv6 type, is that of
an echo reply. -/
def RepliesAt34 (wild : Nat → Byte) (frame : List Byte) : Prop :=
  readAt wild frame 34 1 = [ICMPV6_ECHO_REPLY]

theorem reports_iff {o : NetOutcomes} {heap : Addr → Option (List Byte)} {skb : Addr}
    {frame : List Byte} (hskb : heap skb = some frame) :
    Reports o heap skb ↔ (∃ p, Allocates o heap p) ∧ 34 ≤ frame.length ∧ SaysIcmpv6 frame ∧
      RepliesAt34 o.wild frame := by
  unfold Reports
  cases rxPath o heap frame with
  | short hlen =>
    rw [rx_short hskb hlen]
    have hnot : ¬ 34 ≤ frame.length := Nat.not_le.mpr hlen
    simp [hnot]
  | noMemory hlen hfail =>
    rw [rx_noMemory hskb hlen hfail]
    simp [hfail]
  | @copied p hlen hp =>
    have hex : ∃ p, Allocates o heap p := ⟨p, hp⟩
    rw [rx_copied hskb hlen hp]
    by_cases hreply : SaysIcmpv6 frame ∧ readAt o.wild frame 34 1 = [ICMPV6_ECHO_REPLY]
    · simp [copyPrinted, hreply, hex, hlen, RepliesAt34]
    · simp [copyPrinted, hreply, hex, hlen, RepliesAt34]

theorem saysIcmpv6_iff {frame : List Byte} (h : 34 ≤ frame.length) :
    SaysIcmpv6 frame ↔ protocol frame = IPPROTO_ICMPV6 := by
  have hlt : 23 < frame.length := Nat.lt_of_lt_of_le (by decide) h
  simp [SaysIcmpv6, protocol, byteAt, hlt]

/-- In a frame without IP options the driver looks where the header ends. -/
theorem repliesAt34_iff {wild : Nat → Byte} {frame : List Byte} (h : 34 < frame.length) :
    RepliesAt34 wild frame ↔ byteAt frame 34 = ICMPV6_ECHO_REPLY := by
  simp [RepliesAt34, readAt, byteAt, h]

/-- For a frame that the driver copies and takes for ICMPv6: if it is an IPv4
frame with a payload, then it has no IP options, or the bytes at offset 34 and at
the end of the header are both or neither that of an echo reply; if it is not,
then the byte at offset 34 is not that of an echo reply. -/
def LooksRight (o : NetOutcomes) (heap : Addr → Option (List Byte)) (frame : List Byte) : Prop :=
  (∃ p, Allocates o heap p) → 34 ≤ frame.length → SaysIcmpv6 frame →
    (ReachesPayload frame → ihl frame ≠ 5 →
      (RepliesAt34 o.wild frame ↔ byteAt frame (headerEnd frame) = ICMPV6_ECHO_REPLY)) ∧
    (¬ ReachesPayload frame → ¬ RepliesAt34 o.wild frame)

/-- Where the driver looks for the type and where it is, when the two agree. -/
theorem repliesAt34_of_reaches {wild : Nat → Byte} {frame : List Byte}
    (h : ReachesPayload frame) (hihl : ihl frame = 5) :
    RepliesAt34 wild frame ↔ byteAt frame (headerEnd frame) = ICMPV6_ECHO_REPLY := by
  have hend : headerEnd frame = 34 := by
    unfold headerEnd
    rw [hihl]
  have hinside := h.inside
  rw [hend] at hinside ⊢
  exact repliesAt34_iff hinside

/-- What a frame that is copied and taken for ICMPv6 has to satisfy. -/
theorem carries_iff {frame : List Byte} (hlen : 34 ≤ frame.length) (hicmp : SaysIcmpv6 frame) :
    CarriesEchoReply frame ↔
      ReachesPayload frame ∧ byteAt frame (headerEnd frame) = ICMPV6_ECHO_REPLY :=
  ⟨fun h => ⟨h.reaches, h.isReply⟩, fun h => ⟨h.1, (saysIcmpv6_iff hlen).mp hicmp, h.2⟩⟩

theorem looksRight_iff {o : NetOutcomes} {heap : Addr → Option (List Byte)} {skb : Addr}
    {frame : List Byte} (hskb : heap skb = some frame) :
    (Reports o heap skb ↔ (∃ p, Allocates o heap p) ∧ CarriesEchoReply frame) ↔
      LooksRight o heap frame := by
  rw [reports_iff hskb]
  by_cases halloc : ∃ p, Allocates o heap p
  · by_cases hread : 34 ≤ frame.length ∧ SaysIcmpv6 frame
    · obtain ⟨hlen, hicmp⟩ := hread
      rw [carries_iff hlen hicmp]
      by_cases hreach : ReachesPayload frame
      · by_cases hihl : ihl frame = 5
        · simp [LooksRight, halloc, hlen, hicmp, hreach, hihl, repliesAt34_of_reaches hreach hihl]
        · simp [LooksRight, halloc, hlen, hicmp, hreach, hihl]
      · simp [LooksRight, halloc, hlen, hicmp, hreach]
    · -- A frame that carries an echo reply is long enough and says so.
      have hnot : ¬ CarriesEchoReply frame := by
        intro h
        have hlen : 34 ≤ frame.length := h.reaches.holds.length
        exact hread ⟨hlen, (saysIcmpv6_iff hlen).mpr h.isIcmpv6⟩
      refine iff_of_true ?_ fun _ hlen hicmp => absurd ⟨hlen, hicmp⟩ hread
      exact iff_of_false (fun h => hread ⟨h.2.1, h.2.2.1⟩) fun h => hnot h.2
  · exact iff_of_true (iff_of_false (fun h => halloc h.1) fun h => halloc h.1)
      fun h => absurd h halloc

/-- The report of an echo reply is right, in both directions, exactly for the
frames of `LooksRight`. -/
theorem reports_right_iff (o : NetOutcomes) (heap : Addr → Option (List Byte)) (skb : Addr)
    (frame : List Byte) :
    let heap' := Function.update heap skb (some frame)
    (Reports o heap' skb ↔ (∃ p, Allocates o heap' p) ∧ CarriesEchoReply frame) ↔
      LooksRight o heap' frame :=
  looksRight_iff (Function.update_self ..)

/-- An echo reply behind an IPv4 header with four bytes of options. -/
def optionReply : List Byte :=
  List.replicate 12 0 ++ [0x08, 0x00, 0x46] ++ List.replicate 8 0 ++ [IPPROTO_ICMPV6] ++
    List.replicate 14 0 ++ [ICMPV6_ECHO_REPLY]

/-- A frame with the EtherType of ARP that has the two bytes in place. -/
def arpLookalike : List Byte :=
  List.replicate 12 0 ++ [0x08, 0x06] ++ List.replicate 9 0 ++ [IPPROTO_ICMPV6] ++
    List.replicate 10 0 ++ [ICMPV6_ECHO_REPLY]

/-- The heap that holds only the skb at address 1. -/
def oneSkb (frame : List Byte) : Addr → Option (List Byte) :=
  Function.update (fun _ => none) 1 (some frame)

theorem oneSkb_self (frame : List Byte) : oneSkb frame 1 = some frame := Function.update_self ..

/-- The first frame carries an echo reply that is not reported, the second one is
reported and carries none. -/
theorem reports_wrong :
    (CarriesEchoReply optionReply ∧ ¬ Reports passes (oneSkb optionReply) 1) ∧
    (Reports passes (oneSkb arpLookalike) 1 ∧ ¬ CarriesEchoReply arpLookalike) := by
  refine ⟨⟨⟨⟨by decide, by decide, by decide⟩, by decide, by decide⟩, ?_⟩, ?_, fun h => ?_⟩
  · rw [reports_iff (oneSkb_self optionReply)]
    exact fun h => absurd h.2.2.2 (by unfold RepliesAt34; decide)
  · rw [reports_iff (oneSkb_self arpLookalike)]
    exact ⟨⟨2, rfl, rfl⟩, by decide, by decide, by unfold RepliesAt34; decide⟩
  · exact absurd h.reaches.isIp (by decide)

/-! ## The header checksum -/

/-- The frame with the address of the device as its destination. -/
def addressed (frame : List Byte) : List Byte := writeAt frame 0 myNetdevMac

theorem drop_addressed (frame : List Byte) : (addressed frame).drop 14 = frame.drop 14 :=
  drop_writeAt (by decide)

@[simp] theorem length_addressed (frame : List Byte) :
    (addressed frame).length = frame.length := by
  simp [addressed]

/-- In a frame that has a TTL, `my_netdev_tx` sets the destination address and
takes 1 off the TTL. -/
theorem forwarded_eq (wild : Nat → Byte) {frame : List Byte} (h : 22 < frame.length) :
    forwarded wild frame = (addressed frame).set 22 (byteAt frame 22 - 1) := by
  have hlt : 22 < (addressed frame).length := by rwa [length_addressed]
  have hread : readAt wild (addressed frame) 22 1 = [byteAt frame 22] := by
    rw [readAt_one hlt, getElem?_eq_byteAt hlt,
      byteAt_of_drop_eq (drop_addressed frame) (by decide)]
  show writeAt (addressed frame) 22 ((readAt wild (addressed frame) 22 1).map (· - 1)) = _
  rw [hread]
  exact writeAt_one _ _ _

/-- At most the destination address and the TTL are different. -/
def OnlyMacAndTtl (frame after : List Byte) : Prop :=
  after.length = frame.length ∧ ∀ i, 6 ≤ i → i ≠ 22 → after[i]? = frame[i]?

theorem forwarded_only (wild : Nat → Byte) {frame : List Byte} (h : 34 ≤ frame.length) :
    OnlyMacAndTtl frame (forwarded wild frame) := by
  refine ⟨length_forwarded wild frame, fun i hi hne => ?_⟩
  have hdrop : (addressed frame).drop 6 = frame.drop 6 := drop_writeAt (by decide)
  have hget : (addressed frame)[6 + (i - 6)]? = frame[6 + (i - 6)]? := by
    rw [← List.getElem?_drop, ← List.getElem?_drop, hdrop]
  rw [Nat.add_sub_cancel' hi] at hget
  rw [forwarded_eq wild (Nat.lt_of_lt_of_le (by decide) h), List.getElem?_set_ne (Ne.symm hne),
    hget]

theorem byte_sub_one_ne (b : Byte) : b - 1 ≠ b := by
  bv_omega

theorem hasTtl {frame : List Byte} (h : HoldsHeader frame) : 22 < frame.length :=
  Nat.lt_of_lt_of_le (by decide) h.length

theorem forwarded_not_verifies (wild : Nat → Byte) {frame : List Byte} (h : HoldsHeader frame)
    (hv : Verifies frame) : ¬ Verifies (forwarded wild frame) := by
  have hdrop := drop_addressed frame
  have hheld : HoldsHeader (addressed frame) := h.of_drop_eq hdrop (length_addressed frame)
  have hverifies : Verifies (addressed frame) := (verifies_of_drop_eq hdrop).mpr hv
  rw [forwarded_eq wild (hasTtl h), verifies_set_ttl hheld hverifies,
    byteAt_of_drop_eq hdrop (by decide)]
  exact byte_sub_one_ne (byteAt frame 22)

/-- What `my_netdev_tx` leaves of the skb, none when it drops it. -/
def txFrame (o : NetOutcomes) (heap : Addr → Option (List Byte)) (skb : Addr) :
    Option (List Byte) :=
  ((myNetdevTx skb).exec (netcall o) (start heap)).2.mem.heap skb

theorem txFrame_of_drop {o : NetOutcomes} {heap : Addr → Option (List Byte)} {skb : Addr}
    {frame : List Byte} (hskb : heap skb = some frame) (hdrop : o.validate < 0) :
    txFrame o heap skb = none := by
  unfold txFrame
  rw [tx_dropped hskb hdrop]
  exact Function.update_self ..

theorem txFrame_of_pass {o : NetOutcomes} {heap : Addr → Option (List Byte)} {skb : Addr}
    {frame : List Byte} (hskb : heap skb = some frame) (hpass : ¬ o.validate < 0) :
    txFrame o heap skb = some (forwarded o.wild (o.validated frame)) := by
  unfold txFrame
  rw [tx_forwarded hskb hpass]
  exact Function.update_self ..

/-- A frame that is forwarded with a valid header never has a valid header
afterwards, whatever its length, its options and its TTL. -/
theorem tx_breaks_checksum (o : NetOutcomes) (heap : Addr → Option (List Byte)) (skb : Addr)
    (frame : List Byte) (hpass : 0 ≤ o.validate) (hheader : HoldsHeader (o.validated frame))
    (hv : Verifies (o.validated frame)) :
    ∃ after, txFrame o (Function.update heap skb (some frame)) skb = some after ∧
      ¬ Verifies after ∧ OnlyMacAndTtl (o.validated frame) after := by
  have hskb : Function.update heap skb (some frame) skb = some frame := Function.update_self ..
  exact ⟨forwarded o.wild (o.validated frame), txFrame_of_pass hskb (Int.not_lt.mpr hpass),
    forwarded_not_verifies o.wild hheader hv, forwarded_only o.wild hheader.length⟩

/-- An IPv4 header with four bytes of options, TTL 64 and a valid checksum. -/
def validFrame : List Byte :=
  List.replicate 12 0 ++ [0x08, 0x00] ++
    [0x46, 0x00, 0x00, 0x18, 0x00, 0x00, 0x00, 0x00, 0x40, 0x3A, 0xF5, 0x3C,
      0xC0, 0xA8, 0x01, 0x0A, 0xC0, 0xA8, 0x00, 0x14, 0x01, 0x01, 0x01, 0x00]

/-- The header with options is forwarded with its old checksum. -/
theorem tx_breaks_validFrame :
    ∃ after, txFrame passes (Function.update (fun _ => none) 1 (some validFrame)) 1 = some after ∧
      ¬ Verifies after ∧ OnlyMacAndTtl (passes.validated validFrame) after :=
  tx_breaks_checksum passes (fun _ => none) 1 validFrame (by decide) (by decide) (by decide)

theorem validFrame_forwarded :
    (HoldsHeader validFrame ∧ Verifies validFrame) ∧
      ∃ after, txFrame passes (oneSkb validFrame) 1 = some after ∧ ¬ Verifies after := by
  have hpass : ¬ passes.validate < 0 := by decide
  exact ⟨⟨by decide, by decide⟩, _, txFrame_of_pass (oneSkb_self validFrame) hpass, by decide⟩

/-! ## A frame that is fed back -/

/-- What `my_netdev_tx` makes of one frame, none when it drops it. -/
def forward (o : NetOutcomes) (skb : Addr) (frame : List Byte) : Option (List Byte) :=
  txFrame o (Function.update (fun _ => none) skb (some frame)) skb

/-- What is left of a frame that was fed back `n` times. The call number `n` has the
outcomes `o n`, so the validation may decide anew each time, for any reason, and may
leave any frame. -/
def fedBack (o : Nat → NetOutcomes) (skb : Addr) (frame : List Byte) : Nat → Option (List Byte)
  | 0 => some frame
  | n + 1 => (fedBack o skb frame n).bind (forward (o n) skb)

/-- The TTL bounds how often the frame is forwarded: each time it gets smaller, a
frame with TTL 0 is dropped, and the frame is dropped in the end. -/
structure TtlBounds (o : Nat → NetOutcomes) (skb : Addr) (frame : List Byte) : Prop where
  decreases : ∀ n g g', fedBack o skb frame n = some g → forward (o n) skb g = some g' →
    ttl g' < ttl g
  zero : ∀ n g, fedBack o skb frame n = some g → ttl g = 0 → forward (o n) skb g = none
  bounded : fedBack o skb frame (ttl frame + 1) = none

/-- The validation drops the frame `g`, or it leaves a TTL that 1 can be taken off: not
0, and not above that of `g`. -/
def Spends (o : NetOutcomes) (g : List Byte) : Prop :=
  o.validate < 0 ∨ (0 < ttl g ∧ ttl (o.validated g) ≤ ttl g ∧
    (22 < (o.validated g).length → 0 < ttl (o.validated g)))

/-- The validation may drop a frame, but leaves the header where it is, with its TTL. -/
def LeavesTtl (o : Nat → NetOutcomes) : Prop :=
  ∀ n g, HoldsHeader g → HoldsHeader ((o n).validated g) ∧ ttl ((o n).validated g) = ttl g

/-- From the second time on only the TTL changes. -/
theorem addressed_set_ttl (frame : List Byte) (t : Byte) :
    addressed ((addressed frame).set 22 t) = (addressed frame).set 22 t := by
  unfold addressed
  rw [writeAt_set (by decide), writeAt_writeAt]

theorem addressed_holds {frame : List Byte} (hheader : HoldsHeader frame) :
    HoldsHeader (addressed frame) :=
  hheader.of_drop_eq (drop_addressed frame) (length_addressed frame)

theorem ttl_lt (frame : List Byte) : ttl frame < 256 := (byteAt frame 22).isLt

theorem ttl_of_short {frame : List Byte} (h : frame.length ≤ 22) : ttl frame = 0 := by
  simp [ttl, byteAt, List.getD_eq_getElem?_getD, List.getElem?_eq_none h]

/-- A TTL of 0 becomes 255. -/
theorem ttl_forwarded (wild : Nat → Byte) {frame : List Byte} (h : 22 < frame.length) :
    ttl (forwarded wild frame) = if ttl frame = 0 then 255 else ttl frame - 1 := by
  rw [forwarded_eq wild h, ttl, byteAt_set_self (by rwa [length_addressed])]
  unfold ttl
  split
  · bv_omega
  · bv_omega

/-- What `my_netdev_tx` forwards has a lower TTL than `g`. -/
theorem ttl_forwarded_lt_iff (wild : Nat → Byte) (frame g : List Byte) :
    ttl (forwarded wild frame) < ttl g ↔
      0 < ttl g ∧ ttl frame ≤ ttl g ∧ (22 < frame.length → 0 < ttl frame) := by
  have hg := ttl_lt g
  rcases Nat.lt_or_ge 22 frame.length with hlen | hlen
  · rw [ttl_forwarded wild hlen]
    split
    · omega
    · omega
  · have hafter : ttl (forwarded wild frame) = 0 :=
      ttl_of_short (by rwa [length_forwarded])
    rw [hafter, ttl_of_short hlen]
    simp [Nat.not_lt.mpr hlen]

section

variable {o : Nat → NetOutcomes} {skb : Addr} {frame : List Byte}

theorem forward_of_neg {o : NetOutcomes} (h : o.validate < 0) (skb : Addr) (g : List Byte) :
    forward o skb g = none :=
  txFrame_of_drop (Function.update_self ..) h

theorem forward_of_pass {o : NetOutcomes} (h : ¬ o.validate < 0) (skb : Addr) (g : List Byte) :
    forward o skb g = some (forwarded o.wild (o.validated g)) :=
  txFrame_of_pass (Function.update_self ..) h

/-- Whether a call lowers the TTL is up to the validation. -/
theorem spends_iff (o : NetOutcomes) (skb : Addr) (g : List Byte) :
    Spends o g ↔ ∀ g', forward o skb g = some g' → ttl g' < ttl g := by
  unfold Spends
  rcases Int.lt_or_le o.validate 0 with hdrop | hpass
  · rw [forward_of_neg hdrop]
    exact iff_of_true (.inl hdrop) nofun
  · rw [forward_of_pass (Int.not_lt.mpr hpass), or_iff_right (Int.not_lt.mpr hpass),
      ← ttl_forwarded_lt_iff o.wild]
    simp

/-- As long as each call lowers the TTL, the calls so far are paid with it. -/
theorem ttl_add_le (h : ∀ n g g', fedBack o skb frame n = some g →
      forward (o n) skb g = some g' → ttl g' < ttl g) {n : Nat} {g : List Byte}
    (hn : fedBack o skb frame n = some g) : ttl g + n ≤ ttl frame := by
  induction n generalizing g with
  | zero =>
    obtain rfl := Option.some.inj hn
    exact Nat.le_refl _
  | succ n ih =>
    obtain ⟨g₀, hg₀, hforward⟩ := Option.bind_eq_some_iff.mp hn
    have hlower := h n g₀ g hg₀ hforward
    have hsum := ih hg₀
    omega

theorem ttlBounds_of_decreases (h : ∀ n g g', fedBack o skb frame n = some g →
    forward (o n) skb g = some g' → ttl g' < ttl g) : TtlBounds o skb frame where
  decreases := h
  zero n g hn hzero := by
    refine Option.eq_none_iff_forall_ne_some.mpr fun g' hg' => ?_
    exact Nat.not_lt_zero _ (hzero ▸ h n g g' hn hg')
  bounded := by
    refine Option.eq_none_iff_forall_ne_some.mpr fun g hg => ?_
    have hsum := ttl_add_le h hg
    omega

theorem ttlBounds_iff_spends : TtlBounds o skb frame ↔
    ∀ n g, fedBack o skb frame n = some g → Spends (o n) g := by
  constructor
  · intro h n g hn
    exact (spends_iff (o n) skb g).mpr fun g' => h.decreases n g g' hn
  · intro h
    exact ttlBounds_of_decreases fun n g g' hn => (spends_iff (o n) skb g).mp (h n g hn) g'

theorem fedBack_none {n : Nat} (h : fedBack o skb frame n = none) (k : Nat) :
    fedBack o skb frame (n + k) = none := by
  induction k with
  | zero => exact h
  | succ k ih =>
    show (fedBack o skb frame (n + k)).bind _ = none
    rw [ih]
    rfl

/-- A frame that the validation drops at the call `n` is not met later. -/
theorem le_of_fedBack {n m : Nat} {g : List Byte} (hdrop : (o n).validate < 0)
    (hm : fedBack o skb frame m = some g) : m ≤ n := by
  by_contra hlt
  obtain ⟨k, rfl⟩ := Nat.exists_eq_add_of_le (Nat.succ_le_of_lt (Nat.not_le.mp hlt))
  have hgone : fedBack o skb frame (n + 1) = none := by
    refine Option.bind_eq_none_iff.mpr fun g' _ => ?_
    exact forward_of_neg hdrop skb g'
  rw [fedBack_none hgone k] at hm
  cases hm

theorem fedBack_of_pass {n : Nat} (hpass : ∀ m < n, ¬ (o m).validate < 0) :
    ∃ g, fedBack o skb frame n = some g := by
  induction n with
  | zero => exact ⟨frame, rfl⟩
  | succ n ih =>
    obtain ⟨g, hg⟩ := ih fun m hm => hpass m (Nat.lt_succ_of_lt hm)
    refine ⟨forwarded (o n).wild ((o n).validated g), ?_⟩
    rw [fedBack, hg, Option.bind_some]
    exact forward_of_pass (hpass n (Nat.lt_succ_self n)) skb g

/-- Until the TTL is used up, each call takes 1 off it. -/
theorem ttl_fedBack (hleaves : LeavesTtl o) (hheader : HoldsHeader frame) {n : Nat} {g : List Byte}
    (hn : fedBack o skb frame n = some g) (hle : n ≤ ttl frame) :
    HoldsHeader g ∧ ttl g + n = ttl frame := by
  induction n generalizing g with
  | zero =>
    obtain rfl := Option.some.inj hn
    exact ⟨hheader, rfl⟩
  | succ n ih =>
    obtain ⟨g₀, hg₀, hforward⟩ := Option.bind_eq_some_iff.mp hn
    obtain ⟨hheld, hsum⟩ := ih hg₀ (Nat.le_of_succ_le hle)
    obtain ⟨hleft, hsame⟩ := hleaves n g₀ hheld
    have hpass : ¬ (o n).validate < 0 := by
      intro hdrop
      rw [forward_of_neg hdrop] at hforward
      cases hforward
    rw [forward_of_pass hpass] at hforward
    obtain rfl := Option.some.inj hforward
    constructor
    · rw [forwarded_eq (o n).wild (hasTtl hleft)]
      exact (addressed_holds hleft).set_ttl _
    · rw [ttl_forwarded (o n).wild (hasTtl hleft), hsame]
      split
      · omega
      · omega

/-- A validation that leaves the TTL alone. -/
theorem ttlBounds_iff_drops (hleaves : LeavesTtl o) (hheader : HoldsHeader frame) :
    TtlBounds o skb frame ↔ ∃ n ≤ ttl frame, (o n).validate < 0 := by
  constructor
  · intro h
    by_contra hnone
    obtain ⟨g, hg⟩ : ∃ g, fedBack o skb frame (ttl frame + 1) = some g :=
      fedBack_of_pass fun m hm hdrop => hnone ⟨m, Nat.le_of_lt_succ hm, hdrop⟩
    rw [h.bounded] at hg
    cases hg
  · rintro ⟨n, hn, hdrop⟩
    refine ttlBounds_iff_spends.mpr fun m g hm => ?_
    have hmn : m ≤ n := le_of_fedBack hdrop hm
    obtain ⟨hheld, hsum⟩ := ttl_fedBack hleaves hheader hm (Nat.le_trans hmn hn)
    rcases Nat.eq_or_lt_of_le hmn with rfl | hlt
    · exact .inl hdrop
    · have hsame := (hleaves m g hheld).2
      exact .inr ⟨by omega, Nat.le_of_eq hsame, fun _ => by omega⟩

end

/-- The TTL bounds how often a frame is forwarded if and only if at each call the
validation drops the frame, or leaves a TTL that is not 0 and not above the one it found.
If the validation leaves a complete header with its TTL, that is to drop the frame at one
of the first TTL + 1 calls. -/
theorem ttl_bounds_iff (o : Nat → NetOutcomes) (skb : Addr) (frame : List Byte) :
    (TtlBounds o skb frame ↔ ∀ n g, fedBack o skb frame n = some g → Spends (o n) g) ∧
    (LeavesTtl o → HoldsHeader frame →
      (TtlBounds o skb frame ↔ ∃ n ≤ ttl frame, (o n).validate < 0)) :=
  ⟨ttlBounds_iff_spends, ttlBounds_iff_drops⟩

/-- The validation drops the frame at the second call. The first one has spoiled the
checksum. -/
def dropsSecond (n : Nat) : NetOutcomes := { passes with validate := if n = 0 then 0 else -1 }

theorem ttl_bounds_validFrame :
    TtlBounds dropsSecond 1 validFrame ↔ ∃ n ≤ ttl validFrame, (dropsSecond n).validate < 0 :=
  (ttl_bounds_iff dropsSecond 1 validFrame).2 (fun _ _ h => ⟨h, rfl⟩) (by decide)

/-- With a validation that drops no frame, one with TTL 64 is forwarded more than 64
times, and one with TTL 0 comes back with TTL 255. -/
theorem validFrame_loops :
    fedBack (fun _ => passes) 1 validFrame 65 ≠ none ∧
      (forward passes 1 (validFrame.set 22 0)).map ttl = some 255 ∧
      ¬ TtlBounds (fun _ => passes) 1 validFrame := by
  have hpass : ¬ passes.validate < 0 := by decide
  obtain ⟨g, hg⟩ : ∃ g, fedBack (fun _ => passes) 1 validFrame 65 = some g :=
    fedBack_of_pass fun _ _ => hpass
  have hlast : fedBack (fun _ => passes) 1 validFrame 65 ≠ none := by
    rw [hg]
    exact Option.some_ne_none g
  refine ⟨hlast, ?_, fun hbounds => hlast hbounds.bounded⟩
  rw [forward_of_pass hpass]
  decide

end DeviceDrivers.NetEth
