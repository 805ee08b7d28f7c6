import DeviceDrivers.Drivers.NetEthFrames
import DeviceDrivers.Drivers.NetUsp

/-!
# Frames on their way through Ethernet devices

A frame passes one device after the other, each with its own heap and outcomes, and
is then received. The validation is assumed to leave the frames that it lets through
as they are.

1. `route_eq`: what comes out behind any number of devices. The first sets the
   destination address, and each takes 1 off the TTL, which wraps around.
2. `route_verifies_iff`: a header checksum that verified does so again exactly when
   the number of devices is a multiple of 256.
3. `received_as_sent`: a frame of `netSpi.c` or `net_usp.c` is received with the
   addresses of its sender, and never taken for an echo reply.
-/

namespace DeviceDrivers.NetEth

open Ipv4

/-! ## Devices on the way -/

/-- A device that a frame passes: its other buffers, where it puts the frame, and
what decides its calls. -/
structure Hop where
  o : NetOutcomes
  heap : Addr → Option (List Byte)
  skb : Addr

def Hop.tx (h : Hop) (frame : List Byte) : Option (List Byte) :=
  txFrame h.o (Function.update h.heap h.skb (some frame)) h.skb

/-- What comes out behind the devices, none when one of them drops it. -/
def route : List Hop → List Byte → Option (List Byte)
  | [], frame => some frame
  | h :: hops, frame => (h.tx frame).bind (route hops)

/-- The validation does not change a frame. -/
def Hop.Keeps (h : Hop) : Prop := ∀ frame, h.o.validated frame = frame

/-- The frame behind `n` devices. -/
def hopped (frame : List Byte) : Nat → List Byte
  | 0 => frame
  | n + 1 => (addressed frame).set 22 (byteAt frame 22 - BitVec.ofNat 8 (n + 1))

@[simp] theorem length_hopped (frame : List Byte) (n : Nat) :
    (hopped frame n).length = frame.length := by
  cases n with
  | zero => rfl
  | succ n => simp [hopped]

theorem forwarded_hopped (wild : Nat → Byte) {frame : List Byte} (h : 34 ≤ frame.length) (n : Nat) :
    forwarded wild (hopped frame n) = hopped frame (n + 1) := by
  have hlt : 22 < frame.length := Nat.lt_of_lt_of_le (by decide) h
  have hlen : 22 < (addressed frame).length := by rwa [length_addressed]
  rw [forwarded_eq wild (by rwa [length_hopped])]
  cases n with
  | zero => rfl
  | succ n =>
    have hone : BitVec.ofNat 8 (n + 1 + 1) = BitVec.ofNat 8 (n + 1) + 1 := BitVec.ofNat_add _ _
    simp only [hopped]
    rw [addressed_set_ttl, byteAt_set_self hlen, List.set_set, hone, BitVec.sub_sub]

/-- One device: a frame that it drops is gone, any other one has come a device
further. -/
theorem tx_hopped {h : Hop} (hkeeps : h.Keeps) {frame : List Byte} (hlen : 34 ≤ frame.length)
    (n : Nat) : h.tx (hopped frame n) =
      if h.o.validate < 0 then none else some (hopped frame (n + 1)) := by
  have hskb : Function.update h.heap h.skb (some (hopped frame n)) h.skb =
      some (hopped frame n) := Function.update_self ..
  split
  · rename_i hdrop
    exact txFrame_of_drop hskb hdrop
  · rename_i hpass
    have htx := txFrame_of_pass hskb hpass
    rw [hkeeps, forwarded_hopped h.o.wild hlen] at htx
    exact htx

theorem route_hopped {hops : List Hop} (hkeeps : ∀ h ∈ hops, h.Keeps) {frame : List Byte}
    (hlen : 34 ≤ frame.length) (n : Nat) : route hops (hopped frame n) =
      if ∃ h ∈ hops, h.o.validate < 0 then none else some (hopped frame (n + hops.length)) := by
  induction hops generalizing n with
  | nil => simp [route]
  | cons h hops ih =>
    rw [route, tx_hopped (hkeeps h List.mem_cons_self) hlen]
    by_cases hdrop : h.o.validate < 0
    · simp [hdrop]
    · rw [if_neg hdrop, Option.bind_some, ih (fun h hmem => hkeeps h (List.mem_cons_of_mem _ hmem))]
      simp [hdrop, Nat.add_assoc, Nat.add_comm 1]

/-- A frame arrives when no device drops it. -/
theorem route_eq {hops : List Hop} (hkeeps : ∀ h ∈ hops, h.Keeps) {frame : List Byte}
    (hlen : 34 ≤ frame.length) : route hops frame =
      if ∃ h ∈ hops, h.o.validate < 0 then none else some (hopped frame hops.length) := by
  have hroute := route_hopped hkeeps hlen 0
  rw [Nat.zero_add] at hroute
  exact hroute

theorem eq_hopped_of_route {hops : List Hop} (hkeeps : ∀ h ∈ hops, h.Keeps) {frame g : List Byte}
    (hlen : 34 ≤ frame.length) (hroute : route hops frame = some g) :
    g = hopped frame hops.length := by
  rw [route_eq hkeeps hlen] at hroute
  split at hroute
  · cases hroute
  · exact (Option.some.inj hroute).symm

/-! ## The header behind the devices -/

theorem hopped_holds {frame : List Byte} (h : HoldsHeader frame) (n : Nat) :
    HoldsHeader (hopped frame n) := by
  cases n with
  | zero => exact h
  | succ n => exact (addressed_holds h).set_ttl _

theorem ttl_hopped {frame : List Byte} (h : 34 ≤ frame.length) (n : Nat) :
    byteAt (hopped frame n) 22 = byteAt frame 22 - BitVec.ofNat 8 n := by
  cases n with
  | zero => simp [hopped]
  | succ n =>
    have hlen : 22 < (addressed frame).length := by
      rw [length_addressed]
      omega
    exact byteAt_set_self hlen _

/-- Only the destination address and the TTL are different. -/
theorem hopped_only {frame : List Byte} (h : 34 ≤ frame.length) (n : Nat) :
    OnlyMacAndTtl frame (hopped frame n) := by
  induction n with
  | zero => exact ⟨rfl, fun _ _ _ => rfl⟩
  | succ n ih =>
    rw [← forwarded_hopped (fun _ => 0) h]
    have hlong : 34 ≤ (hopped frame n).length := by rwa [length_hopped]
    obtain ⟨hlen, hget⟩ := forwarded_only (fun _ => 0) hlong
    exact ⟨hlen.trans ih.1, fun i hi hne => (hget i hi hne).trans (ih.2 i hi hne)⟩

theorem sub_ofNat_eq_iff (b : Byte) (n : Nat) : b - BitVec.ofNat 8 n = b ↔ 256 ∣ n := by
  have hb : b.toNat < 256 := b.isLt
  rw [← BitVec.toNat_inj, BitVec.toNat_sub, BitVec.toNat_ofNat]
  omega

theorem hopped_verifies_iff {frame : List Byte} (h : HoldsHeader frame) (hv : Verifies frame)
    (n : Nat) : Verifies (hopped frame n) ↔ 256 ∣ n := by
  cases n with
  | zero => exact iff_of_true hv (Nat.dvd_zero 256)
  | succ n =>
    have hdrop := drop_addressed frame
    have hheld : HoldsHeader (addressed frame) := addressed_holds h
    rw [hopped, verifies_set_ttl hheld ((verifies_of_drop_eq hdrop).mpr hv),
      byteAt_of_drop_eq hdrop (by decide)]
    exact sub_ofNat_eq_iff (byteAt frame 22) (n + 1)

/-- A frame with a valid header that passed any number of devices: every byte but the
destination address and the TTL is still there, the TTL has wrapped around, and the
header is valid exactly when the TTL is back where it was. -/
theorem route_verifies_iff (hops : List Hop) (hkeeps : ∀ h ∈ hops, h.Keeps) (frame : List Byte)
    (hheader : HoldsHeader frame) (hv : Verifies frame) :
    ((∃ g, route hops frame = some g) ↔ ∀ h ∈ hops, 0 ≤ h.o.validate) ∧
    ∀ g, route hops frame = some g → HoldsHeader g ∧ OnlyMacAndTtl frame g ∧
      byteAt g 22 = byteAt frame 22 - BitVec.ofNat 8 hops.length ∧
      (Verifies g ↔ 256 ∣ hops.length) := by
  have hlen : 34 ≤ frame.length := hheader.length
  refine ⟨?_, fun g hg => ?_⟩
  · rw [route_eq hkeeps hlen]
    split
    · rename_i hdrop
      obtain ⟨h, hmem, hneg⟩ := hdrop
      refine iff_of_false (by simp) fun hall => ?_
      exact Int.not_le.mpr hneg (hall h hmem)
    · rename_i hpass
      refine iff_of_true ⟨_, rfl⟩ fun h hmem => Int.not_lt.mp fun hneg => hpass ⟨h, hmem, hneg⟩
  · obtain rfl := eq_hopped_of_route hkeeps hlen hg
    exact ⟨hopped_holds hheader _, hopped_only hlen _, ttl_hopped hlen _,
      hopped_verifies_iff hheader hv _⟩

/-- One device is enough to spoil the checksum of the header with options. -/
theorem route_validFrame :
    let hops : List Hop := [⟨passes, fun _ => none, 1⟩]
    ((∃ g, route hops validFrame = some g) ↔ ∀ h ∈ hops, 0 ≤ h.o.validate) ∧
    ∀ g, route hops validFrame = some g → HoldsHeader g ∧ OnlyMacAndTtl validFrame g ∧
      byteAt g 22 = byteAt validFrame 22 - BitVec.ofNat 8 hops.length ∧
      (Verifies g ↔ 256 ∣ hops.length) :=
  route_verifies_iff [⟨passes, fun _ => none, 1⟩] (by simp [Hop.Keeps, passes]) validFrame
    (by decide) (by decide)

/-! ## Reception -/

/-- What a range of bytes reads as behind the devices, when it leaves out the
destination address and the TTL. -/
theorem readAt_hopped (wild : Nat → Byte) {frame : List Byte} (h : 34 ≤ frame.length) (n : Nat)
    {off len : Nat} (hoff : 6 ≤ off) (hends : off + len ≤ 22 ∨ 22 < off) :
    readAt wild (hopped frame n) off len = readAt wild frame off len := by
  refine List.map_congr_left fun i hi => ?_
  have hlt : i < len := List.mem_range.mp hi
  have hget := (hopped_only h n).2 (off + i) (by omega) (by omega)
  rw [List.getD_eq_getElem?_getD, List.getD_eq_getElem?_getD, hget]

/-- The destination address behind the devices. -/
theorem readAt_hopped_dest (wild : Nat → Byte) {frame : List Byte} (h : 34 ≤ frame.length)
    (n : Nat) :
    readAt wild (hopped frame (n + 1)) 0 6 = myNetdevMac := by
  have hmac : readAt wild (addressed frame) 0 6 = myNetdevMac := by
    unfold addressed
    rw [writeAt_zero (by simp [myNetdevMac]; omega)]
    rfl
  rw [← hmac]
  refine List.map_congr_left fun i hi => ?_
  have hlt : i < 6 := List.mem_range.mp hi
  rw [hopped, List.getD_eq_getElem?_getD, List.getD_eq_getElem?_getD,
    List.getElem?_set_ne (by omega)]

/-- Frames of the two programs that build their own, with the addresses that the
programs put in. -/
inductive SentBy : Mac → BitVec 32 → BitVec 32 → List Byte → Prop
  | netSpi {env : NetSpi.Station} {o : NetSpi.SpiOutcomes} {skb q : Addr}
      {s : NetSpi.NetSpiState} {frame : List Byte}
      (h : (NetSpi.rx env o skb s).2.queued = (q, frame) :: s.queued) :
      SentBy env.devAddr env.saddr (NetSpi.inetAddr 10 0 0 2) frame
  | netUsp {input : NetUsp.UspInput} {frame : List Byte}
      (h : (NetUsp.main input).sent.map Prod.snd = some frame) :
      SentBy input.myNetdevMac (NetSpi.inetAddr 192 168 1 10) (NetSpi.inetAddr 192 168 0 20) frame

/-- What `my_netdev_rx` finds in such a frame, and that it does not look like an echo
reply. -/
theorem SentBy.packet {mac : Mac} {saddr daddr : BitVec 32} {frame : List Byte}
    (h : SentBy mac saddr daddr frame) : ∃ eth ip rest, frame = packet eth ip rest ∧
      eth.hDest = NetSpi.broadcast ∧ eth.hSource = mac ∧ ip.saddr = saddr ∧ ip.daddr = daddr ∧
      (ip.protocol = IPPROTO_ICMPV6 → rest[0]? = some NetUsp.ICMPV6_ECHO_REQUEST) := by
  cases h with
  | netSpi h =>
    obtain ⟨-, rfl⟩ := NetSpi.sent_of_queued _ _ h
    exact ⟨_, _, _, rfl, rfl, rfl, rfl, rfl, fun hprotocol => by cases hprotocol⟩
  | @netUsp input frame h =>
    rw [NetUsp.main_sent] at h
    split at h
    · cases h
    · obtain rfl := Option.some.inj h
      exact ⟨_, _, _, rfl, rfl, rfl, rfl, rfl, fun _ => rfl⟩

theorem le_length_packet (eth : EthHdr) (ip : IpHdr) (rest : List Byte) :
    34 ≤ (packet eth ip rest).length := by
  simp only [packet, List.length_append, Layout.length_encode]
  exact Nat.add_le_add_left (Nat.le_add_right 20 _) 14

/-- What `my_netdev_rx` prints of a packet behind `n` devices. -/
theorem copyPrinted_packet (wild : Nat → Byte) (eth : EthHdr) {ip : IpHdr} {rest : List Byte}
    (hquiet : ip.protocol = IPPROTO_ICMPV6 → rest[0]? = some NetUsp.ICMPV6_ECHO_REQUEST) (n : Nat) :
    copyPrinted wild (hopped (packet eth ip rest) n) =
      [.addresses (le32 ip.saddr) (le32 ip.daddr),
        .received eth.hSource.bytes (if n = 0 then eth.hDest.bytes else myNetdevMac)] := by
  have hlen : 34 ≤ (packet eth ip rest).length := le_length_packet eth ip rest
  have hsource : readAt wild (hopped (packet eth ip rest) n) 6 6 = eth.hSource.bytes :=
    readAt_hopped wild hlen n (by decide) (.inl (by decide))
  have hsaddr : readAt wild (hopped (packet eth ip rest) n) 26 4 = le32 ip.saddr :=
    readAt_hopped wild hlen n (by decide) (.inr (by decide))
  have hdaddr : readAt wild (hopped (packet eth ip rest) n) 30 4 = le32 ip.daddr :=
    readAt_hopped wild hlen n (by decide) (.inr (by decide))
  have hdest : readAt wild (hopped (packet eth ip rest) n) 0 6 =
      if n = 0 then eth.hDest.bytes else myNetdevMac := by
    cases n with
    | zero => rfl
    | succ n => exact readAt_hopped_dest wild hlen n
  have hreply : ¬ (SaysIcmpv6 (hopped (packet eth ip rest) n) ∧
      readAt wild (hopped (packet eth ip rest) n) 34 1 = [ICMPV6_ECHO_REPLY]) := by
    rintro ⟨hicmp, htype⟩
    have hprotocol : ip.protocol = IPPROTO_ICMPV6 := by
      have hbyte := (hopped_only hlen n).2 23 (by decide) (by decide)
      exact Option.some.inj (hbyte.symm.trans hicmp)
    have hfirst : (packet eth ip rest)[34]? = some NetUsp.ICMPV6_ECHO_REQUEST := hquiet hprotocol
    rw [readAt_hopped wild hlen n (by decide) (.inr (by decide))] at htype
    simp only [readAt, List.range_one, List.map_cons, List.map_nil, Nat.add_zero,
      List.getD_eq_getElem?_getD, hfirst] at htype
    cases htype
  rw [copyPrinted, if_neg hreply, hsource, hsaddr, hdaddr, hdest]
  rfl

/-- A frame of either program, behind any number of devices that let it through:
`my_netdev_rx` prints the addresses of the sender, with the device's own as the
destination when there was a device on the way, and reports no echo reply. -/
theorem received_as_sent {mac : Mac} {saddr daddr : BitVec 32} {frame g : List Byte}
    (hsent : SentBy mac saddr daddr frame) (hops : List Hop) (hkeeps : ∀ h ∈ hops, h.Keeps)
    (hroute : route hops frame = some g) (o : NetOutcomes) (heap : Addr → Option (List Byte))
    (skb : Addr) :
    let heap' := Function.update heap skb (some g)
    let r := (myNetdevRx skb).exec (netcall o) (start heap')
    r.2.mem.heap = Function.update heap skb none ∧
    ((∃ p, Allocates o heap' p) → r.1 = .success ∧ r.2.printed =
      [.addresses (le32 saddr) (le32 daddr),
        .received mac.bytes (if hops = [] then NetSpi.broadcast.bytes else myNetdevMac)]) ∧
    ((∀ p, ¬ Allocates o heap' p) → r.1 = .drop ∧ r.2.printed = []) := by
  intro heap' r
  obtain ⟨eth, ip, rest, rfl, hdest, rfl, rfl, rfl, hquiet⟩ := hsent.packet
  have hlen : 34 ≤ (packet eth ip rest).length := le_length_packet eth ip rest
  obtain rfl := eq_hopped_of_route hkeeps hlen hroute
  have hskb : heap' skb = some (hopped (packet eth ip rest) hops.length) :=
    Function.update_self ..
  have hlong : 34 ≤ (hopped (packet eth ip rest) hops.length).length := by
    rwa [length_hopped]
  have hgone : Function.update heap' skb none = Function.update heap skb none :=
    Function.update_idem ..
  have hprinted := copyPrinted_packet o.wild eth hquiet hops.length
  rw [hdest] at hprinted
  cases rxPath o heap' (hopped (packet eth ip rest) hops.length) with
  | short hshort => exact absurd hlong (Nat.not_le.mpr hshort)
  | noMemory _ hfail =>
    have hr := rx_noMemory hskb hlong hfail
    rw [show r = _ from hr]
    refine ⟨hgone, fun hp => ?_, fun _ => ⟨rfl, rfl⟩⟩
    obtain ⟨p, hp⟩ := hp
    exact absurd hp (hfail p)
  | @copied p _ hp =>
    have hr := rx_copied hskb hlong hp
    rw [show r = _ from hr]
    refine ⟨hgone, fun _ => ⟨rfl, ?_⟩, fun hnone => absurd hp (hnone p)⟩
    rw [hprinted]
    simp

/-- The packet of the user-space sender arrives behind one device. -/
theorem received_plain :
    ∃ g, route [⟨passes, fun _ => none, 1⟩]
        (NetUsp.packetOf NetUsp.plain (NetUsp.staleArea NetUsp.plain)) = some g ∧
      ((myNetdevRx 1).exec (netcall passes) (start (oneSkb g))).2.printed =
        [.addresses (le32 (NetSpi.inetAddr 192 168 1 10)) (le32 (NetSpi.inetAddr 192 168 0 20)),
          .received NetUsp.plain.myNetdevMac.bytes myNetdevMac] := by
  have hsent := SentBy.netUsp ((NetUsp.main_sent NetUsp.plain).trans (if_neg (by decide)))
  have hkeeps : ∀ h ∈ [(⟨passes, fun _ => none, 1⟩ : Hop)], h.Keeps := by simp [Hop.Keeps, passes]
  have hlen : 34 ≤ (NetUsp.packetOf NetUsp.plain (NetUsp.staleArea NetUsp.plain)).length :=
    le_length_packet _ _ _
  have hroute := (route_eq hkeeps hlen).trans (if_neg (by simp [passes]))
  refine ⟨_, hroute, ?_⟩
  generalize hopped _ _ = g at hroute ⊢
  obtain ⟨-, harrives, -⟩ := received_as_sent hsent _ hkeeps hroute passes (fun _ => none) 1
  exact (harrives ⟨2, rfl, rfl⟩).2

end DeviceDrivers.NetEth
