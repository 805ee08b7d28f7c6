import DeviceDrivers.Drivers.NetSpi

/-!
# The user-space sender, and old memory on the wire

`main` of `net_usp.c` sends an ICMPv6 echo request in a buffer from `malloc`. It
and `my_netdev_rx` of `netSpi.c` build a frame field by field in memory that is
not cleared.

1. `buildPacket_eq`: the user-space frame. From the ICMPv6 checksum on it is what
   the buffer had.
2. `frameOf_eq_iff`: two frames of `netSpi.c` are the same when the memory had the
   same reserved bits and urgent pointer in the TCP header.
3. `sent_same_iff`: exactly when the old contents of the memory do not show.
-/

namespace DeviceDrivers.NetUsp

open NetSpi (fillEth fillIp inetAddr sizeofEthhdr sizeofIp)

/-! ## Source -/

/-- What `main` depends on: the address that the source does not declare, the
checksum function, the number of the interface, which of the three calls fail, and
the old contents of the memory that `malloc` returns. -/
structure UspInput where
  myNetdevMac : Mac
  inChecksum : List Byte → BitVec 16
  ifindex : Nat
  socketFails : Bool
  mallocFails : Bool
  sendtoFails : Bool
  stale : Nat → Byte

/-- The fields of `struct sockaddr_ll` that are set after the `memset`. -/
structure SockaddrLl where
  sllFamily : Nat
  sllHalen : Nat
  sllAddr : Mac
  sllIfindex : Nat

/-- How `main` ends. The result of `malloc` is not tested: a NULL is written
through. -/
inductive Ending
  | returned
  | exit (code : Nat)
  | nullWrite
deriving DecidableEq

/-- What is handed to `sendto`, what is printed, and the end. -/
structure UspResult where
  sent : Option (SockaddrLl × List Byte)
  printed : List String
  ending : Ending

def AF_PACKET : Nat := 17
def ETH_ALEN : Nat := 6
def IPPROTO_ICMPV6 : Byte := 58
def ICMPV6_ECHO_REQUEST : Byte := 128
def sizeofIcmpv6hdr : Nat := 8

def packetLen : Nat := sizeofEthhdr + sizeofIp + sizeofIcmpv6hdr + 64

def setIp (input : UspInput) : IpHdr → IpHdr :=
  fillIp (sizeofIp + sizeofIcmpv6hdr + 64) IPPROTO_ICMPV6 (inetAddr 192 168 1 10)
    (inetAddr 192 168 0 20) input.inChecksum

def setIcmpv6 (icmpv6Header : Icmp6Hdr) : Icmp6Hdr :=
  { icmpv6Header with
    type := ICMPV6_ECHO_REQUEST
    code := 0 }

def buildPacket (input : UspInput) (packet : List Byte) : List Byte :=
  let ethHeader := 0
  let packet := EthHdr.layout.edit ethHeader (fillEth input.myNetdevMac) packet
  let ipHeader := sizeofEthhdr
  let packet := IpHdr.layout.edit ipHeader (setIp input) packet
  let icmpv6Header := sizeofEthhdr + sizeofIp
  Icmp6Hdr.layout.edit icmpv6Header setIcmpv6 packet

def main (input : UspInput) : UspResult :=
  if input.socketFails then ⟨none, ["socket"], .exit 1⟩
  else
  let socketAddress : SockaddrLl := ⟨AF_PACKET, ETH_ALEN, input.myNetdevMac, input.ifindex⟩
  if input.mallocFails then ⟨none, [], .nullWrite⟩
  else
  let packet := buildPacket input ((List.range packetLen).map input.stale)
  let sent := some (socketAddress, packet.take packetLen)
  if input.sendtoFails then ⟨sent, ["sendto"], .exit 1⟩
  else ⟨sent, ["Sent ICMPv6 echo request to 192.168.0.20\n"], .returned⟩

/-! ## The frame of the user-space sender -/

def ethOf (input : UspInput) : EthHdr := fillEth input.myNetdevMac (EthHdr.layout.decode [])

def ipOf (input : UspInput) : IpHdr := setIp input (IpHdr.layout.decode [])

/-- The packet over memory that had `stale`: the headers, two bytes of the ICMPv6
header, and then what the memory had. -/
def packetOf (input : UspInput) (stale : List Byte) : List Byte :=
  packet (ethOf input) (ipOf input) ([ICMPV6_ECHO_REQUEST, 0] ++ stale.drop 36)

/-- The assignments to the ICMPv6 header reach its first two bytes. -/
theorem encode_setIcmpv6 {bs : List Byte} (h : bs.length = 8) :
    Icmp6Hdr.layout.encode (setIcmpv6 (Icmp6Hdr.layout.decode bs)) =
      [ICMPV6_ECHO_REQUEST, 0] ++ bs.drop 2 := by
  have hdrop : (Icmp6Hdr.layout.encode (Icmp6Hdr.layout.decode bs)).drop 2 = bs.drop 2 := by
    rw [Icmp6Hdr.layout.encode_decode bs h]
  rw [← hdrop]
  rfl

theorem buildPacket_eq (input : UspInput) {stale : List Byte} (h : 42 ≤ stale.length) :
    buildPacket input stale = packetOf input stale := by
  have hcut : stale = slice stale 0 14 ++ (slice stale 14 20 ++
      (slice stale 34 8 ++ stale.drop 42)) := by
    rw [← drop_eq_slice_append stale 34 8, ← drop_eq_slice_append stale 14 20]
    exact drop_eq_slice_append stale 0 14
  have hrest : (slice stale 34 8).drop 2 ++ stale.drop 42 = stale.drop 36 := by
    rw [drop_eq_slice_append stale 36 6]
    unfold slice
    rw [List.drop_take, List.drop_drop]
  have hfirst : IpHdr.layout.edit 14 (setIp input)
      (EthHdr.layout.edit 0 (fillEth input.myNetdevMac) stale) =
        packet (ethOf input) (ipOf input) (slice stale 34 8 ++ stale.drop 42) := by
    conv_lhs => rw [hcut]
    exact edit_first (fun _ => rfl) (fun _ => rfl) (length_slice (by omega))
      (length_slice (by omega)) _
  have hicmp : (slice stale 34 8).length = 8 := length_slice h
  show Icmp6Hdr.layout.edit 34 setIcmpv6 (IpHdr.layout.edit 14 (setIp input)
    (EthHdr.layout.edit 0 (fillEth input.myNetdevMac) stale)) = packetOf input stale
  rw [hfirst, edit_packet Icmp6Hdr.layout setIcmpv6 _ _ hicmp, encode_setIcmpv6 hicmp,
    List.append_assoc, hrest]
  rfl

/-- The old contents of the area that `malloc` returns. -/
def staleArea (input : UspInput) : List Byte := (List.range packetLen).map input.stale

/-- The packet that a run hands to `sendto`. -/
theorem main_sent (input : UspInput) :
    (main input).sent.map Prod.snd =
      if input.socketFails ∨ input.mallocFails then none
      else some (packetOf input (staleArea input)) := by
  have hbuild : buildPacket input (staleArea input) = packetOf input (staleArea input) :=
    buildPacket_eq input (by simp [staleArea, packetLen])
  have hlen : (packetOf input (staleArea input)).length = packetLen := rfl
  have htake : (buildPacket input (staleArea input)).take packetLen =
      packetOf input (staleArea input) := by
    rw [hbuild, List.take_of_length_le (Nat.le_of_eq hlen)]
  unfold main
  cases hsocket : input.socketFails with
  | true => simp
  | false =>
    cases hmalloc : input.mallocFails with
    | true => simp
    | false =>
      -- The frame has gone out before the result of `sendto` is tested.
      cases input.sendtoFails with
      | true =>
        simp
        exact htake
      | false =>
        simp
        exact htake

/-! ## The old contents that show -/

/-- Where the user-space frame keeps the old contents: the ICMPv6 checksum, the rest
of that header and the payload. -/
def SameTail (stale₁ stale₂ : Nat → Byte) : Prop :=
  ∀ i, 36 ≤ i → i < 106 → stale₁ i = stale₂ i

/-- Where the frame of `netSpi.c` keeps them: the four reserved bits and the urgent
pointer of the TCP header. -/
def SameGaps (stale₁ stale₂ : Nat → Byte) : Prop :=
  (stale₁ 46).extractLsb' 0 4 = (stale₂ 46).extractLsb' 0 4 ∧ stale₁ 52 = stale₂ 52 ∧
    stale₁ 53 = stale₂ 53

theorem packetOf_eq_iff (input : UspInput) (stale₁ stale₂ : Nat → Byte) :
    packetOf input ((List.range packetLen).map stale₁) =
        packetOf input ((List.range packetLen).map stale₂) ↔ SameTail stale₁ stale₂ := by
  constructor
  · intro h
    exact drop_map_range_eq_iff.mp (List.append_cancel_left (packet_injective h))
  · intro h
    have hdrop : ((List.range packetLen).map stale₁).drop 36 =
        ((List.range packetLen).map stale₂).drop 36 := drop_map_range_eq_iff.mpr h
    unfold packetOf
    rw [hdrop]

section

open NetSpi

/-- The TCP header is all that changes with the memory, and of it two fields do. -/
theorem frameOf_eq_iff (env : Station) (temperature : BitVec 32) (a b : List Byte) :
    frameOf env temperature a = frameOf env temperature b ↔
      (TcpHdr.layout.decode a).res1 = (TcpHdr.layout.decode b).res1 ∧
        (TcpHdr.layout.decode a).urgPtr = (TcpHdr.layout.decode b).urgPtr := by
  constructor
  · intro h
    have htcp := TcpHdr.layout.encode_injective (List.append_cancel_right (packet_injective h))
    have hres := congrArg TcpHdr.res1 htcp
    have hurg := congrArg TcpHdr.urgPtr htcp
    exact ⟨hres, hurg⟩
  · rintro ⟨hres, hurg⟩
    have htcp : tcpOf a = tcpOf b := by
      unfold tcpOf setTcp
      rw [hres, hurg]
    unfold frameOf
    rw [htcp]

/-- Where the fields of the header lie in the new skb. -/
theorem byteAt_staleTcp (o : SpiOutcomes) {i : Nat} (h : i < 20) :
    byteAt (staleTcp o) i = o.stale (34 + i) := by
  unfold staleTcp
  rw [byteAt_slice h, byteAt_map_range o.stale (by omega)]

theorem sentFrame_eq_iff (env : Station) (o : SpiOutcomes) (stale₁ stale₂ : Nat → Byte) :
    sentFrame env { o with stale := stale₁ } = sentFrame env { o with stale := stale₂ } ↔
      SameGaps stale₁ stale₂ := by
  refine (frameOf_eq_iff env _ _ _).trans (and_congr ?_ ?_)
  · show (byteAt _ 12).extractLsb' 0 4 = (byteAt _ 12).extractLsb' 0 4 ↔ _
    rw [byteAt_staleTcp _ (by decide), byteAt_staleTcp _ (by decide)]
  · show ofLe16 (byteAt _ 18) (byteAt _ 19) = ofLe16 (byteAt _ 18) (byteAt _ 19) ↔ _
    rw [ofLe16_inj, byteAt_staleTcp _ (by decide), byteAt_staleTcp _ (by decide),
      byteAt_staleTcp _ (by decide), byteAt_staleTcp _ (by decide)]

/-- The frames of one call are the same if none is queued, and else if the old
contents agree in the gaps. -/
theorem queued_same_iff (env : Station) (o : SpiOutcomes) (skb : Addr) (s : NetSpiState)
    (stale₁ stale₂ : Nat → Byte) :
    (rx env { o with stale := stale₁ } skb s).2.queued.map Prod.snd =
        (rx env { o with stale := stale₂ } skb s).2.queued.map Prod.snd ↔
      (¬ ∃ p q, Transfers o s p ∧ AllocsSkb o s p q) ∨ SameGaps stale₁ stale₂ := by
  cases buffers o s with
  | noData hnone =>
    have hnot : ¬ ∃ p q, Transfers o s p ∧ AllocsSkb o s p q := fun ⟨p, _, hp, _⟩ => hnone p hp
    refine iff_of_true ?_ (.inl hnot)
    rw [rx_noData (o := { o with stale := stale₁ }) env skb hnone,
      rx_noData (o := { o with stale := stale₂ }) env skb hnone]
  | noSkb hp hfail =>
    have hnot : ¬ ∃ p q, Transfers o s p ∧ AllocsSkb o s p q := by
      rintro ⟨p', q, hp', hq⟩
      obtain rfl := hp.unique hp'
      exact hfail q hq
    refine iff_of_true ?_ (.inl hnot)
    rw [rx_noSkb (o := { o with stale := stale₁ }) env skb hp hfail,
      rx_noSkb (o := { o with stale := stale₂ }) env skb hp hfail]
  | @both p q hp hq =>
    have hsome : ∃ p q, Transfers o s p ∧ AllocsSkb o s p q := ⟨p, q, hp, hq⟩
    rw [rx_sent (o := { o with stale := stale₁ }) env skb hp hq,
      rx_sent (o := { o with stale := stale₂ }) env skb hp hq, or_iff_right (not_not.mpr hsome),
      List.map_cons, List.map_cons, List.cons.injEq, and_iff_left rfl]
    exact sentFrame_eq_iff env o stale₁ stale₂

end

/-! ## Two runs on different old contents -/

/-- What `main` hands to `sendto` is the same if nothing is, and else if the old
contents agree in the tail. -/
theorem main_same_iff (input : UspInput) (stale₁ stale₂ : Nat → Byte) :
    (main { input with stale := stale₁ }).sent.map Prod.snd =
        (main { input with stale := stale₂ }).sent.map Prod.snd ↔
      (input.socketFails ∨ input.mallocFails) ∨ SameTail stale₁ stale₂ := by
  rw [main_sent, main_sent]
  by_cases hfails : input.socketFails ∨ input.mallocFails
  · exact iff_of_true (by rw [if_pos hfails, if_pos hfails]) (.inl hfails)
  · rw [if_neg hfails, if_neg hfails, Option.some.injEq]
    refine (packetOf_eq_iff input stale₁ stale₂).trans ?_
    rw [or_iff_right hfails]

/-- Two runs that differ in the old contents of the memory send the same bytes
exactly when they send none, or when the old contents agree where the builder does
not write. -/
theorem sent_same_iff (env : NetSpi.Station) (o : NetSpi.SpiOutcomes) (skb : Addr)
    (s : NetSpi.NetSpiState) (input : UspInput) (stale₁ stale₂ : Nat → Byte) :
    ((NetSpi.rx env { o with stale := stale₁ } skb s).2.queued.map Prod.snd =
        (NetSpi.rx env { o with stale := stale₂ } skb s).2.queued.map Prod.snd ↔
      (¬ ∃ p q, NetSpi.Transfers o s p ∧ NetSpi.AllocsSkb o s p q) ∨ SameGaps stale₁ stale₂) ∧
    ((main { input with stale := stale₁ }).sent.map Prod.snd =
        (main { input with stale := stale₂ }).sent.map Prod.snd ↔
      (input.socketFails ∨ input.mallocFails) ∨ SameTail stale₁ stale₂) :=
  ⟨queued_same_iff env o skb s stale₁ stale₂, main_same_iff input stale₁ stale₂⟩

/-- A run of `main` in which nothing fails. -/
def plain : UspInput where
  myNetdevMac i := .ofNat 8 i
  inChecksum := NetSpi.inetChecksum
  ifindex := 2
  socketFails := false
  mallocFails := false
  sendtoFails := false
  stale _ := 0

/-- The same runs on memory that was all zeros and all ones. -/
theorem old_bytes_sent :
    (NetSpi.rx NetSpi.station { NetSpi.warm with stale := fun _ => 0 } 3 NetSpi.oneSkb).2.queued.map
        Prod.snd ≠
      (NetSpi.rx NetSpi.station { NetSpi.warm with stale := fun _ => 0xFF } 3
        NetSpi.oneSkb).2.queued.map Prod.snd ∧
    (main { plain with stale := fun _ => 0 }).sent.map Prod.snd ≠
      (main { plain with stale := fun _ => 0xFF }).sent.map Prod.snd := by
  constructor
  · rw [ne_eq, queued_same_iff]
    rintro (hnone | ⟨-, hurg, -⟩)
    · exact hnone ⟨1, 2, ⟨rfl, rfl⟩, ⟨rfl, rfl⟩, by decide⟩
    · exact absurd hurg (by decide)
  · rw [ne_eq, main_same_iff]
    rintro (hfails | hsame)
    · exact absurd hfails (by decide)
    · exact absurd (hsame 36 (by decide) (by decide)) (by decide)

end DeviceDrivers.NetUsp
