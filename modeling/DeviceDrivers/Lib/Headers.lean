import DeviceDrivers.Lib.Ipv4
import Mathlib.Data.List.TakeDrop

/-!
# Packet headers in memory

The header structures of a network stack as a little-endian machine lays them
out, bit-fields included.

* `Layout`: a structure and its bytes. Each stands for the other, so no bit of the
  memory under a structure is outside its fields.
* `Layout.edit`: field assignments through a pointer into a buffer.
* `EthHdr`, `IpHdr`, `TcpHdr`, `Icmp6Hdr`.
* `tcpPayload_tcpFrame_iff`: a TCP frame is decoded to its payload exactly when
  its total length is right in network byte order.
-/

namespace DeviceDrivers

/-! ## Numbers in memory -/

def le16 (v : BitVec 16) : List Byte := [v.extractLsb' 0 8, v.extractLsb' 8 8]

def le32 (v : BitVec 32) : List Byte :=
  [v.extractLsb' 0 8, v.extractLsb' 8 8, v.extractLsb' 16 8, v.extractLsb' 24 8]

def ofLe16 (a b : Byte) : BitVec 16 := b ++ a

def ofLe32 (a b c d : Byte) : BitVec 32 := d ++ c ++ b ++ a

/-- The bytes swapped: from the order of the machine to that of the network. -/
def htons (v : BitVec 16) : BitVec 16 := v.extractLsb' 0 8 ++ v.extractLsb' 8 8

@[simp] theorem le16_ofLe16 (a b : Byte) : le16 (ofLe16 a b) = [a, b] := by
  have ha : (b ++ a).extractLsb' 0 8 = a := by ext i hi; simp; grind
  have hb : (b ++ a).extractLsb' 8 8 = b := by ext i hi; simp; grind
  exact congrArg₂ (fun x y => [x, y]) ha hb

theorem ofLe16_inj {a b c d : Byte} : ofLe16 a b = ofLe16 c d ↔ a = c ∧ b = d := by
  constructor
  · intro h
    have hbytes := congrArg le16 h
    rw [le16_ofLe16, le16_ofLe16] at hbytes
    obtain ⟨hlow, htail⟩ := List.cons.inj hbytes
    exact ⟨hlow, (List.cons.inj htail).1⟩
  · rintro ⟨rfl, rfl⟩
    rfl

@[simp] theorem ofLe16_le16 (v : BitVec 16) :
    ofLe16 (v.extractLsb' 0 8) (v.extractLsb' 8 8) = v := by
  unfold ofLe16
  ext i hi
  simp
  grind

@[simp] theorem le32_ofLe32 (a b c d : Byte) : le32 (ofLe32 a b c d) = [a, b, c, d] := by
  have ha : (d ++ c ++ b ++ a).extractLsb' 0 8 = a := by ext i hi; simp; grind
  have hb : (d ++ c ++ b ++ a).extractLsb' 8 8 = b := by ext i hi; simp; grind
  have hc : (d ++ c ++ b ++ a).extractLsb' 16 8 = c := by ext i hi; simp; grind
  have hd : (d ++ c ++ b ++ a).extractLsb' 24 8 = d := by ext i hi; simp; grind
  unfold le32 ofLe32
  rw [ha, hb, hc, hd]

@[simp] theorem ofLe32_le32 (v : BitVec 32) :
    ofLe32 (v.extractLsb' 0 8) (v.extractLsb' 8 8) (v.extractLsb' 16 8) (v.extractLsb' 24 8) =
      v := by
  unfold ofLe32
  ext i hi
  simp
  grind

/-- What the network reads is the swapped number. -/
theorem beValue_le16 (v : BitVec 16) : beValue (le16 v) = (htons v).toNat := by
  simp only [beValue, le16, htons, List.foldl_cons, List.foldl_nil, BitVec.toNat_append]
  rw [← Nat.shiftLeft_add_eq_or_of_lt (BitVec.isLt _), Nat.shiftLeft_eq]
  omega

/-- A byte string is the list of its bytes. -/
theorem map_byteAt_range {bs : List Byte} {n : Nat} (h : bs.length = n) :
    (List.range n).map (byteAt bs) = bs := by
  subst h
  apply List.ext_getElem
  · simp
  · intro i _ hi
    simp [byteAt, hi]

/-! ## Structures in memory -/

/-- How a structure lies in `size` bytes of memory. -/
structure Layout (H : Type) where
  size : Nat
  encode : H → List Byte
  decode : List Byte → H
  length_encode : ∀ h, (encode h).length = size
  decode_encode : ∀ h, decode (encode h) = h
  encode_decode : ∀ bs, bs.length = size → encode (decode bs) = bs

namespace Layout

variable {H : Type} (L : Layout H)

theorem encode_injective {h h' : H} (heq : L.encode h = L.encode h') : h = h' := by
  rw [← L.decode_encode h, heq, L.decode_encode]

/-- The assignments `f` to the fields of the structure at `off`. What they do not
assign keeps what the memory had. -/
def edit (off : Nat) (f : H → H) (bs : List Byte) : List Byte :=
  bs.take off ++ L.encode (f (L.decode (slice bs off L.size))) ++ bs.drop (off + L.size)

/-- An edit behind the prefix `pre`. -/
theorem edit_append (pre : List Byte) (off k : Nat) (hoff : off = pre.length + k) (f : H → H)
    (bs : List Byte) : L.edit off f (pre ++ bs) = pre ++ L.edit k f bs := by
  subst hoff
  unfold edit slice
  rw [Nat.add_assoc, List.take_length_add_append, List.drop_length_add_append,
    List.drop_length_add_append, List.append_assoc, List.append_assoc, List.append_assoc]

/-- An edit at the front. -/
theorem edit_zero {mid : List Byte} (hmid : mid.length = L.size) (f : H → H) (post : List Byte) :
    L.edit 0 f (mid ++ post) = L.encode (f (L.decode mid)) ++ post := by
  unfold edit slice
  rw [List.take_zero, List.nil_append, List.drop_zero, Nat.zero_add, ← hmid, List.take_left,
    List.drop_left]

end Layout

/-! ## The headers -/

/-- A hardware address. -/
abbrev Mac : Type := Fin 6 → Byte

def Mac.bytes (m : Mac) : List Byte := [m 0, m 1, m 2, m 3, m 4, m 5]

/-- `struct ethhdr`. -/
structure EthHdr where
  hDest : Mac
  hSource : Mac
  hProto : BitVec 16

def EthHdr.layout : Layout EthHdr where
  size := 14
  encode h := h.hDest.bytes ++ h.hSource.bytes ++ le16 h.hProto
  decode bs := ⟨fun i => byteAt bs i, fun i => byteAt bs (6 + i),
    ofLe16 (byteAt bs 12) (byteAt bs 13)⟩
  length_encode _ := rfl
  decode_encode := by
    rintro ⟨hDest, hSource, hProto⟩
    rw [EthHdr.mk.injEq]
    refine ⟨funext fun i => ?_, funext fun i => ?_, ofLe16_le16 hProto⟩
    all_goals
      match i with
      | 0 | 1 | 2 | 3 | 4 | 5 => rfl
  encode_decode bs h := by
    rw [le16_ofLe16]
    exact map_byteAt_range h

/-- `struct iphdr` and `struct ip`, without options. -/
structure IpHdr where
  ihl : BitVec 4
  version : BitVec 4
  tos : Byte
  totLen : BitVec 16
  id : BitVec 16
  fragOff : BitVec 16
  ttl : Byte
  protocol : Byte
  check : BitVec 16
  saddr : BitVec 32
  daddr : BitVec 32

/-- The two halves of a byte. -/
theorem nibbles_eq (b : Byte) :
    (b.extractLsb' 4 4 ++ b.extractLsb' 0 4 : BitVec (4 + 4)) = b := by
  revert b
  decide

theorem low_nibble (hi lo : BitVec 4) : (hi ++ lo : BitVec (4 + 4)).extractLsb' 0 4 = lo := by
  revert hi lo
  decide

theorem high_nibble (hi lo : BitVec 4) : (hi ++ lo : BitVec (4 + 4)).extractLsb' 4 4 = hi := by
  revert hi lo
  decide

theorem nibbles_div (hi lo : BitVec 4) : (hi ++ lo : BitVec (4 + 4)).toNat / 16 = hi.toNat := by
  revert hi lo
  decide

theorem nibbles_mod (hi lo : BitVec 4) : (hi ++ lo : BitVec (4 + 4)).toNat % 16 = lo.toNat := by
  revert hi lo
  decide

def IpHdr.layout : Layout IpHdr where
  size := 20
  encode h := [h.version ++ h.ihl, h.tos] ++ le16 h.totLen ++ le16 h.id ++ le16 h.fragOff ++
    [h.ttl, h.protocol] ++ le16 h.check ++ le32 h.saddr ++ le32 h.daddr
  decode bs :=
    { ihl := (byteAt bs 0).extractLsb' 0 4
      version := (byteAt bs 0).extractLsb' 4 4
      tos := byteAt bs 1
      totLen := ofLe16 (byteAt bs 2) (byteAt bs 3)
      id := ofLe16 (byteAt bs 4) (byteAt bs 5)
      fragOff := ofLe16 (byteAt bs 6) (byteAt bs 7)
      ttl := byteAt bs 8
      protocol := byteAt bs 9
      check := ofLe16 (byteAt bs 10) (byteAt bs 11)
      saddr := ofLe32 (byteAt bs 12) (byteAt bs 13) (byteAt bs 14) (byteAt bs 15)
      daddr := ofLe32 (byteAt bs 16) (byteAt bs 17) (byteAt bs 18) (byteAt bs 19) }
  length_encode _ := rfl
  decode_encode h := by
    rw [IpHdr.mk.injEq]
    exact ⟨low_nibble _ _, high_nibble _ _, rfl, ofLe16_le16 _, ofLe16_le16 _, ofLe16_le16 _, rfl,
      rfl, ofLe16_le16 _, ofLe32_le32 _, ofLe32_le32 _⟩
  encode_decode bs h := by
    simp only [nibbles_eq, le16_ofLe16, le32_ofLe32]
    exact map_byteAt_range h

/-- `struct tcphdr`, without options. -/
structure TcpHdr where
  source : BitVec 16
  dest : BitVec 16
  seq : BitVec 32
  ackSeq : BitVec 32
  res1 : BitVec 4
  doff : BitVec 4
  fin : Bool
  syn : Bool
  rst : Bool
  psh : Bool
  ack : Bool
  urg : Bool
  ece : Bool
  cwr : Bool
  window : BitVec 16
  check : BitVec 16
  urgPtr : BitVec 16

/-- The byte of eight bits, the lowest first. -/
def flagByte (b0 b1 b2 b3 b4 b5 b6 b7 : Bool) : Byte :=
  BitVec.ofBoolListLE [b0, b1, b2, b3, b4, b5, b6, b7]

theorem flagByte_eq (b : Byte) :
    flagByte (b.getLsbD 0) (b.getLsbD 1) (b.getLsbD 2) (b.getLsbD 3) (b.getLsbD 4) (b.getLsbD 5)
      (b.getLsbD 6) (b.getLsbD 7) = b := by
  revert b
  decide

def TcpHdr.layout : Layout TcpHdr where
  size := 20
  encode h := le16 h.source ++ le16 h.dest ++ le32 h.seq ++ le32 h.ackSeq ++
    [h.doff ++ h.res1, flagByte h.fin h.syn h.rst h.psh h.ack h.urg h.ece h.cwr] ++
    le16 h.window ++ le16 h.check ++ le16 h.urgPtr
  decode bs :=
    { source := ofLe16 (byteAt bs 0) (byteAt bs 1)
      dest := ofLe16 (byteAt bs 2) (byteAt bs 3)
      seq := ofLe32 (byteAt bs 4) (byteAt bs 5) (byteAt bs 6) (byteAt bs 7)
      ackSeq := ofLe32 (byteAt bs 8) (byteAt bs 9) (byteAt bs 10) (byteAt bs 11)
      res1 := (byteAt bs 12).extractLsb' 0 4
      doff := (byteAt bs 12).extractLsb' 4 4
      fin := (byteAt bs 13).getLsbD 0
      syn := (byteAt bs 13).getLsbD 1
      rst := (byteAt bs 13).getLsbD 2
      psh := (byteAt bs 13).getLsbD 3
      ack := (byteAt bs 13).getLsbD 4
      urg := (byteAt bs 13).getLsbD 5
      ece := (byteAt bs 13).getLsbD 6
      cwr := (byteAt bs 13).getLsbD 7
      window := ofLe16 (byteAt bs 14) (byteAt bs 15)
      check := ofLe16 (byteAt bs 16) (byteAt bs 17)
      urgPtr := ofLe16 (byteAt bs 18) (byteAt bs 19) }
  length_encode _ := rfl
  decode_encode := by
    rintro ⟨source, dest, seq, ackSeq, res1, doff, fin, syn, rst, psh, ack, urg, ece, cwr, window,
      check, urgPtr⟩
    rw [TcpHdr.mk.injEq]
    refine ⟨ofLe16_le16 _, ofLe16_le16 _, ofLe32_le32 _, ofLe32_le32 _, low_nibble _ _,
      high_nibble _ _, ?_, ?_, ?_, ?_, ?_, ?_, ?_, ?_, ofLe16_le16 _, ofLe16_le16 _,
      ofLe16_le16 _⟩
    all_goals
      show (flagByte fin syn rst psh ack urg ece cwr).getLsbD _ = _
      clear source dest seq ackSeq res1 doff window check urgPtr
      revert fin syn rst psh ack urg ece cwr
      decide
  encode_decode bs h := by
    simp only [nibbles_eq, flagByte_eq, le16_ofLe16, le32_ofLe32]
    exact map_byteAt_range h

/-- `struct icmpv6hdr`. `data` is the union behind the checksum. -/
structure Icmp6Hdr where
  type : Byte
  code : Byte
  cksum : BitVec 16
  data : BitVec 32

def Icmp6Hdr.layout : Layout Icmp6Hdr where
  size := 8
  encode h := [h.type, h.code] ++ le16 h.cksum ++ le32 h.data
  decode bs :=
    { type := byteAt bs 0
      code := byteAt bs 1
      cksum := ofLe16 (byteAt bs 2) (byteAt bs 3)
      data := ofLe32 (byteAt bs 4) (byteAt bs 5) (byteAt bs 6) (byteAt bs 7) }
  length_encode _ := rfl
  decode_encode h := by
    rw [Icmp6Hdr.mk.injEq]
    exact ⟨rfl, rfl, ofLe16_le16 _, ofLe32_le32 _⟩
  encode_decode bs h := by
    rw [le16_ofLe16, le32_ofLe32]
    exact map_byteAt_range h

/-! ## Packets that are built in place -/

/-- An Ethernet and an IP header with `bs` behind them. -/
def packet (eth : EthHdr) (ip : IpHdr) (bs : List Byte) : List Byte :=
  EthHdr.layout.encode eth ++ (IpHdr.layout.encode ip ++ bs)

theorem packet_injective {eth : EthHdr} {ip : IpHdr} {bs bs' : List Byte}
    (h : packet eth ip bs = packet eth ip bs') : bs = bs' :=
  List.append_cancel_left (List.append_cancel_left h)

/-- Assignments that cover the first two headers leave nothing of the memory under
them. -/
theorem edit_first {f : EthHdr → EthHdr} {g : IpHdr → IpHdr} {eth : EthHdr} {ip : IpHdr}
    (hf : ∀ h, f h = eth) (hg : ∀ h, g h = ip) {mid mid' : List Byte} (hmid : mid.length = 14)
    (hmid' : mid'.length = 20) (post : List Byte) :
    IpHdr.layout.edit 14 g (EthHdr.layout.edit 0 f (mid ++ (mid' ++ post))) =
      packet eth ip post := by
  rw [EthHdr.layout.edit_zero hmid, IpHdr.layout.edit_append _ 14 0 rfl,
    IpHdr.layout.edit_zero hmid', hf, hg]
  rfl

/-- Assignments to what comes first behind the IP header. -/
theorem edit_packet {H : Type} (L : Layout H) (f : H → H) (eth : EthHdr) (ip : IpHdr)
    {mid : List Byte} (hmid : mid.length = L.size) (post : List Byte) :
    L.edit 34 f (packet eth ip (mid ++ post)) =
      packet eth ip (L.encode (f (L.decode mid)) ++ post) := by
  unfold packet
  rw [L.edit_append _ 34 20 rfl, L.edit_append _ 20 0 rfl, L.edit_zero hmid]

/-! ## TCP frames -/

/-- The headers and the payload of a TCP segment, one behind the other. -/
def tcpFrame (eth : EthHdr) (ip : IpHdr) (tcp : TcpHdr) (payload : List Byte) : List Byte :=
  packet eth ip (TcpHdr.layout.encode tcp ++ payload)

section

open Ipv4

variable (eth : EthHdr) (ip : IpHdr) (tcp : TcpHdr) (payload : List Byte)

@[simp] theorem length_tcpFrame : (tcpFrame eth ip tcp payload).length = 54 + payload.length := by
  simp only [tcpFrame, packet, List.length_append, Layout.length_encode]
  show 14 + (20 + (20 + payload.length)) = 54 + payload.length
  omega

@[simp] theorem etherType_tcpFrame :
    etherType (tcpFrame eth ip tcp payload) = (htons eth.hProto).toNat :=
  beValue_le16 eth.hProto

@[simp] theorem totalLength_tcpFrame :
    totalLength (tcpFrame eth ip tcp payload) = (htons ip.totLen).toNat :=
  beValue_le16 ip.totLen

@[simp] theorem version_tcpFrame : version (tcpFrame eth ip tcp payload) = ip.version.toNat :=
  nibbles_div ip.version ip.ihl

@[simp] theorem ihl_tcpFrame : ihl (tcpFrame eth ip tcp payload) = ip.ihl.toNat :=
  nibbles_mod ip.version ip.ihl

theorem slice_payload (n : Nat) :
    slice (tcpFrame eth ip tcp payload) 54 n = payload.take n := rfl

variable {ip tcp}

/-- Headers without options, and where the payload begins behind them. -/
theorem payloadStart_tcpFrame (hihl : ip.ihl = 5) (hdoff : tcp.doff = 5) :
    headerEnd (tcpFrame eth ip tcp payload) = 34 ∧ doff (tcpFrame eth ip tcp payload) = 5 ∧
      payloadStart (tcpFrame eth ip tcp payload) = 54 := by
  have hend : headerEnd (tcpFrame eth ip tcp payload) = 34 := by
    unfold headerEnd
    rw [ihl_tcpFrame, hihl]
    rfl
  have hlen : doff (tcpFrame eth ip tcp payload) = 5 := by
    unfold doff
    rw [hend]
    show (tcp.doff ++ tcp.res1 : BitVec (4 + 4)).toNat / 16 = 5
    rw [nibbles_div, hdoff]
    rfl
  refine ⟨hend, hlen, ?_⟩
  unfold payloadStart
  rw [hend, hlen]

variable {eth payload}

/-- A TCP frame without options is decoded to its payload exactly when its total
length, as the network reads it, is that of what follows the Ethernet header. -/
theorem tcpPayload_tcpFrame_iff (hproto : htons eth.hProto = 0x0800) (hversion : ip.version = 4)
    (hihl : ip.ihl = 5) (htcp : ip.protocol = IPPROTO_TCP) (hdoff : tcp.doff = 5) :
    tcpPayload (tcpFrame eth ip tcp payload) = some payload ↔
      (htons ip.totLen).toNat = 40 + payload.length := by
  obtain ⟨hend, hlen, hstart⟩ := payloadStart_tcpFrame eth payload hihl hdoff
  constructor
  · intro h
    unfold tcpPayload at h
    split at h
    · rename_i hholds
      have hheaders := hholds.headers
      have hcomplete := hholds.complete
      have htake := Option.some.inj h
      rw [hstart, slice_payload] at htake
      have hle : payload.length ≤ packetEnd (tcpFrame eth ip tcp payload) - 54 :=
        (List.take_eq_self_iff payload).mp htake
      rw [hstart] at hheaders
      simp only [packetEnd, totalLength_tcpFrame, length_tcpFrame] at hheaders hcomplete hle
      omega
    · cases h
  · intro htot
    have hpacket : packetEnd (tcpFrame eth ip tcp payload) = 54 + payload.length := by
      unfold packetEnd
      rw [totalLength_tcpFrame, htot]
      omega
    have hholds : HoldsTcp (tcpFrame eth ip tcp payload) :=
      { isIp := by rw [etherType_tcpFrame, hproto]; rfl
        holds := ⟨by rw [version_tcpFrame, hversion]; rfl, by rw [ihl_tcpFrame, hihl]; decide,
          by rw [hend, length_tcpFrame]; omega⟩
        isTcp := htcp
        legal := by rw [hlen]
        headers := by rw [hstart, hpacket]; omega
        complete := by rw [hpacket, length_tcpFrame] }
    unfold tcpPayload
    rw [if_pos hholds, hstart, hpacket, slice_payload, Nat.add_sub_cancel_left, List.take_length]

end

end DeviceDrivers
