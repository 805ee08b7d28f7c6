import DeviceDrivers.Kernel.Tables
import DeviceDrivers.Lib.Headers
import DeviceDrivers.Lib.Heap
import DeviceDrivers.Lib.Run

/-!
# The SPI network driver

`netSpi.c`. `my_netdev_rx` is its transmit handler: it reads a sample from the SPI
device and queues a TCP frame with the temperature in it. An skb is a heap object
that holds the bytes from `skb->data` on.

`spi_transfer` returns NULL or a fresh buffer, and `dev_queue_xmit` takes its
argument over. Neither is in the repository, nor are the two checksum functions.
The source address is cut off in the file, so it is any number.

1. `buildFrame_eq`: the frame that is built, and what of the old memory is
   still in it.
2. `rx_noData`, `rx_noSkb`, `rx_sent`: what a call returns and leaves.
3. `frame_not_decoded`: no frame is decoded to the sample.
-/

namespace DeviceDrivers.NetSpi

open Ipv4 (ETH_P_IP IPPROTO_TCP)

/-! ## Source: the frame -/

/-- What a frame is built from, besides the sample. -/
structure Station where
  devAddr : Mac
  saddr : BitVec 32
  inChecksum : List Byte → BitVec 16
  tcpV4Check : (ipHeader tcpHeader payload : List Byte) → (len : Nat) → BitVec 16

/-- An skb: the bytes from `data` to the end of its room, and its `len`. -/
structure SkBuff where
  data : List Byte
  len : Nat

/-- `skb_put`: the offset of the `n` bytes added at the end. -/
def SkBuff.putSkb (n : Nat) (skb : SkBuff) : Nat × SkBuff :=
  (skb.len, { skb with len := skb.len + n })

def SkBuff.edit {H : Type} (L : Layout H) (off : Nat) (f : H → H) (skb : SkBuff) : SkBuff :=
  { skb with data := L.edit off f skb.data }

/-- An `int` in memory. -/
def intLayout : Layout (BitVec 32) where
  size := 4
  encode := le32
  decode bs := ofLe32 (byteAt bs 0) (byteAt bs 1) (byteAt bs 2) (byteAt bs 3)
  length_encode _ := rfl
  decode_encode v := ofLe32_le32 v
  encode_decode bs h := by
    rw [le32_ofLe32]
    exact map_byteAt_range h

def broadcast : Mac := fun _ => 0xFF

/-- `inet_addr` of `a.b.c.d`. -/
def inetAddr (a b c d : Byte) : BitVec 32 := ofLe32 a b c d

def sizeofEthhdr : Nat := 14
def sizeofIp : Nat := 20
def sizeofTcphdr : Nat := 20

/-! The assignments to the first two headers, which `net_usp.c` makes too. -/

def fillEth (hSource : Mac) (ethHeader : EthHdr) : EthHdr :=
  { ethHeader with
    hDest := broadcast
    hSource
    hProto := htons (.ofNat 16 ETH_P_IP) }

def fillIp (totLen : Nat) (protocol : Byte) (saddr daddr : BitVec 32)
    (inChecksum : List Byte → BitVec 16) (ipHeader : IpHdr) : IpHdr :=
  let ipHeader := { ipHeader with
    version := 4
    ihl := 5
    tos := 0
    totLen := .ofNat 16 totLen
    id := 0
    fragOff := 0
    ttl := 64
    protocol
    saddr
    daddr
    check := 0 }
  { ipHeader with check := inChecksum (IpHdr.layout.encode ipHeader) }

def setEth (env : Station) : EthHdr → EthHdr := fillEth env.devAddr

def setIp (env : Station) : IpHdr → IpHdr :=
  fillIp (sizeofIp + sizeofTcphdr + 4) IPPROTO_TCP env.saddr (inetAddr 10 0 0 2) env.inChecksum

def setTcp (tcpHeader : TcpHdr) : TcpHdr :=
  { tcpHeader with
    source := htons 1234
    dest := htons 5678
    seq := 0
    ackSeq := 0
    doff := .ofNat 4 (sizeofTcphdr / 4)
    fin := false
    syn := false
    rst := false
    psh := false
    ack := false
    urg := false
    ece := false
    cwr := false
    window := htons 4096
    check := 0 }

def buildFrame (env : Station) (temperature : BitVec 32) (newSkb : SkBuff) : SkBuff :=
  let (ethHeader, newSkb) := newSkb.putSkb sizeofEthhdr
  let newSkb := newSkb.edit EthHdr.layout ethHeader (setEth env)
  let (ipHeader, newSkb) := newSkb.putSkb sizeofIp
  let newSkb := newSkb.edit IpHdr.layout ipHeader (setIp env)
  let (tcpHeader, newSkb) := newSkb.putSkb sizeofTcphdr
  let newSkb := newSkb.edit TcpHdr.layout tcpHeader setTcp
  let (payload, newSkb) := newSkb.putSkb 4
  let newSkb := newSkb.edit intLayout payload fun _ => temperature
  let check := env.tcpV4Check (slice newSkb.data ipHeader sizeofIp)
    (slice newSkb.data tcpHeader sizeofTcphdr) (slice newSkb.data payload 4) newSkb.len
  newSkb.edit TcpHdr.layout tcpHeader fun tcp => { tcp with check }

/-! ## Source: the handler -/

/-- The pointers of `my_netdev_rx`. `newSkb` stands for those into the frame too. -/
inductive Via
  | spiData
  | newSkb
deriving DecidableEq, Repr

/-- What decides the calls of one `my_netdev_rx`: where `spi_transfer` puts the
sample, and the sample; where `dev_alloc_skb` finds memory, and with what
contents; what a read outside an object finds. -/
structure SpiOutcomes where
  transfer : Option Addr
  sample : Nat → Byte
  allocSkb : Option Addr
  stale : Nat → Byte
  wild : Nat → Byte

/-- `queued` has the skbs handed to `dev_queue_xmit` with their frames, the newest
first. -/
structure NetSpiState where
  mem : Mem Via
  queued : List (Addr × List Byte)
  printed : List String

inductive SpiCall
  | spiTransfer (busId deviceId n : Nat)
  | load (v : Via) (p : Addr) (off n : Nat)
  | devAllocSkb (n : Nat)
  | fill (skb : Addr) (f : SkBuff → SkBuff)
  | devQueueXmit (skb : Addr) (len : Nat)
  | kfree (p : Addr)
  | devErr (msg : String)

@[reducible] def SpiCall.Res : SpiCall → Type
  | spiTransfer .. | devAllocSkb _ => Option Addr
  | load .. => List Byte
  | fill .. => Nat
  | _ => Unit

abbrev SpiProg : Type → Type := Prog SpiCall SpiCall.Res

@[simp] def spiTransfer (busId deviceId n : Nat) : SpiProg (Option Addr) :=
  .call (.spiTransfer busId deviceId n) .ret
@[simp] def load (v : Via) (p : Addr) (off n : Nat) : SpiProg (List Byte) :=
  .call (.load v p off n) .ret
@[simp] def devAllocSkb (n : Nat) : SpiProg (Option Addr) := .call (.devAllocSkb n) .ret
@[simp] def fill (skb : Addr) (f : SkBuff → SkBuff) : SpiProg Nat := .call (.fill skb f) .ret
@[simp] def devQueueXmit (skb : Addr) (len : Nat) : SpiProg Unit :=
  .call (.devQueueXmit skb len) .ret
@[simp] def kfree (p : Addr) : SpiProg Unit := .call (.kfree p) .ret
@[simp] def devErr (msg : String) : SpiProg Unit := .call (.devErr msg) .ret

@[simp] def SPI_BUS_ID : Nat := 0
@[simp] def SPI_DEVICE_ID : Nat := 0
@[simp] def DATA_SIZE : Nat := 16
@[simp] def PACKET_SIZE : Nat := 100

def NET_RX_SUCCESS : Int := 0
def NET_RX_DROP : Int := 1

def noDataMsg : String := "Failed to receive data from SPI device\n"
def noSkbMsg : String := "Failed to allocate skb\n"

/-- The submitted skb is not looked at. -/
def myNetdevRx (env : Station) (_skb : Addr) : SpiProg Int := do
  match ← spiTransfer SPI_BUS_ID SPI_DEVICE_ID DATA_SIZE with
  | none =>
    devErr noDataMsg
    return NET_RX_DROP
  | some spiData =>
  let temperature := intLayout.decode (← load .spiData spiData 0 4)
  match ← devAllocSkb PACKET_SIZE with
  | none =>
    kfree spiData
    devErr noSkbMsg
    return NET_RX_DROP
  | some newSkb =>
  let len ← fill newSkb (buildFrame env temperature)
  devQueueXmit newSkb len
  kfree spiData
  return NET_RX_SUCCESS

/-! ## What the calls do -/

/-- The frame is built in a new skb, whose `len` is 0, and `dev_queue_xmit` takes
the skb away: its entry in the log is that of a free. -/
@[simp] def spicall (o : SpiOutcomes) : (c : SpiCall) → NetSpiState → c.Res × NetSpiState
  | .spiTransfer _ _ n, s =>
    ((s.mem.alloc o.transfer o.sample n).1,
      { s with mem := (s.mem.alloc o.transfer o.sample n).2 })
  | .load v p off n, s =>
    ((s.mem.load o.wild v p off n).1, { s with mem := (s.mem.load o.wild v p off n).2 })
  | .devAllocSkb n, s =>
    ((s.mem.alloc o.allocSkb o.stale n).1,
      { s with mem := (s.mem.alloc o.allocSkb o.stale n).2 })
  | .fill skb f, s =>
    let filled := f ⟨s.mem.bytes skb, 0⟩
    (filled.len,
      { s with mem := { s.mem.touch .newSkb skb 0 filled.len with
          heap := Function.update s.mem.heap skb ((s.mem.heap skb).map fun _ => filled.data) } })
  | .devQueueXmit skb len, s =>
    ((), { s with
      mem := s.mem.free skb
      queued := (skb, (s.mem.bytes skb).take len) :: s.queued })
  | .kfree p, s => ((), { s with mem := s.mem.free p })
  | .devErr msg, s => ((), { s with printed := msg :: s.printed })

/-! ## The frame that is built -/

/-- The headers of the frame. The assignments cover the first two; of the TCP
header they leave `res1` and `urg_ptr` as they were. -/
def ethOf (env : Station) : EthHdr := setEth env (EthHdr.layout.decode [])

def ipOf (env : Station) : IpHdr := setIp env (IpHdr.layout.decode [])

/-- The TCP header before its checksum, over what the memory had. -/
def tcpOf (stale : List Byte) : TcpHdr := setTcp (TcpHdr.layout.decode stale)

def checkOf (env : Station) (temperature : BitVec 32) (tcpHeader : TcpHdr) : BitVec 16 :=
  env.tcpV4Check (IpHdr.layout.encode (ipOf env)) (TcpHdr.layout.encode tcpHeader)
    (le32 temperature) 58

/-- The frame that is sent, where the memory of the TCP header had `stale`. -/
def frameOf (env : Station) (temperature : BitVec 32) (stale : List Byte) : List Byte :=
  tcpFrame (ethOf env) (ipOf env)
    { tcpOf stale with check := checkOf env temperature (tcpOf stale) } (le32 temperature)

/-- A byte string cut at the ends of the four parts of a frame. -/
theorem exists_parts {area : List Byte} (h : 58 ≤ area.length) :
    ∃ eth ip tcp payload rest, area = eth ++ (ip ++ (tcp ++ (payload ++ rest))) ∧
      eth.length = 14 ∧ ip.length = 20 ∧ tcp.length = 20 ∧ payload.length = 4 ∧
      tcp = slice area 34 20 := by
  refine ⟨slice area 0 14, slice area 14 20, slice area 34 20, slice area 54 4, area.drop 58, ?_,
    length_slice (by omega), length_slice (by omega), length_slice (by omega), length_slice h, rfl⟩
  rw [← drop_eq_slice_append area 54 4, ← drop_eq_slice_append area 34 20,
    ← drop_eq_slice_append area 14 20]
  exact drop_eq_slice_append area 0 14

/-- The payload is written behind the three headers. -/
theorem edit_payload (eth : EthHdr) (ip : IpHdr) (tcp : TcpHdr) (temperature : BitVec 32)
    {payload : List Byte} (hpayload : payload.length = 4) (post : List Byte) :
    intLayout.edit 54 (fun _ => temperature)
        (packet eth ip (TcpHdr.layout.encode tcp ++ (payload ++ post))) =
      packet eth ip (TcpHdr.layout.encode tcp ++ (le32 temperature ++ post)) := by
  unfold packet
  rw [Layout.edit_append _ _ 54 40 rfl, Layout.edit_append _ _ 40 20 rfl,
    Layout.edit_append _ _ 20 0 rfl, Layout.edit_zero _ hpayload]
  rfl

/-- What the TCP checksum is taken of. -/
theorem slices_packet (eth : EthHdr) (ip : IpHdr) (tcp : TcpHdr) (temperature : BitVec 32)
    (post : List Byte) :
    let data := packet eth ip (TcpHdr.layout.encode tcp ++ (le32 temperature ++ post))
    slice data 14 20 = IpHdr.layout.encode ip ∧
      slice data 34 20 = TcpHdr.layout.encode tcp ∧ slice data 54 4 = le32 temperature := by
  unfold packet
  refine ⟨?_, ?_, ?_⟩
  · rw [slice_append _ 14 0 rfl]
    exact slice_zero rfl _
  · rw [slice_append _ 34 20 rfl, slice_append _ 20 0 rfl]
    exact slice_zero rfl _
  · rw [slice_append _ 54 40 rfl, slice_append _ 40 20 rfl, slice_append _ 20 0 rfl]
    exact slice_zero rfl _

/-- The frame fills the first 58 bytes. -/
theorem buildFrame_eq (env : Station) (temperature : BitVec 32) {area : List Byte}
    (h : 58 ≤ area.length) :
    ∃ rest, buildFrame env temperature ⟨area, 0⟩ =
      ⟨frameOf env temperature (slice area 34 20) ++ rest, 58⟩ := by
  obtain ⟨eth, ip, tcp, payload, rest, harea, heth, hip, htcp, hpayload, hslice⟩ := exists_parts h
  refine ⟨rest, ?_⟩
  rw [← hslice, harea]
  have hfirst : IpHdr.layout.edit 14 (setIp env) (EthHdr.layout.edit 0 (setEth env)
      (eth ++ (ip ++ (tcp ++ (payload ++ rest))))) =
        packet (ethOf env) (ipOf env) (tcp ++ (payload ++ rest)) :=
    edit_first (fun _ => rfl) (fun _ => rfl) heth hip _
  have hheader : TcpHdr.layout.edit 34 setTcp
      (packet (ethOf env) (ipOf env) (tcp ++ (payload ++ rest))) =
        packet (ethOf env) (ipOf env) (TcpHdr.layout.encode (tcpOf tcp) ++ (payload ++ rest)) :=
    edit_packet TcpHdr.layout setTcp _ _ htcp _
  obtain ⟨hipSlice, htcpSlice, hpaySlice⟩ :=
    slices_packet (ethOf env) (ipOf env) (tcpOf tcp) temperature rest
  simp only [buildFrame, SkBuff.putSkb, SkBuff.edit, sizeofEthhdr, sizeofIp, sizeofTcphdr,
    Nat.zero_add, Nat.reduceAdd, hfirst, hheader, edit_payload _ _ _ _ hpayload, hipSlice,
    htcpSlice, hpaySlice]
  rw [edit_packet TcpHdr.layout _ _ _ (TcpHdr.layout.length_encode _), Layout.decode_encode]
  simp only [frameOf, tcpFrame, packet, checkOf, List.append_assoc]

/-! ## One call -/

/-- The answer of a call that is handed the skb `skb`, and the state after it. -/
def rx (env : Station) (o : SpiOutcomes) (skb : Addr) (s : NetSpiState) : Int × NetSpiState :=
  (myNetdevRx env skb).exec (spicall o) s

/-- The first four bytes of the sample. -/
def sampleBytes (o : SpiOutcomes) : List Byte := (List.range 4).map o.sample

/-- What the fresh skb has where the TCP header goes. -/
def staleTcp (o : SpiOutcomes) : List Byte := slice ((List.range 100).map o.stale) 34 20

/-- The frame of a call that gets both buffers. -/
def sentFrame (env : Station) (o : SpiOutcomes) : List Byte :=
  frameOf env (intLayout.decode (sampleBytes o)) (staleTcp o)

/-- `spi_transfer` returns the free address `p`. -/
def Transfers (o : SpiOutcomes) (s : NetSpiState) (p : Addr) : Prop := s.mem.Gives o.transfer p

/-- `dev_alloc_skb` returns the address `q`, free with the sample at `p`. -/
def AllocsSkb (o : SpiOutcomes) (s : NetSpiState) (p q : Addr) : Prop :=
  s.mem.Gives o.allocSkb q ∧ q ≠ p

/-- The buffers that a call gets. -/
inductive Buffers (o : SpiOutcomes) (s : NetSpiState) : Prop
  | noData (h : ∀ p, ¬ Transfers o s p)
  | noSkb {p : Addr} (h : Transfers o s p) (hfail : ∀ q, ¬ AllocsSkb o s p q)
  | both {p q : Addr} (h : Transfers o s p) (hq : AllocsSkb o s p q)

theorem buffers (o : SpiOutcomes) (s : NetSpiState) : Buffers o s := by
  rcases Classical.em (∃ p, Transfers o s p) with ⟨p, hp⟩ | hnone
  · rcases Classical.em (∃ q, AllocsSkb o s p q) with ⟨q, hq⟩ | hfail
    · exact .both hp hq
    · exact .noSkb hp fun q hq => hfail ⟨q, hq⟩
  · exact .noData fun p hp => hnone ⟨p, hp⟩

section

variable (env : Station) {o : SpiOutcomes} (skb : Addr) {s : NetSpiState}

theorem rx_noData (h : ∀ p, ¬ Transfers o s p) :
    rx env o skb s = (NET_RX_DROP, { s with printed := noDataMsg :: s.printed }) := by
  have halloc := Mem.alloc_of_not_gives h o.sample 16
  simp [rx, myNetdevRx, halloc]

theorem rx_noSkb {p : Addr} (h : Transfers o s p) (hfail : ∀ q, ¬ AllocsSkb o s p q) :
    rx env o skb s = (NET_RX_DROP,
      { s with
        mem := ⟨s.mem.heap, .free p true :: .use .spiData p 0 4 (some 16) :: .alloc p 16 ::
          s.mem.log⟩
        printed := noSkbMsg :: s.printed }) := by
  have halloc := Mem.alloc_of_gives h o.sample 16
  have hskb : ∀ log : List (MemEvent Via), Mem.alloc o.allocSkb o.stale 100
      ⟨Function.update s.mem.heap p (some ((List.range 16).map o.sample)), log⟩ =
        (none, ⟨Function.update s.mem.heap p (some ((List.range 16).map o.sample)), log⟩) := by
    intro log
    refine Mem.alloc_of_not_gives (fun q hq => hfail q ?_) o.stale 100
    exact (Mem.gives_next rfl o.allocSkb q).mp hq
  simp [rx, myNetdevRx, halloc, hskb, Mem.update_none h.2]

/-- A call that gets both buffers: both are gone again, and the skb is queued with
its frame. -/
theorem rx_sent {p q : Addr} (h : Transfers o s p) (hq : AllocsSkb o s p q) :
    rx env o skb s = (NET_RX_SUCCESS,
      { s with
        mem := ⟨s.mem.heap, .free p true :: .free q true :: .use .newSkb q 0 58 (some 100) ::
          .alloc q 100 :: .use .spiData p 0 4 (some 16) :: .alloc p 16 :: s.mem.log⟩
        queued := (q, sentFrame env o) :: s.queued }) := by
  have halloc := Mem.alloc_of_gives h o.sample 16
  have hskb : ∀ log : List (MemEvent Via), Mem.alloc o.allocSkb o.stale 100
      ⟨Function.update s.mem.heap p (some ((List.range 16).map o.sample)), log⟩ =
        (some q, ⟨Function.update (Function.update s.mem.heap p
          (some ((List.range 16).map o.sample))) q (some ((List.range 100).map o.stale)),
          .alloc q 100 :: log⟩) := by
    intro log
    exact Mem.alloc_of_gives ((Mem.gives_next rfl o.allocSkb q).mpr hq) o.stale 100
  have hsample : readAt o.wild ((List.range 16).map o.sample) 0 4 = sampleBytes o :=
    readAt_prefix o.wild o.sample (by decide)
  obtain ⟨rest, hbuild⟩ := buildFrame_eq env (intLayout.decode (sampleBytes o))
    (show 58 ≤ ((List.range 100).map o.stale).length by simp)
  have htake : (sentFrame env o ++ rest).take 58 = sentFrame env o := List.take_left' rfl
  have hback : Function.update (Function.update (Function.update s.mem.heap p
      (some ((List.range 16).map o.sample))) q none) p none = s.mem.heap := by
    have hne : q ≠ p := hq.2
    rw [Function.update_comm hne, Function.update_idem, Mem.update_none h.2]
    exact Mem.update_none hq.1.2
  have hne : p ≠ q := hq.2.symm
  simp [rx, myNetdevRx, halloc, hskb, hsample, hbuild, hback, hne]
  exact htake

/-- A call that queues a frame got both buffers. -/
theorem sent_of_queued {q : Addr} {frame : List Byte}
    (h : (rx env o skb s).2.queued = (q, frame) :: s.queued) :
    (∃ p, Transfers o s p ∧ AllocsSkb o s p q) ∧ frame = sentFrame env o := by
  have hne : s.queued ≠ (q, frame) :: s.queued := (List.cons_ne_self _ _).symm
  cases buffers o s with
  | noData hnone =>
    rw [rx_noData env skb hnone] at h
    exact absurd h hne
  | noSkb hp hfail =>
    rw [rx_noSkb env skb hp hfail] at h
    exact absurd h hne
  | @both p q' hp hq =>
    rw [rx_sent env skb hp hq] at h
    obtain ⟨hhead, -⟩ := List.cons.inj h
    obtain ⟨rfl, rfl⟩ := Prod.mk.inj hhead
    exact ⟨⟨p, hp, hq⟩, rfl⟩

end

/-! ## The frame on the wire -/

section

variable (env : Station) (o : SpiOutcomes)

/-- The payload of a sent frame is the sample, byte by byte. -/
theorem le32_sample : le32 (intLayout.decode (sampleBytes o)) = sampleBytes o :=
  intLayout.encode_decode (sampleBytes o) (by simp [sampleBytes, intLayout])

/-- Every field of the frame that the decoder reads is right but the total length,
which is written in the byte order of the machine. -/
theorem tcpPayload_sentFrame_iff :
    Ipv4.tcpPayload (sentFrame env o) = some (sampleBytes o) ↔
      (htons (ipOf env).totLen).toNat = 44 := by
  have hproto : htons (ethOf env).hProto = 0x0800 := by
    show htons (htons (.ofNat 16 ETH_P_IP)) = 0x0800
    decide
  rw [← le32_sample o]
  exact tcpPayload_tcpFrame_iff hproto rfl rfl rfl rfl

/-- 44 in the byte order of the machine is 11264 in that of the network. -/
theorem totLen_swapped : (htons (ipOf env).totLen).toNat = 11264 := by
  show (htons (.ofNat 16 (sizeofIp + sizeofTcphdr + 4))).toNat = 11264
  decide

end

/-- Whatever the sample, the addresses and the old contents of the memory, the
frame that a call queues has the sample behind its headers, but no decoder finds
it there: the total length is not that of the packet. -/
theorem frame_not_decoded (env : Station) (o : SpiOutcomes) (skb : Addr) (s : NetSpiState)
    {q : Addr} {frame : List Byte} (h : (rx env o skb s).2.queued = (q, frame) :: s.queued) :
    slice frame 54 4 = sampleBytes o ∧ Ipv4.tcpPayload frame ≠ some (sampleBytes o) ∧
      14 + Ipv4.totalLength frame ≠ frame.length := by
  obtain ⟨-, rfl⟩ := sent_of_queued env skb h
  have hlen : (sentFrame env o).length = 58 := rfl
  have htot : Ipv4.totalLength (sentFrame env o) = 11264 :=
    (totalLength_tcpFrame ..).trans (totLen_swapped env)
  refine ⟨le32_sample o, ?_, ?_⟩
  · rw [ne_eq, tcpPayload_sentFrame_iff, totLen_swapped]
    decide
  · rw [htot, hlen]
    decide

/-- The internet checksum of a byte string, as it is stored. -/
def inetChecksum (bs : List Byte) : BitVec 16 :=
  ~~~ htons (.ofNat 16 (onesSum 0xFFFF (words bs)))

/-- A station that takes its checksums as the protocols ask for. -/
def station : Station where
  devAddr i := .ofNat 8 i
  saddr := inetAddr 10 0 0 1
  inChecksum := inetChecksum
  tcpV4Check ipHeader tcpHeader payload _ :=
    inetChecksum (slice ipHeader 12 8 ++ [0, IPPROTO_TCP, 0, 24] ++ tcpHeader ++ payload)

/-- Both buffers are there, and the sample begins with the number 21. -/
def warm : SpiOutcomes where
  transfer := some 1
  sample i := if i = 0 then 21 else 0
  allocSkb := some 2
  stale _ := 0
  wild _ := 0

/-- The state with one skb, at address 3. -/
def oneSkb : NetSpiState := ⟨⟨Function.update (fun _ => none) 3 (some []), []⟩, [], []⟩

theorem warm_sent : (rx station warm 3 oneSkb).2.queued = [(2, sentFrame station warm)] := by
  have hp : Transfers warm oneSkb 1 := ⟨rfl, rfl⟩
  have hq : AllocsSkb warm oneSkb 1 2 := ⟨⟨rfl, rfl⟩, by decide⟩
  rw [rx_sent station 3 hp hq]
  rfl

theorem warm_not_decoded :
    slice (sentFrame station warm) 54 4 = sampleBytes warm ∧
      Ipv4.tcpPayload (sentFrame station warm) ≠ some (sampleBytes warm) ∧
      14 + Ipv4.totalLength (sentFrame station warm) ≠ (sentFrame station warm).length :=
  frame_not_decoded station warm 3 oneSkb warm_sent

/-- The packet of 44 bytes says that it has 11264. -/
theorem warm_frame :
    (rx station warm 3 oneSkb).2.queued = [(2, sentFrame station warm)] ∧
      Ipv4.totalLength (sentFrame station warm) = 11264 ∧
      (sentFrame station warm).length = 14 + 44 ∧
      Ipv4.tcpPayload (sentFrame station warm) = none := by
  have htot : Ipv4.totalLength (sentFrame station warm) = 11264 :=
    (totalLength_tcpFrame ..).trans (totLen_swapped station)
  have hlong : ¬ Ipv4.HoldsTcp (sentFrame station warm) := by
    intro h
    have hcomplete := h.complete
    unfold Ipv4.packetEnd at hcomplete
    rw [htot] at hcomplete
    exact absurd hcomplete (by decide)
  exact ⟨warm_sent, htot, rfl, if_neg hlong⟩

end DeviceDrivers.NetSpi
