import DeviceDrivers.Lib.CallProg
import DeviceDrivers.Lib.Heap
import DeviceDrivers.Lib.Run

/-!
# The Ethernet network driver

`my_netdev_rx` and `my_netdev_tx` of `net_eth.c`, as bodies over the heap. An skb
is a heap object that holds the `skb->len` bytes at `skb->data`.

`netdev_gadgets_validate_headers` is not in the repository. Its result is any
integer, and it may leave any frame in the skb.

`rx_short`, `rx_noMemory`, `rx_copied`, `tx_dropped` and `tx_forwarded` say what a
call returns, and what it leaves in the heap, in the log and on the console.
-/

namespace DeviceDrivers.NetEth

/-! ## Source -/

/-- The pointers of the two functions. `skb` stands for an access to the fields
of the skb, `data` for one through `skb->data`. -/
inductive Via
  | skb
  | data
  | kernelBuffer
  | eth
  | iph
  | icmpv6
deriving DecidableEq, Repr

/-- The messages, with the bytes that they print. -/
inductive NetMsg
  | received (source dest : List Byte)
  | addresses (saddr daddr : List Byte)
  | echoReply
  | transmitting
deriving DecidableEq, Repr

/-- What decides the calls of one `my_netdev_rx` or `my_netdev_tx`: where
`kmalloc` finds memory, and with what contents; what a read outside an object
finds; the result of `netdev_gadgets_validate_headers`, and the frame that it
leaves in the skb. -/
structure NetOutcomes where
  kmalloc : Option Addr
  stale : Nat → Byte
  wild : Nat → Byte
  validate : Int
  validated : List Byte → List Byte

structure NetState where
  mem : Mem Via
  printed : List NetMsg

inductive NetCall
  | len (skb : Addr)
  | kmalloc (n : Nat)
  | kfree (p : Addr)
  | devKfreeSkb (skb : Addr)
  | load (v : Via) (p : Addr) (off n : Nat)
  | store (v : Via) (p : Addr) (off : Nat) (bs : List Byte)
  | printk (msg : NetMsg)
  | validateHeaders (skb : Addr)

@[reducible] def NetCall.Res : NetCall → Type
  | len _ => Nat
  | kmalloc _ => Option Addr
  | load .. => List Byte
  | validateHeaders _ => Int
  | _ => Unit

abbrev NetProg : Type → Type := Prog NetCall NetCall.Res

@[simp] def skbLen (skb : Addr) : NetProg Nat := .call (.len skb) .ret
@[simp] def kmalloc (n : Nat) : NetProg (Option Addr) := .call (.kmalloc n) .ret
@[simp] def kfree (p : Addr) : NetProg Unit := .call (.kfree p) .ret
@[simp] def devKfreeSkb (skb : Addr) : NetProg Unit := .call (.devKfreeSkb skb) .ret
@[simp] def load (v : Via) (p : Addr) (off n : Nat) : NetProg (List Byte) :=
  .call (.load v p off n) .ret
@[simp] def store (v : Via) (p : Addr) (off : Nat) (bs : List Byte) : NetProg Unit :=
  .call (.store v p off bs) .ret
@[simp] def printk (msg : NetMsg) : NetProg Unit := .call (.printk msg) .ret
@[simp] def validateHeaders (skb : Addr) : NetProg Int := .call (.validateHeaders skb) .ret

/-- `sizeof(struct ethhdr)`: `h_dest`, `h_source` and `h_proto`. -/
@[simp] def sizeofEthhdr : Nat := 14

/-- `sizeof(struct iphdr)`. -/
@[simp] def sizeofIphdr : Nat := 20

/-! Offsets of the fields. -/

@[simp] def hDest : Nat := 0
@[simp] def hSource : Nat := 6
@[simp] def ttlOff : Nat := 8
@[simp] def protocolOff : Nat := 9
@[simp] def saddrOff : Nat := 12
@[simp] def daddrOff : Nat := 16
@[simp] def icmpv6Type : Nat := 0

@[simp] def ETH_ALEN : Nat := 6
def IPPROTO_ICMPV6 : Byte := 58
def ICMPV6_ECHO_REPLY : Byte := 129

def myNetdevMac : List Byte := [0x00, 0x0C, 0x22, 0x44, 0xAA, 0xBB]

inductive NetRx
  | success
  | drop
deriving DecidableEq, Repr

def myNetdevRx (skb : Addr) : NetProg NetRx := do
  if (← skbLen skb) < sizeofEthhdr + sizeofIphdr then
    devKfreeSkb skb
    return .drop
  else
  match ← kmalloc (← skbLen skb) with
  | none =>
    devKfreeSkb skb
    return .drop
  | some kernelBuffer =>
  let frame ← load .data skb 0 (← skbLen skb)
  store .kernelBuffer kernelBuffer 0 frame
  let eth := 0
  let iph := sizeofEthhdr
  let source ← load .eth kernelBuffer (eth + hSource) ETH_ALEN
  let dest ← load .eth kernelBuffer (eth + hDest) ETH_ALEN
  printk (.received source dest)
  let saddr ← load .iph kernelBuffer (iph + saddrOff) 4
  let daddr ← load .iph kernelBuffer (iph + daddrOff) 4
  printk (.addresses saddr daddr)
  if (← load .iph kernelBuffer (iph + protocolOff) 1) = [IPPROTO_ICMPV6] then
    let icmpv6 := sizeofEthhdr + sizeofIphdr
    if (← load .icmpv6 kernelBuffer (icmpv6 + icmpv6Type) 1) = [ICMPV6_ECHO_REPLY] then
      printk .echoReply
  kfree kernelBuffer
  devKfreeSkb skb
  return .success

/-- `some` for `NETDEV_TX_OK`. The branch that forwards ends without a return. -/
def myNetdevTx (skb : Addr) : NetProg (Option Unit) := do
  let headroom ← validateHeaders skb
  if headroom < 0 then
    devKfreeSkb skb
    return some ()
  else
  let eth := 0
  let iph := sizeofEthhdr
  store .eth skb (eth + hDest) (myNetdevMac.take ETH_ALEN)
  let ttl ← load .iph skb (iph + ttlOff) 1
  store .iph skb (iph + ttlOff) (ttl.map (· - 1))
  printk .transmitting
  -- The source ends in a comment about freeing the skb.
  return none

/-! ## What the calls do -/

@[simp] def NetState.onMem (s : NetState) (m : Mem Via) : NetState := { s with mem := m }

@[simp] def netcall (o : NetOutcomes) : (c : NetCall) → NetState → c.Res × NetState
  | .len skb, s => ((s.mem.bytes skb).length, s.onMem (s.mem.touch .skb skb 0 0))
  | .kmalloc n, s =>
    ((s.mem.alloc o.kmalloc o.stale n).1, s.onMem (s.mem.alloc o.kmalloc o.stale n).2)
  | .kfree p, s => ((), s.onMem (s.mem.free p))
  | .devKfreeSkb skb, s => ((), s.onMem (s.mem.free skb))
  | .load v p off n, s =>
    ((s.mem.load o.wild v p off n).1, s.onMem (s.mem.load o.wild v p off n).2)
  | .store v p off bs, s => ((), s.onMem (s.mem.store v p off bs))
  | .printk msg, s => ((), { s with printed := msg :: s.printed })
  | .validateHeaders skb, s =>
    (o.validate, s.onMem { s.mem.touch .skb skb 0 0 with
      heap := Function.update s.mem.heap skb ((s.mem.heap skb).map o.validated) })

/-! ## The two functions -/

/-- The state in which a call starts: a heap, nothing logged, nothing printed. -/
@[simp] def start (heap : Addr → Option (List Byte)) : NetState := ⟨⟨heap, []⟩, []⟩

/-- `kmalloc` returns the free address `p`. -/
def Allocates (o : NetOutcomes) (heap : Addr → Option (List Byte)) (p : Addr) : Prop :=
  o.kmalloc = some p ∧ heap p = none

/-- The byte that the driver takes for the protocol field says ICMPv6. -/
def SaysIcmpv6 (frame : List Byte) : Prop := frame[23]? = some IPPROTO_ICMPV6

instance (frame : List Byte) : Decidable (SaysIcmpv6 frame) := by
  unfold SaysIcmpv6; infer_instance

/-- The log of the copy of a frame of `n` bytes, and of the accesses to its
Ethernet and IP headers. -/
def copyLog (skb p : Addr) (n : Nat) : List (MemEvent Via) :=
  [.use .iph p 23 1 (some n), .use .iph p 30 4 (some n), .use .iph p 26 4 (some n),
    .use .eth p 0 6 (some n), .use .eth p 6 6 (some n), .use .kernelBuffer p 0 n (some n),
    .use .data skb 0 n (some n), .use .skb skb 0 0 (some n), .alloc p n,
    .use .skb skb 0 0 (some n), .use .skb skb 0 0 (some n)]

/-- The three ways through `my_netdev_rx`. -/
inductive RxPath (o : NetOutcomes) (heap : Addr → Option (List Byte)) (frame : List Byte) : Prop
  | short (hlen : frame.length < 34)
  | noMemory (hlen : 34 ≤ frame.length) (hfail : ∀ p, ¬ Allocates o heap p)
  | copied {p : Addr} (hlen : 34 ≤ frame.length) (hp : Allocates o heap p)

theorem rxPath (o : NetOutcomes) (heap : Addr → Option (List Byte)) (frame : List Byte) :
    RxPath o heap frame := by
  rcases Nat.lt_or_ge frame.length 34 with hlen | hlen
  · exact .short hlen
  · rcases Classical.em (∃ p, Allocates o heap p) with ⟨p, hp⟩ | hfail
    · exact .copied hlen hp
    · exact .noMemory hlen fun p hp => hfail ⟨p, hp⟩

/-- What is printed of a copied frame. -/
def copyPrinted (wild : Nat → Byte) (frame : List Byte) : List NetMsg :=
  (if SaysIcmpv6 frame ∧ readAt wild frame 34 1 = [ICMPV6_ECHO_REPLY] then [.echoReply] else []) ++
    [.addresses (readAt wild frame 26 4) (readAt wild frame 30 4),
      .received (readAt wild frame 6 6) (readAt wild frame 0 6)]

section

variable {o : NetOutcomes} {heap : Addr → Option (List Byte)} {skb : Addr} {frame : List Byte}
  (hskb : heap skb = some frame)

include hskb

theorem rx_short (hlen : frame.length < 34) :
    (myNetdevRx skb).exec (netcall o) (start heap) =
      (.drop, ⟨⟨Function.update heap skb none,
        [.free skb true, .use .skb skb 0 0 (some frame.length)]⟩, []⟩) := by
  simp [myNetdevRx, hskb, hlen]

theorem rx_noMemory (hlen : 34 ≤ frame.length) (hfail : ∀ p, ¬ Allocates o heap p) :
    (myNetdevRx skb).exec (netcall o) (start heap) =
      (.drop, ⟨⟨Function.update heap skb none,
        [.free skb true, .use .skb skb 0 0 (some frame.length),
          .use .skb skb 0 0 (some frame.length)]⟩, []⟩) := by
  have hnot : ¬ frame.length < 34 := Nat.not_lt.mpr hlen
  have halloc : ∀ m : Mem Via, m.heap = heap → ∀ n, m.alloc o.kmalloc o.stale n = (none, m) := by
    rintro m rfl n
    refine Mem.alloc_of_full (fun p hp => ?_) o.stale n
    rw [Option.isSome_iff_ne_none]
    exact fun hnone => hfail p ⟨hp, hnone⟩
  simp [myNetdevRx, hskb, hnot, halloc]

theorem rx_copied {p : Addr} (hlen : 34 ≤ frame.length) (hp : Allocates o heap p) :
    (myNetdevRx skb).exec (netcall o) (start heap) =
      (.success, ⟨⟨Function.update heap skb none, .free skb true :: .free p true ::
        ((if SaysIcmpv6 frame then [.use .icmpv6 p 34 1 (some frame.length)] else []) ++
          copyLog skb p frame.length)⟩, copyPrinted o.wild frame⟩) := by
  obtain ⟨hkmalloc, hfree⟩ := hp
  have hnot : ¬ frame.length < 34 := Nat.not_lt.mpr hlen
  have hne : skb ≠ p := by
    rintro rfl
    rw [hskb] at hfree
    cases hfree
  have halloc : ∀ m : Mem Via, m.heap = heap → ∀ n, m.alloc o.kmalloc o.stale n =
      (some p, ⟨Function.update heap p (some ((List.range n).map o.stale)),
        .alloc p n :: m.log⟩) := by
    rintro m rfl n
    rw [hkmalloc]
    exact Mem.alloc_of_free hfree o.stale n
  have hback : Function.update heap p none = heap := Mem.update_none hfree
  have hprotocol : readAt o.wild frame 23 1 = [IPPROTO_ICMPV6] ↔ SaysIcmpv6 frame :=
    readAt_one (by omega) _
  -- The two tests of the source: the protocol field, then the ICMPv6 type.
  by_cases hicmp : SaysIcmpv6 frame
  · by_cases hreply : readAt o.wild frame 34 1 = [ICMPV6_ECHO_REPLY]
    · simp [myNetdevRx, hskb, hnot, hne, halloc, readAt_all, writeAt_all, hprotocol, hicmp, hreply,
        hback, copyLog, copyPrinted]
    · simp [myNetdevRx, hskb, hnot, hne, halloc, readAt_all, writeAt_all, hprotocol, hicmp, hreply,
        hback, copyLog, copyPrinted]
  · simp [myNetdevRx, hskb, hnot, hne, halloc, readAt_all, writeAt_all, hprotocol, hicmp, hback,
      copyLog, copyPrinted]

theorem tx_dropped (hdrop : o.validate < 0) :
    (myNetdevTx skb).exec (netcall o) (start heap) =
      (some (), ⟨⟨Function.update heap skb none,
        [.free skb true, .use .skb skb 0 0 (some frame.length)]⟩, []⟩) := by
  simp [myNetdevTx, hskb, hdrop]

/-- What `my_netdev_tx` makes of the frame that the validation left. -/
def forwarded (wild : Nat → Byte) (frame : List Byte) : List Byte :=
  writeAt (writeAt frame 0 myNetdevMac) 22
    ((readAt wild (writeAt frame 0 myNetdevMac) 22 1).map (· - 1))

omit hskb in
@[simp] theorem length_forwarded (wild : Nat → Byte) (frame : List Byte) :
    (forwarded wild frame).length = frame.length := by
  simp [forwarded]

theorem tx_forwarded (hpass : ¬ o.validate < 0) :
    (myNetdevTx skb).exec (netcall o) (start heap) =
      (none, ⟨⟨Function.update heap skb (some (forwarded o.wild (o.validated frame))),
        [.use .iph skb 22 1 (some (o.validated frame).length),
          .use .iph skb 22 1 (some (o.validated frame).length),
          .use .eth skb 0 6 (some (o.validated frame).length),
          .use .skb skb 0 0 (some frame.length)]⟩, [.transmitting]⟩) := by
  simp [myNetdevTx, hskb, hpass, forwarded, myNetdevMac, readAt]

end

end DeviceDrivers.NetEth
