import DeviceDrivers.Drivers.NetEth

/-!
# The Ethernet network driver: memory

1. `header_accesses_iff`: exactly when the accesses through `eth`, `iph` and
   `icmpv6` stay below `skb->len`. The check on entry of `my_netdev_rx` leaves no
   room for the ICMPv6 header, and `my_netdev_tx` has no check.
2. `buffers_balance_iff`: exactly which sequences of calls free every skb and
   every buffer once. `my_netdev_tx` keeps the skb that it forwards.
-/

namespace DeviceDrivers.NetEth

/-- The log of a call. -/
def rxLog (o : NetOutcomes) (heap : Addr → Option (List Byte)) (skb : Addr) :
    List (MemEvent Via) :=
  ((myNetdevRx skb).exec (netcall o) (start heap)).2.mem.log

def txLog (o : NetOutcomes) (heap : Addr → Option (List Byte)) (skb : Addr) :
    List (MemEvent Via) :=
  ((myNetdevTx skb).exec (netcall o) (start heap)).2.mem.log

/-! ## Accesses to the headers -/

@[simp] def Via.IsHeader : Via → Prop
  | eth | iph | icmpv6 => True
  | skb | data | kernelBuffer => False

/-- An access to a header is made to an object of `n` bytes, and stays in it. -/
@[simp] def HeaderBelow (n : Nat) : MemEvent Via → Prop
  | .use v _ off len size => v.IsHeader → size = some n ∧ off + len ≤ n
  | .alloc _ _ | .free _ _ => True

def HeadersBelow (n : Nat) (log : List (MemEvent Via)) : Prop := ∀ e ∈ log, HeaderBelow n e

@[simp] theorem headersBelow_nil (n : Nat) : HeadersBelow n [] := List.forall_mem_nil _

@[simp] theorem headersBelow_cons (n : Nat) (e : MemEvent Via) (log : List (MemEvent Via)) :
    HeadersBelow n (e :: log) ↔ HeaderBelow n e ∧ HeadersBelow n log := List.forall_mem_cons

@[simp] theorem headersBelow_append (n : Nat) (log log' : List (MemEvent Via)) :
    HeadersBelow n (log ++ log') ↔ HeadersBelow n log ∧ HeadersBelow n log' :=
  List.forall_mem_append

section

variable {o : NetOutcomes} {heap : Addr → Option (List Byte)} {skb : Addr} {frame : List Byte}
  (hskb : heap skb = some frame)

include hskb

/-- The boundary: a frame of 34 bytes that says ICMPv6 and has been copied. -/
theorem rx_headers_iff : HeadersBelow frame.length (rxLog o heap skb) ↔
    ¬ (frame.length = 34 ∧ (∃ p, Allocates o heap p) ∧ SaysIcmpv6 frame) := by
  unfold rxLog
  cases rxPath o heap frame with
  | short hlen =>
    rw [rx_short hskb hlen]
    have hne : frame.length ≠ 34 := by omega
    simp [hne]
  | noMemory hlen hfail =>
    rw [rx_noMemory hskb hlen hfail]
    simp [hfail]
  | @copied p hlen hp =>
    rw [rx_copied hskb hlen hp]
    have hcopy : HeadersBelow frame.length (copyLog skb p frame.length) := by
      simp [copyLog]
      omega
    by_cases hicmp : SaysIcmpv6 frame
    · have hex : ∃ p, Allocates o heap p := ⟨p, hp⟩
      simp only [headersBelow_cons, headersBelow_append, hcopy, hicmp, hex, if_true]
      simp
      omega
    · simp [hcopy, hicmp]

theorem tx_headers_iff : HeadersBelow (o.validated frame).length (txLog o heap skb) ↔
    o.validate < 0 ∨ 23 ≤ (o.validated frame).length := by
  unfold txLog
  by_cases hdrop : o.validate < 0
  · rw [tx_dropped hskb hdrop]
    simp [hdrop]
  · rw [tx_forwarded hskb hdrop]
    simp [hdrop]
    omega

end

/-- Every access of `my_netdev_rx` through `eth`, `iph` and `icmpv6` is made to the
copy of `skb->len` bytes, and stays in it, unless the frame has 34 bytes, memory
for the copy was found and byte 23 is the ICMPv6 protocol number. Every access of
`my_netdev_tx` stays below `skb->len` exactly when the validation fails or leaves
at least 23 bytes. -/
theorem header_accesses_iff (o : NetOutcomes) (heap : Addr → Option (List Byte)) (skb : Addr)
    (frame : List Byte) :
    let heap' := Function.update heap skb (some frame)
    (HeadersBelow frame.length (rxLog o heap' skb) ↔
      ¬ (frame.length = 34 ∧ (∃ p, Allocates o heap' p) ∧ SaysIcmpv6 frame)) ∧
    (HeadersBelow (o.validated frame).length (txLog o heap' skb) ↔
      o.validate < 0 ∨ 23 ≤ (o.validated frame).length) := by
  have hskb : Function.update heap skb (some frame) skb = some frame := Function.update_self ..
  exact ⟨rx_headers_iff hskb, tx_headers_iff hskb⟩

/-- Ethernet and IP header and nothing behind them, with the protocol ICMPv6. -/
def bareIcmpv6 : List Byte := List.replicate 23 0 ++ IPPROTO_ICMPV6 :: List.replicate 10 0

/-- All memory is free, the validation passes the frame as it is. -/
def passes : NetOutcomes where
  kmalloc := some 2
  stale _ := 0
  wild _ := 0
  validate := 0
  validated := id

theorem bareIcmpv6_overread :
    ¬ HeadersBelow bareIcmpv6.length
      (rxLog passes (Function.update (fun _ => none) 1 (some bareIcmpv6)) 1) := by
  rw [rx_headers_iff (Function.update_self ..)]
  exact not_not.mpr ⟨rfl, ⟨2, rfl, rfl⟩, rfl⟩

/-! ## Buffers -/

/-- A call of one of the two functions. -/
inductive NetInput
  | rx (skb : Addr) (o : NetOutcomes)
  | tx (skb : Addr) (o : NetOutcomes)

namespace NetInput

/-- The skb that is handed over. -/
def skb : NetInput → Addr
  | rx skb _ | tx skb _ => skb

/-- A `my_netdev_tx` call drops the skb. -/
def Drops : NetInput → Prop
  | rx _ _ => True
  | tx _ o => o.validate < 0

def result (heap : Addr → Option (List Byte)) : NetInput → Mem Via
  | rx skb o => ((myNetdevRx skb).exec (netcall o) (start heap)).2.mem
  | tx skb o => ((myNetdevTx skb).exec (netcall o) (start heap)).2.mem

end NetInput

/-- The buffers after a call. -/
def step (heap : Addr → Option (List Byte)) (c : NetInput) : Addr → Option (List Byte) :=
  (c.result heap).heap

/-- The skb is freed once and each buffer that was allocated is freed once, and
nothing is used that is not there. -/
structure BalancedLog (skb : Addr) (log : List (MemEvent Via)) : Prop where
  skb_freed : freesOf skb log = 1
  buffers : ∀ p n, .alloc p n ∈ log → freesOf p log = 1
  live : UsesLive log

def Balanced (heap : Addr → Option (List Byte)) (c : NetInput) : Prop :=
  BalancedLog c.skb (c.result heap).log

theorem balancedLog_copied {skb p : Addr} (hne : skb ≠ p) (n : Nat) (icmp : Prop) [Decidable icmp] :
    BalancedLog skb (.free skb true :: .free p true ::
      ((if icmp then [.use .icmpv6 p 34 1 (some n)] else []) ++ copyLog skb p n)) := by
  constructor
  · split <;> simp [copyLog, hne.symm]
  · intro q len hq
    have hqp : q = p := by
      revert hq
      split <;> simp [copyLog] <;> tauto
    subst hqp
    split <;> simp [copyLog, hne]
  · split <;> simp [copyLog]

/-- A call that does not forward frees what it should, and its skb is all that is
gone after it. -/
theorem balanced_of_drops {heap : Addr → Option (List Byte)} {c : NetInput}
    (hskb : (heap c.skb).isSome) (hc : c.Drops) :
    Balanced heap c ∧ step heap c = Function.update heap c.skb none := by
  obtain ⟨frame, hskb⟩ := Option.isSome_iff_exists.mp hskb
  unfold Balanced step
  cases c with
  | tx skb o =>
    have hresult : (NetInput.tx skb o).result heap = _ :=
      congrArg (fun r => r.2.mem) (tx_dropped hskb hc)
    rw [hresult]
    exact ⟨by constructor <;> simp, rfl⟩
  | rx skb o =>
    cases rxPath o heap frame with
    | short hlen =>
      have hresult : (NetInput.rx skb o).result heap = _ :=
        congrArg (fun r => r.2.mem) (rx_short hskb hlen)
      rw [hresult]
      exact ⟨by constructor <;> simp, rfl⟩
    | noMemory hlen hfail =>
      have hresult : (NetInput.rx skb o).result heap = _ :=
        congrArg (fun r => r.2.mem) (rx_noMemory hskb hlen hfail)
      rw [hresult]
      exact ⟨by constructor <;> simp, rfl⟩
    | @copied p hlen hp =>
      have hresult : (NetInput.rx skb o).result heap = _ :=
        congrArg (fun r => r.2.mem) (rx_copied hskb hlen hp)
      have hne : skb ≠ p := by
        rintro rfl
        exact absurd hskb (by simp [NetInput.skb, hp.2])
      rw [hresult]
      exact ⟨balancedLog_copied hne _ _, rfl⟩

/-- A call that forwards does not free its skb. -/
theorem drops_of_balanced {heap : Addr → Option (List Byte)} {c : NetInput}
    (hskb : (heap c.skb).isSome) (hbalanced : Balanced heap c) : c.Drops := by
  obtain ⟨frame, hskb⟩ := Option.isSome_iff_exists.mp hskb
  cases c with
  | rx skb o => trivial
  | tx skb o =>
    by_contra hpass
    have hresult : (NetInput.tx skb o).result heap = _ :=
      congrArg (fun r => r.2.mem) (tx_forwarded hskb hpass)
    have hfreed := hbalanced.skb_freed
    rw [hresult] at hfreed
    simp at hfreed

/-- Without the skbs of the calls. -/
def withoutSkbs (heap : Addr → Option (List Byte)) (calls : List NetInput) :
    Addr → Option (List Byte) :=
  fun p => if p ∈ calls.map (·.skb) then none else heap p

theorem withoutSkbs_cons (heap : Addr → Option (List Byte)) (c : NetInput)
    (calls : List NetInput) : withoutSkbs heap (c :: calls) =
      withoutSkbs (Function.update heap c.skb none) calls := by
  funext p
  by_cases hp : p = c.skb
  · simp [withoutSkbs, hp]
  · simp [withoutSkbs, hp]

/-- The skbs of the calls that come later are still there after a call that drops
its own. -/
theorem live_after {heap : Addr → Option (List Byte)} {c : NetInput} {calls : List NetInput}
    (hlive : ∀ d ∈ calls, (heap d.skb).isSome) (hskb : c.skb ∉ calls.map (·.skb)) :
    ∀ d ∈ calls, (Function.update heap c.skb none d.skb).isSome := by
  intro d hd
  have hne : d.skb ≠ c.skb := fun heq => hskb (heq ▸ List.mem_map_of_mem hd)
  rw [Function.update_of_ne hne]
  exact hlive d hd

/-- Over a sequence of calls, each of which hands over another live skb, every
call frees its skb once and every buffer once and uses nothing that is gone, and
the buffers at the end are those at the start without the skbs, if and only if no
`my_netdev_tx` call passes the validation. -/
theorem buffers_balance_iff {heap : Addr → Option (List Byte)} {calls : List NetInput}
    (hlive : ∀ c ∈ calls, (heap c.skb).isSome) (hnodup : (calls.map (·.skb)).Nodup) :
    Run.Along step Balanced heap calls ∧ Run.run step heap calls = withoutSkbs heap calls ↔
      ∀ c ∈ calls, c.Drops := by
  induction calls generalizing heap with
  | nil =>
    have hnone : heap = withoutSkbs heap [] := by
      funext p
      simp [withoutSkbs]
    simpa using hnone
  | cons c calls ih =>
    obtain ⟨hskb, hlater⟩ := List.forall_mem_cons.mp hlive
    obtain ⟨hnot, hrest⟩ := List.nodup_cons.mp hnodup
    have ih := ih (live_after hlater hnot) hrest
    rw [List.forall_mem_cons, Run.along_cons, Run.run_cons, withoutSkbs_cons]
    constructor
    -- Both ways the first call leaves the heap without its skb, where `ih` applies.
    · rintro ⟨⟨hc, hcalls⟩, hrun⟩
      have hdrops := drops_of_balanced hskb hc
      rw [(balanced_of_drops hskb hdrops).2] at hcalls hrun
      exact ⟨hdrops, ih.mp ⟨hcalls, hrun⟩⟩
    · rintro ⟨hdrops, hcalls⟩
      obtain ⟨hbalanced, hstep⟩ := balanced_of_drops hskb hdrops
      rw [hstep]
      obtain ⟨halong, hrun⟩ := ih.mpr hcalls
      exact ⟨⟨hbalanced, halong⟩, hrun⟩

/-- The validation fails, and drops the frame. -/
def fails : NetOutcomes := { passes with validate := -1 }

/-- Two frames are received, the first one without memory for the copy, and a
third one is dropped. -/
theorem buffers_balance_run :
    let heap : Addr → Option (List Byte) := fun p => if p < 4 then some bareIcmpv6 else none
    let calls : List NetInput :=
      [.rx 0 { passes with kmalloc := none }, .rx 1 { passes with kmalloc := some 7 }, .tx 2 fails]
    Run.run step heap calls = withoutSkbs heap calls := by
  intro heap calls
  have hlive : ∀ c ∈ calls, (heap c.skb).isSome := by
    simp [calls, heap, NetInput.skb]
  have hdrops : ∀ c ∈ calls, c.Drops := by
    simp [calls, NetInput.Drops, fails]
  exact ((buffers_balance_iff hlive (by decide)).mpr hdrops).2

/-- A frame that passes the validation is not freed. -/
theorem forwarded_not_freed :
    let heap : Addr → Option (List Byte) := Function.update (fun _ => none) 1 (some bareIcmpv6)
    (step heap (.tx 1 passes) 1).isSome ∧
      ¬ Run.Along step Balanced heap [.tx 1 passes] := by
  intro heap
  have hskb : heap 1 = some bareIcmpv6 := Function.update_self ..
  refine ⟨by decide, fun h => ?_⟩
  have hlive : (heap (NetInput.tx 1 passes).skb).isSome := by
    show (heap 1).isSome
    rw [hskb]
    rfl
  have hdrops : passes.validate < 0 := drops_of_balanced hlive h.1
  exact absurd hdrops (by decide)

end DeviceDrivers.NetEth
