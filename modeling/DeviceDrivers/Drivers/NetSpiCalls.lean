import DeviceDrivers.Drivers.NetSpi
import DeviceDrivers.Lib.SharedHeap

/-!
# The SPI network driver: calls at the same time

Any number of calls of `my_netdev_rx` are under way at the same time, and their
own calls come in any order. Each has the sample that the device gives it.

1. `call_obeys`: a call touches its sample and its new skb only.
2. `calls_isolated`: in every interleaving each call that works queues one frame,
   with its own sample behind the headers, and no other frame is queued; every
   buffer is given back.
-/

namespace DeviceDrivers.NetSpi

/-- The oracle of a call with a given sample, where the rest is up to `o`. -/
def withSample (sample : Nat → Byte) (o : SpiOutcomes) : SpiOutcomes := { o with sample }

/-- The calls act on the same heap, queue and console. -/
def callOf {T : Type} (samples : T → Nat → Byte) (t : T) (o : SpiOutcomes) :
    (c : SpiCall) → NetSpiState → c.Res × NetSpiState :=
  spicall (withSample (samples t) o)

/-! ## The contract -/

/-- The object that a call touches. -/
def SpiCall.object : SpiCall → Option Addr
  | .load _ p _ _ | .kfree p => some p
  | .fill skb _ | .devQueueXmit skb _ => some skb
  | .spiTransfer .. | .devAllocSkb _ | .devErr _ => none

/-- A call touches only objects that it has. -/
def Owned (c : SpiCall) (p : NetSpiState) : Prop :=
  ∀ a, c.object = some a → (p.mem.heap a).isSome

def owning (sample : Nat → Byte) : Contract SpiCall SpiCall.Res NetSpiState :=
  .ofHandler (fun o => spicall (withSample sample o)) Owned

/-- The calls' parts of the memory, of the queue and of the console. -/
structure Joint {T : Type} [DecidableEq T] (heap : Addr → Option (List Byte))
    (ps : T → NetSpiState) (s : NetSpiState) : Prop where
  mem : Mem.Parts heap (fun t => (ps t).mem) s.mem
  live : UsesLive s.mem.log
  queued : Merge (fun t => (ps t).queued) s.queued
  printed : Merge (fun t => (ps t).printed) s.printed

section

variable {T : Type} [DecidableEq T] {heap : Addr → Option (List Byte)} {ps : T → NetSpiState}
  {s : NetSpiState}

/-- A call that changes the memory only. -/
theorem Joint.of_mem (h : Joint heap ps s) (t : T) {m m' : Mem Via}
    (hmem : Mem.Parts heap (Function.update (fun u => (ps u).mem) t m) m')
    (hlive : UsesLive m'.log) :
    Joint heap (Function.update ps t { ps t with mem := m }) { s with mem := m' } where
  mem := by
    rw [update_field NetSpiState.mem]
    exact hmem
  live := hlive
  queued := by
    rw [update_field_same NetSpiState.queued ps t]
    · exact h.queued
    · rfl
  printed := by
    rw [update_field_same NetSpiState.printed ps t]
    · exact h.printed
    · rfl

theorem sound (samples : T → Nat → Byte) (heap : Addr → Option (List Byte)) :
    Sound (fun t => owning (samples t)) (callOf samples) (Joint heap) := by
  intro ps s t c o h hmay
  have hlive := h.live
  cases c with
  | spiTransfer busId deviceId n =>
    obtain ⟨place, hret, hmem⟩ := h.mem.alloc t o.transfer (samples t) n
    refine ⟨_, ⟨{ o with transfer := place }, Prod.ext hret rfl⟩, h.of_mem t hmem ?_⟩
    exact Mem.usesLive_alloc hlive o.transfer (samples t) n
  | devAllocSkb n =>
    obtain ⟨place, hret, hmem⟩ := h.mem.alloc t o.allocSkb o.stale n
    refine ⟨_, ⟨{ o with allocSkb := place }, Prod.ext hret rfl⟩, h.of_mem t hmem ?_⟩
    exact Mem.usesLive_alloc hlive o.allocSkb o.stale n
  | load v p off n =>
    have hp := hmay p rfl
    refine ⟨_, ⟨o, Prod.ext ?_ rfl⟩, h.of_mem t (h.mem.touch hp v off n) ?_⟩
    · exact congrArg (fun bs => readAt o.wild bs off n) (h.mem.bytes_eq hp).symm
    · simpa [hlive, h.mem.own t p hp] using hp
  | kfree p =>
    have hp := hmay p rfl
    refine ⟨_, ⟨o, rfl⟩, h.of_mem t (h.mem.free hp) ?_⟩
    simpa [hlive, h.mem.own t p hp] using hp
  | fill skb f =>
    have hskb := hmay skb rfl
    have hbytes := h.mem.bytes_eq hskb
    refine ⟨_, ⟨o, Prod.ext ?_ rfl⟩, h.of_mem t ?_ ?_⟩
    · exact congrArg (fun bs => (f ⟨bs, 0⟩).len) hbytes.symm
    · rw [hbytes]
      exact h.mem.change hskb .newSkb 0 _ fun _ => (f ⟨(ps t).mem.bytes skb, 0⟩).data
    · simpa [hlive, h.mem.own t skb hskb] using hskb
  | devQueueXmit skb len =>
    have hskb := hmay skb rfl
    refine ⟨_, ⟨o, rfl⟩, ?_, ?_, ?_, ?_⟩
    · rw [update_field NetSpiState.mem]
      exact h.mem.free hskb
    · simpa [callOf, hlive, h.mem.own t skb hskb] using hskb
    · rw [update_field NetSpiState.queued]
      show Merge _ ((skb, (s.mem.bytes skb).take len) :: s.queued)
      rw [h.mem.bytes_eq hskb]
      exact .cons t _ h.queued
    · rw [update_field_same NetSpiState.printed ps t]
      · exact h.printed
      · rfl
  | devErr msg =>
    refine ⟨_, ⟨o, rfl⟩, ?_, hlive, ?_, ?_⟩
    · rw [update_field_same NetSpiState.mem ps t]
      · exact h.mem
      · rfl
    · rw [update_field_same NetSpiState.queued ps t]
      · exact h.queued
      · rfl
    · rw [update_field NetSpiState.printed]
      exact .cons t msg h.printed

end

/-! ## One call, alone -/

/-- How a call with the sample `sample` ends: what it returns, the frame that it
queues, if any, and what it prints. -/
inductive Ends (env : Station) (sample : Nat → Byte) :
    Int → List (Addr × List Byte) → List String → Prop
  | noData : Ends env sample NET_RX_DROP [] [noDataMsg]
  | noSkb : Ends env sample NET_RX_DROP [] [noSkbMsg]
  | sent (q : Addr) (tcpHeader : List Byte) : Ends env sample NET_RX_SUCCESS
      [(q, frameOf env (intLayout.decode ((List.range 4).map sample)) tcpHeader)] []

theorem call_obeys (env : Station) (skb : Addr) (sample : Nat → Byte) (s : NetSpiState) :
    (myNetdevRx env skb).Obeys (owning sample)
      (fun ret s' => ∃ sent msgs, Ends env sample ret sent msgs ∧ s'.mem.heap = s.mem.heap ∧
        s'.queued = sent ++ s.queued ∧ s'.printed = msgs ++ s.printed) s := by
  simp only [owning, myNetdevRx, spiTransfer, Prog.call_bind, Prog.ret_bind,
    Prog.obeys_ofHandler]
  refine ⟨by simp [Owned, SpiCall.object], fun o => ?_⟩
  rcases Classical.em (∃ p, s.mem.Gives o.transfer p) with ⟨p, hp⟩ | hfail
  · have halloc := Mem.alloc_of_gives hp sample 16
    have hback : Function.update s.mem.heap p none = s.mem.heap := Mem.update_none hp.2
    simp only [withSample, spicall, DATA_SIZE, halloc, load, devAllocSkb, Prog.call_bind,
      Prog.ret_bind, Prog.obeys_ofHandler]
    refine ⟨by simp [Owned, SpiCall.object], fun o₁ => ?_⟩
    refine ⟨by simp [Owned, SpiCall.object], fun o₂ => ?_⟩
    have hsample : readAt o₁.wild ((List.range 16).map sample) 0 4 = (List.range 4).map sample :=
      readAt_prefix o₁.wild sample (by decide)
    simp only [Mem.load, Mem.bytes, Function.update_self, Option.getD_some, hsample, PACKET_SIZE]
    generalize htouched : Mem.touch Via.spiData p 0 4
      ⟨Function.update s.mem.heap p (some ((List.range 16).map sample)), .alloc p 16 :: s.mem.log⟩ =
        m
    have hheap : m.heap = Function.update s.mem.heap p (some ((List.range 16).map sample)) := by
      rw [← htouched]
      rfl
    rcases Classical.em (∃ q, m.Gives o₂.allocSkb q) with ⟨q, hq⟩ | hfail
    · obtain ⟨hne, hfree⟩ : q ≠ p ∧ s.mem.heap q = none := by
        have hnone := hq.2
        rw [hheap] at hnone
        by_cases hqp : q = p
        · simp [hqp] at hnone
        · exact ⟨hqp, by simpa [hqp] using hnone⟩
      obtain ⟨rest, hbuild⟩ := buildFrame_eq env (intLayout.decode ((List.range 4).map sample))
        (show 58 ≤ ((List.range 100).map o₂.stale).length by simp)
      simp only [Mem.alloc_of_gives hq, fill, devQueueXmit, kfree, Prog.call_bind, Prog.ret_bind,
        Prog.obeys_ofHandler]
      refine ⟨by simp [Owned, SpiCall.object], fun _ => ?_⟩
      refine ⟨by simp [Owned, SpiCall.object], fun _ => ?_⟩
      refine ⟨by simp [Owned, SpiCall.object, hheap, hne.symm], fun _ => ?_⟩
      refine ⟨_, _, .sent q (slice ((List.range 100).map o₂.stale) 34 20), ?_, ?_, rfl⟩
      · simp [hheap]
        rw [Function.update_comm hne, Function.update_idem, hback]
        exact Mem.update_none hfree
      · simp [hbuild]
        exact List.take_left' rfl
    · have hskb := Mem.alloc_of_not_gives (fun q hq => hfail ⟨q, hq⟩) o₂.stale 100
      simp only [hskb, kfree, devErr, Prog.call_bind, Prog.ret_bind, Prog.obeys_ofHandler]
      refine ⟨by simp [Owned, SpiCall.object, hheap], fun _ => ?_⟩
      refine ⟨by simp [Owned, SpiCall.object], fun _ => ?_⟩
      refine ⟨[], _, .noSkb, ?_, rfl, rfl⟩
      simp [hheap, hback]
  · have halloc := Mem.alloc_of_not_gives (fun p hp => hfail ⟨p, hp⟩) sample 16
    simp only [withSample, spicall, DATA_SIZE, halloc, devErr, Prog.call_bind, Prog.ret_bind,
      Prog.obeys_ofHandler]
    exact ⟨by simp [Owned, SpiCall.object], fun _ => ⟨[], _, .noData, rfl, rfl, rfl⟩⟩

/-- A call makes at most six calls of its own. -/
theorem call_within (env : Station) (skb : Addr) : (myNetdevRx env skb).Within 6 := by
  simp only [myNetdevRx, spiTransfer, Prog.call_bind, Prog.ret_bind, Prog.within_succ]
  rintro (_ | spiData)
  · simp
  · simp only [load, devAllocSkb, Prog.call_bind, Prog.ret_bind, Prog.within_succ]
    rintro bytes (_ | newSkb) <;> simp

/-- What an ended call has queued: one frame with its sample as the payload when it
says that it worked, and nothing when not. -/
def Queued (sample : Nat → Byte) (ret : Int) (sent : List (Addr × List Byte)) : Prop :=
  (ret = NET_RX_SUCCESS ∧
    ∃ q frame, sent = [(q, frame)] ∧ slice frame 54 4 = (List.range 4).map sample) ∨
  (ret = NET_RX_DROP ∧ sent = [])

theorem Ends.queued {env : Station} {sample : Nat → Byte} {ret : Int}
    {sent : List (Addr × List Byte)} {msgs : List String} (h : Ends env sample ret sent msgs) :
    Queued sample ret sent := by
  cases h with
  | noData | noSkb => exact .inr ⟨rfl, rfl⟩
  | sent q tcpHeader =>
    refine .inl ⟨rfl, q, _, rfl, ?_⟩
    exact intLayout.encode_decode ((List.range 4).map sample) (by simp [intLayout])

/-! ## All calls -/

section

variable {T : Type} [DecidableEq T]

/-- The pool before the first call. `skbs` are the skbs that were submitted. -/
def boot (env : Station) (skbs : T → Addr) (heap : Addr → Option (List Byte)) :
    Pool T SpiCall SpiCall.Res NetSpiState Int :=
  ⟨⟨⟨heap, []⟩, [], []⟩, fun t => myNetdevRx env (skbs t)⟩

/-- What a call leaves: it has no object, and its frame is queued. -/
def Left (samples : T → Nat → Byte) (t : T) (ret : Int) (s : NetSpiState) : Prop :=
  (s.mem.heap = fun _ => none) ∧ Queued (samples t) ret s.queued

theorem honours_boot (env : Station) (skbs : T → Addr) (samples : T → Nat → Byte)
    (heap : Addr → Option (List Byte)) :
    (boot env skbs heap).Honours (fun t => owning (samples t)) (Joint heap) (Left samples) := by
  refine ⟨fun _ => ⟨⟨fun _ => none, []⟩, [], []⟩,
    ⟨Mem.parts_empty heap, usesLive_nil, .nil, .nil⟩, fun t => ?_⟩
  refine (call_obeys env (skbs t) (samples t) _).mono ?_
  rintro ret s ⟨sent, msgs, hends, hheap, hqueued, -⟩
  refine ⟨hheap, ?_⟩
  rw [hqueued, List.append_nil]
  exact hends.queued

/-- Any number of calls of `my_netdev_rx` are under way at the same time, in any
interleaving. Nothing is used or freed that is not there; a call ends after six
calls of its own; the queue is put together from what the calls have queued, where
an ended one has queued one frame with its own sample, or none; and when all have
ended, the heap is as it was. -/
theorem calls_isolated (env : Station) (skbs : T → Addr) (samples : T → Nat → Byte)
    (heap : Addr → Option (List Byte)) (acts : List (T × SpiOutcomes)) :
    let s := Run.run (Pool.step (callOf samples)) (boot env skbs heap) acts
    UsesLive s.shared.mem.log ∧
    (∀ t, 6 ≤ acts.countP (fun x => x.1 = t) → ∃ ret, s.rest t = .ret ret) ∧
    (∃ sent, Merge sent s.shared.queued ∧
      ∀ t ret, s.rest t = .ret ret → Queued (samples t) ret (sent t)) ∧
    ((∀ t, ∃ ret, s.rest t = .ret ret) → s.shared.mem.heap = heap) := by
  intro s
  obtain ⟨ps, hjoint, hobeys⟩ : s.Honours (fun t => owning (samples t)) (Joint heap)
      (Left samples) :=
    Pool.honours_run (sound samples heap) (honours_boot env skbs samples heap) acts
  have hleft : ∀ t ret, s.rest t = .ret ret → Left samples t ret (ps t) := by
    intro t ret hret
    have ht := hobeys t
    rw [hret] at ht
    exact ht
  refine ⟨hjoint.live, fun t ht => Pool.rest_of_within (call_within env (skbs t)) ht,
    ⟨fun t => (ps t).queued, hjoint.queued, fun t ret hret => (hleft t ret hret).2⟩,
    fun hdone => ?_⟩
  funext a
  refine hjoint.mem.rest a fun t => ?_
  obtain ⟨ret, hret⟩ := hdone t
  rw [(hleft t ret hret).1]

end

end DeviceDrivers.NetSpi
