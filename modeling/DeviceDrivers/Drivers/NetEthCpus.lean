import DeviceDrivers.Drivers.NetEthMemory
import DeviceDrivers.Lib.SharedHeap

/-!
# The Ethernet network driver on several CPUs

`my_netdev_rx` and `my_netdev_tx` take no lock, so the calls that different CPUs
make run at the same time. Here each CPU handles a list of frames, one call after
the other, and the memory accesses of the CPUs come in any order.

1. `rx_obeys`, `tx_obeys`: a call touches its own skb and its own copy only.
2. `sound`: a CPU that does so does not notice the others, except that memory
   which they hold cannot be allocated.
3. `cpus_isolated`: in every interleaving nothing is used that is gone, every CPU
   ends after its own calls, and every frame ends as if it were alone.
-/

namespace DeviceDrivers.NetEth

/-! ## What a CPU does -/

/-- A frame that is handed to one of the two functions. -/
inductive Job
  | rx (skb : Addr)
  | tx (skb : Addr)
deriving DecidableEq, Repr

/-- What the function returned. -/
inductive Answer
  | rx (ret : NetRx)
  | tx (ret : Option Unit)
deriving DecidableEq, Repr

namespace Job

@[simp] def skb : Job → Addr
  | rx skb | tx skb => skb

def body : Job → NetProg Answer
  | rx skb => do return .rx (← myNetdevRx skb)
  | tx skb => do return .tx (← myNetdevTx skb)

end Job

/-- The frames of one CPU. -/
def serve : List Job → NetProg (List Answer)
  | [] => return []
  | job :: jobs => do
    let answer ← job.body
    let answers ← serve jobs
    return answer :: answers

/-- The calls of all CPUs act on the same heap and the same console. -/
def cpu {T : Type} (_ : T) : NetOutcomes → (c : NetCall) → NetState → c.Res × NetState := netcall

/-! ## The contract -/

/-- The object that a call touches. -/
def NetCall.object : NetCall → Option Addr
  | .len skb | .devKfreeSkb skb | .validateHeaders skb => some skb
  | .kfree p | .load _ p _ _ | .store _ p _ _ => some p
  | .kmalloc _ | .printk _ => none

/-- A CPU touches only objects that it has. -/
def Owned (c : NetCall) (p : NetState) : Prop := ∀ a, c.object = some a → (p.mem.heap a).isSome

def owning : Contract NetCall NetCall.Res NetState := .ofHandler netcall Owned

/-- The CPUs' parts of the memory and of the console, with nothing used that is
not there. -/
structure Joint {T : Type} [DecidableEq T] (frame : Addr → Option (List Byte)) (ps : T → NetState)
    (s : NetState) : Prop where
  mem : Mem.Parts frame (fun t => (ps t).mem) s.mem
  printed : Merge (fun t => (ps t).printed) s.printed
  live : UsesLive s.mem.log

section

variable {T : Type} [DecidableEq T] {frame : Addr → Option (List Byte)} {ps : T → NetState}
  {s : NetState}

/-- A call that prints nothing. -/
theorem Joint.of_mem (h : Joint frame ps s) (t : T) {m m' : Mem Via}
    (hmem : Mem.Parts frame (Function.update (fun u => (ps u).mem) t m) m')
    (hlive : UsesLive m'.log) :
    Joint frame (Function.update ps t ((ps t).onMem m)) (s.onMem m') where
  mem := by
    rw [update_field NetState.mem]
    exact hmem
  printed := by
    rw [update_field_same NetState.printed ps t]
    · exact h.printed
    · rfl
  live := hlive

theorem sound (frame : Addr → Option (List Byte)) :
    Sound (fun _ : T => owning) cpu (Joint frame) := by
  intro ps s t c o h hmay
  have hlive := h.live
  cases c with
  | len skb =>
    have hskb := hmay skb rfl
    refine ⟨_, ⟨o, Prod.ext ?_ rfl⟩, h.of_mem t (h.mem.touch hskb .skb 0 0) ?_⟩
    · exact (congrArg List.length (h.mem.bytes_eq hskb)).symm
    · simpa [hlive, h.mem.own t skb hskb] using hskb
  | kmalloc n =>
    obtain ⟨place, hret, hmem⟩ := h.mem.alloc t o.kmalloc o.stale n
    refine ⟨_, ⟨{ o with kmalloc := place }, Prod.ext hret rfl⟩, h.of_mem t hmem ?_⟩
    exact Mem.usesLive_alloc hlive o.kmalloc o.stale n
  | kfree p | devKfreeSkb p =>
    have hp := hmay p rfl
    refine ⟨_, ⟨o, rfl⟩, h.of_mem t (h.mem.free hp) ?_⟩
    simpa [hlive, h.mem.own t p hp] using hp
  | load v p off n =>
    have hp := hmay p rfl
    refine ⟨_, ⟨o, Prod.ext ?_ rfl⟩, h.of_mem t (h.mem.touch hp v off n) ?_⟩
    · exact congrArg (fun bs => readAt o.wild bs off n) (h.mem.bytes_eq hp).symm
    · simpa [hlive, h.mem.own t p hp] using hp
  | store v p off bs =>
    have hp := hmay p rfl
    refine ⟨_, ⟨o, rfl⟩, h.of_mem t (h.mem.change hp v off bs.length _) ?_⟩
    simpa [hlive, h.mem.own t p hp] using hp
  | validateHeaders skb =>
    have hskb := hmay skb rfl
    refine ⟨_, ⟨o, rfl⟩, h.of_mem t (h.mem.change hskb .skb 0 0 _) ?_⟩
    simpa [hlive, h.mem.own t skb hskb] using hskb
  | printk msg =>
    refine ⟨_, ⟨o, rfl⟩, ?_, ?_, hlive⟩
    · rw [update_field_same NetState.mem ps t]
      · exact h.mem
      · rfl
    · rw [update_field NetState.printed]
      exact .cons t msg h.printed

end

/-! ## One call, alone -/

/-- How a call can end: what it returns, what it prints, and what is left of its
skb. It is as if the call were alone. -/
inductive Ends (frame : List Byte) : Job → Answer → List NetMsg → Option (List Byte) → Prop
  | dropped {skb : Addr} : Ends frame (.rx skb) (.rx .drop) [] none
  | received {skb : Addr} (wild : Nat → Byte) (hlen : 34 ≤ frame.length) :
      Ends frame (.rx skb) (.rx .success) (copyPrinted wild frame) none
  | rejected {skb : Addr} : Ends frame (.tx skb) (.tx (some ())) [] none
  | forwarded {skb : Addr} (wild : Nat → Byte) (validated : List Byte → List Byte) :
      Ends frame (.tx skb) (.tx none) [.transmitting]
        (some (NetEth.forwarded wild (validated frame)))

/-- The part of a CPU after a call: its skb has become `after`, and it has printed
`msgs`. -/
structure Leaves (skb : Addr) (after : Option (List Byte)) (msgs : List NetMsg)
    (p p' : NetState) : Prop where
  heap : p'.mem.heap = Function.update p.mem.heap skb after
  printed : p'.printed = msgs ++ p.printed

theorem tx_obeys {p : NetState} {skb : Addr} {frame : List Byte}
    (hskb : p.mem.heap skb = some frame) :
    (myNetdevTx skb).Obeys owning
      (fun r p' => ∃ msgs after, Ends frame (.tx skb) (.tx r) msgs after ∧
        Leaves skb after msgs p p') p := by
  simp only [owning, myNetdevTx, validateHeaders, Prog.call_bind, Prog.ret_bind,
    Prog.obeys_ofHandler]
  refine ⟨by simp [Owned, NetCall.object, hskb], fun o => ?_⟩
  by_cases hdrop : o.validate < 0
  · simp [hdrop, Prog.obeys_ofHandler, Owned, NetCall.object, hskb]
    exact fun _ => ⟨_, _, .rejected, rfl, rfl⟩
  · simp [hdrop, Prog.obeys_ofHandler, Owned, NetCall.object, hskb]
    exact fun _ o' _ _ => ⟨_, _, .forwarded o'.wild o.validated, rfl, rfl⟩

theorem rx_obeys {p : NetState} {skb : Addr} {frame : List Byte}
    (hskb : p.mem.heap skb = some frame) :
    (myNetdevRx skb).Obeys owning
      (fun r p' => ∃ msgs after, Ends frame (.rx skb) (.rx r) msgs after ∧
        Leaves skb after msgs p p') p := by
  rcases Nat.lt_or_ge frame.length 34 with hlen | hlen
  · simp [owning, myNetdevRx, Prog.obeys_ofHandler, Owned, NetCall.object, hskb, hlen]
    exact fun _ _ => ⟨_, _, .dropped, rfl, rfl⟩
  have hnot : ¬ frame.length < 34 := Nat.not_lt.mpr hlen
  simp only [owning, myNetdevRx, skbLen, kmalloc, Prog.call_bind, Prog.ret_bind,
    Prog.obeys_ofHandler]
  refine ⟨by simp [Owned, NetCall.object, hskb], fun _ => ?_⟩
  simp only [netcall, Mem.bytes, hskb, Option.getD_some, sizeofEthhdr, sizeofIphdr, Nat.reduceAdd,
    hnot, if_false, Prog.obeys_ofHandler]
  refine ⟨by simp [Owned, NetCall.object, hskb], fun _ => ?_⟩
  refine ⟨by simp [Owned, NetCall.object], fun o => ?_⟩
  rcases Classical.em (∃ q, p.mem.Gives o.kmalloc q) with ⟨q, hq⟩ | hfail
  · have hne : skb ≠ q := by
      rintro rfl
      rw [hq.2] at hskb
      cases hskb
    have halloc : ∀ m : Mem Via, m.heap = p.mem.heap → ∀ n, m.alloc o.kmalloc o.stale n =
        (some q, ⟨Function.update p.mem.heap q (some ((List.range n).map o.stale)),
          .alloc q n :: m.log⟩) := by
      rintro m hm n
      rw [hq.1, ← hm]
      exact Mem.alloc_of_free (hm ▸ hq.2) o.stale n
    have hback : Function.update p.mem.heap q none = p.mem.heap := Mem.update_none hq.2
    have hbyte : ∀ w, readAt w frame 23 1 = [IPPROTO_ICMPV6] ↔ SaysIcmpv6 frame :=
      fun w => readAt_one (by omega) _
    simp [halloc, Prog.obeys_ofHandler, Owned, NetCall.object, hskb, hne, readAt_all, writeAt_all]
    intro _ _ _ o₁ o₂ _ o₃ o₄ _ o₅
    -- The first 34 bytes are there, so it does not matter who reads past them.
    have hprinted : ∀ w : Nat → Byte,
        [NetMsg.addresses (readAt o₃.wild frame 26 4) (readAt o₄.wild frame 30 4),
          .received (readAt o₁.wild frame 6 6) (readAt o₂.wild frame 0 6)] =
        [.addresses (readAt w frame 26 4) (readAt w frame 30 4),
          .received (readAt w frame 6 6) (readAt w frame 0 6)] := by
      intro w
      have hread : ∀ (w' : Nat → Byte) (off n : Nat), off + n ≤ 34 →
          readAt w' frame off n = readAt w frame off n :=
        fun w' off n h => readAt_inside (Nat.le_trans h hlen) w' w
      rw [hread o₃.wild 26 4 (by decide), hread o₄.wild 30 4 (by decide),
        hread o₁.wild 6 6 (by decide), hread o₂.wild 0 6 (by decide)]
    by_cases hicmp : SaysIcmpv6 frame
    · simp only [hbyte, if_pos hicmp, Prog.obeys_ofHandler]
      refine ⟨by simp [Owned, NetCall.object], fun o₆ => ?_⟩
      by_cases hreply : readAt o₆.wild frame 34 1 = [ICMPV6_ECHO_REPLY]
      · simp [hreply, Prog.obeys_ofHandler, Owned, NetCall.object, hskb, hback]
        refine fun _ _ _ => ⟨_, _, .received o₆.wild hlen, rfl, ?_⟩
        simp [copyPrinted, hicmp, hreply, ← hprinted o₆.wild]
      · simp [hreply, Prog.obeys_ofHandler, Owned, NetCall.object, hskb, hback]
        refine fun _ _ => ⟨_, _, .received o₆.wild hlen, rfl, ?_⟩
        simp [copyPrinted, hreply, ← hprinted o₆.wild]
    · simp [hbyte, hicmp, Prog.obeys_ofHandler, Owned, NetCall.object, hskb, hback]
      refine fun _ _ => ⟨_, _, .received o₅.wild hlen, rfl, ?_⟩
      simp [copyPrinted, hicmp, ← hprinted o₅.wild]
  · have halloc : ∀ m : Mem Via, m.heap = p.mem.heap → ∀ n,
        m.alloc o.kmalloc o.stale n = (none, m) := by
      intro m hm n
      exact Mem.alloc_of_not_gives (fun q hq => hfail ⟨q, hq.1, hm ▸ hq.2⟩) o.stale n
    simp [halloc, Prog.obeys_ofHandler, Owned, NetCall.object, hskb]
    exact fun _ => ⟨_, _, .dropped, rfl, rfl⟩

theorem job_obeys {p : NetState} {job : Job} {frame : List Byte}
    (hskb : p.mem.heap job.skb = some frame) :
    job.body.Obeys owning
      (fun r p' => ∃ msgs after, Ends frame job r msgs after ∧
        Leaves job.skb after msgs p p') p := by
  cases job with
  | rx skb => exact (rx_obeys hskb).bind
  | tx skb => exact (tx_obeys hskb).bind

/-! ## The calls of one CPU -/

/-- Frames that are handled one after the other, from `heap` to `heap'`: each ends
as if it were alone. -/
inductive Served (heap heap' : Addr → Option (List Byte)) :
    List Job → List Answer → List NetMsg → Prop
  | nil : Served heap heap' [] [] []
  | cons {job : Job} {jobs : List Job} {answer : Answer} {answers : List Answer}
      {msgs msgs' : List NetMsg} {frame : List Byte} :
      heap job.skb = some frame → Ends frame job answer msgs (heap' job.skb) →
      Served heap heap' jobs answers msgs' →
      Served heap heap' (job :: jobs) (answer :: answers) (msgs' ++ msgs)

theorem Served.congr {heap₁ heap₂ heap' : Addr → Option (List Byte)} {jobs : List Job}
    {answers : List Answer} {msgs : List NetMsg} (h : Served heap₁ heap' jobs answers msgs)
    (heq : ∀ job ∈ jobs, heap₁ job.skb = heap₂ job.skb) :
    Served heap₂ heap' jobs answers msgs := by
  induction h with
  | nil => exact .nil
  | cons hskb hends _ ih =>
    obtain ⟨hfirst, hrest⟩ := List.forall_mem_cons.mp heq
    exact .cons (hfirst ▸ hskb) hends (ih hrest)

/-- What a CPU leaves when all its frames are there, each once. -/
theorem serve_obeys {jobs : List Job} {p : NetState}
    (hlive : ∀ job ∈ jobs, (p.mem.heap job.skb).isSome) (hnodup : (jobs.map Job.skb).Nodup) :
    (serve jobs).Obeys owning
      (fun answers p' => ∃ msgs, Served p.mem.heap p'.mem.heap jobs answers msgs ∧
        p'.printed = msgs ++ p.printed ∧
        ∀ a, a ∉ jobs.map Job.skb → p'.mem.heap a = p.mem.heap a) p := by
  induction jobs generalizing p with
  | nil => exact ⟨[], .nil, rfl, fun _ _ => rfl⟩
  | cons job jobs ih =>
    obtain ⟨hskb, hlater⟩ := List.forall_mem_cons.mp hlive
    obtain ⟨hnot, hrest⟩ := List.nodup_cons.mp hnodup
    obtain ⟨frame, hskb⟩ := Option.isSome_iff_exists.mp hskb
    refine Prog.Obeys.bind ((job_obeys hskb).mono ?_)
    rintro answer p₁ ⟨msgs, after, hends, hheap, hprinted⟩
    have hother : ∀ a, a ≠ job.skb → p₁.mem.heap a = p.mem.heap a := by
      intro a ha
      rw [hheap, Function.update_of_ne ha]
    have hne : ∀ job' ∈ jobs, job'.skb ≠ job.skb :=
      fun job' hjob' heq => hnot (heq ▸ List.mem_map_of_mem hjob')
    refine Prog.Obeys.bind (Prog.Obeys.mono ?_ (ih (p := p₁) (fun job' hjob' => ?_) hrest))
    · rintro answers p' ⟨msgs', hserved, hprinted', hkept⟩
      refine ⟨msgs' ++ msgs, .cons hskb ?_ (hserved.congr ?_), ?_, fun a ha => ?_⟩
      · rw [hkept job.skb hnot, hheap, Function.update_self]
        exact hends
      · exact fun job' hjob' => hother _ (hne job' hjob')
      · rw [hprinted', hprinted, List.append_assoc]
      · rw [List.map_cons, List.mem_cons, not_or] at ha
        rw [hkept a ha.2, hother a ha.1]
    · rw [hother _ (hne job' hjob')]
      exact hlater job' hjob'

theorem Served.congr_after {heap heap₁ heap₂ : Addr → Option (List Byte)} {jobs : List Job}
    {answers : List Answer} {msgs : List NetMsg} (h : Served heap heap₁ jobs answers msgs)
    (heq : ∀ job ∈ jobs, heap₁ job.skb = heap₂ job.skb) :
    Served heap heap₂ jobs answers msgs := by
  induction h with
  | nil => exact .nil
  | cons hskb hends _ ih =>
    obtain ⟨hfirst, hrest⟩ := List.forall_mem_cons.mp heq
    exact .cons hskb (hfirst ▸ hends) (ih hrest)

/-- The most calls that one of the two functions makes. -/
def maxCalls : Nat := 17

theorem tx_within (skb : Addr) : (myNetdevTx skb).Within 5 := by
  simp only [myNetdevTx, validateHeaders, Prog.call_bind, Prog.ret_bind, Prog.within_succ]
  intro headroom
  split <;> simp

theorem rx_within (skb : Addr) : (myNetdevRx skb).Within maxCalls := by
  simp only [maxCalls, myNetdevRx, skbLen, kmalloc, Prog.call_bind, Prog.ret_bind,
    Prog.within_succ]
  intro n
  split
  · simp
  simp only [Prog.within_succ]
  rintro _ (_ | kernelBuffer)
  · simp
  simp
  intro protocol
  split
  · simp
    intro type
    split <;> simp
  · simp

theorem body_within (job : Job) : job.body.Within maxCalls := by
  cases job with
  | rx skb => exact (rx_within skb).bind (m := 0) fun r => Prog.within_pure _ _
  | tx skb =>
    have hfive : 5 ≤ maxCalls := by decide
    exact ((tx_within skb).mono hfive).bind (m := 0) fun r => Prog.within_pure _ _

theorem serve_within (jobs : List Job) : (serve jobs).Within (maxCalls * jobs.length) := by
  induction jobs with
  | nil => exact Prog.within_pure _ _
  | cons job jobs ih =>
    rw [List.length_cons, Nat.mul_succ, Nat.add_comm]
    refine (body_within job).bind fun answer => ?_
    exact ih.bind (m := 0) fun answers => Prog.within_pure _ _

/-! ## All CPUs -/

/-- The pool before the first call. -/
def boot {T : Type} (heap : Addr → Option (List Byte)) (jobs : T → List Job) :
    Pool T NetCall NetCall.Res NetState (List Answer) :=
  ⟨start heap, fun t => serve (jobs t)⟩

/-- No frame is handed over twice, neither to one CPU nor to two. -/
structure Separate {T : Type} (heap : Addr → Option (List Byte)) (jobs : T → List Job) : Prop where
  live : ∀ t, ∀ job ∈ jobs t, (heap job.skb).isSome
  nodup : ∀ t, ((jobs t).map Job.skb).Nodup
  apart : ∀ t u a, a ∈ (jobs t).map Job.skb → a ∈ (jobs u).map Job.skb → t = u

section

variable {T : Type} [DecidableEq T] {heap : Addr → Option (List Byte)} {jobs : T → List Job}

/-- The addresses of the frames of a CPU. -/
def Mine (jobs : T → List Job) (t : T) (a : Addr) : Prop := a ∈ (jobs t).map Job.skb

instance (jobs : T → List Job) (t : T) : DecidablePred (Mine jobs t) := fun a => by
  unfold Mine; infer_instance

/-- The part of a CPU before its first call. -/
def partOf (heap : Addr → Option (List Byte)) (jobs : T → List Job) (t : T) : NetState :=
  start (Mem.restrict (Mine jobs t) heap)

open Classical in
/-- What is in the heap besides the frames. -/
noncomputable def others (heap : Addr → Option (List Byte)) (jobs : T → List Job) :
    Addr → Option (List Byte) :=
  fun a => if ∃ t, Mine jobs t a then none else heap a

theorem joint_boot (h : Separate heap jobs) :
    Joint (others heap jobs) (partOf heap jobs) (start heap) where
  mem := by
    refine Mem.parts_start h.apart (fun a ha => ?_) (fun t a ha => ?_) fun t a ha => ?_
    · exact if_neg fun ⟨t, ht⟩ => ha t ht
    · exact if_pos ⟨t, ha⟩
    · obtain ⟨job, hjob, rfl⟩ := List.mem_map.mp ha
      exact h.live t job hjob
  printed := .nil
  live := usesLive_nil

/-- What a CPU leaves, from its part of the heap. -/
def Left (heap : Addr → Option (List Byte)) (jobs : T → List Job) (t : T)
    (answers : List Answer) (p : NetState) : Prop :=
  Served heap p.mem.heap (jobs t) answers p.printed ∧ ∀ a, ¬ Mine jobs t a → p.mem.heap a = none

theorem honours_boot (h : Separate heap jobs) :
    (boot heap jobs).Honours (fun _ => owning) (Joint (others heap jobs)) (Left heap jobs) := by
  refine ⟨partOf heap jobs, joint_boot h, fun t => ?_⟩
  have hpart : ∀ job ∈ jobs t, (partOf heap jobs t).mem.heap job.skb = heap job.skb :=
    fun job hjob => if_pos (List.mem_map_of_mem hjob)
  refine (serve_obeys (fun job hjob => ?_) (h.nodup t)).mono ?_
  · rw [hpart job hjob]
    exact h.live t job hjob
  · rintro answers p ⟨msgs, hserved, hprinted, hkept⟩
    refine ⟨?_, fun a ha => ?_⟩
    · have hmsgs : p.printed = msgs := by simpa [partOf] using hprinted
      rw [hmsgs]
      exact hserved.congr hpart
    · rw [hkept a ha]
      exact if_neg ha

/-- Any number of CPUs handle frames at the same time, in any interleaving of
their calls. Nothing is used or freed that is not there; a CPU that gets its turn
often enough ends; and when all have ended, every frame has ended as if it were
alone, the console holds what each CPU printed in its order, and the heap is
otherwise what it was. -/
theorem cpus_isolated (h : Separate heap jobs) (acts : List (T × NetOutcomes)) :
    let s := Run.run (Pool.step cpu) (boot heap jobs) acts
    UsesLive s.shared.mem.log ∧
    (∀ t, maxCalls * (jobs t).length ≤ acts.countP (fun x => x.1 = t) →
      ∃ answers, s.rest t = .ret answers) ∧
    ∀ answers : T → List Answer, (∀ t, s.rest t = .ret (answers t)) →
      (∃ msgs, Merge msgs s.shared.printed ∧
        ∀ t, Served heap s.shared.mem.heap (jobs t) (answers t) (msgs t)) ∧
      ∀ a, (∀ t, ¬ Mine jobs t a) → s.shared.mem.heap a = heap a := by
  intro s
  obtain ⟨ps, hjoint, hobeys⟩ : s.Honours (fun _ => owning) (Joint (others heap jobs))
      (Left heap jobs) := Pool.honours_run (sound _) (honours_boot h) acts
  refine ⟨hjoint.live, fun t ht => Pool.rest_of_within (serve_within (jobs t)) ht,
    fun answers hdone => ?_⟩
  have hleft : ∀ t, Left heap jobs t (answers t) (ps t) := by
    intro t
    have ht := hobeys t
    rw [hdone t] at ht
    exact ht
  -- An address of a frame is in no other CPU's part.
  have hheap : ∀ t a, Mine jobs t a → s.shared.mem.heap a = (ps t).mem.heap a := by
    intro t a ha
    cases hp : (ps t).mem.heap a with
    | some bs => rw [hjoint.mem.own t a (by simp [hp]), hp]
    | none =>
      rw [hjoint.mem.rest a fun u => ?_]
      · exact if_pos ⟨t, ha⟩
      · by_cases hu : u = t
        · rw [hu]
          exact hp
        · exact (hleft u).2 a fun hmine => hu (h.apart u t a hmine ha)
  refine ⟨⟨fun t => (ps t).printed, hjoint.printed, fun t => ?_⟩, fun a ha => ?_⟩
  · exact (hleft t).1.congr_after fun job hjob =>
      (hheap t job.skb (List.mem_map_of_mem hjob)).symm
  · rw [hjoint.mem.rest a fun t => (hleft t).2 a (ha t)]
    exact if_neg fun ⟨t, ht⟩ => ha t ht

end

/-- One CPU receives a frame while another one sends one. -/
def pairHeap : Addr → Option (List Byte) := fun p => if p < 2 then some bareIcmpv6 else none

def pairJobs : Bool → List Job
  | false => [.rx 0]
  | true => [.tx 1]

theorem pair_separate : Separate pairHeap pairJobs where
  live := by
    intro t
    cases t <;> decide
  nodup := by
    intro t
    cases t <;> decide
  apart := by
    intro t u a ht hu
    cases t <;> cases u <;> simp_all [pairJobs]

/-- The two take turns. -/
def pairTurns : List (Bool × NetOutcomes) :=
  (List.range 17).flatMap fun _ => [(false, passes), (true, passes)]

theorem two_cpus_isolated :
    let s := Run.run (Pool.step cpu) (boot pairHeap pairJobs) pairTurns
    UsesLive s.shared.mem.log ∧ ∀ t, ∃ answers, s.rest t = .ret answers := by
  intro s
  obtain ⟨hlive, hends, -⟩ := cpus_isolated pair_separate pairTurns
  exact ⟨hlive, fun t => hends t (by cases t <;> decide)⟩

end DeviceDrivers.NetEth
