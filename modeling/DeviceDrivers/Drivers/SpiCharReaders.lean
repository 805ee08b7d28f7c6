import DeviceDrivers.Drivers.SpiCharRead
import DeviceDrivers.Lib.SharedHeap

/-!
# The SPI character driver: several readers

`spi_char_read` takes no lock. Here any number of readers, each with a buffer of
its own, are in the function at the same time, and their calls come in any order.

1. `reader_obeys`: a reader touches the sample that it got and its buffer.
2. `sound`: a reader that does so does not notice the others.
3. `readers_isolated`: in every interleaving each reader gets the start of its own
   sample, or an error, or ends in `dev_err`, and all samples are freed.
-/

namespace DeviceDrivers.SpiCharRead

/-- The file of a reader, with what the kernel has for it, what the reader asks for,
which bytes of its process can be accessed, and the sample that the device has for
it. -/
structure Reader extends KernelWords where
  filp : Addr
  userBuf : Nat
  count : Nat
  accessible : Nat → Bool
  sample : Nat → Byte

namespace Reader

/-- The number of bytes that the reader is to get. -/
def stored (r : Reader) : Nat := min r.count 16

/-- The address is in the part of the buffer that a read may fill. -/
def Fills (r : Reader) (x : Nat) : Prop := r.userBuf ≤ x ∧ x < r.userBuf + r.stored

/-- Every byte that the reader is to get can be stored. -/
def Reachable (r : Reader) : Prop := ∀ i < r.stored, r.accessible (r.userBuf + i) = true

/-- A read can end in an oops. -/
def body (r : Reader) : Prog KernelCall (fun c => Except Oops c.Res) (Except Oops Int) :=
  (spiCharRead r.filp r.userBuf r.count).tries

/-- What decides a call of the reader, where the rest is up to `o`. -/
def oracle (r : Reader) (o : ReadCall) : ReadCall :=
  { o with toKernelWords := r.toKernelWords, accessible := r.accessible, sample := r.sample }

end Reader

def readerCall {T : Type} (readers : T → Reader) (t : T) (o : ReadCall) :
    (c : KernelCall) → ReadState → Except Oops c.Res × ReadState :=
  readcall ((readers t).oracle o)

/-! ## The contract -/

/-- A reader uses samples that it has, and stores into its buffer. -/
def Owned (r : Reader) (c : KernelCall) (s : ReadState) : Prop :=
  match c with
  | .copyToUser dst p n => (s.mem.heap p).isSome ∧ dst = r.userBuf ∧ n ≤ r.stored
  | .kfree p => (s.mem.heap p).isSome
  | .spiTransfer .. | .loadDSb _ | .devGetDrvdata _ | .devErr .. => True

def reading (r : Reader) : Contract KernelCall (fun c => Except Oops c.Res) ReadState :=
  .ofHandler (fun o => readcall (r.oracle o)) (Owned r)

/-- The readers' parts: their samples, what they printed, and their buffers. -/
structure Joint {T : Type} [DecidableEq T] (readers : T → Reader)
    (heap : Addr → Option (List Byte)) (user : Nat → Byte) (ps : T → ReadState)
    (s : ReadState) : Prop where
  mem : Mem.Parts heap (fun t => (ps t).mem) s.mem
  live : UsesLive s.mem.log
  filled : ∀ t x, (readers t).Fills x → s.user x = (ps t).user x
  kept : ∀ x, (∀ t, ¬ (readers t).Fills x) → s.user x = user x
  printed : Merge (fun t => (ps t).printed) s.printed

section

variable {T : Type} [DecidableEq T] {readers : T → Reader} {heap : Addr → Option (List Byte)}
  {user : Nat → Byte}

/-- The buffers do not overlap. -/
def Apart (readers : T → Reader) : Prop :=
  ∀ t u x, (readers t).Fills x → (readers u).Fills x → t = u

/-- A call that changes the memory only. -/
theorem Joint.of_mem {ps : T → ReadState} {s : ReadState} (h : Joint readers heap user ps s)
    (t : T) {m m' : Mem Via}
    (hmem : Mem.Parts heap (Function.update (fun u => (ps u).mem) t m) m')
    (hlive : UsesLive m'.log) :
    Joint readers heap user (Function.update ps t { ps t with mem := m }) { s with mem := m' } where
  mem := by
    rw [update_field ReadState.mem]
    exact hmem
  live := hlive
  filled u x hx := by
    rw [congrFun (update_field_same ReadState.user ps t _ ?_) u]
    · exact h.filled u x hx
    · rfl
  kept := h.kept
  printed := by
    rw [update_field_same ReadState.printed ps t]
    · exact h.printed
    · rfl

/-- What a copy of `bs` changes lies in the bytes from `dst` on. -/
theorem copyToUser_of_outside (u : UserMem) (dst : Nat) (bs : List Byte) {x : Nat}
    (hx : ¬ (dst ≤ x ∧ x < dst + bs.length)) : (copyToUser u dst bs).2.byte x = u.byte x := by
  unfold copyToUser UserMem.store
  by_cases hle : dst ≤ x
  · have hout : ¬ x - dst < bs.length := by omega
    have hnone : (bs.take (u.reach dst bs.length))[x - dst]? = none := by
      rw [List.getElem?_eq_none]
      rw [List.length_take]
      omega
    simp [hle, hnone]
  · simp [hle]

/-- A copy does the same to two memories in which the same bytes are accessible. -/
theorem copyToUser_congr {u u' : UserMem} (h : u.accessible = u'.accessible) (dst : Nat)
    (bs : List Byte) : (copyToUser u dst bs).1 = (copyToUser u' dst bs).1 ∧
      ∀ x, u.byte x = u'.byte x →
        (copyToUser u dst bs).2.byte x = (copyToUser u' dst bs).2.byte x := by
  have hreach : ∀ n a, u.reach a n = u'.reach a n := by
    intro n
    induction n with
    | zero => exact fun _ => rfl
    | succ n ih =>
      intro a
      rw [UserMem.reach, UserMem.reach, h, ih (a + 1)]
  refine ⟨by rw [copyToUser, copyToUser, hreach], fun x hx => ?_⟩
  simp only [copyToUser, UserMem.store, hreach, hx]

/-- A call that changes nothing. -/
theorem Joint.unchanged {ps : T → ReadState} {s : ReadState} (h : Joint readers heap user ps s)
    (t : T) : Joint readers heap user (Function.update ps t (ps t)) s := by
  rwa [Function.update_eq_self]

/-- A call that prints a message. -/
theorem Joint.print {ps : T → ReadState} {s : ReadState} (h : Joint readers heap user ps s)
    (t : T) (msg : String) :
    Joint readers heap user
      (Function.update ps t { ps t with printed := msg :: (ps t).printed })
      { s with printed := msg :: s.printed } where
  mem := by
    rw [update_field_same ReadState.mem ps t]
    · exact h.mem
    · rfl
  live := h.live
  filled u x hx := by
    rw [congrFun (update_field_same ReadState.user ps t _ ?_) u]
    · exact h.filled u x hx
    · rfl
  kept := h.kept
  printed := by
    rw [update_field ReadState.printed]
    exact .cons t msg h.printed

theorem sound (hapart : Apart readers) (heap : Addr → Option (List Byte)) (user : Nat → Byte) :
    Sound (fun t => reading (readers t)) (readerCall readers) (Joint readers heap user) := by
  intro ps s t c o h hmay
  have hlive := h.live
  cases c with
  | spiTransfer busId deviceId n =>
    obtain ⟨place, hret, hmem⟩ := h.mem.alloc t o.transfer (readers t).sample n
    have hanswer := congrArg (fun r => (Except.ok r : Except Oops (Option Addr))) hret
    refine ⟨_, ⟨{ o with transfer := place }, Prod.ext hanswer rfl⟩, h.of_mem t hmem ?_⟩
    exact Mem.usesLive_alloc hlive o.transfer (readers t).sample n
  | kfree p =>
    have hp : ((ps t).mem.heap p).isSome := hmay
    refine ⟨_, ⟨o, rfl⟩, h.of_mem t (h.mem.free hp) ?_⟩
    simpa [hlive, h.mem.own t p hp] using hp
  | loadDSb filp | devGetDrvdata dev => exact ⟨_, ⟨o, rfl⟩, h.unchanged t⟩
  | devErr dev msg =>
    cases dev with
    | none => exact ⟨_, ⟨o, rfl⟩, h.print t msg⟩
    | some p =>
      cases hprints : (readers t).prints p with
      | true =>
        refine ⟨{ ps t with printed := msg :: (ps t).printed }, ⟨o, ?_⟩, ?_⟩
        · simp [readerCall, Reader.oracle, hprints]
        · simpa [readerCall, Reader.oracle, hprints] using h.print t msg
      | false =>
        refine ⟨ps t, ⟨o, ?_⟩, ?_⟩
        · simp [readerCall, Reader.oracle, hprints]
        · simpa [readerCall, Reader.oracle, hprints] using h
  | copyToUser dst p n =>
    obtain ⟨hp, hdst, hn⟩ : ((ps t).mem.heap p).isSome ∧ dst = (readers t).userBuf ∧
      n ≤ (readers t).stored := hmay
    have hbytes : readAt o.wild (s.mem.bytes p) 0 n = readAt o.wild ((ps t).mem.bytes p) 0 n := by
      rw [h.mem.bytes_eq hp]
    have hcopy := @copyToUser_congr ⟨s.user, (readers t).accessible⟩
      ⟨(ps t).user, (readers t).accessible⟩ rfl dst (readAt o.wild (s.mem.bytes p) 0 n)
    rw [hbytes] at hcopy
    have hinside : ∀ x, dst ≤ x ∧ x < dst + (readAt o.wild ((ps t).mem.bytes p) 0 n).length →
        (readers t).Fills x := by
      intro x hx
      have hlen : (readAt o.wild ((ps t).mem.bytes p) 0 n).length = n := by simp [readAt]
      rw [hlen, hdst] at hx
      exact ⟨hx.1, Nat.lt_of_lt_of_le hx.2 (Nat.add_le_add_left hn _)⟩
    -- Outside the buffer of the reader nothing changes.
    have hother : ∀ x, ¬ (readers t).Fills x →
        (readerCall readers t o (.copyToUser dst p n) s).2.user x = s.user x := by
      intro x hx
      refine copyToUser_of_outside _ dst _ fun hin => hx (hinside x ?_)
      rwa [← hbytes]
    refine ⟨_, ⟨o, Prod.ext ?_ rfl⟩, ?_, ?_, fun u x hx => ?_, fun x hx => ?_, ?_⟩
    · show Except.ok (copyToUser _ dst _).1 =
        Except.ok (copyToUser _ dst (readAt o.wild (s.mem.bytes p) 0 n)).1
      rw [hbytes]
      exact congrArg Except.ok hcopy.1.symm
    · rw [update_field ReadState.mem]
      exact h.mem.touch hp .spiData 0 n
    · simpa [readerCall, hlive, h.mem.own t p hp] using hp
    · rw [congrFun (update_field ReadState.user ps t _) u]
      by_cases hu : u = t
      · subst hu
        rw [Function.update_self]
        show (copyToUser _ dst (readAt o.wild (s.mem.bytes p) 0 n)).2.byte x = _
        rw [hbytes]
        exact hcopy.2 x (h.filled u x hx)
      · rw [Function.update_of_ne hu, hother x fun ht => hu (hapart u t x hx ht)]
        exact h.filled u x hx
    · rw [hother x (hx t)]
      exact h.kept x hx
    · rw [update_field_same ReadState.printed ps t]
      · exact h.printed
      · rfl

end

/-! ## One reader, alone -/

/-- What a read does to the sample at `p`, the last first. -/
def sampleLog (r : Reader) (p : Addr) : List (MemEvent Via) :=
  [.free p true, .use .spiData p 0 r.stored (some 16), .alloc p 16]

/-- How a read ends, with the user memory `user` before it and `user'` after it, what it
prints and what it does to the heap: the buffer has the start of the reader's sample; or
the device gave none, which is printed or ends the process; or part of the buffer cannot
be accessed, and what is stored is from the sample. -/
inductive Ends (r : Reader) (user user' : Nat → Byte) :
    Except Oops Int → List String → List (MemEvent Via) → Prop
  | stored (p : Addr) : r.Reachable → (∀ i < r.stored, user' (r.userBuf + i) = r.sample i) →
      Ends r user user' (.ok r.stored) [] (sampleLog r p)
  | noData : Printable r.toKernelWords r.filp →
      (∀ i < r.stored, user' (r.userBuf + i) = user (r.userBuf + i)) →
      Ends r user user' (.ok EFAULT.code) [noDataMsg] []
  | oops (q : Addr) : ¬ Printable r.toKernelWords r.filp →
      (∀ i < r.stored, user' (r.userBuf + i) = user (r.userBuf + i)) →
      Ends r user user' (.error (.badDevice q)) [] []
  | fault (p : Addr) : ¬ r.Reachable →
      (∀ i < r.stored, user' (r.userBuf + i) = r.sample i ∨
        user' (r.userBuf + i) = user (r.userBuf + i)) →
      Ends r user user' (.ok EFAULT.code) [] (sampleLog r p)

/-- What is copied to the reader. -/
def answerTo (r : Reader) : List Byte := (List.range r.stored).map r.sample

@[simp] theorem length_answerTo (r : Reader) : (answerTo r).length = r.stored := by
  simp [answerTo]

theorem reachable_iff_accessible (r : Reader) (user : Nat → Byte) :
    r.Reachable ↔ (UserMem.mk user r.accessible).Accessible r.userBuf (answerTo r).length := by
  rw [UserMem.accessible_iff, length_answerTo]
  rfl

theorem ends_of_copied {r : Reader} {user : Nat → Byte} (p : Addr)
    (h : (copyToUser ⟨user, r.accessible⟩ r.userBuf (answerTo r)).1 = 0) :
    Ends r user (copyToUser ⟨user, r.accessible⟩ r.userBuf (answerTo r)).2.byte
      (.ok r.stored) [] (sampleLog r p) := by
  have hacc : (UserMem.mk user r.accessible).Accessible r.userBuf (answerTo r).length := by
    by_contra hacc
    exact (copyToUser_fault_iff _ _ _).mpr hacc h
  rw [copyToUser_of_accessible hacc]
  refine .stored p ((reachable_iff_accessible r user).mpr hacc) fun i hi => ?_
  simp [UserMem.store, answerTo, hi]

theorem ends_of_fault {r : Reader} {user : Nat → Byte} (p : Addr)
    (h : ¬ (copyToUser ⟨user, r.accessible⟩ r.userBuf (answerTo r)).1 = 0) :
    Ends r user (copyToUser ⟨user, r.accessible⟩ r.userBuf (answerTo r)).2.byte
      (.ok EFAULT.code) [] (sampleLog r p) := by
  have hacc := (copyToUser_fault_iff _ _ _).mp h
  refine .fault p (fun hreach => hacc ((reachable_iff_accessible r user).mp hreach)) fun i hi => ?_
  simp only [copyToUser, UserMem.store, length_answerTo, Nat.le_add_right, if_true,
    Nat.add_sub_cancel_left]
  -- The copy stops at the first byte that cannot be accessed.
  rcases Nat.lt_or_ge i ((UserMem.mk user r.accessible).reach r.userBuf r.stored) with hlt | hge
  · left
    simp [hlt, answerTo, hi]
  · right
    rw [List.getElem?_take_eq_none hge, Option.getD_none]

/-- What a reader leaves that starts with `s`. -/
def Leaves (r : Reader) (s : ReadState) (ret : Except Oops Int) (s' : ReadState) : Prop :=
  ∃ msgs log, Ends r s.user s'.user ret msgs log ∧ s'.mem.heap = s.mem.heap ∧
    s'.printed = msgs ++ s.printed ∧ s'.mem.log = log ++ s.mem.log

/-- Without a sample the message is printed, or the process ends. -/
theorem noData_obeys (r : Reader) (s : ReadState) :
    (Prog.tries (do
      let dev ← devGetDrvdata (← loadDSb r.filp)
      devErr dev noDataMsg
      return EFAULT.code : ReadProg Int)).Obeys (reading r) (Leaves r s) s := by
  simp only [reading, loadDSb, devGetDrvdata, devErr, Prog.call_bind, Prog.ret_bind,
    Prog.tries_call, Prog.obeys_ofHandler]
  refine ⟨trivial, fun _ => ?_⟩
  simp only [Reader.oracle, readcall, Prog.obeys_ofHandler]
  refine ⟨trivial, fun _ => ?_⟩
  refine ⟨trivial, fun _ => ?_⟩
  cases hdev : r.driverData (r.dSb r.filp) with
  | none =>
    have hprints : Printable r.toKernelWords r.filp := fun p hp => by
      rw [hdev] at hp
      cases hp
    exact ⟨_, _, .noData hprints fun _ _ => rfl, rfl, rfl, rfl⟩
  | some p =>
    cases hp : r.prints p with
    | true =>
      have hprints : Printable r.toKernelWords r.filp := fun q hq => by
        obtain rfl := Option.some.inj (hdev.symm.trans hq)
        exact hp
      simp only [hp, if_true]
      exact ⟨_, _, .noData hprints fun _ _ => rfl, rfl, rfl, rfl⟩
    | false =>
      have hoops : ¬ Printable r.toKernelWords r.filp := fun hprints => by
        rw [hprints p hdev] at hp
        cases hp
      simp only [hp, Bool.false_eq_true, if_false]
      exact ⟨_, _, .oops p hoops fun _ _ => rfl, rfl, rfl, rfl⟩

theorem reader_obeys (r : Reader) (s : ReadState) : r.body.Obeys (reading r) (Leaves r s) s := by
  simp only [reading, Reader.body, spiCharRead, spiTransfer, Prog.call_bind, Prog.ret_bind,
    Prog.tries_call, Prog.obeys_ofHandler]
  refine ⟨trivial, fun o => ?_⟩
  rcases Classical.em (∃ p, s.mem.Gives o.transfer p) with ⟨p, hp⟩ | hfail
  · have halloc := Mem.alloc_of_gives hp r.sample 16
    have hback : Function.update s.mem.heap p none = s.mem.heap := Mem.update_none hp.2
    have hsample : ∀ wild : Nat → Byte,
        readAt wild ((List.range 16).map r.sample) 0 (min r.count 16) = answerTo r :=
      fun wild => readAt_prefix wild r.sample (Nat.min_le_right r.count 16)
    simp only [Reader.oracle, readcall, DATA_SIZE, halloc, copyToUserBuf, Prog.call_bind,
      Prog.ret_bind, Prog.tries_call, Prog.obeys_ofHandler]
    refine ⟨⟨by simp, rfl, Nat.le_refl _⟩, fun o' => ?_⟩
    simp only [Mem.load, Mem.bytes, Function.update_self, Option.getD_some, hsample]
    by_cases hcopy : (copyToUser ⟨s.user, r.accessible⟩ r.userBuf (answerTo r)).1 = 0
    · simp only [hcopy, ne_eq, not_true, if_false, kfree, Prog.call_bind, Prog.ret_bind,
        Prog.tries_call, Prog.obeys_ofHandler]
      refine ⟨by simp [Owned], fun _ => ⟨[], sampleLog r p, ends_of_copied p hcopy, ?_, rfl, ?_⟩⟩
      · simp [hback]
      · simp [sampleLog, Reader.stored]
    · simp only [hcopy, ne_eq, not_false_iff, if_true, kfree, Prog.call_bind, Prog.ret_bind,
        Prog.tries_call, Prog.obeys_ofHandler]
      refine ⟨by simp [Owned], fun _ => ⟨[], sampleLog r p, ends_of_fault p hcopy, ?_, rfl, ?_⟩⟩
      · simp [hback]
      · simp [sampleLog, Reader.stored]
  · have halloc := Mem.alloc_of_not_gives (fun p hp => hfail ⟨p, hp⟩) r.sample 16
    simp only [Reader.oracle, readcall, DATA_SIZE, halloc]
    exact noData_obeys r s

theorem Ends.congr {r : Reader} {user user₁ user₂ : Nat → Byte} {ret : Except Oops Int}
    {msgs : List String} {log : List (MemEvent Via)} (h : Ends r user user₁ ret msgs log)
    (heq : ∀ x, r.Fills x → user₂ x = user₁ x) : Ends r user user₂ ret msgs log := by
  have hbuf : ∀ i < r.stored, user₂ (r.userBuf + i) = user₁ (r.userBuf + i) :=
    fun i hi => heq _ ⟨Nat.le_add_right .., Nat.add_lt_add_left hi _⟩
  cases h with
  | stored p hreach hbytes =>
    exact .stored p hreach fun i hi => (hbuf i hi).trans (hbytes i hi)
  | noData hprints hbytes => exact .noData hprints fun i hi => (hbuf i hi).trans (hbytes i hi)
  | oops q hoops hbytes => exact .oops q hoops fun i hi => (hbuf i hi).trans (hbytes i hi)
  | fault p hreach hbytes =>
    refine .fault p hreach fun i hi => ?_
    rw [hbuf i hi]
    exact hbytes i hi

/-- A read makes at most four calls. -/
theorem reader_within (r : Reader) : r.body.Within 4 := by
  simp only [Reader.body, spiCharRead, spiTransfer, Prog.call_bind, Prog.ret_bind,
    Prog.tries_call, Prog.within_succ]
  rintro (_ | _ | p)
  · simp
  · simp only [loadDSb, devGetDrvdata, devErr, Prog.call_bind, Prog.ret_bind, Prog.tries_call,
      Prog.within_succ]
    rintro (_ | sb)
    · simp
    · simp only [Prog.within_succ]
      rintro (_ | dev)
      · simp
      · simp only [Prog.within_succ]
        rintro (_ | _) <;> simp
  · simp only [copyToUserBuf, Prog.call_bind, Prog.ret_bind, Prog.tries_call, Prog.within_succ]
    rintro (_ | left)
    · simp
    · simp only
      split <;>
      · simp only [kfree, Prog.call_bind, Prog.ret_bind, Prog.tries_call, Prog.within_succ]
        rintro (_ | _) <;> simp

/-! ## All readers -/

section

variable {T : Type} [DecidableEq T] {readers : T → Reader}

/-- The pool before the first call. -/
def boot (readers : T → Reader) (heap : Addr → Option (List Byte)) (user : Nat → Byte) :
    Pool T KernelCall (fun c => Except Oops c.Res) ReadState (Except Oops Int) :=
  ⟨⟨⟨heap, []⟩, user, []⟩, fun t => (readers t).body⟩

/-- A reader before its first call: it has no object. -/
def partOf (user : Nat → Byte) : ReadState := ⟨⟨fun _ => none, []⟩, user, []⟩

theorem joint_boot (readers : T → Reader) (heap : Addr → Option (List Byte)) (user : Nat → Byte) :
    Joint readers heap user (fun _ => partOf user) ⟨⟨heap, []⟩, user, []⟩ where
  mem := Mem.parts_empty heap
  live := usesLive_nil
  filled _ _ _ := rfl
  kept _ _ := rfl
  printed := .nil

theorem honours_boot (readers : T → Reader) (heap : Addr → Option (List Byte))
    (user : Nat → Byte) :
    (boot readers heap user).Honours (fun t => reading (readers t)) (Joint readers heap user)
      (fun t => Leaves (readers t) (partOf user)) := by
  refine ⟨fun _ => partOf user, joint_boot readers heap user, fun t => ?_⟩
  exact reader_obeys (readers t) (partOf user)

/-- Any number of readers are in `spi_char_read` at the same time, in any
interleaving of their calls. No sample is used or freed that is not there; a
reader ends after four calls of its own; what is printed and done to the heap is put
together from what the readers do. One that has ended has used and freed the sample that
it got once, and has the start of it, or returned `-EFAULT`; or it has got none, and
returned `-EFAULT` with a message, or, with a bad word in its super block, ended in
`dev_err`. Nobody else's memory is written; and when all have ended, all samples have
been freed. -/
theorem readers_isolated (hapart : Apart readers) (heap : Addr → Option (List Byte))
    (user : Nat → Byte) (acts : List (T × ReadCall)) :
    let s := Run.run (Pool.step (readerCall readers)) (boot readers heap user) acts
    UsesLive s.shared.mem.log ∧
    (∀ t, 4 ≤ acts.countP (fun x => x.1 = t) → ∃ ret, s.rest t = .ret ret) ∧
    (∃ msgs logs, Merge msgs s.shared.printed ∧ Merge logs s.shared.mem.log ∧
      ∀ t ret, s.rest t = .ret ret →
        Ends (readers t) user s.shared.user ret (msgs t) (logs t)) ∧
    (∀ x, (∀ t, ¬ (readers t).Fills x) → s.shared.user x = user x) ∧
    ((∀ t, ∃ ret, s.rest t = .ret ret) → s.shared.mem.heap = heap) := by
  intro s
  obtain ⟨ps, hjoint, hobeys⟩ : s.Honours (fun t => reading (readers t))
      (Joint readers heap user) (fun t => Leaves (readers t) (partOf user)) :=
    Pool.honours_run (sound hapart heap user) (honours_boot readers heap user) acts
  have hleaves : ∀ t ret, s.rest t = .ret ret → Leaves (readers t) (partOf user) ret (ps t) := by
    intro t ret hret
    have ht := hobeys t
    rw [hret] at ht
    exact ht
  refine ⟨hjoint.live, fun t ht => Pool.rest_of_within (reader_within (readers t)) ht,
    ⟨fun t => (ps t).printed, fun t => (ps t).mem.log, hjoint.printed, hjoint.mem.log,
      fun t ret hret => ?_⟩, hjoint.kept, fun hdone => ?_⟩
  · obtain ⟨msgs, log, hends, -, hprinted, hlog⟩ := hleaves t ret hret
    have hmsgs : (ps t).printed = msgs := hprinted.trans (List.append_nil msgs)
    have hmine : (ps t).mem.log = log := hlog.trans (List.append_nil log)
    simp only [hmsgs, hmine]
    exact hends.congr (hjoint.filled t)
  · funext a
    refine hjoint.mem.rest a fun t => ?_
    obtain ⟨ret, hret⟩ := hdone t
    obtain ⟨-, -, -, hheap, -⟩ := hleaves t ret hret
    rw [hheap, partOf]

end

/-- No file has a super block with anything in the place of `driver_data`. -/
def noWords : KernelWords := ⟨fun _ => 0x40, fun _ => none, fun _ => false⟩

/-- Two readers with neighbouring buffers. -/
def pairReaders : Bool → Reader
  | false => ⟨noWords, 0x20, 0x100, 16, fun _ => true, fun _ => 0x2A⟩
  | true => ⟨noWords, 0x21, 0x110, 4, fun _ => true, fun i => .ofNat 8 i⟩

theorem pair_apart : Apart pairReaders := by
  intro t u x ht hu
  cases t <;> cases u <;> simp [Reader.Fills, Reader.stored, pairReaders] at ht hu ⊢ <;> omega

/-- The sample goes to address `p`. -/
def sampleAt (p : Addr) : ReadCall :=
  ⟨noWords, 0, 0, 0, some p, fun _ => 0, fun _ => true, fun _ => 0⟩

/-- Both ask for their sample before the first one is copied. The last turn of each finds
it done. -/
def pairTurns : List (Bool × ReadCall) :=
  [(false, sampleAt 1), (true, sampleAt 2), (true, sampleAt 2), (false, sampleAt 1),
    (false, sampleAt 1), (true, sampleAt 2), (true, sampleAt 2), (false, sampleAt 1)]

theorem two_readers_isolated :
    let s := Run.run (Pool.step (readerCall pairReaders))
      (boot pairReaders (fun _ => none) fun _ => 0) pairTurns
    UsesLive s.shared.mem.log ∧ s.shared.mem.heap = fun _ => none := by
  intro s
  obtain ⟨hlive, hends, -, -, hfreed⟩ :=
    readers_isolated pair_apart (fun _ => none) (fun _ => 0) pairTurns
  exact ⟨hlive, hfreed fun t => hends t (by cases t <;> decide)⟩

end DeviceDrivers.SpiCharRead
