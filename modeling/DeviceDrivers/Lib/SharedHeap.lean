import DeviceDrivers.Lib.Heap
import DeviceDrivers.Lib.Interleave

/-!
# A heap that several threads share

`Parts frame ps m`: the heap `m` is put together from objects that each belong to
one thread, `ps`, and from those of nobody in the pool, `frame`; its log is put
together from the logs of the threads.

What a thread does to an object of its own, or to a free address, it does in the
same way to its part of the heap (`set`, `note`, `alloc`).
-/

namespace DeviceDrivers.Mem

variable {T V : Type} [DecidableEq T]

structure Parts (frame : Addr → Option (List Byte)) (ps : T → Mem V) (m : Mem V) : Prop where
  own : ∀ t a, ((ps t).heap a).isSome → m.heap a = (ps t).heap a
  apart : ∀ t u a, ((ps t).heap a).isSome → ((ps u).heap a).isSome → t = u
  rest : ∀ a, (∀ t, (ps t).heap a = none) → m.heap a = frame a
  clear : ∀ t a, ((ps t).heap a).isSome → frame a = none
  log : Merge (fun t => (ps t).log) m.log

/-- The part of a heap at the addresses of one thread. -/
def restrict (mine : Addr → Prop) [DecidablePred mine] (heap : Addr → Option (List Byte)) :
    Addr → Option (List Byte) :=
  fun a => if mine a then heap a else none

/-- Each address belongs to at most one thread, and nothing was done yet. -/
theorem parts_start {mine : T → Addr → Prop} [∀ t, DecidablePred (mine t)]
    (hmine : ∀ t u a, mine t a → mine u a → t = u) {frame heap : Addr → Option (List Byte)}
    (hframe : ∀ a, (∀ t, ¬ mine t a) → frame a = heap a) (hclear : ∀ t a, mine t a → frame a = none)
    (hlive : ∀ t a, mine t a → (heap a).isSome) :
    Parts frame (fun t => (⟨restrict (mine t) heap, []⟩ : Mem V)) ⟨heap, []⟩ where
  own t a ha := by
    by_cases hta : mine t a
    · simp [restrict, hta]
    · simp [restrict, hta] at ha
  apart t u a ht hu := by
    by_cases hta : mine t a
    · by_cases hua : mine u a
      · exact hmine t u a hta hua
      · simp [restrict, hua] at hu
    · simp [restrict, hta] at ht
  rest a ha := by
    refine (hframe a fun t hta => ?_).symm
    have hnone := ha t
    have hsome := hlive t a hta
    simp only [restrict, if_pos hta] at hnone
    rw [hnone] at hsome
    cases hsome
  clear t a ha := by
    by_cases hta : mine t a
    · exact hclear t a hta
    · simp [restrict, hta] at ha
  log := .nil

/-- Nobody has an object. -/
theorem parts_empty (heap : Addr → Option (List Byte)) :
    Parts heap (fun _ : T => (⟨fun _ => none, []⟩ : Mem V)) ⟨heap, []⟩ where
  own _ _ h := by cases h
  apart _ _ _ h := by cases h
  rest _ _ := rfl
  clear _ _ h := by cases h
  log := .nil

/-- An allocation uses nothing. -/
theorem usesLive_alloc {m : Mem V} (h : UsesLive m.log) (place : Option Addr) (stale : Nat → Byte)
    (n : Nat) : UsesLive (m.alloc place stale n).2.log := by
  rcases Classical.em (∃ p, m.Gives place p) with ⟨p, hp⟩ | hfail
  · rw [alloc_of_gives hp]
    exact (usesLive_cons _ _).mpr ⟨trivial, h⟩
  · rw [alloc_of_not_gives fun p hp => hfail ⟨p, hp⟩]
    exact h

namespace Parts

variable {frame : Addr → Option (List Byte)} {ps : T → Mem V} {m : Mem V}

theorem free_of_free (h : Parts frame ps m) {p : Addr} (hp : m.heap p = none) (t : T) :
    (ps t).heap p = none := by
  cases hq : (ps t).heap p with
  | none => rfl
  | some bs =>
    have hown := h.own t p (by simp [hq])
    rw [hp, hq] at hown
    cases hown

theorem bytes_eq (h : Parts frame ps m) {t : T} {p : Addr} (hp : ((ps t).heap p).isSome) :
    m.bytes p = (ps t).bytes p := by
  simp [h.own t p hp]

/-- A thread adds an entry to the log. -/
theorem note (h : Parts frame ps m) (t : T) (e : MemEvent V) :
    Parts frame (Function.update ps t ⟨(ps t).heap, e :: (ps t).log⟩) ⟨m.heap, e :: m.log⟩ := by
  have hheap : ∀ u, (Function.update ps t ⟨(ps t).heap, e :: (ps t).log⟩ u).heap = (ps u).heap := by
    intro u
    by_cases hu : u = t
    · subst hu
      simp
    · simp [hu]
  refine ⟨fun u a ha => ?_, fun u v a hu hv => ?_, fun a ha => ?_, fun u a ha => ?_, ?_⟩
  · rw [hheap] at ha ⊢
    exact h.own u a ha
  · rw [hheap] at hu hv
    exact h.apart u v a hu hv
  · exact h.rest a fun u => by rw [← hheap u]; exact ha u
  · rw [hheap] at ha
    exact h.clear u a ha
  · refine h.log.cons_of_eq t e (funext fun u => ?_)
    exact Function.apply_update (fun _ => Mem.log) ps t _ u

/-- A thread changes an object of its own, or an address where nothing is. -/
theorem set (h : Parts frame ps m) {t : T} {p : Addr}
    (hp : ((ps t).heap p).isSome ∨ m.heap p = none) (x : Option (List Byte)) (e : MemEvent V) :
    Parts frame
      (Function.update ps t ⟨Function.update (ps t).heap p x, e :: (ps t).log⟩)
      ⟨Function.update m.heap p x, e :: m.log⟩ := by
  -- No other thread has an object at `p`, and neither has the frame.
  have hother : ∀ u, u ≠ t → (ps u).heap p = none := by
    intro u hu
    rcases hp with hown | hfree
    · cases hq : (ps u).heap p with
      | none => rfl
      | some bs => exact absurd (h.apart u t p (by simp [hq]) hown) hu
    · exact h.free_of_free hfree u
  have hframe : frame p = none := by
    rcases hp with hown | hfree
    · exact h.clear t p hown
    · rw [← h.rest p fun u => h.free_of_free hfree u]
      exact hfree
  have hheap : ∀ u a, (Function.update ps t ⟨Function.update (ps t).heap p x, e :: (ps t).log⟩
      u).heap a = if u = t ∧ a = p then x else (ps u).heap a := by
    intro u a
    by_cases hu : u = t
    · subst hu
      by_cases ha : a = p
      · simp [ha]
      · simp [ha]
    · simp [hu]
  refine ⟨fun u a ha => ?_, fun u v a hu hv => ?_, fun a ha => ?_, fun u a ha => ?_, ?_⟩
  · rw [hheap] at ha ⊢
    by_cases hap : a = p
    · subst hap
      by_cases hut : u = t
      · simp [hut]
      · simp [hut, hother u hut] at ha
    · simp only [hap, and_false, if_false] at ha ⊢
      simpa [hap] using h.own u a ha
  · rw [hheap] at hu hv
    by_cases hap : a = p
    · subst hap
      have huse : ∀ w, (if w = t ∧ a = a then x else (ps w).heap a).isSome → w = t := by
        intro w hw
        by_contra hwt
        simp [hwt, hother w hwt] at hw
      rw [huse u hu, huse v hv]
    · simp only [hap, and_false, if_false] at hu hv
      exact h.apart u v a hu hv
  · by_cases hap : a = p
    · subst hap
      have hx := ha t
      rw [hheap] at hx
      simpa [hframe] using hx
    · show Function.update m.heap p x a = frame a
      rw [Function.update_of_ne hap]
      refine h.rest a fun u => ?_
      have hu := ha u
      rw [hheap] at hu
      simpa [hap] using hu
  · rw [hheap] at ha
    by_cases hap : a = p
    · rw [hap]
      exact hframe
    · simp only [hap, and_false, if_false] at ha
      exact h.clear u a ha
  · refine h.log.cons_of_eq t e (funext fun u => ?_)
    exact Function.apply_update (fun _ => Mem.log) ps t _ u

theorem free (h : Parts frame ps m) {t : T} {p : Addr} (hp : ((ps t).heap p).isSome) :
    Parts frame (Function.update ps t ((ps t).free p)) (m.free p) := by
  have hset := h.set (.inl hp) none (.free p ((ps t).heap p).isSome)
  simpa only [Mem.free, h.own t p hp] using hset

theorem touch (h : Parts frame ps m) {t : T} {p : Addr} (hp : ((ps t).heap p).isSome) (v : V)
    (off n : Nat) :
    Parts frame (Function.update ps t ((ps t).touch v p off n)) (m.touch v p off n) := by
  have hnote := h.note t (.use v p off n (((ps t).heap p).map List.length))
  simpa only [Mem.touch, h.own t p hp] using hnote

/-- A write to an object, or any other change of its bytes. -/
theorem change (h : Parts frame ps m) {t : T} {p : Addr} (hp : ((ps t).heap p).isSome) (v : V)
    (off n : Nat) (f : List Byte → List Byte) :
    Parts frame
      (Function.update ps t { (ps t).touch v p off n with
        heap := Function.update (ps t).heap p (((ps t).heap p).map f) })
      { m.touch v p off n with heap := Function.update m.heap p ((m.heap p).map f) } := by
  have hset := h.set (.inl hp) (((ps t).heap p).map f)
    (.use v p off n (((ps t).heap p).map List.length))
  simpa only [Mem.touch, h.own t p hp] using hset

/-- An allocation in the heap is an allocation in the thread's part of it, which
fails also where another thread has an object. -/
theorem alloc (h : Parts frame ps m) (t : T) (place : Option Addr) (stale : Nat → Byte) (n : Nat) :
    ∃ place', ((ps t).alloc place' stale n).1 = (m.alloc place stale n).1 ∧
      Parts frame (Function.update ps t ((ps t).alloc place' stale n).2)
        (m.alloc place stale n).2 := by
  rcases Classical.em (∃ p, m.Gives place p) with ⟨p, hp⟩ | hfail
  · have hfree : (ps t).heap p = none := h.free_of_free hp.2 t
    refine ⟨some p, ?_⟩
    rw [alloc_of_gives hp, alloc_of_free hfree]
    exact ⟨rfl, h.set (.inr hp.2) _ _⟩
  · refine ⟨none, ?_⟩
    rw [alloc_of_not_gives (fun p hp => hfail ⟨p, hp⟩)]
    refine ⟨rfl, ?_⟩
    show Parts frame (Function.update ps t (ps t)) m
    rw [Function.update_eq_self]
    exact h

end Parts

end DeviceDrivers.Mem
