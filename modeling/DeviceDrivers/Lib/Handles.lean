import DeviceDrivers.Lib.Interleave

/-!
# Handles that a body opens and closes

A call can hand out a handle, need some that are open, and close one. `holding` is the
contract of a body that uses only what it has open.

* `HandleOps.Path`: a list of calls with their answers in which every handle is open
  where it is needed.
* `path_of_obeys`: the calls of a body that keeps to the contract are such a list,
  whatever the calls do.
* `Path.perm`: what is closed and what is left are together what was opened.
* `misused`: the calls of any body that need or close what is not open. A body is followed
  through them by `tracking` (`ends_of_obeys`).
-/

namespace DeviceDrivers

variable {C : Type} {R : C → Type} {H S α : Type}

/-- The calls and answers of a run, the first one first. -/
def Prog.trace (h : (c : C) → S → R c × S) : Prog C R α → S → List ((c : C) × R c)
  | ret _, _ => []
  | call c k, s => ⟨c, (h c s).1⟩ :: trace h (k (h c s).1) (h c s).2

/-- What the calls do with handles, and what they are documented to answer. -/
structure HandleOps (C : Type) (R : C → Type) (H : Type) where
  needs : C → List H
  closes : C → Option H
  opens : (c : C) → R c → Option H
  answers : (c : C) → R c → Prop

namespace HandleOps

variable [DecidableEq H] (ops : HandleOps C R H)

/-- The handles that are open after a call. -/
def next (c : C) (r : R c) (held : List H) : List H :=
  (ops.opens c r).toList ++
    match ops.closes c with
    | none => held
    | some h => held.erase h

omit [DecidableEq H] in
/-- All that a call needs or closes is open. -/
def May (c : C) (held : List H) : Prop :=
  (∀ h ∈ ops.needs c, h ∈ held) ∧ ∀ h ∈ ops.closes c, h ∈ held

instance (c : C) (held : List H) : Decidable (ops.May c held) := by
  unfold May; infer_instance

omit [DecidableEq H] in
variable {ops} in
theorem May.free {c : C} {held : List H} (hneeds : ops.needs c = [])
    (hcloses : ops.closes c = none) : ops.May c held := by
  constructor
  · rw [hneeds]
    exact nofun
  · rw [hcloses]
    exact nofun

omit [DecidableEq H] in
variable {ops} in
theorem May.needing {c : C} {held : List H} {h : H} (hneeds : ops.needs c = [h])
    (hcloses : ops.closes c = none) (hmem : h ∈ held) : ops.May c held := by
  constructor
  · rw [hneeds]
    exact List.forall_mem_singleton.mpr hmem
  · rw [hcloses]
    exact nofun

def holding : Contract C R (List H) where
  may := ops.May
  gets c held r held' := ops.answers c r ∧ held' = ops.next c r held

/-- From the open handles `held` on, the calls use only open ones, and leave
`held'`. -/
inductive Path : List H → List ((c : C) × R c) → List H → Prop
  | nil (held : List H) : Path held [] held
  | cons {held held' : List H} {c : C} {r : R c} {calls : List ((c : C) × R c)}
      (hmay : ops.May c held) (h : Path (ops.next c r held) calls held') :
      Path held (⟨c, r⟩ :: calls) held'

variable {ops}

theorem obeys_call {Q : α → List H → Prop} {c : C} {k : R c → Prog C R α} {held : List H} :
    (Prog.call c k).Obeys ops.holding Q held ↔
      ops.May c held ∧ ∀ r, ops.answers c r → (k r).Obeys ops.holding Q (ops.next c r held) :=
  and_congr_right fun _ =>
    ⟨fun h r hr => h r _ ⟨hr, rfl⟩, fun h r _ ⟨hr, heq⟩ => heq ▸ h r hr⟩

theorem obeys_call_bind {Q : α → List H → Prop} {c : C} {f : R c → Prog C R α} {held : List H} :
    ((Prog.call c .ret : Prog C R (R c)) >>= f).Obeys ops.holding Q held ↔
      ops.May c held ∧ ∀ r, ops.answers c r → (f r).Obeys ops.holding Q (ops.next c r held) :=
  obeys_call

theorem path_of_obeys {Q : α → List H → Prop} {body : Prog C R α} {held : List H}
    (hbody : body.Obeys ops.holding Q held) {h : (c : C) → S → R c × S}
    (hanswers : ∀ c s, ops.answers c (h c s).1) (s : S) :
    ∃ held', ops.Path held (body.trace h s) held' ∧ Q (body.exec h s).1 held' := by
  induction body generalizing held s with
  | ret a => exact ⟨held, .nil held, hbody⟩
  | call c k ih =>
    obtain ⟨hmay, hrest⟩ := hbody
    obtain ⟨held', hpath, hQ⟩ := ih _ (hrest _ _ ⟨hanswers c s, rfl⟩) (h c s).2
    exact ⟨held', .cons hmay hpath, hQ⟩

variable (ops) in
def opened (calls : List ((c : C) × R c)) : List H := calls.filterMap fun e => ops.opens e.1 e.2

omit [DecidableEq H] in
variable (ops) in
def closed (calls : List ((c : C) × R c)) : List H := calls.filterMap fun e => ops.closes e.1

/-- Each handle is closed as often as it was opened, but for those that are left. -/
theorem Path.perm {held held' : List H} {calls : List ((c : C) × R c)}
    (h : ops.Path held calls held') :
    (ops.closed calls ++ held').Perm (ops.opened calls ++ held) := by
  induction h with
  | nil held => exact List.Perm.refl held
  | @cons held held' c r calls hmay _ ih =>
    have hopened : ops.opened (⟨c, r⟩ :: calls) = (ops.opens c r).toList ++ ops.opened calls := by
      simp only [opened, List.filterMap_cons]
      cases ops.opens c r <;> rfl
    have hclosed : ops.closed (⟨c, r⟩ :: calls) = (ops.closes c).toList ++ ops.closed calls := by
      simp only [closed, List.filterMap_cons]
      cases ops.closes c <;> rfl
    have hheld : ((ops.closes c).toList ++ (match ops.closes c with
        | none => held
        | some h => held.erase h)).Perm held := by
      cases hcl : ops.closes c with
      | none => exact List.Perm.refl held
      | some h => exact (List.perm_cons_erase (hmay.2 h hcl)).symm
    rw [hopened, hclosed, List.perm_iff_count]
    intro x
    have hrest := ih.count_eq x
    have hx := hheld.count_eq x
    simp only [next, List.count_append] at hrest hx ⊢
    omega

variable (ops) in
/-- In every run the body uses only handles that are open, and leaves open what `Left`
allows for its answer. -/
def Leaves (Left : α → List H → Prop) (body : Prog C R α) : Prop :=
  ∀ {S : Type} (h : (c : C) → S → R c × S), (∀ c s, ops.answers c (h c s).1) → ∀ s,
    ∃ held, ops.Path [] (body.trace h s) held ∧ Left (body.exec h s).1 held ∧
      (ops.closed (body.trace h s) ++ held).Perm (ops.opened (body.trace h s))

theorem leaves_of_obeys {Left : α → List H → Prop} {body : Prog C R α}
    (hbody : body.Obeys ops.holding Left []) : ops.Leaves Left body := by
  intro S h hanswers s
  obtain ⟨held, hpath, hleft⟩ := path_of_obeys hbody hanswers s
  have hperm := hpath.perm
  rw [List.append_nil] at hperm
  exact ⟨held, hpath, hleft, hperm⟩

/-! ## Bodies that misuse their handles -/

variable (ops)

/-- The calls that need or close what is not open, the first one first. -/
def misused (held : List H) : List ((c : C) × R c) → List C
  | [] => []
  | ⟨c, r⟩ :: calls =>
    (if ops.May c held then [] else [c]) ++ misused (ops.next c r held) calls

/-- What is open after the calls. -/
def leftOpen (held : List H) : List ((c : C) × R c) → List H
  | [] => held
  | ⟨c, r⟩ :: calls => leftOpen (ops.next c r held) calls

/-- Any call can be made. The part is what is open, and what was misused so far. -/
def tracking : Contract C R (List H × List C) where
  may _ _ := True
  gets c p r p' := ops.answers c r ∧
    p' = (ops.next c r p.1, p.2 ++ if ops.May c p.1 then [] else [c])

variable {ops}

theorem tracks_call {Q : α → List H × List C → Prop} {c : C} {k : R c → Prog C R α}
    {held : List H} {bad : List C} :
    (Prog.call c k).Obeys ops.tracking Q (held, bad) ↔
      ∀ r, ops.answers c r → (k r).Obeys ops.tracking Q
        (ops.next c r held, bad ++ if ops.May c held then [] else [c]) := by
  constructor
  · exact fun h r hr => h.2 r _ ⟨hr, rfl⟩
  · exact fun h => ⟨trivial, fun r p' ⟨hr, heq⟩ => heq ▸ h r hr⟩

/-- A call that uses what is open. -/
theorem tracks_of_may {Q : α → List H × List C → Prop} {c : C} {f : R c → Prog C R α}
    {held : List H} {bad : List C} (hmay : ops.May c held)
    (h : ∀ r, ops.answers c r → (f r).Obeys ops.tracking Q (ops.next c r held, bad)) :
    ((Prog.call c .ret : Prog C R (R c)) >>= f).Obeys ops.tracking Q (held, bad) := by
  refine tracks_call.mpr fun r hr => ?_
  rw [if_pos hmay, List.append_nil]
  exact h r hr

/-- A call that uses what is not open. -/
theorem tracks_of_not_may {Q : α → List H × List C → Prop} {c : C} {f : R c → Prog C R α}
    {held : List H} {bad : List C} (hnot : ¬ ops.May c held)
    (h : ∀ r, ops.answers c r → (f r).Obeys ops.tracking Q (ops.next c r held, bad ++ [c])) :
    ((Prog.call c .ret : Prog C R (R c)) >>= f).Obeys ops.tracking Q (held, bad) := by
  refine tracks_call.mpr fun r hr => ?_
  rw [if_neg hnot]
  exact h r hr

theorem tracked_of_obeys {Q : α → List H × List C → Prop} {body : Prog C R α} {held : List H}
    {bad : List C} (hbody : body.Obeys ops.tracking Q (held, bad)) {h : (c : C) → S → R c × S}
    (hanswers : ∀ c s, ops.answers c (h c s).1) (s : S) :
    Q (body.exec h s).1
      (ops.leftOpen held (body.trace h s), bad ++ ops.misused held (body.trace h s)) := by
  induction body generalizing held bad s with
  | ret a => simpa [Prog.trace, leftOpen, misused] using hbody
  | call c k ih =>
    have hrest := ih _ (hbody.2 _ _ ⟨hanswers c s, rfl⟩) (h c s).2
    rw [List.append_assoc] at hrest
    exact hrest

/-- What no call closes is left open exactly when it was opened. -/
theorem mem_leftOpen_iff {x : H} (hnever : ∀ c, ops.closes c ≠ some x) (held : List H)
    (calls : List ((c : C) × R c)) :
    x ∈ ops.leftOpen held calls ↔ x ∈ ops.opened calls ∨ x ∈ held := by
  induction calls generalizing held with
  | nil => simp [leftOpen, opened]
  | cons call calls ih =>
    obtain ⟨c, r⟩ := call
    have hnext : x ∈ ops.next c r held ↔ ops.opens c r = some x ∨ x ∈ held := by
      have hkept := hnever c
      cases hcl : ops.closes c with
      | none => simp [next, hcl]
      | some y =>
        have hne : x ≠ y := fun heq => hkept (hcl.trans (congrArg some heq.symm))
        simp [next, hcl, List.mem_erase_of_ne hne]
    have hopened : x ∈ ops.opened (⟨c, r⟩ :: calls) ↔
        ops.opens c r = some x ∨ x ∈ ops.opened calls := by
      cases ho : ops.opens c r <;> simp [opened, ho, eq_comm]
    rw [leftOpen, ih, hnext, hopened, or_left_comm, or_assoc]

variable (ops) in
/-- In every run `End` holds of the answer of the body, of what it opened, of what is left
open, and of the calls that misuse a handle. -/
def Ends (End : α → List H → List H → List C → Prop) (body : Prog C R α) : Prop :=
  ∀ {S : Type} (h : (c : C) → S → R c × S), (∀ c s, ops.answers c (h c s).1) → ∀ s,
    End (body.exec h s).1 (ops.opened (body.trace h s)) (ops.leftOpen [] (body.trace h s))
      (ops.misused [] (body.trace h s))

theorem ends_of_obeys {End : α → List H → List C → Prop} {body : Prog C R α}
    (hbody : body.Obeys ops.tracking (fun r p => End r p.1 p.2) ([], [])) :
    ops.Ends (fun r got left bad => End r left bad ∧
      ∀ x, (∀ c, ops.closes c ≠ some x) → (x ∈ left ↔ x ∈ got)) body := by
  intro S h hanswers s
  refine ⟨tracked_of_obeys hbody hanswers s, fun x hnever => ?_⟩
  rw [mem_leftOpen_iff hnever, or_iff_left List.not_mem_nil]

end HandleOps

end DeviceDrivers
