import Mathlib.Data.List.Basic

/-!
# Runs of a deterministic machine

A machine is a total step function `step : S → A → S`. An action that is not
possible in a state leaves the state as it is, so every list of actions is a
run. Everything a machine does not decide itself (what a call returns, which
number is handed out) is part of the action.

* `run`: the state after a list of actions.
* `Along`: a property of every step that a run takes.
* `inv_run`: an invariant holds at the end of every run.
* `along_of_inv`: an invariant under which a condition on the steps gives a
  property of the steps.
* `along_iff_of_inv`: the same with the converse, for a condition that is exact.
-/

namespace DeviceDrivers.Run

variable {S A : Type} {step : S → A → S}

/-- The state after the actions `acts`, taken from `s` in order. -/
def run (step : S → A → S) (s : S) (acts : List A) : S :=
  acts.foldl step s

/-- `Along step P s acts`: `P` holds of every step of the run, that is of the
state before the step and the action taken there. -/
def Along (step : S → A → S) (P : S → A → Prop) : S → List A → Prop
  | _, [] => True
  | s, a :: acts => P s a ∧ Along step P (step s a) acts

@[simp] theorem run_nil (s : S) : run step s [] = s := rfl

@[simp] theorem run_cons (s : S) (a : A) (acts : List A) :
    run step s (a :: acts) = run step (step s a) acts := rfl

theorem run_append (s : S) (xs ys : List A) :
    run step s (xs ++ ys) = run step (run step s xs) ys :=
  List.foldl_append

@[simp] theorem along_nil (P : S → A → Prop) (s : S) : Along step P s [] := trivial

@[simp] theorem along_cons (P : S → A → Prop) (s : S) (a : A) (acts : List A) :
    Along step P s (a :: acts) ↔ P s a ∧ Along step P (step s a) acts := Iff.rfl

/-- A property of the actions alone holds along a run when it holds of each. -/
theorem along_const {P : A → Prop} {s : S} {acts : List A} :
    Along step (fun _ a => P a) s acts ↔ ∀ a ∈ acts, P a := by
  induction acts generalizing s with
  | nil => simp
  | cons b acts ih => rw [along_cons, ih, List.forall_mem_cons]

/-- An invariant that every step keeps holds at the end of every run. -/
theorem inv_run {I : S → Prop} (hstep : ∀ s a, I s → I (step s a))
    {s : S} (hs : I s) (acts : List A) : I (run step s acts) := by
  induction acts generalizing s with
  | nil => exact hs
  | cons a acts ih => exact ih (hstep s a hs)

/-- If the invariant and the condition `C` on a step give `P` of the step and
the invariant after it, then a run whose steps all meet `C` has `P` all along. -/
theorem along_of_inv {I : S → Prop} {C P : S → A → Prop}
    (hstep : ∀ s a, I s → C s a → P s a ∧ I (step s a))
    {s : S} (hs : I s) {acts : List A} (hC : Along step C s acts) : Along step P s acts := by
  induction acts generalizing s with
  | nil => trivial
  | cons a acts ih =>
    obtain ⟨ha, hrest⟩ := hC
    obtain ⟨hP, hInv⟩ := hstep s a hs ha
    exact ⟨hP, ih hInv hrest⟩

/-- The exact form: if moreover `P` of a step gives `C` of it, then a run has
`P` all along exactly when all its steps meet `C`. -/
theorem along_iff_of_inv {I : S → Prop} {C P : S → A → Prop}
    (hstep : ∀ s a, I s → C s a → P s a ∧ I (step s a))
    (hconv : ∀ s a, I s → P s a → C s a)
    {s : S} (hs : I s) (acts : List A) : Along step P s acts ↔ Along step C s acts := by
  refine ⟨fun hP => ?_, along_of_inv hstep hs⟩
  refine along_of_inv (fun s a hi hp => ?_) hs hP
  have ha : C s a := hconv s a hi hp
  exact ⟨ha, (hstep s a hi ha).2⟩

/-- The unconditional form: every step keeps the invariant and has `P`. -/
theorem along_of_step {I : S → Prop} {P : S → A → Prop}
    (hstep : ∀ s a, I s → P s a ∧ I (step s a))
    {s : S} (hs : I s) (acts : List A) : Along step P s acts := by
  induction acts generalizing s with
  | nil => trivial
  | cons a acts ih => exact ⟨(hstep s a hs).1, ih (hstep s a hs).2⟩

end DeviceDrivers.Run
