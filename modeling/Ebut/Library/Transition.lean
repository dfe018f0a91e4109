import Mathlib.Data.List.Basic

/-!
# Runs of a Transition System

A system that answers each action with a next state, and the runs over lists of
actions. A condition can be asked of every step that a run takes; an invariant
that each step keeps under the condition then holds where the run ends.

## Main definitions

* `run`: The state after a list of actions.
* `Along`: A condition on each state and the action taken from it.
* `watched`: The system with a record beside its state.

## Theorems

* `run_append`: A run goes on where another has ended.
* `Along.imp`: A weaker condition.
* `along_append`: A run in two parts.
* `along_of_forall`: A condition on the actions alone.
* `run_invariant`: An invariant kept under a condition.
* `along_of_invariant`: A condition that an invariant implies.
* `run_of_invariant`: An invariant kept without a condition.
* `run_watched`: A record changes nothing of the run.
-/

namespace Transition

variable {S A : Type} (step : S → A → S)

/-- The state after the actions, oldest first. -/
def run : S → List A → S
  | state, [] => state
  | state, action :: actions => run (step state action) actions

/-- Every step of the run is taken where the condition holds. -/
def Along (holds : S → A → Prop) : S → List A → Prop
  | _, [] => True
  | state, action :: actions =>
      holds state action ∧ Along holds (step state action) actions

/-- The system with a record beside its state, which no step reads. -/
def watched {R : Type} (note : S → R → A → R) : S × R → A → S × R :=
  fun state action => (step state.1 action, note state.1 state.2 action)

instance (holds : S → A → Prop) [∀ state action, Decidable (holds state action)] :
    ∀ (state : S) (actions : List A), Decidable (Along step holds state actions)
  | _, [] => isTrue trivial
  | state, action :: actions =>
      haveI := instDecidableAlong holds (step state action) actions
      inferInstanceAs (Decidable (_ ∧ _))

variable {step}

/-- A run goes on where another has ended. -/
theorem run_append {state : S} {actions later : List A} :
    run step state (actions ++ later) = run step (run step state actions) later := by
  induction actions generalizing state with
  | nil => rfl
  | cons action actions ih => exact ih

theorem Along.imp {H K : S → A → Prop} (himp : ∀ state action, H state action → K state action)
    {state : S} {actions : List A} (h : Along step H state actions) :
    Along step K state actions := by
  induction actions generalizing state with
  | nil => trivial
  | cons action actions ih => exact ⟨himp state action h.1, ih h.2⟩

/-- A run in two parts. -/
theorem along_append {H : S → A → Prop} {state : S} {actions later : List A} :
    Along step H state (actions ++ later) ↔
      Along step H state actions ∧ Along step H (run step state actions) later := by
  induction actions generalizing state with
  | nil => exact ⟨fun h => ⟨trivial, h⟩, fun h => h.2⟩
  | cons action actions ih => exact (and_congr_right' ih).trans and_assoc.symm

/-- A condition on the actions alone. -/
theorem along_of_forall {H : A → Prop} {state : S} {actions : List A}
    (h : ∀ action ∈ actions, H action) : Along step (fun _ action => H action) state actions := by
  induction actions generalizing state with
  | nil => trivial
  | cons action actions ih =>
      rw [List.forall_mem_cons] at h
      exact ⟨h.1, ih h.2⟩

/-- An invariant that each step keeps where the condition holds. -/
theorem run_invariant {I : S → Prop} {H : S → A → Prop}
    (hstep : ∀ state action, I state → H state action → I (step state action))
    {state : S} {actions : List A} (hinv : I state) (hrun : Along step H state actions) :
    I (run step state actions) := by
  induction actions generalizing state with
  | nil => exact hinv
  | cons action actions ih => exact ih (hstep state action hinv hrun.1) hrun.2

/-- A condition that an invariant of the system implies holds along every run. -/
theorem along_of_invariant {I : S → Prop} {H : S → A → Prop}
    (hstep : ∀ state action, I state → I (step state action))
    (hholds : ∀ state action, I state → H state action)
    {state : S} (actions : List A) (hinv : I state) : Along step H state actions := by
  induction actions generalizing state with
  | nil => trivial
  | cons action actions ih => exact ⟨hholds state action hinv, ih (hstep state action hinv)⟩

/-- An invariant that every step keeps. -/
theorem run_of_invariant {I : S → Prop} (hstep : ∀ state action, I state → I (step state action))
    {state : S} (actions : List A) (hinv : I state) : I (run step state actions) :=
  run_invariant (H := fun _ _ => True) (fun state action h _ => hstep state action h) hinv
    (along_of_invariant hstep (fun _ _ _ => trivial) actions hinv)

/-- The record changes nothing of the run that it is kept of. -/
theorem run_watched {R : Type} (note : S → R → A → R) (state : S × R) (actions : List A) :
    (run (watched step note) state actions).1 = run step state.1 actions := by
  induction actions generalizing state with
  | nil => rfl
  | cons action actions ih => exact ih (watched step note state action)

end Transition
