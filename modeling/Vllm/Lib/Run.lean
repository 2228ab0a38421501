import Mathlib

/-! Runs of a deterministic system whose steps can fail. A run ends at its first
failure, so an invariant of the states reached is an invariant of runs that
succeed, and every prefix of a run is a run. -/
namespace Vllm.Run
variable {S Op E : Type} (exec : S → Op → Except E S)

def run : S → List Op → Except E S
  | state, [] => .ok state
  | state, op :: ops =>
    match exec state op with
    | .error e => .error e
    | .ok next => run next ops

/-- Every operation of the run meets the condition in the state it starts from. -/
def AllSteps (Allowed : S → Op → Prop) : S → List Op → Prop
  | _, [] => True
  | state, op :: ops => Allowed state op ∧ ∀ next, exec state op = .ok next → AllSteps Allowed next ops

variable {exec}

section
variable (Inv : S → Prop) {Allowed : S → Op → Prop} {state : S} {ops : List Op}
  (step : ∀ {state op next}, Inv state → Allowed state op → exec state op = .ok next → Inv next)
  (start : Inv state) (allowed : AllSteps exec Allowed state ops)
include step start allowed

/-- What one allowed step keeps, every allowed run keeps. -/
theorem run_invariant (ran : run exec state ops = .ok reached) : Inv reached := by
  induction ops generalizing state with
  | nil =>
    cases ran
    exact start
  | cons op ops ih =>
    obtain ⟨now, later⟩ := allowed
    cases stepped : exec state op with
    | error e =>
      rw [run, stepped] at ran
      cases ran
    | ok next =>
      rw [run, stepped] at ran
      exact ih (step start now stepped) (later next stepped) ran

/-- A run that fails does so in a state with the invariant. -/
theorem run_error (failed : run exec state ops = .error e) :
    ∃ now op, Inv now ∧ Allowed now op ∧ exec now op = .error e := by
  induction ops generalizing state with
  | nil => cases failed
  | cons op ops ih =>
    obtain ⟨now, later⟩ := allowed
    cases stepped : exec state op with
    | error e =>
      rw [run, stepped] at failed
      cases failed
      exact ⟨state, op, start, now, stepped⟩
    | ok next =>
      rw [run, stepped] at failed
      exact ih (step start now stepped) (later next stepped) failed

end

instance decidableAllSteps {Allowed : S → Op → Prop} [∀ state op, Decidable (Allowed state op)] :
    ∀ state ops, Decidable (AllSteps exec Allowed state ops)
  | _, [] => .isTrue trivial
  | state, op :: ops =>
    match stepped : exec state op with
    | .error _ => decidable_of_iff (Allowed state op) (by simp [AllSteps, stepped])
    | .ok next =>
      have : Decidable (AllSteps exec Allowed next ops) := decidableAllSteps next ops
      decidable_of_iff (Allowed state op ∧ AllSteps exec Allowed next ops)
        (by simp [AllSteps, stepped])

/-- A condition on the operations alone holds at each step. -/
theorem allSteps_of_forall (state : S) (all : ∀ op ∈ ops, ∀ state, Allowed state op) :
    AllSteps exec Allowed state ops := by
  induction ops generalizing state with
  | nil => trivial
  | cons op ops ih =>
    refine ⟨all op (List.mem_cons_self ..) state, ?_⟩
    intro next _
    exact ih next (fun other mem => all other (List.mem_cons_of_mem _ mem))

end Vllm.Run
