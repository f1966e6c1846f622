import Mathlib.Order.Basic

/-!
# Fallible steps that reach a goal

A step takes an input of the environment and may fail.  If every step from an
invariant either reaches a goal or keeps the invariant and lowers a rank, then
whatever the inputs are, the goal is reached after finitely many steps.
-/

namespace CppRaft.Transition

universe u v w

variable {σ : Type u} {ι : Type v} {ε : Type w}

/-- The state after a number of steps with the inputs in order. -/
def iterate (next : ι → σ → Except ε σ) : (Nat → ι) → σ → Nat → Except ε σ
  | _, state, 0 => .ok state
  | inputs, state, count + 1 =>
      match next (inputs 0) state with
      | .error fault => .error fault
      | .ok target => iterate next (fun position => inputs (position + 1)) target count

theorem iterate_succ_of_ok {next : ι → σ → Except ε σ} {inputs : Nat → ι} {state target : σ}
    (taken : next (inputs 0) state = .ok target) (count : Nat) :
    iterate next inputs state (count + 1) =
      iterate next (fun position => inputs (position + 1)) target count := by
  rw [iterate, taken]

theorem iterate_succ_of_error {next : ι → σ → Except ε σ} {inputs : Nat → ι} {state : σ}
    {fault : ε} (failed : next (inputs 0) state = .error fault) (count : Nat) :
    iterate next inputs state (count + 1) = .error fault := by
  rw [iterate, failed]

/-- The goal is reached after at least one step, through safe states only. -/
def Reaches (next : ι → σ → Except ε σ) (Safe Goal : σ → Prop) (inputs : Nat → ι) (state : σ) :
    Prop :=
  ∃ count target, iterate next inputs state (count + 1) = .ok target ∧ Goal target ∧
    ∀ earlier between, earlier ≤ count →
      iterate next inputs state (earlier + 1) = .ok between → Safe between

theorem Reaches.of_step {next : ι → σ → Except ε σ} {Safe Goal : σ → Prop} {inputs : Nat → ι}
    {state target : σ} (taken : next (inputs 0) state = .ok target) (safe : Safe target)
    (later : Goal target ∨ Reaches next Safe Goal (fun position => inputs (position + 1)) target) :
    Reaches next Safe Goal inputs state := by
  rcases later with goal | ⟨count, final, reached, goal, between⟩
  · refine ⟨0, target, iterate_succ_of_ok taken 0, goal, ?_⟩
    intro earlier state' first here
    rw [Nat.le_zero.mp first, iterate_succ_of_ok taken] at here
    cases here
    exact safe
  · refine ⟨count + 1, final, (iterate_succ_of_ok taken _).trans reached, goal, ?_⟩
    intro earlier state' first here
    rw [iterate_succ_of_ok taken] at here
    cases earlier with
    | zero =>
        cases here
        exact safe
    | succ earlier => exact between earlier state' (Nat.le_of_succ_le_succ first) here

/-- A rank that every step lowers brings every run to the goal. -/
theorem reaches_of_rank {next : ι → σ → Except ε σ} {Safe Goal : σ → Prop} (Inv : σ → Prop)
    (rank : σ → Nat)
    (step : ∀ input state, Inv state → ∃ target, next input state = .ok target ∧ Safe target ∧
      (Goal target ∨ Inv target ∧ rank target < rank state))
    (inputs : Nat → ι) {state : σ} (inv : Inv state) : Reaches next Safe Goal inputs state := by
  induction measure : rank state using Nat.strongRecOn generalizing inputs state with
  | ind bound ih =>
      obtain ⟨target, taken, safe, goal | ⟨inv', lower⟩⟩ := step (inputs 0) state inv
      · exact Reaches.of_step taken safe (Or.inl goal)
      · apply Reaches.of_step taken safe
        apply Or.inr
        exact ih (rank target) (measure ▸ lower) _ inv' rfl

end CppRaft.Transition
