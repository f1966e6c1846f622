import CppRaft.Transition.Run

/-!
# Runs with their moments

A statement about what held at some earlier moment of a run speaks of the
states that the run has passed.  A `Trace` is a run that keeps them.
-/

namespace CppRaft.Transition

universe u v w

variable {σ : Type u} {α : Type v} {ε : Type w} {next : Step σ α ε} {guard : σ → α → Prop}
  {start state : σ} {events : List ε} {moments : List σ}

/-- A run with the list of the states that it passes, from the start to the
present one. -/
inductive Trace (next : Step σ α ε) (guard : σ → α → Prop) (start : σ) :
    List ε → List σ → σ → Prop
  | nil : Trace next guard start [] [start] start
  | snoc {events : List ε} {moments : List σ} {state : σ} {action : α} {target : σ}
      {emitted : List ε} :
      Trace next guard start events moments state → guard state action →
      next state action = some (target, emitted) →
      Trace next guard start (events ++ emitted) (moments ++ [target]) target

theorem Trace.run (trace : Trace next guard start events moments state) :
    Run next guard start events state := by
  induction trace with
  | nil => exact Run.nil
  | snoc _ accepted taken ih => exact Run.snoc ih accepted taken

/-- Every run passes some states. -/
theorem Run.exists_trace (run : Run next guard start events state) :
    ∃ moments, Trace next guard start events moments state := by
  induction run with
  | nil => exact ⟨[start], Trace.nil⟩
  | snoc _ accepted taken ih =>
      obtain ⟨moments, trace⟩ := ih
      exact ⟨_, Trace.snoc trace accepted taken⟩

theorem Trace.state_mem (trace : Trace next guard start events moments state) :
    state ∈ moments := by
  cases trace with
  | nil => exact List.mem_singleton_self _
  | snoc => simp

end CppRaft.Transition
