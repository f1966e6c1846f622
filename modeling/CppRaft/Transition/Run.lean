import Mathlib.Data.List.Infix

/-!
# Guarded runs of an executable transition function

A system is given by a partial step function: an action either is not enabled
or yields the next state together with the events that the step emits.  A run
collects the events of its steps, so that a property of the whole history is a
property of the collected list.  Runs carry a guard on their steps; the guard
`anyStep` accepts every step.
-/

namespace CppRaft.Transition

universe u v w

variable {σ : Type u} {α : Type v} {ε : Type w}

/-- A partial step function with emitted events. -/
abbrev Step (σ : Type u) (α : Type v) (ε : Type w) :=
  σ → α → Option (σ × List ε)

/-- The guard that accepts every step. -/
def anyStep : σ → α → Prop :=
  fun _ _ => True

/-- `Run next guard start events state` holds when a sequence of enabled steps,
each accepted by `guard`, leads from `start` to `state` and emits `events`. -/
inductive Run (next : Step σ α ε) (guard : σ → α → Prop) (start : σ) :
    List ε → σ → Prop
  | nil : Run next guard start [] start
  | snoc {events : List ε} {state : σ} {action : α} {target : σ} {emitted : List ε} :
      Run next guard start events state → guard state action →
      next state action = some (target, emitted) →
      Run next guard start (events ++ emitted) target

/-- A run for a guard is one for every weaker guard. -/
theorem Run.mono {next : Step σ α ε} {guard weaker : σ → α → Prop}
    (implied : ∀ state action, guard state action → weaker state action) {start state : σ}
    {events : List ε} (run : Run next guard start events state) :
    Run next weaker start events state := by
  induction run with
  | nil => exact Run.nil
  | snoc _ accepted taken ih => exact Run.snoc ih (implied _ _ accepted) taken

/-- Two step functions that agree on the accepted steps have the same runs. -/
theorem Run.congr_next {next next' : Step σ α ε} {guard : σ → α → Prop}
    (same : ∀ state action, guard state action → next state action = next' state action)
    {start state : σ} {events : List ε} :
    Run next guard start events state ↔ Run next' guard start events state := by
  constructor
  · intro run
    induction run with
    | nil => exact Run.nil
    | snoc _ accepted taken ih => exact Run.snoc ih accepted (same _ _ accepted ▸ taken)
  · intro run
    induction run with
    | nil => exact Run.nil
    | snoc _ accepted taken ih => exact Run.snoc ih accepted (same _ _ accepted ▸ taken)

/-- A run that goes on from the end of another one. -/
theorem Run.append {next : Step σ α ε} {guard : σ → α → Prop} {start middle state : σ}
    {events more : List ε} (run : Run next guard start events middle)
    (later : Run next guard middle more state) : Run next guard start (events ++ more) state := by
  induction later with
  | nil =>
      rw [List.append_nil]
      exact run
  | snoc _ accepted taken ih =>
      rw [← List.append_assoc]
      exact Run.snoc ih accepted taken

/-- An invariant of the history and the state that holds at the start and is
preserved by every accepted step holds along every run. -/
theorem Run.invariant {next : Step σ α ε} {guard : σ → α → Prop} {start : σ}
    {Inv : List ε → σ → Prop} (initial : Inv [] start)
    (preserved : ∀ events state action target emitted, Inv events state →
      guard state action → next state action = some (target, emitted) →
      Inv (events ++ emitted) target)
    {events : List ε} {state : σ} (run : Run next guard start events state) :
    Inv events state := by
  induction run with
  | nil => exact initial
  | snoc _ accepted taken ih => exact preserved _ _ _ _ _ ih accepted taken

instance (state : σ) (action : α) : Decidable (anyStep state action) :=
  isTrue trivial

/-- Execute a list of actions, failing at the first one that is not enabled or
not accepted. -/
def exec (next : Step σ α ε) (guard : σ → α → Prop) [∀ s a, Decidable (guard s a)] :
    σ → List α → Option (σ × List ε)
  | state, [] => some (state, [])
  | state, action :: rest =>
      if guard state action then
        match next state action with
        | none => none
        | some (target, emitted) =>
            (exec next guard target rest).map fun result => (result.1, emitted ++ result.2)
      else none

/-- An executed list of actions is a run. -/
theorem run_of_exec {next : Step σ α ε} {guard : σ → α → Prop} [∀ s a, Decidable (guard s a)]
    {actions : List α} {state target : σ} {events emitted : List ε} {start : σ}
    (run : Run next guard start events state)
    (executed : exec next guard state actions = some (target, emitted)) :
    Run next guard start (events ++ emitted) target := by
  induction actions generalizing state events emitted with
  | nil =>
      simp only [exec, Option.some.injEq, Prod.mk.injEq] at executed
      obtain ⟨rfl, rfl⟩ := executed
      simpa using run
  | cons action rest ih =>
      by_cases accepted : guard state action
      · cases taken : next state action with
        | none => simp [exec, accepted, taken] at executed
        | some result =>
            obtain ⟨middle, first⟩ := result
            simp only [exec, accepted, taken, if_true, Option.map_eq_some_iff,
              Prod.mk.injEq] at executed
            obtain ⟨⟨final, later⟩, restExecuted, rfl, rfl⟩ := executed
            rw [← List.append_assoc]
            exact ih (Run.snoc run accepted taken) restExecuted
      · simp [exec, accepted] at executed

/-- A list of actions whose execution passes a check gives a run that does. -/
theorem exists_run_of_exec (next : Step σ α ε) (guard : σ → α → Prop)
    [∀ s a, Decidable (guard s a)] (start : σ) (actions : List α) (check : σ × List ε → Bool)
    (passed : (exec next guard start actions).any check = true) :
    ∃ events state, Run next guard start events state ∧ check (state, events) = true := by
  rw [Option.any_eq_true] at passed
  obtain ⟨⟨state, events⟩, executed, checked⟩ := passed
  have run := run_of_exec Run.nil executed
  rw [List.nil_append] at run
  exact ⟨events, state, run, checked⟩

end CppRaft.Transition
