import CppRaft.Transition.Run

/-!
# States that can follow a state

Whatever has happened, a choice of further steps leads to a goal: a state can
be reached if some run goes there, and a rank that some run lowers, again and
again, leads to the goal.
-/

namespace CppRaft.Transition

universe u v w x

variable {σ : Type u} {α : Type v} {ε : Type w}

/-- Some run leads from `state` to `target`. -/
def CanReach (next : Step σ α ε) (guard : σ → α → Prop) (state target : σ) : Prop :=
  ∃ events, Run next guard state events target

variable {next : Step σ α ε} {guard : σ → α → Prop} {state middle target : σ}

theorem CanReach.refl (state : σ) : CanReach next guard state state :=
  ⟨[], Run.nil⟩

theorem CanReach.trans (first : CanReach next guard state middle)
    (second : CanReach next guard middle target) : CanReach next guard state target := by
  obtain ⟨events, run⟩ := first
  obtain ⟨more, later⟩ := second
  exact ⟨events ++ more, run.append later⟩

theorem CanReach.of_step {action : α} {emitted : List ε} (accepted : guard state action)
    (taken : next state action = some (target, emitted)) : CanReach next guard state target :=
  ⟨[] ++ emitted, Run.snoc Run.nil accepted taken⟩

theorem CanReach.mono {weaker : σ → α → Prop}
    (implied : ∀ state action, guard state action → weaker state action)
    (reached : CanReach next guard state target) : CanReach next weaker state target := by
  obtain ⟨events, run⟩ := reached
  exact ⟨events, run.mono implied⟩

/-- If some run from every state of the invariant comes to the goal or closer to
it, some run comes to the goal.  What is left to do is `a`, of size `rank a`. -/
theorem exists_canReach_of_rank {ι : Type x} {Goal : σ → Prop} (Inv : ι → σ → Prop)
    (rank : ι → Nat)
    (closer : ∀ a state, Inv a state → ∃ target, CanReach next guard state target ∧
      (Goal target ∨ ∃ a', Inv a' target ∧ rank a' < rank a))
    {a : ι} (inv : Inv a state) : ∃ target, CanReach next guard state target ∧ Goal target := by
  induction measure : rank a using Nat.strongRecOn generalizing a state with
  | ind bound ih =>
      obtain ⟨middle, first, goal | ⟨a', inv', lower⟩⟩ := closer a state inv
      · exact ⟨middle, first, goal⟩
      · obtain ⟨target, later, goal⟩ := ih (rank a') (measure ▸ lower) inv' rfl
        exact ⟨target, first.trans later, goal⟩

end CppRaft.Transition
