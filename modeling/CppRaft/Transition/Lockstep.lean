import Mathlib.Tactic.Cases

/-!
# Fallible steps side by side

Two computations that may fail are in lockstep when both fail with the same
error, or both succeed with results in a relation.  Computations that are made
of steps in lockstep are so again.
-/

namespace CppRaft.Transition

universe u v w

variable {ε : Type u} {α β : Type v} {γ δ : Type v}

/-- Both succeed with related results, or both fail with the same error. -/
def Lockstep (R : α → β → Prop) : Except ε α → Except ε β → Prop
  | .ok a, .ok b => R a b
  | .error e, .error e' => e = e'
  | .ok _, .error _ => False
  | .error _, .ok _ => False

namespace Lockstep

variable {R : α → β → Prop} {x : Except ε α} {y : Except ε β}

theorem refl (x : Except ε α) : Lockstep Eq x x := by
  cases x with
  | ok a => exact rfl
  | error e => exact rfl

/-- The relation of the results may use what they are results of. -/
theorem mono {R' : α → β → Prop} (implied : ∀ a b, x = .ok a → y = .ok b → R a b → R' a b)
    (steps : Lockstep R x y) : Lockstep R' x y := by
  cases x with
  | ok a =>
      cases y with
      | ok b => exact implied a b rfl rfl steps
      | error e => exact steps
  | error e =>
      cases y with
      | ok b => exact steps
      | error e' => exact steps

theorem eq {x y : Except ε α} (steps : Lockstep Eq x y) : x = y := by
  cases x with
  | ok a =>
      cases y with
      | ok b => exact congrArg Except.ok steps
      | error e => exact steps.elim
  | error e =>
      cases y with
      | ok b => exact steps.elim
      | error e' => exact congrArg Except.error steps

/-- Sequences of steps, where the second ones are in lockstep for the results that
the first ones have. -/
theorem bind {S : γ → δ → Prop} {f : α → Except ε γ} {g : β → Except ε δ}
    (first : Lockstep R x y)
    (later : ∀ a b, x = .ok a → y = .ok b → R a b → Lockstep S (f a) (g b)) :
    Lockstep S (x >>= f) (y >>= g) := by
  cases x with
  | ok a =>
      cases y with
      | ok b => exact later a b rfl rfl first
      | error e => exact first.elim
  | error e =>
      cases y with
      | ok b => exact first.elim
      | error e' => exact first

/-- A step that both share. -/
theorem bind_left {S : γ → δ → Prop} {f : α → Except ε γ} {g : α → Except ε δ}
    (later : ∀ a, x = .ok a → Lockstep S (f a) (g a)) : Lockstep S (x >>= f) (x >>= g) := by
  apply bind (refl x)
  intro a b done _ same
  subst same
  exact later a done

end Lockstep

end CppRaft.Transition
