import Mathlib.Data.List.Basic

/-!
# The total weight of a list

Every element has a weight, and an update of the list changes the total by the
weights of the elements that it touches.
-/

namespace CppRaft.Container

universe u

variable {α : Type u} {l : List α} {i : Nat} {x : α}

/-- The weights of all elements together. -/
def total (weight : α → Nat) : List α → Nat
  | [] => 0
  | x :: l => weight x + total weight l

theorem total_append (weight : α → Nat) (l r : List α) :
    total weight (l ++ r) = total weight l + total weight r := by
  induction l with
  | nil => simp [total]
  | cons x l ih =>
      simp only [List.cons_append, total, ih]
      omega

theorem total_singleton (weight : α → Nat) (x : α) : total weight [x] = weight x :=
  rfl

theorem total_eq_zero {weight : α → Nat} (weightless : ∀ x ∈ l, weight x = 0) :
    total weight l = 0 := by
  induction l with
  | nil => rfl
  | cons x l ih =>
      rw [total, weightless x List.mem_cons_self, ih fun y member =>
        weightless y (List.mem_cons_of_mem x member)]

theorem total_mono {weight weight' : α → Nat} (heavier : ∀ x, weight x ≤ weight' x) (l : List α) :
    total weight l ≤ total weight' l := by
  induction l with
  | nil => exact Nat.le_refl _
  | cons x l ih => exact Nat.add_le_add (heavier x) ih

/-- One element is replaced. -/
theorem total_set (weight : α → Nat) (found : l[i]? = some x) (y : α) :
    total weight (l.set i y) + weight x = total weight l + weight y := by
  induction l generalizing i with
  | nil => simp at found
  | cons first rest ih =>
      cases i with
      | zero =>
          rw [List.getElem?_cons_zero, Option.some.injEq] at found
          subst found
          simp only [List.set_cons_zero, total]
          omega
      | succ k =>
          rw [List.getElem?_cons_succ] at found
          have rest := ih found
          simp only [List.set_cons_succ, total]
          omega

/-- One element is removed. -/
theorem total_eraseIdx (weight : α → Nat) (found : l[i]? = some x) :
    total weight (l.eraseIdx i) + weight x = total weight l := by
  induction l generalizing i with
  | nil => simp at found
  | cons first rest ih =>
      cases i with
      | zero =>
          rw [List.getElem?_cons_zero, Option.some.injEq] at found
          subst found
          simp only [List.eraseIdx_cons_zero, total]
          omega
      | succ k =>
          rw [List.getElem?_cons_succ] at found
          have rest := ih found
          simp only [List.eraseIdx_cons_succ, total]
          omega

theorem weight_le_total (weight : α → Nat) (found : l[i]? = some x) :
    weight x ≤ total weight l := by
  have := total_eraseIdx weight found
  omega

end CppRaft.Container
