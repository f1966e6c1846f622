import Mathlib.Data.List.Basic

/-!
# Lists that grow at their end

A position that has been given once keeps its element.
-/

namespace CppRaft.Transition

universe u

variable {α : Type u} {l r : List α} {k : Nat} {x y : α}

theorem getElem?_append_of_eq_some (found : l[k]? = some x) : (l ++ r)[k]? = some x := by
  rw [List.getElem?_append_left (List.getElem?_eq_some_iff.mp found).1, found]

/-- One more element: a position holds what it held before, or is the new one. -/
theorem getElem?_concat_eq_some :
    (l ++ [y])[k]? = some x ↔ l[k]? = some x ∨ k = l.length ∧ x = y := by
  constructor
  · intro found
    rcases Nat.lt_or_ge k l.length with inside | outside
    · rw [List.getElem?_append_left inside] at found
      exact Or.inl found
    · obtain ⟨within, equal⟩ := List.getElem?_eq_some_iff.mp found
      rw [List.length_append, List.length_singleton] at within
      obtain rfl : k = l.length := by omega
      rw [List.getElem_concat_length rfl] at equal
      exact Or.inr ⟨rfl, equal.symm⟩
  · rintro (found | ⟨rfl, rfl⟩)
    · exact getElem?_append_of_eq_some found
    · exact List.getElem?_concat_length

end CppRaft.Transition
