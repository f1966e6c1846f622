import Mathlib.Data.Fintype.Card
import Mathlib.Data.List.Induction
import Mathlib.Data.List.Infix

/-!
# Stamped logs and majorities

A log is a list of entries that each carry the term in which they were made.
This file has the order on logs that an election compares, the prefix facts
that log arguments use, and the intersection of two majorities.
-/

namespace CppRaft.Consensus

universe u v

/-- Entries that carry the term in which they were made. -/
class Termed (ε : Type u) where
  termOf : ε → ℤ

export Termed (termOf)

variable {ε : Type u}

section Prefix

/-- Two prefixes of one list are ordered by their lengths. -/
theorem prefix_of_common {p q l : List ε} (left : p <+: l) (right : q <+: l)
    (shorter : p.length ≤ q.length) : p <+: q :=
  List.prefix_of_prefix_length_le left right shorter

/-- Two prefixes of one list that have the same length are equal. -/
theorem eq_of_common {p q l : List ε} (left : p <+: l) (right : q <+: l)
    (same : p.length = q.length) : p = q :=
  (prefix_of_common left right same.le).eq_of_length same

/-- A list begins like its prefix. -/
theorem take_of_prefix {p l : List ε} (inside : p <+: l) {k : ℕ} (short : k ≤ p.length) :
    l.take k = p.take k := by
  obtain ⟨rest, rfl⟩ := inside
  exact List.take_append_of_le_length short

/-- A prefix of an extended list either is a prefix of the list itself or has
the list as a proper prefix. -/
theorem prefix_append_cases {p l r : List ε} (extended : p <+: l ++ r) :
    p <+: l ∨ ∃ s, s ≠ [] ∧ s <+: r ∧ p = l ++ s := by
  rcases le_or_gt p.length l.length with short | long
  · exact Or.inl (prefix_of_common extended (List.prefix_append l r) short)
  · obtain ⟨s, rfl⟩ := prefix_of_common (List.prefix_append l r) extended long.le
    refine Or.inr ⟨s, ?_, (List.prefix_append_right_inj l).mp extended, rfl⟩
    rintro rfl
    simp at long

end Prefix

section LastTerm

variable [Termed ε]

/-- The term of the last entry, and 0 for an empty log. -/
def lastTerm (l : List ε) : ℤ :=
  (l.getLast?.map termOf).getD 0

@[simp]
theorem lastTerm_nil : lastTerm ([] : List ε) = 0 :=
  rfl

@[simp]
theorem lastTerm_concat (l : List ε) (e : ε) : lastTerm (l ++ [e]) = termOf e := by
  simp [lastTerm]

theorem lastTerm_append {l s : List ε} (nonempty : s ≠ []) :
    lastTerm (l ++ s) = lastTerm s := by
  rw [lastTerm, lastTerm, List.getLast?_append_of_ne_nil l nonempty]

theorem lastTerm_take {l : List ε} {k : ℕ} {e : ε} (found : l[k]? = some e) :
    lastTerm (l.take (k + 1)) = termOf e := by
  rw [List.take_add_one, found, Option.toList_some, lastTerm_concat]

/-- The last term of a nonempty log is the term of one of its entries. -/
theorem exists_mem_lastTerm {l : List ε} (nonempty : l ≠ []) :
    ∃ e ∈ l, termOf e = lastTerm l := by
  refine ⟨l.getLast nonempty, List.getLast_mem nonempty, ?_⟩
  rw [lastTerm, List.getLast?_eq_some_getLast nonempty]
  rfl

/-- In a log with ordered terms no entry has a term beyond the last one. -/
theorem termOf_le_lastTerm {l : List ε}
    (sorted : l.Pairwise fun first second => termOf first ≤ termOf second)
    {e : ε} (member : e ∈ l) : termOf e ≤ lastTerm l := by
  induction l using List.reverseRecOn with
  | nil => simp at member
  | append_singleton l last _ =>
      rw [lastTerm_concat]
      rcases List.mem_append.mp member with earlier | final
      · exact (List.pairwise_append.mp sorted).2.2 e earlier last (by simp)
      · rw [List.mem_singleton.mp final]

/-- `candidate` is at least as up to date as `voter`: its last term is larger,
or the last terms agree and it is not shorter. -/
def AsUpToDate (candidate voter : List ε) : Prop :=
  lastTerm voter < lastTerm candidate ∨
    lastTerm candidate = lastTerm voter ∧ voter.length ≤ candidate.length

theorem AsUpToDate.refl (l : List ε) : AsUpToDate l l :=
  Or.inr ⟨rfl, le_rfl⟩

end LastTerm

section Majority

variable {ν : Type v} [Fintype ν]

/-- More than half of the nodes. -/
def Majority (quorum : Finset ν) : Prop :=
  Fintype.card ν < 2 * quorum.card

/-- Two majorities have a node in common. -/
theorem Majority.exists_common [DecidableEq ν] {left right : Finset ν}
    (leftMajority : Majority left) (rightMajority : Majority right) : ∃ v ∈ left, v ∈ right := by
  by_contra apart
  have disjoint : Disjoint left right := by
    rw [Finset.disjoint_left]
    intro v inLeft inRight
    exact apart ⟨v, inLeft, inRight⟩
  have bounded : (left ∪ right).card ≤ Fintype.card ν := Finset.card_le_univ _
  rw [Finset.card_union_of_disjoint disjoint] at bounded
  unfold Majority at leftMajority rightMajority
  omega

end Majority

end CppRaft.Consensus
