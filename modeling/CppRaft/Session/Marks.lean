import Mathlib.Data.Int.Order.Basic
import Mathlib.Data.List.Infix
import Mathlib.Logic.Function.Basic

/-!
# Recognizing repeated requests by one mark per client

Clients number their requests and start the next one when the last one is in
the log, which may hold a request several times.  A replica keeps for every
client the number of one request that it has met.  As long as no mark falls
behind a request that was executed, the mark recognizes exactly the requests
that occurred before.
-/

namespace CppRaft.Session

universe u v

/-- Requests that name their client and carry its number for them. -/
class Numbered (α : Type u) (κ : outParam (Type v)) where
  clientOf : α → κ
  numberOf : α → ℤ

export Numbered (clientOf numberOf)

variable {α : Type u} {κ : Type v} [Numbered α κ]

/-- The log holds request `r` of client `c`. -/
def Occurs (log : List α) (c : κ) (r : ℤ) : Prop :=
  ∃ a ∈ log, clientOf a = c ∧ numberOf a = r

theorem Occurs.mono {log log' : List α} {c : κ} {r : ℤ} (occurs : Occurs log c r)
    (inside : log <+: log') : Occurs log' c r := by
  obtain ⟨a, member, same⟩ := occurs
  exact ⟨a, inside.subset member, same⟩

theorem occurs_concat {log : List α} {a : α} {c : κ} {r : ℤ} :
    Occurs (log ++ [a]) c r ↔ Occurs log c r ∨ clientOf a = c ∧ numberOf a = r := by
  constructor
  · rintro ⟨b, member, same⟩
    rcases List.mem_append.mp member with old | new
    · exact Or.inl ⟨b, old, same⟩
    · rw [List.mem_singleton.mp new] at same
      exact Or.inr same
  · rintro (occurs | same)
    · exact occurs.mono (List.prefix_append _ _)
    · exact ⟨a, by simp, same⟩

/-- A prefix with a request that an earlier log does not hold is past that log. -/
theorem Occurs.prefix_of_absent {log log' old : List α} {c : κ} {r : ℤ}
    (occurs : Occurs log c r) (inside : log <+: log') (older : old <+: log')
    (absent : ¬ Occurs old c r) : old <+: log := by
  rcases List.prefix_or_prefix_of_prefix older inside with past | early
  · exact past
  · exact absurd (occurs.mono early) absent

/-- Requests are numbered from 1, two entries of one number are the same
request, and the earlier requests of a client stand before every later one. -/
inductive InOrder : List α → Prop
  | nil : InOrder []
  | concat {log : List α} {a : α} (inOrder : InOrder log) (positive : 1 ≤ numberOf a)
      (same : ∀ b ∈ log, clientOf b = clientOf a → numberOf b = numberOf a → b = a)
      (earlier : ∀ r, 1 ≤ r → r < numberOf a → Occurs log (clientOf a) r) :
      InOrder (log ++ [a])

theorem InOrder.positive {log : List α} (inOrder : InOrder log) :
    ∀ a ∈ log, 1 ≤ numberOf a := by
  induction inOrder with
  | nil => simp
  | concat _ positive _ _ ih =>
      intro b member
      rcases List.mem_append.mp member with old | new
      · exact ih b old
      · rw [List.mem_singleton.mp new]
        exact positive

/-- With a request the log holds all earlier ones of its client. -/
theorem InOrder.occurs_of_le {log : List α} (inOrder : InOrder log) {c : κ} {r r' : ℤ}
    (occurs : Occurs log c r') (positive : 1 ≤ r) (le : r ≤ r') : Occurs log c r := by
  induction inOrder with
  | nil =>
      obtain ⟨_, member, _⟩ := occurs
      cases member
  | concat _ _ _ earlier ih =>
      rcases occurs_concat.mp occurs with old | ⟨rfl, rfl⟩
      · exact (ih old).mono (List.prefix_append _ _)
      · rcases le.eq_or_lt with rfl | less
        · exact occurs_concat.mpr (Or.inr ⟨rfl, rfl⟩)
        · exact (earlier r positive less).mono (List.prefix_append _ _)

theorem InOrder.eq_of_same {log : List α} (inOrder : InOrder log) {a b : α} (left : a ∈ log)
    (right : b ∈ log) (client : clientOf a = clientOf b) (number : numberOf a = numberOf b) :
    a = b := by
  induction inOrder with
  | nil => cases left
  | concat _ _ same _ ih =>
      rcases List.mem_append.mp left with oldLeft | newLeft
      · rcases List.mem_append.mp right with oldRight | newRight
        · exact ih oldLeft oldRight
        · rw [List.mem_singleton.mp newRight] at client number ⊢
          exact same a oldLeft client number
      · rw [List.mem_singleton.mp newLeft] at client number ⊢
        rcases List.mem_append.mp right with oldRight | newRight
        · exact (same b oldRight client.symm number.symm).symm
        · exact (List.mem_singleton.mp newRight).symm

theorem InOrder.of_concat {log : List α} {a : α} (inOrder : InOrder (log ++ [a])) :
    InOrder log := by
  generalize whole : log ++ [a] = extended at inOrder
  cases inOrder with
  | nil => simp at whole
  | concat before _ _ _ =>
      obtain ⟨rfl, _⟩ := List.append_inj' whole rfl
      exact before

theorem InOrder.take {log : List α} (inOrder : InOrder log) (k : ℕ) : InOrder (log.take k) := by
  induction inOrder with
  | nil =>
      rw [List.take_nil]
      exact .nil
  | @concat log a before positive same earlier ih =>
      rcases le_or_gt k log.length with inside | beyond
      · rw [List.take_append_of_le_length inside]
        exact ih
      · rw [List.take_of_length_le (by rw [List.length_append]; exact beyond)]
        exact before.concat positive same earlier

/-! ## Marks -/

variable {writes : α → Prop} {marks : κ → Option ℤ} {log : List α}

/-- The mark of a client is the number of one of its requests in the log and is
not behind a writing one. -/
structure Marks (writes : α → Prop) (marks : κ → Option ℤ) (log : List α) : Prop where
  written : ∀ a ∈ log, writes a → ∃ last, marks (clientOf a) = some last ∧ numberOf a ≤ last
  occurs : ∀ c last, marks c = some last → Occurs log c last

theorem marks_nil : Marks writes (fun _ => none) ([] : List α) where
  written := by simp
  occurs := by simp

/-- The mark recognizes a writing request that occurred before, and only such. -/
theorem Marks.seen_iff {a : α} (marked : Marks writes marks log) (inOrder : InOrder (log ++ [a]))
    (write : writes a) :
    (∃ last, marks (clientOf a) = some last ∧ numberOf a ≤ last) ↔
      Occurs log (clientOf a) (numberOf a) := by
  have positive := inOrder.positive a (by simp)
  constructor
  · rintro ⟨last, mark, behind⟩
    exact inOrder.of_concat.occurs_of_le (marked.occurs _ _ mark) positive behind
  · rintro ⟨b, member, client, number⟩
    have same : b = a :=
      inOrder.eq_of_same (List.mem_append_left _ member) (by simp) client number
    subst same
    exact marked.written b member write

variable [DecidableEq κ]

/-- Marking a request that occurred, without going back. -/
theorem Marks.read {c : κ} {r : ℤ} (marked : Marks writes marks log) (occurs : Occurs log c r)
    (forward : ∀ last, marks c = some last → last ≤ r) :
    Marks writes (Function.update marks c (some r)) log where
  written := by
    intro a member write
    obtain ⟨last, mark, behind⟩ := marked.written a member write
    by_cases same : clientOf a = c
    · rw [same] at mark ⊢
      exact ⟨r, Function.update_self _ _ _, behind.trans (forward last mark)⟩
    · exact ⟨last, by rwa [Function.update_of_ne same], behind⟩
  occurs := by
    intro c' last mark
    by_cases same : c' = c
    · subst same
      rw [Function.update_self, Option.some.injEq] at mark
      exact mark ▸ occurs
    · rw [Function.update_of_ne same] at mark
      exact marked.occurs c' last mark

omit [DecidableEq κ] in
/-- A request that is skipped: it does not write, or it occurred before. -/
theorem Marks.skip {a : α} (marked : Marks writes marks log)
    (skipped : writes a → ∃ last, marks (clientOf a) = some last ∧ numberOf a ≤ last) :
    Marks writes marks (log ++ [a]) where
  written := by
    intro b member write
    rcases List.mem_append.mp member with old | new
    · exact marked.written b old write
    · rw [List.mem_singleton.mp new] at write ⊢
      exact skipped write
  occurs := fun c last mark => (marked.occurs c last mark).mono (List.prefix_append _ _)

omit [DecidableEq κ] in
/-- No mark of the client of a new request is ahead of it. -/
theorem Marks.last_lt {a : α} (marked : Marks writes marks log) (inOrder : InOrder (log ++ [a]))
    (fresh : ¬ Occurs log (clientOf a) (numberOf a)) {last : ℤ}
    (mark : marks (clientOf a) = some last) : last < numberOf a := by
  by_contra ahead
  exact fresh (inOrder.of_concat.occurs_of_le (marked.occurs _ _ mark)
    (inOrder.positive a (by simp)) (not_lt.mp ahead))

/-- A new request is marked when it is executed. -/
theorem Marks.write {a : α} (marked : Marks writes marks log) (inOrder : InOrder (log ++ [a]))
    (fresh : ¬ Occurs log (clientOf a) (numberOf a)) :
    Marks writes (Function.update marks (clientOf a) (some (numberOf a))) (log ++ [a]) where
  written := by
    intro b member write
    by_cases same : clientOf b = clientOf a
    · refine ⟨numberOf a, by rw [same, Function.update_self], ?_⟩
      rcases List.mem_append.mp member with old | new
      · obtain ⟨last, mark, behind⟩ := marked.written b old write
        rw [same] at mark
        exact behind.trans (marked.last_lt inOrder fresh mark).le
      · exact (congrArg numberOf (List.mem_singleton.mp new)).le
    · rcases List.mem_append.mp member with old | new
      · rw [Function.update_of_ne same]
        exact marked.written b old write
      · exact absurd (congrArg clientOf (List.mem_singleton.mp new)) same
  occurs := by
    intro c last mark
    by_cases same : c = clientOf a
    · subst same
      rw [Function.update_self, Option.some.injEq] at mark
      exact occurs_concat.mpr (Or.inr ⟨rfl, mark⟩)
    · rw [Function.update_of_ne same] at mark
      exact (marked.occurs c last mark).mono (List.prefix_append _ _)

end CppRaft.Session
