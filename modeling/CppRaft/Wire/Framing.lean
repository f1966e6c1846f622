import Mathlib.Algebra.GroupWithZero.Nat
import Mathlib.Data.List.Flatten
import Mathlib.Data.List.Forall2

/-!
# Messages that are read one per buffer

A sender writes messages one after another to a stream.  The receiver looks at
the stream in buffers and reads at most one message from each, so that it gets
the messages of the sender when every buffer holds one message.  Where no
message has a shorter form than the one that is sent, that is the only way.
-/

namespace CppRaft.Wire

universe u v

variable {β : Type u} {γ : Type v} {read : List β → Option γ} {sent buffers : List (List β)}
  {messages : List γ}

/-- The buffers that are not empty. -/
def filled (buffers : List (List β)) : List (List β) :=
  buffers.filter fun buffer => !buffer.isEmpty

@[simp]
theorem filled_nil_cons (buffers : List (List β)) : filled ([] :: buffers) = filled buffers :=
  rfl

@[simp]
theorem filled_cons_cons (first : β) (rest : List β) (buffers : List (List β)) :
    filled ((first :: rest) :: buffers) = (first :: rest) :: filled buffers :=
  rfl

theorem filled_flatten (buffers : List (List β)) : (filled buffers).flatten = buffers.flatten := by
  induction buffers with
  | nil => rfl
  | cons buffer buffers ih =>
      cases buffer with
      | nil => exact ih
      | cons first rest => rw [filled_cons_cons, List.flatten_cons, List.flatten_cons, ih]

/-- Nothing is read from empty buffers. -/
theorem filterMap_filled (idle : read [] = none) (buffers : List (List β)) :
    (filled buffers).filterMap read = buffers.filterMap read := by
  induction buffers with
  | nil => rfl
  | cons buffer buffers ih =>
      cases buffer with
      | nil => rw [filled_nil_cons, ih, List.filterMap_cons_none idle]
      | cons first rest =>
          rw [filled_cons_cons, List.filterMap_cons, List.filterMap_cons, ih]

/-- Buffers that hold one message each give the messages. -/
theorem filterMap_eq_of_filled (idle : read [] = none)
    (reads : List.Forall₂ (fun message bytes => read bytes = some message) messages sent)
    (whole : filled buffers = sent) : buffers.filterMap read = messages := by
  rw [← filterMap_filled idle, whole]
  clear whole
  induction reads with
  | nil => rfl
  | cons first _ ih => rw [List.filterMap_cons_some first, ih]

/-- Buffers that give the messages have room for them, and when there is no
more room they have their lengths. -/
theorem lengths_of_filterMap_eq
    (shortest : List.Forall₂ (fun message bytes => bytes ≠ [] ∧
      ∀ buffer, read buffer = some message → bytes.length ≤ buffer.length) messages sent)
    (got : buffers.filterMap read = messages) :
    (sent.map List.length).sum ≤ (buffers.map List.length).sum ∧
      ((buffers.map List.length).sum ≤ (sent.map List.length).sum →
        (filled buffers).map List.length = sent.map List.length) := by
  induction buffers generalizing sent messages with
  | nil =>
      rw [List.filterMap_nil] at got
      subst got
      cases shortest
      exact ⟨Nat.le_refl _, fun _ => rfl⟩
  | cons buffer buffers ih =>
      cases first : read buffer with
      | none =>
          rw [List.filterMap_cons_none first] at got
          obtain ⟨room, exactly⟩ := ih shortest got
          simp only [List.map_cons, List.sum_cons]
          refine ⟨by omega, ?_⟩
          intro tight
          have nothing : buffer = [] := List.eq_nil_of_length_eq_zero (by omega)
          rw [nothing, filled_nil_cons]
          exact exactly (by omega)
      | some message =>
          rw [List.filterMap_cons_some first] at got
          subst got
          cases shortest with
          | @cons _ bytes _ sent head tail =>
              obtain ⟨room, exactly⟩ := ih tail rfl
              have needed := head.2 buffer first
              simp only [List.map_cons, List.sum_cons]
              refine ⟨by omega, ?_⟩
              intro tight
              have present : buffer ≠ [] := by
                rintro rfl
                exact head.1 (List.eq_nil_of_length_eq_zero (by simpa using needed))
              obtain ⟨byte, rest, rfl⟩ := List.exists_cons_of_ne_nil present
              rw [filled_cons_cons, List.map_cons, exactly (by omega)]
              congr 1
              omega

/-- Where no message has a shorter form, the buffers that give the messages of
a stream hold one message each. -/
theorem filled_of_filterMap_eq (delivered : buffers.flatten = sent.flatten)
    (shortest : List.Forall₂ (fun message bytes => bytes ≠ [] ∧
      ∀ buffer, read buffer = some message → bytes.length ≤ buffer.length) messages sent)
    (got : buffers.filterMap read = messages) : filled buffers = sent := by
  have lengths := congrArg List.length delivered
  rw [List.length_flatten, List.length_flatten] at lengths
  have equal := (lengths_of_filterMap_eq shortest got).2 (Nat.le_of_eq lengths)
  rw [List.eq_iff_flatten_eq]
  exact ⟨(filled_flatten buffers).trans delivered, equal⟩

/-- When as many messages are read as there are buffers, each buffer gives one. -/
theorem forall₂_of_filterMap_eq (got : sent.filterMap read = messages)
    (same : sent.length = messages.length) :
    List.Forall₂ (fun message bytes => read bytes = some message) messages sent := by
  induction sent generalizing messages with
  | nil =>
      rw [List.filterMap_nil] at got
      subst got
      exact List.Forall₂.nil
  | cons bytes sent ih =>
      cases first : read bytes with
      | none =>
          have fewer := List.length_filterMap_le read sent
          rw [List.filterMap_cons_none first] at got
          rw [got, ← same, List.length_cons] at fewer
          omega
      | some message =>
          rw [List.filterMap_cons_some first] at got
          subst got
          exact List.Forall₂.cons first (ih rfl (Nat.succ.inj same))

end CppRaft.Wire
