import CppRaft.Session.Linearizable

/-!
# Linearizability from the moments when calls take effect

An object may leave open what it answers to a call.  The calls of a history
take effect one after another, each between its begin and its return, and the
order in which they do explains the history.

A call that may still give up has the answer that it would give then in the
order.  The entry is withdrawn when the call takes effect after all; that needs
an answer that leaves the object as it is.
-/

namespace CppRaft.Session

universe u v w

variable {σ : Type u} {ι : Type v} {ρ : Type w}

/-- The answers that an object may give to a call, with the state after them. -/
abbrev Specification (σ : Type u) (ι : Type v) (ρ : Type w) :=
  σ → ι → ρ → σ → Prop

namespace Specification

variable {spec : Specification σ ι ρ} {start state target : σ} {order : List (ι × ρ)}
  {call : ι} {response : ρ}

/-! ## Sequences of calls -/

/-- The object answers calls one after another. -/
inductive Sequence (spec : Specification σ ι ρ) (start : σ) : List (ι × ρ) → σ → Prop
  | nil : Sequence spec start [] start
  | snoc {order : List (ι × ρ)} {state : σ} {call : ι} {response : ρ} {target : σ} :
      Sequence spec start order state → spec state call response target →
      Sequence spec start (order ++ [(call, response)]) target

/-- Answers that leave the object as it is may be left out. -/
theorem Sequence.filter (sequence : Sequence spec start order state) (kept : ι × ρ → Bool)
    (idle : ∀ entry ∈ order, kept entry = false →
      ∀ state target, spec state entry.1 entry.2 target → target = state) :
    Sequence spec start (order.filter kept) state := by
  induction sequence with
  | nil => exact Sequence.nil
  | @snoc order state call response target _ answers ih =>
      have shorter := ih fun entry member => idle entry (List.mem_append_left _ member)
      rw [List.filter_append]
      by_cases here : kept (call, response) = true
      · rw [List.filter_singleton, here]
        exact shorter.snoc answers
      · have dropped := Bool.eq_false_iff.mpr here
        have same := idle (call, response) (by simp) dropped state target answers
        rw [List.filter_singleton, dropped, same]
        simpa using shorter

/-! ## Linearizations -/

/-- An order of calls with their responses that explains a history and leads to
a state.  Calls that have not returned may be in it as well. -/
structure Linearization (spec : Specification σ ι ρ) (start : σ) (history : List (CallEvent ι ρ))
    (order : List (ι × ρ)) (state : σ) : Prop where
  sequence : Sequence spec start order state
  once : (order.map Prod.fst).Nodup
  begun : ∀ entry ∈ order, .begun entry.1 ∈ history
  complete : ∀ call response, .returned call response ∈ history → (call, response) ∈ order
  realTime : order.Pairwise fun entry later => ¬ Precedes history later.1 entry.1

namespace Linearization

variable {history : List (CallEvent ι ρ)}

theorem nil (spec : Specification σ ι ρ) (start : σ) : Linearization spec start [] [] start where
  sequence := Sequence.nil
  once := List.nodup_nil
  begun := by simp
  complete := by simp
  realTime := List.Pairwise.nil

theorem begin (linear : Linearization spec start history order state)
    (fresh : ∀ response, (call, response) ∉ order) :
    Linearization spec start (history ++ [.begun call]) order state where
  sequence := linear.sequence
  once := linear.once
  begun := fun entry member => List.mem_append_left _ (linear.begun entry member)
  complete := fun call response returned => linear.complete call response (by simpa using returned)
  realTime := by
    refine linear.realTime.imp_of_mem fun {entry later} member _ apart precedes => ?_
    rcases precedes_concat.mp precedes with before | ⟨same, _⟩
    · exact apart before
    · cases same
      exact fresh _ member

/-- A call that has begun takes effect. -/
theorem takeEffect (linear : Linearization spec start history order state)
    (begun : .begun call ∈ history) (fresh : ∀ response, (call, response) ∉ order)
    (answers : spec state call response target) :
    Linearization spec start history (order ++ [(call, response)]) target where
  sequence := linear.sequence.snoc answers
  once := by
    rw [List.map_append, List.nodup_append]
    refine ⟨linear.once, List.nodup_singleton _, ?_⟩
    rintro other found new member rfl
    obtain ⟨⟨_, response'⟩, inside, rfl⟩ := List.mem_map.mp found
    cases List.mem_singleton.mp member
    exact fresh response' inside
  begun := by
    intro entry member
    rcases List.mem_append.mp member with old | new
    · exact linear.begun entry old
    · cases List.mem_singleton.mp new
      exact begun
  complete := fun other response' returned =>
    List.mem_append_left _ (linear.complete other response' returned)
  realTime := by
    refine List.pairwise_append.mpr ⟨linear.realTime, List.pairwise_singleton _ _, ?_⟩
    rintro entry _ later member ⟨earlier, rest, response', rfl, returned, _⟩
    cases List.mem_singleton.mp member
    -- The call has no response yet, and so it has not returned.
    exact fresh response' (linear.complete _ _ (List.mem_append_left _ returned))

theorem «return» (linear : Linearization spec start history order state)
    (found : (call, response) ∈ order) :
    Linearization spec start (history ++ [.returned call response]) order state where
  sequence := linear.sequence
  once := linear.once
  begun := fun entry member => List.mem_append_left _ (linear.begun entry member)
  complete := by
    intro other response' returned
    rcases List.mem_append.mp returned with old | new
    · exact linear.complete other response' old
    · cases List.mem_singleton.mp new
      exact found
  realTime := by
    refine linear.realTime.imp fun {entry later} apart precedes => ?_
    rcases precedes_concat.mp precedes with before | ⟨same, _⟩
    · exact apart before
    · cases same

/-- A call that has not returned may take back an answer that leaves the object
as it is. -/
theorem withdraw [DecidableEq ι] (linear : Linearization spec start history order state)
    (pending : ∀ response, .returned call response ∉ history)
    (idle : ∀ response, (call, response) ∈ order →
      ∀ state target, spec state call response target → target = state) :
    Linearization spec start history (order.filter fun entry => entry.1 ≠ call) state where
  sequence := by
    refine linear.sequence.filter _ ?_
    rintro ⟨other, response⟩ member dropped
    obtain rfl : other = call := by simpa using dropped
    exact idle response member
  once := linear.once.sublist (List.filter_sublist.map _)
  begun := fun entry member => linear.begun entry (List.mem_of_mem_filter member)
  complete := by
    intro other response returned
    refine List.mem_filter.mpr ⟨linear.complete other response returned, ?_⟩
    rw [decide_eq_true_iff]
    rintro rfl
    exact pending response returned
  realTime := linear.realTime.filter _

end Linearization

end Specification

end CppRaft.Session
