import CppRaft.Protocol.Core
import CppRaft.Transition.Growing
import Mathlib.Data.Fintype.Card

/-!
# Counting the replies of a round

The calls of one election, and those of one heartbeat round, share a counter.
A `Tally` names the servers whose replies the counter has counted.  Since a
round calls every server at most once and a call processes at most one reply,
a reply that is about to be counted comes from a server that is not counted yet.
-/

namespace CppRaft.Protocol

universe u

variable {n : Nat} {κ : Type u}

/-- The counter at one position changes. -/
theorem getD_set {counters : List Int} {a : Nat} (inside : a < counters.length) (value : Int)
    (a' : Nat) :
    (counters.set a value).getD a' 0 = if a' = a then value else counters.getD a' 0 := by
  by_cases same : a' = a
  · subst same
    simp [List.getD_eq_getElem?_getD, inside]
  · simp [List.getD_eq_getElem?_getD, same, Ne.symm same]

/-- The counter that a call shares with its round, and what the round asks. -/
abbrev Tag (n : Nat) (κ : Type u) :=
  RpcCall n → Option (Nat × κ)

/-- `counted a` are servers whose replies the counter at position `a` has
counted, and for each of which `Counts` holds of what the round asks. -/
structure Tally (tag : Tag n κ) (Counts : κ → Fin n → Prop) (calls : List (RpcCall n))
    (finished : List Nat) (size : Nat) (counted : Nat → Finset (Fin n)) : Prop where
  bound : ∀ {call a key}, call ∈ calls → tag call = some (a, key) → a < size
  uniform : ∀ {call call' a key key'}, call ∈ calls → call' ∈ calls →
    tag call = some (a, key) → tag call' = some (a, key') → call.src = call'.src ∧ key = key'
  distinct : ∀ {k k' : Nat} {call call' a key key'}, calls[k]? = some call →
    calls[k']? = some call' → tag call = some (a, key) → tag call' = some (a, key') →
    call.dst = call'.dst → k = k'
  remote : ∀ {call a key}, call ∈ calls → tag call = some (a, key) → call.src ≠ call.dst
  processed : ∀ {k : Nat} {call a key}, calls[k]? = some call → tag call = some (a, key) →
    call.dst ∈ counted a → k ∈ finished
  apart : ∀ {call a key}, call ∈ calls → tag call = some (a, key) → call.src ∉ counted a
  counts : ∀ {call a key}, call ∈ calls → tag call = some (a, key) →
    ∀ v ∈ counted a, Counts key v

variable {tag : Tag n κ} {Counts Counts' : κ → Fin n → Prop} {calls : List (RpcCall n)}
  {finished : List Nat} {size : Nat} {counted : Nat → Finset (Fin n)}

theorem tally_start (tag : Tag n κ) (Counts : κ → Fin n → Prop) :
    Tally tag Counts [] [] 0 fun _ => ∅ where
  bound := by simp
  uniform := by simp
  distinct := by simp
  remote := by simp
  processed := by simp
  apart := by simp
  counts := by simp

theorem Tally.mono (tally : Tally tag Counts calls finished size counted)
    (weaker : ∀ key v, Counts key v → Counts' key v) :
    Tally tag Counts' calls finished size counted :=
  { tally with
    counts := fun member tagged v counted => weaker _ v (tally.counts member tagged v counted) }

/-- Finishing a call of any round. -/
theorem Tally.finish (tally : Tally tag Counts calls finished size counted) (k : Nat) :
    Tally tag Counts calls (k :: finished) size counted :=
  { tally with
    processed := fun found tagged member =>
      List.mem_cons_of_mem k (tally.processed found tagged member) }

/-- The servers counted once the reply of `server` to round `a` is. -/
def countWith (counted : Nat → Finset (Fin n)) (a : Nat) (server : Fin n) : Nat → Finset (Fin n) :=
  Function.update counted a (insert server (counted a))

theorem countWith_self (counted : Nat → Finset (Fin n)) (a : Nat) (server : Fin n) :
    countWith counted a server a = insert server (counted a) :=
  Function.update_self _ _ _

theorem countWith_of_ne (counted : Nat → Finset (Fin n)) {a a' : Nat} (server : Fin n)
    (other : a' ≠ a) : countWith counted a server a' = counted a' :=
  Function.update_of_ne other _ _

/-- The server of a call that has not processed a reply is not counted. -/
theorem Tally.unfinished (tally : Tally tag Counts calls finished size counted) {k a : Nat}
    {call : RpcCall n} {key : κ} (found : calls[k]? = some call)
    (tagged : tag call = some (a, key)) (pending : k ∉ finished) : call.dst ∉ counted a :=
  fun member => pending (tally.processed found tagged member)

/-- Counting the reply of an unfinished call. -/
theorem Tally.count (tally : Tally tag Counts calls finished size counted) {k a : Nat}
    {call : RpcCall n} {key : κ} (found : calls[k]? = some call)
    (tagged : tag call = some (a, key)) (answers : Counts key call.dst) :
    Tally tag Counts calls (k :: finished) size (countWith counted a call.dst) :=
  { tally with
    processed := by
      intro k' call' a' key' found' tagged' member
      by_cases same : a' = a
      · subst same
        rw [countWith_self, Finset.mem_insert] at member
        rcases member with server | before
        · rw [tally.distinct found' found tagged' tagged server]
          exact List.mem_cons_self
        · exact List.mem_cons_of_mem k (tally.processed found' tagged' before)
      · rw [countWith_of_ne counted _ same] at member
        exact List.mem_cons_of_mem k (tally.processed found' tagged' member)
    apart := by
      intro call' a' key' member' tagged'
      have member := List.mem_of_getElem? found
      by_cases same : a' = a
      · subst same
        rw [countWith_self, Finset.mem_insert, not_or]
        refine ⟨?_, tally.apart member' tagged'⟩
        rw [(tally.uniform member' member tagged' tagged).1]
        exact tally.remote member tagged
      · rw [countWith_of_ne counted _ same]
        exact tally.apart member' tagged'
    counts := by
      intro call' a' key' member' tagged' v counted'
      have member := List.mem_of_getElem? found
      by_cases same : a' = a
      · subst same
        rw [countWith_self, Finset.mem_insert] at counted'
        rcases counted' with rfl | before
        · rw [(tally.uniform member' member tagged' tagged).2]
          exact answers
        · exact tally.counts member' tagged' v before
      · rw [countWith_of_ne counted _ same] at counted'
        exact tally.counts member' tagged' v counted' }

theorem Tally.card_count (tally : Tally tag Counts calls finished size counted) {k a : Nat}
    {call : RpcCall n} {key : κ} (found : calls[k]? = some call)
    (tagged : tag call = some (a, key)) (pending : k ∉ finished) :
    (countWith counted a call.dst a).card = (counted a).card + 1 := by
  rw [countWith_self, Finset.card_insert_of_notMem (tally.unfinished found tagged pending)]

/-- The node that sent a round and the servers it has counted. -/
theorem Tally.card_lt (tally : Tally tag Counts calls finished size counted) {a : Nat}
    {call : RpcCall n} {key : κ} (member : call ∈ calls) (tagged : tag call = some (a, key)) :
    (counted a).card < n := by
  have apart := tally.apart member tagged
  have bounded : (insert call.src (counted a)).card ≤ Fintype.card (Fin n) :=
    Finset.card_le_univ _
  rw [Finset.card_insert_of_notMem apart, Fintype.card_fin] at bounded
  omega

/-- Calls that belong to no round of this kind. -/
theorem Tally.append_untagged (tally : Tally tag Counts calls finished size counted)
    {more : List (RpcCall n)} (untagged : ∀ call ∈ more, tag call = none) :
    Tally tag Counts (calls ++ more) finished size counted := by
  have old : ∀ {call a key}, call ∈ calls ++ more → tag call = some (a, key) → call ∈ calls := by
    intro call a key member tagged
    rcases List.mem_append.mp member with before | added
    · exact before
    · rw [untagged call added] at tagged
      exact absurd tagged (by simp)
  have oldAt : ∀ {k : Nat} {call a key}, (calls ++ more)[k]? = some call →
      tag call = some (a, key) → calls[k]? = some call := by
    intro k call a key found tagged
    rcases lt_or_ge k calls.length with inside | outside
    · rwa [List.getElem?_append_left inside] at found
    · rw [List.getElem?_append_right outside] at found
      rw [untagged call (List.mem_of_getElem? found)] at tagged
      exact absurd tagged (by simp)
  exact
    { bound := fun member tagged => tally.bound (old member tagged) tagged
      uniform := fun member member' tagged tagged' =>
        tally.uniform (old member tagged) (old member' tagged') tagged tagged'
      distinct := fun found found' tagged tagged' =>
        tally.distinct (oldAt found tagged) (oldAt found' tagged') tagged tagged'
      remote := fun member tagged => tally.remote (old member tagged) tagged
      processed := fun found tagged => tally.processed (oldAt found tagged) tagged
      apart := fun member tagged => tally.apart (old member tagged) tagged
      counts := fun member tagged => tally.counts (old member tagged) tagged }

/-- A new round of calls to distinct servers other than the sender. -/
theorem Tally.append_round (tally : Tally tag Counts calls finished size counted)
    {more : List (RpcCall n)} (src : Fin n) (key : κ)
    (own : ∀ call ∈ more, call.src = src ∧ call.src ≠ call.dst)
    (tagged : ∀ call ∈ more, tag call = some (size, key))
    (servers : (more.map RpcCall.dst).Nodup) :
    Tally tag Counts (calls ++ more) finished (size + 1) (Function.update counted size ∅) := by
  have cases : ∀ {call a key'}, call ∈ calls ++ more → tag call = some (a, key') →
      call ∈ calls ∧ a ≠ size ∨ call ∈ more ∧ a = size ∧ key' = key := by
    intro call a key' member tagged'
    rcases List.mem_append.mp member with before | added
    · exact Or.inl ⟨before, (tally.bound before tagged').ne⟩
    · rw [tagged call added] at tagged'
      cases tagged'
      exact Or.inr ⟨added, rfl, rfl⟩
  have oldAt : ∀ {k : Nat} {call a key'}, (calls ++ more)[k]? = some call →
      tag call = some (a, key') → a ≠ size → calls[k]? = some call := by
    intro k call a key' found tagged' other
    rcases lt_or_ge k calls.length with inside | outside
    · rwa [List.getElem?_append_left inside] at found
    · rw [List.getElem?_append_right outside] at found
      rw [tagged call (List.mem_of_getElem? found)] at tagged'
      cases tagged'
      exact absurd rfl other
  have newAt : ∀ {k : Nat} {call key'}, (calls ++ more)[k]? = some call →
      tag call = some (size, key') → more[k - calls.length]? = some call ∧ calls.length ≤ k := by
    intro k call key' found tagged'
    rcases lt_or_ge k calls.length with inside | outside
    · rw [List.getElem?_append_left inside] at found
      exact absurd (tally.bound (List.mem_of_getElem? found) tagged') (lt_irrefl _)
    · rw [List.getElem?_append_right outside] at found
      exact ⟨found, outside⟩
  exact
    { bound := by
        intro call a key' member tagged'
        rcases cases member tagged' with ⟨before, _⟩ | ⟨_, rfl, _⟩
        · exact (tally.bound before tagged').trans (Nat.lt_succ_self _)
        · exact Nat.lt_succ_self _
      uniform := by
        intro call call' a key₁ key₂ member member' tagged₁ tagged₂
        rcases cases member tagged₁ with ⟨before, other⟩ | ⟨added, rfl, rfl⟩
        · rcases cases member' tagged₂ with ⟨before', _⟩ | ⟨_, rfl, _⟩
          · exact tally.uniform before before' tagged₁ tagged₂
          · exact absurd rfl other
        · rcases cases member' tagged₂ with ⟨_, other⟩ | ⟨added', _, rfl⟩
          · exact absurd rfl other
          · exact ⟨(own call added).1.trans (own call' added').1.symm, rfl⟩
      distinct := by
        intro k k' call call' a key₁ key₂ found found' tagged₁ tagged₂ same
        by_cases fresh : a = size
        · subst fresh
          obtain ⟨foundNew, above⟩ := newAt found tagged₁
          obtain ⟨foundNew', above'⟩ := newAt found' tagged₂
          have position : (more.map RpcCall.dst)[k - calls.length]? =
              (more.map RpcCall.dst)[k' - calls.length]? := by
            rw [List.getElem?_map, List.getElem?_map, foundNew, foundNew']
            simp [same]
          have inside : k - calls.length < (more.map RpcCall.dst).length := by
            rw [List.length_map]
            exact (List.getElem?_eq_some_iff.mp foundNew).1
          have samePosition := (List.getElem?_inj inside servers).mp position
          omega
        · exact tally.distinct (oldAt found tagged₁ fresh) (oldAt found' tagged₂ fresh)
            tagged₁ tagged₂ same
      remote := by
        intro call a key' member tagged'
        rcases cases member tagged' with ⟨before, _⟩ | ⟨added, _⟩
        · exact tally.remote before tagged'
        · exact (own call added).2
      processed := by
        intro k call a key' found tagged' counted'
        by_cases fresh : a = size
        · subst fresh
          simp at counted'
        · rw [Function.update_of_ne fresh] at counted'
          exact tally.processed (oldAt found tagged' fresh) tagged' counted'
      apart := by
        intro call a key' member tagged'
        rcases cases member tagged' with ⟨before, other⟩ | ⟨_, rfl, _⟩
        · rw [Function.update_of_ne other]
          exact tally.apart before tagged'
        · simp
      counts := by
        intro call a key' member tagged' v counted'
        rcases cases member tagged' with ⟨before, other⟩ | ⟨_, rfl, _⟩
        · rw [Function.update_of_ne other] at counted'
          exact tally.counts before tagged' v counted'
        · simp at counted' }

end CppRaft.Protocol
