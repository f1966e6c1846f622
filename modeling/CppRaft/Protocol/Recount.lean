import CppRaft.Protocol.Identity
import CppRaft.RaftCore.Recount

/-!
# The commit rule in a cluster

A leader whose commit index has not been behind the recount so far falls behind
it only by a success that gives an entry a majority without completing its
round with a non-empty request.
-/

namespace CppRaft.Protocol

open CppRaft.RaftCore
open CppRaft.Store
open CppRaft.Transition

variable {n : Nat}

/-- The reply is a success, and its round does not count it as the majority that
it makes. -/
def Miscounts (rf : Raft n) (server : Fin n) (appendNums : List Int) : Request → Reply → Prop
  | .appendEntries args counter, .appendEntries reply =>
      rf.TakesSuccess reply ∧ ¬ rf.CountsMajority server args (appendNums.getD counter 0)
  | _, _ => False

/-- The step processes such a reply. -/
def MiscountsMajority (s : Cluster n) : Action n → Prop
  | .processReply position =>
      ∃ answer ∈ s.replies[position]?, ∃ call ∈ s.calls[answer.1]?,
        Miscounts (s.nodes call.src) call.dst s.appendNums call.request answer.2
  | _ => False

instance (rf : Raft n) (server : Fin n) (appendNums : List Int) :
    (request : Request) → (reply : Reply) → Decidable (Miscounts rf server appendNums request reply)
  | .appendEntries _ _, .appendEntries _ => inferInstanceAs (Decidable (_ ∧ _))
  | .requestVote _ _, _ => isFalse id
  | .installSnapshot _, _ => isFalse id
  | .appendEntries _ _, .requestVote _ => isFalse id
  | .appendEntries _ _, .installSnapshot _ => isFalse id

instance (s : Cluster n) : (action : Action n) → Decidable (MiscountsMajority s action)
  | .processReply position =>
      inferInstanceAs (Decidable (∃ answer ∈ s.replies[position]?, ∃ call ∈ s.calls[answer.1]?,
        Miscounts (s.nodes call.src) call.dst s.appendNums call.request answer.2))
  | .doElection _ | .doHeartBeat _ | .startConses _ _ | .getApplyLogs _ | .snapshot _ _ _
  | .leaderSendSnapShot _ | .handle _ => isFalse id

/-- The steps that process no such reply. -/
abbrev CountsMajorities (s : Cluster n) (action : Action n) : Prop :=
  ¬ MiscountsMajority s action

namespace Cluster

variable {events emitted : List (Event n)} {moments : List (Cluster n)} {s s' : Cluster n}
  {action : Action n} {counted : Nat → Finset (Fin n)}

theorem countsMajorities_iff {position k a : Nat} {call : RpcCall n} {args : AppendEntriesArgs}
    {reply : AppendEntriesReply} (awaited : s.Awaited position k call (.appendEntries reply))
    (request : call.request = .appendEntries args a)
    (success : (s.nodes call.src).TakesSuccess reply) :
    CountsMajorities s (.processReply position) ↔
      (s.nodes call.src).CountsMajority call.dst args (s.appendNums.getD a 0) := by
  simp only [CountsMajorities, MiscountsMajority, awaited.answered, awaited.found,
    Option.mem_some_iff, exists_eq_left', request, Miscounts, success, true_and, not_not]

instance (position k : Nat) (call : RpcCall n) (reply : Reply) :
    Decidable (s.Awaited position k call reply) :=
  decidable_of_iff (s.replies[position]? = some (k, reply) ∧ s.calls[k]? = some call ∧
    k ∉ s.finished)
    ⟨fun ⟨answered, found, pending⟩ => ⟨answered, found, pending⟩,
      fun awaited => ⟨awaited.answered, awaited.found, awaited.pending⟩⟩

/-! ## One success -/

/-- The step that processes a reply to `AppendEntries`. -/
theorem Bounded.sendAppendEntries (bounded : s.Bounded) {position k a : Nat} {call : RpcCall n}
    {args : AppendEntriesArgs} {reply : AppendEntriesReply}
    (awaited : s.Awaited position k call (.appendEntries reply))
    (request : call.request = .appendEntries args a)
    (taken : s.step (.processReply position) = some (s', emitted)) :
    ∃ appendNums, (s.nodes call.src).sendAppendEntries call.dst args reply
      (s.appendNums.getD a 0) = .ok (s'.nodes call.src, appendNums) := by
  have offered := bounded.offered (List.mem_of_getElem? awaited.found) request
  obtain ⟨⟨rf, appendNums⟩, processed⟩ := Raft.sendAppendEntries_succeeds
    (bounded.placed call.src) offered.2.2.2
    (fun leads => (bounded.tracked leads call.dst).2.2) reply (s.appendNums.getD a 0)
  simp only [Cluster.step, awaited.answered, awaited.found, Option.ite_none_right_eq_some,
    processReply, request, processed, Option.some.injEq, Prod.mk.injEq] at taken
  obtain ⟨_, rfl, _⟩ := taken
  refine ⟨appendNums, processed.trans ?_⟩
  change _ = Except.ok ((s.setNode call.src rf).nodes call.src, appendNums)
  rw [setNode_nodes_self]

/-- One success: the commit index still agrees with the recount exactly when the
round counts the majority. -/
theorem Sound.commitsRecount (sound : Sound events moments s) {position k a : Nat}
    {call : RpcCall n} {args : AppendEntriesArgs} {reply : AppendEntriesReply}
    (awaited : s.Awaited position k call (.appendEntries reply))
    (request : call.request = .appendEntries args a)
    (success : (s.nodes call.src).TakesSuccess reply) (caughtUp : (s.nodes call.src).CaughtUp)
    (taken : s.step (.processReply position) = some (s', emitted)) :
    Raft.CommitsRecount (s.nodes call.src) (s'.nodes call.src) ↔
      CountsMajorities s (.processReply position) := by
  have member := List.mem_of_getElem? awaited.found
  have placed := sound.bounded.placed call.src
  obtain ⟨leads, connected, term, succeeded⟩ := success
  obtain ⟨appendNums, processed⟩ := sound.bounded.sendAppendEntries awaited request taken
  rw [countsMajorities_iff awaited request ⟨leads, connected, term, succeeded⟩]
  apply Raft.sendAppendEntries_commitsRecount placed leads connected term succeeded caughtUp
    _ processed
  intro stamped higher
  have applied := placed.applied
  have committed := placed.committed
  exact sound.has_last member request leads stamped (by omega)

/-! ## The invariant -/

/-- Only a cluster of several nodes has a leader, a snapshot that was sent is
committed, and no leader is behind the recount. -/
structure Recounted (s : Cluster n) : Prop where
  several : ∀ {v}, (s.nodes v).status = .leader → 2 ≤ n
  shipped : ∀ {call args}, call ∈ s.calls → call.request = .installSnapshot args →
    args.lastSnapShotIncludeIndex ≤ (s.nodes call.src).commitIndex
  caughtUp : ∀ {v}, (s.nodes v).status = .leader → (s.nodes v).CaughtUp

theorem recounted_start (n : Nat) : (start n).Recounted where
  several := by
    intro v leader
    cases leader
  shipped := by simp [start]
  caughtUp := by
    intro v leader
    cases leader

/-- An election is decided by the vote of another node. -/
theorem Effect.several (effect : s.Effect action s' emitted)
    (inv : Election events s counted) {v : Fin n} {rf : Raft n}
    (elected : .elected v rf ∈ emitted) : 2 ≤ n := by
  cases effect with
  | @sendRequestVote _ _ _ call _ _ _ awaited request _ =>
      have apart := inv.tally.remote (List.mem_of_getElem? awaited.found)
        (voteTag_of_request request)
      have := call.src.isLt
      have := call.dst.isLt
      by_contra alone
      exact apart (Fin.ext (by omega))
  | _ => simp at elected

/-- An entry of the term that a leader goes on leading was in its log before, or
stands behind the end of that log. -/
theorem Sound.moved_current (sound : Sound events moments s) {v : Fin n} {rf : Raft n}
    (moved : s.Moved action emitted v rf) (leads : (s.nodes v).status = .leader)
    (sameTerm : rf.currentTerm = (s.nodes v).currentTerm) {index : Int}
    (current : rf.HasCurrent index) :
    (s.nodes v).HasCurrent index ∨ (s.nodes v).getLastLogIndex < index := by
  obtain ⟨entry, member, rfl, term⟩ := current
  obtain ⟨placed', advances⟩ := sound.bounded.moved moved
  rcases sound.bounded.moved_logs moved member with present | ⟨command, _, _, rfl⟩
  · have range := placed'.index_range member
    have base := advances.snapshot
    exact Or.inl ⟨entry, sound.identified.kept leads ⟨s, sound.now, present⟩
      (term.trans sameTerm) (by omega), rfl, term.trans sameTerm⟩
  · exact Or.inr (Int.lt_succ _)

/-- An index beyond the log of a leader has no majority. -/
theorem Recounted.behind (recounted : s.Recounted) (bounded : s.Bounded) {v : Fin n}
    (leads : (s.nodes v).status = .leader) {index : Int}
    (beyond : (s.nodes v).getLastLogIndex < index) :
    ¬ n / 2 + 1 ≤ (s.nodes v).matched index := by
  have several := recounted.several leads
  have alone : (s.nodes v).matched index ≤ 1 := by
    apply Raft.matched_le_one
    intro server
    exact (bounded.tracked leads server).2.2.trans_lt beyond
  omega

/-- A leader is not behind the recount after a step that counts majorities. -/
theorem Recounted.moved_caughtUp (recounted : s.Recounted) (sound : Sound events moments s)
    (inv : Election events s counted) (counts : CountsMajorities s action)
    (taken : s.step action = some (s', emitted)) {v : Fin n}
    (leader : (s'.nodes v).status = .leader) : (s'.nodes v).CaughtUp := by
  have effect := step_effect taken
  have moved := effect.moved v
  have bounded := sound.bounded
  obtain ⟨placed', advances⟩ := bounded.moved moved
  obtain ⟨_, next⟩ := inv.step taken
  have me : (s'.nodes v).me = (s.nodes v).me := (next.me v).trans (inv.me v).symm
  have later := advances.committed
  intro index replicated
  rcases moved.leads leader with ⟨leads, sameTerm⟩ | ⟨_, elected, event⟩
  · -- The index had a majority before, unless this step has given it one.
    have kept : (∀ server, (s'.nodes v).matchIndex server ≥ index →
        (s.nodes v).matchIndex server ≥ index) → index ≤ (s'.nodes v).commitIndex := by
      intro fewer
      have majority := replicated.2.trans (Raft.matched_mono me fewer)
      rcases sound.moved_current moved leads sameTerm replicated.1 with current | beyond
      · exact (recounted.caughtUp leads index ⟨current, majority⟩).trans later
      · exact absurd majority (recounted.behind bounded leads beyond)
    cases moved.arrays with
    | same same =>
        apply kept
        intro server
        rw [same.matchIndex]
        exact id
    | elected follows _ => exact absurd leads follows
    | refused _ _ _ _ _ _ _ _ matched _ =>
        apply kept
        intro server
        rw [matched]
        exact id
    | @accepted position k a call args reply action awaited request own _ _ _ =>
        subst action own
        by_cases success : (s.nodes call.src).TakesSuccess reply
        · have agrees := (sound.commitsRecount awaited request success
            (recounted.caughtUp leads) taken).mpr counts
          exact agrees.caughtUp placed'.logs index replicated
        · obtain ⟨_, processed⟩ := bounded.sendAppendEntries awaited request taken
          apply kept
          intro server
          rw [Raft.sendAppendEntries_matchIndex success processed]
          exact id
    | @installed position k call args reply _ awaited request own _ _ _ matched _ =>
        have shipped := recounted.shipped (List.mem_of_getElem? awaited.found) request
        rw [own] at shipped
        by_cases inside : index ≤ args.lastSnapShotIncludeIndex
        · omega
        · apply kept
          intro server
          rw [matched]
          by_cases here : server = call.dst
          · subst here
            rw [Function.update_self]
            omega
          · rw [Function.update_of_ne here]
            exact id
  · -- A new leader knows of no match.
    have several := effect.several inv event
    have range := Raft.replicated_range placed'.logs replicated
    have base := placed'.base
    have unmatched : ∀ server, (s'.nodes v).matchIndex server < index := by
      intro server
      rw [elected]
      change 0 < index
      omega
    have alone := Raft.matched_le_one unmatched
    have majority := replicated.2
    omega

theorem Recounted.step (recounted : s.Recounted) (sound : Sound events moments s)
    (inv : Election events s counted) (counts : CountsMajorities s action)
    (taken : s.step action = some (s', emitted)) : s'.Recounted where
  several := by
    intro v leader
    have effect := step_effect taken
    rcases (effect.moved v).leads leader with ⟨leads, _⟩ | ⟨_, _, event⟩
    · exact recounted.several leads
    · exact effect.several inv event
  shipped := by
    intro call args member request
    have effect := step_effect taken
    have later := (sound.bounded.moved (effect.moved call.src)).2.committed
    rcases effect.newCall member with before | started
    · exact (recounted.shipped before request).trans later
    · cases started with
      | requestVote => cases request
      | appendEntries => cases request
      | @installSnapshot thread i server waiting =>
          cases request
          have placed := sound.bounded.placed i
          exact (placed.applied.trans placed.committed).trans later
  caughtUp := recounted.moved_caughtUp sound inv counts taken

theorem recounted_of_trace
    (trace : Trace Cluster.step CountsMajorities (start n) events moments s) : s.Recounted := by
  induction trace with
  | nil => exact recounted_start n
  | snoc before counts taken ih =>
      have sound := sound_of_trace before
      obtain ⟨_, election⟩ := sound.election
      exact ih.step sound election counts taken

end Cluster

/-- In every run whose successes count the majorities that they make, the next
success leaves the larger of the commit index before it and the recount if and
only if it counts its majority too. -/
theorem commits_recount_iff {n : Nat} {events emitted : List (Event n)} {s s' : Cluster n}
    {position k a : Nat} {call : RpcCall n} {args : AppendEntriesArgs}
    {reply : AppendEntriesReply} (run : ClusterRun CountsMajorities events s)
    (awaited : s.Awaited position k call (.appendEntries reply))
    (request : call.request = .appendEntries args a)
    (success : (s.nodes call.src).TakesSuccess reply)
    (taken : s.step (.processReply position) = some (s', emitted)) :
    Raft.CommitsRecount (s.nodes call.src) (s'.nodes call.src) ↔
      CountsMajorities s (.processReply position) := by
  obtain ⟨moments, trace⟩ := run.exists_trace
  have recounted := Cluster.recounted_of_trace trace
  exact (Cluster.sound_of_trace trace).commitsRecount awaited request success
    (recounted.caughtUp success.1) taken

/-- The request that carries the first entry of a leader of term 1. -/
def firstEntry (leader : Fin n) : AppendEntriesArgs :=
  { term := 1
    leaderId := (leader : Int)
    prevLogIndex := 0
    prevLogTerm := 0
    entries := [{ command := [97], logTerm := 1, logIndex := 1 }]
    leaderCommit := 0 }

/-- The reply of a follower of term 1 that has stored it. -/
def storedFirst : AppendEntriesReply :=
  { term := 1, success := true, appState := AppNormal }

/-- The first of two followers has stored the entry that its leader sent. -/
def storedByFirst (leader : Fin n) : List (Action n) :=
  [.doElection leader, .handle 0, .processReply 0, .startConses leader [97],
    .doHeartBeat leader, .handle 2]

/-- The leader of five nodes has sent its first entry in two rounds.  One peer
has answered the first round, another one the second, and the reply of the first
of them has been processed. -/
def storedInTwoRounds (leader : Fin n) : List (Action n) :=
  [.doElection leader, .handle 0, .handle 1, .processReply 0, .processReply 1,
    .startConses leader [97], .doHeartBeat leader, .doHeartBeat leader, .handle 4, .handle 9,
    .processReply 2]

theorem commits_recount_iff_storedByFirst :
    ∃ (events emitted : List (Event 3)) (s s' : Cluster 3) (call : RpcCall 3),
      ClusterRun CountsMajorities events s ∧
      s.Awaited 1 2 call (.appendEntries storedFirst) ∧
      call.request = .appendEntries (firstEntry (0 : Fin 3)) 0 ∧
      (s.nodes call.src).TakesSuccess storedFirst ∧
      s.step (.processReply 1) = some (s', emitted) ∧
      Raft.CommitsRecount (s.nodes call.src) (s'.nodes call.src) := by
  obtain ⟨events, s, run, checked⟩ := exists_run_of_exec Cluster.step CountsMajorities
    (Cluster.start 3) (storedByFirst 0)
    (fun result => decide (result.1.Awaited 1 2 ⟨0, 1, .appendEntries (firstEntry (0 : Fin 3)) 0⟩
        (.appendEntries storedFirst) ∧
      (result.1.nodes 0).TakesSuccess storedFirst ∧
      CountsMajorities result.1 (.processReply 1) ∧
      (result.1.step (.processReply 1)).isSome))
    (by decide +kernel)
  simp only [decide_eq_true_eq, Option.isSome_iff_exists] at checked
  obtain ⟨awaited, success, counts, ⟨s', emitted⟩, taken⟩ := checked
  exact ⟨events, emitted, s, s', _, run, awaited, rfl, success, taken,
    (commits_recount_iff run awaited rfl success taken).mpr counts⟩

/-- The second success gives the entry three copies out of five, but completes
neither of the two rounds. -/
theorem not_commits_recount :
    ∃ (events emitted : List (Event 5)) (s s' : Cluster 5) (call : RpcCall 5),
      ClusterRun anyStep events s ∧ (∀ i, s.exited i = none) ∧
      s.Awaited 3 9 call (.appendEntries storedFirst) ∧
      call.request = .appendEntries (firstEntry (0 : Fin 5)) 1 ∧
      (s.nodes call.src).TakesSuccess storedFirst ∧
      s.step (.processReply 3) = some (s', emitted) ∧
      ¬ Raft.CommitsRecount (s.nodes call.src) (s'.nodes call.src) := by
  obtain ⟨events, s, run, checked⟩ := exists_run_of_exec Cluster.step anyStep
    (Cluster.start 5) (storedInTwoRounds 0)
    (fun result => decide (result.1.Awaited 3 9 ⟨0, 2, .appendEntries (firstEntry (0 : Fin 5)) 1⟩
        (.appendEntries storedFirst) ∧
      (result.1.nodes 0).TakesSuccess storedFirst ∧ ∀ i, result.1.exited i = none) &&
      (result.1.step (.processReply 3)).any fun next =>
        decide (¬ Raft.CommitsRecount (result.1.nodes 0) (next.1.nodes 0)))
    (by decide +kernel)
  simp only [Bool.and_eq_true, decide_eq_true_eq, Option.any_eq_true] at checked
  obtain ⟨⟨awaited, success, running⟩, ⟨s', emitted⟩, taken, behind⟩ := checked
  exact ⟨events, emitted, s, s', _, run, running, awaited, rfl, success, taken, behind⟩

end CppRaft.Protocol
