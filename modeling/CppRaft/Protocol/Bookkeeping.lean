import CppRaft.Protocol.Assertions

/-!
# What a leader knows of its peers

`m_matchIndex` of a peer should only grow while the leader leads a term, and
stay below `m_nextIndex`.  A success keeps this in any order, because it takes
the maximum.  Two other replies do not: a refusal sets `m_nextIndex` to the
index that it names however old it is, and a snapshot response sets
`m_matchIndex` to the snapshot that was sent even if more has been matched
since.
-/

namespace CppRaft.Protocol

open CppRaft.RaftCore
open CppRaft.Store
open CppRaft.Transition

variable {n : Nat}

/-- A refusal of the current term names an index that the peer has already
matched. -/
def RewindsNext (rf : Raft n) (server : Fin n) (reply : AppendEntriesReply) : Prop :=
  rf.status = .leader ∧ reply.term = rf.currentTerm ∧ reply.success = false ∧
    reply.updateNextIndex ≠ -100 ∧ reply.updateNextIndex ≤ rf.matchIndex server

/-- The snapshot that is acknowledged is older than what the peer has already
matched. -/
def RewindsMatch (rf : Raft n) (server : Fin n) (args : InstallSnapshotRequest)
    (reply : InstallSnapshotResponse) : Prop :=
  rf.status = .leader ∧ rf.currentTerm = args.term ∧ reply.term ≤ rf.currentTerm ∧
    args.lastSnapShotIncludeIndex < rf.matchIndex server

/-- A reply that is older than what the leader knows of the peer. -/
def Rewinds (rf : Raft n) (server : Fin n) : Request → Reply → Prop
  | .appendEntries _ _, .appendEntries reply => RewindsNext rf server reply
  | .installSnapshot args, .installSnapshot reply => RewindsMatch rf server args reply
  | _, _ => False

/-- The step processes such a reply. -/
def RewindsPeer (s : Cluster n) : Action n → Prop
  | .processReply position =>
      ∃ answer ∈ s.replies[position]?, ∃ call ∈ s.calls[answer.1]?,
        Rewinds (s.nodes call.src) call.dst call.request answer.2
  | _ => False

instance (rf : Raft n) (server : Fin n) (reply : AppendEntriesReply) :
    Decidable (RewindsNext rf server reply) :=
  inferInstanceAs (Decidable (_ ∧ _))

instance (rf : Raft n) (server : Fin n) (args : InstallSnapshotRequest)
    (reply : InstallSnapshotResponse) : Decidable (RewindsMatch rf server args reply) :=
  inferInstanceAs (Decidable (_ ∧ _))

instance (rf : Raft n) (server : Fin n) :
    (request : Request) → (reply : Reply) → Decidable (Rewinds rf server request reply)
  | .appendEntries _ _, .appendEntries reply =>
      inferInstanceAs (Decidable (RewindsNext rf server reply))
  | .installSnapshot args, .installSnapshot reply =>
      inferInstanceAs (Decidable (RewindsMatch rf server args reply))
  | .requestVote _ _, _ => isFalse id
  | .appendEntries _ _, .requestVote _ => isFalse id
  | .appendEntries _ _, .installSnapshot _ => isFalse id
  | .installSnapshot _, .requestVote _ => isFalse id
  | .installSnapshot _, .appendEntries _ => isFalse id

instance (s : Cluster n) : (action : Action n) → Decidable (RewindsPeer s action)
  | .processReply position =>
      inferInstanceAs (Decidable (∃ answer ∈ s.replies[position]?, ∃ call ∈ s.calls[answer.1]?,
        Rewinds (s.nodes call.src) call.dst call.request answer.2))
  | .doElection _ | .doHeartBeat _ | .startConses _ _ | .getApplyLogs _ | .snapshot _ _ _
  | .leaderSendSnapShot _ | .handle _ => isFalse id

/-- The steps that process no such reply. -/
abbrev KeepsPeer (s : Cluster n) (action : Action n) : Prop :=
  ¬ RewindsPeer s action

namespace Cluster

variable {events emitted : List (Event n)} {moments : List (Cluster n)} {s s' : Cluster n}
  {action : Action n}

theorem rewindsPeer_of_refusal {position k a : Nat} {call : RpcCall n} {args : AppendEntriesArgs}
    {reply : AppendEntriesReply} (awaited : s.Awaited position k call (.appendEntries reply))
    (request : call.request = .appendEntries args a) :
    RewindsPeer s (.processReply position) ↔
      RewindsNext (s.nodes call.src) call.dst reply := by
  simp only [RewindsPeer, awaited.answered, awaited.found, Option.mem_some_iff, exists_eq_left',
    request, Rewinds]

theorem rewindsPeer_of_response {position k : Nat} {call : RpcCall n}
    {args : InstallSnapshotRequest} {reply : InstallSnapshotResponse}
    (awaited : s.Awaited position k call (.installSnapshot reply))
    (request : call.request = .installSnapshot args) :
    RewindsPeer s (.processReply position) ↔
      RewindsMatch (s.nodes call.src) call.dst args reply := by
  simp only [RewindsPeer, awaited.answered, awaited.found, Option.mem_some_iff, exists_eq_left',
    request, Rewinds]

/-- While a node leads, a step that keeps peers lowers no matched index. -/
theorem moved_matched {v : Fin n} {rf : Raft n} (moved : s.Moved action emitted v rf)
    (keeps : KeepsPeer s action) (leads : (s.nodes v).status = .leader) (server : Fin n) :
    (s.nodes v).matchIndex server ≤ rf.matchIndex server := by
  cases moved.arrays with
  | same same => rw [same.matchIndex]
  | elected follows _ => exact absurd leads follows
  | refused _ _ _ _ _ _ _ _ matched _ => rw [matched]
  | @accepted position k a call args reply _ _ _ _ _ matched _ =>
      rw [matched]
      by_cases here : server = call.dst
      · subst here
        rw [Function.update_self]
        exact le_max_left _ _
      · rw [Function.update_of_ne here]
  | @installed position k call args reply taken awaited request own _ current notLater matched _ =>
      rw [matched]
      by_cases here : server = call.dst
      · subst here taken own
        rw [Function.update_self]
        by_contra lower
        apply keeps
        exact (rewindsPeer_of_response awaited request).mpr
          ⟨leads, current, notLater, by omega⟩
      · rw [Function.update_of_ne here]

/-- In a leader every matched index is below the next one. -/
def Ordered (s : Cluster n) : Prop :=
  ∀ v, (s.nodes v).status = .leader → ∀ server,
    (s.nodes v).matchIndex server < (s.nodes v).nextIndex server

theorem Ordered.step (ordered : s.Ordered) (bounded : s.Bounded) (keeps : KeepsPeer s action)
    (effect : s.Effect action s' emitted) : s'.Ordered := by
  intro v leader server
  have moved := effect.moved v
  rcases moved.leads leader with ⟨leads, _⟩ | ⟨_, same, _⟩
  · have before := ordered v leads server
    cases moved.arrays with
    | same same =>
        rw [same.nextIndex, same.matchIndex]
        exact before
    | elected follows _ => exact absurd leads follows
    | @refused position k a call args reply taken awaited request own _ term refused index
        matched next =>
        rw [next, matched]
        by_cases here : server = call.dst
        · subst here taken own
          rw [Function.update_self]
          by_contra lower
          apply keeps
          exact (rewindsPeer_of_refusal awaited request).mpr
            ⟨leads, term, refused, index, by omega⟩
        · rw [Function.update_of_ne here]
          exact before
    | @accepted position k a call args reply _ _ _ _ _ matched next =>
        rw [next, matched]
        by_cases here : server = call.dst
        · subst here
          rw [Function.update_self, Function.update_self]
          omega
        · rw [Function.update_of_ne here, Function.update_of_ne here]
          exact before
    | @installed position k call args reply _ _ _ _ _ _ _ matched next =>
        rw [next, matched]
        by_cases here : server = call.dst
        · subst here
          rw [Function.update_self, Function.update_self]
          omega
        · rw [Function.update_of_ne here, Function.update_of_ne here]
          exact before
  · have placed := bounded.placed v
    have base := placed.base
    have length := placed.getLastLogIndex
    rw [same]
    change 0 < (s.nodes v).getLastLogIndex + 1
    omega

theorem ordered_of_trace (trace : Trace Cluster.step KeepsPeer (start n) events moments s) :
    s.Ordered := by
  induction trace with
  | nil =>
      intro v leader
      cases leader
  | snoc before keeps taken ih =>
      exact ih.step (sound_of_trace before).bounded keeps (step_effect taken)

/-- While a node leads one term, its matched indexes do not go down. -/
theorem matched_of_run {i : Fin n} {T : Int} (run : ClusterRun KeepsPeer events s)
    (leads : (s.nodes i).status = .leader) (term : (s.nodes i).currentTerm = T)
    {more : List (Event n)} (later : Run Cluster.step KeepsPeer s more s')
    (leads' : (s'.nodes i).status = .leader) (term' : (s'.nodes i).currentTerm = T)
    (server : Fin n) :
    (s.nodes i).matchIndex server ≤ (s'.nodes i).matchIndex server := by
  apply while_leading (P := fun state =>
    (s.nodes i).matchIndex server ≤ (state.nodes i).matchIndex server)
    run leads term later leads' term' le_rfl
  intro _ _ _ _ _ _ lower keeps taken led _ _
  exact lower.trans (moved_matched ((step_effect taken).moved i) keeps led server)

end Cluster

/-- In every run whose steps process no reply that is older than what the
leader knows, `m_matchIndex` is below `m_nextIndex`, which is at most one above
the end of the log, in every leader, and `m_matchIndex` never decreases while
the node leads one term. -/
theorem peers_tracked {n : Nat} {events : List (Event n)} {s : Cluster n}
    (run : ClusterRun KeepsPeer events s) :
    (∀ i, (s.nodes i).status = .leader → ∀ server,
      (s.nodes i).matchIndex server < (s.nodes i).nextIndex server ∧
        (s.nodes i).nextIndex server ≤ (s.nodes i).getLastLogIndex + 1) ∧
    ∀ (more : List (Event n)) (s' : Cluster n), Run Cluster.step KeepsPeer s more s' →
      ∀ i, (s.nodes i).status = .leader → (s'.nodes i).status = .leader →
        (s'.nodes i).currentTerm = (s.nodes i).currentTerm →
        ∀ server, (s.nodes i).matchIndex server ≤ (s'.nodes i).matchIndex server := by
  obtain ⟨moments, trace⟩ := run.exists_trace
  have bounded := (Cluster.sound_of_trace trace).bounded
  constructor
  · intro i leads server
    exact ⟨Cluster.ordered_of_trace trace i leads server, (bounded.tracked leads server).2.1⟩
  · intro more s' later i leads leads' sameTerm server
    exact Cluster.matched_of_run run leads rfl later leads' sameTerm server

/-- Node 0 of three nodes has an entry that node 1 lacks, leads term 3 after the
rival node 2, and its first two requests to node 1 are refused. -/
def refusedTwice (leader rival : Fin n) : List (Action n) :=
  [.doElection leader, .handle 1, .processReply 0, .startConses leader [97],
    .doElection rival, .handle 2, .doElection leader, .handle 5, .processReply 2,
    .doHeartBeat leader, .doHeartBeat leader, .handle 6, .handle 8]

/-- The first refusal is processed, and the entry is sent and matched. -/
def matchedOnce (leader rival : Fin n) : List (Action n) :=
  refusedTwice leader rival ++ [.processReply 3, .doHeartBeat leader, .handle 10, .processReply 5]

theorem peers_tracked_matchedOnce :
    ∃ (events : List (Event 3)) (s : Cluster 3), ClusterRun KeepsPeer events s ∧
      (s.nodes 0).status = .leader ∧ (s.nodes 0).matchIndex 1 = 1 ∧
      (s.nodes 0).matchIndex 1 < (s.nodes 0).nextIndex 1 := by
  obtain ⟨events, s, run, checked⟩ := exists_run_of_exec Cluster.step KeepsPeer (Cluster.start 3)
    (matchedOnce 0 2)
    (fun result => decide ((result.1.nodes 0).status = .leader ∧
      (result.1.nodes 0).matchIndex 1 = 1))
    (by decide +kernel)
  rw [decide_eq_true_eq] at checked
  exact ⟨events, s, run, checked.1, checked.2, ((peers_tracked run).1 0 checked.1 1).1⟩

/-- The second refusal is processed after the match, and `m_nextIndex` goes
back to a matched index. -/
theorem not_peers_tracked :
    ∃ (events : List (Event 3)) (s : Cluster 3), ClusterRun anyStep events s ∧
      (∀ i, s.exited i = none) ∧ (s.nodes 0).status = .leader ∧
      ¬ (s.nodes 0).matchIndex 1 < (s.nodes 0).nextIndex 1 := by
  obtain ⟨events, s, run, checked⟩ := exists_run_of_exec Cluster.step anyStep (Cluster.start 3)
    (matchedOnce 0 2 ++ [.processReply 4])
    (fun result => decide ((∀ i, result.1.exited i = none) ∧
      (result.1.nodes 0).status = .leader ∧
      ¬ (result.1.nodes 0).matchIndex 1 < (result.1.nodes 0).nextIndex 1))
    (by decide +kernel)
  rw [decide_eq_true_eq] at checked
  exact ⟨events, s, run, checked⟩

end CppRaft.Protocol
