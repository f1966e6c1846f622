import CppRaft.Protocol.Effect
import CppRaft.Protocol.ElectionSafety

/-!
# Who speaks for a term

`doHeartBeat` builds the arguments of an `AppendEntries` call while the node
leads.  A `leaderSendSnapShot` thread takes the lock again later and builds its
request with whatever term the node has then, without looking at `m_status`.
When it does so on a leader only, every request of a term comes from the winner
of the term, and the winner is not turned into a follower by its own term.
-/

namespace CppRaft.Protocol

open CppRaft.RaftCore
open CppRaft.Store
open CppRaft.Transition

variable {n : Nat}

/-- The term for which an `AppendEntries` or `InstallSnapshot` request speaks. -/
def Request.leaderTerm : Request → Option Int
  | .requestVote _ _ => none
  | .appendEntries args _ => some args.term
  | .installSnapshot args => some args.term

/-- The term of a request. -/
def Request.term : Request → Int
  | .requestVote args _ => args.term
  | .appendEntries args _ => args.term
  | .installSnapshot args => args.term

/-- A `leaderSendSnapShot` thread builds its request on a node that leads. -/
def SendsAsLeader (s : Cluster n) : Action n → Prop
  | .leaderSendSnapShot thread =>
      ∀ waiting ∈ s.snapshotThreads[thread]?, (s.nodes waiting.1).status = .leader
  | _ => True

instance (s : Cluster n) : (action : Action n) → Decidable (SendsAsLeader s action)
  | .leaderSendSnapShot thread =>
      inferInstanceAs (Decidable (∀ waiting ∈ s.snapshotThreads[thread]?,
        (s.nodes waiting.1).status = .leader))
  | .doElection _ | .doHeartBeat _ | .startConses _ _ | .getApplyLogs _ | .snapshot _ _ _
  | .handle _ | .processReply _ => isTrue trivial

/-- The winners of an election in a list of events. -/
def Event.elects (c : Fin n) (T : Int) : Event n → Bool
  | .elected c' rf => decide (c' = c ∧ rf.currentTerm = T)
  | _ => false

theorem won_iff {events : List (Event n)} {c : Fin n} {T : Int} :
    Won events c T ↔ events.any (Event.elects c T) = true := by
  rw [List.any_eq_true]
  constructor
  · rintro ⟨rf, elected, term⟩
    exact ⟨_, elected, decide_eq_true ⟨rfl, term⟩⟩
  · rintro ⟨event, member, elects⟩
    cases event with
    | elected c' rf =>
        obtain ⟨rfl, term⟩ := of_decide_eq_true elects
        exact ⟨rf, member, term⟩
    | _ => cases elects

namespace Cluster

variable {events emitted : List (Event n)} {s s' : Cluster n} {action : Action n}

/-- The threads that a heartbeat round starts are for peers. -/
theorem startedThreads_remote {i : Fin n} {server : Fin n} {done : Bool} {j : Fin n}
    (leads : (s.nodes i).status = .leader)
    (member : (j, server, done) ∈ startedThreads i (s.nodes i).doHeartBeat.1) :
    j = i ∧ server ∈ (s.nodes i).peers := by
  obtain ⟨⟨server', outgoing⟩, started, made⟩ := List.mem_filterMap.mp member
  simp only [Raft.doHeartBeat, leads, if_true] at started
  cases outgoing with
  | appendEntries args => cases made
  | snapshot =>
      cases made
      exact ⟨rfl, (Raft.mem_heartBeats started).1⟩

theorem mem_peers {rf : Raft n} {server : Fin n} : server ∈ rf.peers ↔ server ≠ rf.me := by
  simp [Raft.peers]

/-- The requests of a term come from its winner and go to other nodes. -/
structure Spoken (events : List (Event n)) (s : Cluster n) : Prop where
  won : ∀ {call}, call ∈ s.calls → ∀ {T}, call.request.leaderTerm = some T →
    Won events call.src T
  remote : ∀ {call}, call ∈ s.calls → ∀ {T}, call.request.leaderTerm = some T →
    call.src ≠ call.dst
  threads : ∀ {i server done}, (i, server, done) ∈ s.snapshotThreads → server ≠ i

theorem spoken_start (n : Nat) : Spoken [] (start n) where
  won := by simp [start]
  remote := by simp [start]
  threads := by simp [start]

theorem Spoken.threads_step (spoken : Spoken events s) (me : ∀ v, (s.nodes v).me = v)
    (effect : s.Effect action s' emitted) {i server : Fin n} {done : Bool}
    (member : (i, server, done) ∈ s'.snapshotThreads) : server ≠ i := by
  have beats : ∀ {j}, (s.nodes j).status = .leader →
      (i, server, done) ∈ (s.beat j).snapshotThreads → server ≠ i := by
    intro j leads member
    rcases List.mem_append.mp member with before | started
    · exact spoken.threads before
    · obtain ⟨rfl, inside⟩ := startedThreads_remote leads started
      rw [mem_peers, me] at inside
      exact inside
  cases effect with
  | doHeartBeat leads _ => exact beats leads member
  | doHeartBeatFail leads _ => exact beats leads member
  | @sendSnapshot thread j server' waiting =>
      rcases List.mem_or_eq_of_mem_set member with before | here
      · exact spoken.threads before
      · cases here
        exact spoken.threads (List.mem_of_getElem? waiting)
  | _ => exact spoken.threads member

/-- Every step that sends as leader keeps this. -/
theorem Spoken.step (spoken : Spoken events s) {counted : Nat → Finset (Fin n)}
    (election : Election events s counted) (sends : SendsAsLeader s action)
    (effect : s.Effect action s' emitted) : Spoken (events ++ emitted) s' where
  won := by
    intro call member T speaks
    rcases effect.newCall member with before | started
    · exact (spoken.won before speaks).append
    · cases started with
      | requestVote => cases speaks
      | @appendEntries i server args leads _ built =>
          cases speaks
          rw [Raft.heartBeatTo_term built]
          exact (election.leads leads).append
      | @installSnapshot thread i server waiting =>
          cases speaks
          exact (election.leads (sends _ waiting)).append
  remote := by
    intro call member T speaks
    rcases effect.newCall member with before | started
    · exact spoken.remote before speaks
    · cases started with
      | requestVote => cases speaks
      | appendEntries _ inside _ =>
          rw [mem_peers, election.me] at inside
          exact inside.symm
      | installSnapshot waiting => exact (spoken.threads (List.mem_of_getElem? waiting)).symm
  threads := spoken.threads_step election.me effect

theorem spoken_of_run (run : ClusterRun SendsAsLeader events s) : Spoken events s := by
  induction run with
  | nil => exact spoken_start n
  | snoc before sends taken ih =>
      obtain ⟨counted, election⟩ := election_of_run before
      exact ih.step election sends (step_effect taken)

end Cluster

/-- A vote request of the term of a node does not change its status. -/
theorem requestVote_sameTerm {rf rf' : Raft n} {args : RequestVoteArgs} {reply : RequestVoteReply}
    (handled : rf.requestVote args = .ok (rf', reply)) (sameTerm : rf.currentTerm = args.term) :
    rf'.status = rf.status := by
  have met : rf.meetTerm args.term = rf := by
    unfold Raft.meetTerm
    rw [if_neg (by omega)]
  rcases Raft.requestVote_cases handled with ⟨_, rfl, _⟩ | ⟨_, rfl, _⟩ | ⟨_, _, _, _, _, rfl⟩
  · rfl
  · rw [met]
    rfl
  · rw [met]
    rfl

/-- In every run in which the `leaderSendSnapShot` threads build their requests
on leaders, every `AppendEntries` or `InstallSnapshot` request of a term was
sent by the one node that was elected in that term, and no leader stops leading
by handling a request of its own term. -/
theorem winner_speaks {n : Nat} {events : List (Event n)} {s : Cluster n}
    (run : ClusterRun SendsAsLeader events s) :
    (∀ call ∈ s.calls, ∀ T, call.request.leaderTerm = some T →
      Won events call.src T ∧ ∀ c, Won events c T → c = call.src) ∧
    ∀ (k : Nat) (call : RpcCall n) (s' : Cluster n) (emitted : List (Event n)),
      s.calls[k]? = some call → s.step (.handle k) = some (s', emitted) →
      (s.nodes call.dst).status = .leader →
      (s.nodes call.dst).currentTerm = call.request.term →
      (s'.nodes call.dst).status = .leader := by
  have spoken := Cluster.spoken_of_run run
  obtain ⟨counted, election⟩ := election_of_run run
  constructor
  · intro call member T speaks
    have won := spoken.won member speaks
    exact ⟨won, fun c won' => election.winner_unique won' won⟩
  · intro k call s' emitted found taken leads term
    have member := List.mem_of_getElem? found
    -- A leader gets no request of its term from another leader.
    have foreign : call.request.leaderTerm ≠ some call.request.term := by
      intro speaks
      have won := spoken.won member speaks
      have own := election.leads leads
      rw [term] at own
      exact spoken.remote member speaks (election.winner_unique won own)
    cases Cluster.step_effect taken with
    | idle => exact leads
    | fail => exact leads
    | @requestVote _ a call' args rf reply found' request handled =>
        rw [found, Option.some.injEq] at found'
        subst found'
        rw [request] at term
        change ((s.setNode call.dst rf).nodes call.dst).status = .leader
        rw [Cluster.setNode_nodes_self, requestVote_sameTerm handled term]
        exact leads
    | appendEntries1 found' request _ =>
        rw [found, Option.some.injEq] at found'
        subst found'
        rw [request] at foreign
        exact absurd rfl foreign
    | installSnapshot found' request _ =>
        rw [found, Option.some.injEq] at found'
        subst found'
        rw [request] at foreign
        exact absurd rfl foreign

/-- In a cluster of nodes 0, 1 and 2, node 0 leads term 1 with a snapshot at
index 1 and starts a snapshot thread for node 1, which then wins term 2; node 0
learns of that term. -/
def overtakenThread (overtaken winner : Fin n) : List (Action n) :=
  [.doElection overtaken, .handle 1, .processReply 0, .startConses overtaken [97],
    .doHeartBeat overtaken, .handle 3, .processReply 1, .getApplyLogs overtaken,
    .snapshot overtaken 1 [7], .doHeartBeat overtaken,
    .handle 2, .doElection winner, .handle 6, .processReply 3, .handle 5]

/-- Node 1 wins term 2 and speaks for it. -/
theorem winner_speaks_overtakenThread :
    ∃ (events : List (Event 3)) (s : Cluster 3), ClusterRun SendsAsLeader events s ∧
      Won events 1 2 ∧ (s.calls[7]?.map fun call => (call.src, call.request.leaderTerm)) =
        some (1, some 2) ∧
      ∀ call ∈ s.calls, call.request.leaderTerm = some 2 → call.src = 1 := by
  obtain ⟨events, s, run, checked⟩ := exists_run_of_exec Cluster.step SendsAsLeader
    (Cluster.start 3) (overtakenThread 0 1 ++ [.doHeartBeat 1])
    (fun (result : Cluster 3 × List (Event 3)) =>
      decide (result.2.any (Event.elects 1 2) = true ∧
        (result.1.calls[7]?.map fun (call : RpcCall 3) =>
          (call.src, call.request.leaderTerm)) = some (1, some 2)))
    (by decide +kernel)
  rw [decide_eq_true_eq] at checked
  have won := won_iff.mpr checked.1
  refine ⟨events, s, run, won, checked.2, ?_⟩
  intro call member speaks
  exact (((winner_speaks run).1 call member 2 speaks).2 1 won).symm

/-- The thread of node 0 builds its request in term 2, which node 1 leads, and
the request turns node 1 into a follower. -/
theorem not_winner_speaks :
    ∃ (events : List (Event 3)) (s s' : Cluster 3) (emitted : List (Event 3)) (call : RpcCall 3),
      ClusterRun anyStep events s ∧ s.calls[7]? = some call ∧
      call.request.leaderTerm = some 2 ∧ ¬ Won events call.src 2 ∧
      s.step (.handle 7) = some (s', emitted) ∧
      (s.nodes call.dst).status = .leader ∧ (s.nodes call.dst).currentTerm = 2 ∧
      (s'.nodes call.dst).status ≠ .leader := by
  obtain ⟨events, s, run, checked⟩ := exists_run_of_exec Cluster.step anyStep (Cluster.start 3)
    (overtakenThread 0 1 ++ [.leaderSendSnapShot 0])
    (fun (result : Cluster 3 × List (Event 3)) => (result.1.calls[7]?).any
      fun (call : RpcCall 3) => (result.1.step (.handle 7)).any
        fun (next : Cluster 3 × List (Event 3)) =>
        decide (call.request.leaderTerm = some 2 ∧
          ¬ result.2.any (Event.elects call.src 2) = true ∧
          (result.1.nodes call.dst).status = .leader ∧
          (result.1.nodes call.dst).currentTerm = 2 ∧
          (next.1.nodes call.dst).status ≠ .leader))
    (by decide +kernel)
  simp only [Option.any_eq_true, decide_eq_true_eq] at checked
  obtain ⟨call, found, ⟨s', emitted⟩, taken, speaks, notWon, leads, term, follows⟩ := checked
  exact ⟨events, s, s', emitted, call, run, found, speaks, fun won => notWon (won_iff.mp won),
    taken, leads, term, follows⟩

end CppRaft.Protocol
