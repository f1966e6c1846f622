import CppRaft.Protocol.Tally
import CppRaft.RaftCore.Terms

/-!
# What a step of the cluster can do

`Effect` lists the outcomes of a step, one constructor for each function that
the step can run.  The three lemmas after it read off what becomes of a node,
which calls are new, and which replies are new; the invariants of the cluster
are derived from them.
-/

namespace CppRaft.Protocol

open CppRaft.RaftCore
open CppRaft.Store

variable {n : Nat}

namespace Cluster

@[simp]
theorem setNode_nodes_self (s : Cluster n) (i : Fin n) (rf : Raft n) :
    (s.setNode i rf).nodes i = rf :=
  Function.update_self _ _ _

theorem setNode_nodes_ne (s : Cluster n) {i v : Fin n} (rf : Raft n) (other : v ≠ i) :
    (s.setNode i rf).nodes v = s.nodes v :=
  Function.update_of_ne other _ _

/-- The rounds that `doHeartBeat` of leader `i` starts. -/
def beat (s : Cluster n) (i : Fin n) : Cluster n :=
  { s with
    calls := s.calls ++ startedCalls i s.appendNums.length (s.nodes i).doHeartBeat.1
    snapshotThreads := s.snapshotThreads ++ startedThreads i (s.nodes i).doHeartBeat.1
    appendNums := s.appendNums ++ [1] }

theorem setNode_setNode (s : Cluster n) (i : Fin n) (rf rf' : Raft n) :
    (s.setNode i rf).setNode i rf' = s.setNode i rf' := by
  simp [setNode]

/-- Node `i` stands for election. -/
def stand (s : Cluster n) (i : Fin n) : Cluster n :=
  { s.setNode i (s.nodes i).candidacy with
    calls := s.calls ++ (s.nodes i).candidacy.peers.map fun server =>
      ⟨i, server, .requestVote
        { term := (s.nodes i).currentTerm + 1
          candidateId := ((s.nodes i).me : Int)
          lastLogIndex := (s.nodes i).getLastLogIndexAndTerm.1
          lastLogTerm := (s.nodes i).getLastLogIndexAndTerm.2 } s.votedNums.length⟩
    votedNums := s.votedNums ++ [1] }

/-- The reply at a position answers call `k`, which has not processed one. -/
structure Awaited (s : Cluster n) (position k : Nat) (call : RpcCall n) (reply : Reply) :
    Prop where
  answered : s.replies[position]? = some (k, reply)
  found : s.calls[k]? = some call
  pending : k ∉ s.finished

/-- A function that an action runs on node `i` fails an assertion. -/
inductive Failure (s : Cluster n) : Action n → Fin n → Fault → Prop
  | getApplyLogs {i : Fin n} {fault : Fault} :
      (s.nodes i).getApplyLogs = .error fault → Failure s (.getApplyLogs i) i fault
  | snapshot {i : Fin n} {index : Int} {data : Bytes} {fault : Fault} :
      (s.nodes i).snapshot index data = .error fault →
      Failure s (.snapshot i index data) i fault
  | requestVote {k a : Nat} {call : RpcCall n} {args : RequestVoteArgs} {fault : Fault} :
      s.calls[k]? = some call → call.request = .requestVote args a →
      (s.nodes call.dst).requestVote args = .error fault →
      Failure s (.handle k) call.dst fault
  | appendEntries1 {k a : Nat} {call : RpcCall n} {args : AppendEntriesArgs} {fault : Fault} :
      s.calls[k]? = some call → call.request = .appendEntries args a →
      (s.nodes call.dst).appendEntries1 args = .error fault →
      Failure s (.handle k) call.dst fault
  | installSnapshot {k : Nat} {call : RpcCall n} {args : InstallSnapshotRequest}
      {fault : Fault} :
      s.calls[k]? = some call → call.request = .installSnapshot args →
      (s.nodes call.dst).installSnapshot args = .error fault →
      Failure s (.handle k) call.dst fault
  | sendRequestVote {position k a : Nat} {call : RpcCall n} {args : RequestVoteArgs}
      {reply : RequestVoteReply} {fault : Fault} :
      s.Awaited position k call (.requestVote reply) → call.request = .requestVote args a →
      (s.nodes call.src).sendRequestVote reply (s.votedNums.getD a 0) = .error fault →
      Failure s (.processReply position) call.src fault
  | sendAppendEntries {position k a : Nat} {call : RpcCall n} {args : AppendEntriesArgs}
      {reply : AppendEntriesReply} {fault : Fault} :
      s.Awaited position k call (.appendEntries reply) → call.request = .appendEntries args a →
      (s.nodes call.src).sendAppendEntries call.dst args reply (s.appendNums.getD a 0) =
        .error fault →
      Failure s (.processReply position) call.src fault

/-- The outcomes of a step. -/
inductive Effect (s : Cluster n) : Action n → Cluster n → List (Event n) → Prop
  | idle {action : Action n} : Effect s action s []
  | fail {action : Action n} {i : Fin n} {fault : Fault} :
      s.Failure action i fault → Effect s action (s.exit i fault) []
  | doElection {i : Fin n} :
      (s.nodes i).status ≠ .leader →
      Effect s (.doElection i) (s.stand i) [.voted i (s.nodes i).candidacy.currentTerm i]
  | doHeartBeat {i : Fin n} :
      (s.nodes i).status = .leader → (s.nodes i).doHeartBeat.2 = none →
      Effect s (.doHeartBeat i) (s.beat i) []
  | doHeartBeatFail {i : Fin n} {fault : Fault} :
      (s.nodes i).status = .leader → (s.nodes i).doHeartBeat.2 = some fault →
      Effect s (.doHeartBeat i) ((s.beat i).exit i fault) []
  | startConses {i : Fin n} {command : Bytes} :
      Effect s (.startConses i command) (s.setNode i ((s.nodes i).startConses command).1) []
  | getApplyLogs {i : Fin n} {rf : Raft n} {applyMsgs : List ApplyMsg} :
      (s.nodes i).getApplyLogs = .ok (rf, applyMsgs) →
      Effect s (.getApplyLogs i) (s.setNode i rf) (applyMsgs.map (Event.emitted i))
  | snapshot {i : Fin n} {index : Int} {data : Bytes} {rf : Raft n} :
      (s.nodes i).snapshot index data = .ok rf →
      Effect s (.snapshot i index data) (s.setNode i rf) []
  | sendSnapshot {thread : Nat} {i server : Fin n} :
      s.snapshotThreads[thread]? = some (i, server, false) →
      Effect s (.leaderSendSnapShot thread) (s.sendSnapshot thread i server) []
  | requestVote {k a : Nat} {call : RpcCall n} {args : RequestVoteArgs} {rf : Raft n}
      {reply : RequestVoteReply} :
      s.calls[k]? = some call → call.request = .requestVote args a →
      (s.nodes call.dst).requestVote args = .ok (rf, reply) →
      Effect s (.handle k) ((s.setNode call.dst rf).addReply k (.requestVote reply))
        (if reply.voteGranted then [.voted call.dst reply.term call.src] else [])
  | appendEntries1 {k a : Nat} {call : RpcCall n} {args : AppendEntriesArgs} {rf : Raft n}
      {reply : AppendEntriesReply} :
      s.calls[k]? = some call → call.request = .appendEntries args a →
      (s.nodes call.dst).appendEntries1 args = .ok (rf, reply) →
      Effect s (.handle k) ((s.setNode call.dst rf).addReply k (.appendEntries reply)) []
  | installSnapshot {k : Nat} {call : RpcCall n} {args : InstallSnapshotRequest} {rf : Raft n}
      {reply : InstallSnapshotResponse} {msg : Option ApplyMsg} :
      s.calls[k]? = some call → call.request = .installSnapshot args →
      (s.nodes call.dst).installSnapshot args = .ok (rf, reply, msg) →
      Effect s (.handle k) ((s.setNode call.dst rf).addReply k (.installSnapshot reply)) []
  | sendRequestVote {position k a : Nat} {call : RpcCall n} {args : RequestVoteArgs}
      {reply : RequestVoteReply} {outcome : Raft.VoteOutcome n} :
      s.Awaited position k call (.requestVote reply) → call.request = .requestVote args a →
      (s.nodes call.src).sendRequestVote reply (s.votedNums.getD a 0) = .ok outcome →
      Effect s (.processReply position)
        { (s.setNode call.src outcome.rf).finish k with
          votedNums := s.votedNums.set a outcome.votedNum }
        (if outcome.elected then [.elected call.src outcome.rf] else [])
  | sendAppendEntries {position k a : Nat} {call : RpcCall n} {args : AppendEntriesArgs}
      {reply : AppendEntriesReply} {rf : Raft n} {appendNums : Int} :
      s.Awaited position k call (.appendEntries reply) → call.request = .appendEntries args a →
      (s.nodes call.src).sendAppendEntries call.dst args reply (s.appendNums.getD a 0) =
        .ok (rf, appendNums) →
      Effect s (.processReply position)
        { (s.setNode call.src rf).finish k with appendNums := s.appendNums.set a appendNums }
        (if rf.commitIndex > (s.nodes call.src).commitIndex then [.committed call.src rf] else [])
  | leaderSendSnapShot {position k : Nat} {call : RpcCall n} {args : InstallSnapshotRequest}
      {reply : InstallSnapshotResponse} :
      s.Awaited position k call (.installSnapshot reply) →
      call.request = .installSnapshot args →
      Effect s (.processReply position)
        ((s.setNode call.src
          ((s.nodes call.src).leaderSendSnapShot call.dst args reply)).finish k) []

theorem handle_effect (s : Cluster n) {k : Nat} {call : RpcCall n}
    (found : s.calls[k]? = some call) :
    s.Effect (.handle k) (s.handle k call).1 (s.handle k call).2 := by
  unfold handle
  cases request : call.request with
  | requestVote args a =>
      simp only
      cases handled : (s.nodes call.dst).requestVote args with
      | error fault => exact Effect.fail (Failure.requestVote found request handled)
      | ok result => exact Effect.requestVote found request handled
  | appendEntries args a =>
      simp only
      cases handled : (s.nodes call.dst).appendEntries1 args with
      | error fault => exact Effect.fail (Failure.appendEntries1 found request handled)
      | ok result => exact Effect.appendEntries1 found request handled
  | installSnapshot args =>
      simp only
      cases handled : (s.nodes call.dst).installSnapshot args with
      | error fault => exact Effect.fail (Failure.installSnapshot found request handled)
      | ok result => exact Effect.installSnapshot found request handled

theorem processReply_effect (s : Cluster n) {position k : Nat} {call : RpcCall n} {reply : Reply}
    (awaited : s.Awaited position k call reply) {s' : Cluster n} {emitted : List (Event n)}
    (processed : s.processReply k call reply = some (s', emitted)) :
    s.Effect (.processReply position) s' emitted := by
  unfold processReply at processed
  cases request : call.request with
  | requestVote args a =>
      cases reply with
      | requestVote vote =>
          simp only [request] at processed
          cases outcome : (s.nodes call.src).sendRequestVote vote (s.votedNums.getD a 0) with
          | error fault =>
              simp only [outcome, Option.some.injEq, Prod.mk.injEq] at processed
              obtain ⟨rfl, rfl⟩ := processed
              exact Effect.fail (Failure.sendRequestVote awaited request outcome)
          | ok result =>
              simp only [outcome, Option.some.injEq, Prod.mk.injEq] at processed
              obtain ⟨rfl, rfl⟩ := processed
              exact Effect.sendRequestVote awaited request outcome
      | appendEntries _ => simp [request] at processed
      | installSnapshot _ => simp [request] at processed
  | appendEntries args a =>
      cases reply with
      | appendEntries answer =>
          simp only [request] at processed
          cases outcome : (s.nodes call.src).sendAppendEntries call.dst args answer
              (s.appendNums.getD a 0) with
          | error fault =>
              simp only [outcome, Option.some.injEq, Prod.mk.injEq] at processed
              obtain ⟨rfl, rfl⟩ := processed
              exact Effect.fail (Failure.sendAppendEntries awaited request outcome)
          | ok result =>
              simp only [outcome, Option.some.injEq, Prod.mk.injEq] at processed
              obtain ⟨rfl, rfl⟩ := processed
              exact Effect.sendAppendEntries awaited request outcome
      | requestVote _ => simp [request] at processed
      | installSnapshot _ => simp [request] at processed
  | installSnapshot args =>
      cases reply with
      | installSnapshot answer =>
          simp only [request, Option.some.injEq, Prod.mk.injEq] at processed
          obtain ⟨rfl, rfl⟩ := processed
          exact Effect.leaderSendSnapShot awaited request
      | requestVote _ => simp [request] at processed
      | appendEntries _ => simp [request] at processed

/-- Every step of the cluster has one of the outcomes. -/
theorem step_effect {s s' : Cluster n} {action : Action n} {emitted : List (Event n)}
    (taken : s.step action = some (s', emitted)) : s.Effect action s' emitted := by
  cases action with
  | doElection i =>
      simp only [step, Option.ite_none_right_eq_some, Option.some.injEq] at taken
      obtain ⟨_, same⟩ := taken
      rcases (s.nodes i).doElection_cases with ⟨_, idle⟩ | ⟨follows, stands⟩
      · simp only [doElection, idle, Prod.mk.injEq] at same
        obtain ⟨rfl, rfl⟩ := same
        exact Effect.idle
      · simp only [doElection, stands, Prod.mk.injEq] at same
        obtain ⟨rfl, rfl⟩ := same
        exact Effect.doElection follows
  | doHeartBeat i =>
      simp only [step, Option.ite_none_right_eq_some, Option.some.injEq, Prod.mk.injEq] at taken
      obtain ⟨_, rfl, rfl⟩ := taken
      by_cases leads : (s.nodes i).status = .leader
      · simp only [doHeartBeat, leads, if_true]
        cases failed : (s.nodes i).doHeartBeat.2 with
        | none => exact Effect.doHeartBeat leads failed
        | some fault => exact Effect.doHeartBeatFail leads failed
      · simp only [doHeartBeat, leads, if_false]
        exact Effect.idle
  | startConses i command =>
      simp only [step, Option.ite_none_right_eq_some, Option.some.injEq, Prod.mk.injEq] at taken
      obtain ⟨_, rfl, rfl⟩ := taken
      exact Effect.startConses
  | getApplyLogs i =>
      simp only [step, Option.ite_none_right_eq_some, Option.some.injEq] at taken
      obtain ⟨_, same⟩ := taken
      cases collected : (s.nodes i).getApplyLogs with
      | error fault =>
          simp only [getApplyLogs, collected, Prod.mk.injEq] at same
          obtain ⟨rfl, rfl⟩ := same
          exact Effect.fail (Failure.getApplyLogs collected)
      | ok result =>
          simp only [getApplyLogs, collected, Prod.mk.injEq] at same
          obtain ⟨rfl, rfl⟩ := same
          exact Effect.getApplyLogs collected
  | snapshot i index data =>
      simp only [step, Option.ite_none_right_eq_some, Option.some.injEq, Prod.mk.injEq] at taken
      obtain ⟨_, rfl, rfl⟩ := taken
      unfold snapshot
      cases compacted : (s.nodes i).snapshot index data with
      | error fault => exact Effect.fail (Failure.snapshot compacted)
      | ok rf => exact Effect.snapshot compacted
  | leaderSendSnapShot thread =>
      simp only [step] at taken
      split at taken
      · rename_i i server waiting
        simp only [Option.ite_none_right_eq_some, Option.some.injEq, Prod.mk.injEq] at taken
        obtain ⟨_, rfl, rfl⟩ := taken
        exact Effect.sendSnapshot waiting
      · cases taken
  | handle k =>
      simp only [step] at taken
      split at taken
      · rename_i call found
        simp only [Option.ite_none_right_eq_some, Option.some.injEq] at taken
        obtain ⟨_, same⟩ := taken
        have effect := s.handle_effect found
        rwa [same] at effect
      · cases taken
  | processReply position =>
      simp only [step] at taken
      split at taken
      · rename_i k reply answered
        split at taken
        · rename_i call found
          simp only [Option.ite_none_right_eq_some] at taken
          obtain ⟨⟨_, pending⟩, processed⟩ := taken
          exact s.processReply_effect ⟨answered, found, pending⟩ processed
        · cases taken
      · cases taken

/-! ## What becomes of a node -/

/-- What a step makes of node `v`. -/
inductive Moved (s : Cluster n) (action : Action n) (emitted : List (Event n)) (v : Fin n) :
    Raft n → Prop
  | same : Moved s action emitted v (s.nodes v)
  | candidacy :
      (s.nodes v).status ≠ .leader → Moved s action emitted v (s.nodes v).candidacy
  | startConses {command : Bytes} :
      action = .startConses v command →
      Moved s action emitted v ((s.nodes v).startConses command).1
  | getApplyLogs {rf : Raft n} {applyMsgs : List ApplyMsg} :
      (s.nodes v).getApplyLogs = .ok (rf, applyMsgs) → Moved s action emitted v rf
  | snapshot {index : Int} {data : Bytes} {rf : Raft n} :
      (s.nodes v).snapshot index data = .ok rf → Moved s action emitted v rf
  | snapshotArgs : Moved s action emitted v (s.nodes v).snapshotArgs.1
  | requestVote {args : RequestVoteArgs} {rf : Raft n} {reply : RequestVoteReply} :
      (s.nodes v).requestVote args = .ok (rf, reply) → Moved s action emitted v rf
  | appendEntries1 {k a : Nat} {call : RpcCall n} {args : AppendEntriesArgs} {rf : Raft n}
      {reply : AppendEntriesReply} :
      call ∈ s.calls → call.request = .appendEntries args a → call.dst = v →
      action = .handle k → s.calls[k]? = some call →
      (s.nodes v).appendEntries1 args = .ok (rf, reply) → Moved s action emitted v rf
  | installSnapshot {call : RpcCall n} {args : InstallSnapshotRequest} {rf : Raft n}
      {reply : InstallSnapshotResponse} {msg : Option ApplyMsg} :
      call ∈ s.calls → call.request = .installSnapshot args → call.dst = v →
      (s.nodes v).installSnapshot args = .ok (rf, reply, msg) → Moved s action emitted v rf
  | sendRequestVote {reply : RequestVoteReply} {votedNum : Int}
      {outcome : Raft.VoteOutcome n} :
      (s.nodes v).sendRequestVote reply votedNum = .ok outcome →
      (outcome.elected = true → .elected v outcome.rf ∈ emitted) →
      Moved s action emitted v outcome.rf
  | sendAppendEntries {position k a : Nat} {call : RpcCall n} {args : AppendEntriesArgs}
      {reply : AppendEntriesReply} {rf : Raft n} {appendNums appendNums' : Int} :
      action = .processReply position → s.Awaited position k call (.appendEntries reply) →
      call.request = .appendEntries args a → call.src = v →
      (s.nodes v).sendAppendEntries call.dst args reply appendNums = .ok (rf, appendNums') →
      Moved s action emitted v rf
  | leaderSendSnapShot {position k : Nat} {call : RpcCall n} {args : InstallSnapshotRequest}
      {reply : InstallSnapshotResponse} :
      action = .processReply position → s.Awaited position k call (.installSnapshot reply) →
      call.request = .installSnapshot args → call.src = v →
      Moved s action emitted v ((s.nodes v).leaderSendSnapShot call.dst args reply)

theorem Moved.of_setNode {s : Cluster n} {action : Action n} {emitted : List (Event n)}
    {i : Fin n} {rf : Raft n} (moved : s.Moved action emitted i rf) (v : Fin n) :
    s.Moved action emitted v ((s.setNode i rf).nodes v) := by
  by_cases here : v = i
  · subst here
    rw [setNode_nodes_self]
    exact moved
  · rw [s.setNode_nodes_ne rf here]
    exact Moved.same

theorem Effect.moved {s s' : Cluster n} {action : Action n} {emitted : List (Event n)}
    (effect : s.Effect action s' emitted) (v : Fin n) :
    s.Moved action emitted v (s'.nodes v) := by
  cases effect with
  | idle => exact Moved.same
  | fail => exact Moved.same
  | doElection follows => exact Moved.of_setNode (Moved.candidacy follows) v
  | doHeartBeat => exact Moved.same
  | doHeartBeatFail => exact Moved.same
  | startConses => exact Moved.of_setNode (Moved.startConses rfl) v
  | getApplyLogs collected => exact Moved.of_setNode (Moved.getApplyLogs collected) v
  | snapshot compacted => exact Moved.of_setNode (Moved.snapshot compacted) v
  | sendSnapshot => exact Moved.of_setNode Moved.snapshotArgs v
  | requestVote found request handled => exact Moved.of_setNode (Moved.requestVote handled) v
  | appendEntries1 found request handled =>
      exact Moved.of_setNode
        (Moved.appendEntries1 (List.mem_of_getElem? found) request rfl rfl found handled) v
  | installSnapshot found request handled =>
      exact Moved.of_setNode
        (Moved.installSnapshot (List.mem_of_getElem? found) request rfl handled) v
  | sendRequestVote awaited request processed =>
      apply Moved.of_setNode _ v
      apply Moved.sendRequestVote processed
      intro elected
      simp [elected]
  | sendAppendEntries awaited request processed =>
      exact Moved.of_setNode (Moved.sendAppendEntries rfl awaited request rfl processed) v
  | leaderSendSnapShot awaited request =>
      exact Moved.of_setNode (Moved.leaderSendSnapShot rfl awaited request rfl) v

/-- A node that leads after a step led the same term before it, or was elected
by it. -/
theorem Moved.leads {s : Cluster n} {action : Action n} {emitted : List (Event n)} {v : Fin n}
    {rf : Raft n} (moved : s.Moved action emitted v rf) (leader : rf.status = .leader) :
    (s.nodes v).status = .leader ∧ rf.currentTerm = (s.nodes v).currentTerm ∨
      rf.currentTerm = (s.nodes v).currentTerm ∧ rf = (s.nodes v).becomeLeader ∧
        .elected v rf ∈ emitted := by
  have framed : ∀ {rf'}, (s.nodes v).VoteFrame rf' → rf'.status = .leader →
      (s.nodes v).status = .leader ∧ rf'.currentTerm = (s.nodes v).currentTerm :=
    fun frame leads => frame.leads leads
  cases moved with
  | same => exact Or.inl ⟨leader, rfl⟩
  | candidacy => cases leader
  | startConses => exact Or.inl (framed (Raft.voteFrame_startConses _ _) leader)
  | getApplyLogs collected => exact Or.inl (framed (Raft.voteFrame_getApplyLogs collected) leader)
  | snapshot compacted => exact Or.inl (framed (Raft.voteFrame_snapshot compacted) leader)
  | snapshotArgs => exact Or.inl ⟨leader, rfl⟩
  | requestVote handled =>
      rcases Raft.requestVote_cases handled with ⟨_, rfl, _⟩ | ⟨notOutdated, rfl, _⟩ |
        ⟨notOutdated, _, _, _, _, rfl⟩
      · exact Or.inl ⟨leader, rfl⟩
      · exact Or.inl ((Raft.voteFrame_meetTerm _ notOutdated).leads leader)
      · exact Or.inl ((Raft.voteFrame_meetTerm _ notOutdated).leads leader)
  | appendEntries1 _ _ _ _ _ handled =>
      exact Or.inl (framed (Raft.voteFrame_appendEntries1 handled) leader)
  | installSnapshot _ _ _ handled =>
      exact Or.inl (framed (Raft.voteFrame_installSnapshot handled) leader)
  | sendRequestVote processed elected =>
      rcases Raft.sendRequestVote_cases processed with ⟨_, rfl⟩ | ⟨_, rfl⟩ | ⟨_, _, rfl⟩ |
        ⟨_, _, _, _, rfl⟩
      · cases leader
      · exact Or.inl ⟨leader, rfl⟩
      · exact Or.inl ⟨leader, rfl⟩
      · exact Or.inr ⟨rfl, rfl, elected rfl⟩
  | sendAppendEntries _ _ _ _ processed =>
      exact Or.inl (framed (Raft.voteFrame_sendAppendEntries processed) leader)
  | leaderSendSnapShot =>
      exact Or.inl (framed (Raft.voteFrame_leaderSendSnapShot _ _ _ _) leader)

/-! ## New calls and replies -/

/-- A remote call that a step starts. -/
inductive NewCall (s : Cluster n) : Action n → RpcCall n → Prop
  | requestVote {action : Action n} {i server : Fin n} {args : RequestVoteArgs} {a : Nat} :
      NewCall s action ⟨i, server, .requestVote args a⟩
  | appendEntries {i server : Fin n} {args : AppendEntriesArgs} :
      (s.nodes i).status = .leader → server ∈ (s.nodes i).peers →
      (s.nodes i).heartBeatTo server = .ok (.appendEntries args) →
      NewCall s (.doHeartBeat i) ⟨i, server, .appendEntries args s.appendNums.length⟩
  | installSnapshot {thread : Nat} {i server : Fin n} :
      s.snapshotThreads[thread]? = some (i, server, false) →
      NewCall s (.leaderSendSnapShot thread)
        ⟨i, server, .installSnapshot (s.nodes i).snapshotArgs.2⟩

theorem beat_newCall {s : Cluster n} {i : Fin n} (leads : (s.nodes i).status = .leader)
    {call : RpcCall n} (member : call ∈ (s.beat i).calls) :
    call ∈ s.calls ∨ s.NewCall (.doHeartBeat i) call := by
  rcases List.mem_append.mp member with before | added
  · exact Or.inl before
  · obtain ⟨⟨server, outgoing⟩, started, made⟩ := List.mem_filterMap.mp added
    simp only [Raft.doHeartBeat, leads, if_true] at started
    obtain ⟨inside, built⟩ := Raft.mem_heartBeats started
    cases outgoing with
    | appendEntries args =>
        cases made
        exact Or.inr (NewCall.appendEntries leads inside built)
    | snapshot => cases made

theorem Effect.newCall {s s' : Cluster n} {action : Action n} {emitted : List (Event n)}
    (effect : s.Effect action s' emitted) {call : RpcCall n} (member : call ∈ s'.calls) :
    call ∈ s.calls ∨ s.NewCall action call := by
  cases effect with
  | doElection follows =>
      rcases List.mem_append.mp member with before | added
      · exact Or.inl before
      · obtain ⟨server, _, rfl⟩ := List.mem_map.mp added
        exact Or.inr NewCall.requestVote
  | doHeartBeat leads _ => exact beat_newCall leads member
  | doHeartBeatFail leads _ => exact beat_newCall leads member
  | sendSnapshot waiting =>
      rcases List.mem_append.mp member with before | added
      · exact Or.inl before
      · rw [List.mem_singleton.mp added]
        exact Or.inr (NewCall.installSnapshot waiting)
  | _ => exact Or.inl member

/-- Calls keep their positions. -/
theorem Effect.calls_getElem? {s s' : Cluster n} {action : Action n} {emitted : List (Event n)}
    (effect : s.Effect action s' emitted) {k : Nat} {call : RpcCall n}
    (found : s.calls[k]? = some call) : s'.calls[k]? = some call := by
  cases effect with
  | doElection => exact Transition.getElem?_append_of_eq_some found
  | doHeartBeat => exact Transition.getElem?_append_of_eq_some found
  | doHeartBeatFail => exact Transition.getElem?_append_of_eq_some found
  | sendSnapshot => exact Transition.getElem?_append_of_eq_some found
  | _ => exact found

/-- A reply that a step makes to call `k`, with the node that it leaves. -/
inductive NewReply (s s' : Cluster n) (k : Nat) : Reply → Prop
  | requestVote {call : RpcCall n} {reply : RequestVoteReply} :
      s.calls[k]? = some call → NewReply s s' k (.requestVote reply)
  | appendEntries {a : Nat} {call : RpcCall n} {args : AppendEntriesArgs}
      {reply : AppendEntriesReply} :
      s.calls[k]? = some call → call.request = .appendEntries args a →
      (s.nodes call.dst).appendEntries1 args = .ok (s'.nodes call.dst, reply) →
      NewReply s s' k (.appendEntries reply)
  | installSnapshot {call : RpcCall n} {reply : InstallSnapshotResponse} :
      s.calls[k]? = some call → NewReply s s' k (.installSnapshot reply)

theorem Effect.newReply {s s' : Cluster n} {action : Action n} {emitted : List (Event n)}
    (effect : s.Effect action s' emitted) {k : Nat} {reply : Reply}
    (member : (k, reply) ∈ s'.replies) :
    (k, reply) ∈ s.replies ∨ NewReply s s' k reply := by
  cases effect with
  | requestVote found request handled =>
      rcases List.mem_append.mp member with before | added
      · exact Or.inl before
      · cases List.mem_singleton.mp added
        exact Or.inr (NewReply.requestVote found)
  | @appendEntries1 _ _ call _ rf _ found request handled =>
      rcases List.mem_append.mp member with before | added
      · exact Or.inl before
      · cases List.mem_singleton.mp added
        apply Or.inr
        apply NewReply.appendEntries found request
        change _ = Except.ok ((s.setNode call.dst rf).nodes call.dst, _)
        rw [setNode_nodes_self]
        exact handled
  | installSnapshot found request handled =>
      rcases List.mem_append.mp member with before | added
      · exact Or.inl before
      · cases List.mem_singleton.mp added
        exact Or.inr (NewReply.installSnapshot found)
  | _ => exact Or.inl member

end Cluster

end CppRaft.Protocol
