import CppRaft.RaftCore.Receiver
import CppRaft.RaftCore.Sender
import CppRaft.Transition.Run

/-!
# A cluster of Raft nodes

The nodes run their critical sections in any order.  A remote call is a record
that stays: its request may be handled at any later time and any number of
times, each handling leaves a reply, and the call that sent the request
processes at most one of the replies to it.  A call whose request or reply is
lost is one that is never handled or never processed.  A node whose assertion
failed has left the cluster: it keeps its last state and takes no step.
-/

namespace CppRaft.Protocol

open CppRaft.RaftCore
open CppRaft.Store
open CppRaft.Transition

/-- A remote call in flight.  Calls of one election share a vote counter and
calls of one heartbeat round share an append counter, given by their positions
in the lists of counters. -/
inductive Request
  | requestVote (args : RequestVoteArgs) (votedNum : Nat)
  | appendEntries (args : AppendEntriesArgs) (appendNums : Nat)
  | installSnapshot (args : InstallSnapshotRequest)
deriving DecidableEq

/-- A remote call from node `src` to node `dst`. -/
structure RpcCall (n : Nat) where
  src : Fin n
  dst : Fin n
  request : Request
deriving DecidableEq

/-- The reply of one handling. -/
inductive Reply
  | requestVote (reply : RequestVoteReply)
  | appendEntries (reply : AppendEntriesReply)
  | installSnapshot (reply : InstallSnapshotResponse)
deriving DecidableEq

/-- The state of a cluster of `n` nodes. -/
structure Cluster (n : Nat) where
  nodes : Fin n → Raft n
  /-- The assertion that ended the process of a node. -/
  exited : Fin n → Option Fault
  /-- Every remote call made so far, the oldest first. -/
  calls : List (RpcCall n)
  /-- Every reply made so far, with the position of its call. -/
  replies : List (Nat × Reply)
  /-- The calls that have processed a reply. -/
  finished : List Nat
  /-- `leaderSendSnapShot` threads: node, peer, and whether it has already run. -/
  snapshotThreads : List (Fin n × Fin n × Bool)
  /-- The counters made by `doElection`. -/
  votedNums : List Int
  /-- The counters made by `doHeartBeat`. -/
  appendNums : List Int

/-- A choice of the scheduler. -/
inductive Action (n : Nat)
  | doElection (i : Fin n)
  | doHeartBeat (i : Fin n)
  | startConses (i : Fin n) (command : Bytes)
  | getApplyLogs (i : Fin n)
  | snapshot (i : Fin n) (index : Int) (data : Bytes)
  | leaderSendSnapShot (thread : Nat)
  | handle (call : Nat)
  | processReply (reply : Nat)
deriving DecidableEq

/-- What a step shows to an observer. -/
inductive Event (n : Nat)
  /-- `getApplyLogs` of node `i` emits a message. -/
  | emitted (i : Fin n) (msg : ApplyMsg)
  /-- Node `i` gives its vote of term `term` to `candidate`. -/
  | voted (i : Fin n) (term : Int) (candidate : Fin n)
  /-- `sendRequestVote` sets the status of node `i` to leader, giving `rf`. -/
  | elected (i : Fin n) (rf : Raft n)
  /-- `sendAppendEntries` raises the commit index of node `i`, giving `rf`. -/
  | committed (i : Fin n) (rf : Raft n)

namespace Cluster

variable {n : Nat}

/-- Every node fresh from `init` with an empty Persister. -/
def start (n : Nat) : Cluster n where
  nodes := fun i => Raft.init i none
  exited := fun _ => none
  calls := []
  replies := []
  finished := []
  snapshotThreads := []
  votedNums := []
  appendNums := []

/-- Replace the state of node `i`. -/
def setNode (s : Cluster n) (i : Fin n) (rf : Raft n) : Cluster n :=
  { s with nodes := Function.update s.nodes i rf }

/-- The process of node `i` ends. -/
def exit (s : Cluster n) (i : Fin n) (fault : Fault) : Cluster n :=
  { s with exited := Function.update s.exited i (some fault) }

/-- The reply to call `k` leaves its handler. -/
def addReply (s : Cluster n) (k : Nat) (reply : Reply) : Cluster n :=
  { s with replies := s.replies ++ [(k, reply)] }

/-- Call `k` has processed a reply. -/
def finish (s : Cluster n) (k : Nat) : Cluster n :=
  { s with finished := k :: s.finished }

/-- `doElection` on node `i`. -/
def doElection (s : Cluster n) (i : Fin n) : Cluster n × List (Event n) :=
  match (s.nodes i).doElection with
  | (_, none) => (s, [])
  | (rf, some args) =>
      ({ s.setNode i rf with
          calls := s.calls ++ rf.peers.map fun server =>
            ⟨i, server, .requestVote args s.votedNums.length⟩
          votedNums := s.votedNums ++ [1] },
        [.voted i rf.currentTerm i])

/-- The calls that one heartbeat round starts at once. -/
def startedCalls (i : Fin n) (round : Nat) (started : List (Fin n × Raft.Outgoing)) :
    List (RpcCall n) :=
  started.filterMap fun (server, outgoing) =>
    match outgoing with
    | .appendEntries args => some ⟨i, server, .appendEntries args round⟩
    | .snapshot => none

/-- The `leaderSendSnapShot` threads that one heartbeat round starts. -/
def startedThreads (i : Fin n) (started : List (Fin n × Raft.Outgoing)) :
    List (Fin n × Fin n × Bool) :=
  started.filterMap fun (server, outgoing) =>
    match outgoing with
    | .appendEntries _ => none
    | .snapshot => some (i, server, false)

/-- `doHeartBeat` on node `i`; what was started before a failed assertion is
already on its way. -/
def doHeartBeat (s : Cluster n) (i : Fin n) : Cluster n :=
  if (s.nodes i).status = .leader then
    let (started, fault) := (s.nodes i).doHeartBeat
    let sent :=
      { s with
        calls := s.calls ++ startedCalls i s.appendNums.length started
        snapshotThreads := s.snapshotThreads ++ startedThreads i started
        appendNums := s.appendNums ++ [1] }
    match fault with
    | none => sent
    | some fault => sent.exit i fault
  else s

/-- `getApplyLogs` on node `i`. -/
def getApplyLogs (s : Cluster n) (i : Fin n) : Cluster n × List (Event n) :=
  match (s.nodes i).getApplyLogs with
  | .error fault => (s.exit i fault, [])
  | .ok (rf, applyMsgs) => (s.setNode i rf, applyMsgs.map (Event.emitted i))

/-- `Snapshot` on node `i`. -/
def snapshot (s : Cluster n) (i : Fin n) (index : Int) (data : Bytes) : Cluster n :=
  match (s.nodes i).snapshot index data with
  | .error fault => s.exit i fault
  | .ok rf => s.setNode i rf

/-- The first critical section of a `leaderSendSnapShot` thread of node `i`. -/
def sendSnapshot (s : Cluster n) (thread : Nat) (i server : Fin n) : Cluster n :=
  let (rf, args) := (s.nodes i).snapshotArgs
  { s.setNode i rf with
    calls := s.calls ++ [⟨i, server, .installSnapshot args⟩]
    snapshotThreads := s.snapshotThreads.set thread (i, server, true) }

/-- The request of call `k` is handled by its server. -/
def handle (s : Cluster n) (k : Nat) (call : RpcCall n) : Cluster n × List (Event n) :=
  match call.request with
  | .requestVote args _ =>
      match (s.nodes call.dst).requestVote args with
      | .error fault => (s.exit call.dst fault, [])
      | .ok (rf, reply) =>
          ((s.setNode call.dst rf).addReply k (.requestVote reply),
            if reply.voteGranted then [.voted call.dst reply.term call.src] else [])
  | .appendEntries args _ =>
      match (s.nodes call.dst).appendEntries1 args with
      | .error fault => (s.exit call.dst fault, [])
      | .ok (rf, reply) => ((s.setNode call.dst rf).addReply k (.appendEntries reply), [])
  | .installSnapshot args =>
      match (s.nodes call.dst).installSnapshot args with
      | .error fault => (s.exit call.dst fault, [])
      | .ok (rf, reply, _) => ((s.setNode call.dst rf).addReply k (.installSnapshot reply), [])

/-- Call `k` processes `reply` on the node that sent it. -/
def processReply (s : Cluster n) (k : Nat) (call : RpcCall n) (reply : Reply) :
    Option (Cluster n × List (Event n)) :=
  match call.request, reply with
  | .requestVote _ counter, .requestVote reply =>
      match (s.nodes call.src).sendRequestVote reply (s.votedNums.getD counter 0) with
      | .error fault => some (s.exit call.src fault, [])
      | .ok outcome =>
          some ({ (s.setNode call.src outcome.rf).finish k with
              votedNums := s.votedNums.set counter outcome.votedNum },
            if outcome.elected then [.elected call.src outcome.rf] else [])
  | .appendEntries args counter, .appendEntries reply =>
      match (s.nodes call.src).sendAppendEntries call.dst args reply
          (s.appendNums.getD counter 0) with
      | .error fault => some (s.exit call.src fault, [])
      | .ok (rf, appendNums) =>
          some ({ (s.setNode call.src rf).finish k with
              appendNums := s.appendNums.set counter appendNums },
            if rf.commitIndex > (s.nodes call.src).commitIndex then
              [.committed call.src rf] else [])
  | .installSnapshot args, .installSnapshot reply =>
      some ((s.setNode call.src
        ((s.nodes call.src).leaderSendSnapShot call.dst args reply)).finish k, [])
  | _, _ => none

/-- One step of the cluster; `none` when the action is not enabled. -/
def step (s : Cluster n) : Action n → Option (Cluster n × List (Event n))
  | .doElection i =>
      if s.exited i = none then some (s.doElection i) else none
  | .doHeartBeat i =>
      if s.exited i = none then some (s.doHeartBeat i, []) else none
  | .startConses i command =>
      if s.exited i = none then
        some (s.setNode i ((s.nodes i).startConses command).1, [])
      else none
  | .getApplyLogs i =>
      if s.exited i = none then some (s.getApplyLogs i) else none
  | .snapshot i index data =>
      if s.exited i = none then some (s.snapshot i index data, []) else none
  | .leaderSendSnapShot thread =>
      match s.snapshotThreads[thread]? with
      | some (i, server, false) =>
          if s.exited i = none then some (s.sendSnapshot thread i server, []) else none
      | _ => none
  | .handle k =>
      match s.calls[k]? with
      | some call => if s.exited call.dst = none then some (s.handle k call) else none
      | none => none
  | .processReply position =>
      match s.replies[position]? with
      | some (k, reply) =>
          match s.calls[k]? with
          | some call =>
              if s.exited call.src = none ∧ k ∉ s.finished then
                s.processReply k call reply
              else none
          | none => none
      | none => none

end Cluster

/-- The runs of a cluster of `n` fresh nodes whose steps are all accepted by
`guard`. -/
abbrev ClusterRun {n : Nat} (guard : Cluster n → Action n → Prop)
    (events : List (Event n)) (s : Cluster n) : Prop :=
  Run Cluster.step guard (Cluster.start n) events s

end CppRaft.Protocol
