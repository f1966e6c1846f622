import CppRaft.RaftCore.Node

/-!
# Elections, heartbeats and reply processing of a Raft node

The functions that a node runs on its own account: the timers, the processing
of a reply by the call that sent the request, and the calls of the service.  A
remote call releases the mutex, so `leaderSendSnapShot` is two critical
sections, and `sendRequestVote` and `sendAppendEntries` are given by the part
that follows a successful call.
-/

namespace CppRaft.RaftCore

open CppRaft.Store

namespace Raft

variable {n : Nat}

/-! ## Elections -/

/-- `Raft::doElection`: the new state and the arguments sent to every peer;
nothing happens on a leader. -/
def doElection (rf : Raft n) : Raft n × Option RequestVoteArgs :=
  if rf.status = .leader then (rf, none)
  else
    let rf :=
      { rf with
        status := .candidate
        currentTerm := rf.currentTerm + 1
        votedFor := (rf.me : Int) }
    let rf := rf.persist
    let (lastLogIndex, lastLogTerm) := rf.getLastLogIndexAndTerm
    (rf, some
      { term := rf.currentTerm
        candidateId := (rf.me : Int)
        lastLogIndex := lastLogIndex
        lastLogTerm := lastLogTerm })

/-- The outcome of `sendRequestVote`: the state, the shared vote counter, and
whether the call made the node leader. -/
structure VoteOutcome (n : Nat) where
  rf : Raft n
  votedNum : Int
  elected : Bool

/-- The part of `sendRequestVote` that makes the node leader. -/
def becomeLeader (rf : Raft n) : Raft n :=
  let lastLogIndex := rf.getLastLogIndex
  { rf with
    status := .leader
    nextIndex := fun _ => lastLogIndex + 1
    matchIndex := fun _ => 0 }.persist

/-- `Raft::sendRequestVote` after the remote call succeeded. -/
def sendRequestVote (rf : Raft n) (reply : RequestVoteReply) (votedNum : Int) :
    Except Fault (VoteOutcome n) :=
  if reply.term > rf.currentTerm then
    return ⟨(rf.adoptTerm reply.term).persist, votedNum, false⟩
  else if reply.term < rf.currentTerm then
    return ⟨rf, votedNum, false⟩
  else do
    myAssert (reply.term = rf.currentTerm) .replyTermMismatch
    if ¬ reply.voteGranted then
      return ⟨rf, votedNum, false⟩
    else
      let votedNum := votedNum + 1
      if votedNum ≥ ((n / 2 + 1 : Nat) : Int) then
        myAssert (rf.status ≠ .leader) .electedTwice
        return ⟨rf.becomeLeader, 0, true⟩
      else
        return ⟨rf, votedNum, false⟩

/-! ## Heartbeats -/

/-- What `doHeartBeat` starts for one peer: an `AppendEntries` call with built
arguments, or a `leaderSendSnapShot` thread that builds its own later. -/
inductive Outgoing
  | appendEntries (args : AppendEntriesArgs)
  | snapshot
deriving DecidableEq

/-- The body of the loop of `doHeartBeat` for one peer. -/
def heartBeatTo (rf : Raft n) (server : Fin n) : Except Fault Outgoing := do
  myAssert (rf.nextIndex server ≥ 1) .nextIndexNotPositive
  if rf.nextIndex server ≤ rf.lastSnapshotIncludeIndex then
    return .snapshot
  else
    let (preLogIndex, prevLogTerm) ← rf.getPrevLogInfo server
    let entries ←
      if preLogIndex ≠ rf.lastSnapshotIncludeIndex then do
        let slice ← rf.getSlicesIndexFromLogIndex preLogIndex
        pure (rf.logs.drop (slice + 1))
      else
        pure rf.logs
    let args : AppendEntriesArgs :=
      { term := rf.currentTerm
        leaderId := (rf.me : Int)
        prevLogIndex := preLogIndex
        prevLogTerm := prevLogTerm
        entries := entries
        leaderCommit := rf.commitIndex }
    myAssert (args.prevLogIndex + args.entries.length = rf.getLastLogIndex) .entriesNotToEnd
    return .appendEntries args

/-- The loop of `doHeartBeat`: what was started for the peers in order, and the
assertion that ended it, if any. -/
def heartBeats (rf : Raft n) : List (Fin n) → List (Fin n × Outgoing) × Option Fault
  | [] => ([], none)
  | server :: rest =>
      match rf.heartBeatTo server with
      | .error fault => ([], some fault)
      | .ok outgoing =>
          let (later, fault) := rf.heartBeats rest
          ((server, outgoing) :: later, fault)

theorem mem_heartBeats {rf : Raft n} {servers : List (Fin n)} {server : Fin n}
    {outgoing : Outgoing} (started : (server, outgoing) ∈ (rf.heartBeats servers).1) :
    server ∈ servers ∧ rf.heartBeatTo server = .ok outgoing := by
  induction servers with
  | nil => cases started
  | cons first rest ih =>
      unfold heartBeats at started
      split at started
      · cases started
      · rename_i built
        rcases List.mem_cons.mp started with here | later
        · cases here
          exact ⟨List.mem_cons_self, built⟩
        · obtain ⟨inside, later⟩ := ih later
          exact ⟨List.mem_cons_of_mem _ inside, later⟩

theorem heartBeats_sublist (rf : Raft n) (servers : List (Fin n)) :
    ((rf.heartBeats servers).1.map Prod.fst).Sublist servers := by
  induction servers with
  | nil => simp [heartBeats]
  | cons first rest ih =>
      unfold heartBeats
      split
      · simp
      · exact ih.cons_cons first

/-- The peers of a node, in the order of `m_peers`. -/
def peers (rf : Raft n) : List (Fin n) :=
  (List.finRange n).filter fun server => server ≠ rf.me

/-- `Raft::doHeartBeat`; nothing happens on a node that is not leader. -/
def doHeartBeat (rf : Raft n) : List (Fin n × Outgoing) × Option Fault :=
  if rf.status = .leader then rf.heartBeats rf.peers else ([], none)

/-- `Raft::sendAppendEntries` after the remote call succeeded: the state and
the shared counter of the heartbeat round. -/
def sendAppendEntries (rf : Raft n) (server : Fin n) (args : AppendEntriesArgs)
    (reply : AppendEntriesReply) (appendNums : Int) : Except Fault (Raft n × Int) :=
  if reply.appState = Disconnected then
    return (rf, appendNums)
  else if reply.term > rf.currentTerm then
    -- The only path that changes the term without calling `persist`.
    return (rf.adoptTerm reply.term, appendNums)
  else if reply.term < rf.currentTerm then
    return (rf, appendNums)
  else if rf.status ≠ .leader then
    return (rf, appendNums)
  else do
    myAssert (reply.term = rf.currentTerm) .replyTermMismatch
    if ¬ reply.success then
      if reply.updateNextIndex ≠ -100 then
        return ({ rf with
          nextIndex := Function.update rf.nextIndex server reply.updateNextIndex }, appendNums)
      else
        return (rf, appendNums)
    else
      let appendNums := appendNums + 1
      let matched := max (rf.matchIndex server) (args.prevLogIndex + args.entries.length)
      let rf :=
        { rf with
          matchIndex := Function.update rf.matchIndex server matched
          nextIndex := Function.update rf.nextIndex server (matched + 1) }
      let lastLogIndex := rf.getLastLogIndex
      myAssert (rf.nextIndex server ≤ lastLogIndex + 1) .nextIndexBeyondLog
      if appendNums ≥ ((1 + n / 2 : Nat) : Int) then
        let rf :=
          if args.entries.getLast?.map LogEntry.logTerm = some rf.currentTerm then
            { rf with
              commitIndex := max rf.commitIndex (args.prevLogIndex + args.entries.length) }
          else rf
        myAssert (rf.commitIndex ≤ lastLogIndex) .commitBeyondLog
        return (rf, 0)
      else
        return (rf, appendNums)

/-! ## Snapshots sent by the leader -/

/-- The first critical section of `leaderSendSnapShot`. -/
def snapshotArgs (rf : Raft n) : Raft n × InstallSnapshotRequest :=
  let disk := Disk.after .libstdcxx (rf.me : Int) (fun _ => none)
    (rf.persister.map Call.withoutRaftState)
  ({ rf with persister := rf.persister ++ [.readSnapshot] },
    { leaderId := (rf.me : Int)
      term := rf.currentTerm
      lastSnapShotIncludeIndex := rf.lastSnapshotIncludeIndex
      lastSnapShotIncludeTerm := rf.lastSnapshotIncludeTerm
      data := disk.readSnapshot.2 })

/-- The second critical section of `leaderSendSnapShot`, after the remote call
succeeded. -/
def leaderSendSnapShot (rf : Raft n) (server : Fin n) (args : InstallSnapshotRequest)
    (reply : InstallSnapshotResponse) : Raft n :=
  if rf.status ≠ .leader ∨ rf.currentTerm ≠ args.term then rf
  else if reply.term > rf.currentTerm then (rf.adoptTerm reply.term).persist
  else
    { rf with
      matchIndex := Function.update rf.matchIndex server args.lastSnapShotIncludeIndex
      nextIndex := Function.update rf.nextIndex server (args.lastSnapShotIncludeIndex + 1) }

/-! ## Calls of the service -/

/-- `Raft::StartConses` with the archived command: the new state, and the index
and term of the new entry when the node is leader. -/
def startConses (rf : Raft n) (command : Bytes) : Raft n × Option (Int × Int) :=
  if rf.status ≠ .leader then (rf, none)
  else
    let newLogEntry : LogEntry :=
      { command := command
        logTerm := rf.currentTerm
        logIndex := rf.getNewCommandIndex }
    ({ rf with logs := rf.logs ++ [newLogEntry] }.persist,
      some (newLogEntry.logIndex, newLogEntry.logTerm))

/-- `Raft::GetRaftStateSize`. -/
def getRaftStateSize (rf : Raft n) : Int :=
  (Disk.after .libstdcxx (rf.me : Int) (fun _ => none)
    (rf.persister.map Call.withoutRaftState)).raftStateSize

/-- The loop of `getApplyLogs`, for `count` entries. -/
def applyLoop (rf : Raft n) : Nat → Except Fault (Raft n × List ApplyMsg)
  | 0 => return (rf, [])
  | count + 1 => do
      let rf := { rf with lastApplied := rf.lastApplied + 1 }
      let entry ← rf.logAtIndex rf.lastApplied
      myAssert (entry.logIndex = rf.lastApplied) .applyIndexMismatch
      let applyMsg : ApplyMsg :=
        { commandValid := true
          command := entry.command
          commandIndex := rf.lastApplied }
      let (rf, applyMsgs) ← rf.applyLoop count
      return (rf, applyMsg :: applyMsgs)

/-- `Raft::getApplyLogs`. -/
def getApplyLogs (rf : Raft n) : Except Fault (Raft n × List ApplyMsg) := do
  myAssert (rf.commitIndex ≤ rf.getLastLogIndex) .commitBeyondLog
  rf.applyLoop (rf.commitIndex - rf.lastApplied).toNat

/-- The entries at the indexes from `index` up to the end of the log, collected
one by one. -/
def collectLogs (rf : Raft n) (index : Int) : Nat → Except Fault (List LogEntry)
  | 0 => return []
  | count + 1 => do
      let entry ← rf.logAtIndex index
      return entry :: (← rf.collectLogs (index + 1) count)

/-- `Raft::Snapshot`.  At `getLastLogIndex() = 2147483647` the loop counter of the
source wraps around and an assertion fails; this is the function below that
index (`Wrapping.snapshot_of_isInt`). -/
def snapshot (rf : Raft n) (index : Int) (data : Bytes) : Except Fault (Raft n) :=
  if rf.lastSnapshotIncludeIndex ≥ index ∨ index > rf.commitIndex then
    return rf
  else do
    let lastLogIndex := rf.getLastLogIndex
    let newLastSnapshotIncludeTerm := (← rf.logAtIndex index).logTerm
    let trunckedLogs ← rf.collectLogs (index + 1) (lastLogIndex - index).toNat
    let rf :=
      { rf with
        lastSnapshotIncludeIndex := index
        lastSnapshotIncludeTerm := newLastSnapshotIncludeTerm
        logs := trunckedLogs
        commitIndex := max rf.commitIndex index
        lastApplied := max rf.lastApplied index }
    let rf := rf.save data
    myAssert (rf.logs.length + rf.lastSnapshotIncludeIndex = lastLogIndex) .snapshotLengthMismatch
    return rf

end Raft

end CppRaft.RaftCore
