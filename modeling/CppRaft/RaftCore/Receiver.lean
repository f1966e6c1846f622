import CppRaft.RaftCore.Node

/-!
# The request handlers of a Raft node

`AppendEntries1`, `RequestVote` and `InstallSnapshot`, each as one critical
section of the node's mutex: the state when the lock is taken gives the state
when it is released together with the reply, or the assertion that ended the
process.
-/

namespace CppRaft.RaftCore

open CppRaft.Store

namespace Raft

variable {n : Nat}

/-! ## AppendEntries -/

/-- One round of the loop over `args->entries()`: append past the end of the
log, otherwise compare with the entry at the same index and overwrite it in
place when the terms differ. -/
def appendEntry (rf : Raft n) (log : LogEntry) : Except Fault (Raft n) :=
  if log.logIndex > rf.getLastLogIndex then
    return { rf with logs := rf.logs ++ [log] }
  else do
    let slice ← rf.getSlicesIndexFromLogIndex log.logIndex
    let old ← rf.logAt slice
    myAssert (¬ (old.logTerm = log.logTerm ∧ old.command ≠ log.command)) .sameTermOtherCommand
    if old.logTerm ≠ log.logTerm then
      return { rf with logs := rf.logs.set slice log }
    else
      return rf

/-- The loop over `args->entries()`. -/
def appendEntriesLoop (rf : Raft n) : List LogEntry → Except Fault (Raft n)
  | [] => return rf
  | log :: rest => do
      let rf ← rf.appendEntry log
      rf.appendEntriesLoop rest

/-- The branch of `AppendEntries1` in which the previous entry matches. -/
def acceptEntries (rf : Raft n) (args : AppendEntriesArgs) (reply : AppendEntriesReply) :
    Except Fault (Raft n × AppendEntriesReply) := do
  let rf ← rf.appendEntriesLoop args.entries
  myAssert (rf.getLastLogIndex ≥ args.prevLogIndex + args.entries.length) .entriesNotStored
  let rf :=
    if args.leaderCommit > rf.commitIndex then
      { rf with commitIndex := min args.leaderCommit rf.getLastLogIndex }
    else rf
  myAssert (rf.getLastLogIndex ≥ rf.commitIndex) .commitBeyondLog
  return (rf.persist, { reply with success := true, term := rf.currentTerm })

/-- The search `for (index = prev; index >= snapshot; --index)` for an entry
whose term differs from the one at `prev`, over the `count` lowest indexes. -/
def conflictScan (rf : Raft n) (prevLogIndex : Int) : Nat → Except Fault (Option Int)
  | 0 => return none
  | count + 1 => do
      let index := rf.lastSnapshotIncludeIndex + count
      if (← rf.getLogTermFromLogIndex index) ≠ (← rf.getLogTermFromLogIndex prevLogIndex) then
        return some (index + 1)
      else
        rf.conflictScan prevLogIndex count

/-- The branch of `AppendEntries1` in which the previous entry does not match. -/
def rejectEntries (rf : Raft n) (args : AppendEntriesArgs) (reply : AppendEntriesReply) :
    Except Fault (Raft n × AppendEntriesReply) := do
  let found ← rf.conflictScan args.prevLogIndex
    (args.prevLogIndex - rf.lastSnapshotIncludeIndex + 1).toNat
  return (rf.persist,
    { reply with
      updateNextIndex := found.getD args.prevLogIndex
      success := false
      term := rf.currentTerm })

/-- `AppendEntries1` once the term is adopted and the status is `Follower`. -/
def checkEntries (rf : Raft n) (args : AppendEntriesArgs) (reply : AppendEntriesReply) :
    Except Fault (Raft n × AppendEntriesReply) :=
  if args.prevLogIndex > rf.getLastLogIndex then
    return (rf.persist,
      { reply with
        success := false
        term := rf.currentTerm
        updateNextIndex := rf.getLastLogIndex + 1 })
  else do
    -- This branch of the source fills the reply but does not return.
    let reply :=
      if args.prevLogIndex < rf.lastSnapshotIncludeIndex then
        { reply with
          success := false
          term := rf.currentTerm
          updateNextIndex := rf.lastSnapshotIncludeIndex + 1 }
      else reply
    if ← rf.matchLog args.prevLogIndex args.prevLogTerm then
      rf.acceptEntries args reply
    else
      rf.rejectEntries args reply

/-- `Raft::AppendEntries1`. -/
def appendEntries1 (rf : Raft n) (args : AppendEntriesArgs) :
    Except Fault (Raft n × AppendEntriesReply) :=
  let reply : AppendEntriesReply := { appState := AppNormal }
  if args.term < rf.currentTerm then
    return (rf,
      { reply with success := false, term := rf.currentTerm, updateNextIndex := -100 })
  else do
    let rf := if args.term > rf.currentTerm then rf.adoptTerm args.term else rf
    myAssert (args.term = rf.currentTerm) .termNotAdopted
    let rf := { rf with status := .follower }
    rf.checkEntries args reply

/-! ## RequestVote -/

/-- `Raft::RequestVote`; the deferred `persist` runs on every path. -/
def requestVote (rf : Raft n) (args : RequestVoteArgs) :
    Except Fault (Raft n × RequestVoteReply) :=
  if args.term < rf.currentTerm then
    return (rf.persist,
      { term := rf.currentTerm, voteState := Expire, voteGranted := false })
  else do
    let rf := if args.term > rf.currentTerm then rf.adoptTerm args.term else rf
    myAssert (args.term = rf.currentTerm) .voteTermNotAdopted
    if ¬ rf.upToDate args.lastLogIndex args.lastLogTerm then
      return (rf.persist,
        { term := rf.currentTerm, voteState := Voted, voteGranted := false })
    else if rf.votedFor ≠ -1 ∧ rf.votedFor ≠ args.candidateId then
      return (rf.persist,
        { term := rf.currentTerm, voteState := Voted, voteGranted := false })
    else
      let rf := { rf with votedFor := args.candidateId }
      return (rf.persist,
        { term := rf.currentTerm, voteState := Normal, voteGranted := true })

/-! ## InstallSnapshot -/

/-- The erasure of `m_logs` in `InstallSnapshot`: a log that reaches past the
snapshot loses its beginning, any other log is cleared. -/
def cutLogs (rf : Raft n) (lastSnapShotIncludeIndex : Int) : Except Fault (List LogEntry) :=
  if rf.getLastLogIndex > lastSnapShotIncludeIndex then do
    let slice ← rf.getSlicesIndexFromLogIndex lastSnapShotIncludeIndex
    if slice + 1 ≤ rf.logs.length then
      return rf.logs.drop (slice + 1)
    else
      .error .vectorOutOfRange
  else
    return []

/-- The message that `InstallSnapshot` hands to `pushMsgToKvServer`. -/
def snapshotMsg (args : InstallSnapshotRequest) : ApplyMsg :=
  { snapshotValid := true
    snapshot := args.data
    snapshotTerm := args.lastSnapShotIncludeTerm
    snapshotIndex := args.lastSnapShotIncludeIndex }

/-- `Raft::InstallSnapshot`: the new state, the response, and the message of
the detached `pushMsgToKvServer` thread when one is started. -/
def installSnapshot (rf : Raft n) (args : InstallSnapshotRequest) :
    Except Fault (Raft n × InstallSnapshotResponse × Option ApplyMsg) :=
  if args.term < rf.currentTerm then
    return (rf, { term := rf.currentTerm }, none)
  else do
    let rf := if args.term > rf.currentTerm then (rf.adoptTerm args.term).persist else rf
    let rf := { rf with status := .follower }
    if args.lastSnapShotIncludeIndex ≤ rf.lastSnapshotIncludeIndex then
      -- An outdated snapshot leaves the term of the response unset.
      return (rf, {}, none)
    else
      let logs ← rf.cutLogs args.lastSnapShotIncludeIndex
      let rf :=
        { rf with
          logs := logs
          commitIndex := max rf.commitIndex args.lastSnapShotIncludeIndex
          lastApplied := max rf.lastApplied args.lastSnapShotIncludeIndex
          lastSnapshotIncludeIndex := args.lastSnapShotIncludeIndex
          lastSnapshotIncludeTerm := args.lastSnapShotIncludeTerm }
      return (rf.save args.data, { term := rf.currentTerm }, some (snapshotMsg args))

end Raft

end CppRaft.RaftCore
