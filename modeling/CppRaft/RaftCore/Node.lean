import CppRaft.RaftCore.Types

/-!
# The state of one Raft node and its log accessors

The fields of class `Raft` that its member functions compute with; clocks and
the node's own threads are left to the scheduler.  The Persister is described
by the calls made on it, with a raft state given as the record it archives.
A member function that can fail an assertion returns an `Except`.
-/

namespace CppRaft.RaftCore

open CppRaft.Store

/-- Class `Raft` in a cluster of `n` peers.  Its numbers are of type `int` in the
source, from `-2147483648` to `2147483647`, and unbounded here.  The functions on
them agree with those on machine integers as long as no sum leaves the range
(`Wrapping.operate_of_fits`).  In a run of the cluster an election raises a term
by one and a command an index, so the end of the range takes 2147483647 of them;
a request with arbitrary numbers reaches it at once. -/
structure Raft (n : Nat) where
  me : Fin n
  currentTerm : Int
  votedFor : Int
  logs : List LogEntry
  commitIndex : Int
  lastApplied : Int
  nextIndex : Fin n → Int
  matchIndex : Fin n → Int
  status : Status
  lastSnapshotIncludeIndex : Int
  lastSnapshotIncludeTerm : Int
  persister : List (Call BoostPersistRaftNode)

namespace Raft

variable {n : Nat}

/-- `Raft::getLastLogIndexAndTerm`. -/
def getLastLogIndexAndTerm (rf : Raft n) : Int × Int :=
  match rf.logs.getLast? with
  | none => (rf.lastSnapshotIncludeIndex, rf.lastSnapshotIncludeTerm)
  | some entry => (entry.logIndex, entry.logTerm)

/-- `Raft::getLastLogIndex`. -/
def getLastLogIndex (rf : Raft n) : Int :=
  rf.getLastLogIndexAndTerm.1

/-- `Raft::getNewCommandIndex`. -/
def getNewCommandIndex (rf : Raft n) : Int :=
  rf.getLastLogIndex + 1

/-- `Raft::getSlicesIndexFromLogIndex`. -/
def getSlicesIndexFromLogIndex (rf : Raft n) (logIndex : Int) : Except Fault Nat := do
  myAssert (logIndex > rf.lastSnapshotIncludeIndex) .sliceInSnapshot
  myAssert (logIndex ≤ rf.getLastLogIndex) .sliceBeyondLog
  return (logIndex - rf.lastSnapshotIncludeIndex - 1).toNat

/-- `m_logs[slice]`. -/
def logAt (rf : Raft n) (slice : Nat) : Except Fault LogEntry :=
  match rf.logs[slice]? with
  | none => .error .vectorOutOfRange
  | some entry => .ok entry

/-- `m_logs[getSlicesIndexFromLogIndex(logIndex)]`. -/
def logAtIndex (rf : Raft n) (logIndex : Int) : Except Fault LogEntry := do
  rf.logAt (← rf.getSlicesIndexFromLogIndex logIndex)

/-- `Raft::getLogTermFromLogIndex`. -/
def getLogTermFromLogIndex (rf : Raft n) (logIndex : Int) : Except Fault Int := do
  myAssert (logIndex ≥ rf.lastSnapshotIncludeIndex) .termBelowSnapshot
  myAssert (logIndex ≤ rf.getLastLogIndex) .termBeyondLog
  if logIndex = rf.lastSnapshotIncludeIndex then
    return rf.lastSnapshotIncludeTerm
  else
    return (← rf.logAtIndex logIndex).logTerm

/-- `Raft::matchLog`. -/
def matchLog (rf : Raft n) (logIndex logTerm : Int) : Except Fault Bool := do
  myAssert (logIndex ≥ rf.lastSnapshotIncludeIndex ∧ logIndex ≤ rf.getLastLogIndex)
    .matchOutOfRange
  return decide (logTerm = (← rf.getLogTermFromLogIndex logIndex))

/-- `Raft::UpToDate`. -/
def upToDate (rf : Raft n) (index term : Int) : Bool :=
  let (lastIndex, lastTerm) := rf.getLastLogIndexAndTerm
  decide (term > lastTerm ∨ (term = lastTerm ∧ index ≥ lastIndex))

/-- `Raft::getPrevLogInfo`: the index and term of the entry before the first
one that is sent to `server`. -/
def getPrevLogInfo (rf : Raft n) (server : Fin n) : Except Fault (Int × Int) :=
  if rf.nextIndex server = rf.lastSnapshotIncludeIndex + 1 then
    return (rf.lastSnapshotIncludeIndex, rf.lastSnapshotIncludeTerm)
  else do
    let preIndex := rf.nextIndex server - 1
    return (preIndex, (← rf.logAtIndex preIndex).logTerm)

/-- `Raft::persistData`. -/
def persistData (rf : Raft n) : BoostPersistRaftNode where
  currentTerm := rf.currentTerm
  votedFor := rf.votedFor
  lastSnapshotIncludeIndex := rf.lastSnapshotIncludeIndex
  lastSnapshotIncludeTerm := rf.lastSnapshotIncludeTerm
  logs := rf.logs

/-- `Raft::persist`. -/
def persist (rf : Raft n) : Raft n :=
  { rf with persister := rf.persister ++ [.saveRaftState rf.persistData] }

/-- `m_persister->Save(persistData(), snapshot)`. -/
def save (rf : Raft n) (snapshot : Bytes) : Raft n :=
  { rf with persister := rf.persister ++ [.save rf.persistData snapshot] }

/-- Adopt a larger term: status, term and vote change together. -/
def adoptTerm (rf : Raft n) (term : Int) : Raft n :=
  { rf with status := .follower, currentTerm := term, votedFor := -1 }

/-- `Raft::readPersist`; a node without saved state keeps its fields. -/
def readPersist (rf : Raft n) : Option BoostPersistRaftNode → Raft n
  | none => rf
  | some saved =>
      { rf with
        currentTerm := saved.currentTerm
        votedFor := saved.votedFor
        lastSnapshotIncludeIndex := saved.lastSnapshotIncludeIndex
        lastSnapshotIncludeTerm := saved.lastSnapshotIncludeTerm
        logs := saved.logs }

/-- `Raft::init` of node `me`, with the raft state that `ReadRaftState` returns. -/
def init (me : Fin n) (saved : Option BoostPersistRaftNode) : Raft n :=
  let rf : Raft n :=
    { me := me
      currentTerm := 0
      votedFor := -1
      logs := []
      commitIndex := 0
      lastApplied := 0
      nextIndex := fun _ => 0
      matchIndex := fun _ => 0
      status := .follower
      lastSnapshotIncludeIndex := 0
      lastSnapshotIncludeTerm := 0
      persister := [.readRaftState] }
  let rf := rf.readPersist saved
  if rf.lastSnapshotIncludeIndex > 0 then
    { rf with lastApplied := rf.lastSnapshotIncludeIndex }
  else rf

end Raft

end CppRaft.RaftCore
