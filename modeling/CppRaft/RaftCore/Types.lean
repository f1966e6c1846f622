import CppRaft.Store.Persister

/-!
# Messages and constants of the Raft layer

The protobuf messages of `raftRPC.proto`, the apply message, the persisted
record and the numeric constants of `raft.h`.  A `bytes` field is a byte string, and a field
that a handler leaves unset has the protobuf default.

An `int32` field is an `Int` without a bound; a message on the wire has only
values from `-2147483648` to `2147483647`.  What a node does at the ends of that
range is the subject of `RaftCore.Wrapping` and `RaftCore.Overflow`.
-/

namespace CppRaft.RaftCore

open CppRaft.Store

/-- `Raft::Status`. -/
inductive Status
  | follower
  | candidate
  | leader
deriving DecidableEq, Repr

/-- `LogEntry`. -/
structure LogEntry where
  command : Bytes
  logTerm : Int
  logIndex : Int
deriving DecidableEq, Repr

/-- `constexpr int Disconnected`. -/
def Disconnected : Int := 0

/-- `constexpr int AppNormal`. -/
def AppNormal : Int := 1

/-- `constexpr int Voted`: the vote of this term is already given. -/
def Voted : Int := 1

/-- `constexpr int Expire`: the candidate is out of date. -/
def Expire : Int := 2

/-- `constexpr int Normal`. -/
def Normal : Int := 3

/-- `AppendEntriesArgs`. -/
structure AppendEntriesArgs where
  term : Int
  leaderId : Int
  prevLogIndex : Int
  prevLogTerm : Int
  entries : List LogEntry
  leaderCommit : Int
deriving DecidableEq, Repr

/-- `AppendEntriesReply`. -/
structure AppendEntriesReply where
  term : Int := 0
  success : Bool := false
  updateNextIndex : Int := 0
  appState : Int := 0
deriving DecidableEq, Repr

/-- `RequestVoteArgs`. -/
structure RequestVoteArgs where
  term : Int
  candidateId : Int
  lastLogIndex : Int
  lastLogTerm : Int
deriving DecidableEq, Repr

/-- `RequestVoteReply`. -/
structure RequestVoteReply where
  term : Int := 0
  voteGranted : Bool := false
  voteState : Int := 0
deriving DecidableEq, Repr

/-- `InstallSnapshotRequest`. -/
structure InstallSnapshotRequest where
  leaderId : Int
  term : Int
  lastSnapShotIncludeIndex : Int
  lastSnapShotIncludeTerm : Int
  data : Bytes
deriving DecidableEq, Repr

/-- `InstallSnapshotResponse`. -/
structure InstallSnapshotResponse where
  term : Int := 0
deriving DecidableEq, Repr

/-- `ApplyMsg`, with the values its constructor sets. -/
structure ApplyMsg where
  commandValid : Bool := false
  command : Bytes := []
  commandIndex : Int := -1
  snapshotValid : Bool := false
  snapshot : Bytes := []
  snapshotTerm : Int := -1
  snapshotIndex : Int := -1
deriving DecidableEq, Repr

/-- The value of which `persistData` writes the text archive.  An entry stands
for its own protobuf serialisation. -/
structure BoostPersistRaftNode where
  currentTerm : Int
  votedFor : Int
  lastSnapshotIncludeIndex : Int
  lastSnapshotIncludeTerm : Int
  logs : List LogEntry
deriving DecidableEq, Repr

/-- The ways in which a step ends the process: each `myAssert` of `raft.cpp`,
and an access past the end of a vector. -/
inductive Fault
  | termNotAdopted
  | sameTermOtherCommand
  | entriesNotStored
  | commitBeyondLog
  | matchOutOfRange
  | termBelowSnapshot
  | termBeyondLog
  | sliceInSnapshot
  | sliceBeyondLog
  | vectorOutOfRange
  | applyIndexMismatch
  | voteTermNotAdopted
  | replyTermMismatch
  | electedTwice
  | nextIndexNotPositive
  | entriesNotToEnd
  | nextIndexBeyondLog
  | snapshotLengthMismatch
deriving DecidableEq, Repr

/-- `myAssert`: leave the process unless the condition holds. -/
def myAssert (condition : Prop) [Decidable condition] (fault : Fault) : Except Fault Unit :=
  if condition then .ok () else .error fault

@[simp]
theorem myAssert_eq_ok {condition : Prop} [Decidable condition] {fault : Fault} {value : Unit} :
    myAssert condition fault = .ok value ↔ condition := by
  unfold myAssert
  split <;> simp [*]

theorem pure_eq_ok {α : Type} {value result : α} :
    (pure value : Except Fault α) = .ok result ↔ value = result :=
  ⟨Except.ok.inj, congrArg Except.ok⟩

theorem map_eq_ok {α β : Type} {step : Except Fault α} {f : α → β} {result : β} :
    step.map f = .ok result ↔ ∃ value, step = .ok value ∧ f value = result := by
  cases step with
  | error fault => simp [Except.map]
  | ok value => simp [Except.map]

/-- A sequence of two fallible steps succeeds when both do. -/
theorem bind_eq_ok {α β : Type} {first : Except Fault α} {second : α → Except Fault β}
    {result : β} :
    (first >>= second) = .ok result ↔
      ∃ middle, first = .ok middle ∧ second middle = .ok result := by
  cases first with
  | error fault => simp [bind, Except.bind]
  | ok value => simp [bind, Except.bind]

end CppRaft.RaftCore
