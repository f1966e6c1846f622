import CppRaft.Kv.Core
import CppRaft.RaftCore.Persistence
import CppRaft.RaftCore.Terms

/-!
# One node, its service and the channel between them

`applierTicker` collects the messages of committed entries under the lock of
the node and pushes them afterwards, every installed snapshot is pushed by a
detached thread of its own, and `ReadRaftApplyCommandLoop` pops the messages
one by one.  All messages that were ever pushed are kept, with the number of
those that the loop has popped.  A failed assertion or an unreadable archive
ends the process, so that no step is left.
-/

namespace CppRaft.Kv

open CppRaft.RaftCore
open CppRaft.Store
open CppRaft.Transition

variable {n : Nat}

/-- Where `ReadRaftApplyCommandLoop` is: at the head of the loop, or before the
call of `Raft::Snapshot` for the command that it has executed. -/
inductive ReadLoop
  | reading
  | snapshotting (op : Op) (raftIndex : Int) (snapshot : Bytes)
deriving DecidableEq

/-- A node with its service. -/
structure Pipeline (n : Nat) where
  rf : Raft n
  /-- What `applierTicker` has collected and not yet pushed. -/
  applyMsgs : List ApplyMsg
  /-- The `pushMsgToKvServer` threads that have not run yet. -/
  pushThreads : List ApplyMsg
  applyChan : List ApplyMsg
  popped : Nat
  server : KvServer
  readLoop : ReadLoop

/-- A choice of the scheduler. -/
inductive PipelineAction (n : Nat)
  /-- A critical section of the node that hands nothing to the service. -/
  | raft (action : NodeAction n)
  | installSnapshot (args : InstallSnapshotRequest)
  | getApplyLogs
  | applierPush
  | pushMsgToKvServer (thread : Nat)
  /-- One turn of the loop; `snapshot` is what `MakeSnapShot` would return. -/
  | readRaftApplyCommand (snapshot : Bytes)
  | snapshot

/-- What an observer sees after a step. -/
structure Observation where
  kvDB : StringMap Bytes
  /-- The channel is empty and no push is pending. -/
  quiet : Bool
  lastApplied : Int

namespace Pipeline

/-- A fresh node and a fresh service. -/
def start (me : Fin n) (maxRaftState : Int) : Pipeline n where
  rf := Raft.init me none
  applyMsgs := []
  pushThreads := []
  applyChan := []
  popped := 0
  server := .start maxRaftState
  readLoop := .reading

/-- What an observer sees. -/
def observe (s : Pipeline n) : Observation where
  kvDB := s.server.data.kvDB
  quiet := decide (s.applyMsgs = [] ∧ s.pushThreads = [] ∧ s.popped = s.applyChan.length)
  lastApplied := s.rf.lastApplied

/-- `GetCommandFromRaft`: the loop stops before `Raft::Snapshot` if a snapshot
is needed, and sends the command to its wait channel otherwise. -/
def getCommandFromRaft (s : Pipeline n) (archives : Archives) (message : ApplyMsg)
    (snapshot : Bytes) : Option (Pipeline n) :=
  match archives.readOp message.command with
  | none => none
  | some op =>
      if message.commandIndex ≤ s.server.lastSnapShotRaftLogIndex then some s
      else
        let server := { s.server with data := s.server.data.applyCommand op }
        if server.NeedsSnapShot s.rf.getRaftStateSize then
          if server.MakeSnapShot archives snapshot then
            some { s with
              server := server
              readLoop := .snapshotting op message.commandIndex snapshot }
          else none
        else some { s with server := server.sendMessageToWaitChan op message.commandIndex }

/-- The two tests of `ReadRaftApplyCommandLoop`. -/
def readMessage (s : Pipeline n) (archives : Archives) (message : ApplyMsg) (snapshot : Bytes) :
    Option (Pipeline n) := do
  let s ← if message.commandValid then s.getCommandFromRaft archives message snapshot else some s
  if message.snapshotValid then
    return { s with server := ← s.server.getSnapShotFromRaft archives message }
  else
    return s

/-- The state after an action; `none` when the action is not enabled. -/
def next (archives : Archives) (s : Pipeline n) : PipelineAction n → Option (Pipeline n)
  | .raft action =>
      match action with
      | .installSnapshot _ => none
      | .snapshot _ _ => none
      | _ =>
          match s.rf.release action with
          | .error _ => none
          | .ok rf => some { s with rf := rf }
  | .installSnapshot args =>
      match s.rf.installSnapshot args with
      | .error _ => none
      | .ok (rf, _, msg) => some { s with rf := rf, pushThreads := s.pushThreads ++ msg.toList }
  | .getApplyLogs =>
      if s.applyMsgs = [] then
        match s.rf.getApplyLogs with
        | .error _ => none
        | .ok (rf, applyMsgs) => some { s with rf := rf, applyMsgs := applyMsgs }
      else none
  | .applierPush =>
      match s.applyMsgs with
      | [] => none
      | message :: rest =>
          some { s with applyMsgs := rest, applyChan := s.applyChan ++ [message] }
  | .pushMsgToKvServer thread =>
      match s.pushThreads[thread]? with
      | none => none
      | some message =>
          some { s with
            pushThreads := s.pushThreads.eraseIdx thread
            applyChan := s.applyChan ++ [message] }
  | .readRaftApplyCommand snapshot =>
      match s.readLoop, s.applyChan[s.popped]? with
      | .reading, some message =>
          { s with popped := s.popped + 1 }.readMessage archives message snapshot
      | _, _ => none
  | .snapshot =>
      match s.readLoop with
      | .reading => none
      | .snapshotting op raftIndex snapshot =>
          match s.rf.snapshot raftIndex snapshot with
          | .error _ => none
          | .ok rf =>
              some { s with
                rf := rf
                server := s.server.sendMessageToWaitChan op raftIndex
                readLoop := .reading }

/-- One observed step. -/
def step (archives : Archives) (s : Pipeline n) (action : PipelineAction n) :
    Option (Pipeline n × List Observation) :=
  (s.next archives action).map fun s' => (s', [s'.observe])

end Pipeline

/-! ## What the service is promised -/

/-- The committed entries that the node holds are those of `log`, and so is
what an installed snapshot encodes. -/
def FromLog (archives : Archives) (log : List Op) (s : Pipeline n) (action : PipelineAction n) :
    Prop :=
  (∀ (slice : Nat) (_ : slice < s.rf.logs.length),
    s.rf.lastSnapshotIncludeIndex + slice + 1 ≤ s.rf.commitIndex →
      (log[(s.rf.lastSnapshotIncludeIndex + slice).toNat]?).isSome ∧
        archives.readOp s.rf.logs[slice].command =
          log[(s.rf.lastSnapshotIncludeIndex + slice).toNat]?) ∧
  match action with
  | .installSnapshot args =>
      s.rf.currentTerm ≤ args.term →
        s.rf.lastSnapshotIncludeIndex < args.lastSnapShotIncludeIndex →
        0 ≤ args.lastSnapShotIncludeIndex ∧ args.lastSnapShotIncludeIndex ≤ log.length ∧
          args.data ≠ [] ∧
          archives.readKvData args.data =
            some (.replay (log.take args.lastSnapShotIncludeIndex.toNat))
  | _ => True

/-- The index up to which a message brings the service. -/
def messageIndex (message : ApplyMsg) : Int :=
  if message.commandValid then message.commandIndex else message.snapshotIndex

/-- Messages are pushed in order: no snapshot after a message with a larger
index, and no command while a snapshot with a smaller index is pending that
nothing pushed so far has reached. -/
def PushesInOrder (s : Pipeline n) : PipelineAction n → Prop
  | .applierPush =>
      ∀ message ∈ s.applyMsgs.head?, ∀ thread ∈ s.pushThreads,
        messageIndex thread < messageIndex message →
          ∃ pushed ∈ s.applyChan, messageIndex thread ≤ messageIndex pushed
  | .pushMsgToKvServer thread =>
      ∀ message ∈ s.pushThreads[thread]?, ∀ pushed ∈ s.applyChan,
        messageIndex pushed ≤ messageIndex message
  | _ => True

instance (archives : Archives) (log : List Op) (s : Pipeline n) (action : PipelineAction n) :
    Decidable (FromLog archives log s action) := by
  unfold FromLog
  cases action <;> infer_instance

instance (s : Pipeline n) (action : PipelineAction n) : Decidable (PushesInOrder s action) := by
  unfold PushesInOrder
  cases action <;> infer_instance

/-- The runs of a fresh node and its service whose steps are all accepted by
`guard`. -/
abbrev PipelineRun {n : Nat} (archives : Archives) (me : Fin n) (maxRaftState : Int)
    (guard : Pipeline n → PipelineAction n → Prop) (observations : List Observation)
    (s : Pipeline n) : Prop :=
  Run (Pipeline.step archives) guard (Pipeline.start me maxRaftState) observations s

/-- The database is always the replay of a prefix of the log, the prefix never
shrinks, and a quiet service has reached what the node has applied. -/
def FollowsLog (log : List Op) (observations : List Observation) : Prop :=
  ∃ ks : List Nat, ks.Pairwise (· ≤ ·) ∧
    List.Forall₂ (fun (o : Observation) (k : Nat) =>
      k ≤ log.length ∧ o.kvDB = (KvData.replay (log.take k)).kvDB ∧
        (o.quiet = true → (k : Int) = o.lastApplied)) observations ks

end CppRaft.Kv
