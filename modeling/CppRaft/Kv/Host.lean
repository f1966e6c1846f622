import CppRaft.Kv.Pipeline
import CppRaft.Kv.Sections
import CppRaft.RaftCore.Progress

/-!
# One server with its handlers

The node and its channel are those of the pipeline.  The handlers of `Get` and
`PutAppend` and the loop over the channel run in the critical sections of
`m_mtx`, of the node's mutex and of each `LockQueue`, in any order.  A handler
keeps its `raftIndex` and its `chForRaftIndex` in its stage.
-/

namespace CppRaft.Kv

open CppRaft.RaftCore
open CppRaft.Store
open CppRaft.Transition

variable {n : Nat}

/-! ## The state -/

/-- Where a handler is while its wait channel exists. -/
inductive Phase
  /-- In `timeOutPop`. -/
  | waiting
  | timedOut
  /-- In `Get` after a time-out, behind `GetState`. -/
  | knowsState (isLeader : Bool)
  /-- In `Get`, before `ExecuteGetOpOnKVDB`. -/
  | reading
  | deleting (reply : Reply)
deriving DecidableEq

/-- Where a handler of `Get` or `PutAppend` is. -/
inductive HandlerStage
  /-- Before `StartConses`. -/
  | starting
  /-- Returned, because the node is not leader. -/
  | refused
  /-- Before the wait channel is made. -/
  | creating (raftIndex : Int)
  | serving (raftIndex : Int) (ch : Nat) (phase : Phase)
  | returned (raftIndex : Int) (ch : Nat) (reply : Reply)
deriving DecidableEq

/-- The index that `StartConses` gave the handler. -/
def HandlerStage.raftIndex : HandlerStage → Option Int
  | .starting | .refused => none
  | .creating raftIndex | .serving raftIndex _ _ | .returned raftIndex _ _ => some raftIndex

/-- The queue that the handler has taken from `waitApplyCh`. -/
def HandlerStage.ch : HandlerStage → Option Nat
  | .starting | .refused | .creating _ => none
  | .serving _ ch _ | .returned _ ch _ => some ch

/-- The handler has a queue and has not deleted it. -/
def HandlerStage.serves : HandlerStage → Bool
  | .serving _ _ _ => true
  | .starting | .refused | .creating _ | .returned _ _ _ => false

/-- The handler has returned. -/
def HandlerStage.Returned : HandlerStage → Prop
  | .refused | .returned _ _ _ => True
  | .starting | .creating _ | .serving _ _ _ => False

/-- A handler thread. -/
structure HandlerThread where
  op : Op
  stage : HandlerStage

/-- Where `ReadRaftApplyCommandLoop` is in its turn. -/
inductive Turn
  | reading
  /-- In `GetCommandFromRaft`, with the command that the message carries. -/
  | popped (message : ApplyMsg) (op : Op)
  | checked (message : ApplyMsg) (op : Op) (duplicate : Bool)
  | executed (message : ApplyMsg) (op : Op)
  /-- In `IfNeedToSendSnapShotCommand`. -/
  | oversized (message : ApplyMsg) (op : Op)
  | compacting (message : ApplyMsg) (op : Op) (snapshot : Bytes)
  /-- Before `SendMessageToWaitChan`. -/
  | sending (message : ApplyMsg) (op : Op)
  /-- Before the test of `SnapshotValid`. -/
  | commanded (message : ApplyMsg)

/-- The command that the turn is executing, with its index. -/
def Turn.command : Turn → Option (Int × Op)
  | .reading | .commanded _ => none
  | .popped message op | .checked message op _ | .executed message op | .oversized message op
  | .compacting message op _ | .sending message op => some (message.commandIndex, op)

/-- A server, its node and its handlers. -/
structure Host (n : Nat) where
  pipeline : Pipeline n
  /-- Every handler started so far. -/
  handlers : List HandlerThread
  turn : Turn

/-- A choice of the scheduler. -/
inductive HostAction (n : Nat)
  /-- A step of the node, of `applierTicker` or of a `pushMsgToKvServer` thread. -/
  | pipeline (action : PipelineAction n)
  /-- A remote call of `Get` or `PutAppend` starts a handler. -/
  | call (op : Op)
  /-- `command` is what `asString` returns. -/
  | startConses (h : Nat) (command : Bytes)
  | createWaitCh (h : Nat)
  | timeOutPop (h : Nat) (timesOut : Bool)
  | getState (h : Nat)
  | ifRequestDuplicate (h : Nat)
  | executeGet (h : Nat)
  | deleteWaitCh (h : Nat)
  | pop
  | checkDuplicate
  | execute
  | getRaftStateSize
  /-- `snapshot` is what `MakeSnapShot` returns. -/
  | makeSnapShot (snapshot : Bytes)
  | snapshot
  | sendMessage
  | getSnapShotFromRaft

/-- What a step shows to an observer. -/
inductive HostEvent
  /-- Handler `h` makes a `LockQueue` and puts it into `waitApplyCh`. -/
  | created (h queue : Nat)
  /-- `timeOutPop` of handler `h` returns. -/
  | waited (h queue : Nat)
  | popped (h : Nat) (op : Op)
  /-- Handler `h` deletes a `LockQueue`. -/
  | deleted (h queue : Nat)
  /-- `GetCommandFromRaft` takes up the command at `raftIndex`. -/
  | applied (raftIndex : Int) (op : Op)
deriving DecidableEq

namespace Host

/-- A fresh node, a fresh service and no handlers. -/
def start (me : Fin n) (maxRaftState : Int) : Host n where
  pipeline := .start me maxRaftState
  handlers := []
  turn := .reading

/-- The node of the server. -/
abbrev rf (s : Host n) : Raft n :=
  s.pipeline.rf

/-- The service of the server. -/
abbrev kv (s : Host n) : KvServer :=
  s.pipeline.server

/-- Replace the node. -/
def setRaft (s : Host n) (rf : Raft n) : Host n :=
  { s with pipeline := { s.pipeline with rf := rf } }

/-- Replace the service. -/
def setKv (s : Host n) (kv : KvServer) : Host n :=
  { s with pipeline := { s.pipeline with server := kv } }

/-- Handler `h` moves to a stage. -/
def setStage (s : Host n) (h : Nat) (handler : HandlerThread) (stage : HandlerStage) : Host n :=
  { s with handlers := s.handlers.set h { handler with stage := stage } }

/-- What a handler that has popped `op` does next. -/
def poppedPhase (handler : HandlerThread) (op : Op) : Phase :=
  if op.clientId = handler.op.clientId ∧ op.requestId = handler.op.requestId then
    if handler.op.operation = .get then .reading else .deleting { err := .ok }
  else .deleting { err := .errWrongLeader }

/-! ## The handlers -/

/-- One critical section of handler `h`; `none` when the action does not fit
its stage. -/
def handlerStep (archives : Archives) (s : Host n) (h : Nat) (handler : HandlerThread) :
    HostAction n → Option (Host n × List HostEvent)
  | .startConses _ command =>
      match handler.stage with
      | .starting =>
          if archives.readOp command = some handler.op then
            match s.rf.startConses command with
            | (_, none) => some (s.setStage h handler .refused, [])
            | (rf, some (raftIndex, _)) =>
                some ((s.setRaft rf).setStage h handler (.creating raftIndex), [])
          else none
      | _ => none
  | .createWaitCh _ =>
      match handler.stage with
      | .creating raftIndex =>
          let (kv, ch) := s.kv.createWaitCh raftIndex
          some ((s.setKv kv).setStage h handler (.serving raftIndex ch .waiting),
            if (s.kv.waitApplyCh.lookup raftIndex).isNone then [.created h ch] else [])
      | _ => none
  | .timeOutPop _ timesOut =>
      match handler.stage with
      | .serving raftIndex ch .waiting =>
          -- `wait_until` may report a time-out although a message has arrived.
          if timesOut then
            some (s.setStage h handler (.serving raftIndex ch .timedOut), [.waited h ch])
          else
            match s.kv.lockQueues[ch]? with
            | some (op :: rest) =>
                some ((s.setKv { s.kv with lockQueues := s.kv.lockQueues.set ch rest }).setStage
                  h handler (.serving raftIndex ch (poppedPhase handler op)),
                  [.waited h ch, .popped h op])
            | _ => none
      | _ => none
  | .getState _ =>
      match handler.stage with
      | .serving raftIndex ch .timedOut =>
          if handler.op.operation = .get then
            let isLeader := decide (s.rf.status = .leader)
            some (s.setStage h handler (.serving raftIndex ch (.knowsState isLeader)), [])
          else none
      | _ => none
  | .ifRequestDuplicate _ =>
      let duplicate := s.kv.data.ifRequestDuplicate handler.op.clientId handler.op.requestId
      match handler.stage with
      | .serving raftIndex ch .timedOut =>
          if handler.op.operation = .get then none
          else
            let reply : Reply := { err := if duplicate then .ok else .errWrongLeader }
            some (s.setStage h handler (.serving raftIndex ch (.deleting reply)), [])
      | .serving raftIndex ch (.knowsState isLeader) =>
          let phase : Phase :=
            if duplicate && isLeader then .reading else .deleting { err := .errWrongLeader }
          some (s.setStage h handler (.serving raftIndex ch phase), [])
      | _ => none
  | .executeGet _ =>
      match handler.stage with
      | .serving raftIndex ch .reading =>
          let (data, value) := s.kv.data.executeGetOpOnKVDB handler.op
          some ((s.setKv { s.kv with data := data }).setStage h handler
            (.serving raftIndex ch (.deleting (.ofValue value))), [])
      | _ => none
  | .deleteWaitCh _ =>
      match handler.stage with
      | .serving raftIndex ch (.deleting reply) =>
          some ((s.setKv (s.kv.eraseWaitCh raftIndex)).setStage h handler
              (.returned raftIndex ch reply),
            -- A missing entry gives a null pointer, whose deletion does nothing.
            (s.kv.waitApplyCh.lookup raftIndex).toList.map (HostEvent.deleted h))
      | _ => none
  | _ => none

/-! ## The loop over the channel -/

/-- The beginning of a turn: `GetCommandFromRaft` up to `ifRequestDuplicate`. -/
def readMessage (archives : Archives) (s : Host n) (message : ApplyMsg) :
    Option (Host n × List HostEvent) :=
  let s : Host n := { s with pipeline := { s.pipeline with popped := s.pipeline.popped + 1 } }
  if message.commandValid then
    match archives.readOp message.command with
    | none => none
    | some op =>
        if message.commandIndex ≤ s.kv.lastSnapShotRaftLogIndex then
          some ({ s with turn := .commanded message }, [])
        else
          some ({ s with turn := .popped message op }, [.applied message.commandIndex op])
  else some ({ s with turn := .commanded message }, [])

/-- One critical section of the loop; `none` when the action does not fit its
place. -/
def loopStep (archives : Archives) (s : Host n) :
    HostAction n → Turn → Option (Host n × List HostEvent)
  | .pop, .reading =>
      match s.pipeline.applyChan[s.pipeline.popped]? with
      | none => none
      | some message => s.readMessage archives message
  | .checkDuplicate, .popped message op =>
      let duplicate := s.kv.data.ifRequestDuplicate op.clientId op.requestId
      some ({ s with turn := .checked message op duplicate }, [])
  | .execute, .checked message op duplicate =>
      let data := if duplicate then s.kv.data else s.kv.data.executeCommand op
      some ({ s.setKv { s.kv with data := data } with turn := .executed message op }, [])
  | .getRaftStateSize, .executed message op =>
      if s.kv.NeedsSnapShot s.rf.getRaftStateSize then
        some ({ s with turn := .oversized message op }, [])
      else some ({ s with turn := .sending message op }, [])
  | .makeSnapShot snapshot, .oversized message op =>
      if s.kv.MakeSnapShot archives snapshot then
        some ({ s with turn := .compacting message op snapshot }, [])
      else none
  | .snapshot, .compacting message op snapshot =>
      match s.rf.snapshot message.commandIndex snapshot with
      | .error _ => none
      | .ok rf => some ({ s.setRaft rf with turn := .sending message op }, [])
  | .sendMessage, .sending message op =>
      some ({ s.setKv (s.kv.sendMessageToWaitChan op message.commandIndex) with
        turn := .commanded message }, [])
  | .getSnapShotFromRaft, .commanded message =>
      if message.snapshotValid then
        match s.kv.getSnapShotFromRaft archives message with
        | none => none
        | some kv => some ({ s.setKv kv with turn := .reading }, [])
      else some ({ s with turn := .reading }, [])
  | _, _ => none

/-! ## Steps -/

/-- The node and the threads between it and the service; what the handlers and
the loop call is not theirs. -/
def pipelineStep (archives : Archives) (s : Host n) (action : PipelineAction n) :
    Option (Host n × List HostEvent) :=
  match action with
  | .raft (.startConses _) | .readRaftApplyCommand _ | .snapshot => none
  | _ =>
      (s.pipeline.next archives action).map fun pipeline => ({ s with pipeline := pipeline }, [])

/-- The handler whose critical section an action runs. -/
def handlerOf : HostAction n → Option Nat
  | .startConses h _ | .createWaitCh h | .timeOutPop h _ | .getState h | .ifRequestDuplicate h
  | .executeGet h | .deleteWaitCh h => some h
  | _ => none

/-- One step of the host; `none` when the action is not enabled. -/
def step (archives : Archives) (s : Host n) (action : HostAction n) :
    Option (Host n × List HostEvent) :=
  match action with
  | .pipeline action => s.pipelineStep archives action
  | .call op =>
      let op := { op with value := if op.operation = .get then [] else op.value }
      some ({ s with handlers := s.handlers ++ [⟨op, .starting⟩] }, [])
  | action =>
      match handlerOf action with
      | none => s.loopStep archives action s.turn
      | some h =>
          match s.handlers[h]? with
          | none => none
          | some handler => s.handlerStep archives h handler action

end Host

/-- Peers number the entries of a request from `PrevLogIndex + 1`. -/
def NumberedByPeers (_ : Host n) : HostAction n → Prop
  | .pipeline (.raft (.appendEntries1 args)) => args.Numbered
  | _ => True

instance (s : Host n) (action : HostAction n) : Decidable (NumberedByPeers s action) := by
  unfold NumberedByPeers
  split <;> infer_instance

/-- The runs of a fresh server whose steps are all accepted by `guard`. -/
abbrev HostRun {n : Nat} (archives : Archives) (me : Fin n) (maxRaftState : Int)
    (guard : Host n → HostAction n → Prop) (events : List HostEvent) (s : Host n) : Prop :=
  Run (Host.step archives) guard (Host.start me maxRaftState) events s

end CppRaft.Kv
