import CppRaft.Kv.Core
import CppRaft.Transition.Run

/-!
# Clerks, handlers and replicated servers

Clerks begin one request at a time and call any server any number of times
until one of the handlers answers.  A handler runs in the critical sections of
`KvServer::Get` and `KvServer::PutAppend`, and the apply loop of every server
in those of `GetCommandFromRaft`, all in any order.  The Raft layer is a
sequence of committed commands: a handler of a leader proposes its command,
proposed commands are committed at any time, and every server consumes the
commands in order, or installs the snapshot that a server made further on.  That
a server is never handed a snapshot it has passed is a property of the order of
the channel, which the steps here assume.
-/

namespace CppRaft.Kv

open CppRaft.RaftCore
open CppRaft.Store
open CppRaft.Transition

variable {κ : Type} {m : Nat}

/-! ## Clerks -/

/-- Class `Clerk`, with the request of the call that is running. -/
structure Clerk where
  clientId : Bytes
  requestId : Int
  outstanding : Option Op

/-- The request that the next call of `Get` or `PutAppend` makes; a `Get`
carries no value. -/
def Clerk.nextOp (clerk : Clerk) (operation : Operation) (key value : Bytes) : Op where
  operation := operation
  key := key
  value := if operation = .get then [] else value
  clientId := clerk.clientId
  requestId := clerk.requestId + 1

/-- `Clerk::Get` and `Clerk::PutAppend` up to their first call of a server. -/
def Clerk.begin (clerk : Clerk) (operation : Operation) (key value : Bytes) : Clerk :=
  { clerk with
    requestId := clerk.requestId + 1
    outstanding := some (clerk.nextOp operation key value) }

/-! ## Handlers -/

/-- The strings `OK`, `ErrNoKey` and `ErrWrongLeader`. -/
inductive Err
  | ok
  | errNoKey
  | errWrongLeader
deriving DecidableEq, Repr

/-- `GetReply` and `PutAppendReply`; the latter has no value. -/
structure Reply where
  err : Err
  value : Bytes := []
deriving DecidableEq, Repr

/-- Where a handler of `Get` or `PutAppend` is. -/
inductive Stage
  /-- Before `StartConses`. -/
  | starting
  /-- On a leader, before the wait channel is made. -/
  | creating (raftIndex : Int)
  /-- In `timeOutPop`. -/
  | waiting (raftIndex : Int) (queue : Nat)
  | timedOut (raftIndex : Int)
  /-- In `Get` after a time-out, behind `GetState`. -/
  | knowsState (raftIndex : Int) (isLeader : Bool)
  /-- In `Get`, before `ExecuteGetOpOnKVDB`. -/
  | reading (raftIndex : Int)
  /-- Before the wait channel is deleted. -/
  | deleting (raftIndex : Int) (reply : Reply)
  | replied (reply : Reply)
deriving DecidableEq, Repr

/-- A command with the clerk that it was sent for. -/
structure Command (κ : Type) where
  clerk : κ
  op : Op
deriving DecidableEq

/-- A handler thread. -/
structure Handler (κ : Type) (m : Nat) where
  command : Command κ
  server : Fin m
  stage : Stage

/-! ## Servers -/

/-- Where the apply loop is in `GetCommandFromRaft`. -/
inductive ApplyLoop
  | popping
  | popped (op : Op) (commandIndex : Int)
  | checked (op : Op) (commandIndex : Int) (duplicate : Bool)
  | executed (op : Op) (commandIndex : Int)
  | snapshotted (op : Op) (commandIndex : Int)
deriving DecidableEq

/-- A server, with the number of commands that it has consumed. -/
structure Server where
  kv : KvServer
  position : Nat
  applyLoop : ApplyLoop

/-- The whole service. -/
structure Service (κ : Type) (m : Nat) where
  clerks : κ → Clerk
  /-- Every handler thread started so far. -/
  handlers : List (Handler κ m)
  /-- Every command that a leader has accepted. -/
  proposals : List (Command κ)
  /-- The committed commands. -/
  log : List (Command κ)
  servers : Fin m → Server
  /-- Every snapshot made so far, with its index. -/
  snapshots : List (Nat × Bytes)

/-- A choice of the scheduler. -/
inductive ServiceAction (κ : Type) (m : Nat)
  /-- A clerk begins a request. -/
  | request (c : κ) (operation : Operation) (key value : Bytes)
  /-- A clerk calls a server for its request. -/
  | call (c : κ) (i : Fin m)
  /-- A clerk takes the answer of a handler. -/
  | takeReply (h : Nat)
  /-- `StartConses` of a handler; `none` when the node is not leader. -/
  | startConses (h : Nat) (raftIndex : Option Int)
  | createWaitCh (h : Nat)
  | timeOutPop (h : Nat) (timesOut : Bool)
  | getState (h : Nat) (isLeader : Bool)
  | ifRequestDuplicate (h : Nat)
  | executeGet (h : Nat)
  | deleteWaitCh (h : Nat)
  | commit (proposal : Nat)
  | pop (i : Fin m)
  | checkDuplicate (i : Fin m)
  | execute (i : Fin m)
  | makeSnapShot (i : Fin m) (data : Bytes)
  | sendMessage (i : Fin m)
  | getSnapShotFromRaft (i : Fin m) (snapshot : Nat)
deriving DecidableEq

/-- The handler whose critical section an action runs. -/
def ServiceAction.handler : ServiceAction κ m → Option Nat
  | .startConses h _ | .createWaitCh h | .timeOutPop h _ | .getState h _ | .ifRequestDuplicate h
  | .executeGet h | .deleteWaitCh h => some h
  | _ => none

/-- The server whose apply loop an action runs. -/
def ServiceAction.server : ServiceAction κ m → Option (Fin m)
  | .pop i | .checkDuplicate i | .execute i | .makeSnapShot i _ | .sendMessage i
  | .getSnapShotFromRaft i _ => some i
  | _ => none

/-- What a step shows to an observer. -/
inductive ServiceEvent (κ : Type) (m : Nat)
  /-- A Put or Append is executed on `m_kvDB` of server `i`. -/
  | executed (i : Fin m) (command : Command κ)
  /-- The call of a clerk returns. -/
  | returned (command : Command κ)
deriving DecidableEq

/-- Put and Append write. -/
def Op.Writes (op : Op) : Prop :=
  op.operation ≠ .get

instance (op : Op) : Decidable op.Writes := by
  unfold Op.Writes
  infer_instance

namespace Service

/-- New clerks with the given ids, and new servers. -/
def start (clientId : κ → Bytes) (maxRaftState : Int) : Service κ m where
  clerks := fun c => { clientId := clientId c, requestId := 0, outstanding := none }
  handlers := []
  proposals := []
  log := []
  servers := fun _ => { kv := .start maxRaftState, position := 0, applyLoop := .popping }
  snapshots := []

/-- A handler moves to a stage. -/
def setStage (s : Service κ m) (h : Nat) (handler : Handler κ m) (stage : Stage) : Service κ m :=
  { s with handlers := s.handlers.set h { handler with stage := stage } }

/-- A server changes. -/
def setServer (s : Service κ m) (i : Fin m) (server : Server) : Service κ m :=
  { s with servers := Function.update s.servers i server }

/-- The `KvServer` of a server changes. -/
def setKv (s : Service κ m) (i : Fin m) (kv : KvServer) : Service κ m :=
  s.setServer i { s.servers i with kv := kv }

/-- The mark of a client on a server. -/
def mark (s : Service κ m) (i : Fin m) (clientId : Bytes) : Option Int :=
  (s.servers i).kv.data.lastRequestId.lookup clientId

/-- The stage of a handler that has popped the command `op`. -/
def poppedStage (handler : Handler κ m) (raftIndex : Int) (op : Op) : Stage :=
  if op.clientId = handler.command.op.clientId ∧ op.requestId = handler.command.op.requestId then
    if handler.command.op.operation = .get then .reading raftIndex
    else .deleting raftIndex { err := .ok }
  else .deleting raftIndex { err := .errWrongLeader }

/-- One critical section of handler `h`; `none` when the action does not fit
its stage. -/
def handlerStep (s : Service κ m) (h : Nat) (handler : Handler κ m) :
    ServiceAction κ m → Option (Service κ m × List (ServiceEvent κ m))
  | .startConses _ raftIndex =>
      match handler.stage, raftIndex with
      | .starting, none =>
          some (s.setStage h handler (.replied { err := .errWrongLeader }), [])
      | .starting, some raftIndex =>
          some ({ s.setStage h handler (.creating raftIndex) with
            proposals := s.proposals ++ [handler.command] }, [])
      | _, _ => none
  | .createWaitCh _ =>
      match handler.stage with
      | .creating raftIndex =>
          let (kv, queue) := (s.servers handler.server).kv.createWaitCh raftIndex
          some ((s.setKv handler.server kv).setStage h handler (.waiting raftIndex queue), [])
      | _ => none
  | .timeOutPop _ timesOut =>
      match handler.stage with
      | .waiting raftIndex queue =>
          -- `wait_until` may report a time-out although a message has arrived.
          if timesOut then some (s.setStage h handler (.timedOut raftIndex), [])
          else
            let kv := (s.servers handler.server).kv
            match kv.lockQueues[queue]? with
            | some (op :: rest) =>
                some ((s.setKv handler.server
                    { kv with lockQueues := kv.lockQueues.set queue rest }).setStage h handler
                  (poppedStage handler raftIndex op), [])
            | _ => none
      | _ => none
  | .getState _ isLeader =>
      match handler.stage with
      | .timedOut raftIndex =>
          if handler.command.op.operation = .get then
            some (s.setStage h handler (.knowsState raftIndex isLeader), [])
          else none
      | _ => none
  | .ifRequestDuplicate _ =>
      let op := handler.command.op
      let data := (s.servers handler.server).kv.data
      let duplicate := data.ifRequestDuplicate op.clientId op.requestId
      match handler.stage with
      | .timedOut raftIndex =>
          if op.operation = .get then none
          else
            some (s.setStage h handler
              (.deleting raftIndex { err := if duplicate then .ok else .errWrongLeader }), [])
      | .knowsState raftIndex isLeader =>
          some (s.setStage h handler
            (if duplicate && isLeader then .reading raftIndex
            else .deleting raftIndex { err := .errWrongLeader }), [])
      | _ => none
  | .executeGet _ =>
      match handler.stage with
      | .reading raftIndex =>
          let op := handler.command.op
          let kv := (s.servers handler.server).kv
          let (data, value) := kv.data.executeGetOpOnKVDB op
          let reply : Reply :=
            match value with
            | some value => { err := .ok, value := value }
            | none => { err := .errNoKey }
          some ((s.setKv handler.server { kv with data := data }).setStage h handler
            (.deleting raftIndex reply), [])
      | _ => none
  | .deleteWaitCh _ =>
      match handler.stage with
      | .deleting raftIndex reply =>
          some ((s.setKv handler.server
              ((s.servers handler.server).kv.eraseWaitCh raftIndex)).setStage h handler
            (.replied reply), [])
      | _ => none
  | _ => none

/-- One critical section of the apply loop of server `i`.  Commands and snapshots
come out of the channel in the order of their indexes: `GetSnapShotFromRaft` is
called only while no command behind the snapshot was consumed.  The source
relies on this order and does not check it; `Kv.Pipeline` has the channel, with
messages in any order. -/
def serverStep (archives : Archives) (s : Service κ m) (i : Fin m) :
    ServiceAction κ m → Option (Service κ m × List (ServiceEvent κ m))
  | .pop _ =>
      let server := s.servers i
      match server.applyLoop, s.log[server.position]? with
      | .popping, some command =>
          let commandIndex := (server.position : Int) + 1
          if commandIndex ≤ server.kv.lastSnapShotRaftLogIndex then
            some (s.setServer i { server with position := server.position + 1 }, [])
          else
            some (s.setServer i
              { server with applyLoop := .popped command.op commandIndex }, [])
      | _, _ => none
  | .checkDuplicate _ =>
      let server := s.servers i
      match server.applyLoop with
      | .popped op commandIndex =>
          let duplicate := server.kv.data.ifRequestDuplicate op.clientId op.requestId
          some (s.setServer i
            { server with applyLoop := .checked op commandIndex duplicate }, [])
      | _ => none
  | .execute _ =>
      let server := s.servers i
      match server.applyLoop, s.log[server.position]? with
      | .checked op commandIndex duplicate, some command =>
          let executes := !duplicate && decide op.Writes
          let data := if duplicate then server.kv.data else server.kv.data.executeCommand op
          some (s.setServer i
              { kv := { server.kv with data := data }
                position := server.position + 1
                applyLoop := .executed op commandIndex },
            if executes then [.executed i command] else [])
      | _, _ => none
  | .makeSnapShot _ data =>
      let server := s.servers i
      match server.applyLoop with
      | .executed op commandIndex =>
          if server.kv.maxRaftState ≠ -1 ∧ server.kv.MakeSnapShot archives data then
            some ({ s.setServer i { server with applyLoop := .snapshotted op commandIndex } with
              snapshots := s.snapshots ++ [(commandIndex.toNat, data)] }, [])
          else none
      | _ => none
  | .sendMessage _ =>
      let server := s.servers i
      match server.applyLoop with
      | .executed op commandIndex | .snapshotted op commandIndex =>
          some (s.setServer i
            { server with
              kv := server.kv.sendMessageToWaitChan op commandIndex
              applyLoop := .popping }, [])
      | _ => none
  | .getSnapShotFromRaft _ snapshot =>
      let server := s.servers i
      match server.applyLoop, s.snapshots[snapshot]? with
      | .popping, some (index, data) =>
          if server.position ≤ index then
            (server.kv.getSnapShotFromRaft archives
              { snapshotValid := true, snapshot := data, snapshotIndex := index }).map fun kv =>
                (s.setServer i { server with kv := kv, position := index }, [])
          else none
      | _, _ => none
  | _ => none

variable [DecidableEq κ]

/-- One step of the service; `none` when the action is not enabled. -/
def step (archives : Archives) (s : Service κ m) (action : ServiceAction κ m) :
    Option (Service κ m × List (ServiceEvent κ m)) :=
  match action with
  | .request c operation key value =>
      if (s.clerks c).outstanding = none then
        some ({ s with
          clerks := Function.update s.clerks c ((s.clerks c).begin operation key value) }, [])
      else none
  | .call c i =>
      match (s.clerks c).outstanding with
      | none => none
      | some op =>
          some ({ s with
            handlers := s.handlers ++
              [{ command := { clerk := c, op := op }, server := i, stage := .starting }] }, [])
  | .takeReply h =>
      match s.handlers[h]? with
      | none => none
      | some handler =>
          match handler.stage with
          | .replied reply =>
              let c := handler.command.clerk
              if reply.err ≠ .errWrongLeader ∧
                  (s.clerks c).outstanding = some handler.command.op then
                some ({ s with
                    clerks := Function.update s.clerks c { s.clerks c with outstanding := none } },
                  [.returned handler.command])
              else none
          | _ => none
  | .startConses h _ | .createWaitCh h | .timeOutPop h _ | .getState h _ | .ifRequestDuplicate h
  | .executeGet h | .deleteWaitCh h =>
      match s.handlers[h]? with
      | none => none
      | some handler => s.handlerStep h handler action
  | .commit proposal =>
      match s.proposals[proposal]? with
      | none => none
      | some command => some ({ s with log := s.log ++ [command] }, [])
  | .pop i | .checkDuplicate i | .execute i | .makeSnapShot i _ | .sendMessage i
  | .getSnapShotFromRaft i _ => s.serverStep archives i action

end Service

/-- The runs of a new service whose steps are all accepted by `guard`. -/
abbrev ServiceRun {κ : Type} {m : Nat} [DecidableEq κ] (archives : Archives)
    (clientId : κ → Bytes) (maxRaftState : Int) (guard : Service κ m → ServiceAction κ m → Prop)
    (events : List (ServiceEvent κ m)) (s : Service κ m) : Prop :=
  Run (Service.step archives) guard (Service.start clientId maxRaftState) events s

end CppRaft.Kv
