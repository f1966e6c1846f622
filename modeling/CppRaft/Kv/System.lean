import CppRaft.Kv.FreshReads
import CppRaft.Kv.Host
import CppRaft.Protocol.Delivery
import CppRaft.Protocol.Refinement
import CppRaft.Session.Linearizable

/-!
# The whole program

Every server is a node of one Raft cluster with its key-value service, and
clerks call any server any number of times.  What the nodes commit and install
reaches their services through the threads of the pipeline; the critical
sections of all servers run in any order.
-/

namespace CppRaft.Kv

open CppRaft.Protocol
open CppRaft.RaftCore
open CppRaft.Session
open CppRaft.Store
open CppRaft.Transition

variable {κ : Type} {n : Nat}

/-! ## The state -/

/-- A handler of a server, with the clerk that it serves. -/
structure Start (κ : Type) (n : Nat) where
  server : Fin n
  handler : Nat
  clerk : κ
deriving DecidableEq

/-- Clerks and servers.  The node of server `i` is `cluster.nodes i`. -/
structure System (κ : Type) (n : Nat) where
  cluster : Cluster n
  hosts : Fin n → Host n
  clerks : κ → Clerk
  /-- Every handler started so far, the oldest first. -/
  started : List (Start κ n)

/-- A choice of the scheduler. -/
inductive SystemAction (κ : Type) (n : Nat)
  /-- A clerk begins a request. -/
  | request (c : κ) (operation : Operation) (key value : Bytes)
  /-- A clerk calls a server for its request. -/
  | call (c : κ) (i : Fin n)
  /-- A clerk takes the answer of a handler. -/
  | takeReply (start : Nat)
  /-- A thread of a node runs, or a remote call is handled or answered. -/
  | raft (action : Action n)
  /-- A thread of the service of server `i` runs. -/
  | host (i : Fin n) (action : HostAction n)

/-- What a handler that has returned answers. -/
def HandlerStage.reply : HandlerStage → Option Reply
  | .refused => some { err := .errWrongLeader }
  | .returned _ _ reply => some reply
  | .starting | .creating _ | .serving _ _ _ => none

/-- `applierTicker` collects commands, and a thread is started for a
snapshot. -/
def Host.receive (s : Host n) (applyMsgs : List ApplyMsg) (snapshot : Option ApplyMsg) :
    Host n :=
  { s with pipeline :=
    { s.pipeline with
      applyMsgs := s.pipeline.applyMsgs ++ applyMsgs
      pushThreads := s.pipeline.pushThreads ++ snapshot.toList } }

/-- The threads of the service: handlers are started by clerks, and the sections
of the node are steps of the cluster. -/
def HostAction.OfService : HostAction n → Prop
  | .call _ => False
  | .pipeline .applierPush => True
  | .pipeline (.pushMsgToKvServer _) => True
  | .pipeline _ => False
  | _ => True

instance : (action : HostAction n) → Decidable action.OfService
  | .call _ | .pipeline (.raft _) | .pipeline (.installSnapshot _) | .pipeline .getApplyLogs
  | .pipeline (.readRaftApplyCommand _) | .pipeline .snapshot => isFalse id
  | .pipeline .applierPush | .pipeline (.pushMsgToKvServer _) | .startConses _ _
  | .createWaitCh _ | .timeOutPop _ _ | .getState _ | .ifRequestDuplicate _ | .executeGet _
  | .deleteWaitCh _ | .pop | .checkDuplicate | .execute | .getRaftStateSize | .makeSnapShot _
  | .snapshot | .sendMessage | .getSnapShotFromRaft => isTrue trivial

namespace System

/-- New servers, and new clerks with the given ids. -/
def start (n : Nat) (clientId : κ → Bytes) (maxRaftState : Int) : System κ n where
  cluster := .start n
  hosts := fun i => .start i maxRaftState
  clerks := fun c => { clientId := clientId c, requestId := 0, outstanding := none }
  started := []

/-- Server `i` with its node. -/
def host (s : System κ n) (i : Fin n) : Host n :=
  (s.hosts i).setRaft (s.cluster.nodes i)

/-- Server `i` changes. -/
def setHost (s : System κ n) (i : Fin n) (host : Host n) : System κ n :=
  { s with
    cluster := s.cluster.setNode i host.rf
    hosts := Function.update s.hosts i host }

/-- The action belongs to the nodes: `StartConses` and `Snapshot` are called by
the service, and `applierTicker` pushes what it has collected before it collects
again. -/
def Ready (s : System κ n) : Action n → Prop
  | .startConses _ _ | .snapshot _ _ _ => False
  | .getApplyLogs i => (s.hosts i).pipeline.applyMsgs = []
  | _ => True

instance (s : System κ n) : (action : Action n) → Decidable (s.Ready action)
  | .startConses _ _ | .snapshot _ _ _ => isFalse id
  | .getApplyLogs i => inferInstanceAs (Decidable ((s.hosts i).pipeline.applyMsgs = []))
  | .doElection _ | .doHeartBeat _ | .leaderSendSnapShot _ | .handle _ | .processReply _ =>
      isTrue trivial

/-- The cluster takes a step and hands its messages to the services. -/
def deliver (s : System κ n) (action : Action n) (cluster : Cluster n)
    (emitted : List (Event n)) : System κ n :=
  { s with
    cluster := cluster
    hosts := fun i =>
      (s.hosts i).receive (collected i emitted) (s.cluster.installed i action) }

variable [DecidableEq κ]

/-- One step of the program; `none` when the action is not enabled. -/
def step (archives : Archives) (s : System κ n) (action : SystemAction κ n) :
    Option (System κ n × List (CallEvent (Command κ) Bytes)) :=
  match action with
  | .request c operation key value =>
      if (s.clerks c).outstanding = none then
        some ({ s with
            clerks := Function.update s.clerks c ((s.clerks c).begin operation key value) },
          [.begun { clerk := c, op := (s.clerks c).nextOp operation key value }])
      else none
  | .call c i =>
      match (s.clerks c).outstanding with
      | none => none
      | some op =>
          if s.cluster.exited i = none then
            ((s.host i).step archives (.call op)).map fun result =>
              ({ s.setHost i result.1 with
                started := s.started ++
                  [{ server := i, handler := (s.hosts i).handlers.length, clerk := c }] }, [])
          else none
  | .takeReply start =>
      match s.started[start]? with
      | none => none
      | some ⟨i, h, c⟩ =>
          match (s.hosts i).handlers[h]? with
          | none => none
          | some handler =>
              match handler.stage.reply with
              | none => none
              | some reply =>
                  if reply.err ≠ .errWrongLeader ∧ (s.clerks c).outstanding = some handler.op then
                    some ({ s with
                        clerks := Function.update s.clerks c
                          { s.clerks c with outstanding := none } },
                      [.returned { clerk := c, op := handler.op }
                        (if handler.op.operation = .get then reply.result else [])])
                  else none
  | .raft action =>
      if s.Ready action then
        (s.cluster.step action).map fun result => (s.deliver action result.1 result.2, [])
      else none
  | .host i action =>
      if s.cluster.exited i = none ∧ action.OfService then
        ((s.host i).step archives action).map fun result => (s.setHost i result.1, [])
      else none

end System

/-! ## Conditions on the steps -/

/-- Handler `h` executes a read only when the mark of its client is not ahead of
the read. -/
def Host.ReadsForward (s : Host n) (h : Nat) : Prop :=
  ∀ handler ∈ s.handlers[h]?, ∀ last ∈ s.kv.data.lastRequestId.lookup handler.op.clientId,
    last ≤ handler.op.requestId

instance (s : Host n) (h : Nat) : Decidable (s.ReadsForward h) := by
  unfold Host.ReadsForward
  infer_instance

/-- The step keeps nothing behind a conflict, sends no snapshot but the saved
one, pushes messages in order, and moves no mark back. -/
def Regular (s : System κ n) : SystemAction κ n → Prop
  | .raft action => CutsConflicts s.cluster action ∧ SendsSaved s.cluster action
  | .host i (.pipeline action) => PushesInOrder (s.host i).pipeline action
  | .host i (.executeGet h) => (s.hosts i).ReadsForward h
  | _ => True

instance (s : System κ n) (action : SystemAction κ n) : Decidable (Regular s action) := by
  unfold Regular
  split <;> infer_instance

/-- The runs of new servers and clerks whose steps are all accepted by
`guard`. -/
abbrev SystemRun {κ : Type} {n : Nat} [DecidableEq κ] (archives : Archives)
    (clientId : κ → Bytes) (maxRaftState : Int)
    (guard : System κ n → SystemAction κ n → Prop)
    (history : List (CallEvent (Command κ) Bytes)) (s : System κ n) : Prop :=
  Run (System.step archives) guard (System.start n clientId maxRaftState) history s

end CppRaft.Kv
