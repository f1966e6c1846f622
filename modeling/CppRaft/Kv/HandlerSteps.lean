import CppRaft.Kv.Linearizable
import CppRaft.Kv.Seat

/-!
# A handler of the program takes the steps of the service

Every critical section of a handler thread is the section of the same name in
the service.
-/

namespace CppRaft.Kv

open CppRaft.Protocol
open CppRaft.RaftCore
open CppRaft.Session
open CppRaft.Store
open CppRaft.Transition

variable {κ : Type} {n : Nat} {archives : Archives}

theorem servers_update_kv {v : Service κ n} {i : Fin n} {kv : KvServer}
    (same : (v.servers i).kv = kv) :
    v.servers = Function.update v.servers i { v.servers i with kv := kv } := by
  subst same
  rw [Function.update_eq_self]

/-- What a section of a handler leaves behind in the program and in the
service. -/
structure HandlerMoves (archives : Archives) (host host' : Host n) (h : Nat)
    (thread : HandlerThread) (v v' : Service κ n) (p : Nat) (c : κ) (i : Fin n)
    (stage : HandlerStage) (more : List (Command κ)) : Prop where
  threads : host'.handlers = host.handlers.set h { thread with stage := stage }
  turn : host'.turn = host.turn
  pipeline : host'.pipeline = { host.pipeline with rf := host'.rf, server := host'.kv }
  limit : host'.kv.maxRaftState = host.kv.maxRaftState
  lastSnapShot : host'.kv.lastSnapShotRaftLogIndex = host.kv.lastSnapShotRaftLogIndex
  node : host'.rf = host.rf ∧ more = [] ∨
    ∃ command, host'.rf = (host.rf.startConses command).1 ∧
      archives.readOp command = some thread.op ∧ more = [{ clerk := c, op := thread.op }]
  clerks : v'.clerks = v.clerks
  handlers : v'.handlers = v.handlers.set p { thread.handler c i with stage := stage.stage }
  proposals : v'.proposals = v.proposals ++ more
  log : v'.log = v.log
  snapshots : v'.snapshots = v.snapshots
  servers : v'.servers = Function.update v.servers i { v.servers i with kv := host'.kv }

variable {host host' : Host n} {h p : Nat} {thread : HandlerThread} {v : Service κ n} {c : κ}
  {i : Fin n} {emitted : List HostEvent}

/-- A section that changes the maps and channels of its server only. -/
theorem handlerMoves_of_kv (kv' : KvServer)
    (limit : kv'.maxRaftState = host.kv.maxRaftState)
    (lastSnapShot : kv'.lastSnapShotRaftLogIndex = host.kv.lastSnapShotRaftLogIndex)
    (stage : HandlerStage) :
    HandlerMoves archives host ((host.setKv kv').setStage h thread stage) h thread v
      ((v.setKv i kv').setStage p (thread.handler c i) stage.stage) p c i stage [] where
  threads := rfl
  turn := rfl
  pipeline := rfl
  limit := limit
  lastSnapShot := lastSnapShot
  node := Or.inl ⟨rfl, rfl⟩
  clerks := rfl
  handlers := rfl
  proposals := (List.append_nil _).symm
  log := rfl
  snapshots := rfl
  servers := rfl

/-- A section that changes the stage of its handler only. -/
theorem handlerMoves_of_stage (kv : (v.servers i).kv = host.kv) (stage : HandlerStage) :
    HandlerMoves archives host (host.setStage h thread stage) h thread v
      (v.setStage p (thread.handler c i) stage.stage) p c i stage [] where
  threads := rfl
  turn := rfl
  pipeline := rfl
  limit := rfl
  lastSnapShot := rfl
  node := Or.inl ⟨rfl, rfl⟩
  clerks := rfl
  handlers := rfl
  proposals := (List.append_nil _).symm
  log := rfl
  snapshots := rfl
  servers := servers_update_kv kv

theorem poppedStage_handler (raftIndex : Int) (ch : Nat) (op : Op) :
    Service.poppedStage (thread.handler c i) raftIndex op =
      (HandlerStage.serving raftIndex ch (Host.poppedPhase thread op)).stage := by
  unfold Service.poppedStage Host.poppedPhase
  change (if op.clientId = thread.op.clientId ∧ op.requestId = thread.op.requestId then
    if thread.op.operation = .get then _ else _ else _) = _
  split
  · split <;> rfl
  · rfl

section Sections

variable [DecidableEq κ]

/-- The section of thread `h` in the program is the section `action'` of the
service. -/
def HandlerTakes (archives : Archives) (host host' : Host n) (h : Nat) (thread : HandlerThread)
    (v : Service κ n) (p : Nat) (c : κ) (i : Fin n) (action' : ServiceAction κ n) : Prop :=
  ∃ (v' : Service κ n) (stage : HandlerStage) (more : List (Command κ)),
    ReadsForward v action' ∧ v.step archives action' = some (v', []) ∧
      v.observe action' = [] ∧
      HandlerMoves archives host host' h thread v v' p c i stage more

/-- A leader appends the command, and its index is the one that the service
chooses; any other node refuses. -/
theorem startConses_takes {command : List UInt8} (kv : (v.servers i).kv = host.kv)
    (found : v.handlers[p]? = some (thread.handler c i))
    (taken : host.handlerStep archives h thread (.startConses h command) =
      some (host', emitted)) :
    ∃ index, HandlerTakes archives host host' h thread v p c i (.startConses p index) := by
  simp only [Host.handlerStep] at taken
  split at taken
  · rename_i starting
    split at taken
    · rename_i read
      split at taken
      · cases taken
        refine ⟨none, _, .refused, _, trivial, ?_, rfl, handlerMoves_of_stage kv .refused⟩
        simp only [Service.step, found, Service.handlerStep, HandlerThread.handler, starting,
          HandlerStage.stage]
      · rename_i rf raftIndex term given
        cases taken
        refine ⟨some raftIndex,
          { v.setStage p (thread.handler c i) (.creating raftIndex) with
            proposals := v.proposals ++ [{ clerk := c, op := thread.op }] },
          .creating raftIndex, [{ clerk := c, op := thread.op }], trivial, ?_, rfl,
          { threads := rfl
            turn := rfl
            pipeline := rfl
            limit := rfl
            lastSnapShot := rfl
            node := Or.inr ⟨command, congrArg Prod.fst given.symm, read, rfl⟩
            clerks := rfl
            handlers := rfl
            proposals := rfl
            log := rfl
            snapshots := rfl
            servers := servers_update_kv kv }⟩
        simp only [Service.step, found, Service.handlerStep, HandlerThread.handler, starting,
          HandlerStage.stage]
    · cases taken
  · cases taken

theorem createWaitCh_takes (kv : (v.servers i).kv = host.kv)
    (found : v.handlers[p]? = some (thread.handler c i))
    (taken : host.handlerStep archives h thread (.createWaitCh h) = some (host', emitted)) :
    HandlerTakes archives host host' h thread v p c i (.createWaitCh p) := by
  simp only [Host.handlerStep] at taken
  split at taken
  · rename_i raftIndex creating
    cases taken
    refine ⟨_, .serving raftIndex (host.kv.createWaitCh raftIndex).2 .waiting, _, trivial, ?_, rfl,
      handlerMoves_of_kv (host.kv.createWaitCh raftIndex).1 ?_ (by simp) _⟩
    · simp only [Service.step, found, Service.handlerStep, HandlerThread.handler, creating,
        HandlerStage.stage, kv]
    · unfold KvServer.createWaitCh
      split <;> rfl
  · cases taken

theorem timeOutPop_takes {timesOut : Bool} (kv : (v.servers i).kv = host.kv)
    (found : v.handlers[p]? = some (thread.handler c i))
    (taken : host.handlerStep archives h thread (.timeOutPop h timesOut) =
      some (host', emitted)) :
    HandlerTakes archives host host' h thread v p c i (.timeOutPop p timesOut) := by
  simp only [Host.handlerStep] at taken
  split at taken
  · rename_i raftIndex ch waiting
    split at taken
    · rename_i late
      cases taken
      refine ⟨_, .serving raftIndex ch .timedOut, _, trivial, ?_, rfl,
        handlerMoves_of_stage kv _⟩
      simp only [Service.step, found, Service.handlerStep, HandlerThread.handler, waiting,
        HandlerStage.stage, late, if_true]
    · rename_i early
      split at taken
      · rename_i op rest queued
        cases taken
        refine ⟨_, .serving raftIndex ch (Host.poppedPhase thread op), _, trivial, ?_, rfl,
          handlerMoves_of_kv { host.kv with lockQueues := host.kv.lockQueues.set ch rest }
            rfl rfl _⟩
        have stage : (thread.handler c i).stage = .waiting raftIndex ch := by
          simp only [HandlerThread.handler, waiting, HandlerStage.stage]
        have queued : (v.servers (thread.handler c i).server).kv.lockQueues[ch]? =
            some (op :: rest) := by
          rw [← queued, ← kv]
          rfl
        simp only [Service.step, found, Service.handlerStep, stage, queued, early,
          Bool.false_eq_true, if_false, poppedStage_handler raftIndex ch, ← kv]
        rfl
      · cases taken
  · cases taken

theorem getState_takes (kv : (v.servers i).kv = host.kv)
    (found : v.handlers[p]? = some (thread.handler c i))
    (taken : host.handlerStep archives h thread (.getState h) = some (host', emitted)) :
    HandlerTakes archives host host' h thread v p c i
      (.getState p (decide (host.rf.status = .leader))) := by
  simp only [Host.handlerStep] at taken
  split at taken
  · rename_i raftIndex ch timedOut
    split at taken
    · rename_i get
      cases taken
      refine ⟨_, .serving raftIndex ch (.knowsState (decide (host.rf.status = .leader))), _,
        trivial, ?_, rfl, handlerMoves_of_stage kv _⟩
      simp only [Service.step, found, Service.handlerStep, HandlerThread.handler, timedOut,
        HandlerStage.stage, get, if_true]
    · cases taken
  · cases taken

/-- A write asks after its time is out, a read once it knows the state. -/
theorem ifRequestDuplicate_takes (kv : (v.servers i).kv = host.kv)
    (found : v.handlers[p]? = some (thread.handler c i))
    (taken : host.handlerStep archives h thread (.ifRequestDuplicate h) =
      some (host', emitted)) :
    HandlerTakes archives host host' h thread v p c i (.ifRequestDuplicate p) := by
  simp only [Host.handlerStep] at taken
  split at taken
  · rename_i raftIndex ch timedOut
    split at taken
    · cases taken
    · rename_i writes
      cases taken
      refine ⟨_, .serving raftIndex ch (.deleting _), _, trivial, ?_, rfl,
        handlerMoves_of_stage kv _⟩
      simp only [Service.step, found, Service.handlerStep, HandlerThread.handler, timedOut,
        HandlerStage.stage, writes, if_false, kv]
  · rename_i raftIndex ch isLeader knows
    cases taken
    have stage : (thread.handler c i).stage = .knowsState raftIndex isLeader := by
      simp only [HandlerThread.handler, knows, HandlerStage.stage]
    refine ⟨_, _, _, trivial, ?_, rfl, handlerMoves_of_stage kv _⟩
    simp only [Service.step, found, Service.handlerStep, stage]
    rw [← kv]
    simp only [HandlerThread.handler]
    split
    · rename_i reads
      simp only [reads, if_true, HandlerStage.stage]
    · rename_i refuses
      simp only [refuses, HandlerStage.stage]
      rfl
  · cases taken

theorem executeGet_takes (kv : (v.servers i).kv = host.kv)
    (found : v.handlers[p]? = some (thread.handler c i))
    (forward : ∀ last ∈ host.kv.data.lastRequestId.lookup thread.op.clientId,
      last ≤ thread.op.requestId)
    (taken : host.handlerStep archives h thread (.executeGet h) = some (host', emitted)) :
    HandlerTakes archives host host' h thread v p c i (.executeGet p) := by
  simp only [Host.handlerStep] at taken
  split at taken
  · rename_i raftIndex ch reading
    cases taken
    refine ⟨_, .serving raftIndex ch (.deleting _), _, ?_, ?_, rfl,
      handlerMoves_of_kv
        { host.kv with data := (host.kv.data.executeGetOpOnKVDB thread.op).1 } rfl rfl _⟩
    · intro handler member last marked
      rw [found, Option.mem_some_iff] at member
      subst member
      have mark : v.mark i thread.op.clientId =
          host.kv.data.lastRequestId.lookup thread.op.clientId := by
        unfold Service.mark
        rw [kv]
      exact forward last (mark ▸ marked)
    · have stage : (thread.handler c i).stage = .reading raftIndex := by
        simp only [HandlerThread.handler, reading, HandlerStage.stage]
      simp only [Service.step, found, Service.handlerStep, stage]
      rw [← kv]
      rfl
  · cases taken

theorem deleteWaitCh_takes (kv : (v.servers i).kv = host.kv)
    (found : v.handlers[p]? = some (thread.handler c i))
    (taken : host.handlerStep archives h thread (.deleteWaitCh h) = some (host', emitted)) :
    HandlerTakes archives host host' h thread v p c i (.deleteWaitCh p) := by
  simp only [Host.handlerStep] at taken
  split at taken
  · rename_i raftIndex ch reply deleting
    cases taken
    refine ⟨_, .returned raftIndex ch reply, _, trivial, ?_, rfl,
      handlerMoves_of_kv (host.kv.eraseWaitCh raftIndex) rfl rfl _⟩
    simp only [Service.step, found, Service.handlerStep, HandlerThread.handler, deleting,
      HandlerStage.stage, kv]
  · cases taken

/-- Every section of a handler is one of the service. -/
theorem handlerStep_moves {action : HostAction n} (own : Host.handlerOf action = some h)
    (kv : (v.servers i).kv = host.kv) (found : v.handlers[p]? = some (thread.handler c i))
    (forward : action = .executeGet h →
      ∀ last ∈ host.kv.data.lastRequestId.lookup thread.op.clientId, last ≤ thread.op.requestId)
    (taken : host.handlerStep archives h thread action = some (host', emitted)) :
    ∃ action', HandlerTakes archives host host' h thread v p c i action' := by
  cases action with
  | startConses k command =>
      cases own
      obtain ⟨index, takes⟩ := startConses_takes kv found taken
      exact ⟨_, takes⟩
  | createWaitCh k =>
      cases own
      exact ⟨_, createWaitCh_takes kv found taken⟩
  | timeOutPop k timesOut =>
      cases own
      exact ⟨_, timeOutPop_takes kv found taken⟩
  | getState k =>
      cases own
      exact ⟨_, getState_takes kv found taken⟩
  | ifRequestDuplicate k =>
      cases own
      exact ⟨_, ifRequestDuplicate_takes kv found taken⟩
  | executeGet k =>
      cases own
      exact ⟨_, executeGet_takes kv found (forward rfl) taken⟩
  | deleteWaitCh k =>
      cases own
      exact ⟨_, deleteWaitCh_takes kv found taken⟩
  | _ => cases own

end Sections

end CppRaft.Kv
