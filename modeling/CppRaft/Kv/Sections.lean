import CppRaft.Kv.Service

/-!
# What a step of the service does

Every enabled action runs one critical section of a clerk, a handler or an apply
loop, or commits a command.  The sections are listed with what they find and
what they leave behind; invariants are proved from the list.
-/

namespace CppRaft.Kv

open CppRaft.Store
open CppRaft.Transition

variable {κ : Type} {m : Nat}

/-- `ifRequestDuplicate` for the request of a handler. -/
def Service.duplicate (s : Service κ m) (handler : Handler κ m) : Bool :=
  (s.servers handler.server).kv.data.ifRequestDuplicate handler.command.op.clientId
    handler.command.op.requestId

/-- The reply of `Get` for the value of its key. -/
def Reply.ofValue : Option Bytes → Reply
  | some value => { err := .ok, value := value }
  | none => { err := .errNoKey }

/-- The critical sections of handler `h`. -/
inductive HandlerSection (s : Service κ m) (h : Nat) (handler : Handler κ m) :
    ServiceAction κ m → Service κ m → Prop
  | refuse (starting : handler.stage = .starting) :
      HandlerSection s h handler (.startConses h none)
        (s.setStage h handler (.replied { err := .errWrongLeader }))
  | propose {raftIndex : Int} (starting : handler.stage = .starting) :
      HandlerSection s h handler (.startConses h (some raftIndex))
        { s.setStage h handler (.creating raftIndex) with
          proposals := s.proposals ++ [handler.command] }
  | createWaitCh {raftIndex : Int} (creating : handler.stage = .creating raftIndex) :
      HandlerSection s h handler (.createWaitCh h)
        ((s.setKv handler.server
            ((s.servers handler.server).kv.createWaitCh raftIndex).1).setStage h handler
          (.waiting raftIndex ((s.servers handler.server).kv.createWaitCh raftIndex).2))
  | timeOut {raftIndex : Int} {queue : Nat} (waiting : handler.stage = .waiting raftIndex queue) :
      HandlerSection s h handler (.timeOutPop h true) (s.setStage h handler (.timedOut raftIndex))
  | pop {raftIndex : Int} {queue : Nat} {op : Op} {rest : List Op}
      (waiting : handler.stage = .waiting raftIndex queue)
      (queued : (s.servers handler.server).kv.lockQueues[queue]? = some (op :: rest)) :
      HandlerSection s h handler (.timeOutPop h false)
        ((s.setKv handler.server
            { (s.servers handler.server).kv with
              lockQueues := (s.servers handler.server).kv.lockQueues.set queue rest }).setStage h
          handler (Service.poppedStage handler raftIndex op))
  | getState {raftIndex : Int} {isLeader : Bool} (timedOut : handler.stage = .timedOut raftIndex)
      (get : handler.command.op.operation = .get) :
      HandlerSection s h handler (.getState h isLeader)
        (s.setStage h handler (.knowsState raftIndex isLeader))
  | acknowledge {raftIndex : Int} (timedOut : handler.stage = .timedOut raftIndex)
      (writes : handler.command.op.Writes) :
      HandlerSection s h handler (.ifRequestDuplicate h)
        (s.setStage h handler
          (.deleting raftIndex { err := if s.duplicate handler then .ok else .errWrongLeader }))
  | retry {raftIndex : Int} {isLeader : Bool}
      (knows : handler.stage = .knowsState raftIndex isLeader) :
      HandlerSection s h handler (.ifRequestDuplicate h)
        (s.setStage h handler
          (if s.duplicate handler && isLeader then .reading raftIndex
          else .deleting raftIndex { err := .errWrongLeader }))
  | executeGet {raftIndex : Int} (reading : handler.stage = .reading raftIndex) :
      HandlerSection s h handler (.executeGet h)
        ((s.setKv handler.server
            { (s.servers handler.server).kv with
              data := ((s.servers handler.server).kv.data.executeGetOpOnKVDB
                handler.command.op).1 }).setStage h handler
          (.deleting raftIndex (.ofValue ((s.servers handler.server).kv.data.executeGetOpOnKVDB
            handler.command.op).2)))
  | deleteWaitCh {raftIndex : Int} {reply : Reply}
      (deleting : handler.stage = .deleting raftIndex reply) :
      HandlerSection s h handler (.deleteWaitCh h)
        ((s.setKv handler.server
            ((s.servers handler.server).kv.eraseWaitCh raftIndex)).setStage h handler
          (.replied reply))

/-- The critical sections of the apply loop of server `i`, with their events. -/
inductive LoopSection (archives : Archives) (s : Service κ m) (i : Fin m) :
    ServiceAction κ m → Service κ m → List (ServiceEvent κ m) → Prop
  | skip {command : Command κ} (popping : (s.servers i).applyLoop = .popping)
      (next : s.log[(s.servers i).position]? = some command)
      (covered : ((s.servers i).position : Int) + 1 ≤ (s.servers i).kv.lastSnapShotRaftLogIndex) :
      LoopSection archives s i (.pop i)
        (s.setServer i { s.servers i with position := (s.servers i).position + 1 }) []
  | pop {command : Command κ} (popping : (s.servers i).applyLoop = .popping)
      (next : s.log[(s.servers i).position]? = some command)
      (beyond : ¬ ((s.servers i).position : Int) + 1 ≤
        (s.servers i).kv.lastSnapShotRaftLogIndex) :
      LoopSection archives s i (.pop i)
        (s.setServer i { s.servers i with
          applyLoop := .popped command.op ((s.servers i).position + 1) }) []
  | checkDuplicate {op : Op} {commandIndex : Int}
      (popped : (s.servers i).applyLoop = .popped op commandIndex) :
      LoopSection archives s i (.checkDuplicate i)
        (s.setServer i { s.servers i with
          applyLoop := .checked op commandIndex
            ((s.servers i).kv.data.ifRequestDuplicate op.clientId op.requestId) }) []
  | execute {op : Op} {commandIndex : Int} {duplicate : Bool} {command : Command κ}
      (checked : (s.servers i).applyLoop = .checked op commandIndex duplicate)
      (next : s.log[(s.servers i).position]? = some command) :
      LoopSection archives s i (.execute i)
        (s.setServer i
          { kv := { (s.servers i).kv with
              data := if duplicate then (s.servers i).kv.data
                else (s.servers i).kv.data.executeCommand op }
            position := (s.servers i).position + 1
            applyLoop := .executed op commandIndex })
        (if !duplicate && decide op.Writes then [.executed i command] else [])
  | makeSnapShot {op : Op} {commandIndex : Int} {data : Bytes}
      (executed : (s.servers i).applyLoop = .executed op commandIndex)
      (limited : (s.servers i).kv.maxRaftState ≠ -1)
      (made : (s.servers i).kv.MakeSnapShot archives data) :
      LoopSection archives s i (.makeSnapShot i data)
        { s.setServer i { s.servers i with applyLoop := .snapshotted op commandIndex } with
          snapshots := s.snapshots ++ [(commandIndex.toNat, data)] } []
  | sendMessage {op : Op} {commandIndex : Int}
      (done : (s.servers i).applyLoop = .executed op commandIndex ∨
        (s.servers i).applyLoop = .snapshotted op commandIndex) :
      LoopSection archives s i (.sendMessage i)
        (s.setServer i { s.servers i with
          kv := (s.servers i).kv.sendMessageToWaitChan op commandIndex
          applyLoop := .popping }) []
  | install {snapshot index : Nat} {data : Bytes} {kv : KvServer}
      (popping : (s.servers i).applyLoop = .popping)
      (made : s.snapshots[snapshot]? = some (index, data))
      (later : (s.servers i).position ≤ index)
      (installed : (s.servers i).kv.readSnapShotToInstall archives data = some kv) :
      LoopSection archives s i (.getSnapShotFromRaft i snapshot)
        (s.setServer i { s.servers i with
          kv := { kv with lastSnapShotRaftLogIndex := index }
          position := index }) []

/-- What an action runs. -/
inductive Section [DecidableEq κ] (archives : Archives) (s : Service κ m) :
    ServiceAction κ m → Service κ m → List (ServiceEvent κ m) → Prop
  | request {c : κ} {operation : Operation} {key value : Bytes}
      (idle : (s.clerks c).outstanding = none) :
      Section archives s (.request c operation key value)
        { s with
          clerks := Function.update s.clerks c ((s.clerks c).begin operation key value) } []
  | call {c : κ} {i : Fin m} {op : Op} (sent : (s.clerks c).outstanding = some op) :
      Section archives s (.call c i)
        { s with
          handlers := s.handlers ++
            [{ command := { clerk := c, op := op }, server := i, stage := .starting }] } []
  | takeReply {h : Nat} {handler : Handler κ m} {reply : Reply}
      (found : s.handlers[h]? = some handler) (replied : handler.stage = .replied reply)
      (accepted : reply.err ≠ .errWrongLeader)
      (sent : (s.clerks handler.command.clerk).outstanding = some handler.command.op) :
      Section archives s (.takeReply h)
        { s with
          clerks := Function.update s.clerks handler.command.clerk
            { s.clerks handler.command.clerk with outstanding := none } }
        [.returned handler.command]
  | commit {proposal : Nat} {command : Command κ}
      (proposed : s.proposals[proposal]? = some command) :
      Section archives s (.commit proposal) { s with log := s.log ++ [command] } []
  | handler {action : ServiceAction κ m} {h : Nat} {handler : Handler κ m} {t : Service κ m}
      (found : s.handlers[h]? = some handler) (ran : HandlerSection s h handler action t) :
      Section archives s action t []
  | server {action : ServiceAction κ m} {i : Fin m} {t : Service κ m}
      {events : List (ServiceEvent κ m)} (ran : LoopSection archives s i action t events) :
      Section archives s action t events

namespace Service

variable {archives : Archives} {s t : Service κ m} {events : List (ServiceEvent κ m)}
  {action : ServiceAction κ m}

theorem handlerStep_section {h : Nat} {handler : Handler κ m} (own : action.handler = some h)
    (taken : s.handlerStep h handler action = some (t, events)) :
    events = [] ∧ HandlerSection s h handler action t := by
  cases action with
  | startConses h' raftIndex =>
      cases own
      simp only [handlerStep] at taken
      split at taken
      · rename_i starting
        cases taken
        exact ⟨rfl, .refuse starting⟩
      · rename_i starting
        cases taken
        exact ⟨rfl, .propose starting⟩
      · cases taken
  | createWaitCh h' =>
      cases own
      simp only [handlerStep] at taken
      split at taken
      · rename_i creating
        cases taken
        exact ⟨rfl, .createWaitCh creating⟩
      · cases taken
  | timeOutPop h' timesOut =>
      cases own
      simp only [handlerStep] at taken
      split at taken
      · rename_i waiting
        split at taken
        · rename_i timesOut
          cases timesOut
          cases taken
          exact ⟨rfl, .timeOut waiting⟩
        · rename_i inTime
          rw [Bool.not_eq_true] at inTime
          subst inTime
          split at taken
          · rename_i queued
            cases taken
            exact ⟨rfl, .pop waiting queued⟩
          · cases taken
      · cases taken
  | getState h' isLeader =>
      cases own
      simp only [handlerStep] at taken
      split at taken
      · rename_i timedOut
        split at taken
        · rename_i get
          cases taken
          exact ⟨rfl, .getState timedOut get⟩
        · cases taken
      · cases taken
  | ifRequestDuplicate h' =>
      cases own
      simp only [handlerStep] at taken
      split at taken
      · rename_i timedOut
        split at taken
        · cases taken
        · rename_i writes
          cases taken
          exact ⟨rfl, .acknowledge timedOut writes⟩
      · rename_i knows
        cases taken
        exact ⟨rfl, .retry knows⟩
      · cases taken
  | executeGet h' =>
      cases own
      simp only [handlerStep] at taken
      split at taken
      · rename_i reading
        cases taken
        exact ⟨rfl, .executeGet reading⟩
      · cases taken
  | deleteWaitCh h' =>
      cases own
      simp only [handlerStep] at taken
      split at taken
      · rename_i deleting
        cases taken
        exact ⟨rfl, .deleteWaitCh deleting⟩
      · cases taken
  | request | call | takeReply | commit | pop | checkDuplicate | execute | makeSnapShot
  | sendMessage | getSnapShotFromRaft => cases own

theorem serverStep_section {i : Fin m} (own : action.server = some i)
    (taken : s.serverStep archives i action = some (t, events)) :
    LoopSection archives s i action t events := by
  cases action with
  | pop i' =>
      cases own
      simp only [serverStep] at taken
      split at taken
      · rename_i popping next
        split at taken
        · rename_i covered
          cases taken
          exact .skip popping next covered
        · rename_i beyond
          cases taken
          exact .pop popping next beyond
      · cases taken
  | checkDuplicate i' =>
      cases own
      simp only [serverStep] at taken
      split at taken
      · rename_i popped
        cases taken
        exact .checkDuplicate popped
      · cases taken
  | execute i' =>
      cases own
      simp only [serverStep] at taken
      split at taken
      · rename_i checked next
        cases taken
        exact .execute checked next
      · cases taken
  | makeSnapShot i' data =>
      cases own
      simp only [serverStep] at taken
      split at taken
      · rename_i executed
        split at taken
        · rename_i made
          cases taken
          exact .makeSnapShot executed made.1 made.2
        · cases taken
      · cases taken
  | sendMessage i' =>
      cases own
      simp only [serverStep] at taken
      split at taken
      · rename_i executed
        cases taken
        exact .sendMessage (Or.inl executed)
      · rename_i snapshotted
        cases taken
        exact .sendMessage (Or.inr snapshotted)
      · cases taken
  | getSnapShotFromRaft i' snapshot =>
      cases own
      simp only [serverStep] at taken
      split at taken
      · rename_i index data popping made
        split at taken
        · rename_i later
          simp only [KvServer.getSnapShotFromRaft, KvServer.condInstallSnapshot, if_true,
            Option.map_map, Option.map_eq_some_iff, Function.comp_apply, Prod.mk.injEq] at taken
          obtain ⟨kv, installed, rfl, rfl⟩ := taken
          exact .install popping made later installed
        · cases taken
      · cases taken
  | request | call | takeReply | commit | startConses | createWaitCh | timeOutPop | getState
  | ifRequestDuplicate | executeGet | deleteWaitCh => cases own

/-- Every step is one of the sections. -/
theorem step_section [DecidableEq κ] (taken : s.step archives action = some (t, events)) :
    Section archives s action t events := by
  cases action with
  | request c operation key value =>
      simp only [step] at taken
      split at taken
      · rename_i idle
        cases taken
        exact .request idle
      · cases taken
  | call c i =>
      simp only [step] at taken
      split at taken
      · cases taken
      · rename_i op sent
        cases taken
        exact .call sent
  | takeReply h =>
      simp only [step] at taken
      split at taken
      · cases taken
      · rename_i handler found
        split at taken
        · rename_i reply replied
          split at taken
          · rename_i accepted
            cases taken
            exact .takeReply found replied accepted.1 accepted.2
          · cases taken
        · cases taken
  | commit proposal =>
      simp only [step] at taken
      split at taken
      · cases taken
      · rename_i command proposed
        cases taken
        exact .commit proposed
  | startConses h | createWaitCh h | timeOutPop h | getState h | ifRequestDuplicate h
  | executeGet h | deleteWaitCh h =>
      simp only [step] at taken
      split at taken
      · cases taken
      · rename_i handler found
        obtain ⟨rfl, ran⟩ := handlerStep_section rfl taken
        exact .handler found ran
  | pop i | checkDuplicate i | execute i | makeSnapShot i | sendMessage i
  | getSnapShotFromRaft i => exact .server (serverStep_section rfl taken)

end Service

end CppRaft.Kv
