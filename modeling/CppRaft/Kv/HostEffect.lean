import CppRaft.Kv.Host

/-!
# What a step of a server can do

A step moves the stage of one handler, the turn of the loop, or the node with
its messages.  `Effect` lists what becomes of the wait channels, and `Flows`
says what becomes of the node and of the messages that it has handed out.
-/

namespace CppRaft.Kv

open CppRaft.RaftCore
open CppRaft.Store
open CppRaft.Transition

variable {n : Nat}

/-! ## Messages -/

/-- The messages with a command that the node has handed out, in order. -/
def Pipeline.commands (p : Pipeline n) : List ApplyMsg :=
  (p.applyChan ++ p.applyMsgs).filter fun message => message.commandValid

/-- The commands handed out so far are numbered as the node numbers them, and
the threads push snapshots. -/
structure Pipeline.Fed (p : Pipeline n) : Prop where
  progress : Raft.Progress p.commands p.rf
  threads : ∀ message ∈ p.pushThreads, message.commandValid = false

/-- What the node and its threads do to a fed pipeline. -/
structure Pipeline.Feeds (p p' : Pipeline n) : Prop where
  fed : p'.Fed
  last : p.rf.getLastLogIndex ≤ p'.rf.getLastLogIndex
  server : p'.server = p.server
  popped : p'.popped = p.popped
  applyChan : p.applyChan <+: p'.applyChan

/-- The index of a command that is applied. -/
def HostEvent.appliedIndex : HostEvent → Option Int
  | .applied raftIndex _ => some raftIndex
  | _ => none

namespace Host

/-! ## Stages -/

/-- The stage of handler `h`; a handler that has not been started is about to. -/
def stage (s : Host n) (h : Nat) : HandlerStage :=
  match s.handlers[h]? with
  | some handler => handler.stage
  | none => .starting

theorem stage_of_getElem? {s : Host n} {h : Nat} {handler : HandlerThread}
    (found : s.handlers[h]? = some handler) : s.stage h = handler.stage := by
  simp [stage, found]

theorem stage_set {handlers : List HandlerThread} {h : Nat} {handler : HandlerThread}
    (found : handlers[h]? = some handler) (st : HandlerStage) (pipeline : Pipeline n)
    (turn : Turn) :
    (Host.mk pipeline (handlers.set h { handler with stage := st }) turn).stage =
      Function.update (Host.mk pipeline handlers turn).stage h st := by
  have inside := (List.getElem?_eq_some_iff.mp found).1
  funext h'
  by_cases here : h' = h
  · subst here
    simp [stage, inside]
  · rw [Function.update_of_ne here]
    simp [stage, List.getElem?_set_ne (Ne.symm here)]

/-! ## What a step does to the channels -/

/-- The wait channels and their queues. -/
structure SameChannels (s s' : Host n) : Prop where
  waitApplyCh : s'.kv.waitApplyCh = s.kv.waitApplyCh
  lockQueues : s'.kv.lockQueues = s.kv.lockQueues

/-- The stages, the channels, the turn of the loop and the events after a step. -/
inductive Effect (s s' : Host n) : List HostEvent → Prop
  | still {emitted : List HostEvent} :
      s'.stage = s.stage → SameChannels s s' →
      (∀ event ∈ emitted, ∃ raftIndex op, event = .applied raftIndex op) →
      (∀ raftIndex op, s'.turn.command = some (raftIndex, op) →
        s.turn.command = some (raftIndex, op) ∨ .applied raftIndex op ∈ emitted) →
      Effect s s' emitted
  | sent {raftIndex : Int} {op : Op} :
      s.turn.command = some (raftIndex, op) → s'.turn.command = none → s'.stage = s.stage →
      s'.kv = s.kv.sendMessageToWaitChan op raftIndex → Effect s s' []
  | refused {h : Nat} :
      s.stage h = .starting → s'.stage = Function.update s.stage h .refused →
      SameChannels s s' → s'.turn = s.turn → Effect s s' []
  | accepted {h : Nat} {raftIndex : Int} :
      s.stage h = .starting → s'.stage = Function.update s.stage h (.creating raftIndex) →
      SameChannels s s' → s'.turn = s.turn → s.rf.getLastLogIndex < raftIndex →
      raftIndex ≤ s'.rf.getLastLogIndex → Effect s s' []
  | created {h : Nat} {raftIndex : Int} :
      s.stage h = .creating raftIndex →
      s'.stage = Function.update s.stage h
        (.serving raftIndex (s.kv.createWaitCh raftIndex).2 .waiting) →
      s'.kv = (s.kv.createWaitCh raftIndex).1 → s'.turn = s.turn →
      Effect s s' (if (s.kv.waitApplyCh.lookup raftIndex).isNone then
        [.created h (s.kv.createWaitCh raftIndex).2] else [])
  | moved {h ch : Nat} {raftIndex : Int} {phase phase' : Phase} {emitted : List HostEvent} :
      s.stage h = .serving raftIndex ch phase →
      s'.stage = Function.update s.stage h (.serving raftIndex ch phase') →
      SameChannels s s' → s'.turn = s.turn → (∀ event ∈ emitted, event = .waited h ch) →
      Effect s s' emitted
  | popped {h ch : Nat} {raftIndex : Int} {phase : Phase} {op : Op} {rest : List Op} :
      s.stage h = .serving raftIndex ch .waiting → s.kv.lockQueues[ch]? = some (op :: rest) →
      s'.stage = Function.update s.stage h (.serving raftIndex ch phase) →
      s'.kv.waitApplyCh = s.kv.waitApplyCh →
      s'.kv.lockQueues = s.kv.lockQueues.set ch rest → s'.turn = s.turn →
      Effect s s' [.waited h ch, .popped h op]
  | deleted {h ch : Nat} {raftIndex : Int} {reply : Reply} :
      s.stage h = .serving raftIndex ch (.deleting reply) →
      s'.stage = Function.update s.stage h (.returned raftIndex ch reply) →
      s'.kv = s.kv.eraseWaitCh raftIndex → s'.turn = s.turn →
      Effect s s' ((s.kv.waitApplyCh.lookup raftIndex).toList.map (HostEvent.deleted h))

/-- The indexes of the commands that the loop has popped. -/
def consumed (s : Host n) : List Int :=
  ((s.pipeline.applyChan.take s.pipeline.popped).filter fun message =>
    message.commandValid).map ApplyMsg.commandIndex

/-- The handlers and the loop run at most one critical section of the node and
leave the messages in the channel. -/
structure Calls (s s' : Host n) (emitted : List HostEvent) : Prop where
  rf : s'.rf = s.rf ∨
    ∃ action, s.rf.NumberedRequest (.critical action) ∧ s.rf.release action = .ok s'.rf
  commands : s'.pipeline.commands = s.pipeline.commands
  pushThreads : s'.pipeline.pushThreads = s.pipeline.pushThreads
  consumed : ∀ {applied : List Int}, applied.Sublist s.consumed →
    (applied ++ emitted.filterMap HostEvent.appliedIndex).Sublist s'.consumed

/-- A step that pops nothing from the channel. -/
theorem calls_of_server {s : Host n} {rf : Raft n} {kv : KvServer}
    {handlers : List HandlerThread} {turn : Turn} {emitted : List HostEvent}
    (run : rf = s.rf ∨
      ∃ action, s.rf.NumberedRequest (.critical action) ∧ s.rf.release action = .ok rf)
    (silent : ∀ event ∈ emitted, event.appliedIndex = none) :
    Calls s ⟨{ s.pipeline with rf := rf, server := kv }, handlers, turn⟩ emitted where
  rf := run
  commands := rfl
  pushThreads := rfl
  consumed := by
    intro applied before
    rw [List.filterMap_eq_nil_iff.mpr silent, List.append_nil]
    exact before

/-- The loop pops a message. -/
theorem calls_of_pop {s : Host n} {message : ApplyMsg} {turn : Turn} {emitted : List HostEvent}
    (found : s.pipeline.applyChan[s.pipeline.popped]? = some message)
    (applied : emitted = [] ∨
      message.commandValid = true ∧ ∃ op, emitted = [.applied message.commandIndex op]) :
    Calls s ⟨{ s.pipeline with popped := s.pipeline.popped + 1 }, s.handlers, turn⟩ emitted where
  rf := Or.inl rfl
  commands := rfl
  pushThreads := rfl
  consumed := by
    intro before sub
    unfold consumed at sub ⊢
    simp only [List.take_add_one, found, Option.toList_some, List.filter_append, List.map_append]
    apply sub.append
    rcases applied with rfl | ⟨valid, op, rfl⟩
    · exact List.nil_sublist _
    · rw [List.filter_cons_of_pos valid]
      exact List.Sublist.refl _

theorem startConses_last {rf rf' : Raft n} {command : Bytes} {raftIndex term : Int}
    (given : rf.startConses command = (rf', some (raftIndex, term))) :
    rf.getLastLogIndex < raftIndex ∧ raftIndex ≤ rf'.getLastLogIndex := by
  rcases rf.startConses_cases command with ⟨_, idle⟩ | ⟨_, appended⟩
  · rw [idle] at given
    cases given
  · rw [appended] at given
    cases given
    constructor
    · exact Int.lt_succ _
    · change _ ≤ ({ rf with logs := rf.logs ++ [rf.newLogEntry command] } : Raft n).getLastLogIndex
      simp [Raft.getLastLogIndex, Raft.getLastLogIndexAndTerm, Raft.newLogEntry,
        Raft.getNewCommandIndex]

/-- A handler goes on and keeps its channel. -/
theorem setStage_moved {s : Host n} {h ch : Nat} {handler : HandlerThread} {raftIndex : Int}
    {phase phase' : Phase} {kv : KvServer} {emitted : List HostEvent}
    (found : s.handlers[h]? = some handler) (here : s.stage h = .serving raftIndex ch phase)
    (same : SameChannels s (s.setKv kv)) (waits : ∀ event ∈ emitted, event = .waited h ch) :
    Effect s ((s.setKv kv).setStage h handler (.serving raftIndex ch phase')) emitted ∧
      Calls s ((s.setKv kv).setStage h handler (.serving raftIndex ch phase')) emitted := by
  constructor
  · exact Effect.moved here (stage_set found _ _ _) ⟨same.waitApplyCh, same.lockQueues⟩ rfl waits
  · apply calls_of_server (Or.inl rfl)
    intro event member
    rw [waits event member]
    rfl

theorem handlerStep_effect {archives : Archives} {s s' : Host n} {action : HostAction n}
    {emitted : List HostEvent} {h : Nat} {handler : HandlerThread}
    (found : s.handlers[h]? = some handler)
    (taken : s.handlerStep archives h handler action = some (s', emitted)) :
    Effect s s' emitted ∧ Calls s s' emitted := by
  have here := stage_of_getElem? found
  cases action with
  | startConses k command =>
      simp only [handlerStep] at taken
      split at taken
      · rename_i starting
        rw [starting] at here
        split at taken
        · split at taken
          · simp only [Option.some.injEq, Prod.mk.injEq] at taken
            obtain ⟨rfl, rfl⟩ := taken
            exact ⟨Effect.refused here (stage_set found _ _ _) ⟨rfl, rfl⟩ rfl,
              calls_of_server (Or.inl rfl) (by simp [HostEvent.appliedIndex])⟩
          · rename_i given
            simp only [Option.some.injEq, Prod.mk.injEq] at taken
            obtain ⟨rfl, rfl⟩ := taken
            obtain ⟨above, below⟩ := startConses_last given
            have ran := congrArg Prod.fst given
            exact ⟨Effect.accepted here (stage_set found _ _ _) ⟨rfl, rfl⟩ rfl above below,
              calls_of_server
                (Or.inr ⟨.startConses command, trivial, congrArg Except.ok ran⟩) (by simp)⟩
        · cases taken
      · cases taken
  | createWaitCh k =>
      simp only [handlerStep] at taken
      split at taken
      · rename_i creating
        rw [creating] at here
        simp only [Option.some.injEq, Prod.mk.injEq] at taken
        obtain ⟨rfl, rfl⟩ := taken
        exact ⟨Effect.created here (stage_set found _ _ _) rfl rfl,
          calls_of_server (Or.inl rfl) (by split <;> simp [HostEvent.appliedIndex])⟩
      · cases taken
  | timeOutPop k timesOut =>
      simp only [handlerStep] at taken
      split at taken
      · rename_i serving
        rw [serving] at here
        split at taken
        · simp only [Option.some.injEq, Prod.mk.injEq] at taken
          obtain ⟨rfl, rfl⟩ := taken
          exact setStage_moved found here ⟨rfl, rfl⟩ (by simp)
        · split at taken
          · rename_i queued
            simp only [Option.some.injEq, Prod.mk.injEq] at taken
            obtain ⟨rfl, rfl⟩ := taken
            exact ⟨Effect.popped here queued (stage_set found _ _ _) rfl rfl rfl,
              calls_of_server (Or.inl rfl) (by simp [HostEvent.appliedIndex])⟩
          · cases taken
      · cases taken
  | getState k =>
      simp only [handlerStep] at taken
      split at taken
      · rename_i serving
        rw [serving] at here
        split at taken
        · simp only [Option.some.injEq, Prod.mk.injEq] at taken
          obtain ⟨rfl, rfl⟩ := taken
          exact setStage_moved found here ⟨rfl, rfl⟩ (by simp)
        · cases taken
      · cases taken
  | ifRequestDuplicate k =>
      simp only [handlerStep] at taken
      split at taken
      · rename_i serving
        rw [serving] at here
        split at taken
        · cases taken
        · simp only [Option.some.injEq, Prod.mk.injEq] at taken
          obtain ⟨rfl, rfl⟩ := taken
          exact setStage_moved found here ⟨rfl, rfl⟩ (by simp)
      · rename_i serving
        rw [serving] at here
        simp only [Option.some.injEq, Prod.mk.injEq] at taken
        obtain ⟨rfl, rfl⟩ := taken
        exact setStage_moved found here ⟨rfl, rfl⟩ (by simp)
      · cases taken
  | executeGet k =>
      simp only [handlerStep] at taken
      split at taken
      · rename_i serving
        rw [serving] at here
        simp only [Option.some.injEq, Prod.mk.injEq] at taken
        obtain ⟨rfl, rfl⟩ := taken
        exact setStage_moved found here ⟨rfl, rfl⟩ (by simp)
      · cases taken
  | deleteWaitCh k =>
      simp only [handlerStep] at taken
      split at taken
      · rename_i serving
        rw [serving] at here
        simp only [Option.some.injEq, Prod.mk.injEq] at taken
        obtain ⟨rfl, rfl⟩ := taken
        exact ⟨Effect.deleted here (stage_set found _ _ _) rfl rfl,
          calls_of_server (Or.inl rfl) (by simp [HostEvent.appliedIndex])⟩
      · cases taken
  | _ => cases taken

theorem sameChannels_getSnapShotFromRaft {archives : Archives} {s : Host n} {kv : KvServer}
    {message : ApplyMsg} (installed : s.kv.getSnapShotFromRaft archives message = some kv)
    (turn : Turn) : SameChannels s { s.setKv kv with turn := turn } := by
  unfold KvServer.getSnapShotFromRaft at installed
  split at installed
  · simp only [KvServer.readSnapShotToInstall, Option.map_eq_some_iff] at installed
    obtain ⟨kv', read, rfl⟩ := installed
    split at read
    · cases read
      exact ⟨rfl, rfl⟩
    · simp only [Option.map_eq_some_iff] at read
      obtain ⟨_, _, rfl⟩ := read
      exact ⟨rfl, rfl⟩
  · cases installed
    exact ⟨rfl, rfl⟩

/-- A section of the loop that goes on with the same command. -/
theorem effect_of_turn {s s' : Host n} (stages : s'.stage = s.stage)
    (same : SameChannels s s')
    (command : s'.turn.command = s.turn.command ∨ s'.turn.command = none) : Effect s s' [] := by
  apply Effect.still stages same (by simp)
  intro raftIndex op running
  rcases command with kept | none
  · rw [kept] at running
    exact Or.inl running
  · rw [none] at running
    cases running

theorem loopStep_effect {archives : Archives} {s s' : Host n} {action : HostAction n}
    {emitted : List HostEvent}
    (taken : s.loopStep archives action s.turn = some (s', emitted)) :
    Effect s s' emitted ∧ Calls s s' emitted := by
  unfold loopStep at taken
  split at taken
  · -- `pop`
    split at taken
    · cases taken
    · rename_i found
      unfold readMessage at taken
      simp only at taken
      split at taken
      · rename_i valid
        split at taken
        · cases taken
        · split at taken
          · cases taken
            exact ⟨effect_of_turn rfl ⟨rfl, rfl⟩ (Or.inr rfl), calls_of_pop found (Or.inl rfl)⟩
          · cases taken
            refine ⟨Effect.still rfl ⟨rfl, rfl⟩ (by simp) ?_,
              calls_of_pop found (Or.inr ⟨valid, _, rfl⟩)⟩
            intro raftIndex op running
            cases running
            exact Or.inr (List.mem_singleton_self _)
      · cases taken
        exact ⟨effect_of_turn rfl ⟨rfl, rfl⟩ (Or.inr rfl), calls_of_pop found (Or.inl rfl)⟩
  · -- `checkDuplicate`
    rename_i popped
    cases taken
    exact ⟨effect_of_turn rfl ⟨rfl, rfl⟩ (Or.inl (by rw [popped]; rfl)),
      calls_of_server (Or.inl rfl) (by simp)⟩
  · -- `execute`
    rename_i checked
    cases taken
    exact ⟨effect_of_turn rfl ⟨rfl, rfl⟩ (Or.inl (by rw [checked]; rfl)),
      calls_of_server (Or.inl rfl) (by simp)⟩
  · -- `getRaftStateSize`
    rename_i executed
    split at taken
    · cases taken
      exact ⟨effect_of_turn rfl ⟨rfl, rfl⟩ (Or.inl (by rw [executed]; rfl)),
        calls_of_server (Or.inl rfl) (by simp)⟩
    · cases taken
      exact ⟨effect_of_turn rfl ⟨rfl, rfl⟩ (Or.inl (by rw [executed]; rfl)),
        calls_of_server (Or.inl rfl) (by simp)⟩
  · -- `makeSnapShot`
    rename_i oversized
    split at taken
    · cases taken
      exact ⟨effect_of_turn rfl ⟨rfl, rfl⟩ (Or.inl (by rw [oversized]; rfl)),
        calls_of_server (Or.inl rfl) (by simp)⟩
    · cases taken
  · -- `snapshot`
    rename_i compacting
    split at taken
    · cases taken
    · rename_i done
      cases taken
      exact ⟨effect_of_turn rfl ⟨rfl, rfl⟩ (Or.inl (by rw [compacting]; rfl)),
        calls_of_server (Or.inr ⟨.snapshot _ _, trivial, done⟩) (by simp)⟩
  · -- `sendMessage`
    rename_i sending
    cases taken
    exact ⟨Effect.sent (by rw [sending]; rfl) rfl rfl rfl,
      calls_of_server (Or.inl rfl) (by simp)⟩
  · -- `getSnapShotFromRaft`
    split at taken
    · split at taken
      · cases taken
      · rename_i installed
        cases taken
        exact ⟨effect_of_turn rfl (sameChannels_getSnapShotFromRaft installed _) (Or.inr rfl),
          calls_of_server (Or.inl rfl) (by simp)⟩
    · cases taken
      exact ⟨effect_of_turn rfl ⟨rfl, rfl⟩ (Or.inr rfl),
        calls_of_server (Or.inl rfl) (by simp)⟩
  · cases taken

end Host

/-! ## The node and its threads -/

theorem Pipeline.Fed.operate {p : Pipeline n} (fed : p.Fed) {rf : Raft n} {step : NodeStep n}
    (numbered : p.rf.NumberedRequest step) (taken : p.rf.operate step = some (rf, [])) :
    Raft.Progress p.commands rf ∧ p.rf.getLastLogIndex ≤ rf.getLastLogIndex := by
  have progress := Raft.operate_progress fed.progress numbered taken
  rw [List.append_nil] at progress
  exact ⟨progress, (Raft.operate_placed fed.progress.placed numbered taken).2.last⟩

/-- A step of the node or of one of its threads. -/
theorem Host.pipelineStep_feeds {archives : Archives} {s s' : Host n}
    {action : PipelineAction n} {emitted : List HostEvent} (fed : s.pipeline.Fed)
    (numbered : NumberedByPeers s (.pipeline action))
    (taken : s.pipelineStep archives action = some (s', emitted)) :
    s.pipeline.Feeds s'.pipeline ∧ s'.handlers = s.handlers ∧ s'.turn = s.turn ∧
      emitted = [] := by
  have released : ∀ {rf : Raft n} {critical : NodeAction n},
      s.rf.NumberedRequest (.critical critical) → s.rf.release critical = .ok rf →
      Raft.Progress s.pipeline.commands rf ∧ s.rf.getLastLogIndex ≤ rf.getLastLogIndex := by
    intro rf critical numbered released
    apply fed.operate numbered
    simp only [Raft.operate, released]
  unfold pipelineStep at taken
  split at taken
  · cases taken
  · cases taken
  · cases taken
  · rename_i notStart notRead notSnapshot
    obtain ⟨p, moved, same⟩ := Option.map_eq_some_iff.mp taken
    cases same
    refine ⟨?_, rfl, rfl, rfl⟩
    cases action with
    | raft critical =>
        simp only [Pipeline.next] at moved
        split at moved
        · cases moved
        · cases moved
        · split at moved
          · cases moved
          · rename_i done
            cases moved
            have accepted : s.rf.NumberedRequest (.critical critical) := by
              cases critical with
              | appendEntries1 args => exact numbered
              | _ => trivial
            obtain ⟨progress, last⟩ := released accepted done
            exact ⟨⟨progress, fed.threads⟩, last, rfl, rfl, List.prefix_rfl⟩
    | installSnapshot args =>
        simp only [Pipeline.next] at moved
        split at moved
        · cases moved
        · rename_i rf response msg handled
          cases moved
          have accepted : s.rf.NumberedRequest (.critical (.installSnapshot args)) := trivial
          obtain ⟨progress, last⟩ := released accepted (map_eq_ok.mpr ⟨_, handled, rfl⟩)
          refine ⟨⟨progress, ?_⟩, last, rfl, rfl, List.prefix_rfl⟩
          intro message member
          rcases List.mem_append.mp member with before | added
          · exact fed.threads message before
          · rcases Raft.installSnapshot_cases handled with ⟨_, _, rfl⟩ | ⟨_, _, _, rfl⟩ |
              ⟨_, _, _, rfl⟩
            · cases added
            · cases added
            · cases Option.mem_toList.mp added
              rfl
    | getApplyLogs =>
        simp only [Pipeline.next] at moved
        split at moved
        · rename_i pushed
          split at moved
          · cases moved
          · rename_i rf applyMsgs collected
            cases moved
            have progress := fed.progress.collect collected
            have advances := (Raft.getApplyLogs_placed fed.progress.placed collected).2.1
            have valid : ∀ message ∈ applyMsgs, message.commandValid = true := by
              intro message member
              obtain ⟨k, found⟩ := List.mem_iff_getElem?.mp member
              obtain ⟨_, entry, _, rfl⟩ := (Raft.getApplyLogs_emits collected).2 k message found
              rfl
            refine ⟨⟨?_, fed.threads⟩, advances.last, rfl, rfl, List.prefix_rfl⟩
            have more : s.pipeline.commands ++ applyMsgs =
                (s.pipeline.applyChan ++ applyMsgs).filter fun message => message.commandValid := by
              rw [Pipeline.commands, pushed, List.append_nil, List.filter_append,
                List.filter_eq_self.mpr valid]
            rwa [more] at progress
        · cases moved
    | applierPush =>
        simp only [Pipeline.next] at moved
        split at moved
        · cases moved
        · rename_i message rest collected
          cases moved
          refine ⟨⟨?_, fed.threads⟩, le_rfl, rfl, rfl, List.prefix_append _ _⟩
          have same : s.pipeline.commands = (s.pipeline.applyChan ++ [message] ++ rest).filter
              fun message => message.commandValid := by
            rw [Pipeline.commands, collected, List.append_assoc, List.singleton_append]
          have progress := fed.progress
          rwa [same] at progress
    | pushMsgToKvServer thread =>
        simp only [Pipeline.next] at moved
        split at moved
        · cases moved
        · rename_i message waiting
          cases moved
          have silent := fed.threads message (List.mem_of_getElem? waiting)
          refine ⟨⟨?_, ?_⟩, le_rfl, rfl, rfl, List.prefix_append _ _⟩
          · have same : s.pipeline.commands =
                (s.pipeline.applyChan ++ [message] ++ s.pipeline.applyMsgs).filter
                  fun message => message.commandValid := by
              rw [Pipeline.commands, List.filter_append, List.filter_append, List.filter_append,
                List.filter_cons_of_neg (by simp [silent]), List.filter_nil, List.append_nil]
            have progress := fed.progress
            rwa [same] at progress
          · intro other member
            exact fed.threads other (List.mem_of_mem_eraseIdx member)
    | readRaftApplyCommand snapshot => exact absurd rfl (notRead snapshot)
    | snapshot => exact absurd rfl notSnapshot

/-! ## Steps -/

namespace Host

/-- What a step does to the node and the messages. -/
structure Flows (s s' : Host n) (emitted : List HostEvent) : Prop where
  fed : s'.pipeline.Fed
  last : s.rf.getLastLogIndex ≤ s'.rf.getLastLogIndex
  consumed : ∀ {applied : List Int}, applied.Sublist s.consumed →
    (applied ++ emitted.filterMap HostEvent.appliedIndex).Sublist s'.consumed

variable {archives : Archives} {s s' : Host n} {action : HostAction n}
  {events emitted : List HostEvent}

theorem Calls.flows (calls : Calls s s' emitted) (fed : s.pipeline.Fed) : Flows s s' emitted := by
  have threads : ∀ message ∈ s'.pipeline.pushThreads, message.commandValid = false := by
    rw [calls.pushThreads]
    exact fed.threads
  rcases calls.rf with same | ⟨critical, numbered, released⟩
  · have progress : Raft.Progress s.pipeline.commands s.rf := fed.progress
    rw [← calls.commands, ← same] at progress
    exact ⟨⟨progress, threads⟩, by rw [same], calls.consumed⟩
  · have taken : s.rf.operate (.critical critical) = some (s'.rf, []) := by
      simp only [Raft.operate, released]
    obtain ⟨progress, last⟩ := fed.operate numbered taken
    rw [← calls.commands] at progress
    exact ⟨⟨progress, threads⟩, last, calls.consumed⟩

theorem flows_of_feeds (feeds : s.pipeline.Feeds s'.pipeline) : Flows s s' [] where
  fed := feeds.fed
  last := feeds.last
  consumed := by
    intro applied before
    rw [List.filterMap_nil, List.append_nil]
    apply before.trans
    obtain ⟨more, longer⟩ := feeds.applyChan
    unfold consumed
    rw [feeds.popped, ← longer, List.take_append]
    exact ((List.sublist_append_left _ _).filter _).map _

/-- A step of the host that peers and `NumberedByPeers` allow. -/
theorem step_effect (fed : s.pipeline.Fed) (numbered : NumberedByPeers s action)
    (taken : s.step archives action = some (s', emitted)) :
    Effect s s' emitted ∧ Flows s s' emitted := by
  unfold step at taken
  split at taken
  · obtain ⟨feeds, handlers, turn, rfl⟩ := pipelineStep_feeds fed numbered taken
    refine ⟨effect_of_turn ?_ ?_ (Or.inl (by rw [turn])), flows_of_feeds feeds⟩
    · funext h
      rw [stage, stage, handlers]
    · exact ⟨congrArg KvServer.waitApplyCh feeds.server, congrArg KvServer.lockQueues feeds.server⟩
  · cases taken
    refine ⟨effect_of_turn ?_ ⟨rfl, rfl⟩ (Or.inl rfl), fed, le_rfl, ?_⟩
    · funext h
      by_cases here : h = s.handlers.length
      · subst here
        simp [stage]
      · rcases Nat.lt_or_gt_of_ne here with inside | beyond
        · simp [stage, List.getElem?_append_left inside]
        · simp [stage, List.getElem?_eq_none beyond.le, List.getElem?_append_right beyond.le,
            Nat.sub_eq_iff_eq_add beyond.le, here]
    · intro applied before
      rw [List.filterMap_nil, List.append_nil]
      exact before
  · split at taken
    · obtain ⟨effect, calls⟩ := loopStep_effect taken
      exact ⟨effect, calls.flows fed⟩
    · split at taken
      · cases taken
      · rename_i found
        obtain ⟨effect, calls⟩ := handlerStep_effect found taken
        exact ⟨effect, calls.flows fed⟩

end Host

end CppRaft.Kv
