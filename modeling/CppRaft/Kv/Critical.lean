import CppRaft.Kv.Sections
import CppRaft.Kv.Tracked

/-!
# The critical sections keep the servers tracked

A handler answers its clerk only for a command that its server has consumed:
it has popped the command from its wait channel, or found it marked.  The apply
loop consumes the commands one by one, and a snapshot stands for a prefix.
-/

namespace CppRaft.Kv

open CppRaft.Session
open CppRaft.Store
open CppRaft.Transition

variable {κ : Type} {m : Nat} {archives : Archives} {s t : Service κ m}
  {events : List (ServiceEvent κ m)} {action : ServiceAction κ m}
  {rel : List (Command κ) → KvData → Prop}

@[simp]
theorem Service.setKv_position (s : Service κ m) (i j : Fin m) (kv : KvServer) :
    ((s.setKv i kv).servers j).position = (s.servers j).position := by
  by_cases same : j = i
  · subst same
    simp [Service.setKv, Service.setServer]
  · simp [Service.setKv, Service.setServer, Function.update_of_ne same]

theorem take_position_succ {log : List (Command κ)} {position : Nat} {command : Command κ}
    (found : log[position]? = some command) :
    log.take (position + 1) = log.take position ++ [command] := by
  rw [List.take_add_one, found, Option.toList_some]

namespace Tracked

/-! ## Handlers -/

variable {h : Nat} {handler : Handler κ m}

/-- A handler that answers does so for a consumed command. -/
theorem mem_of_answers (inv : Tracked rel archives s) (found : s.handlers[h]? = some handler)
    (answers : handler.stage.Answers) :
    handler.command ∈ s.log.take (s.servers handler.server).position := by
  obtain ⟨command, member, client, number⟩ :=
    inv.consumed handler (List.mem_of_getElem? found) answers
  have same := inv.unique command (inv.committed command (List.mem_of_mem_take member))
    handler.command (Service.mem_commands found) client number
  exact same ▸ member

/-- A handler proposes its command. -/
theorem propose (inv : Tracked rel archives s) {command : Command κ}
    (member : command ∈ s.commands) :
    Tracked rel archives { s with proposals := s.proposals ++ [command] } :=
  { inv with
    issued := fun other otherMember => { inv.issued other otherMember with }
    proposed := by
      intro other otherMember
      rcases List.mem_append.mp otherMember with old | new
      · exact inv.proposed other old
      · rw [List.mem_singleton.mp new]
        exact member }

/-- A marked command of a handler was consumed. -/
theorem occurs_of_duplicate (inv : Tracked rel archives s) (tracks : Tracks rel)
    (found : s.handlers[h]? = some handler) (duplicate : s.duplicate handler = true) :
    Occurs (s.log.take (s.servers handler.server).position) handler.command.op.clientId
      handler.command.op.requestId := by
  obtain ⟨last, mark, behind⟩ := (KvData.ifRequestDuplicate_iff _ _ _).mp duplicate
  have occurs := tracks.marked (inv.server handler.server).tracked _ _ mark
  have positive := (inv.issued _ (Service.mem_commands found)).positive
  exact (inv.inOrder.take _).occurs_of_le occurs positive behind

/-- A handler changes its server in what is not replicated, and moves on. -/
theorem setKv_setStage (inv : Tracked rel archives s) (found : s.handlers[h]? = some handler)
    {kv : KvServer} {stage : Stage}
    (tracked : rel (s.log.take (s.servers handler.server).position) kv.data)
    (lastSnapShot : kv.lastSnapShotRaftLogIndex =
      (s.servers handler.server).kv.lastSnapShotRaftLogIndex)
    (queued : ∀ queue ∈ kv.lockQueues, ∀ op ∈ queue,
      Occurs (s.log.take (s.servers handler.server).position) op.clientId op.requestId)
    (answers : stage.Answers → Occurs (s.log.take (s.servers handler.server).position)
      handler.command.op.clientId handler.command.op.requestId) :
    Tracked rel archives ((s.setKv handler.server kv).setStage h handler stage) := by
  have changed := inv.setKv tracked lastSnapShot queued
  apply changed.setStage found
  rw [Service.setKv_position]
  exact answers

/-- The new wait channel is empty. -/
theorem createWaitCh (inv : Tracked rel archives s) (found : s.handlers[h]? = some handler)
    (raftIndex : Int) :
    Tracked rel archives ((s.setKv handler.server
        ((s.servers handler.server).kv.createWaitCh raftIndex).1).setStage h handler
      (.waiting raftIndex ((s.servers handler.server).kv.createWaitCh raftIndex).2)) := by
  have server := inv.server handler.server
  apply inv.setKv_setStage found
  · rw [KvServer.createWaitCh_data]
    exact server.tracked
  · rw [KvServer.createWaitCh_lastSnapShotRaftLogIndex]
  · intro queue member op queued
    rcases KvServer.mem_lockQueues_createWaitCh member with old | rfl
    · exact server.queued queue old op queued
    · cases queued
  · exact fun answers => answers.elim

/-- A popped command was consumed. -/
theorem popQueue (inv : Tracked rel archives s) (found : s.handlers[h]? = some handler)
    {queue : Nat} {op : Op} {rest : List Op}
    (queued : (s.servers handler.server).kv.lockQueues[queue]? = some (op :: rest))
    (raftIndex : Int) :
    Tracked rel archives ((s.setKv handler.server
        { (s.servers handler.server).kv with
          lockQueues := (s.servers handler.server).kv.lockQueues.set queue rest }).setStage h
      handler (Service.poppedStage handler raftIndex op)) := by
  have server := inv.server handler.server
  have consumed := server.queued _ (List.mem_of_getElem? queued)
  apply inv.setKv_setStage found
  · exact server.tracked
  · rfl
  · intro other member op' inside
    rcases List.mem_or_eq_of_mem_set member with old | rfl
    · exact server.queued other old op' inside
    · exact consumed op' (List.mem_cons_of_mem _ inside)
  · intro answers
    have occurs := consumed op List.mem_cons_self
    unfold Service.poppedStage at answers
    split at answers
    · rename_i same
      rwa [same.1, same.2] at occurs
    · exact absurd rfl answers

/-- Every critical section of a handler. -/
theorem handlerSection (inv : Tracked rel archives s) (tracks : Tracks rel)
    (found : s.handlers[h]? = some handler) (read : ReadsTracked rel s action)
    (ran : HandlerSection s h handler action t) : Tracked rel archives t := by
  have server := inv.server handler.server
  have consumed := inv.consumed handler (List.mem_of_getElem? found)
  cases ran with
  | refuse starting => exact inv.setStage found fun answers => absurd rfl answers
  | propose starting =>
      exact (inv.propose (Service.mem_commands found)).setStage found fun answers => answers.elim
  | createWaitCh creating => exact inv.createWaitCh found _
  | timeOut waiting => exact inv.setStage found fun answers => answers.elim
  | pop waiting queued => exact inv.popQueue found queued _
  | getState timedOut get => exact inv.setStage found fun answers => answers.elim
  | acknowledge timedOut writes =>
      apply inv.setStage found
      intro answers
      apply inv.occurs_of_duplicate tracks found
      by_contra fresh
      rw [if_neg fresh] at answers
      exact answers rfl
  | retry knows =>
      apply inv.setStage found
      intro answers
      split at answers
      · rename_i both
        exact inv.occurs_of_duplicate tracks found (Bool.and_eq_true_iff.mp both).1
      · exact absurd rfl answers
  | executeGet reading =>
      rw [reading] at consumed
      apply inv.setKv_setStage found
      · exact read handler found (consumed trivial)
      · rfl
      · exact server.queued
      · exact fun _ => consumed trivial
  | deleteWaitCh deleting =>
      rw [deleting] at consumed
      apply inv.setKv_setStage found
      · exact server.tracked
      · rfl
      · exact server.queued
      · exact consumed

/-! ## The apply loop -/

variable {i : Fin m}

/-- The apply loop executes or skips the next command. -/
theorem execute (inv : Tracked rel archives s) (tracks : Tracks rel) {op : Op} {commandIndex : Int}
    {duplicate : Bool} {command : Command κ}
    (checked : (s.servers i).applyLoop = .checked op commandIndex duplicate)
    (next : s.log[(s.servers i).position]? = some command) :
    Tracked rel archives (s.setServer i
      { kv := { (s.servers i).kv with
          data := if duplicate then (s.servers i).kv.data
            else (s.servers i).kv.data.executeCommand op }
        position := (s.servers i).position + 1
        applyLoop := .executed op commandIndex }) := by
  have server := inv.server i
  have loop := server.loop
  rw [checked] at loop
  obtain ⟨index, found, next', rfl, flag⟩ := loop
  cases next.symm.trans next'
  have step := take_position_succ next
  have inOrder := inv.inOrder.take ((s.servers i).position + 1)
  rw [step] at inOrder
  have further : s.log.take (s.servers i).position <+: s.log.take ((s.servers i).position + 1) :=
    List.take_prefix_take_left (Nat.le_succ _)
  have lastSnapShot := server.lastSnapShot
  refine inv.setServer ?_ (Nat.le_succ _)
  constructor
  · exact (List.getElem?_eq_some_iff.mp next).1
  · rw [step]
    exact tracks.consume server.tracked inOrder flag
  · show (s.servers i).kv.lastSnapShotRaftLogIndex ≤ ((s.servers i).position + 1 : Nat)
    omega
  · exact fun queue member other queued => (server.queued queue member other queued).mono further
  · refine ⟨by rw [index]; push_cast; rfl, ?_⟩
    rw [step]
    exact occurs_concat.mpr (Or.inr ⟨rfl, rfl⟩)

/-- A snapshot of a server is kept for others. -/
theorem addSnapshot (inv : Tracked rel archives s) {index : Nat} {data : Bytes}
    (made : index ≤ s.log.length ∧ data ≠ [] ∧
      ∃ kvData, archives.readKvData data = some kvData ∧ rel (s.log.take index) kvData) :
    Tracked rel archives { s with snapshots := s.snapshots ++ [(index, data)] } :=
  { inv with
    issued := fun other otherMember => { inv.issued other otherMember with }
    snapshot := by
      intro other otherData member
      rcases List.mem_append.mp member with old | new
      · exact inv.snapshot other otherData old
      · cases List.mem_singleton.mp new
        exact made }

/-- The apply loop sends a consumed command to its wait channel. -/
theorem sendMessage (inv : Tracked rel archives s) {op : Op} (commandIndex : Int)
    (consumed : Occurs (s.log.take (s.servers i).position) op.clientId op.requestId) :
    Tracked rel archives (s.setServer i { s.servers i with
      kv := (s.servers i).kv.sendMessageToWaitChan op commandIndex
      applyLoop := .popping }) := by
  have server := inv.server i
  refine inv.setServer ?_ le_rfl
  constructor
  · exact server.bound
  · rw [KvServer.sendMessageToWaitChan_data]
    exact server.tracked
  · rw [KvServer.sendMessageToWaitChan_lastSnapShotRaftLogIndex]
    exact server.lastSnapShot
  · intro queue member other queued
    rcases KvServer.mem_lockQueues_sendMessageToWaitChan member with old | ⟨old, oldMember, rfl⟩
    · exact server.queued queue old other queued
    · rcases List.mem_append.mp queued with before | new
      · exact server.queued old oldMember other before
      · rw [List.mem_singleton.mp new]
        exact consumed
  · trivial

/-- A server installs a snapshot that was made further on. -/
theorem install (inv : Tracked rel archives s) {index : Nat} {data : Bytes} {kv : KvServer}
    (popping : (s.servers i).applyLoop = .popping) (made : (index, data) ∈ s.snapshots)
    (later : (s.servers i).position ≤ index)
    (installed : (s.servers i).kv.readSnapShotToInstall archives data = some kv) :
    Tracked rel archives (s.setServer i { s.servers i with
      kv := { kv with lastSnapShotRaftLogIndex := index }
      position := index }) := by
  have server := inv.server i
  obtain ⟨bound, nonempty, kvData, read, tracked⟩ := inv.snapshot index data made
  simp only [KvServer.readSnapShotToInstall, nonempty, read, if_false, Option.map_some,
    Option.some.injEq] at installed
  subst installed
  have further : s.log.take (s.servers i).position <+: s.log.take index :=
    List.take_prefix_take_left later
  refine inv.setServer ?_ later
  constructor
  · exact bound
  · exact tracked
  · exact le_rfl
  · exact fun queue member other queued => (server.queued queue member other queued).mono further
  · rw [popping]
    trivial

/-- Every critical section of an apply loop. -/
theorem loopSection (inv : Tracked rel archives s) (tracks : Tracks rel)
    (ran : LoopSection archives s i action t events) : Tracked rel archives t := by
  have server := inv.server i
  have loop := server.loop
  cases ran with
  | skip popping next covered =>
      have := server.lastSnapShot
      omega
  | pop popping next beyond => exact inv.setServer (server.setLoop ⟨rfl, _, next, rfl⟩) le_rfl
  | checkDuplicate popped =>
      rw [popped] at loop
      obtain ⟨index, command, next, rfl⟩ := loop
      refine inv.setServer (server.setLoop ?_) le_rfl
      exact ⟨index, command, next, rfl, fun _ => ⟨_, server.tracked, rfl⟩⟩
  | execute checked next => exact inv.execute tracks checked next
  | @makeSnapShot op commandIndex data executed limited made =>
      rw [executed] at loop
      obtain ⟨index, occurs⟩ := loop
      have loopTracked : LoopTracked rel s.log (s.servers i).position
          (.snapshotted op commandIndex) := ⟨index, occurs⟩
      have moved := inv.setServer (server.setLoop loopTracked) le_rfl
      apply moved.addSnapshot
      rw [index, Int.toNat_natCast]
      exact ⟨server.bound, made.1, _, made.2, server.tracked⟩
  | sendMessage done =>
      rcases done with executed | snapshotted
      · rw [executed] at loop
        exact inv.sendMessage _ loop.2
      · rw [snapshotted] at loop
        exact inv.sendMessage _ loop.2
  | install popping made later installed =>
      exact inv.install popping (List.mem_of_getElem? made) later installed

/-! ## Steps and runs -/

variable [DecidableEq κ]

/-- Every step in which clerks keep their ids apart. -/
theorem step (inv : Tracked rel archives s) (tracks : Tracks rel) (ownId : OwnId s action)
    (read : ReadsTracked rel s action) (taken : s.step archives action = some (t, events)) :
    Tracked rel archives t := by
  cases Service.step_section taken with
  | request idle => exact inv.request ownId idle
  | @call c i op sent => exact inv.call sent i
  | takeReply found replied accepted sent =>
      apply inv.takeReply (List.mem_of_getElem? found) _ sent
      rw [replied]
      exact accepted
  | commit proposed => exact inv.commit (List.mem_of_getElem? proposed)
  | handler found ran => exact inv.handlerSection tracks found read ran
  | server ran => exact inv.loopSection tracks ran

/-- Every run in which clerks keep their ids apart. -/
theorem run {guard : Service κ m → ServiceAction κ m → Prop} (inv : Tracked rel archives s)
    (tracks : Tracks rel) (ownId : ∀ s action, guard s action → OwnId s action)
    (read : ∀ s action, Tracked rel archives s → guard s action → ReadsTracked rel s action)
    (run : Run (Service.step archives) guard s events t) : Tracked rel archives t := by
  induction run with
  | nil => exact inv
  | snoc _ accepted taken ih =>
      exact ih.step tracks (ownId _ _ accepted) (read _ _ ih accepted) taken

end Tracked

end CppRaft.Kv
