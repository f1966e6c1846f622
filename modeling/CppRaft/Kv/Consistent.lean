import CppRaft.Kv.Critical

/-!
# The invariant of the service

In runs in which reads do not move marks back every server is a replica of the
prefix that it has consumed.  The flag of the apply loop then tells whether a
Put or Append has occurred before.
-/

namespace CppRaft.Kv

open CppRaft.Session
open CppRaft.Store
open CppRaft.Transition

variable {κ : Type} {m : Nat} {archives : Archives}

/-! ## Conditions on the steps -/

/-- `ExecuteGetOpOnKVDB` runs only when the mark of the client is not ahead of
the read. -/
def ReadsForward (s : Service κ m) : ServiceAction κ m → Prop
  | .executeGet h =>
      ∀ handler ∈ s.handlers[h]?, ∀ last ∈ s.mark handler.server handler.command.op.clientId,
        last ≤ handler.command.op.requestId
  | _ => True

instance (s : Service κ m) (action : ServiceAction κ m) : Decidable (ReadsForward s action) := by
  unfold ReadsForward
  cases action <;> infer_instance

/-! ## The invariant -/

/-- What the apply loop of a server knows. -/
def LoopRel (log : List (Command κ)) (position : Nat) : ApplyLoop → Prop
  | .popping => True
  | .popped op commandIndex =>
      commandIndex = position + 1 ∧ ∃ command, log[position]? = some command ∧ command.op = op
  | .checked op commandIndex duplicate =>
      commandIndex = position + 1 ∧ ∃ command, log[position]? = some command ∧ command.op = op ∧
        (op.Writes → (duplicate = true ↔ Occurs (log.take position) op.clientId op.requestId))
  | .executed op commandIndex | .snapshotted op commandIndex =>
      commandIndex = position ∧ Occurs (log.take position) op.clientId op.requestId

/-- A server has consumed the log up to its position. -/
structure ServerRel (log : List (Command κ)) (server : Server) : Prop where
  bound : server.position ≤ log.length
  replica : Replica (log.take server.position) server.kv.data
  lastSnapShot : server.kv.lastSnapShotRaftLogIndex ≤ server.position
  queued : ∀ queue ∈ server.kv.lockQueues, ∀ op ∈ queue,
    Occurs (log.take server.position) op.clientId op.requestId
  loop : LoopRel log server.position server.applyLoop

/-- The invariant of the service. -/
structure Consistent (archives : Archives) (s : Service κ m) : Prop where
  outstanding : ∀ c op, (s.clerks c).outstanding = some op →
    op.clientId = (s.clerks c).clientId ∧ op.requestId = (s.clerks c).requestId ∧
      1 ≤ (s.clerks c).requestId
  nonneg : ∀ c, 0 ≤ (s.clerks c).requestId
  distinct : ∀ c c', (s.clerks c).clientId = (s.clerks c').clientId →
    (s.clerks c).requestId ≠ 0 → (s.clerks c').requestId ≠ 0 → c = c'
  returned : ∀ c r, 1 ≤ r → r ≤ (s.clerks c).requestId →
    (r = (s.clerks c).requestId → (s.clerks c).outstanding = none) →
    Occurs s.log (s.clerks c).clientId r
  issued : ∀ command ∈ s.commands, Issued s command
  unique : ∀ a ∈ s.commands, ∀ b ∈ s.commands, a.op.clientId = b.op.clientId →
    a.op.requestId = b.op.requestId → a = b
  proposed : ∀ command ∈ s.proposals, command ∈ s.commands
  committed : ∀ command ∈ s.log, command ∈ s.commands
  inOrder : InOrder s.log
  consumed : ∀ handler ∈ s.handlers, handler.stage.Answers →
    Occurs (s.log.take (s.servers handler.server).position) handler.command.op.clientId
      handler.command.op.requestId
  server : ∀ i, ServerRel s.log (s.servers i)
  snapshot : ∀ index data, (index, data) ∈ s.snapshots → index ≤ s.log.length ∧ data ≠ [] ∧
    ∃ kvData, archives.readKvData data = some kvData ∧ Replica (s.log.take index) kvData

/-! ## Replicas as tracked servers -/

/-- The flag of a Put or Append tells whether it has occurred before. -/
theorem Replica.flag_iff {log : List (Command κ)} {data : KvData} {command : Command κ}
    {duplicate : Bool} (replica : Replica log data) (inOrder : InOrder (log ++ [command]))
    (writes : command.op.Writes) :
    (∃ checked : KvData, Replica log checked ∧
      duplicate = checked.ifRequestDuplicate command.op.clientId command.op.requestId) ↔
    (duplicate = true ↔ Occurs log command.op.clientId command.op.requestId) := by
  constructor
  · rintro ⟨checked, same, rfl⟩
    exact same.duplicate_iff inOrder writes
  · intro recognized
    refine ⟨data, replica, ?_⟩
    rw [Bool.eq_iff_iff, recognized, replica.duplicate_iff inOrder writes]

theorem tracks_replica : Tracks (Replica : List (Command κ) → KvData → Prop) where
  start := replica_start
  marked := fun replica => replica.marked.occurs
  consume := by
    intro log command data duplicate replica inOrder flag
    by_cases writes : command.op.Writes
    · have recognized := (replica.flag_iff inOrder writes).mp (flag writes)
      split
      · rename_i repeated
        exact replica.skip inOrder fun _ => recognized.mp repeated
      · rename_i fresh
        exact replica.execute inOrder writes fun occurs => fresh (recognized.mpr occurs)
    · rw [KvData.executeCommand_of_not_writes _ writes, ite_self]
      exact replica.skip inOrder fun write => absurd write writes

/-- The loop of a replica. -/
theorem loopTracked_replica_iff {log : List (Command κ)} {position : Nat} {data : KvData}
    (replica : Replica (log.take position) data) (inOrder : InOrder log) (loop : ApplyLoop) :
    LoopTracked Replica log position loop ↔ LoopRel log position loop := by
  cases loop with
  | popping | popped op commandIndex | executed op commandIndex
  | snapshotted op commandIndex => rfl
  | checked op commandIndex duplicate =>
      have recognizes : ∀ command, log[position]? = some command → command.op.Writes →
          ((∃ checked : KvData, Replica (log.take position) checked ∧
            duplicate = checked.ifRequestDuplicate command.op.clientId command.op.requestId) ↔
          (duplicate = true ↔
            Occurs (log.take position) command.op.clientId command.op.requestId)) := by
        intro command next writes
        have inOrder := inOrder.take (position + 1)
        rw [take_position_succ next] at inOrder
        exact replica.flag_iff inOrder writes
      constructor
      · rintro ⟨index, command, next, rfl, flag⟩
        exact ⟨index, command, next, rfl, fun writes =>
          (recognizes command next writes).mp (flag writes)⟩
      · rintro ⟨index, command, next, rfl, recognized⟩
        exact ⟨index, command, next, rfl, fun writes =>
          (recognizes command next writes).mpr (recognized writes)⟩

variable {s t : Service κ m} {events : List (ServiceEvent κ m)} {action : ServiceAction κ m}

theorem consistent_iff : Consistent archives s ↔ Tracked Replica archives s := by
  constructor
  · intro inv
    exact
      { inv with
        server := fun i =>
          { inv.server i with
            tracked := (inv.server i).replica
            loop := (loopTracked_replica_iff (inv.server i).replica inv.inOrder _).mpr
              (inv.server i).loop } }
  · intro inv
    exact
      { inv with
        server := fun i =>
          { inv.server i with
            replica := (inv.server i).tracked
            loop := (loopTracked_replica_iff (inv.server i).tracked inv.inOrder _).mp
              (inv.server i).loop } }

theorem consistent_start (clientId : κ → Bytes) (maxRaftState : Int) :
    Consistent archives (Service.start clientId maxRaftState : Service κ m) :=
  consistent_iff.mpr (tracked_start tracks_replica clientId maxRaftState)

namespace Consistent

/-- What the apply loop holds when it executes or skips a command. -/
theorem of_checked (inv : Consistent archives s) {i : Fin m} {op : Op} {commandIndex : Int}
    {duplicate : Bool} {command : Command κ}
    (checked : (s.servers i).applyLoop = .checked op commandIndex duplicate)
    (next : s.log[(s.servers i).position]? = some command) :
    commandIndex = (s.servers i).position + 1 ∧ command.op = op ∧
      (op.Writes → (duplicate = true ↔
        Occurs (s.log.take (s.servers i).position) op.clientId op.requestId)) := by
  have loop := (inv.server i).loop
  rw [checked] at loop
  obtain ⟨index, found, next', same, recognized⟩ := loop
  rw [next, Option.some.injEq] at next'
  exact ⟨index, next' ▸ same, recognized⟩

/-- A read that does not go back keeps its server a replica. -/
theorem readsTracked (inv : Consistent archives s) (forward : ReadsForward s action) :
    ReadsTracked Replica s action := by
  cases action with
  | executeGet h =>
      intro handler found occurs
      exact (inv.server handler.server).replica.read occurs (forward handler found)
  | _ => trivial

variable [DecidableEq κ]

/-- Every run in which clerks keep their ids apart and reads do not go back. -/
theorem run {guard : Service κ m → ServiceAction κ m → Prop}
    (inv : Consistent archives s) (ownId : ∀ s action, guard s action → OwnId s action)
    (forward : ∀ s action, guard s action → ReadsForward s action)
    (run : Run (Service.step archives) guard s events t) : Consistent archives t := by
  apply consistent_iff.mpr
  apply (consistent_iff.mp inv).run tracks_replica ownId _ run
  intro s action inv accepted
  exact (consistent_iff.mpr inv).readsTracked (forward s action accepted)

end Consistent

end CppRaft.Kv
