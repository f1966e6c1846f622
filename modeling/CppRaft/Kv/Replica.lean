import CppRaft.Kv.Core
import CppRaft.Kv.Service
import CppRaft.Session.Marks

/-!
# The state of a replica after a prefix of the log

A replica that has consumed a prefix holds the database of its replay, and its
marks recognize the Puts and Appends of the prefix.  The marks themselves also
depend on the reads that were executed on the replica.
-/

namespace CppRaft.Kv

open CppRaft.Session
open CppRaft.Store

variable {κ : Type}

instance : Numbered (Command κ) Bytes where
  clientOf := fun command => command.op.clientId
  numberOf := fun command => command.op.requestId

theorem clientOf_eq (command : Command κ) : clientOf command = command.op.clientId :=
  rfl

theorem numberOf_eq (command : Command κ) : numberOf command = command.op.requestId :=
  rfl

/-- Commands that write. -/
abbrev Writing (command : Command κ) : Prop :=
  command.op.Writes

namespace KvData

/-- The marks of the clients. -/
def marks (data : KvData) : Bytes → Option Int :=
  fun clientId => data.lastRequestId.lookup clientId

theorem ifRequestDuplicate_iff (data : KvData) (clientId : Bytes) (requestId : Int) :
    data.ifRequestDuplicate clientId requestId = true ↔
      ∃ last, data.marks clientId = some last ∧ requestId ≤ last := by
  unfold ifRequestDuplicate marks
  cases data.lastRequestId.lookup clientId <;> simp

theorem lookup_insert_eq_update (lastRequestId : StringMap Int) (clientId : Bytes)
    (requestId : Int) :
    (fun other => (lastRequestId.insert clientId requestId).lookup other) =
      Function.update (fun other => lastRequestId.lookup other) clientId (some requestId) := by
  funext other
  by_cases same : other = clientId
  · subst same
    rw [Finmap.lookup_insert, Function.update_self]
  · rw [Finmap.lookup_insert_of_ne _ same, Function.update_of_ne same]

theorem marks_executeGetOpOnKVDB (data : KvData) (op : Op) :
    (data.executeGetOpOnKVDB op).1.marks =
      Function.update data.marks op.clientId (some op.requestId) :=
  lookup_insert_eq_update _ _ _

theorem marks_executeCommand (data : KvData) {op : Op} (writes : op.Writes) :
    (data.executeCommand op).marks =
      Function.update data.marks op.clientId (some op.requestId) := by
  unfold executeCommand
  cases operation : op.operation with
  | get => exact absurd operation writes
  | put => exact lookup_insert_eq_update _ _ _
  | append => exact lookup_insert_eq_update _ _ _

theorem executeCommand_of_not_writes (data : KvData) {op : Op} (reads : ¬ op.Writes) :
    data.executeCommand op = data := by
  unfold Op.Writes at reads
  rw [executeCommand, not_not.mp reads]

/-- The database after a command depends on the database before it. -/
theorem executeCommand_kvDB {data data' : KvData} (same : data.kvDB = data'.kvDB) (op : Op) :
    (data.executeCommand op).kvDB = (data'.executeCommand op).kvDB := by
  unfold executeCommand
  cases op.operation with
  | get => exact same
  | put => simp only [executePutOpOnKVDB, same]
  | append => simp only [executeAppendOpOnKVDB, same]

theorem applyCommand_of_not_writes (data : KvData) {op : Op} (reads : ¬ op.Writes) :
    data.applyCommand op = data := by
  unfold applyCommand
  rw [executeCommand_of_not_writes data reads, ite_self]

end KvData

/-- `data` is what a replica may hold after `log`. -/
structure Replica (log : List (Command κ)) (data : KvData) : Prop where
  kvDB : data.kvDB = (KvData.replay (log.map Command.op)).kvDB
  marked : Marks Writing data.marks log

theorem replica_start : Replica ([] : List (Command κ)) KvData.start where
  kvDB := rfl
  marked := marks_nil

/-- The replay itself is such a replica. -/
theorem replica_replay {log : List (Command κ)} (inOrder : InOrder log) :
    Replica log (.replay (log.map Command.op)) where
  kvDB := rfl
  marked := by
    induction inOrder with
    | nil => exact marks_nil
    | @concat log command before positive same earlier ih =>
        have inOrder := before.concat positive same earlier
        rw [List.map_append, List.map_singleton, KvData.replay_concat]
        by_cases writes : command.op.Writes
        · have seen := ih.seen_iff inOrder writes
          rw [clientOf_eq, numberOf_eq, ← KvData.ifRequestDuplicate_iff] at seen
          unfold KvData.applyCommand
          split
          · rename_i duplicate
            refine ih.skip fun _ => ?_
            exact (KvData.ifRequestDuplicate_iff _ _ _).mp duplicate
          · rename_i fresh
            rw [KvData.marks_executeCommand _ writes]
            exact ih.write inOrder fun occurs => fresh (seen.mpr occurs)
        · rw [KvData.applyCommand_of_not_writes _ writes]
          exact ih.skip fun write => absurd write writes

/-- The deduplication of the replay is by occurrence in the log. -/
theorem replay_duplicate_iff {log : List (Command κ)} {command : Command κ}
    (inOrder : InOrder (log ++ [command])) (writes : command.op.Writes) :
    (KvData.replay (log.map Command.op)).ifRequestDuplicate command.op.clientId
        command.op.requestId = true ↔
      Occurs log command.op.clientId command.op.requestId := by
  rw [KvData.ifRequestDuplicate_iff]
  exact (replica_replay inOrder.of_concat).marked.seen_iff inOrder writes

namespace Replica

variable {log : List (Command κ)} {data : KvData} {command : Command κ}

/-- The marks of a replica recognize a repeated Put or Append. -/
theorem duplicate_iff (replica : Replica log data) (inOrder : InOrder (log ++ [command]))
    (writes : command.op.Writes) :
    data.ifRequestDuplicate command.op.clientId command.op.requestId = true ↔
      Occurs log command.op.clientId command.op.requestId := by
  rw [KvData.ifRequestDuplicate_iff]
  exact replica.marked.seen_iff inOrder writes

/-- A repeated command is skipped. -/
theorem skip (replica : Replica log data) (inOrder : InOrder (log ++ [command]))
    (repeated : command.op.Writes → Occurs log command.op.clientId command.op.requestId) :
    Replica (log ++ [command]) data where
  kvDB := by
    rw [List.map_append, List.map_singleton, KvData.replay_concat]
    by_cases writes : command.op.Writes
    · have duplicate := (replay_duplicate_iff inOrder writes).mpr (repeated writes)
      rw [KvData.applyCommand, if_pos duplicate]
      exact replica.kvDB
    · rw [KvData.applyCommand_of_not_writes _ writes]
      exact replica.kvDB
  marked := replica.marked.skip fun writes =>
    (replica.marked.seen_iff inOrder writes).mpr (repeated writes)

/-- A new command is executed. -/
theorem execute (replica : Replica log data) (inOrder : InOrder (log ++ [command]))
    (writes : command.op.Writes) (fresh : ¬ Occurs log command.op.clientId command.op.requestId) :
    Replica (log ++ [command]) (data.executeCommand command.op) where
  kvDB := by
    have distinct := fun duplicate => fresh ((replay_duplicate_iff inOrder writes).mp duplicate)
    rw [List.map_append, List.map_singleton, KvData.replay_concat, KvData.applyCommand,
      if_neg distinct]
    exact KvData.executeCommand_kvDB replica.kvDB command.op
  marked := by
    rw [KvData.marks_executeCommand data writes]
    exact replica.marked.write inOrder fresh

/-- A read of a command that was consumed is executed, without going back. -/
theorem read (replica : Replica log data) {op : Op}
    (occurs : Occurs log op.clientId op.requestId)
    (forward : ∀ last, data.marks op.clientId = some last → last ≤ op.requestId) :
    Replica log (data.executeGetOpOnKVDB op).1 where
  kvDB := replica.kvDB
  marked := by
    rw [KvData.marks_executeGetOpOnKVDB]
    exact replica.marked.read occurs forward

end Replica

end CppRaft.Kv
