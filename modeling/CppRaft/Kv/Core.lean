import CppRaft.RaftCore.Types
import Mathlib.Data.Finmap

/-!
# The key-value service

Class `Op`, the maps of class `KvServer` and the member functions that the
apply loop and the request handlers are made of, each as one critical section
of `m_mtx`.  The Boost text archives are given by what reading a byte string
yields; a byte string that an archive does not read ends the process.
-/

namespace CppRaft.Kv

open CppRaft.RaftCore
open CppRaft.Store

/-- The strings that occur as `Op::Operation`. -/
inductive Operation
  | get
  | put
  | append
deriving DecidableEq, Repr

/-- Class `Op`. -/
structure Op where
  operation : Operation
  key : Bytes
  value : Bytes
  clientId : Bytes
  requestId : Int
deriving DecidableEq, Repr

/-- The bytes of a string of ASCII characters. -/
def text (characters : String) : Bytes :=
  characters.toList.map fun character => UInt8.ofNat character.toNat

/-- An `unordered_map` whose keys are strings. -/
abbrev StringMap (β : Type) : Type :=
  Finmap fun _ : Bytes => β

/-- The two maps that `KvServer::serialize` archives. -/
structure KvData where
  kvDB : StringMap Bytes
  lastRequestId : StringMap Int
deriving DecidableEq

/-- What the text archives read: `Op::parseFromString` and
`KvServer::parseFromString`. -/
structure Archives where
  readOp : Bytes → Option Op
  readKvData : Bytes → Option KvData

namespace KvData

/-- The maps of a new `KvServer`. -/
def start : KvData where
  kvDB := ∅
  lastRequestId := ∅

/-- `KvServer::ExecutePutOpOnKVDB`. -/
def executePutOpOnKVDB (data : KvData) (op : Op) : KvData where
  kvDB := data.kvDB.insert op.key op.value
  lastRequestId := data.lastRequestId.insert op.clientId op.requestId

/-- `KvServer::ExecuteAppendOpOnKVDB`. -/
def executeAppendOpOnKVDB (data : KvData) (op : Op) : KvData where
  kvDB :=
    match data.kvDB.lookup op.key with
    | some value => data.kvDB.insert op.key (value ++ op.value)
    | none => data.kvDB.insert op.key op.value
  lastRequestId := data.lastRequestId.insert op.clientId op.requestId

/-- `KvServer::ExecuteGetOpOnKVDB` with the value of the key, if it exists. -/
def executeGetOpOnKVDB (data : KvData) (op : Op) : KvData × Option Bytes :=
  ({ data with lastRequestId := data.lastRequestId.insert op.clientId op.requestId },
    data.kvDB.lookup op.key)

/-- `KvServer::ifRequestDuplicate`. -/
def ifRequestDuplicate (data : KvData) (clientId : Bytes) (requestId : Int) : Bool :=
  match data.lastRequestId.lookup clientId with
  | none => false
  | some last => decide (requestId ≤ last)

/-- The two branches of `GetCommandFromRaft` for a request that is no duplicate. -/
def executeCommand (data : KvData) (op : Op) : KvData :=
  match op.operation with
  | .put => data.executePutOpOnKVDB op
  | .append => data.executeAppendOpOnKVDB op
  | .get => data

/-- The deduplicated execution of one command. -/
def applyCommand (data : KvData) (op : Op) : KvData :=
  if data.ifRequestDuplicate op.clientId op.requestId then data else data.executeCommand op

/-- The deduplicated execution of a sequence of commands by a new server. -/
def replay (ops : List Op) : KvData :=
  ops.foldl applyCommand start

theorem replay_concat (ops : List Op) (op : Op) :
    replay (ops ++ [op]) = (replay ops).applyCommand op :=
  List.foldl_concat ..

theorem replay_take_succ {ops : List Op} {k : Nat} {op : Op} (found : ops[k]? = some op) :
    replay (ops.take (k + 1)) = (replay (ops.take k)).applyCommand op := by
  rw [List.take_add_one, found, Option.toList_some, replay_concat]

end KvData

/-- Class `KvServer`: the archived maps, the wait channels by raft index, and
every `LockQueue` that was made for one. -/
structure KvServer where
  maxRaftState : Int
  data : KvData
  waitApplyCh : Finmap fun _ : Int => Nat
  lockQueues : List (List Op)
  lastSnapShotRaftLogIndex : Int

namespace KvServer

/-- A `KvServer` whose Persister returns no snapshot. -/
def start (maxRaftState : Int) : KvServer where
  maxRaftState := maxRaftState
  data := .start
  waitApplyCh := ∅
  lockQueues := []
  lastSnapShotRaftLogIndex := 0

/-- The wait channel of `raftIndex`, made if there is none, with the position of
its `LockQueue`. -/
def createWaitCh (kv : KvServer) (raftIndex : Int) : KvServer × Nat :=
  match kv.waitApplyCh.lookup raftIndex with
  | some queue => (kv, queue)
  | none =>
      ({ kv with
          waitApplyCh := kv.waitApplyCh.insert raftIndex kv.lockQueues.length
          lockQueues := kv.lockQueues ++ [[]] },
        kv.lockQueues.length)

@[simp]
theorem createWaitCh_data (kv : KvServer) (raftIndex : Int) :
    (kv.createWaitCh raftIndex).1.data = kv.data := by
  unfold createWaitCh
  split <;> rfl

@[simp]
theorem createWaitCh_lastSnapShotRaftLogIndex (kv : KvServer) (raftIndex : Int) :
    (kv.createWaitCh raftIndex).1.lastSnapShotRaftLogIndex = kv.lastSnapShotRaftLogIndex := by
  unfold createWaitCh
  split <;> rfl

theorem mem_lockQueues_createWaitCh {kv : KvServer} {raftIndex : Int} {queue : List Op}
    (member : queue ∈ (kv.createWaitCh raftIndex).1.lockQueues) :
    queue ∈ kv.lockQueues ∨ queue = [] := by
  unfold createWaitCh at member
  split at member
  · exact Or.inl member
  · rcases List.mem_append.mp member with old | new
    · exact Or.inl old
    · exact Or.inr (List.mem_singleton.mp new)

/-- The last critical section of `Get` and `PutAppend`. -/
def eraseWaitCh (kv : KvServer) (raftIndex : Int) : KvServer :=
  { kv with waitApplyCh := kv.waitApplyCh.erase raftIndex }

/-- `KvServer::SendMessageToWaitChan`. -/
def sendMessageToWaitChan (kv : KvServer) (op : Op) (raftIndex : Int) : KvServer :=
  match kv.waitApplyCh.lookup raftIndex with
  | none => kv
  | some queue => { kv with lockQueues := kv.lockQueues.modify queue (· ++ [op]) }

@[simp]
theorem sendMessageToWaitChan_data (kv : KvServer) (op : Op) (raftIndex : Int) :
    (kv.sendMessageToWaitChan op raftIndex).data = kv.data := by
  unfold sendMessageToWaitChan
  split <;> rfl

@[simp]
theorem sendMessageToWaitChan_lastSnapShotRaftLogIndex (kv : KvServer) (op : Op)
    (raftIndex : Int) :
    (kv.sendMessageToWaitChan op raftIndex).lastSnapShotRaftLogIndex =
      kv.lastSnapShotRaftLogIndex := by
  unfold sendMessageToWaitChan
  split <;> rfl

theorem mem_lockQueues_sendMessageToWaitChan {kv : KvServer} {op : Op} {raftIndex : Int}
    {queue : List Op} (member : queue ∈ (kv.sendMessageToWaitChan op raftIndex).lockQueues) :
    queue ∈ kv.lockQueues ∨ ∃ old ∈ kv.lockQueues, queue = old ++ [op] := by
  unfold sendMessageToWaitChan at member
  split at member
  · exact Or.inl member
  · obtain ⟨k, found⟩ := List.mem_iff_getElem?.mp member
    rw [List.getElem?_modify, Option.map_eq_map, Option.map_eq_some_iff] at found
    obtain ⟨old, oldFound, changed⟩ := found
    have oldMember := List.mem_of_getElem? oldFound
    split at changed
    · exact Or.inr ⟨old, oldMember, changed.symm⟩
    · exact Or.inl (changed ▸ oldMember)

/-- `Raft::CondInstallSnapshot`. -/
def condInstallSnapshot (_lastIncludedTerm _lastIncludedIndex : Int) (_snapshot : Bytes) : Bool :=
  true

/-- `KvServer::ReadSnapShotToInstall`; `none` when the archive does not read
the snapshot. -/
def readSnapShotToInstall (kv : KvServer) (archives : Archives) (snapshot : Bytes) :
    Option KvServer :=
  if snapshot = [] then some kv
  else (archives.readKvData snapshot).map fun data => { kv with data := data }

/-- `KvServer::GetSnapShotFromRaft`. -/
def getSnapShotFromRaft (kv : KvServer) (archives : Archives) (message : ApplyMsg) :
    Option KvServer :=
  if condInstallSnapshot message.snapshotTerm message.snapshotIndex message.snapshot then
    (kv.readSnapShotToInstall archives message.snapshot).map fun kv =>
      { kv with lastSnapShotRaftLogIndex := message.snapshotIndex }
  else some kv

/-- What `KvServer::MakeSnapShot` may return: a nonempty archive that reads back
as the two maps. -/
def MakeSnapShot (kv : KvServer) (archives : Archives) (snapshot : Bytes) : Prop :=
  snapshot ≠ [] ∧ archives.readKvData snapshot = some kv.data

instance (kv : KvServer) (archives : Archives) (snapshot : Bytes) :
    Decidable (kv.MakeSnapShot archives snapshot) := by
  unfold MakeSnapShot
  infer_instance

/-- The test of `KvServer::IfNeedToSendSnapShotCommand`, made when
`m_maxRaftState` is not -1. -/
def NeedsSnapShot (kv : KvServer) (raftStateSize : Int) : Prop :=
  kv.maxRaftState ≠ -1 ∧ 10 * raftStateSize > kv.maxRaftState

instance (kv : KvServer) (raftStateSize : Int) : Decidable (kv.NeedsSnapShot raftStateSize) := by
  unfold NeedsSnapShot
  infer_instance

end KvServer

end CppRaft.Kv
