import CppRaft.Store.Stream
import Mathlib.Data.List.Induction

/-!
# The Persister

`Persister` keeps the raft state and the service snapshot of one node in two
text files.  Both streams are opened by the constructor in a mode that empties
the files, every write goes to the buffer at the current end of its stream,
`ReadSnapshot` closes and reopens the snapshot stream, and both reads extract
one word from the file.  `ReadRaftState` leaves the stream alone, so it does not
see what the buffer holds back.  The size counter is set by the constructor
only.

The store that the class is meant to be answers every read with the latest
value that was saved.  The final section says exactly when the two agree.
-/

namespace CppRaft.Store

universe u

/-- The two files of node `me`: `raftstatePersist<me>.txt` and
`snapshotPersist<me>.txt`. -/
inductive PersistFile
  | raftState (me : Int)
  | snapshot (me : Int)
deriving DecidableEq

/-- The fields of `Persister` that its member functions use. -/
structure Persister where
  me : Int
  raftStateOutStream : OutStream PersistFile
  snapshotOutStream : OutStream PersistFile
  raftStateSize : Int

/-- A Persister together with the files it works on. -/
structure Disk where
  files : Files PersistFile
  persister : Persister

/-- A call on a Persister, or its destruction followed by the construction of
one with the same id.  The type of the raft state is left open, since a caller
may describe it by the value it serialises. -/
inductive Call (ρ : Type u)
  | save (raftState : ρ) (snapshot : Bytes)
  | saveRaftState (data : ρ)
  | readRaftState
  | readSnapshot
  | raftStateSize
  | restart
deriving DecidableEq

/-- The call with the bytes of its raft state left out; they reach only the
raft state file. -/
def Call.withoutRaftState {ρ : Type u} : Call ρ → Call Bytes
  | .save _ snapshot => .save [] snapshot
  | .saveRaftState _ => .saveRaftState []
  | .readRaftState => .readRaftState
  | .readSnapshot => .readSnapshot
  | .raftStateSize => .raftStateSize
  | .restart => .restart

/-- The result of a call. -/
inductive Answer
  | done
  | bytes (data : Bytes)
  | size (value : Int)
deriving DecidableEq

namespace Disk

/-- `Persister::Persister(me)`. -/
def construct (me : Int) (files : Files PersistFile) : Disk :=
  let (raftFiles, raftStream) := openTruncate files (.raftState me)
  let (allFiles, snapshotStream) := openTruncate raftFiles (.snapshot me)
  { files := allFiles
    persister :=
      { me := me
        raftStateOutStream := raftStream
        snapshotOutStream := snapshotStream
        raftStateSize := 0 } }

/-- `Persister::Save`. -/
def save (buf : FileBuf) (disk : Disk) (raftState snapshot : Bytes) : Disk :=
  let (raftFiles, raftStream) :=
    disk.persister.raftStateOutStream.write buf disk.files raftState
  let (allFiles, snapshotStream) :=
    disk.persister.snapshotOutStream.write buf raftFiles snapshot
  { files := allFiles
    persister :=
      { disk.persister with
        raftStateOutStream := raftStream
        snapshotOutStream := snapshotStream } }

/-- `Persister::SaveRaftState`. -/
def saveRaftState (buf : FileBuf) (disk : Disk) (data : Bytes) : Disk :=
  let (files, stream) := disk.persister.raftStateOutStream.write buf disk.files data
  { files := files
    persister := { disk.persister with raftStateOutStream := stream } }

/-- `Persister::ReadRaftState`: the output stream is neither flushed nor
closed. -/
def readRaftState (disk : Disk) : Bytes :=
  readWord disk.files (.raftState disk.persister.me)

/-- `Persister::ReadSnapshot`: the output stream is closed, one word is read,
and the deferred `open` empties the file before the call returns. -/
def readSnapshot (disk : Disk) : Disk × Bytes :=
  let (closedFiles, _) := disk.persister.snapshotOutStream.close disk.files
  let snapshot := readWord closedFiles (.snapshot disk.persister.me)
  let (files, stream) := openTruncate closedFiles (.snapshot disk.persister.me)
  ({ files := files
     persister := { disk.persister with snapshotOutStream := stream } }, snapshot)

/-- `Persister::RaftStateSize`. -/
def raftStateSize (disk : Disk) : Int :=
  disk.persister.raftStateSize

/-- The files that `Persister::~Persister` leaves: it closes both streams. -/
def destroy (disk : Disk) : Files PersistFile :=
  let (raftFiles, _) := disk.persister.raftStateOutStream.close disk.files
  let (allFiles, _) := disk.persister.snapshotOutStream.close raftFiles
  allFiles

/-- The Persister is destroyed and the constructor runs again. -/
def restart (disk : Disk) : Disk :=
  construct disk.persister.me disk.destroy

/-- Carry out one call. -/
def perform (buf : FileBuf) (disk : Disk) : Call Bytes → Disk × Answer
  | .save raftState snapshot => (disk.save buf raftState snapshot, .done)
  | .saveRaftState data => (disk.saveRaftState buf data, .done)
  | .readRaftState => (disk, .bytes disk.readRaftState)
  | .readSnapshot => (disk.readSnapshot.1, .bytes disk.readSnapshot.2)
  | .raftStateSize => (disk, .size disk.raftStateSize)
  | .restart => (disk.restart, .done)

/-- The disk after a newly constructed Persister has served `history`. -/
def after (buf : FileBuf) (me : Int) (files : Files PersistFile)
    (history : List (Call Bytes)) : Disk :=
  history.foldl (fun disk call => (disk.perform buf call).1) (construct me files)

end Disk

/-! ## The store that the class is meant to be -/

section Latest

variable {ρ : Type u}

/-- The raft state given to the latest `Save` or `SaveRaftState`. -/
def latestRaftState (history : List (Call ρ)) : Option ρ :=
  history.foldl (fun latest call =>
    match call with
    | .save raftState _ | .saveRaftState raftState => some raftState
    | _ => latest) none

/-- The snapshot given to the latest `Save`. -/
def latestSnapshot (history : List (Call ρ)) : Option Bytes :=
  history.foldl (fun latest call =>
    match call with
    | .save _ snapshot => some snapshot
    | _ => latest) none

/-- The raft states written since the files were last emptied. -/
def raftWrites (history : List (Call ρ)) : List ρ :=
  history.foldl (fun writes call =>
    match call with
    | .save raftState _ | .saveRaftState raftState => writes ++ [raftState]
    | .restart => []
    | _ => writes) []

/-- The snapshots written since the snapshot file was last emptied. -/
def snapshotWrites (history : List (Call ρ)) : List Bytes :=
  history.foldl (fun writes call =>
    match call with
    | .save _ snapshot => writes ++ [snapshot]
    | .readSnapshot | .restart => []
    | _ => writes) []

@[simp]
theorem latestRaftState_append_save (history : List (Call ρ)) (raftState : ρ) (snapshot : Bytes) :
    latestRaftState (history ++ [.save raftState snapshot]) = some raftState := by
  simp [latestRaftState]

@[simp]
theorem latestRaftState_append_saveRaftState (history : List (Call ρ)) (data : ρ) :
    latestRaftState (history ++ [.saveRaftState data]) = some data := by
  simp [latestRaftState]

@[simp]
theorem latestRaftState_append_readSnapshot (history : List (Call ρ)) :
    latestRaftState (history ++ [.readSnapshot]) = latestRaftState history := by
  simp [latestRaftState]

/-- A raft state that was written and not wiped since is the latest one if it
was written last. -/
theorem getLast?_raftWrites {history : List (Call ρ)} {raftState : ρ}
    (last : (raftWrites history).getLast? = some raftState) :
    latestRaftState history = some raftState := by
  induction history using List.reverseRecOn with
  | nil => simp [raftWrites] at last
  | append_singleton earlier call ih =>
      cases call <;> simp_all [raftWrites, latestRaftState]

theorem getLast?_snapshotWrites {history : List (Call ρ)} {snapshot : Bytes}
    (last : (snapshotWrites history).getLast? = some snapshot) :
    latestSnapshot history = some snapshot := by
  induction history using List.reverseRecOn with
  | nil => simp [snapshotWrites] at last
  | append_singleton earlier call ih =>
      cases call <;> simp_all [snapshotWrites, latestSnapshot]

end Latest

/-- What a durable store answers to `call` after `history`. -/
def durableAnswer (history : List (Call Bytes)) : Call Bytes → Answer
  | .readRaftState => .bytes ((latestRaftState history).getD [])
  | .readSnapshot => .bytes ((latestSnapshot history).getD [])
  | .raftStateSize => .size ((latestRaftState history).getD []).length
  | _ => .done

/-! ## What the files hold -/

/-- The files and the buffers of node `me` hold what `history` wrote since the
files were last emptied, and both streams stand at the end of their file. -/
structure Holds (buf : FileBuf) (disk : Disk) (me : Int) (history : List (Call Bytes)) :
    Prop where
  me_eq : disk.persister.me = me
  size_eq : disk.persister.raftStateSize = 0
  raftState : AtEnd disk.files disk.persister.raftStateOutStream (.raftState me)
    (buf.settle (raftWrites history))
  snapshot : AtEnd disk.files disk.persister.snapshotOutStream (.snapshot me)
    (buf.settle (snapshotWrites history))

theorem AtEnd.of_files_eq {φ : Type u} {files files' : Files φ} {stream : OutStream φ} {name : φ}
    {content : Bytes × Bytes} (atEnd : AtEnd files stream name content)
    (same : files' name = files name) : AtEnd files' stream name content :=
  ⟨same.trans atEnd.1, atEnd.2⟩

/-- A new Persister starts with two empty files. -/
theorem holds_construct (buf : FileBuf) (me : Int) (files : Files PersistFile) :
    Holds buf (Disk.construct me files) me [] where
  me_eq := rfl
  size_eq := rfl
  raftState :=
    (atEnd_openTruncate files (.raftState me)).of_files_eq
      (openTruncate_other _ (by simp))
  snapshot := atEnd_openTruncate _ _

/-- Every call keeps the description of the files. -/
theorem Holds.perform {buf : FileBuf} {disk : Disk} {me : Int} {history : List (Call Bytes)}
    (holds : Holds buf disk me history) (call : Call Bytes) :
    Holds buf (disk.perform buf call).1 me (history ++ [call]) := by
  obtain ⟨rfl, size_eq, raftState, snapshot⟩ := holds
  have otherFile : PersistFile.snapshot disk.persister.me ≠ .raftState disk.persister.me := by
    simp
  cases call with
  | save newState newSnapshot =>
      have raftWritten := raftState.write buf newState
      have snapshotKept := snapshot.of_files_eq
        (raftState.write_other buf newState otherFile)
      refine ⟨rfl, size_eq, ?_, ?_⟩
      · simpa [raftWrites, Disk.perform, Disk.save] using raftWritten.of_files_eq
          (snapshotKept.write_other buf newSnapshot otherFile.symm)
      · simpa [snapshotWrites, Disk.perform, Disk.save] using snapshotKept.write buf newSnapshot
  | saveRaftState data =>
      refine ⟨rfl, size_eq, ?_, ?_⟩
      · simpa [raftWrites, Disk.perform, Disk.saveRaftState] using raftState.write buf data
      · simpa [snapshotWrites, Disk.perform, Disk.saveRaftState] using snapshot.of_files_eq
          (raftState.write_other buf data otherFile)
  | readRaftState =>
      exact ⟨rfl, size_eq, by simpa [raftWrites, Disk.perform] using raftState,
        by simpa [snapshotWrites, Disk.perform] using snapshot⟩
  | readSnapshot =>
      have raftKept := raftState.of_files_eq (snapshot.close_other otherFile.symm)
      refine ⟨rfl, size_eq, ?_, ?_⟩
      · simpa [raftWrites, Disk.perform, Disk.readSnapshot] using raftKept.of_files_eq
          (openTruncate_other _ otherFile.symm)
      · simpa [snapshotWrites, FileBuf.settle, Disk.perform, Disk.readSnapshot] using
          atEnd_openTruncate (disk.persister.snapshotOutStream.close disk.files).1
            (.snapshot disk.persister.me)
  | raftStateSize =>
      exact ⟨rfl, size_eq, by simpa [raftWrites, Disk.perform] using raftState,
        by simpa [snapshotWrites, Disk.perform] using snapshot⟩
  | restart =>
      have fresh := holds_construct buf disk.persister.me disk.destroy
      refine ⟨rfl, rfl, ?_, ?_⟩
      · simpa [raftWrites, Disk.perform, Disk.restart] using fresh.raftState
      · simpa [snapshotWrites, Disk.perform, Disk.restart] using fresh.snapshot

/-- The files after any sequence of calls. -/
theorem holds_after (buf : FileBuf) (me : Int) (files : Files PersistFile)
    (history : List (Call Bytes)) : Holds buf (Disk.after buf me files history) me history := by
  induction history using List.reverseRecOn with
  | nil => exact holds_construct buf me files
  | append_singleton earlier call ih =>
      simpa [Disk.after] using ih.perform call

/-- `ReadRaftState` sees what has left the buffer. -/
theorem readRaftState_after (buf : FileBuf) (me : Int) (files : Files PersistFile)
    (history : List (Call Bytes)) :
    (Disk.after buf me files history).readRaftState =
      extractWord (buf.settle (raftWrites history)).1 := by
  have holds := holds_after buf me files history
  rw [Disk.readRaftState, holds.me_eq, holds.raftState.readWord]

/-- `ReadSnapshot` closes the stream first, so it sees all that was written. -/
theorem readSnapshot_after (buf : FileBuf) (me : Int) (files : Files PersistFile)
    (history : List (Call Bytes)) :
    (Disk.after buf me files history).readSnapshot.2 =
      extractWord (snapshotWrites history).flatten := by
  have holds := holds_after buf me files history
  simp only [Disk.readSnapshot, readWord, holds.me_eq, holds.snapshot.close]
  rw [Option.getD_some, buf.settle_flatten]

/-- With libstdc++, a raft state that is shorter than the buffer is not read
back at all. -/
theorem readRaftState_eq_nil {me : Int} {files : Files PersistFile}
    {history : List (Call Bytes)} (short : (raftWrites history).flatten.length < 8191) :
    (Disk.after .libstdcxx me files history).readRaftState = [] := by
  rw [readRaftState_after, FileBuf.settle_libstdcxx short]
  rfl

/-! ## When a read returns the latest value -/

/-- A read of a file that received all of `writes` since it was emptied returns
`latest`: nothing was written and `latest` is empty, or `latest` has no white
space and everything written before it is white space, or begins with the very
same word and ends that word. -/
def ReadsBack (writes : List Bytes) (latest : Bytes) : Prop :=
  if writes = [] then latest = []
  else (∀ byte ∈ latest, isSpace byte = false) ∧
    ((∀ byte ∈ writes.dropLast.flatten, isSpace byte = true) ∨
      extractWord writes.dropLast.flatten = latest ∧ WordTerminated writes.dropLast.flatten)

/-- A read of a file that is still open for writing returns `latest`: either
the buffer is empty, or what has left it begins with `latest`. -/
def ReadsThrough (buf : FileBuf) (writes : List Bytes) (latest : Bytes) : Prop :=
  if (buf.settle writes).2 = [] then ReadsBack writes latest
  else FirstWord (buf.settle writes).1 latest

/-- The condition on the earlier calls under which `call` is answered as a
durable store answers it. -/
def AnswersLatest (buf : FileBuf) (history : List (Call Bytes)) : Call Bytes → Prop
  | .readRaftState =>
      ReadsThrough buf (raftWrites history) ((latestRaftState history).getD [])
  | .readSnapshot => ReadsBack (snapshotWrites history) ((latestSnapshot history).getD [])
  | .raftStateSize => (latestRaftState history).getD [] = []
  | _ => True

theorem extractWord_flatten_eq_iff {writes : List Bytes} {latest : Bytes}
    (last : ∀ data, writes.getLast? = some data → data = latest) :
    extractWord writes.flatten = latest ↔ ReadsBack writes latest := by
  by_cases empty : writes = []
  · subst empty
    simp [ReadsBack, extractWord, eq_comm]
  · have split : writes = writes.dropLast ++ [latest] := by
      have final := last _ (List.getLast?_eq_some_getLast empty)
      rw [← final, List.dropLast_concat_getLast]
    rw [ReadsBack, if_neg empty, ← extractWord_append_eq_right_iff]
    conv_lhs => rw [split]
    simp

theorem extractWord_settle_eq_iff {buf : FileBuf} {writes : List Bytes} {latest : Bytes}
    (last : ∀ data, writes.getLast? = some data → data = latest) :
    extractWord (buf.settle writes).1 = latest ↔ ReadsThrough buf writes latest := by
  rw [ReadsThrough]
  split
  next settled =>
    have whole := buf.settle_flatten writes
    rw [settled, List.append_nil] at whole
    rw [whole, extractWord_flatten_eq_iff last]
  next => exact extractWord_eq_iff

/-- Every single call agrees with the durable store exactly under
`AnswersLatest`. -/
theorem perform_eq_durableAnswer_iff (buf : FileBuf) (me : Int) (files : Files PersistFile)
    (history : List (Call Bytes)) (call : Call Bytes) :
    ((Disk.after buf me files history).perform buf call).2 = durableAnswer history call ↔
      AnswersLatest buf history call := by
  cases call with
  | save raftState snapshot => simp [Disk.perform, durableAnswer, AnswersLatest]
  | saveRaftState data => simp [Disk.perform, durableAnswer, AnswersLatest]
  | restart => simp [Disk.perform, durableAnswer, AnswersLatest]
  | readRaftState =>
      simp only [Disk.perform, durableAnswer, AnswersLatest, Answer.bytes.injEq]
      rw [readRaftState_after]
      apply extractWord_settle_eq_iff
      intro data last
      rw [getLast?_raftWrites last, Option.getD_some]
  | readSnapshot =>
      simp only [Disk.perform, durableAnswer, AnswersLatest, Answer.bytes.injEq]
      rw [readSnapshot_after]
      apply extractWord_flatten_eq_iff
      intro data last
      rw [getLast?_snapshotWrites last, Option.getD_some]
  | raftStateSize =>
      simp only [Disk.perform, durableAnswer, AnswersLatest, Answer.size.injEq]
      rw [Disk.raftStateSize, (holds_after buf me files history).size_eq]
      constructor
      · intro same
        exact List.length_eq_zero_iff.mp (by omega)
      · intro empty
        rw [empty]
        rfl

/-- Every call of `calls` is answered as a durable store answers it. -/
def Durable (buf : FileBuf) (me : Int) (files : Files PersistFile) (calls : List (Call Bytes)) :
    Prop :=
  ∀ history call, history ++ [call] <+: calls →
    ((Disk.after buf me files history).perform buf call).2 = durableAnswer history call

/-- Whatever the buffers hold back, the Persister is a durable store on exactly
those sequences of calls in which every read finds the latest value as the first
word of what its file holds by then, and the size is only asked for while the
latest raft state is empty. -/
theorem durable_iff (buf : FileBuf) (me : Int) (files : Files PersistFile)
    (calls : List (Call Bytes)) :
    Durable buf me files calls ↔
      ∀ history call, history ++ [call] <+: calls → AnswersLatest buf history call := by
  constructor
  · intro durable history call served
    exact (perform_eq_durableAnswer_iff buf me files history call).mp
      (durable history call served)
  · intro answers history call served
    exact (perform_eq_durableAnswer_iff buf me files history call).mpr
      (answers history call served)

/-- A restart empties both files, so what was saved before it is gone. -/
theorem not_durable_restart :
    ¬ Durable .libstdcxx 0 (fun _ => none) [.save [97] [98], .restart, .readRaftState] := by
  intro durable
  have answered := durable [.save [97] [98], .restart] .readRaftState (List.prefix_refl _)
  revert answered
  decide

/-- Without the restart the saved value is still in the buffer. -/
example : ¬ AnswersLatest .libstdcxx [.save [97] [98]] .readRaftState := by
  rw [← perform_eq_durableAnswer_iff .libstdcxx 0 fun _ => none]
  decide

end CppRaft.Store
