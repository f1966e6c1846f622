import CppRaft.Kv.ApplyOrder
import CppRaft.Kv.System

/-!
# The messages of a server stay in line

What a message carries does not matter for its place in the channel.  The
messages of a server are therefore read with archives that read every command
as the same Get and every snapshot as empty maps; the invariant of the pipeline
then says where the channel leads, whatever the commands are.
-/

namespace CppRaft.Kv

open CppRaft.RaftCore
open CppRaft.Store
open CppRaft.Transition

variable {n : Nat}

/-! ## Blank commands -/

/-- A Get that changes nothing. -/
def blankOp : Op where
  operation := .get
  key := []
  value := []
  clientId := []
  requestId := 0

/-- The archives that read nothing but blank commands and empty maps. -/
def blankArchives : Archives where
  readOp := fun _ => some blankOp
  readKvData := fun _ => some .start

/-- A log of blank commands. -/
def blankLog (count : Nat) : List Op :=
  List.replicate count blankOp

theorem length_blankLog (count : Nat) : (blankLog count).length = count :=
  List.length_replicate

theorem blankLog_getElem? {count k : Nat} (inside : k < count) :
    (blankLog count)[k]? = some blankOp := by
  rw [blankLog, List.getElem?_replicate, if_pos inside]

theorem blankLog_inside {count k : Nat} {op : Op} (found : (blankLog count)[k]? = some op) :
    k < count := by
  have inside := (List.getElem?_eq_some_iff.mp found).1
  rwa [length_blankLog] at inside

theorem replay_blankLog_take (count k : Nat) :
    KvData.replay ((blankLog count).take k) = .start := by
  rw [blankLog, List.take_replicate]
  induction min k count with
  | zero => rfl
  | succ count ih =>
      rw [List.replicate_succ', KvData.replay_concat, ih]
      exact KvData.applyCommand_of_not_writes _ (fun writes => writes rfl)

theorem isCommand_widen {count count' : Nat} (more : count ≤ count') {message : ApplyMsg}
    (command : IsCommand blankArchives (blankLog count) message) :
    IsCommand blankArchives (blankLog count') message := by
  obtain ⟨op, found, _⟩ := command.carries
  have inside := blankLog_inside found
  exact
    { command with
      carries := ⟨blankOp, blankLog_getElem? (inside.trans_le more), rfl⟩ }

theorem isSnapshot_widen {count count' : Nat} (more : count ≤ count') {message : ApplyMsg}
    (isSnapshot : IsSnapshot blankArchives (blankLog count) message) :
    IsSnapshot blankArchives (blankLog count') message := by
  have bound := isSnapshot.bound
  rw [length_blankLog] at bound
  exact
    { isSnapshot with
      bound := by rw [length_blankLog]; omega
      carries := by rw [replay_blankLog_take]; rfl }

/-- The log of blank commands may be longer. -/
theorem Ordered.widen {count : Nat} {p : Pipeline n} {pos last : Position} {first : Int}
    (inv : Ordered blankArchives (blankLog count) p pos last first) (count' : Nat)
    (more : count ≤ count') :
    Ordered blankArchives (blankLog count') p pos last first :=
  { inv with
    here :=
      { inv.here with
        data := by rw [inv.here.data, replay_blankLog_take, replay_blankLog_take]
        bound := by
          have bound := inv.here.bound
          rw [length_blankLog] at bound ⊢
          omega }
    pushed := fun message member =>
      (inv.pushed message member).imp (isCommand_widen more) (isSnapshot_widen more)
    collected := fun k message found =>
      ⟨isCommand_widen more (inv.collected k message found).1,
        (inv.collected k message found).2⟩
    threads := fun thread member =>
      ⟨isSnapshot_widen more (inv.threads thread member).1, (inv.threads thread member).2⟩ }

/-! ## The invariant -/

/-- The messages of a server, for a service that has installed the snapshot of a
position. -/
def Host.outline (s : Host n) (rf : Raft n) (pos : Position) : Pipeline n where
  rf := rf
  applyMsgs := s.pipeline.applyMsgs
  pushThreads := s.pipeline.pushThreads
  applyChan := s.pipeline.applyChan
  popped := s.pipeline.popped
  server := { KvServer.start 0 with lastSnapShotRaftLogIndex := pos.snapshot }
  readLoop := .reading

/-- The messages that the loop has not popped lead from a position on. -/
def InLine (s : Host n) (rf : Raft n) (pos : Position) : Prop :=
  ∃ count last first,
    Ordered blankArchives (blankLog count) (s.outline rf pos) pos last first

theorem inLine_start (i : Fin n) (maxRaftState : Int) :
    InLine (Host.start i maxRaftState) (Raft.init i none) ⟨0, 0⟩ :=
  ⟨0, _, _, ordered_start i 0⟩

namespace InLine

variable {s s' : Host n} {rf rf' : Raft n} {pos : Position}

/-- A message in the channel has one command that the node has applied, or one
snapshot. -/
theorem pushed (inLine : InLine s rf pos) {message : ApplyMsg}
    (member : message ∈ s.pipeline.applyChan) :
    message.commandValid = true ∧ message.snapshotValid = false ∧
        message.commandIndex ≤ rf.lastApplied ∨
      message.commandValid = false ∧ message.snapshotValid = true := by
  obtain ⟨count, last, first, inv⟩ := inLine
  have highest := inv.highest message member
  have applied := inv.applied
  rcases inv.pushed message member with command | isSnapshot
  · refine Or.inl ⟨command.command, command.noSnapshot, ?_⟩
    rw [messageIndex, if_pos command.command] at highest
    exact highest.trans applied
  · exact Or.inr ⟨isSnapshot.noCommand, isSnapshot.snapshot⟩

/-- Only the messages of the server matter. -/
theorem congr (inLine : InLine s rf pos) (same : ∀ rf pos, s'.outline rf pos = s.outline rf pos) :
    InLine s' rf pos := by
  unfold InLine
  simp only [same]
  exact inLine

/-- The node changes without applying anything. -/
theorem raft (inLine : InLine s rf pos) (same : rf'.lastApplied = rf.lastApplied) :
    InLine s rf' pos := by
  obtain ⟨count, last, first, inv⟩ := inLine
  exact ⟨count, last, first, inv.raft same⟩

/-- `applierTicker` collects commands. -/
theorem collect (inLine : InLine s rf pos) (placed : rf.Placed)
    (empty : s.pipeline.applyMsgs = []) {applyMsgs : List ApplyMsg}
    (given : rf.getApplyLogs = .ok (rf', applyMsgs)) :
    InLine (s.receive applyMsgs none) rf' pos := by
  obtain ⟨count, last, first, inv⟩ := inLine
  have wide := inv.widen (max count (rf.lastSnapshotIncludeIndex + rf.logs.length).toNat)
    (Nat.le_max_left _ _)
  have base := placed.base
  have fromLog : FromLog blankArchives
      (blankLog (max count (rf.lastSnapshotIncludeIndex + rf.logs.length).toNat))
      (s.outline rf pos) .getApplyLogs := by
    refine ⟨?_, trivial⟩
    intro slice inside _
    have inside : slice < rf.logs.length := inside
    have found : (blankLog (max count
        (rf.lastSnapshotIncludeIndex + rf.logs.length).toNat))[
          (rf.lastSnapshotIncludeIndex + slice).toNat]? = some blankOp :=
      blankLog_getElem? (by omega)
    exact ⟨by simp only [Host.outline, found, Option.isSome_some], found.symm⟩
  have collected := wide.collect empty fromLog given
  have same : (s.receive applyMsgs none).outline rf' pos =
      { s.outline rf pos with rf := rf', applyMsgs := applyMsgs } := by
    simp only [Host.outline, Host.receive, empty, List.nil_append, Option.toList_none,
      List.append_nil]
  unfold InLine
  rw [same]
  exact ⟨_, _, _, collected⟩

/-- A thread is started for a snapshot. -/
theorem install (inLine : InLine s rf pos) {args : InstallSnapshotRequest}
    {response : InstallSnapshotResponse}
    (handled : rf.installSnapshot args = .ok (rf', response, some (Raft.snapshotMsg args)))
    (nonempty : args.data ≠ []) (nonneg : 0 ≤ args.lastSnapShotIncludeIndex) :
    InLine (s.receive [] (some (Raft.snapshotMsg args))) rf' pos := by
  obtain ⟨count, last, first, inv⟩ := inLine
  have wide := inv.widen (max count args.lastSnapShotIncludeIndex.toNat) (Nat.le_max_left _ _)
  rcases Raft.installSnapshot_lastApplied handled with ⟨none, _⟩ | ⟨_, _, _, applied⟩
  · cases none
  · have isSnapshot : IsSnapshot blankArchives
        (blankLog (max count args.lastSnapShotIncludeIndex.toNat)) (Raft.snapshotMsg args) :=
      { noCommand := rfl
        snapshot := rfl
        nonneg := nonneg
        bound := by
          rw [length_blankLog]
          change args.lastSnapShotIncludeIndex ≤ _
          omega
        nonempty := nonempty
        carries := by rw [replay_blankLog_take]; rfl }
    have same : (s.receive [] (some (Raft.snapshotMsg args))).outline rf' pos =
        { s.outline rf pos with
          rf := rf'
          pushThreads := (s.outline rf pos).pushThreads ++ [Raft.snapshotMsg args] } := by
      simp only [Host.outline, Host.receive, List.append_nil, Option.toList_some]
    unfold InLine
    rw [same]
    exact ⟨_, _, _, wide.install isSnapshot applied⟩

/-- A collected command or an installed snapshot is pushed. -/
theorem push (inLine : InLine s rf pos) {archives : Archives} {action : PipelineAction n}
    (service : HostAction.OfService (.pipeline action)) (inOrder : PushesInOrder s.pipeline action)
    {p : Pipeline n} (moved : s.pipeline.next archives action = some p) :
    InLine { s with pipeline := p } rf pos := by
  obtain ⟨count, last, first, inv⟩ := inLine
  cases action with
  | applierPush =>
      simp only [Pipeline.next] at moved
      split at moved
      · cases moved
      · rename_i message rest waiting
        cases moved
        obtain ⟨last', pushed⟩ := inv.applierPush waiting inOrder
        exact ⟨count, last', _, pushed⟩
  | pushMsgToKvServer thread =>
      simp only [Pipeline.next] at moved
      split at moved
      · cases moved
      · rename_i message waiting
        cases moved
        obtain ⟨last', pushed⟩ := inv.pushMsgToKvServer waiting inOrder
        exact ⟨count, last', _, pushed⟩
  | raft | installSnapshot | getApplyLogs | readRaftApplyCommand | snapshot => cases service

/-- The loop pops a message, which brings it to the next position. -/
theorem pop (inLine : InLine s rf pos) {message : ApplyMsg}
    (found : s.pipeline.applyChan[s.pipeline.popped]? = some message) :
    ∃ pos', pos.next message = some pos' ∧
      InLine { s with pipeline := { s.pipeline with popped := s.pipeline.popped + 1 } } rf
        pos' := by
  obtain ⟨count, last, first, inv⟩ := inLine
  have inside := (List.getElem?_eq_some_iff.mp found).1
  have queue := inv.queue
  change pos.feed (s.pipeline.applyChan.drop s.pipeline.popped) = some last at queue
  rw [List.drop_eq_getElem_cons inside, (List.getElem?_eq_some_iff.mp found).2] at queue
  obtain ⟨pos', next, later⟩ := Position.feed_cons.mp queue
  have ordered := Position.ordered_next next inv.here.ordered
  have here := inv.here.nonneg
  have bound := inv.here.bound
  rw [length_blankLog] at bound
  have reaches : 0 ≤ pos'.snapshot ∧ pos'.reached ≤ count := by
    rcases inv.pushed message (List.mem_of_getElem? found) with command | isSnapshot
    · obtain ⟨op, carried, _⟩ := command.carries
      have within := blankLog_inside carried
      have positive := command.positive
      simp only [Position.next, command.command, if_true] at next
      split at next
      · cases next
        exact ⟨here, bound⟩
      · split at next
        · cases next
          exact ⟨here, by simp only; omega⟩
        · cases next
    · have within := isSnapshot.bound
      rw [length_blankLog] at within
      simp only [Position.next, isSnapshot.noCommand, Bool.false_eq_true, if_false] at next
      split at next
      · cases next
        exact ⟨isSnapshot.nonneg, within⟩
      · cases next
  refine ⟨pos', next, count, last, first, ?_⟩
  exact
    { inv with
      here :=
        { data := (replay_blankLog_take count _).symm
          lastSnapShot := rfl
          nonneg := reaches.1
          ordered := ordered
          bound := by rw [length_blankLog]; exact reaches.2 }
      popped := inside
      queue := later }

end InLine

end CppRaft.Kv
