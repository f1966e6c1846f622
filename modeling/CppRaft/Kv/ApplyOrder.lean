import CppRaft.Kv.Pipeline
import CppRaft.RaftCore.Applied
import Mathlib.Data.List.Forall2

/-!
# The service follows the committed log

The consumer of the channel is described by a position: how much of the log it
has replayed, and the index of the last snapshot that it has installed.  Every
message moves the position, and the messages in the channel lead to the highest
index pushed so far.  The invariant relates that index to what the node has
applied: where they differ, a collected command or a pending snapshot closes
the gap.
-/

namespace CppRaft.Kv

open CppRaft.RaftCore
open CppRaft.Store
open CppRaft.Transition

variable {n : Nat} {archives : Archives} {log : List Op}

/-! ## Positions in the log -/

/-- How far the service has come. -/
structure Position where
  reached : Int
  snapshot : Int

/-- Where a message brings the service; `none` if it would skip or undo a
command. -/
def Position.next (pos : Position) (message : ApplyMsg) : Option Position :=
  if message.commandValid then
    if message.commandIndex ≤ pos.snapshot then some pos
    else if message.commandIndex = pos.reached + 1 then
      some { pos with reached := message.commandIndex }
    else none
  else if pos.reached ≤ message.snapshotIndex then
    some ⟨message.snapshotIndex, message.snapshotIndex⟩
  else none

/-- Where a sequence of messages brings the service. -/
def Position.feed (pos : Position) (messages : List ApplyMsg) : Option Position :=
  messages.foldlM Position.next pos

theorem Position.feed_cons {pos last : Position} {message : ApplyMsg} {rest : List ApplyMsg} :
    pos.feed (message :: rest) = some last ↔
      ∃ middle, pos.next message = some middle ∧ middle.feed rest = some last := by
  unfold Position.feed
  rw [List.foldlM_cons]
  exact Option.bind_eq_some_iff

theorem Position.feed_concat {pos last last' : Position} {messages : List ApplyMsg}
    {message : ApplyMsg} (fed : pos.feed messages = some last)
    (next : last.next message = some last') : pos.feed (messages ++ [message]) = some last' := by
  unfold Position.feed at fed ⊢
  rw [List.foldlM_append, fed]
  simpa using next

theorem Position.reached_next {pos pos' : Position} {message : ApplyMsg}
    (next : pos.next message = some pos') : pos.reached ≤ pos'.reached := by
  unfold Position.next at next
  split at next
  · split at next
    · cases next
      exact le_rfl
    · split at next
      · rename_i following
        cases next
        simp only [following]
        omega
      · cases next
  · split at next
    · cases next
      assumption
    · cases next

theorem Position.reached_feed {pos last : Position} {messages : List ApplyMsg}
    (fed : pos.feed messages = some last) : pos.reached ≤ last.reached := by
  induction messages generalizing pos with
  | nil =>
      cases fed
      exact le_rfl
  | cons message rest ih =>
      obtain ⟨middle, next, later⟩ := Position.feed_cons.mp fed
      exact (Position.reached_next next).trans (ih later)

theorem Position.ordered_next {pos pos' : Position} {message : ApplyMsg}
    (next : pos.next message = some pos') (ordered : pos.snapshot ≤ pos.reached) :
    pos'.snapshot ≤ pos'.reached := by
  unfold Position.next at next
  split at next
  · split at next
    · cases next
      exact ordered
    · split at next
      · cases next
        simp only
        omega
      · cases next
  · split at next
    · cases next
      exact le_rfl
    · cases next

theorem Position.ordered_feed {pos last : Position} {messages : List ApplyMsg}
    (fed : pos.feed messages = some last) (ordered : pos.snapshot ≤ pos.reached) :
    last.snapshot ≤ last.reached := by
  induction messages generalizing pos with
  | nil =>
      cases fed
      exact ordered
  | cons message rest ih =>
      obtain ⟨middle, next, later⟩ := Position.feed_cons.mp fed
      exact ih later (Position.ordered_next next ordered)

/-! ## Messages and the state of the service -/

/-- The message carries a command of the log. -/
structure IsCommand (archives : Archives) (log : List Op) (message : ApplyMsg) : Prop where
  command : message.commandValid = true
  noSnapshot : message.snapshotValid = false
  positive : 1 ≤ message.commandIndex
  carries : ∃ op, log[message.commandIndex.toNat - 1]? = some op ∧
    archives.readOp message.command = some op

/-- The message carries the state after a prefix of the log. -/
structure IsSnapshot (archives : Archives) (log : List Op) (message : ApplyMsg) : Prop where
  noCommand : message.commandValid = false
  snapshot : message.snapshotValid = true
  nonneg : 0 ≤ message.snapshotIndex
  bound : message.snapshotIndex ≤ log.length
  nonempty : message.snapshot ≠ []
  carries : archives.readKvData message.snapshot =
    some (.replay (log.take message.snapshotIndex.toNat))

/-- The service has replayed the log up to its position. -/
structure At (log : List Op) (server : KvServer) (pos : Position) : Prop where
  data : server.data = .replay (log.take pos.reached.toNat)
  lastSnapShot : server.lastSnapShotRaftLogIndex = pos.snapshot
  nonneg : 0 ≤ pos.snapshot
  ordered : pos.snapshot ≤ pos.reached
  bound : pos.reached ≤ log.length

theorem At.congr {server server' : KvServer} {pos : Position} (here : At log server pos)
    (data : server'.data = server.data)
    (lastSnapShot : server'.lastSnapShotRaftLogIndex = server.lastSnapShotRaftLogIndex) :
    At log server' pos :=
  { here with
    data := data.trans here.data
    lastSnapShot := lastSnapShot.trans here.lastSnapShot }

namespace Pipeline

/-- `GetCommandFromRaft` skips a command that a snapshot covers and executes
any other one, and changes nothing but the service and its loop. -/
theorem getCommandFromRaft_cases {s s' : Pipeline n} {message : ApplyMsg} {snapshot : Bytes}
    {op : Op} (read : archives.readOp message.command = some op)
    (handled : s.getCommandFromRaft archives message snapshot = some s') :
    message.commandIndex ≤ s.server.lastSnapShotRaftLogIndex ∧ s' = s ∨
    s.server.lastSnapShotRaftLogIndex < message.commandIndex ∧
      ∃ server readLoop, s' = { s with server := server, readLoop := readLoop } ∧
        server.data = s.server.data.applyCommand op ∧
        server.lastSnapShotRaftLogIndex = s.server.lastSnapShotRaftLogIndex ∧
        (readLoop = s.readLoop ∨
          readLoop = .snapshotting op message.commandIndex snapshot) := by
  unfold getCommandFromRaft at handled
  rw [read] at handled
  dsimp only at handled
  split at handled
  · cases handled
    exact Or.inl ⟨by assumption, rfl⟩
  · refine Or.inr ⟨by omega, ?_⟩
    split at handled
    · split at handled
      · cases handled
        exact ⟨_, _, rfl, rfl, rfl, Or.inr rfl⟩
      · cases handled
    · cases handled
      exact ⟨_, _, rfl, by simp, by simp, Or.inl rfl⟩

/-- One turn of the loop for a command. -/
theorem readMessage_command {s s' : Pipeline n} {message : ApplyMsg} {snapshot : Bytes}
    {pos pos' : Position} (handled : s.readMessage archives message snapshot = some s')
    (here : At log s.server pos) (command : IsCommand archives log message)
    (next : pos.next message = some pos') :
    ∃ server readLoop, s' = { s with server := server, readLoop := readLoop } ∧
      At log server pos' ∧
      (readLoop = s.readLoop ∨
        ∃ op, readLoop = .snapshotting op message.commandIndex snapshot) := by
  obtain ⟨op, found, read⟩ := command.carries
  have positive := command.positive
  have nonneg := here.nonneg
  have ordered := here.ordered
  simp only [readMessage, command.command, command.noSnapshot, if_true, Bool.false_eq_true,
    if_false] at handled
  simp only [Position.next, command.command, if_true] at next
  obtain ⟨_, handled, same⟩ := Option.bind_eq_some_iff.mp handled
  cases same
  rcases getCommandFromRaft_cases read handled with
    ⟨covered, rfl⟩ | ⟨uncovered, server, readLoop, rfl, data, lastSnapShot, loop⟩
  · rw [here.lastSnapShot] at covered
    rw [if_pos covered] at next
    cases next
    exact ⟨_, _, rfl, here, Or.inl rfl⟩
  · rw [here.lastSnapShot] at uncovered
    rw [if_neg (by omega)] at next
    split at next
    · rename_i following
      cases next
      refine ⟨server, readLoop, rfl, ?_, ?_⟩
      · have inside := (List.getElem?_eq_some_iff.mp found).1
        have place : message.commandIndex.toNat = pos.reached.toNat + 1 := by omega
        have here' : message.commandIndex.toNat - 1 = pos.reached.toNat := by omega
        rw [here'] at found
        exact
          { data := by rw [data, here.data, place, KvData.replay_take_succ found]
            lastSnapShot := lastSnapShot.trans here.lastSnapShot
            nonneg := nonneg
            ordered := by simp only; omega
            bound := by simp only; omega }
      · rcases loop with same | snapshotting
        · exact Or.inl same
        · exact Or.inr ⟨op, snapshotting⟩
    · cases next

/-- One turn of the loop for a snapshot. -/
theorem readMessage_snapshot {s s' : Pipeline n} {message : ApplyMsg} {snapshot : Bytes}
    {pos pos' : Position} (handled : s.readMessage archives message snapshot = some s')
    (isSnapshot : IsSnapshot archives log message) (next : pos.next message = some pos') :
    ∃ server, s' = { s with server := server } ∧ At log server pos' := by
  simp only [readMessage, isSnapshot.noCommand, isSnapshot.snapshot, if_true, Bool.false_eq_true,
    if_false, KvServer.getSnapShotFromRaft, KvServer.condInstallSnapshot,
    KvServer.readSnapShotToInstall, isSnapshot.nonempty, isSnapshot.carries] at handled
  simp only [Position.next, isSnapshot.noCommand, Bool.false_eq_true, if_false] at next
  split at next
  · cases next
    cases handled
    exact ⟨_, rfl,
      { data := rfl
        lastSnapShot := rfl
        nonneg := isSnapshot.nonneg
        ordered := le_rfl
        bound := isSnapshot.bound }⟩
  · cases next

end Pipeline

/-! ## The invariant -/

/-- Something pushed has reached `index`, or a pending snapshot will. -/
def Reached (s : Pipeline n) (last : Position) (index : Int) : Prop :=
  index ≤ last.reached ∨ ∃ thread ∈ s.pushThreads, thread.snapshotIndex = index

/-- The service is at `pos`, the channel leads it to `last`, and the collected
commands follow the index `first`. -/
structure Ordered (archives : Archives) (log : List Op) (s : Pipeline n) (pos last : Position)
    (first : Int) : Prop where
  here : At log s.server pos
  popped : s.popped ≤ s.applyChan.length
  queue : pos.feed (s.applyChan.drop s.popped) = some last
  pushed : ∀ message ∈ s.applyChan,
    IsCommand archives log message ∨ IsSnapshot archives log message
  collected : ∀ (k : Nat) (message : ApplyMsg), s.applyMsgs[k]? = some message →
    IsCommand archives log message ∧ message.commandIndex = first + k + 1
  threads : ∀ thread ∈ s.pushThreads,
    IsSnapshot archives log thread ∧ thread.snapshotIndex ≤ s.rf.lastApplied
  highest : ∀ message ∈ s.applyChan, messageIndex message ≤ last.reached
  attained : last.reached = 0 ∨ ∃ message ∈ s.applyChan, messageIndex message = last.reached
  top : first < last.reached → last.reached ≤ last.snapshot
  covered : Reached s last first
  collectedEnd : first + s.applyMsgs.length ≤ s.rf.lastApplied
  gap : first + s.applyMsgs.length = s.rf.lastApplied ∨ Reached s last s.rf.lastApplied
  applied : last.reached ≤ s.rf.lastApplied
  snapshotting : ∀ op index snapshot, s.readLoop = .snapshotting op index snapshot →
    index ≤ s.rf.lastApplied

theorem ordered_start (me : Fin n) (maxRaftState : Int) :
    Ordered archives log (Pipeline.start me maxRaftState) ⟨0, 0⟩ ⟨0, 0⟩ 0 where
  here :=
    { data := rfl
      lastSnapShot := rfl
      nonneg := le_rfl
      ordered := le_rfl
      bound := by simp }
  popped := le_rfl
  queue := rfl
  pushed := by simp [Pipeline.start]
  collected := by simp [Pipeline.start]
  threads := by simp [Pipeline.start]
  highest := by simp [Pipeline.start]
  attained := Or.inl rfl
  top := fun later => absurd later (lt_irrefl _)
  covered := Or.inl le_rfl
  collectedEnd := by simp [Pipeline.start, Raft.init, Raft.readPersist]
  gap := Or.inl (by simp [Pipeline.start, Raft.init, Raft.readPersist])
  applied := by simp [Pipeline.start, Raft.init, Raft.readPersist]
  snapshotting := by simp [Pipeline.start]

namespace Ordered

variable {s s' : Pipeline n} {pos last : Position} {first : Int}

theorem reached_nonneg (inv : Ordered archives log s pos last first) : 0 ≤ last.reached :=
  (inv.here.nonneg.trans inv.here.ordered).trans (Position.reached_feed inv.queue)

/-- A quiet service has reached what the node has applied. -/
theorem quiet (inv : Ordered archives log s pos last first) (quiet : s.observe.quiet = true) :
    pos.reached = s.rf.lastApplied := by
  simp only [Pipeline.observe, decide_eq_true_eq] at quiet
  obtain ⟨noMsgs, noThreads, drained⟩ := quiet
  have queue := inv.queue
  have applied := inv.applied
  rw [drained, List.drop_length] at queue
  cases queue
  have reached : Reached s pos s.rf.lastApplied := by
    rcases inv.gap with atEnd | reached
    · rw [noMsgs, List.length_nil, Int.natCast_zero, Int.add_zero] at atEnd
      rw [← atEnd]
      exact inv.covered
    · exact reached
  rcases reached with below | ⟨thread, pending, _⟩
  · omega
  · rw [noThreads] at pending
    cases pending

/-- The node changes without applying anything. -/
theorem raft (inv : Ordered archives log s pos last first) {rf : Raft n}
    (same : rf.lastApplied = s.rf.lastApplied) :
    Ordered archives log { s with rf := rf } pos last first :=
  { inv with
    threads := by
      rw [same]
      exact inv.threads
    collectedEnd := by
      rw [same]
      exact inv.collectedEnd
    gap := by
      rw [same]
      exact inv.gap
    applied := by
      rw [same]
      exact inv.applied
    snapshotting := by
      rw [same]
      exact inv.snapshotting }

/-- A new snapshot is installed in the node. -/
theorem install (inv : Ordered archives log s pos last first) {rf : Raft n} {thread : ApplyMsg}
    (isSnapshot : IsSnapshot archives log thread)
    (applied : rf.lastApplied = max s.rf.lastApplied thread.snapshotIndex) :
    Ordered archives log { s with rf := rf, pushThreads := s.pushThreads ++ [thread] }
      pos last first := by
  have later : s.rf.lastApplied ≤ rf.lastApplied := applied ▸ le_max_left _ _
  have reach : ∀ {index}, Reached s last index →
      Reached { s with rf := rf, pushThreads := s.pushThreads ++ [thread] } last index := by
    rintro index (below | ⟨old, pending, same⟩)
    · exact Or.inl below
    · exact Or.inr ⟨old, List.mem_append_left _ pending, same⟩
  exact
    { inv with
      threads := by
        intro pending member
        rcases List.mem_append.mp member with old | new
        · exact ⟨(inv.threads pending old).1, (inv.threads pending old).2.trans later⟩
        · rw [List.mem_singleton.mp new]
          exact ⟨isSnapshot, applied ▸ le_max_right _ _⟩
      covered := reach inv.covered
      collectedEnd := inv.collectedEnd.trans later
      gap := by
        rcases le_total thread.snapshotIndex s.rf.lastApplied with older | newer
        · rw [max_eq_left older] at applied
          simp only [applied]
          exact inv.gap.imp id reach
        · rw [max_eq_right newer] at applied
          exact Or.inr (Or.inr ⟨thread, by simp, applied.symm⟩)
      applied := inv.applied.trans later
      snapshotting := fun op index snapshot waiting =>
        (inv.snapshotting op index snapshot waiting).trans later }

/-- `applierTicker` collects the entries behind what the node has applied. -/
theorem collect (inv : Ordered archives log s pos last first) {rf : Raft n}
    {applyMsgs : List ApplyMsg} (empty : s.applyMsgs = [])
    (fromLog : FromLog archives log s .getApplyLogs)
    (emitted : s.rf.getApplyLogs = .ok (rf, applyMsgs)) :
    Ordered archives log { s with rf := rf, applyMsgs := applyMsgs } pos last
      s.rf.lastApplied := by
  obtain ⟨applied, emitted⟩ := Raft.getApplyLogs_emits emitted
  have nonneg := inv.reached_nonneg
  have bound := inv.applied
  have later : s.rf.lastApplied ≤ rf.lastApplied := by omega
  have covered : Reached s last s.rf.lastApplied := by
    rcases inv.gap with atEnd | reached
    · rw [empty, List.length_nil, Int.natCast_zero, Int.add_zero] at atEnd
      rw [← atEnd]
      exact inv.covered
    · exact reached
  exact
    { inv with
      collected := by
        intro k message present
        obtain ⟨committed, entry, found, same⟩ := emitted k message present
        obtain ⟨above, read⟩ := Raft.logAtIndex_slice found
        obtain ⟨inside, read⟩ := List.getElem?_eq_some_iff.mp read
        obtain ⟨isSome, carries⟩ := fromLog.1 _ inside (by omega)
        obtain ⟨op, op_eq⟩ := Option.isSome_iff_exists.mp isSome
        have place : s.rf.lastSnapshotIncludeIndex +
            ((s.rf.lastApplied + k + 1 - s.rf.lastSnapshotIncludeIndex - 1).toNat : Int) =
            s.rf.lastApplied + k := by omega
        rw [read, place] at carries
        rw [place] at op_eq
        rw [same]
        have index : (s.rf.lastApplied + k + 1).toNat - 1 = (s.rf.lastApplied + k).toNat := by
          omega
        refine ⟨⟨rfl, rfl, by simp only; omega, op, ?_, ?_⟩, rfl⟩
        · simp only [index]
          exact op_eq
        · simp only [carries]
          exact op_eq
      threads := fun thread pending =>
        ⟨(inv.threads thread pending).1, (inv.threads thread pending).2.trans later⟩
      top := fun above => absurd above (by omega)
      covered := covered
      collectedEnd := applied.ge
      gap := Or.inl applied.symm
      applied := bound.trans later
      snapshotting := fun op index snapshot waiting =>
        (inv.snapshotting op index snapshot waiting).trans later }

/-- A message is pushed: the channel leads to where it brings the service. -/
theorem append (inv : Ordered archives log s pos last first) {message : ApplyMsg}
    {last' : Position} (carries : IsCommand archives log message ∨ IsSnapshot archives log message)
    (next : last.next message = some last') (reaches : messageIndex message ≤ last'.reached)
    (raised : last'.reached = last.reached ∨ messageIndex message = last'.reached) :
    let s' := { s with applyChan := s.applyChan ++ [message] }
    s'.popped ≤ s'.applyChan.length ∧
      pos.feed (s'.applyChan.drop s'.popped) = some last' ∧
      (∀ pushed ∈ s'.applyChan, IsCommand archives log pushed ∨ IsSnapshot archives log pushed) ∧
      (∀ pushed ∈ s'.applyChan, messageIndex pushed ≤ last'.reached) ∧
      (last'.reached = 0 ∨ ∃ pushed ∈ s'.applyChan, messageIndex pushed = last'.reached) := by
  have popped := inv.popped
  refine ⟨?_, ?_, ?_, ?_, ?_⟩
  · rw [List.length_append, List.length_singleton]
    exact Nat.le_add_right_of_le popped
  · rw [List.drop_append_of_le_length popped]
    exact Position.feed_concat inv.queue next
  · intro pushed member
    rcases List.mem_append.mp member with old | new
    · exact inv.pushed pushed old
    · rw [List.mem_singleton.mp new]
      exact carries
  · intro pushed member
    rcases List.mem_append.mp member with old | new
    · exact (inv.highest pushed old).trans (Position.reached_next next)
    · rw [List.mem_singleton.mp new]
      exact reaches
  · rcases raised with same | new
    · rw [same]
      apply inv.attained.imp id
      rintro ⟨pushed, old, index⟩
      exact ⟨pushed, List.mem_append_left _ old, index⟩
    · exact Or.inr ⟨message, by simp, new⟩

/-- Where the next collected command brings the service. -/
theorem next_collected (inv : Ordered archives log s pos last first) {message : ApplyMsg}
    {rest : List ApplyMsg} (collected : s.applyMsgs = message :: rest)
    (command : IsCommand archives log message) (place : message.commandIndex = first + 1)
    (inOrder : PushesInOrder s .applierPush) :
    ∃ last', last.next message = some last' ∧ first + 1 ≤ last'.reached ∧
      (first + 1 < last'.reached → last'.reached ≤ last'.snapshot) ∧
      (last'.reached = last.reached ∨ first + 1 = last'.reached) := by
  have top := inv.top
  have ordered := Position.ordered_feed inv.queue inv.here.ordered
  by_cases skipped : message.commandIndex ≤ last.snapshot
  · -- A snapshot that was pushed before covers the command.
    refine ⟨last, by simp [Position.next, command.command, skipped], by omega, ?_, Or.inl rfl⟩
    intro above
    exact top (by omega)
  · -- Everything before the command has been pushed.
    have below : last.reached ≤ first := by
      by_contra above
      have := top (by omega)
      omega
    have atFirst : last.reached = first := by
      rcases inv.covered with reached | ⟨thread, pending, same⟩
      · omega
      · have isSnapshot := (inv.threads thread pending).1
        have index : messageIndex message = message.commandIndex := if_pos command.command
        have threadIndex : messageIndex thread = thread.snapshotIndex := by
          simp [messageIndex, isSnapshot.noCommand]
        obtain ⟨pushed, member, above⟩ := inOrder message (by rw [collected]; rfl) thread pending
          (by omega)
        have := inv.highest pushed member
        omega
    refine ⟨{ last with reached := message.commandIndex }, ?_, place.ge, ?_, Or.inr place.symm⟩
    · rw [Position.next, if_pos command.command, if_neg skipped, if_pos (by omega)]
    · intro above
      simp only [place] at above
      omega

/-- The next collected command is pushed. -/
theorem applierPush (inv : Ordered archives log s pos last first) {message : ApplyMsg}
    {rest : List ApplyMsg} (collected : s.applyMsgs = message :: rest)
    (inOrder : PushesInOrder s .applierPush) :
    ∃ last', Ordered archives log
      { s with applyMsgs := rest, applyChan := s.applyChan ++ [message] } pos last'
      (first + 1) := by
  obtain ⟨command, place⟩ := inv.collected 0 message (by rw [collected]; rfl)
  rw [Int.natCast_zero, Int.add_zero] at place
  have index : messageIndex message = message.commandIndex := if_pos command.command
  have collectedEnd := inv.collectedEnd
  have gap := inv.gap
  rw [collected, List.length_cons] at collectedEnd gap
  push_cast at collectedEnd gap
  obtain ⟨last', next, covered, top, raised⟩ :=
    inv.next_collected collected command place inOrder
  obtain ⟨popped, queue, pushed, highest, attained⟩ :=
    inv.append (Or.inl command) next (by omega) (by omega)
  have applied := inv.applied
  have later := Position.reached_next next
  exact ⟨last',
    { inv with
      popped := popped
      queue := queue
      pushed := pushed
      highest := highest
      attained := attained
      collected := by
        intro k other present
        obtain ⟨isCommand, position⟩ :=
          inv.collected (k + 1) other (by rw [collected]; exact present)
        refine ⟨isCommand, ?_⟩
        rw [position]
        push_cast
        omega
      top := top
      covered := Or.inl covered
      collectedEnd := by simp only; omega
      gap := by
        rcases gap with atEnd | below | pending
        · exact Or.inl (by simp only; omega)
        · exact Or.inr (Or.inl (below.trans later))
        · exact Or.inr (Or.inr pending)
      applied := by simp only; omega }⟩

/-- A `pushMsgToKvServer` thread runs. -/
theorem pushMsgToKvServer (inv : Ordered archives log s pos last first) {thread : Nat}
    {message : ApplyMsg} (pending : s.pushThreads[thread]? = some message)
    (inOrder : PushesInOrder s (.pushMsgToKvServer thread)) :
    ∃ last', Ordered archives log
      { s with
        pushThreads := s.pushThreads.eraseIdx thread
        applyChan := s.applyChan ++ [message] } pos last' first := by
  have member := List.mem_of_getElem? pending
  obtain ⟨isSnapshot, bound⟩ := inv.threads message member
  have index : messageIndex message = message.snapshotIndex := by
    simp [messageIndex, isSnapshot.noCommand]
  have newest : last.reached ≤ message.snapshotIndex := by
    rcases inv.attained with none | ⟨pushed, pushedBefore, attained⟩
    · rw [none]
      exact isSnapshot.nonneg
    · rw [← attained, ← index]
      exact inOrder message pending pushed pushedBefore
  have next : last.next message = some ⟨message.snapshotIndex, message.snapshotIndex⟩ := by
    simp [Position.next, isSnapshot.noCommand, newest]
  obtain ⟨popped, queue, pushed, highest, attained⟩ :=
    inv.append (Or.inr isSnapshot) next index.le (Or.inr index)
  have reach : ∀ {i}, Reached s last i →
      Reached { s with
        pushThreads := s.pushThreads.eraseIdx thread
        applyChan := s.applyChan ++ [message] }
        ⟨message.snapshotIndex, message.snapshotIndex⟩ i := by
    rintro i (below | ⟨other, waiting, same⟩)
    · exact Or.inl (below.trans newest)
    · obtain ⟨place, found⟩ := List.getElem?_of_mem waiting
      by_cases own : place = thread
      · subst own
        rw [pending, Option.some.injEq] at found
        exact Or.inl (found ▸ same.ge)
      · exact Or.inr ⟨other, List.mem_eraseIdx_iff_getElem?.mpr ⟨place, own, found⟩, same⟩
  exact ⟨_,
    { inv with
      popped := popped
      queue := queue
      pushed := pushed
      highest := highest
      attained := attained
      threads := fun other waiting => inv.threads other (List.mem_of_mem_eraseIdx waiting)
      top := fun _ => le_rfl
      covered := reach inv.covered
      gap := inv.gap.imp id reach
      applied := bound }⟩

/-- One turn of `ReadRaftApplyCommandLoop`. -/
theorem readRaftApplyCommand (inv : Ordered archives log s pos last first) {message : ApplyMsg}
    {snapshot : Bytes} (waiting : s.applyChan[s.popped]? = some message)
    (handled : { s with popped := s.popped + 1 }.readMessage archives message snapshot = some s') :
    ∃ pos', pos.reached ≤ pos'.reached ∧ Ordered archives log s' pos' last first := by
  have inside := (List.getElem?_eq_some_iff.mp waiting).1
  have queue := inv.queue
  rw [List.drop_eq_getElem_cons inside, (List.getElem?_eq_some_iff.mp waiting).2] at queue
  obtain ⟨pos', next, later⟩ := Position.feed_cons.mp queue
  have member := List.mem_of_getElem? waiting
  have highest := inv.highest message member
  have applied := inv.applied
  refine ⟨pos', Position.reached_next next, ?_⟩
  rcases inv.pushed message member with command | isSnapshot
  · obtain ⟨server, readLoop, rfl, here, loop⟩ :=
      Pipeline.readMessage_command handled inv.here command next
    have index : messageIndex message = message.commandIndex := if_pos command.command
    exact
      { inv with
        here := here
        popped := inside
        queue := later
        snapshotting := by
          intro op index' snapshot' waits
          rcases loop with same | ⟨op', snapshotting⟩
          · exact inv.snapshotting op index' snapshot' (same ▸ waits)
          · rw [snapshotting] at waits
            cases waits
            exact (index ▸ highest).trans applied }
  · obtain ⟨server, rfl, here⟩ := Pipeline.readMessage_snapshot handled isSnapshot next
    exact { inv with here := here, popped := inside, queue := later }

/-- The loop returns from `Raft::Snapshot`. -/
theorem snapshot (inv : Ordered archives log s pos last first) {op : Op} {index : Int}
    {data : Bytes} {rf : Raft n} (waits : s.readLoop = .snapshotting op index data)
    (taken : s.rf.snapshot index data = .ok rf) :
    Ordered archives log
      { s with
        rf := rf
        server := s.server.sendMessageToWaitChan op index
        readLoop := .reading } pos last first := by
  have applied := inv.snapshotting op index data waits
  have moved := inv.raft (Raft.snapshot_lastApplied taken applied)
  exact
    { moved with
      here := inv.here.congr (by simp) (by simp)
      snapshotting := by simp }

end Ordered

/-! ## Runs -/

/-- Every step that pushes in order keeps the invariant, and the service does
not go back. -/
theorem Ordered.step {s s' : Pipeline n} {pos last : Position} {first : Int}
    (inv : Ordered archives log s pos last first) {action : PipelineAction n}
    (fromLog : FromLog archives log s action) (inOrder : PushesInOrder s action)
    (taken : s.next archives action = some s') :
    ∃ pos' last' first', pos.reached ≤ pos'.reached ∧
      Ordered archives log s' pos' last' first' := by
  cases action with
  | raft action =>
      have released : ∃ rf, s.rf.release action = .ok rf ∧ s' = { s with rf := rf } ∧
          rf.lastApplied = s.rf.lastApplied := by
        unfold Pipeline.next at taken
        dsimp only at taken
        split at taken
        · cases taken
        · cases taken
        · rename_i noInstall noSnapshot
          split at taken
          · cases taken
          · rename_i rf released
            cases taken
            exact ⟨rf, released, rfl,
              Raft.release_lastApplied released noInstall noSnapshot⟩
      obtain ⟨rf, _, rfl, same⟩ := released
      exact ⟨pos, last, first, le_rfl, inv.raft same⟩
  | installSnapshot args =>
      unfold Pipeline.next at taken
      dsimp only at taken
      split at taken
      · cases taken
      · rename_i rf response msg handled
        cases taken
        rcases Raft.installSnapshot_lastApplied handled with
          ⟨rfl, same⟩ | ⟨rfl, notOutdated, newer, applied⟩
        · refine ⟨pos, last, first, le_rfl, ?_⟩
          simpa using inv.raft same
        · obtain ⟨nonneg, bound, nonempty, carries⟩ := fromLog.2 notOutdated newer
          exact ⟨pos, last, first, le_rfl,
            inv.install ⟨rfl, rfl, nonneg, bound, nonempty, carries⟩ applied⟩
  | getApplyLogs =>
      unfold Pipeline.next at taken
      dsimp only at taken
      split at taken
      · rename_i empty
        split at taken
        · cases taken
        · rename_i rf applyMsgs collected
          cases taken
          exact ⟨pos, last, _, le_rfl, inv.collect empty fromLog collected⟩
      · cases taken
  | applierPush =>
      unfold Pipeline.next at taken
      dsimp only at taken
      split at taken
      · cases taken
      · rename_i message rest collected
        cases taken
        obtain ⟨last', pushed⟩ := inv.applierPush collected inOrder
        exact ⟨pos, last', _, le_rfl, pushed⟩
  | pushMsgToKvServer thread =>
      unfold Pipeline.next at taken
      dsimp only at taken
      split at taken
      · cases taken
      · rename_i message pending
        cases taken
        obtain ⟨last', pushed⟩ := inv.pushMsgToKvServer pending inOrder
        exact ⟨pos, last', first, le_rfl, pushed⟩
  | readRaftApplyCommand snapshot =>
      unfold Pipeline.next at taken
      dsimp only at taken
      split at taken
      · rename_i message _ waiting
        obtain ⟨pos', later, read⟩ := inv.readRaftApplyCommand waiting taken
        exact ⟨pos', last, first, later, read⟩
      · cases taken
  | snapshot =>
      unfold Pipeline.next at taken
      dsimp only at taken
      split at taken
      · cases taken
      · rename_i op index data waits
        split at taken
        · cases taken
        · rename_i rf snapshotted
          cases taken
          exact ⟨pos, last, first, le_rfl, inv.snapshot waits snapshotted⟩

/-- Along a run that pushes in order every observation sees the replay of a
prefix, and the prefixes grow up to the current position. -/
theorem ordered_of_run {me : Fin n} {maxRaftState : Int} {observations : List Observation}
    {s : Pipeline n}
    (run : PipelineRun archives me maxRaftState
      (fun s action => FromLog archives log s action ∧ PushesInOrder s action) observations s) :
    ∃ ks : List Nat, ∃ pos last first, Ordered archives log s pos last first ∧
      ks.Pairwise (· ≤ ·) ∧ (∀ k ∈ ks, (k : Int) ≤ pos.reached) ∧
      List.Forall₂ (fun (o : Observation) (k : Nat) =>
        k ≤ log.length ∧ o.kvDB = (KvData.replay (log.take k)).kvDB ∧
          (o.quiet = true → (k : Int) = o.lastApplied)) observations ks := by
  induction run with
  | nil => exact ⟨[], _, _, _, ordered_start me maxRaftState, .nil, by simp, .nil⟩
  | snoc _ accepted taken ih =>
      obtain ⟨ks, pos, last, first, inv, sorted, below, seen⟩ := ih
      obtain ⟨s', moved, same⟩ := Option.map_eq_some_iff.mp taken
      cases same
      obtain ⟨pos', last', first', later, inv'⟩ := inv.step accepted.1 accepted.2 moved
      have here := inv'.here
      have nonneg := here.nonneg.trans here.ordered
      have bound := here.bound
      refine ⟨ks ++ [pos'.reached.toNat], pos', last', first', inv', ?_, ?_, ?_⟩
      · refine List.pairwise_append.mpr ⟨sorted, List.pairwise_singleton _ _, ?_⟩
        intro k member k' final
        rw [List.mem_singleton.mp final]
        have := below k member
        omega
      · intro k member
        rcases List.mem_append.mp member with old | new
        · exact (below k old).trans later
        · rw [List.mem_singleton.mp new]
          omega
      · refine List.rel_append seen (.cons ⟨by omega, ?_, ?_⟩ .nil)
        · exact congrArg KvData.kvDB here.data
        · intro quiet
          rw [Int.toNat_of_nonneg nonneg]
          exact inv'.quiet quiet

/-! ## A snapshot and a command -/

/-- `Put(a, 1)` and `Put(b, 2)` of client `c`. -/
def twoPuts : List Op :=
  [{ operation := .put, key := text "a", value := text "1", clientId := text "c", requestId := 1 },
    { operation := .put, key := text "b", value := text "2", clientId := text "c", requestId := 2 }]

/-- The text archives of the second command and of the state after the first. -/
def twoPutsArchives : Archives where
  readOp := fun data =>
    if data = text "22 serialization::archive 19 0 0 3 Put 1 b 1 2 1 c 2" then twoPuts[1]? else none
  readKvData := fun data =>
    if data = text ("22 serialization::archive 19 0 0 0 0 1 13 0 0 0 1 a 1 1 " ++
        "0 0 1 13 0 0 0 1 c 1") then
      some (.replay (twoPuts.take 1))
    else none

/-- The node installs the snapshot after the first command and commits the
second one, which is collected. -/
def installThenCommit : List (PipelineAction 3) :=
  [.installSnapshot
      { leaderId := 0, term := 1, lastSnapShotIncludeIndex := 1, lastSnapShotIncludeTerm := 1,
        data := text ("22 serialization::archive 19 0 0 0 0 1 13 0 0 0 1 a 1 1 " ++
          "0 0 1 13 0 0 0 1 c 1") },
    .raft (.appendEntries1
      { term := 1, leaderId := 0, prevLogIndex := 1, prevLogTerm := 1,
        entries :=
          [⟨text "22 serialization::archive 19 0 0 3 Put 1 b 1 2 1 c 2", 1, 2⟩],
        leaderCommit := 2 }),
    .getApplyLogs]

/-- In every run that pushes in order the service follows the committed log. -/
theorem follows_log {n : Nat} {archives : Archives} {log : List Op} {me : Fin n}
    {maxRaftState : Int} {observations : List Observation} {s : Pipeline n}
    (run : PipelineRun archives me maxRaftState
      (fun s action => FromLog archives log s action ∧ PushesInOrder s action) observations s) :
    FollowsLog log observations := by
  obtain ⟨ks, _, _, _, _, sorted, _, seen⟩ := ordered_of_run run
  exact ⟨ks, sorted, seen⟩

/-- The snapshot is pushed first: both messages are consumed, and the quiet
service has reached index 2. -/
theorem follows_log_snapshotFirst :
    ∃ (observations : List Observation) (s : Pipeline 3),
      PipelineRun twoPutsArchives (1 : Fin 3) 500
        (fun s action => FromLog twoPutsArchives twoPuts s action ∧ PushesInOrder s action)
        observations s ∧
      s.observe.quiet = true ∧ s.rf.lastApplied = 2 ∧ FollowsLog twoPuts observations := by
  obtain ⟨observations, s, run, checked⟩ := exists_run_of_exec (Pipeline.step twoPutsArchives)
    (fun s action => FromLog twoPutsArchives twoPuts s action ∧ PushesInOrder s action)
    (Pipeline.start (1 : Fin 3) 500)
    (installThenCommit ++
      [.pushMsgToKvServer 0, .applierPush, .readRaftApplyCommand [], .readRaftApplyCommand []])
    (fun result => decide (result.1.observe.quiet = true ∧ result.1.rf.lastApplied = 2))
    (by decide +kernel)
  obtain ⟨quiet, applied⟩ := of_decide_eq_true checked
  exact ⟨observations, s, run, quiet, applied, follows_log run⟩

theorem exists_of_forall₂ {α β : Type} {R : α → β → Prop} {l : List α} {l' : List β}
    (related : List.Forall₂ R l l') {a : α} (member : a ∈ l) : ∃ b, R a b := by
  induction related with
  | nil => cases member
  | cons first _ ih =>
      rcases List.mem_cons.mp member with rfl | later
      · exact ⟨_, first⟩
      · exact ih later

/-- The command is pushed first: the service executes it on the empty database,
which is no state of the log. -/
theorem not_follows_log :
    ∃ (observations : List Observation) (s : Pipeline 3),
      PipelineRun twoPutsArchives (1 : Fin 3) 500 (FromLog twoPutsArchives twoPuts)
        observations s ∧
      ¬ FollowsLog twoPuts observations := by
  obtain ⟨observations, s, run, checked⟩ := exists_run_of_exec (Pipeline.step twoPutsArchives)
    (FromLog twoPutsArchives twoPuts) (Pipeline.start (1 : Fin 3) 500)
    (installThenCommit ++ [.applierPush, .readRaftApplyCommand []])
    (fun result => result.2.any fun o =>
      decide (∀ k : Nat, k < 3 → o.kvDB ≠ (KvData.replay (twoPuts.take k)).kvDB))
    (by decide +kernel)
  obtain ⟨o, member, apart⟩ := List.any_eq_true.mp checked
  have apart := of_decide_eq_true apart
  refine ⟨observations, s, run, ?_⟩
  rintro ⟨ks, _, seen⟩
  obtain ⟨k, bound, same, _⟩ := exists_of_forall₂ seen member
  exact apart k (Nat.lt_succ_of_le bound) same

end CppRaft.Kv
