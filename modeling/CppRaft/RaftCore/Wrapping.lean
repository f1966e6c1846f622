import CppRaft.Common.Int32
import CppRaft.RaftCore.Progress

/-!
# The node on machine integers

The indexes and terms of `class Raft` are of type `int`.  This module has the
functions of the node again wherever a sum of theirs can leave that range, with
every sum reduced to 32 bits: `doElection`, `getNewCommandIndex`, `StartConses`,
`sendRequestVote`, `sendAppendEntries`, `leaderSendSnapShot` and `Snapshot`.

The other functions compute no sum that leaves the range without ending the
process.  In `AppendEntries1`, `getLastLogIndex() + 1` is computed below
`PrevLogIndex`, the sum with the number of entries is the index of the last of
them, and `m_lastSnapshotIncludeIndex + 1` is followed by an assertion that
fails.  In `doHeartBeat` the sums end at `m_nextIndex` or at the end of the log,
and `getApplyLogs` counts up to `m_commitIndex`.

Where no sum leaves the range, the two nodes take the same step.
-/

namespace CppRaft.RaftCore

open CppRaft.Common CppRaft.Store CppRaft.Transition

variable {n : Nat}

/-! ## Arguments of type `int` -/

/-- The numbers of the entry are of type `int`. -/
def LogEntry.HasInts (entry : LogEntry) : Prop :=
  IsInt entry.logTerm ∧ IsInt entry.logIndex

instance (entry : LogEntry) : Decidable entry.HasInts :=
  inferInstanceAs (Decidable (_ ∧ _))

/-- The numbers of the arguments are of type `int`. -/
def AppendEntriesArgs.HasInts (args : AppendEntriesArgs) : Prop :=
  IsInt args.term ∧ IsInt args.leaderId ∧ IsInt args.prevLogIndex ∧ IsInt args.prevLogTerm ∧
    IsInt args.leaderCommit ∧ ∀ entry ∈ args.entries, entry.HasInts

instance (args : AppendEntriesArgs) : Decidable args.HasInts :=
  inferInstanceAs (Decidable (_ ∧ _))

/-- The numbers of the request are of type `int`. -/
def InstallSnapshotRequest.HasInts (args : InstallSnapshotRequest) : Prop :=
  IsInt args.leaderId ∧ IsInt args.term ∧ IsInt args.lastSnapShotIncludeIndex ∧
    IsInt args.lastSnapShotIncludeTerm

instance (args : InstallSnapshotRequest) : Decidable args.HasInts :=
  inferInstanceAs (Decidable (_ ∧ _))

/-- The numbers that a critical section is called with are of type `int`. -/
def NodeAction.HasInts : NodeAction n → Prop
  | .appendEntries1 args => args.HasInts
  | .requestVote args =>
      IsInt args.term ∧ IsInt args.candidateId ∧ IsInt args.lastLogIndex ∧
        IsInt args.lastLogTerm
  | .installSnapshot args => args.HasInts
  | .sendRequestVote reply votedNum => IsInt reply.term ∧ IsInt reply.voteState ∧ IsInt votedNum
  | .sendAppendEntries _ args reply appendNums =>
      args.HasInts ∧ IsInt reply.term ∧ IsInt reply.updateNextIndex ∧ IsInt reply.appState ∧
        IsInt appendNums
  | .snapshotArgs => True
  | .leaderSendSnapShot _ args reply => args.HasInts ∧ IsInt reply.term
  | .doElection => True
  | .startConses _ => True
  | .snapshot index _ => IsInt index

instance : (action : NodeAction n) → Decidable action.HasInts
  | .appendEntries1 args => inferInstanceAs (Decidable args.HasInts)
  | .requestVote _ => inferInstanceAs (Decidable (_ ∧ _))
  | .installSnapshot args => inferInstanceAs (Decidable args.HasInts)
  | .sendRequestVote _ _ => inferInstanceAs (Decidable (_ ∧ _))
  | .sendAppendEntries _ _ _ _ => inferInstanceAs (Decidable (_ ∧ _))
  | .snapshotArgs => isTrue trivial
  | .leaderSendSnapShot _ _ _ => inferInstanceAs (Decidable (_ ∧ _))
  | .doElection => isTrue trivial
  | .startConses _ => isTrue trivial
  | .snapshot index _ => inferInstanceAs (Decidable (IsInt index))

/-- The sum in the assertion of `AppendEntries1` that the entries are stored is
the index of the last entry, or `PrevLogIndex`. -/
theorem AppendEntriesArgs.HasInts.sum {args : AppendEntriesArgs} (ints : args.HasInts)
    (numbered : args.Numbered) : IsInt (args.prevLogIndex + args.entries.length) := by
  obtain ⟨_, _, prev, _, _, entries⟩ := ints
  cases last : args.entries.getLast? with
  | none =>
      rw [List.getLast?_eq_none_iff.mp last]
      simpa using prev
  | some entry =>
      have member := List.mem_of_getLast? last
      rw [List.getLast?_eq_getElem?] at last
      have index := numberedFrom_iff.mp numbered _ entry last
      have inside := (List.getElem?_eq_some_iff.mp last).1
      have same : args.prevLogIndex + args.entries.length = entry.logIndex := by omega
      rw [same]
      exact (entries entry member).2

namespace Wrapping

/-! ## The functions -/

/-- `Raft::doElection`. -/
def doElection (rf : Raft n) : Raft n × Option RequestVoteArgs :=
  if rf.status = .leader then (rf, none)
  else
    let rf :=
      { rf with
        status := .candidate
        currentTerm := int32 (rf.currentTerm + 1)
        votedFor := (rf.me : Int) }
    let rf := rf.persist
    let (lastLogIndex, lastLogTerm) := rf.getLastLogIndexAndTerm
    (rf, some
      { term := rf.currentTerm
        candidateId := (rf.me : Int)
        lastLogIndex := lastLogIndex
        lastLogTerm := lastLogTerm })

/-- The part of `sendRequestVote` that makes the node leader. -/
def becomeLeader (rf : Raft n) : Raft n :=
  let lastLogIndex := rf.getLastLogIndex
  { rf with
    status := .leader
    nextIndex := fun _ => int32 (lastLogIndex + 1)
    matchIndex := fun _ => 0 }.persist

/-- `Raft::sendRequestVote` after the remote call succeeded; the counter is
compared with a `size_t`. -/
def sendRequestVote (rf : Raft n) (reply : RequestVoteReply) (votedNum : Int) :
    Except Fault (Raft.VoteOutcome n) :=
  if reply.term > rf.currentTerm then
    return ⟨(rf.adoptTerm reply.term).persist, votedNum, false⟩
  else if reply.term < rf.currentTerm then
    return ⟨rf, votedNum, false⟩
  else do
    myAssert (reply.term = rf.currentTerm) .replyTermMismatch
    if ¬ reply.voteGranted then
      return ⟨rf, votedNum, false⟩
    else
      let votedNum := int32 (votedNum + 1)
      if toSize votedNum ≥ ((n / 2 + 1 : Nat) : Int) then
        myAssert (rf.status ≠ .leader) .electedTwice
        return ⟨becomeLeader rf, 0, true⟩
      else
        return ⟨rf, votedNum, false⟩

/-- `Raft::sendAppendEntries` after the remote call succeeded. -/
def sendAppendEntries (rf : Raft n) (server : Fin n) (args : AppendEntriesArgs)
    (reply : AppendEntriesReply) (appendNums : Int) : Except Fault (Raft n × Int) :=
  if reply.appState = Disconnected then
    return (rf, appendNums)
  else if reply.term > rf.currentTerm then
    return (rf.adoptTerm reply.term, appendNums)
  else if reply.term < rf.currentTerm then
    return (rf, appendNums)
  else if rf.status ≠ .leader then
    return (rf, appendNums)
  else do
    myAssert (reply.term = rf.currentTerm) .replyTermMismatch
    if ¬ reply.success then
      if reply.updateNextIndex ≠ -100 then
        return ({ rf with
          nextIndex := Function.update rf.nextIndex server reply.updateNextIndex }, appendNums)
      else
        return (rf, appendNums)
    else
      let appendNums := int32 (appendNums + 1)
      let matched :=
        max (rf.matchIndex server) (int32 (args.prevLogIndex + args.entries.length))
      let rf :=
        { rf with
          matchIndex := Function.update rf.matchIndex server matched
          nextIndex := Function.update rf.nextIndex server (int32 (matched + 1)) }
      let lastLogIndex := rf.getLastLogIndex
      myAssert (rf.nextIndex server ≤ int32 (lastLogIndex + 1)) .nextIndexBeyondLog
      if toSize appendNums ≥ ((1 + n / 2 : Nat) : Int) then
        let rf :=
          if args.entries.getLast?.map LogEntry.logTerm = some rf.currentTerm then
            { rf with
              commitIndex :=
                max rf.commitIndex (int32 (args.prevLogIndex + args.entries.length)) }
          else rf
        myAssert (rf.commitIndex ≤ lastLogIndex) .commitBeyondLog
        return (rf, 0)
      else
        return (rf, appendNums)

/-- The second critical section of `leaderSendSnapShot`. -/
def leaderSendSnapShot (rf : Raft n) (server : Fin n) (args : InstallSnapshotRequest)
    (reply : InstallSnapshotResponse) : Raft n :=
  if rf.status ≠ .leader ∨ rf.currentTerm ≠ args.term then rf
  else if reply.term > rf.currentTerm then (rf.adoptTerm reply.term).persist
  else
    { rf with
      matchIndex := Function.update rf.matchIndex server args.lastSnapShotIncludeIndex
      nextIndex :=
        Function.update rf.nextIndex server (int32 (args.lastSnapShotIncludeIndex + 1)) }

/-- `Raft::getNewCommandIndex`. -/
def getNewCommandIndex (rf : Raft n) : Int :=
  int32 (rf.getLastLogIndex + 1)

/-- `Raft::StartConses` with the archived command. -/
def startConses (rf : Raft n) (command : Bytes) : Raft n × Option (Int × Int) :=
  if rf.status ≠ .leader then (rf, none)
  else
    let newLogEntry : LogEntry :=
      { command := command
        logTerm := rf.currentTerm
        logIndex := getNewCommandIndex rf }
    ({ rf with logs := rf.logs ++ [newLogEntry] }.persist,
      some (newLogEntry.logIndex, newLogEntry.logTerm))

/-- The loop of `Snapshot` with the counter at `i`, for at most `fuel` rounds. -/
def collectLogs (rf : Raft n) (i : Int) : Nat → Except Fault (List LogEntry)
  | 0 => return []
  | fuel + 1 =>
      if i ≤ rf.getLastLogIndex then do
        let entry ← rf.logAtIndex i
        return entry :: (← collectLogs rf (int32 (i + 1)) fuel)
      else
        return []

/-- `Raft::Snapshot`. -/
def snapshot (rf : Raft n) (index : Int) (data : Bytes) : Except Fault (Raft n) :=
  if rf.lastSnapshotIncludeIndex ≥ index ∨ index > rf.commitIndex then
    return rf
  else do
    let lastLogIndex := rf.getLastLogIndex
    let newLastSnapshotIncludeTerm := (← rf.logAtIndex index).logTerm
    -- One round for each entry behind `index`, and one more that ends the loop.
    let trunckedLogs ←
      collectLogs rf (int32 (index + 1)) ((lastLogIndex - index).toNat + 1)
    let rf :=
      { rf with
        lastSnapshotIncludeIndex := index
        lastSnapshotIncludeTerm := newLastSnapshotIncludeTerm
        logs := trunckedLogs
        commitIndex := max rf.commitIndex index
        lastApplied := max rf.lastApplied index }
    let rf := rf.save data
    myAssert (rf.logs.length + rf.lastSnapshotIncludeIndex = lastLogIndex) .snapshotLengthMismatch
    return rf

/-- The state in which a critical section releases the mutex. -/
def release (rf : Raft n) : NodeAction n → Except Fault (Raft n)
  | .appendEntries1 args => rf.release (.appendEntries1 args)
  | .requestVote args => rf.release (.requestVote args)
  | .installSnapshot args => rf.release (.installSnapshot args)
  | .sendRequestVote reply votedNum =>
      (sendRequestVote rf reply votedNum).map Raft.VoteOutcome.rf
  | .sendAppendEntries server args reply appendNums =>
      (sendAppendEntries rf server args reply appendNums).map Prod.fst
  | .snapshotArgs => rf.release .snapshotArgs
  | .leaderSendSnapShot server args reply => .ok (leaderSendSnapShot rf server args reply)
  | .doElection => .ok (doElection rf).1
  | .startConses command => .ok (startConses rf command).1
  | .snapshot index data => snapshot rf index data

/-- One step of a node, with the messages that `getApplyLogs` emits. -/
def operate (rf : Raft n) : NodeStep n → Option (Raft n × List ApplyMsg)
  | .critical action =>
      match release rf action with
      | .error _ => none
      | .ok rf' => some (rf', [])
  | .getApplyLogs => rf.operate .getApplyLogs
  | .doHeartBeat => rf.operate .doHeartBeat

/-! ## Where no sum leaves the range -/

/-- The sums of the critical section are of type `int`, and so are the counters
that it compares with a `size_t`, which are not negative. -/
def Fits (rf : Raft n) : NodeAction n → Prop
  | .appendEntries1 args => IsInt (args.prevLogIndex + args.entries.length)
  | .requestVote _ => True
  | .installSnapshot _ => True
  | .sendRequestVote _ votedNum =>
      0 ≤ votedNum ∧ IsInt (votedNum + 1) ∧ IsInt (rf.getLastLogIndex + 1)
  | .sendAppendEntries server args _ appendNums =>
      (0 ≤ appendNums ∧ IsInt (appendNums + 1)) ∧
        IsInt (args.prevLogIndex + args.entries.length) ∧
        IsInt (max (rf.matchIndex server) (args.prevLogIndex + args.entries.length) + 1) ∧
        IsInt (rf.getLastLogIndex + 1)
  | .snapshotArgs => True
  | .leaderSendSnapShot _ args _ => IsInt (args.lastSnapShotIncludeIndex + 1)
  | .doElection => IsInt (rf.currentTerm + 1)
  | .startConses _ => IsInt (rf.getLastLogIndex + 1)
  | .snapshot index _ => IsInt index ∧ IsInt (rf.getLastLogIndex + 1)

theorem doElection_of_isInt {rf : Raft n} (fits : IsInt (rf.currentTerm + 1)) :
    doElection rf = rf.doElection := by
  unfold doElection Raft.doElection
  rw [fits.int32]

theorem startConses_of_isInt {rf : Raft n} (fits : IsInt (rf.getLastLogIndex + 1))
    (command : Bytes) : startConses rf command = rf.startConses command := by
  have index : getNewCommandIndex rf = rf.getNewCommandIndex := fits.int32
  unfold startConses Raft.startConses
  rw [index]

theorem sendRequestVote_of_isInt {rf : Raft n} {votedNum : Int} (nonneg : 0 ≤ votedNum)
    (counter : IsInt (votedNum + 1)) (fits : IsInt (rf.getLastLogIndex + 1))
    (reply : RequestVoteReply) :
    sendRequestVote rf reply votedNum = rf.sendRequestVote reply votedNum := by
  have leads : becomeLeader rf = rf.becomeLeader := by
    simp only [becomeLeader, Raft.becomeLeader, fits.int32]
  have size : toSize (votedNum + 1) = votedNum + 1 := toSize_of_nonneg (by omega) counter
  simp only [sendRequestVote, Raft.sendRequestVote, counter.int32, size, leads]

theorem sendAppendEntries_of_isInt {rf : Raft n} {server : Fin n} {args : AppendEntriesArgs}
    {appendNums : Int} (nonneg : 0 ≤ appendNums) (counter : IsInt (appendNums + 1))
    (sent : IsInt (args.prevLogIndex + args.entries.length))
    (next : IsInt (max (rf.matchIndex server) (args.prevLogIndex + args.entries.length) + 1))
    (fits : IsInt (rf.getLastLogIndex + 1)) (reply : AppendEntriesReply) :
    sendAppendEntries rf server args reply appendNums =
      rf.sendAppendEntries server args reply appendNums := by
  have last : ∀ nextIndex matchIndex,
      int32 ({ rf with nextIndex := nextIndex, matchIndex := matchIndex }.getLastLogIndex + 1) =
        { rf with nextIndex := nextIndex, matchIndex := matchIndex }.getLastLogIndex + 1 :=
    fun _ _ => fits.int32
  unfold sendAppendEntries Raft.sendAppendEntries
  simp only [counter.int32, toSize_of_nonneg (show 0 ≤ appendNums + 1 by omega) counter,
    sent.int32, next.int32, last]

theorem leaderSendSnapShot_of_isInt {rf : Raft n} {args : InstallSnapshotRequest}
    (fits : IsInt (args.lastSnapShotIncludeIndex + 1)) (server : Fin n)
    (reply : InstallSnapshotResponse) :
    leaderSendSnapShot rf server args reply = rf.leaderSendSnapShot server args reply := by
  unfold leaderSendSnapShot Raft.leaderSendSnapShot
  rw [fits.int32]

/-- The loop that counts on to the end of the log. -/
theorem collectLogs_of_isInt {rf : Raft n} {index : Int} {count : Nat} (fits : IsInt index)
    (length : rf.getLastLogIndex = index + count) (last : IsInt (rf.getLastLogIndex + 1)) :
    collectLogs rf (int32 (index + 1)) (count + 1) = rf.collectLogs (index + 1) count := by
  induction count generalizing index with
  | zero =>
      have next : IsInt (index + 1) := ⟨by have := fits.1; omega, by have := last.2; omega⟩
      rw [next.int32, collectLogs, if_neg (by omega)]
      rfl
  | succ count ih =>
      have next : IsInt (index + 1) := ⟨by have := fits.1; omega, by have := last.2; omega⟩
      rw [next.int32, collectLogs, if_pos (by omega), ih next (by omega)]
      rfl

theorem le_getLastLogIndex {rf : Raft n} {index : Int} {entry : LogEntry}
    (found : rf.logAtIndex index = .ok entry) : index ≤ rf.getLastLogIndex := by
  simp only [Raft.logAtIndex, Raft.getSlicesIndexFromLogIndex, bind_eq_ok,
    myAssert_eq_ok] at found
  obtain ⟨_, ⟨_, _, _, stored, _⟩, _⟩ := found
  exact stored

theorem snapshot_of_isInt {rf : Raft n} {index : Int} (fits : IsInt index)
    (last : IsInt (rf.getLastLogIndex + 1)) (data : Bytes) :
    snapshot rf index data = rf.snapshot index data := by
  unfold snapshot Raft.snapshot
  split
  · rfl
  · cases found : rf.logAtIndex index with
    | error fault => rfl
    | ok entry =>
        have stored := le_getLastLogIndex found
        have collected := collectLogs_of_isInt fits
          (show rf.getLastLogIndex = index + ((rf.getLastLogIndex - index).toNat : Int) by omega)
          last
        dsimp only
        rw [collected]

/-- Where every sum fits, both nodes release the mutex in the same state. -/
theorem release_of_fits {rf : Raft n} {action : NodeAction n} (fits : Fits rf action) :
    release rf action = rf.release action := by
  cases action with
  | appendEntries1 args => rfl
  | requestVote args => rfl
  | installSnapshot args => rfl
  | sendRequestVote reply votedNum =>
      obtain ⟨nonneg, counter, last⟩ := fits
      simp only [release, Raft.release, sendRequestVote_of_isInt nonneg counter last]
  | sendAppendEntries server args reply appendNums =>
      obtain ⟨⟨nonneg, counter⟩, sent, next, last⟩ := fits
      simp only [release, Raft.release, sendAppendEntries_of_isInt nonneg counter sent next last]
  | snapshotArgs => rfl
  | leaderSendSnapShot server args reply =>
      simp only [release, Raft.release, leaderSendSnapShot_of_isInt fits]
  | doElection => simp only [release, Raft.release, doElection_of_isInt fits]
  | startConses command => simp only [release, Raft.release, startConses_of_isInt fits]
  | snapshot index data => simp only [release, Raft.release, snapshot_of_isInt fits.1 fits.2]

/-- The sums of a step fit. -/
def FitsStep (rf : Raft n) : NodeStep n → Prop
  | .critical action => Fits rf action
  | .getApplyLogs => True
  | .doHeartBeat => True

theorem operate_of_fits {rf : Raft n} {step : NodeStep n} (fits : FitsStep rf step) :
    operate rf step = rf.operate step := by
  cases step with
  | critical action =>
      have same : release rf action = rf.release action := release_of_fits fits
      cases released : rf.release action with
      | error fault => simp only [operate, Raft.operate, same, released]
      | ok rf' => simp only [operate, Raft.operate, same, released]
  | getApplyLogs => rfl
  | doHeartBeat => rfl

/-- The runs on machine integers in which every sum fits are those of the node
on unbounded integers. -/
theorem run_iff_of_fits {guard : Raft n → NodeStep n → Prop}
    (fits : ∀ rf step, guard rf step → FitsStep rf step) {start rf : Raft n}
    {msgs : List ApplyMsg} :
    Run operate guard start msgs rf ↔ Run Raft.operate guard start msgs rf :=
  Run.congr_next fun state step accepted => operate_of_fits (fits state step accepted)

/-! ## What the functions can do -/

section Cases

variable {rf rf' : Raft n}

theorem sendRequestVote_cases {reply : RequestVoteReply} {votedNum : Int}
    {outcome : Raft.VoteOutcome n} (processed : sendRequestVote rf reply votedNum = .ok outcome) :
    rf.currentTerm < reply.term ∧ outcome.rf = (rf.adoptTerm reply.term).persist ∨
      outcome.rf = rf ∨ outcome.rf = becomeLeader rf := by
  unfold sendRequestVote at processed
  split at processed
  · cases processed
    exact Or.inl ⟨by assumption, rfl⟩
  · split at processed
    · cases processed
      exact Or.inr (Or.inl rfl)
    · simp only [bind_eq_ok] at processed
      obtain ⟨_, _, counted⟩ := processed
      split at counted
      · cases counted
        exact Or.inr (Or.inl rfl)
      · split at counted
        · simp only [bind_eq_ok] at counted
          obtain ⟨_, _, final⟩ := counted
          cases final
          exact Or.inr (Or.inr rfl)
        · cases counted
          exact Or.inr (Or.inl rfl)

/-- A larger term is adopted, a refusal moves `nextIndex`, and a success moves
`matchIndex` and may raise the commit index within the log. -/
theorem sendAppendEntries_cases {server : Fin n} {args : AppendEntriesArgs}
    {reply : AppendEntriesReply} {appendNums appendNums' : Int}
    (processed : sendAppendEntries rf server args reply appendNums = .ok (rf', appendNums')) :
    rf.currentTerm < reply.term ∧ rf' = rf.adoptTerm reply.term ∨
    rf' = rf ∨
    rf' = { rf with
      nextIndex := Function.update rf.nextIndex server reply.updateNextIndex } ∨
    ∃ matched commitIndex,
      matched = max (rf.matchIndex server)
        (int32 (args.prevLogIndex + args.entries.length)) ∧
      (commitIndex = rf.commitIndex ∨
        commitIndex = max rf.commitIndex (int32 (args.prevLogIndex + args.entries.length)) ∧
          commitIndex ≤ rf.getLastLogIndex) ∧
      rf' = { rf with
        matchIndex := Function.update rf.matchIndex server matched
        nextIndex := Function.update rf.nextIndex server (int32 (matched + 1))
        commitIndex := commitIndex } := by
  unfold sendAppendEntries at processed
  split at processed
  · cases processed
    exact Or.inr (Or.inl rfl)
  · split at processed
    · cases processed
      exact Or.inl ⟨by assumption, rfl⟩
    · split at processed
      · cases processed
        exact Or.inr (Or.inl rfl)
      · split at processed
        · cases processed
          exact Or.inr (Or.inl rfl)
        · simp only [bind_eq_ok] at processed
          obtain ⟨_, _, answered⟩ := processed
          split at answered
          · split at answered
            · cases answered
              exact Or.inr (Or.inr (Or.inl rfl))
            · cases answered
              exact Or.inr (Or.inl rfl)
          · refine Or.inr (Or.inr (Or.inr ?_))
            simp only [bind_eq_ok] at answered
            obtain ⟨_, _, counted⟩ := answered
            split at counted
            · simp only [bind_eq_ok, myAssert_eq_ok] at counted
              obtain ⟨_, bounded, final⟩ := counted
              cases final
              split at bounded
              · rename_i stamped
                rw [if_pos stamped]
                exact ⟨_, _, rfl, Or.inr ⟨rfl, bounded⟩, rfl⟩
              · rename_i notStamped
                rw [if_neg notStamped]
                exact ⟨_, _, rfl, Or.inl rfl, rfl⟩
            · cases counted
              exact ⟨_, _, rfl, Or.inl rfl, rfl⟩

theorem leaderSendSnapShot_cases (rf : Raft n) (server : Fin n) (args : InstallSnapshotRequest)
    (reply : InstallSnapshotResponse) :
    leaderSendSnapShot rf server args reply = rf ∨
    rf.currentTerm < reply.term ∧
      leaderSendSnapShot rf server args reply = (rf.adoptTerm reply.term).persist ∨
    leaderSendSnapShot rf server args reply =
      { rf with
        matchIndex := Function.update rf.matchIndex server args.lastSnapShotIncludeIndex
        nextIndex :=
          Function.update rf.nextIndex server (int32 (args.lastSnapShotIncludeIndex + 1)) } := by
  unfold leaderSendSnapShot
  split
  · exact Or.inl rfl
  · split
    · exact Or.inr (Or.inl ⟨by assumption, rfl⟩)
    · exact Or.inr (Or.inr rfl)

theorem logAtIndex_mem {index : Int} {entry : LogEntry}
    (found : rf.logAtIndex index = .ok entry) : entry ∈ rf.logs :=
  List.mem_of_getElem? (Raft.logAtIndex_slice found).2

/-- The loop of `Snapshot` collects entries of the log. -/
theorem collectLogs_mem {i : Int} {fuel : Nat} {logs : List LogEntry}
    (collected : collectLogs rf i fuel = .ok logs) {entry : LogEntry} (member : entry ∈ logs) :
    entry ∈ rf.logs := by
  induction fuel generalizing i logs with
  | zero =>
      cases collected
      cases member
  | succ fuel ih =>
      unfold collectLogs at collected
      split at collected
      · simp only [bind_eq_ok] at collected
        obtain ⟨first, found, rest, later, final⟩ := collected
        cases final
        rcases List.mem_cons.mp member with rfl | behind
        · exact logAtIndex_mem found
        · exact ih later behind
      · cases collected
        cases member

/-- From the last value of `int` the loop of `Snapshot` goes on at the first one,
and there the assertion on covered indexes fails. -/
theorem collectLogs_wrapped (base : 0 ≤ rf.lastSnapshotIncludeIndex)
    (stored : 0 ≤ rf.getLastLogIndex) :
    ∃ fault, ∀ fuel, collectLogs rf (-2147483648) (fuel + 1) = .error fault := by
  cases found : rf.logAtIndex (-2147483648) with
  | error fault =>
      refine ⟨fault, fun fuel => ?_⟩
      rw [collectLogs, if_pos (by omega), found]
      rfl
  | ok entry =>
      have above := (Raft.logAtIndex_slice found).1
      omega

/-- A loop that comes to its end has counted up to the end of the log. -/
theorem collectLogs_ok {index : Int} {count : Nat} {logs : List LogEntry} (fits : IsInt index)
    (base : 0 ≤ rf.lastSnapshotIncludeIndex) (above : 0 ≤ index)
    (length : rf.getLastLogIndex = index + count)
    (collected : collectLogs rf (int32 (index + 1)) (count + 1) = .ok logs) :
    rf.collectLogs (index + 1) count = .ok logs := by
  obtain ⟨fault, failed⟩ := collectLogs_wrapped base (show 0 ≤ rf.getLastLogIndex by omega)
  induction count generalizing index logs with
  | zero =>
      rcases int32_succ fits with ⟨_, next⟩ | ⟨_, next⟩
      · rw [next, collectLogs, if_neg (by omega)] at collected
        exact collected
      · rw [next, failed] at collected
        cases collected
  | succ count ih =>
      rcases int32_succ fits with ⟨room, next⟩ | ⟨_, next⟩
      · rw [next, collectLogs, if_pos (by omega)] at collected
        simp only [bind_eq_ok] at collected
        obtain ⟨entry, found, rest, later, final⟩ := collected
        have below := ih ⟨by omega, by omega⟩ (by omega) (by omega) later
        simp only [Raft.collectLogs, bind_eq_ok]
        exact ⟨entry, found, rest, below, final⟩
      · rw [next, failed] at collected
        cases collected

/-- The rounds that `Snapshot` allows its loop are enough: with more of them it
does the same. -/
theorem collectLogs_fuel {index : Int} {count : Nat} (fits : IsInt index)
    (base : 0 ≤ rf.lastSnapshotIncludeIndex) (above : 0 ≤ index)
    (length : rf.getLastLogIndex = index + count) (more : Nat) :
    collectLogs rf (int32 (index + 1)) (count + more + 1) =
      collectLogs rf (int32 (index + 1)) (count + 1) := by
  obtain ⟨fault, failed⟩ := collectLogs_wrapped base (show 0 ≤ rf.getLastLogIndex by omega)
  induction count generalizing index with
  | zero =>
      rcases int32_succ fits with ⟨_, next⟩ | ⟨_, next⟩
      · rw [next, collectLogs, collectLogs, if_neg (by omega), if_neg (by omega)]
      · rw [next, failed, failed]
  | succ count ih =>
      rcases int32_succ fits with ⟨room, next⟩ | ⟨_, next⟩
      · have fitsNext : IsInt (index + 1) := ⟨by omega, by omega⟩
        have later := ih fitsNext (by omega) (by omega)
        rw [show count + 1 + more + 1 = (count + more + 1) + 1 by omega, next, collectLogs,
          if_pos (by omega), later]
        conv_rhs => rw [collectLogs, if_pos (by omega)]
      · rw [next, failed, failed]

/-- A `Snapshot` that returns has done what it does on unbounded integers. -/
theorem snapshot_ok {index : Int} {data : Bytes} (fits : IsInt index)
    (base : 0 ≤ rf.lastSnapshotIncludeIndex) (taken : snapshot rf index data = .ok rf') :
    rf.snapshot index data = .ok rf' := by
  unfold snapshot at taken
  unfold Raft.snapshot
  split at taken
  next ignored =>
    rw [if_pos ignored]
    exact taken
  next compacts =>
    rw [if_neg compacts]
    simp only [bind_eq_ok] at taken ⊢
    obtain ⟨entry, found, logs, collected, rest⟩ := taken
    have stored := le_getLastLogIndex found
    exact ⟨entry, found, logs, collectLogs_ok fits base (by omega) (by omega) collected, rest⟩

end Cases

end Wrapping

end CppRaft.RaftCore
