import CppRaft.RaftCore.Persistence
import CppRaft.RaftCore.Terms

/-!
# What a node has applied

Only `getApplyLogs`, `InstallSnapshot` and `Snapshot` move `m_lastApplied`, and
`getApplyLogs` emits exactly the entries that it passes.
-/

namespace CppRaft.RaftCore.Raft

open CppRaft.Store

variable {n : Nat}

theorem logAtIndex_slice {rf : Raft n} {index : Int} {entry : LogEntry}
    (found : rf.logAtIndex index = .ok entry) :
    rf.lastSnapshotIncludeIndex < index ∧
      rf.logs[(index - rf.lastSnapshotIncludeIndex - 1).toNat]? = some entry := by
  simp only [logAtIndex, getSlicesIndexFromLogIndex, bind_eq_ok, myAssert_eq_ok,
    pure_eq_ok] at found
  obtain ⟨_, ⟨_, above, _, _, rfl⟩, read⟩ := found
  refine ⟨above, ?_⟩
  unfold logAt at read
  split at read
  · cases read
  · rename_i entry' present
    cases read
    exact present

@[simp]
theorem meetTerm_lastApplied (rf : Raft n) (term : Int) :
    (rf.meetTerm term).lastApplied = rf.lastApplied := by
  unfold meetTerm
  split <;> rfl

@[simp]
theorem followTerm_lastApplied (rf : Raft n) (term : Int) :
    (rf.followTerm term).lastApplied = rf.lastApplied :=
  rf.meetTerm_lastApplied term

@[simp]
theorem snapshotTerm_lastApplied (rf : Raft n) (term : Int) :
    (rf.snapshotTerm term).lastApplied = rf.lastApplied := by
  unfold snapshotTerm
  split <;> rfl

@[simp]
theorem followCommit_lastApplied (rf : Raft n) (leaderCommit : Int) :
    (rf.followCommit leaderCommit).lastApplied = rf.lastApplied := by
  unfold followCommit
  split <;> rfl

theorem appendEntries1_lastApplied {rf rf' : Raft n} {args : AppendEntriesArgs}
    {reply : AppendEntriesReply} (handled : rf.appendEntries1 args = .ok (rf', reply)) :
    rf'.lastApplied = rf.lastApplied := by
  rcases appendEntries1_cases handled with
    ⟨_, rfl, _⟩ | ⟨_, rfl, _⟩ | ⟨_, _, _, _, stored, looped, rfl⟩
  · rfl
  · simp [persist]
  · rw [appendEntriesLoop_eq looped]
    simp [persist]

theorem requestVote_lastApplied {rf rf' : Raft n} {args : RequestVoteArgs}
    {reply : RequestVoteReply} (handled : rf.requestVote args = .ok (rf', reply)) :
    rf'.lastApplied = rf.lastApplied := by
  rcases requestVote_cases handled with ⟨_, rfl, _⟩ | ⟨_, rfl, _⟩ | ⟨_, _, _, _, _, rfl⟩
  · rfl
  · simp [persist]
  · simp [persist]

theorem sendRequestVote_lastApplied {rf : Raft n} {reply : RequestVoteReply} {votedNum : Int}
    {outcome : VoteOutcome n} (processed : rf.sendRequestVote reply votedNum = .ok outcome) :
    outcome.rf.lastApplied = rf.lastApplied := by
  rcases sendRequestVote_cases processed with ⟨_, rfl⟩ | ⟨_, rfl⟩ | ⟨_, _, rfl⟩ | ⟨_, _, _, _, rfl⟩
  all_goals rfl

theorem sendAppendEntries_lastApplied {rf rf' : Raft n} {server : Fin n}
    {args : AppendEntriesArgs} {reply : AppendEntriesReply} {appendNums appendNums' : Int}
    (processed : rf.sendAppendEntries server args reply appendNums = .ok (rf', appendNums')) :
    rf'.lastApplied = rf.lastApplied := by
  rcases sendAppendEntries_cases processed with
    ⟨_, _, rfl, _⟩ | ⟨_, _, rfl⟩ | ⟨_, _, _, _, _, _, rfl, _⟩
  all_goals rfl

theorem startConses_lastApplied (rf : Raft n) (command : Bytes) :
    (rf.startConses command).1.lastApplied = rf.lastApplied := by
  rcases rf.startConses_cases command with ⟨_, refused⟩ | ⟨_, appended⟩
  · rw [refused]
  · rw [appended]
    rfl

/-- The critical sections that hand nothing to the service apply nothing. -/
theorem release_lastApplied {rf rf' : Raft n} {action : NodeAction n}
    (released : rf.release action = .ok rf')
    (noInstall : ∀ args, action ≠ .installSnapshot args)
    (noSnapshot : ∀ index data, action ≠ .snapshot index data) :
    rf'.lastApplied = rf.lastApplied := by
  cases action with
  | appendEntries1 args =>
      simp only [release, map_eq_ok] at released
      obtain ⟨_, handled, rfl⟩ := released
      exact appendEntries1_lastApplied handled
  | requestVote args =>
      simp only [release, map_eq_ok] at released
      obtain ⟨_, handled, rfl⟩ := released
      exact requestVote_lastApplied handled
  | installSnapshot args => exact absurd rfl (noInstall args)
  | sendRequestVote reply votedNum =>
      simp only [release, map_eq_ok] at released
      obtain ⟨_, processed, rfl⟩ := released
      exact sendRequestVote_lastApplied processed
  | sendAppendEntries server args reply appendNums =>
      simp only [release, map_eq_ok] at released
      obtain ⟨_, processed, rfl⟩ := released
      exact sendAppendEntries_lastApplied processed
  | snapshotArgs =>
      cases released
      rfl
  | leaderSendSnapShot server args reply =>
      cases released
      rcases rf.leaderSendSnapShot_cases server args reply with ⟨_, adopted⟩ | ⟨_, _, moved⟩
      · rw [adopted]
        rfl
      · rw [moved]
  | doElection =>
      cases released
      rcases rf.doElection_cases with ⟨_, idle⟩ | ⟨_, stands⟩
      · rw [idle]
      · rw [stands]
        rfl
  | startConses command =>
      cases released
      rcases rf.startConses_cases command with ⟨_, refused⟩ | ⟨_, appended⟩
      · rw [refused]
      · rw [appended]
        rfl
  | snapshot index data => exact absurd rfl (noSnapshot index data)

/-- `InstallSnapshot` applies what the snapshot covers, and hands the snapshot
to the service if it is new. -/
theorem installSnapshot_lastApplied {rf rf' : Raft n} {args : InstallSnapshotRequest}
    {response : InstallSnapshotResponse} {msg : Option ApplyMsg}
    (handled : rf.installSnapshot args = .ok (rf', response, msg)) :
    msg = none ∧ rf'.lastApplied = rf.lastApplied ∨
    msg = some (snapshotMsg args) ∧ rf.currentTerm ≤ args.term ∧
      rf.lastSnapshotIncludeIndex < args.lastSnapShotIncludeIndex ∧
      rf'.lastApplied = max rf.lastApplied args.lastSnapShotIncludeIndex := by
  rcases installSnapshot_cases handled with
    ⟨_, rfl, rfl⟩ | ⟨_, _, rfl, rfl⟩ | ⟨notOutdated, newer, ⟨logs, _, rfl⟩, rfl⟩
  · exact Or.inl ⟨rfl, rfl⟩
  · exact Or.inl ⟨rfl, rf.snapshotTerm_lastApplied _⟩
  · refine Or.inr ⟨rfl, notOutdated, newer, ?_⟩
    simp [save, withSnapshot]

theorem snapshot_lastApplied {rf rf' : Raft n} {index : Int} {data : Bytes}
    (taken : rf.snapshot index data = .ok rf') (applied : index ≤ rf.lastApplied) :
    rf'.lastApplied = rf.lastApplied := by
  rcases snapshot_cases taken with rfl | ⟨_, _, _, _, _, _, rfl⟩
  · rfl
  · simp only [save, compacted]
    exact max_eq_left applied

/-- The loop of `getApplyLogs` emits the entries at the next `count` indexes. -/
theorem applyLoop_emits {rf rf' : Raft n} {count : Nat} {applyMsgs : List ApplyMsg}
    (applied : rf.applyLoop count = .ok (rf', applyMsgs)) :
    applyMsgs.length = count ∧ rf'.lastApplied = rf.lastApplied + count ∧
      ∀ (k : Nat) (msg : ApplyMsg), applyMsgs[k]? = some msg →
        ∃ entry, rf.logAtIndex (rf.lastApplied + k + 1) = .ok entry ∧
          msg = { commandValid := true, command := entry.command,
                  commandIndex := rf.lastApplied + k + 1 } := by
  induction count generalizing rf applyMsgs with
  | zero =>
      cases applied
      exact ⟨rfl, by simp, by simp⟩
  | succ count ih =>
      simp only [applyLoop, bind_eq_ok] at applied
      obtain ⟨entry, found, _, _, ⟨middle, rest⟩, later, final⟩ := applied
      cases final
      obtain ⟨length, reached, emitted⟩ := ih later
      refine ⟨by rw [List.length_cons, length], ?_, ?_⟩
      · rw [reached]
        push_cast
        omega
      · intro k msg present
        cases k with
        | zero =>
            rw [List.getElem?_cons_zero, Option.some.injEq] at present
            refine ⟨entry, ?_, ?_⟩
            · rw [Int.natCast_zero, Int.add_zero]
              exact found
            · rw [← present, Int.natCast_zero, Int.add_zero]
        | succ k =>
            rw [List.getElem?_cons_succ] at present
            obtain ⟨entry', found', same⟩ := emitted k msg present
            have index : rf.lastApplied + 1 + (k : Int) + 1 =
                rf.lastApplied + ((k + 1 : Nat) : Int) + 1 := by
              push_cast
              omega
            simp only [index] at found' same
            exact ⟨entry', found', same⟩

/-- `getApplyLogs` emits the committed entries that were not applied yet. -/
theorem getApplyLogs_emits {rf rf' : Raft n} {applyMsgs : List ApplyMsg}
    (collected : rf.getApplyLogs = .ok (rf', applyMsgs)) :
    rf'.lastApplied = rf.lastApplied + applyMsgs.length ∧
      ∀ (k : Nat) (msg : ApplyMsg), applyMsgs[k]? = some msg →
        rf.lastApplied + k + 1 ≤ rf.commitIndex ∧
        ∃ entry, rf.logAtIndex (rf.lastApplied + k + 1) = .ok entry ∧
          msg = { commandValid := true, command := entry.command,
                  commandIndex := rf.lastApplied + k + 1 } := by
  simp only [getApplyLogs, bind_eq_ok] at collected
  obtain ⟨_, _, applied⟩ := collected
  obtain ⟨length, reached, emitted⟩ := applyLoop_emits applied
  refine ⟨by rw [reached, length], ?_⟩
  intro k msg present
  have inside := (List.getElem?_eq_some_iff.mp present).1
  exact ⟨by omega, emitted k msg present⟩

end CppRaft.RaftCore.Raft
