import CppRaft.RaftCore.Advance

/-!
# What a request carries and what a reply says

The arguments that `doHeartBeat` builds reach from the entry before
`m_nextIndex` to the end of the log.  A success of `AppendEntries1` says that
the receiver now holds the end of what was sent; a refusal names an index that
is not behind `PrevLogIndex`.
-/

namespace CppRaft.RaftCore

open CppRaft.Store

variable {n : Nat}

/-- The index of the last entry that a request covers. -/
def AppendEntriesArgs.endIndex (args : AppendEntriesArgs) : Int :=
  args.prevLogIndex + args.entries.length

/-- The term of the last entry that a request covers. -/
def AppendEntriesArgs.endTerm (args : AppendEntriesArgs) : Int :=
  (args.entries.getLast?.map LogEntry.logTerm).getD args.prevLogTerm

namespace Raft

variable {rf rf' : Raft n}

/-- The node has an entry with this index and term, or a snapshot that ends
with one. -/
def Holds (rf : Raft n) (index term : Int) : Prop :=
  (∃ entry ∈ rf.logs, entry.logIndex = index ∧ entry.logTerm = term) ∨
    rf.lastSnapshotIncludeIndex = index ∧ rf.lastSnapshotIncludeTerm = term

theorem Placed.holds_of_getLogTermFromLogIndex (placed : rf.Placed) {index term : Int}
    (read : rf.getLogTermFromLogIndex index = .ok term) : rf.Holds index term := by
  simp only [getLogTermFromLogIndex, bind_eq_ok] at read
  obtain ⟨_, _, _, _, found⟩ := read
  split at found
  · rename_i base
    cases found
    exact Or.inr ⟨base.symm, rfl⟩
  · simp only [bind_eq_ok, pure_eq_ok] at found
    obtain ⟨entry, here, sameTerm⟩ := found
    obtain ⟨member, index⟩ := placed.mem_of_logAtIndex here
    exact Or.inl ⟨entry, member, index, sameTerm⟩

theorem Placed.holds_of_matchLog (placed : rf.Placed) {index term : Int}
    (matched : rf.matchLog index term = .ok true) : rf.Holds index term := by
  simp only [matchLog, bind_eq_ok, pure_eq_ok, decide_eq_true_eq] at matched
  obtain ⟨_, _, held, read, rfl⟩ := matched
  exact placed.holds_of_getLogTermFromLogIndex read

/-! ## Requests -/

/-- `getPrevLogInfo` gives the end of the snapshot or an entry of the log. -/
theorem getPrevLogInfo_cases {server : Fin n} {index term : Int} (placed : rf.Placed)
    (previous : rf.getPrevLogInfo server = .ok (index, term)) :
    index = rf.nextIndex server - 1 ∧
      (index = rf.lastSnapshotIncludeIndex ∧ term = rf.lastSnapshotIncludeTerm ∨
        rf.lastSnapshotIncludeIndex < index ∧
          ∃ entry ∈ rf.logs, entry.logIndex = index ∧ entry.logTerm = term) := by
  unfold getPrevLogInfo at previous
  split at previous
  · rename_i next
    cases previous
    exact ⟨by omega, Or.inl ⟨rfl, rfl⟩⟩
  · simp only [bind_eq_ok] at previous
    obtain ⟨entry, found, final⟩ := previous
    cases final
    obtain ⟨member, here⟩ := placed.mem_of_logAtIndex found
    exact ⟨rfl, Or.inr ⟨here ▸ (placed.index_range member).1, entry, member, here, rfl⟩⟩

/-- The arguments of `doHeartBeat` carry the log behind the previous entry. -/
theorem heartBeatTo_built {server : Fin n} {args : AppendEntriesArgs} (placed : rf.Placed)
    (built : rf.heartBeatTo server = .ok (.appendEntries args)) :
    args.term = rf.currentTerm ∧ args.Numbered ∧ args.endIndex = rf.getLastLogIndex ∧
      rf.lastSnapshotIncludeIndex ≤ args.prevLogIndex ∧
      rf.getPrevLogInfo server = .ok (args.prevLogIndex, args.prevLogTerm) ∧
      args.entries =
        rf.logs.drop (args.prevLogIndex - rf.lastSnapshotIncludeIndex).toNat := by
  simp only [heartBeatTo, bind_eq_ok] at built
  obtain ⟨_, _, sent⟩ := built
  split at sent
  · cases sent
  · rename_i above
    simp only [bind_eq_ok] at sent
    obtain ⟨⟨index, term⟩, previous, sent⟩ := sent
    obtain ⟨_, origin⟩ := getPrevLogInfo_cases placed previous
    have numbered := placed.logs.drop (index - rf.lastSnapshotIncludeIndex).toNat
    rw [show rf.lastSnapshotIncludeIndex + 1 +
      ((index - rf.lastSnapshotIncludeIndex).toNat : Int) = index + 1 by omega] at numbered
    split at sent
    · simp only [getSlicesIndexFromLogIndex, bind_eq_ok, myAssert_eq_ok, pure_eq_ok] at sent
      obtain ⟨_, ⟨_, behind, _, _, rfl⟩, _, rfl, _, reaches, final⟩ := sent
      cases final
      rw [show (index - rf.lastSnapshotIncludeIndex - 1).toNat + 1 =
        (index - rf.lastSnapshotIncludeIndex).toNat by omega] at reaches ⊢
      exact ⟨rfl, numbered, reaches, behind.le, previous, rfl⟩
    · rename_i base
      simp only [bind_eq_ok, myAssert_eq_ok, pure_eq_ok] at sent
      obtain ⟨_, rfl, _, reaches, final⟩ := sent
      cases final
      simp only [ne_eq, not_not] at base
      rw [base, Int.sub_self, Int.toNat_zero, List.drop_zero] at numbered
      refine ⟨rfl, ?_, reaches, base.ge, previous, ?_⟩
      · rw [AppendEntriesArgs.Numbered, base]
        exact numbered
      · rw [base, Int.sub_self, Int.toNat_zero, List.drop_zero]

/-- A request of `doHeartBeat` ends where the log of the sender ends. -/
theorem heartBeatTo_end {server : Fin n} {args : AppendEntriesArgs} (placed : rf.Placed)
    (built : rf.heartBeatTo server = .ok (.appendEntries args)) :
    (args.endIndex, args.endTerm) = rf.getLastLogIndexAndTerm := by
  obtain ⟨_, _, last, above, previous, carried⟩ := heartBeatTo_built placed built
  obtain ⟨_, origin⟩ := getPrevLogInfo_cases placed previous
  have length := placed.getLastLogIndex
  rw [last]
  unfold AppendEntriesArgs.endTerm
  apply Prod.ext
  · rfl
  · simp only
    by_cases all : rf.logs.length ≤ (args.prevLogIndex - rf.lastSnapshotIncludeIndex).toNat
    · have nothing : args.entries = [] := by
        rw [carried, List.drop_eq_nil_iff]
        exact all
      rw [nothing, List.getLast?_nil, Option.map_none, Option.getD_none]
      unfold AppendEntriesArgs.endIndex at last
      rw [nothing, List.length_nil] at last
      rcases origin with ⟨base, term⟩ | ⟨behind, entry, member, index, term⟩
      · have empty : rf.logs = [] := List.eq_nil_of_length_eq_zero (by omega)
        rw [getLastLogIndexAndTerm, empty, term]
        rfl
      · rcases rf.getLastLogIndexAndTerm_cases with ⟨empty, _⟩ | ⟨final, inside, same⟩
        · rw [empty] at member
          cases member
        · have lastIndex : rf.getLastLogIndex = final.logIndex := by
            unfold Raft.getLastLogIndex
            rw [same]
          have sameEntry := placed.logs.eq_of_index member inside (by push_cast at last; omega)
          rw [same, ← sameEntry, term]
    · have lastSent : args.entries.getLast? = rf.logs.getLast? := by
        rw [carried, List.getLast?_drop, if_neg all]
      rw [lastSent, getLastLogIndexAndTerm]
      cases final : rf.logs.getLast? with
      | none =>
          rw [List.getLast?_eq_none_iff.mp final] at all
          simp at all
      | some entry => rfl

/-! ## Replies -/

/-- The search for a conflict finds an index up to the previous one, behind the
snapshot. -/
theorem conflictScan_range {prevLogIndex : Int} {count : Nat} {found : Option Int}
    (reaches : rf.lastSnapshotIncludeIndex + count ≤ prevLogIndex + 1)
    (scanned : rf.conflictScan prevLogIndex count = .ok found) :
    ∀ index, found = some index →
      rf.lastSnapshotIncludeIndex < index ∧ index ≤ prevLogIndex := by
  induction count with
  | zero =>
      cases scanned
      simp
  | succ count ih =>
      simp only [conflictScan, bind_eq_ok] at scanned
      obtain ⟨term, read, previous, readPrevious, next⟩ := scanned
      push_cast at reaches
      split at next
      · rename_i conflict
        cases next
        intro index same
        cases same
        -- The previous entry does not conflict with itself.
        have other : rf.lastSnapshotIncludeIndex + (count : Int) ≠ prevLogIndex := by
          intro same
          rw [same, readPrevious] at read
          cases read
          exact conflict rfl
        omega
      · exact ih (by omega) next

theorem rejectEntries_range {args : AppendEntriesArgs} {reply reply' : AppendEntriesReply}
    (above : rf.lastSnapshotIncludeIndex ≤ args.prevLogIndex)
    (rejected : rf.rejectEntries args reply = .ok (rf', reply')) :
    reply'.updateNextIndex = args.prevLogIndex ∨
      rf.lastSnapshotIncludeIndex < reply'.updateNextIndex ∧
        reply'.updateNextIndex ≤ args.prevLogIndex := by
  simp only [rejectEntries, bind_eq_ok] at rejected
  obtain ⟨found, scanned, final⟩ := rejected
  cases final
  cases found with
  | none => exact Or.inl rfl
  | some index =>
      have range := conflictScan_range (by omega) scanned index rfl
      exact Or.inr range

/-- What a reply to an `AppendEntries` request says: the receiver took it over,
it was outdated, or the entries are to be sent from an earlier index on. -/
inductive Answers (args : AppendEntriesArgs) (reply : AppendEntriesReply) : Prop
  | accepted : reply.success = true → reply.term = args.term → Answers args reply
  | outdated : reply.success = false → reply.updateNextIndex = -100 → Answers args reply
  | refused : reply.success = false → 1 ≤ reply.updateNextIndex →
      reply.updateNextIndex ≤ args.prevLogIndex → Answers args reply

theorem checkEntries_answers {args : AppendEntriesArgs} {reply reply' : AppendEntriesReply}
    (placed : rf.Placed) (baseTerm : args.prevLogIndex = 0 → args.prevLogTerm = 0)
    (sameTerm : rf.currentTerm = args.term)
    (checked : rf.checkEntries args reply = .ok (rf', reply')) : Answers args reply' := by
  have base := placed.base
  have last := placed.getLastLogIndex
  unfold checkEntries at checked
  split at checked
  · cases checked
    exact Answers.refused rfl (by simp only; omega) (by simp only; omega)
  · simp only [bind_eq_ok] at checked
    obtain ⟨matched, previous, final⟩ := checked
    have range := matchLog_range previous
    cases matched with
    | true =>
        obtain ⟨_, _, _, success, replyTerm⟩ := acceptEntries_eq final
        exact Answers.accepted success (replyTerm.trans sameTerm)
    | false =>
        obtain ⟨_, refused⟩ := rejectEntries_eq final
        -- At index 0 both logs agree, so the previous entry is a real one.
        have positive : args.prevLogIndex ≠ 0 := by
          intro zero
          have empty : rf.lastSnapshotIncludeIndex = 0 := by omega
          simp only [matchLog, bind_eq_ok, pure_eq_ok] at previous
          obtain ⟨_, _, term, read, mismatch⟩ := previous
          rw [decide_eq_false_iff_not] at mismatch
          simp only [getLogTermFromLogIndex, bind_eq_ok] at read
          obtain ⟨_, _, _, _, read⟩ := read
          rw [zero, empty, if_pos rfl] at read
          cases read
          exact mismatch ((baseTerm zero).trans (placed.baseTerm empty).symm)
        rcases rejectEntries_range range.1 final with same | ⟨above, below⟩
        · exact Answers.refused refused (by omega) (by omega)
        · exact Answers.refused refused (by omega) below

theorem appendEntries1_answers {args : AppendEntriesArgs} {reply : AppendEntriesReply}
    (placed : rf.Placed) (baseTerm : args.prevLogIndex = 0 → args.prevLogTerm = 0)
    (handled : rf.appendEntries1 args = .ok (rf', reply)) : Answers args reply := by
  rcases Int.lt_or_le args.term rf.currentTerm with outdated | notOutdated
  · rw [appendEntries1_outdated outdated] at handled
    cases handled
    exact Answers.outdated rfl rfl
  · rw [appendEntries1_of_le notOutdated] at handled
    exact checkEntries_answers ((rf.keeps_followTerm notOutdated).placed placed) baseTerm
      (rf.followTerm_currentTerm notOutdated) handled

/-- A success says that the node holds the end of what was sent. -/
theorem appendEntries1_holds {args : AppendEntriesArgs} {reply : AppendEntriesReply}
    (placed : rf.Placed) (numbered : args.Numbered)
    (handled : rf.appendEntries1 args = .ok (rf', reply)) (success : reply.success = true) :
    rf'.Holds args.endIndex args.endTerm := by
  rcases appendEntries1_cases handled with ⟨_, _, refused⟩ | ⟨_, _, refused⟩ |
    ⟨notOutdated, _, _, previous, stored, looped, rfl⟩
  · rw [success] at refused
    cases refused
  · rw [success] at refused
    cases refused
  · have keeps := rf.keeps_followTerm notOutdated
    have placed' := keeps.placed placed
    have range := matchLog_range previous
    obtain ⟨commitIndex, raised⟩ := stored.followCommit_eq args.leaderCommit
    rw [raised]
    unfold AppendEntriesArgs.endIndex AppendEntriesArgs.endTerm
    cases final : args.entries.getLast? with
    | none =>
        have nothing := List.getLast?_eq_none_iff.mp final
        rw [nothing] at looped ⊢
        cases looped
        rw [List.length_nil, Int.natCast_zero, Int.add_zero]
        exact placed'.holds_of_matchLog previous
    | some log =>
        obtain ⟨_, holds⟩ :=
          appendEntriesLoop_holds placed' numbered (by omega) (by omega) looped
        have member := holds log (List.mem_of_getLast? final)
        rw [List.getLast?_eq_getElem?] at final
        have place := numberedFrom_iff.mp numbered _ log final
        have inside := (List.getElem?_eq_some_iff.mp final).1
        exact Or.inl ⟨log, member, by omega, rfl⟩

/-! ## The arrays of a leader -/

/-- A success of the leader's term raises `m_matchIndex`, and commits the end of
the request if it completes the round. -/
theorem sendAppendEntries_success {server : Fin n} {args : AppendEntriesArgs}
    {reply : AppendEntriesReply} {appendNums appendNums' : Int} (leads : rf.status = .leader)
    (connected : reply.appState ≠ Disconnected) (term : reply.term = rf.currentTerm)
    (success : reply.success = true)
    (processed : rf.sendAppendEntries server args reply appendNums = .ok (rf', appendNums')) :
    rf' = { rf with
      matchIndex := Function.update rf.matchIndex server
        (max (rf.matchIndex server) args.endIndex)
      nextIndex := Function.update rf.nextIndex server
        (max (rf.matchIndex server) args.endIndex + 1)
      commitIndex :=
        if appendNums + 1 ≥ ((1 + n / 2 : Nat) : Int) ∧
            args.entries.getLast?.map LogEntry.logTerm = some rf.currentTerm then
          max rf.commitIndex args.endIndex
        else rf.commitIndex } := by
  unfold sendAppendEntries at processed
  rw [if_neg connected, if_neg (by omega), if_neg (by omega), if_neg (not_not.mpr leads)]
    at processed
  simp only [bind_eq_ok, success, not_true_eq_false, if_false] at processed
  obtain ⟨_, _, _, _, counted⟩ := processed
  split at counted
  · rename_i complete
    simp only [bind_eq_ok] at counted
    obtain ⟨_, _, final⟩ := counted
    cases final
    by_cases current : args.entries.getLast?.map LogEntry.logTerm = some rf.currentTerm
    · rw [if_pos current, if_pos ⟨complete, current⟩]
      rfl
    · rw [if_neg current, if_neg fun completes => current completes.2]
      rfl
  · rename_i incomplete
    cases counted
    rw [if_neg fun completes => incomplete completes.1]
    rfl

/-- What the processing of an `AppendEntries` reply does to the two arrays: a
refusal sets `m_nextIndex` to the index that it names, and a success raises
`m_matchIndex` to the end of what was sent. -/
theorem sendAppendEntries_arrays {server : Fin n} {args : AppendEntriesArgs}
    {reply : AppendEntriesReply} {appendNums appendNums' : Int}
    (processed : rf.sendAppendEntries server args reply appendNums = .ok (rf', appendNums')) :
    rf'.nextIndex = rf.nextIndex ∧ rf'.matchIndex = rf.matchIndex ∨
    rf.status = .leader ∧ reply.term = rf.currentTerm ∧ reply.success = false ∧
      reply.updateNextIndex ≠ -100 ∧ rf'.matchIndex = rf.matchIndex ∧
      rf'.nextIndex = Function.update rf.nextIndex server reply.updateNextIndex ∨
    rf.status = .leader ∧ reply.term = rf.currentTerm ∧ reply.success = true ∧
      rf'.matchIndex = Function.update rf.matchIndex server
        (max (rf.matchIndex server) args.endIndex) ∧
      rf'.nextIndex = Function.update rf.nextIndex server
        (max (rf.matchIndex server) args.endIndex + 1) := by
  unfold sendAppendEntries at processed
  split at processed
  · cases processed
    exact Or.inl ⟨rfl, rfl⟩
  · split at processed
    · cases processed
      exact Or.inl ⟨rfl, rfl⟩
    · split at processed
      · cases processed
        exact Or.inl ⟨rfl, rfl⟩
      · split at processed
        · cases processed
          exact Or.inl ⟨rfl, rfl⟩
        · rename_i notLater notEarlier leads
          have leads : rf.status = .leader := by simpa using leads
          simp only [bind_eq_ok] at processed
          obtain ⟨_, _, answered⟩ := processed
          split at answered
          · rename_i refused
            have refused : reply.success = false := by simpa using refused
            split at answered
            · cases answered
              exact Or.inr (Or.inl ⟨leads, by omega, refused, by assumption, rfl, rfl⟩)
            · cases answered
              exact Or.inl ⟨rfl, rfl⟩
          · rename_i success
            have success : reply.success = true := by simpa using success
            simp only [bind_eq_ok] at answered
            obtain ⟨_, _, counted⟩ := answered
            apply Or.inr
            apply Or.inr
            refine ⟨leads, by omega, success, ?_⟩
            split at counted
            · simp only [bind_eq_ok] at counted
              obtain ⟨_, _, final⟩ := counted
              cases final
              split
              · exact ⟨rfl, rfl⟩
              · exact ⟨rfl, rfl⟩
            · cases counted
              exact ⟨rfl, rfl⟩

/-- What the processing of an `InstallSnapshot` response does to the two
arrays. -/
theorem leaderSendSnapShot_arrays (rf : Raft n) (server : Fin n) (args : InstallSnapshotRequest)
    (reply : InstallSnapshotResponse) :
    (rf.leaderSendSnapShot server args reply).nextIndex = rf.nextIndex ∧
      (rf.leaderSendSnapShot server args reply).matchIndex = rf.matchIndex ∨
    rf.status = .leader ∧ rf.currentTerm = args.term ∧ reply.term ≤ rf.currentTerm ∧
      (rf.leaderSendSnapShot server args reply).matchIndex =
        Function.update rf.matchIndex server args.lastSnapShotIncludeIndex ∧
      (rf.leaderSendSnapShot server args reply).nextIndex =
        Function.update rf.nextIndex server (args.lastSnapShotIncludeIndex + 1) := by
  unfold leaderSendSnapShot
  split
  · exact Or.inl ⟨rfl, rfl⟩
  · rename_i current
    rw [not_or, not_not, not_not] at current
    split
    · exact Or.inl ⟨rfl, rfl⟩
    · exact Or.inr ⟨current.1, current.2, by omega, rfl, rfl⟩

/-- The two arrays are unchanged. -/
structure SameArrays (rf rf' : Raft n) : Prop where
  nextIndex : rf'.nextIndex = rf.nextIndex
  matchIndex : rf'.matchIndex = rf.matchIndex

theorem sameArrays_meetTerm (rf : Raft n) (term : Int) : SameArrays rf (rf.meetTerm term) := by
  unfold meetTerm
  split
  · exact ⟨rfl, rfl⟩
  · exact ⟨rfl, rfl⟩

theorem sameArrays_snapshotTerm (rf : Raft n) (term : Int) :
    SameArrays rf (rf.snapshotTerm term) := by
  unfold snapshotTerm
  split
  · exact ⟨rfl, rfl⟩
  · exact ⟨rfl, rfl⟩

theorem sameArrays_appendEntries1 {args : AppendEntriesArgs} {reply : AppendEntriesReply}
    (handled : rf.appendEntries1 args = .ok (rf', reply)) : SameArrays rf rf' := by
  have same := rf.sameArrays_meetTerm args.term
  rcases appendEntries1_cases handled with ⟨_, rfl, _⟩ | ⟨_, rfl, _⟩ |
    ⟨_, _, _, _, stored, looped, rfl⟩
  · exact ⟨rfl, rfl⟩
  · exact { same with }
  · obtain ⟨commitIndex, raised⟩ := stored.followCommit_eq args.leaderCommit
    rw [raised, appendEntriesLoop_eq looped]
    exact { same with }

theorem sameArrays_requestVote {args : RequestVoteArgs} {reply : RequestVoteReply}
    (handled : rf.requestVote args = .ok (rf', reply)) : SameArrays rf rf' := by
  have same := rf.sameArrays_meetTerm args.term
  rcases requestVote_cases handled with ⟨_, rfl, _⟩ | ⟨_, rfl, _⟩ | ⟨_, _, _, _, _, rfl⟩
  · exact ⟨rfl, rfl⟩
  · exact { same with }
  · exact { same with }

theorem sameArrays_installSnapshot {args : InstallSnapshotRequest}
    {response : InstallSnapshotResponse} {msg : Option ApplyMsg}
    (handled : rf.installSnapshot args = .ok (rf', response, msg)) : SameArrays rf rf' := by
  have same := rf.sameArrays_snapshotTerm args.term
  rcases installSnapshot_cases handled with ⟨_, rfl, _⟩ | ⟨_, _, rfl, _⟩ |
    ⟨_, _, ⟨_, _, rfl⟩, _⟩
  · exact ⟨rfl, rfl⟩
  · exact same
  · exact { same with }

theorem sameArrays_startConses (rf : Raft n) (command : Bytes) :
    SameArrays rf (rf.startConses command).1 := by
  rcases rf.startConses_cases command with ⟨_, idle⟩ | ⟨_, appended⟩
  · rw [idle]
    exact ⟨rfl, rfl⟩
  · rw [appended]
    exact ⟨rfl, rfl⟩

theorem sameArrays_snapshot {index : Int} {data : Bytes}
    (taken : rf.snapshot index data = .ok rf') : SameArrays rf rf' := by
  rcases snapshot_cases taken with rfl | ⟨_, _, _, _, _, _, rfl⟩
  · exact ⟨rfl, rfl⟩
  · exact ⟨rfl, rfl⟩

theorem sameArrays_getApplyLogs {applyMsgs : List ApplyMsg}
    (collected : rf.getApplyLogs = .ok (rf', applyMsgs)) : SameArrays rf rf' := by
  rw [getApplyLogs_eq collected]
  exact ⟨rfl, rfl⟩

end Raft

end CppRaft.RaftCore
