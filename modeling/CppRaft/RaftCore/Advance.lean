import CppRaft.RaftCore.Applied
import CppRaft.RaftCore.Overlay

/-!
# Every critical section advances the node

For each function of the node: it keeps the entries in their places and moves
the counters forward only.
-/

namespace CppRaft.RaftCore.Raft

open CppRaft.Store

variable {n : Nat} {rf rf' : Raft n}

/-! ## What leaves the log alone -/

theorem keeps_persist (rf : Raft n) : Keeps rf rf.persist :=
  { Keeps.refl rf with }

theorem keeps_adoptTerm (rf : Raft n) {term : Int} (later : rf.currentTerm < term) :
    Keeps rf (rf.adoptTerm term) :=
  { Keeps.refl rf with term := later.le }

theorem keeps_meetTerm (rf : Raft n) {term : Int} (notOutdated : rf.currentTerm ≤ term) :
    Keeps rf (rf.meetTerm term) := by
  rcases rf.meetTerm_eq_or notOutdated with ⟨same, _⟩ | ⟨adopted, later⟩
  · rw [same]
    exact Keeps.refl rf
  · rw [adopted]
    exact rf.keeps_adoptTerm later

theorem keeps_followTerm (rf : Raft n) {term : Int} (notOutdated : rf.currentTerm ≤ term) :
    Keeps rf (rf.followTerm term) :=
  { rf.keeps_meetTerm notOutdated with }

theorem keeps_snapshotTerm (rf : Raft n) {term : Int} (notOutdated : rf.currentTerm ≤ term) :
    Keeps rf (rf.snapshotTerm term) := by
  rcases rf.snapshotTerm_eq_or notOutdated with ⟨same, _⟩ | ⟨adopted, later⟩
  · rw [same]
    exact { Keeps.refl rf with }
  · rw [adopted]
    exact { rf.keeps_adoptTerm later with }

theorem requestVote_keeps {args : RequestVoteArgs} {reply : RequestVoteReply}
    (handled : rf.requestVote args = .ok (rf', reply)) : Keeps rf rf' := by
  rcases requestVote_cases handled with ⟨_, rfl, _⟩ | ⟨notOutdated, rfl, _⟩ |
    ⟨notOutdated, _, _, _, _, rfl⟩
  · exact keeps_persist rf
  · exact (rf.keeps_meetTerm notOutdated).trans (keeps_persist _)
  · exact { rf.keeps_meetTerm notOutdated with }

theorem doElection_keeps (rf : Raft n) : Keeps rf rf.doElection.1 := by
  rcases rf.doElection_cases with ⟨_, idle⟩ | ⟨_, stands⟩
  · rw [idle]
    exact Keeps.refl rf
  · rw [stands]
    exact { Keeps.refl rf with term := (Int.lt_succ _).le }

theorem sendRequestVote_keeps {reply : RequestVoteReply} {votedNum : Int}
    {outcome : VoteOutcome n} (processed : rf.sendRequestVote reply votedNum = .ok outcome) :
    Keeps rf outcome.rf := by
  rcases sendRequestVote_cases processed with ⟨later, rfl⟩ | ⟨_, rfl⟩ | ⟨_, _, rfl⟩ |
    ⟨_, _, _, _, rfl⟩
  · exact (rf.keeps_adoptTerm later).trans (keeps_persist _)
  · exact Keeps.refl rf
  · exact Keeps.refl rf
  · exact { Keeps.refl rf with }

theorem snapshotArgs_keeps (rf : Raft n) : Keeps rf rf.snapshotArgs.1 :=
  { Keeps.refl rf with }

theorem leaderSendSnapShot_keeps (rf : Raft n) (server : Fin n) (args : InstallSnapshotRequest)
    (reply : InstallSnapshotResponse) : Keeps rf (rf.leaderSendSnapShot server args reply) := by
  rcases rf.leaderSendSnapShot_cases server args reply with ⟨later, adopted⟩ | ⟨_, _, moved⟩
  · rw [adopted]
    exact (rf.keeps_adoptTerm later).trans (keeps_persist _)
  · rw [moved]
    exact { Keeps.refl rf with }

/-! ## A longer log -/

/-- Replacing the log by one that is at least as long and numbered as well. -/
theorem Placed.withLogs (placed : rf.Placed) {logs : List LogEntry}
    (numbered : NumberedFrom (rf.lastSnapshotIncludeIndex + 1) logs)
    (longer : rf.logs.length ≤ logs.length) : { rf with logs := logs }.Placed := by
  have last := placed.getLastLogIndex
  have last' : { rf with logs := logs }.getLastLogIndex =
      rf.lastSnapshotIncludeIndex + logs.length := getLastLogIndex_of_numbered numbered
  have stored := placed.stored
  exact
    { base := placed.base
      baseTerm := placed.baseTerm
      logs := numbered
      applied := placed.applied
      committed := placed.committed
      stored := by
        rw [last']
        change rf.commitIndex ≤ rf.lastSnapshotIncludeIndex + logs.length
        omega }

/-- The loop of `AppendEntries1`. -/
theorem appendEntriesLoop_placed {entries : List LogEntry} {next : Int} (placed : rf.Placed)
    (numbered : NumberedFrom next entries) (above : rf.lastSnapshotIncludeIndex < next)
    (reaches : next ≤ rf.getLastLogIndex + 1) (stored : rf.appendEntriesLoop entries = .ok rf') :
    rf'.Placed ∧ rf'.getLastLogIndex = max rf.getLastLogIndex (next + entries.length - 1) := by
  obtain ⟨start, rfl, inside⟩ := exists_position placed.logs above reaches
  have laid := appendEntriesLoop_overlay placed.logs inside numbered stored
  subst laid
  have length : (overlay rf.logs start entries).length =
      max rf.logs.length (start + entries.length) := length_overlay inside
  constructor
  · exact placed.withLogs (overlay_contiguous placed.logs inside numbered)
      (length ▸ Nat.le_max_left _ _)
  · rw [overlay_getLastLogIndex placed.logs inside numbered]
    omega

/-- The log keeps what stands before the entries of the request, and has the
entries of the request at their indexes. -/
theorem appendEntriesLoop_holds {entries : List LogEntry} {next : Int} (placed : rf.Placed)
    (numbered : NumberedFrom next entries) (above : rf.lastSnapshotIncludeIndex < next)
    (reaches : next ≤ rf.getLastLogIndex + 1) (stored : rf.appendEntriesLoop entries = .ok rf') :
    (∀ entry ∈ rf'.logs, entry ∈ rf.logs ∨ entry ∈ entries) ∧ ∀ log ∈ entries, log ∈ rf'.logs := by
  obtain ⟨start, rfl, inside⟩ := exists_position placed.logs above reaches
  have laid := appendEntriesLoop_overlay placed.logs inside numbered stored
  subst laid
  constructor
  · intro entry member
    exact mem_overlay member
  · intro log member
    exact List.mem_append_left _ (List.mem_append_right _ member)

/-! ## The handlers -/

theorem followCommit_stored (stored : rf.commitIndex ≤ rf.getLastLogIndex) (leaderCommit : Int) :
    (rf.followCommit leaderCommit).commitIndex ≤
      (rf.followCommit leaderCommit).getLastLogIndex := by
  unfold followCommit
  split
  · exact min_le_right _ _
  · exact stored

/-- A follower takes over a commit index up to the end of its log. -/
theorem followCommit_placed (placed : rf.Placed) (leaderCommit : Int) :
    (rf.followCommit leaderCommit).Placed ∧
      rf.commitIndex ≤ (rf.followCommit leaderCommit).commitIndex := by
  have stored := placed.stored
  have committed := placed.committed
  unfold followCommit
  split
  · constructor
    · exact
        { base := placed.base
          baseTerm := placed.baseTerm
          logs := placed.logs
          applied := placed.applied
          committed := committed.trans (le_min (by omega) stored)
          stored := min_le_right _ _ }
    · exact le_min (by omega) stored
  · exact ⟨placed, le_rfl⟩

theorem followCommit_eq (rf : Raft n) (leaderCommit : Int) :
    ∃ commitIndex, rf.followCommit leaderCommit = { rf with commitIndex := commitIndex } := by
  unfold followCommit
  split
  · exact ⟨_, rfl⟩
  · exact ⟨rf.commitIndex, rfl⟩

theorem matchLog_range {index term : Int} {matched : Bool}
    (previous : rf.matchLog index term = .ok matched) :
    rf.lastSnapshotIncludeIndex ≤ index ∧ index ≤ rf.getLastLogIndex := by
  simp only [matchLog, bind_eq_ok, myAssert_eq_ok] at previous
  obtain ⟨_, range, _⟩ := previous
  exact range

/-- A success of `AppendEntries1` in full: the previous entry matched, and the
log now ends at the last entry of the request or behind it. -/
theorem appendEntries1_stored {args : AppendEntriesArgs} (placed : rf.Placed)
    (numbered : args.Numbered) (notOutdated : rf.currentTerm ≤ args.term)
    (previous : (rf.followTerm args.term).matchLog args.prevLogIndex args.prevLogTerm = .ok true)
    {stored : Raft n}
    (looped : (rf.followTerm args.term).appendEntriesLoop args.entries = .ok stored) :
    stored.Placed ∧
      stored.getLastLogIndex =
        max rf.getLastLogIndex (args.prevLogIndex + args.entries.length) := by
  have keeps := rf.keeps_followTerm notOutdated
  have range := matchLog_range previous
  obtain ⟨placed', last⟩ := appendEntriesLoop_placed (keeps.placed placed) numbered
    (by omega) (by omega) looped
  rw [keeps.getLastLogIndex] at last
  exact ⟨placed', by omega⟩

theorem appendEntries1_placed {args : AppendEntriesArgs} {reply : AppendEntriesReply}
    (placed : rf.Placed) (numbered : args.Numbered)
    (handled : rf.appendEntries1 args = .ok (rf', reply)) : rf'.Placed ∧ Advances rf rf' := by
  rcases appendEntries1_cases handled with ⟨_, rfl, _⟩ | ⟨notOutdated, rfl, _⟩ |
    ⟨notOutdated, _, _, previous, stored, looped, rfl⟩
  · exact ⟨placed, Advances.refl _⟩
  · have keeps := (rf.keeps_followTerm notOutdated).trans (keeps_persist _)
    exact ⟨keeps.placed placed, keeps.advances⟩
  · obtain ⟨placed', last⟩ := appendEntries1_stored placed numbered notOutdated previous looped
    obtain ⟨placedAfter, later⟩ := followCommit_placed placed' args.leaderCommit
    obtain ⟨commitIndex, raised⟩ := stored.followCommit_eq args.leaderCommit
    have keeps := rf.keeps_followTerm notOutdated
    have sameRest := appendEntriesLoop_eq looped
    constructor
    · exact (keeps_persist _).placed placedAfter
    · rw [raised] at later ⊢
      rw [sameRest] at later ⊢
      exact
        { term := keeps.term
          snapshot := keeps.index.ge
          applied := keeps.applied.ge
          committed := keeps.committed.ge.trans later
          last := by
            change rf.getLastLogIndex ≤
              { rf.followTerm args.term with logs := stored.logs }.getLastLogIndex
            rw [← sameRest, last]
            exact le_max_left _ _ }

/-- The log of `InstallSnapshot` after the erasure. -/
theorem cutLogs_numbered {index : Int} {logs : List LogEntry} (placed : rf.Placed)
    (newer : rf.lastSnapshotIncludeIndex < index) (cut : rf.cutLogs index = .ok logs) :
    NumberedFrom (index + 1) logs ∧ (∀ entry ∈ logs, entry ∈ rf.logs) ∧
      index + logs.length = max rf.getLastLogIndex index := by
  have last := placed.getLastLogIndex
  rcases cutLogs_cases cut with ⟨covered, rfl⟩ | ⟨longer, _, rfl⟩
  · refine ⟨trivial, by simp, ?_⟩
    rw [List.length_nil]
    omega
  · refine ⟨?_, fun entry member => List.mem_of_mem_drop member, ?_⟩
    · have numbered :=
        placed.logs.drop ((index - rf.lastSnapshotIncludeIndex - 1).toNat + 1)
      rwa [show rf.lastSnapshotIncludeIndex + 1 +
        (((index - rf.lastSnapshotIncludeIndex - 1).toNat + 1 : Nat) : Int) = index + 1 by
          omega] at numbered
    · rw [List.length_drop]
      omega

theorem installSnapshot_placed {args : InstallSnapshotRequest}
    {response : InstallSnapshotResponse} {msg : Option ApplyMsg} (placed : rf.Placed)
    (handled : rf.installSnapshot args = .ok (rf', response, msg)) :
    rf'.Placed ∧ Advances rf rf' := by
  rcases installSnapshot_cases handled with ⟨_, rfl, _⟩ | ⟨notOutdated, _, rfl, _⟩ |
    ⟨notOutdated, newer, ⟨logs, cut, rfl⟩, _⟩
  · exact ⟨placed, Advances.refl _⟩
  · have keeps := rf.keeps_snapshotTerm notOutdated
    exact ⟨keeps.placed placed, keeps.advances⟩
  · have keeps := rf.keeps_snapshotTerm notOutdated
    obtain ⟨numbered, _, length⟩ := cutLogs_numbered placed newer cut
    have last : (((rf.snapshotTerm args.term).withSnapshot args logs).save
        args.data).getLastLogIndex = args.lastSnapShotIncludeIndex + logs.length :=
      getLastLogIndex_of_numbered numbered
    rw [length] at last
    have base := placed.base
    have committed := placed.committed
    have stored := placed.stored
    have applied := placed.applied
    constructor
    · exact
        { base := base.trans newer.le
          baseTerm := fun zero => by
            change args.lastSnapShotIncludeIndex = 0 at zero
            omega
          logs := numbered
          applied := le_max_right _ _
          committed := by
            change max (rf.snapshotTerm args.term).lastApplied args.lastSnapShotIncludeIndex ≤
              max (rf.snapshotTerm args.term).commitIndex args.lastSnapShotIncludeIndex
            rw [keeps.applied, keeps.committed]
            omega
          stored := by
            rw [last]
            change max (rf.snapshotTerm args.term).commitIndex args.lastSnapShotIncludeIndex ≤ _
            rw [keeps.committed]
            omega }
    · exact
        { term := keeps.term
          snapshot := newer.le
          applied := keeps.applied.ge.trans (le_max_left _ _)
          committed := keeps.committed.ge.trans (le_max_left _ _)
          last := by
            rw [last]
            exact le_max_left _ _ }

/-! ## Replies, commands and snapshots -/

theorem sendAppendEntries_placed {server : Fin n} {args : AppendEntriesArgs}
    {reply : AppendEntriesReply} {appendNums appendNums' : Int} (placed : rf.Placed)
    (processed : rf.sendAppendEntries server args reply appendNums = .ok (rf', appendNums')) :
    rf'.Placed ∧ Advances rf rf' := by
  rcases sendAppendEntries_cases processed with ⟨_, later, rfl, _⟩ | ⟨_, nextIndex, rfl⟩ |
    ⟨_, _, _, nextIndex, matchIndex, commitIndex, rfl, raised⟩
  · have keeps := rf.keeps_adoptTerm later
    exact ⟨keeps.placed placed, keeps.advances⟩
  · have keeps : Keeps rf { rf with nextIndex := nextIndex } := { Keeps.refl rf with }
    exact ⟨keeps.placed placed, keeps.advances⟩
  · have range : rf.commitIndex ≤ commitIndex ∧ commitIndex ≤ rf.getLastLogIndex := by
      have stored := placed.stored
      rcases raised with ⟨_, same⟩ | ⟨_, _, bounded, same | ⟨_, same⟩⟩
      · omega
      · omega
      · exact ⟨by omega, bounded⟩
    constructor
    · exact
        { base := placed.base
          baseTerm := placed.baseTerm
          logs := placed.logs
          applied := placed.applied
          committed := placed.committed.trans range.1
          stored := range.2 }
    · exact { Advances.refl rf with committed := range.1 }

theorem startConses_placed (placed : rf.Placed) (command : Bytes) :
    (rf.startConses command).1.Placed ∧ Advances rf (rf.startConses command).1 := by
  rcases rf.startConses_cases command with ⟨_, idle⟩ | ⟨_, appended⟩
  · rw [idle]
    exact ⟨placed, Advances.refl rf⟩
  · rw [appended]
    have last := placed.getLastLogIndex
    have numbered : NumberedFrom (rf.lastSnapshotIncludeIndex + 1)
        (rf.logs ++ [rf.newLogEntry command]) := by
      apply placed.logs.append
      constructor
      · change rf.getLastLogIndex + 1 = _
        omega
      · trivial
    have placed' := placed.withLogs numbered (by simp)
    constructor
    · exact (keeps_persist _).placed placed'
    · have last' := placed'.getLastLogIndex
      simp only [List.length_append, List.length_singleton] at last'
      push_cast at last'
      exact
        { Advances.refl rf with
          last := by
            change _ ≤ { rf with logs := rf.logs ++ [rf.newLogEntry command] }.getLastLogIndex
            omega }

/-- The entries that `Snapshot` collects one by one. -/
theorem collectLogs_eq {index : Int} {count : Nat} {logs : List LogEntry}
    (collected : rf.collectLogs index count = .ok logs) :
    logs.length = count ∧
      ∀ (k : Nat) (entry : LogEntry), logs[k]? = some entry →
        rf.logAtIndex (index + k) = .ok entry := by
  induction count generalizing index logs with
  | zero =>
      cases collected
      simp
  | succ count ih =>
      simp only [collectLogs, bind_eq_ok] at collected
      obtain ⟨first, found, rest, later, final⟩ := collected
      cases final
      obtain ⟨length, access⟩ := ih later
      refine ⟨by rw [List.length_cons, length], ?_⟩
      intro k entry here
      cases k with
      | zero =>
          rw [List.getElem?_cons_zero, Option.some.injEq] at here
          simpa [← here] using found
      | succ k =>
          have found' := access k entry here
          push_cast
          rwa [show index + ((k : Int) + 1) = index + 1 + (k : Int) by omega]

theorem snapshot_placed {index : Int} {data : Bytes} (placed : rf.Placed)
    (taken : rf.snapshot index data = .ok rf') :
    rf'.Placed ∧ Advances rf rf' ∧ ∀ entry ∈ rf'.logs, entry ∈ rf.logs := by
  rcases snapshot_cases taken with rfl | ⟨above, below, entry, logs, found, collected, rfl⟩
  · exact ⟨placed, Advances.refl _, fun entry member => member⟩
  · have stored := placed.stored
    have committed := placed.committed
    have applied := placed.applied
    obtain ⟨length, access⟩ := collectLogs_eq collected
    have numbered : NumberedFrom (index + 1) logs := by
      apply numberedFrom_iff.mpr
      intro k entry' here
      exact (placed.mem_of_logAtIndex (access k entry' here)).2
    have last : ((rf.compacted index entry.logTerm logs).save data).getLastLogIndex =
        index + logs.length := getLastLogIndex_of_numbered numbered
    rw [length] at last
    refine ⟨?_, ?_, ?_⟩
    · exact
        { base := placed.base.trans above.le
          baseTerm := fun zero => by
            change index = 0 at zero
            have base := placed.base
            omega
          logs := numbered
          applied := le_max_right _ _
          committed := by
            change max rf.lastApplied index ≤ max rf.commitIndex index
            omega
          stored := by
            rw [last]
            change max rf.commitIndex index ≤ _
            omega }
    · exact
        { term := le_rfl
          snapshot := above.le
          applied := le_max_left _ _
          committed := le_max_left _ _
          last := by omega }
    · intro entry' member
      obtain ⟨k, here⟩ := List.mem_iff_getElem?.mp member
      exact (placed.mem_of_logAtIndex (access k entry' here)).1

theorem getApplyLogs_placed {applyMsgs : List ApplyMsg} (placed : rf.Placed)
    (collected : rf.getApplyLogs = .ok (rf', applyMsgs)) :
    rf'.Placed ∧ Advances rf rf' ∧ rf'.logs = rf.logs ∧ rf'.lastApplied = rf.commitIndex := by
  unfold Raft.getApplyLogs at collected
  simp only [bind_eq_ok] at collected
  obtain ⟨_, _, applied⟩ := collected
  obtain ⟨_, moved, _⟩ := applyLoop_emits applied
  have committed := placed.committed
  have last : rf'.lastApplied = rf.commitIndex := by omega
  have same := applyLoop_eq applied
  rw [last] at same
  rw [same]
  refine ⟨?_, ?_, rfl, rfl⟩
  · exact
      { base := placed.base
        baseTerm := placed.baseTerm
        logs := placed.logs
        applied := placed.applied.trans committed
        committed := le_rfl
        stored := placed.stored }
  · exact { Advances.refl rf with applied := committed }

end CppRaft.RaftCore.Raft
