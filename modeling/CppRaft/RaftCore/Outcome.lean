import CppRaft.RaftCore.Receiver
import CppRaft.RaftCore.Sender

/-!
# What a critical section of a Raft node can do

For each function of the node one lemma lists the states in which it releases
the mutex, with the checks that it passed on the way.
-/

namespace CppRaft.RaftCore

open CppRaft.Store

namespace Raft

variable {n : Nat}

/-! ## Meeting the term of a message -/

/-- The node after it has compared its term with that of a message. -/
def meetTerm (rf : Raft n) (term : Int) : Raft n :=
  if term > rf.currentTerm then rf.adoptTerm term else rf

/-- The node as the follower of the sender of a message. -/
def followTerm (rf : Raft n) (term : Int) : Raft n :=
  { rf.meetTerm term with status := .follower }

theorem meetTerm_eq_or (rf : Raft n) {term : Int} (notOutdated : rf.currentTerm ≤ term) :
    rf.meetTerm term = rf ∧ rf.currentTerm = term ∨
      rf.meetTerm term = rf.adoptTerm term ∧ rf.currentTerm < term := by
  unfold meetTerm
  split
  · exact Or.inr ⟨rfl, by assumption⟩
  · exact Or.inl ⟨rfl, by omega⟩

theorem meetTerm_currentTerm (rf : Raft n) {term : Int} (notOutdated : rf.currentTerm ≤ term) :
    (rf.meetTerm term).currentTerm = term := by
  rcases rf.meetTerm_eq_or notOutdated with ⟨same, equal⟩ | ⟨adopted, _⟩
  · rw [same, equal]
  · rw [adopted]
    rfl

theorem followTerm_currentTerm (rf : Raft n) {term : Int} (notOutdated : rf.currentTerm ≤ term) :
    (rf.followTerm term).currentTerm = term :=
  rf.meetTerm_currentTerm notOutdated

/-! ## AppendEntries -/

theorem appendEntry_eq {rf rf' : Raft n} {log : LogEntry}
    (stored : rf.appendEntry log = .ok rf') : rf' = { rf with logs := rf'.logs } := by
  unfold appendEntry at stored
  split at stored
  · cases stored
    rfl
  · simp only [bind_eq_ok] at stored
    obtain ⟨slice, _, old, _, _, _, final⟩ := stored
    split at final
    · cases final
      rfl
    · cases final
      rfl

/-- The loop over the entries changes nothing but the log. -/
theorem appendEntriesLoop_eq {rf rf' : Raft n} {entries : List LogEntry}
    (stored : rf.appendEntriesLoop entries = .ok rf') : rf' = { rf with logs := rf'.logs } := by
  induction entries generalizing rf with
  | nil =>
      cases stored
      rfl
  | cons log rest ih =>
      simp only [appendEntriesLoop, bind_eq_ok] at stored
      obtain ⟨middle, first, later⟩ := stored
      rw [ih later, appendEntry_eq first]

/-- The commit index that a follower takes over from the leader. -/
def followCommit (rf : Raft n) (leaderCommit : Int) : Raft n :=
  if leaderCommit > rf.commitIndex then
    { rf with commitIndex := min leaderCommit rf.getLastLogIndex }
  else rf

theorem acceptEntries_eq {rf rf' : Raft n} {args : AppendEntriesArgs}
    {reply reply' : AppendEntriesReply}
    (accepted : rf.acceptEntries args reply = .ok (rf', reply')) :
    ∃ stored, rf.appendEntriesLoop args.entries = .ok stored ∧
      rf' = (stored.followCommit args.leaderCommit).persist ∧
      reply'.success = true ∧ reply'.term = rf.currentTerm := by
  simp only [acceptEntries, bind_eq_ok] at accepted
  obtain ⟨stored, looped, _, _, _, _, final⟩ := accepted
  cases final
  refine ⟨stored, looped, rfl, rfl, ?_⟩
  rw [appendEntriesLoop_eq looped]
  split <;> rfl

theorem rejectEntries_eq {rf rf' : Raft n} {args : AppendEntriesArgs}
    {reply reply' : AppendEntriesReply}
    (rejected : rf.rejectEntries args reply = .ok (rf', reply')) :
    rf' = rf.persist ∧ reply'.success = false := by
  simp only [rejectEntries, bind_eq_ok] at rejected
  obtain ⟨_, _, final⟩ := rejected
  cases final
  exact ⟨rfl, rfl⟩

theorem appendEntries1_outdated {rf : Raft n} {args : AppendEntriesArgs}
    (outdated : args.term < rf.currentTerm) :
    rf.appendEntries1 args =
      .ok (rf, {
        appState := AppNormal
        success := false
        term := rf.currentTerm
        updateNextIndex := -100 }) := by
  unfold appendEntries1
  rw [if_pos outdated]
  rfl

/-- The term of a request that is not outdated is adopted, so the assertion
behind it holds. -/
theorem appendEntries1_of_le {rf : Raft n} {args : AppendEntriesArgs}
    (notOutdated : rf.currentTerm ≤ args.term) :
    rf.appendEntries1 args =
      (rf.followTerm args.term).checkEntries args { appState := AppNormal } := by
  have adopted : myAssert (args.term = (rf.meetTerm args.term).currentTerm) .termNotAdopted =
      .ok () := myAssert_eq_ok.mpr (rf.meetTerm_currentTerm notOutdated).symm
  unfold appendEntries1
  rw [if_neg (by omega)]
  change (myAssert (args.term = (rf.meetTerm args.term).currentTerm) .termNotAdopted >>=
    fun _ => (rf.followTerm args.term).checkEntries args _) = _
  rw [adopted]
  rfl

/-- The releases of `AppendEntries1`: an outdated request changes nothing, a
refused one changes term, vote and status, and an accepted one also stores the
entries and takes over the commit index. -/
theorem appendEntries1_cases {rf rf' : Raft n} {args : AppendEntriesArgs}
    {reply : AppendEntriesReply} (handled : rf.appendEntries1 args = .ok (rf', reply)) :
    args.term < rf.currentTerm ∧ rf' = rf ∧ reply.success = false ∨
    rf.currentTerm ≤ args.term ∧ rf' = (rf.followTerm args.term).persist ∧
      reply.success = false ∨
    rf.currentTerm ≤ args.term ∧ reply.success = true ∧ reply.term = args.term ∧
      (rf.followTerm args.term).matchLog args.prevLogIndex args.prevLogTerm = .ok true ∧
      ∃ stored, (rf.followTerm args.term).appendEntriesLoop args.entries = .ok stored ∧
        rf' = (stored.followCommit args.leaderCommit).persist := by
  rcases Int.lt_or_le args.term rf.currentTerm with outdated | notOutdated
  · rw [appendEntries1_outdated outdated] at handled
    cases handled
    exact Or.inl ⟨outdated, rfl, rfl⟩
  · rw [appendEntries1_of_le notOutdated, checkEntries] at handled
    split at handled
    · cases handled
      exact Or.inr (Or.inl ⟨notOutdated, rfl, rfl⟩)
    · simp only [bind_eq_ok] at handled
      obtain ⟨matched, previous, final⟩ := handled
      cases matched with
      | false =>
          obtain ⟨same, refused⟩ := rejectEntries_eq final
          exact Or.inr (Or.inl ⟨notOutdated, same, refused⟩)
      | true =>
          obtain ⟨stored, looped, same, success, replyTerm⟩ := acceptEntries_eq final
          rw [rf.followTerm_currentTerm notOutdated] at replyTerm
          exact Or.inr (Or.inr ⟨notOutdated, success, replyTerm, previous, stored, looped, same⟩)

/-- A node that leads after `AppendEntries1` has ignored the request. -/
theorem appendEntries1_leading {rf rf' : Raft n} {args : AppendEntriesArgs}
    {reply : AppendEntriesReply} (handled : rf.appendEntries1 args = .ok (rf', reply))
    (leads' : rf'.status = .leader) : rf' = rf := by
  rcases appendEntries1_cases handled with ⟨_, same, _⟩ | ⟨_, rfl, _⟩ |
    ⟨_, _, _, _, stored, looped, rfl⟩
  · exact same
  · cases leads'
  · have follows : (stored.followCommit args.leaderCommit).status = .follower := by
      unfold followCommit
      rw [appendEntriesLoop_eq looped]
      split
      · rfl
      · rfl
    change (stored.followCommit args.leaderCommit).status = .leader at leads'
    rw [follows] at leads'
    cases leads'

/-! ## RequestVote -/

theorem requestVote_outdated {rf : Raft n} {args : RequestVoteArgs}
    (outdated : args.term < rf.currentTerm) :
    rf.requestVote args =
      .ok (rf.persist, {
        term := rf.currentTerm
        voteState := Expire
        voteGranted := false }) := by
  unfold requestVote
  rw [if_pos outdated]
  rfl

/-- The vote on a request that is not outdated, in its term. -/
theorem requestVote_of_le {rf : Raft n} {args : RequestVoteArgs}
    (notOutdated : rf.currentTerm ≤ args.term) :
    rf.requestVote args =
      let met := rf.meetTerm args.term
      if ¬ met.upToDate args.lastLogIndex args.lastLogTerm then
        .ok (met.persist, { term := met.currentTerm, voteState := Voted, voteGranted := false })
      else if met.votedFor ≠ -1 ∧ met.votedFor ≠ args.candidateId then
        .ok (met.persist, { term := met.currentTerm, voteState := Voted, voteGranted := false })
      else
        .ok ({ met with votedFor := args.candidateId }.persist, {
          term := met.currentTerm
          voteState := Normal
          voteGranted := true }) := by
  have adopted : myAssert (args.term = (rf.meetTerm args.term).currentTerm) .voteTermNotAdopted =
      .ok () := myAssert_eq_ok.mpr (rf.meetTerm_currentTerm notOutdated).symm
  unfold requestVote
  rw [if_neg (by omega)]
  change (myAssert (args.term = (rf.meetTerm args.term).currentTerm) .voteTermNotAdopted >>=
    fun _ => _) = _
  rw [adopted]
  rfl

/-- The releases of `RequestVote`: an outdated request changes nothing, a
refused one changes only the term, and a granted one gives the vote. -/
theorem requestVote_cases {rf rf' : Raft n} {args : RequestVoteArgs} {reply : RequestVoteReply}
    (handled : rf.requestVote args = .ok (rf', reply)) :
    args.term < rf.currentTerm ∧ rf' = rf.persist ∧ reply.voteGranted = false ∨
    rf.currentTerm ≤ args.term ∧ rf' = (rf.meetTerm args.term).persist ∧
      reply.voteGranted = false ∨
    rf.currentTerm ≤ args.term ∧ reply.voteGranted = true ∧ reply.term = args.term ∧
      (rf.meetTerm args.term).upToDate args.lastLogIndex args.lastLogTerm = true ∧
      ((rf.meetTerm args.term).votedFor = -1 ∨
        (rf.meetTerm args.term).votedFor = args.candidateId) ∧
      rf' = { rf.meetTerm args.term with votedFor := args.candidateId }.persist := by
  rcases Int.lt_or_le args.term rf.currentTerm with outdated | notOutdated
  · rw [requestVote_outdated outdated] at handled
    cases handled
    exact Or.inl ⟨outdated, rfl, rfl⟩
  · have sameTerm := rf.meetTerm_currentTerm notOutdated
    rw [requestVote_of_le notOutdated] at handled
    dsimp only at handled
    split at handled
    · cases handled
      exact Or.inr (Or.inl ⟨notOutdated, rfl, rfl⟩)
    · rename_i upToDate
      split at handled
      · cases handled
        exact Or.inr (Or.inl ⟨notOutdated, rfl, rfl⟩)
      · rename_i unspent
        cases handled
        refine Or.inr (Or.inr ⟨notOutdated, rfl, sameTerm, by simpa using upToDate, ?_, rfl⟩)
        by_contra spent
        rw [not_or] at spent
        exact unspent spent

/-! ## InstallSnapshot -/

/-- The node of `InstallSnapshot` after it has met the term; a larger term is
persisted at once. -/
def snapshotTerm (rf : Raft n) (term : Int) : Raft n :=
  { (if term > rf.currentTerm then (rf.adoptTerm term).persist else rf) with status := .follower }

/-- The node with a snapshot up to `args.lastSnapShotIncludeIndex` and the log
`logs` after it. -/
def withSnapshot (rf : Raft n) (args : InstallSnapshotRequest) (logs : List LogEntry) : Raft n :=
  { rf with
    logs := logs
    commitIndex := max rf.commitIndex args.lastSnapShotIncludeIndex
    lastApplied := max rf.lastApplied args.lastSnapShotIncludeIndex
    lastSnapshotIncludeIndex := args.lastSnapShotIncludeIndex
    lastSnapshotIncludeTerm := args.lastSnapShotIncludeTerm }

theorem cutLogs_cases {rf : Raft n} {index : Int} {logs : List LogEntry}
    (cut : rf.cutLogs index = .ok logs) :
    rf.getLastLogIndex ≤ index ∧ logs = [] ∨
      index < rf.getLastLogIndex ∧ rf.lastSnapshotIncludeIndex < index ∧
        logs = rf.logs.drop ((index - rf.lastSnapshotIncludeIndex - 1).toNat + 1) := by
  unfold cutLogs at cut
  split at cut
  · rename_i longer
    simp only [getSlicesIndexFromLogIndex, bind_eq_ok, myAssert_eq_ok, pure_eq_ok] at cut
    obtain ⟨slice, ⟨_, above, _, _, rfl⟩, final⟩ := cut
    split at final
    · cases final
      exact Or.inr ⟨longer, above, rfl⟩
    · cases final
  · cases cut
    exact Or.inl ⟨by omega, rfl⟩

theorem snapshotTerm_eq_or (rf : Raft n) {term : Int} (notOutdated : rf.currentTerm ≤ term) :
    rf.snapshotTerm term = { rf with status := .follower } ∧ rf.currentTerm = term ∨
      rf.snapshotTerm term = (rf.adoptTerm term).persist ∧ rf.currentTerm < term := by
  unfold snapshotTerm
  split
  · exact Or.inr ⟨rfl, by assumption⟩
  · exact Or.inl ⟨rfl, by omega⟩

theorem snapshotTerm_currentTerm (rf : Raft n) {term : Int} (notOutdated : rf.currentTerm ≤ term) :
    (rf.snapshotTerm term).currentTerm = term := by
  rcases rf.snapshotTerm_eq_or notOutdated with ⟨same, equal⟩ | ⟨adopted, _⟩
  · rw [same, equal]
  · rw [adopted]
    rfl

theorem snapshotTerm_cutLogs (rf : Raft n) {term : Int} (notOutdated : rf.currentTerm ≤ term)
    (index : Int) : (rf.snapshotTerm term).cutLogs index = rf.cutLogs index := by
  rcases rf.snapshotTerm_eq_or notOutdated with ⟨same, _⟩ | ⟨adopted, _⟩
  · rw [same]
    rfl
  · rw [adopted]
    rfl

theorem snapshotTerm_lastSnapshotIncludeIndex (rf : Raft n) (term : Int) :
    (rf.snapshotTerm term).lastSnapshotIncludeIndex = rf.lastSnapshotIncludeIndex := by
  unfold snapshotTerm
  split <;> rfl

theorem installSnapshot_outdated {rf : Raft n} {args : InstallSnapshotRequest}
    (outdated : args.term < rf.currentTerm) :
    rf.installSnapshot args = .ok (rf, { term := rf.currentTerm }, none) := by
  unfold installSnapshot
  rw [if_pos outdated]
  rfl

/-- A snapshot of a request that is not outdated is new, or it only sets the term
and the status. -/
theorem installSnapshot_of_le {rf : Raft n} {args : InstallSnapshotRequest}
    (notOutdated : rf.currentTerm ≤ args.term) :
    rf.installSnapshot args =
      let met := rf.snapshotTerm args.term
      if args.lastSnapShotIncludeIndex ≤ met.lastSnapshotIncludeIndex then .ok (met, {}, none)
      else met.cutLogs args.lastSnapShotIncludeIndex >>= fun logs =>
        .ok ((met.withSnapshot args logs).save args.data, { term := met.currentTerm },
          some (snapshotMsg args)) := by
  unfold installSnapshot
  rw [if_neg (by omega)]
  rfl

/-- The releases of `InstallSnapshot`: an outdated request changes nothing, an
outdated snapshot only the term and the status, and a new snapshot replaces the
beginning of the log. -/
theorem installSnapshot_cases {rf rf' : Raft n} {args : InstallSnapshotRequest}
    {response : InstallSnapshotResponse} {msg : Option ApplyMsg}
    (handled : rf.installSnapshot args = .ok (rf', response, msg)) :
    args.term < rf.currentTerm ∧ rf' = rf ∧ msg = none ∨
    rf.currentTerm ≤ args.term ∧
      args.lastSnapShotIncludeIndex ≤ rf.lastSnapshotIncludeIndex ∧
      rf' = rf.snapshotTerm args.term ∧ msg = none ∨
    rf.currentTerm ≤ args.term ∧
      rf.lastSnapshotIncludeIndex < args.lastSnapShotIncludeIndex ∧
      (∃ logs, rf.cutLogs args.lastSnapShotIncludeIndex = .ok logs ∧
        rf' = ((rf.snapshotTerm args.term).withSnapshot args logs).save args.data) ∧
      msg = some (snapshotMsg args) := by
  rcases Int.lt_or_le args.term rf.currentTerm with outdated | notOutdated
  · rw [installSnapshot_outdated outdated] at handled
    cases handled
    exact Or.inl ⟨outdated, rfl, rfl⟩
  · have sameIndex := rf.snapshotTerm_lastSnapshotIncludeIndex args.term
    rw [installSnapshot_of_le notOutdated] at handled
    dsimp only at handled
    split at handled
    · cases handled
      refine Or.inr (Or.inl ⟨notOutdated, ?_, rfl, rfl⟩)
      rw [← sameIndex]
      assumption
    · rename_i newer
      rw [sameIndex] at newer
      simp only [bind_eq_ok] at handled
      obtain ⟨logs, cut, final⟩ := handled
      rw [rf.snapshotTerm_cutLogs notOutdated] at cut
      cases final
      exact Or.inr (Or.inr ⟨notOutdated, by omega, ⟨logs, cut, rfl⟩, rfl⟩)

/-- A node that leads after `InstallSnapshot` has ignored the request. -/
theorem installSnapshot_leading {rf rf' : Raft n} {args : InstallSnapshotRequest}
    {response : InstallSnapshotResponse} {msg : Option ApplyMsg}
    (handled : rf.installSnapshot args = .ok (rf', response, msg))
    (leads' : rf'.status = .leader) : rf' = rf := by
  rcases installSnapshot_cases handled with ⟨_, same, _⟩ | ⟨_, _, rfl, _⟩ | ⟨_, _, ⟨_, _, rfl⟩, _⟩
  · exact same
  · cases leads'
  · cases leads'

/-! ## Elections -/

/-- The node that stands for election. -/
def candidacy (rf : Raft n) : Raft n :=
  { rf with
    status := .candidate
    currentTerm := rf.currentTerm + 1
    votedFor := (rf.me : Int) }.persist

/-- `doElection` does nothing on a leader; any other node becomes a candidate
and asks for votes with the end of its log. -/
theorem doElection_cases (rf : Raft n) :
    rf.status = .leader ∧ rf.doElection = (rf, none) ∨
    rf.status ≠ .leader ∧ rf.doElection = (rf.candidacy, some
      { term := rf.currentTerm + 1
        candidateId := (rf.me : Int)
        lastLogIndex := rf.getLastLogIndexAndTerm.1
        lastLogTerm := rf.getLastLogIndexAndTerm.2 }) := by
  by_cases leads : rf.status = .leader
  · exact Or.inl ⟨leads, by simp [doElection, leads]⟩
  · refine Or.inr ⟨leads, ?_⟩
    simp only [doElection, leads, if_false]
    rfl

/-- The releases of `sendRequestVote`: a larger term is adopted, other replies
change nothing, a vote is counted, and the vote that completes a majority makes
the node leader. -/
theorem sendRequestVote_cases {rf : Raft n} {reply : RequestVoteReply} {votedNum : Int}
    {outcome : VoteOutcome n} (processed : rf.sendRequestVote reply votedNum = .ok outcome) :
    rf.currentTerm < reply.term ∧
      outcome = ⟨(rf.adoptTerm reply.term).persist, votedNum, false⟩ ∨
    reply.term ≤ rf.currentTerm ∧ outcome = ⟨rf, votedNum, false⟩ ∨
    reply.term = rf.currentTerm ∧ reply.voteGranted = true ∧
      outcome = ⟨rf, votedNum + 1, false⟩ ∨
    reply.term = rf.currentTerm ∧ reply.voteGranted = true ∧
      ((n / 2 : Nat) : Int) ≤ votedNum ∧ rf.status ≠ .leader ∧
      outcome = ⟨rf.becomeLeader, 0, true⟩ := by
  unfold sendRequestVote at processed
  split at processed
  · cases processed
    exact Or.inl ⟨by assumption, rfl⟩
  · split at processed
    · cases processed
      exact Or.inr (Or.inl ⟨by omega, rfl⟩)
    · have sameTerm : reply.term = rf.currentTerm := by omega
      simp only [bind_eq_ok] at processed
      obtain ⟨_, _, counted⟩ := processed
      split at counted
      · cases counted
        exact Or.inr (Or.inl ⟨by omega, rfl⟩)
      · rename_i granted
        have granted : reply.voteGranted = true := by simpa using granted
        split at counted
        · rename_i majority
          simp only [bind_eq_ok, myAssert_eq_ok] at counted
          obtain ⟨_, notLeader, final⟩ := counted
          cases final
          exact Or.inr (Or.inr (Or.inr ⟨sameTerm, granted, by omega, notLeader, rfl⟩))
        · cases counted
          exact Or.inr (Or.inr (Or.inl ⟨sameTerm, granted, rfl⟩))

/-- The only assertion of `sendRequestVote` that can fail is the one against a
second election, on a counted vote of a leader's own term. -/
theorem sendRequestVote_fault {rf : Raft n} {reply : RequestVoteReply} {votedNum : Int}
    {fault : Fault} (failed : rf.sendRequestVote reply votedNum = .error fault) :
    reply.term = rf.currentTerm ∧ reply.voteGranted = true ∧
      ((n / 2 : Nat) : Int) ≤ votedNum ∧ rf.status = .leader := by
  unfold sendRequestVote at failed
  split at failed
  · cases failed
  · split at failed
    · cases failed
    · have sameTerm : reply.term = rf.currentTerm := by omega
      simp only [myAssert, sameTerm, if_true] at failed
      change (if ¬ reply.voteGranted = true then _ else _) = _ at failed
      split at failed
      · cases failed
      · rename_i granted
        split at failed
        · rename_i majority
          by_cases leads : rf.status = .leader
          · exact ⟨sameTerm, by simpa using granted, by omega, leads⟩
          · simp only [ne_eq, leads, not_false_eq_true, if_true] at failed
            cases failed
        · cases failed

theorem sendRequestVote_error {rf : Raft n} {reply : RequestVoteReply} {votedNum : Int}
    {fault : Fault} (failed : rf.sendRequestVote reply votedNum = .error fault) :
    fault = .electedTwice := by
  obtain ⟨sameTerm, granted, majority, leads⟩ := sendRequestVote_fault failed
  have complete : votedNum + 1 ≥ ((n / 2 + 1 : Nat) : Int) := by omega
  simp only [sendRequestVote, sameTerm, gt_iff_lt, Int.lt_irrefl, if_false, granted,
    not_true_eq_false, complete, if_true, leads, ne_eq, myAssert] at failed
  cases failed
  rfl

/-! ## Heartbeats -/

/-- The releases of `sendAppendEntries`: a larger term is adopted, a refusal
moves `nextIndex`, and a success moves `matchIndex` and may raise the commit
index up to the end of what was sent, if that carries the current term. -/
theorem sendAppendEntries_cases {rf rf' : Raft n} {server : Fin n} {args : AppendEntriesArgs}
    {reply : AppendEntriesReply} {appendNums appendNums' : Int}
    (processed : rf.sendAppendEntries server args reply appendNums = .ok (rf', appendNums')) :
    reply.appState ≠ Disconnected ∧ rf.currentTerm < reply.term ∧
      rf' = rf.adoptTerm reply.term ∧ appendNums' = appendNums ∨
    appendNums' = appendNums ∧ (∃ nextIndex, rf' = { rf with nextIndex := nextIndex }) ∨
    reply.term = rf.currentTerm ∧ rf.status = .leader ∧ reply.success = true ∧
      ∃ nextIndex matchIndex commitIndex,
        rf' = { rf with
          nextIndex := nextIndex, matchIndex := matchIndex, commitIndex := commitIndex } ∧
        (appendNums' = appendNums + 1 ∧ commitIndex = rf.commitIndex ∨
          ((n / 2 : Nat) : Int) ≤ appendNums ∧ appendNums' = 0 ∧
            commitIndex ≤ rf.getLastLogIndex ∧
            (commitIndex = rf.commitIndex ∨
              args.entries.getLast?.map LogEntry.logTerm = some rf.currentTerm ∧
                commitIndex = max rf.commitIndex (args.prevLogIndex + args.entries.length))) := by
  unfold sendAppendEntries at processed
  split at processed
  · cases processed
    exact Or.inr (Or.inl ⟨rfl, rf.nextIndex, rfl⟩)
  · rename_i connected
    split at processed
    · cases processed
      exact Or.inl ⟨connected, by assumption, rfl, rfl⟩
    · split at processed
      · cases processed
        exact Or.inr (Or.inl ⟨rfl, rf.nextIndex, rfl⟩)
      · have sameTerm : reply.term = rf.currentTerm := by omega
        split at processed
        · cases processed
          exact Or.inr (Or.inl ⟨rfl, rf.nextIndex, rfl⟩)
        · rename_i leads
          have leads : rf.status = .leader := by simpa using leads
          simp only [bind_eq_ok] at processed
          obtain ⟨_, _, answered⟩ := processed
          split at answered
          · split at answered
            · cases answered
              exact Or.inr (Or.inl ⟨rfl, _, rfl⟩)
            · cases answered
              exact Or.inr (Or.inl ⟨rfl, rf.nextIndex, rfl⟩)
          · rename_i success
            have success : reply.success = true := by simpa using success
            refine Or.inr (Or.inr ⟨sameTerm, leads, success, ?_⟩)
            simp only [bind_eq_ok] at answered
            obtain ⟨_, _, counted⟩ := answered
            split at counted
            · rename_i majority
              simp only [bind_eq_ok, myAssert_eq_ok] at counted
              obtain ⟨_, bounded, final⟩ := counted
              cases final
              split at bounded
              · rename_i stamped
                rw [if_pos stamped]
                exact ⟨_, _, _, rfl, Or.inr ⟨by omega, rfl, bounded, Or.inr ⟨stamped, rfl⟩⟩⟩
              · rename_i notStamped
                rw [if_neg notStamped]
                exact ⟨_, _, _, rfl, Or.inr ⟨by omega, rfl, bounded, Or.inl rfl⟩⟩
            · cases counted
              exact ⟨_, _, _, rfl, Or.inl ⟨rfl, rfl⟩⟩

/-! ## Snapshots sent by the leader -/

/-- The releases of `leaderSendSnapShot`. -/
theorem leaderSendSnapShot_cases (rf : Raft n) (server : Fin n) (args : InstallSnapshotRequest)
    (reply : InstallSnapshotResponse) :
    rf.currentTerm < reply.term ∧
      rf.leaderSendSnapShot server args reply = (rf.adoptTerm reply.term).persist ∨
    ∃ nextIndex matchIndex, rf.leaderSendSnapShot server args reply =
      { rf with nextIndex := nextIndex, matchIndex := matchIndex } := by
  unfold leaderSendSnapShot
  split
  · exact Or.inr ⟨rf.nextIndex, rf.matchIndex, rfl⟩
  · split
    · exact Or.inl ⟨by assumption, rfl⟩
    · exact Or.inr ⟨_, _, rfl⟩

/-! ## Calls of the service -/

/-- The entry that the leader makes for a command. -/
def newLogEntry (rf : Raft n) (command : Bytes) : LogEntry where
  command := command
  logTerm := rf.currentTerm
  logIndex := rf.getNewCommandIndex

/-- `StartConses` appends an entry on a leader and does nothing elsewhere. -/
theorem startConses_cases (rf : Raft n) (command : Bytes) :
    rf.status ≠ .leader ∧ rf.startConses command = (rf, none) ∨
    rf.status = .leader ∧ rf.startConses command =
      ({ rf with logs := rf.logs ++ [rf.newLogEntry command] }.persist,
        some (rf.getNewCommandIndex, rf.currentTerm)) := by
  by_cases leads : rf.status = .leader
  · refine Or.inr ⟨leads, ?_⟩
    simp only [startConses, leads, ne_eq, not_true_eq_false, if_false]
    rfl
  · exact Or.inl ⟨leads, by simp [startConses, leads]⟩

/-- The node with its log compacted up to `index`. -/
def compacted (rf : Raft n) (index term : Int) (logs : List LogEntry) : Raft n :=
  { rf with
    lastSnapshotIncludeIndex := index
    lastSnapshotIncludeTerm := term
    logs := logs
    commitIndex := max rf.commitIndex index
    lastApplied := max rf.lastApplied index }

/-- `Snapshot` ignores an index that is covered or not committed, and otherwise
compacts the log. -/
theorem snapshot_cases {rf rf' : Raft n} {index : Int} {data : Bytes}
    (taken : rf.snapshot index data = .ok rf') :
    rf' = rf ∨
    rf.lastSnapshotIncludeIndex < index ∧ index ≤ rf.commitIndex ∧
      ∃ entry logs, rf.logAtIndex index = .ok entry ∧
        rf.collectLogs (index + 1) (rf.getLastLogIndex - index).toNat = .ok logs ∧
        rf' = (rf.compacted index entry.logTerm logs).save data := by
  unfold snapshot at taken
  split at taken
  · cases taken
    exact Or.inl rfl
  · simp only [bind_eq_ok] at taken
    obtain ⟨entry, found, logs, collected, _, _, final⟩ := taken
    cases final
    exact Or.inr ⟨by omega, by omega, entry, logs, found, collected, rfl⟩

end Raft

end CppRaft.RaftCore
