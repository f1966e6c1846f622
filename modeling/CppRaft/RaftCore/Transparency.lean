import CppRaft.RaftCore.Compaction

/-!
# Compaction is transparent

A node that has cut its log answers like the node that has not, as long as the
requests reach behind the cut.
-/

namespace CppRaft.RaftCore

open CppRaft.Store
open CppRaft.Transition

variable {n : Nat}

namespace Raft

namespace CutAt

variable {index : Int} {rf rf' short short' : Raft n}

/-! ## The entries of a request -/

theorem appendEntry (cut : CutAt index rf short) {start : Nat} {log : LogEntry}
    (inside : start ≤ short.logs.length) (place : log.logIndex = index + 1 + start) :
    Lockstep (CutAt index) (rf.appendEntry log) (short.appendEntry log) := by
  have above := cut.above
  have alike : Lockstep (fun _ _ => True) (rf.appendEntry log) (short.appendEntry log) := by
    unfold Raft.appendEntry
    rw [cut.getLastLogIndex]
    split
    · trivial
    · apply Lockstep.bind (cut.getSlicesIndexFromLogIndex (by omega))
      intro slice slice' _ _ same
      rw [same, cut.logAt]
      apply Lockstep.bind_left
      intro old _
      apply Lockstep.bind_left
      intro _ _
      split
      · trivial
      · trivial
  apply alike.mono
  intro rf₁ short₁ stored stored' _
  have position : log.logIndex =
      rf.lastSnapshotIncludeIndex + 1 + (cutOff index rf + start : Nat) := by
    rw [place, cutOff]
    omega
  have length := cut.length_logs
  rw [appendEntry_overlay cut.contiguous (by omega) position stored,
    appendEntry_overlay cut.contiguous' inside (by rw [cut.base]; exact place) stored']
  exact cut.overlay inside ⟨place, trivial⟩

theorem appendEntriesLoop (cut : CutAt index rf short) {start : Nat} {entries : List LogEntry}
    (inside : start ≤ short.logs.length) (numbered : NumberedFrom (index + 1 + start) entries) :
    Lockstep (CutAt index) (rf.appendEntriesLoop entries) (short.appendEntriesLoop entries) := by
  induction entries generalizing rf short start with
  | nil => exact cut
  | cons log rest ih =>
      obtain ⟨place, numberedRest⟩ := numbered
      apply (cut.appendEntry inside place).bind
      intro rf₁ short₁ _ stored' cut₁
      rw [← cut.base] at place
      have laid := appendEntry_overlay cut.contiguous' inside place stored'
      have inside₁ : start + 1 ≤ short₁.logs.length := by
        rw [laid, length_overlay inside]
        exact Nat.le_max_right _ _
      apply ih cut₁ inside₁
      push_cast
      rwa [← Int.add_assoc]

/-! ## AppendEntries -/

/-- What the replies have in common. -/
def SameAnswer (index : Int) (handled handled' : Raft n × AppendEntriesReply) : Prop :=
  CutAt index handled.1 handled'.1 ∧ handled'.2.success = handled.2.success ∧
    handled'.2.term = handled.2.term

theorem followCommit (cut : CutAt index rf short) (leaderCommit : Int) :
    CutAt index (rf.followCommit leaderCommit) (short.followCommit leaderCommit) := by
  unfold Raft.followCommit
  rw [cut.getLastLogIndex, cut.commitIndex]
  split
  · exact cut.congr rfl rfl rfl rfl rfl cut.term cut.votedFor rfl
  · exact cut

theorem acceptEntries (cut : CutAt index rf short) {args : AppendEntriesArgs}
    (reaches : index ≤ args.prevLogIndex) (inside : args.prevLogIndex ≤ rf.getLastLogIndex)
    (numbered : args.Numbered) (reply reply' : AppendEntriesReply) :
    Lockstep (SameAnswer index) (rf.acceptEntries args reply)
      (short.acceptEntries args reply') := by
  have last := getLastLogIndex_of_numbered cut.contiguous'
  rw [cut.base, cut.getLastLogIndex] at last
  obtain ⟨start, place⟩ := Int.le.dest reaches
  unfold AppendEntriesArgs.Numbered at numbered
  have numbered' : NumberedFrom (index + 1 + start) args.entries := by
    have same : index + 1 + (start : Int) = args.prevLogIndex + 1 := by omega
    rw [same]
    exact numbered
  apply (cut.appendEntriesLoop (by omega) numbered').bind
  intro rf₁ short₁ _ _ cut₁
  apply Lockstep.bind (lockstep_myAssert (by rw [cut₁.getLastLogIndex]) _)
  intro _ _ _ _ _
  have cut₂ := cut₁.followCommit args.leaderCommit
  unfold Raft.followCommit at cut₂
  generalize (if args.leaderCommit > rf₁.commitIndex then
    { rf₁ with commitIndex := min args.leaderCommit rf₁.getLastLogIndex } else rf₁) = rf₂ at cut₂ ⊢
  generalize (if args.leaderCommit > short₁.commitIndex then
    { short₁ with commitIndex := min args.leaderCommit short₁.getLastLogIndex }
      else short₁) = short₂ at cut₂ ⊢
  apply Lockstep.bind (lockstep_myAssert (by rw [cut₂.getLastLogIndex, cut₂.commitIndex]) _)
  intro _ _ _ _ _
  exact ⟨cut₂.persist, rfl, cut₂.term⟩

theorem rejectEntries (cut : CutAt index rf short) {args : AppendEntriesArgs}
    (reaches : index ≤ args.prevLogIndex) (inside : args.prevLogIndex ≤ rf.getLastLogIndex)
    (reply reply' : AppendEntriesReply) :
    Lockstep (SameAnswer index) (rf.rejectEntries args reply)
      (short.rejectEntries args reply') := by
  have above := cut.above
  have below : args.prevLogIndex ≤ short.getLastLogIndex := by
    rw [cut.getLastLogIndex]
    exact inside
  have reaches' : short.lastSnapshotIncludeIndex ≤ args.prevLogIndex := by
    rw [cut.base]
    exact reaches
  -- The scans may end at different indexes, but neither fails.
  obtain ⟨found, scanned⟩ := conflictScan_succeeds cut.contiguous (by omega) inside
    (show rf.lastSnapshotIncludeIndex +
      ((args.prevLogIndex - rf.lastSnapshotIncludeIndex + 1).toNat : Int) ≤ _ by omega)
  obtain ⟨found', scanned'⟩ := conflictScan_succeeds cut.contiguous' reaches' below
    (show short.lastSnapshotIncludeIndex +
      ((args.prevLogIndex - short.lastSnapshotIncludeIndex + 1).toNat : Int) ≤ _ by omega)
  unfold Raft.rejectEntries
  rw [scanned, scanned']
  exact ⟨cut.persist, rfl, cut.term⟩

theorem checkEntries (cut : CutAt index rf short) {args : AppendEntriesArgs}
    (reaches : index ≤ args.prevLogIndex) (numbered : args.Numbered)
    (reply : AppendEntriesReply) :
    Lockstep (SameAnswer index) (rf.checkEntries args reply) (short.checkEntries args reply) := by
  have above := cut.above
  have base := cut.base
  unfold Raft.checkEntries
  rw [cut.getLastLogIndex, ← cut.matchLog reaches]
  split
  · exact ⟨cut.persist, rfl, cut.term⟩
  · apply Lockstep.bind_left
    intro matched _
    cases matched with
    | true => exact cut.acceptEntries reaches (by omega) numbered _ _
    | false => exact cut.rejectEntries reaches (by omega) _ _

theorem meetTerm (cut : CutAt index rf short) (term : Int) :
    CutAt index (rf.meetTerm term) (short.meetTerm term) := by
  unfold Raft.meetTerm
  rw [cut.term]
  split
  · exact cut.congr rfl rfl rfl rfl rfl rfl rfl cut.commitIndex
  · exact cut

/-- The two nodes handle an AppendEntries request alike that starts at the index or
behind it. -/
theorem appendEntries1 (cut : CutAt index rf short) {args : AppendEntriesArgs}
    (reaches : index ≤ args.prevLogIndex) (numbered : args.Numbered) :
    Lockstep (SameAnswer index) (rf.appendEntries1 args) (short.appendEntries1 args) := by
  rcases Int.lt_or_le args.term rf.currentTerm with outdated | notOutdated
  · have outdated' : args.term < short.currentTerm := by
      rw [cut.term]
      exact outdated
    rw [Raft.appendEntries1_outdated outdated, Raft.appendEntries1_outdated outdated', cut.term]
    exact ⟨cut, rfl, rfl⟩
  · have notOutdated' : short.currentTerm ≤ args.term := by
      rw [cut.term]
      exact notOutdated
    rw [Raft.appendEntries1_of_le notOutdated, Raft.appendEntries1_of_le notOutdated']
    have met := cut.meetTerm args.term
    have followed : CutAt index (rf.followTerm args.term) (short.followTerm args.term) :=
      met.congr rfl rfl rfl rfl rfl met.term met.votedFor met.commitIndex
    exact followed.checkEntries reaches numbered _

/-! ## RequestVote -/

/-- The two nodes answer every RequestVote request alike. -/
theorem requestVote (cut : CutAt index rf short) (args : RequestVoteArgs) :
    Lockstep (fun handled handled' => CutAt index handled.1 handled'.1 ∧ handled'.2 = handled.2)
      (rf.requestVote args) (short.requestVote args) := by
  rcases Int.lt_or_le args.term rf.currentTerm with outdated | notOutdated
  · have outdated' : args.term < short.currentTerm := by
      rw [cut.term]
      exact outdated
    rw [Raft.requestVote_outdated outdated, Raft.requestVote_outdated outdated', cut.term]
    exact ⟨cut.persist, rfl⟩
  · have notOutdated' : short.currentTerm ≤ args.term := by
      rw [cut.term]
      exact notOutdated
    have met := cut.meetTerm args.term
    rw [Raft.requestVote_of_le notOutdated, Raft.requestVote_of_le notOutdated']
    dsimp only
    rw [met.upToDate, met.votedFor]
    split
    · refine ⟨met.persist, ?_⟩
      rw [met.term]
    · split
      · refine ⟨met.persist, ?_⟩
        rw [met.term]
      · constructor
        · exact met.congr rfl rfl rfl rfl rfl met.term rfl met.commitIndex
        · rw [met.term]

end CutAt

end Raft

/-! ## Later requests -/

/-- A request that a peer may send to the node. -/
inductive PeerRequest
  | appendEntries (args : AppendEntriesArgs)
  | requestVote (args : RequestVoteArgs)

/-- An AppendEntries request starts at the index or behind it, and its entries
follow one by one. -/
def PeerRequest.Reaches (index : Int) : PeerRequest → Prop
  | .appendEntries args => index ≤ args.prevLogIndex ∧ args.Numbered
  | .requestVote _ => True

/-- The reply to a RequestVote request, and `Success` and `Term` of the reply to an
AppendEntries request. -/
inductive PeerAnswer
  | appendEntries (success : Bool) (term : Int)
  | requestVote (reply : RequestVoteReply)

namespace Raft

/-- Handle a request. -/
def serve (rf : Raft n) : PeerRequest → Except Fault (Raft n × PeerAnswer)
  | .appendEntries args => do
      let handled ← rf.appendEntries1 args
      return (handled.1, .appendEntries handled.2.success handled.2.term)
  | .requestVote args => do
      let handled ← rf.requestVote args
      return (handled.1, .requestVote handled.2)

/-- One request after the other. -/
def serveAll (rf : Raft n) : List PeerRequest → Except Fault (Raft n × List PeerAnswer)
  | [] => return (rf, [])
  | request :: rest => do
      let first ← rf.serve request
      let later ← first.1.serveAll rest
      return (later.1, first.2 :: later.2)

variable {index : Int} {rf short : Raft n}

theorem CutAt.serve (cut : CutAt index rf short) {request : PeerRequest}
    (reaches : request.Reaches index) :
    Lockstep (fun served served' => CutAt index served.1 served'.1 ∧ served'.2 = served.2)
      (rf.serve request) (short.serve request) := by
  cases request with
  | appendEntries args =>
      apply (cut.appendEntries1 reaches.1 reaches.2).bind
      rintro handled handled' _ _ ⟨cut', success, term⟩
      refine ⟨cut', ?_⟩
      rw [success, term]
  | requestVote args =>
      apply (cut.requestVote args).bind
      rintro handled handled' _ _ ⟨cut', same⟩
      refine ⟨cut', ?_⟩
      rw [same]

theorem CutAt.serveAll (cut : CutAt index rf short) {requests : List PeerRequest}
    (reaches : ∀ request ∈ requests, request.Reaches index) :
    Lockstep (fun served served' => CutAt index served.1 served'.1 ∧ served'.2 = served.2)
      (rf.serveAll requests) (short.serveAll requests) := by
  induction requests generalizing rf short with
  | nil => exact ⟨cut, rfl⟩
  | cons request rest ih =>
      apply (cut.serve (reaches request List.mem_cons_self)).bind
      rintro first first' _ _ ⟨cut₁, sameFirst⟩
      apply (ih cut₁ fun later member => reaches later (List.mem_cons_of_mem _ member)).bind
      rintro later later' _ _ ⟨cut₂, sameLater⟩
      refine ⟨cut₂, ?_⟩
      rw [sameFirst, sameLater]

/-! ## A compacted node -/

/-- The nodes have the same entries behind the index and the same commit index. -/
structure AgreesBehind (index : Int) (rf short : Raft n) : Prop where
  commitIndex : short.commitIndex = rf.commitIndex
  entries : ∀ logIndex > index, short.logAtIndex logIndex = rf.logAtIndex logIndex

theorem CutAt.agreesBehind (cut : CutAt index rf short) : AgreesBehind index rf short where
  commitIndex := cut.commitIndex
  entries := fun _ behind => (cut.logAtIndex behind).symm

/-- What a snapshot at `index` leaves for the other functions of the node, and for
all requests that come later. -/
structure Transparent (index : Int) (data : Bytes) (rf short : Raft n) : Prop where
  last : short.getLastLogIndexAndTerm = rf.getLastLogIndexAndTerm
  terms : ∀ logIndex ≥ index,
    short.getLogTermFromLogIndex logIndex = rf.getLogTermFromLogIndex logIndex
  agrees : AgreesBehind index rf short
  saved : short.persister = rf.persister ++ [.save short.persistData data]
  served : ∀ requests : List PeerRequest, (∀ request ∈ requests, request.Reaches index) →
    Lockstep
      (fun served served' => served'.2 = served.2 ∧ AgreesBehind index served.1 served'.1)
      (rf.serveAll requests) (short.serveAll requests)

theorem CutAt.transparent (cut : CutAt index rf short) {data : Bytes}
    (saved : short.persister = rf.persister ++ [.save short.persistData data]) :
    Transparent index data rf short where
  last := cut.getLastLogIndexAndTerm
  terms := fun _ reaches => (cut.getLogTermFromLogIndex reaches).symm
  agrees := cut.agreesBehind
  saved := saved
  served := by
    intro requests reaches
    apply (cut.serveAll reaches).mono
    rintro served served' _ _ ⟨cut', same⟩
    exact ⟨same, cut'.agreesBehind⟩

/-- A follower with three entries, of which the first two are applied. -/
def twoApplied (me : Fin n) : Raft n :=
  { Raft.init me none with
    currentTerm := 1
    logs := [⟨[97], 1, 1⟩, ⟨[98], 1, 2⟩, ⟨[99], 1, 3⟩]
    commitIndex := 2
    lastApplied := 2 }

end Raft

end CppRaft.RaftCore
