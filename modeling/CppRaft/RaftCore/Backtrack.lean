import CppRaft.RaftCore.Total
import CppRaft.Transition.Descent

/-!
# Backtracking to the common log

A leader whose `m_nextIndex` for a follower is too high goes back with every
refusal, and one whose `m_nextIndex` is in its snapshot sends that first.  The
two nodes exchange one call after the other, each delivered and answered, until
an `AppendEntries` call succeeds.  The one obstacle is a request that starts
below the snapshot of the follower.
-/

namespace CppRaft.RaftCore

open CppRaft.Store
open CppRaft.Transition

variable {n : Nat}

/-- A leader and one of its followers, and whether the last call between them
was a successful `AppendEntries`. -/
structure Link (n : Nat) where
  leader : Raft n
  follower : Raft n
  accepted : Bool

namespace Link

/-- An `AppendEntries` call is delivered and answered. -/
def appendEntries (server : Fin n) (appendNums : Int) (link : Link n) (args : AppendEntriesArgs) :
    Except Fault (Link n) := do
  let (follower, reply) ← link.follower.appendEntries1 args
  let (leader, _) ← link.leader.sendAppendEntries server args reply appendNums
  return { leader := leader, follower := follower, accepted := reply.success }

/-- An `InstallSnapshot` call is delivered and answered. -/
def installSnapshot (server : Fin n) (link : Link n) : Except Fault (Link n) := do
  let (leader, args) := link.leader.snapshotArgs
  let (follower, reply, _) ← link.follower.installSnapshot args
  let leader := leader.leaderSendSnapShot server args reply
  return { leader := leader, follower := follower, accepted := false }

/-- One exchange: `doHeartBeat` picks the call for peer `server`, the follower
handles the request and the leader processes the reply, with the counter of its
round. -/
def exchange (server : Fin n) (appendNums : Int) (link : Link n) : Except Fault (Link n) := do
  match ← link.leader.heartBeatTo server with
  | .appendEntries args => link.appendEntries server appendNums args
  | .snapshot => link.installSnapshot server

/-- The next index stays within the log of the leader and one behind it. -/
def InRange (last : Int) (server : Fin n) (link : Link n) : Prop :=
  1 ≤ link.leader.nextIndex server ∧ link.leader.nextIndex server ≤ last + 1

/-- The follower has taken over the log of the leader, which knows it. -/
def CaughtUp (last : Int) (server : Fin n) (link : Link n) : Prop :=
  link.accepted = true ∧ link.leader.matchIndex server = last

/-- Whatever the counters of the rounds are, finitely many exchanges end in a
successful `AppendEntries` that matches the whole log, and none of them sets
`m_nextIndex` out of range. -/
def BacktrackingEnds (server : Fin n) (link : Link n) : Prop :=
  ∀ appendNums : Nat → Int,
    Reaches (exchange server) (InRange link.leader.getLastLogIndex server)
      (CaughtUp link.leader.getLastLogIndex server) appendNums link

/-- What is asked of the two nodes. -/
structure Comparable (server : Fin n) (link : Link n) : Prop where
  leader : link.leader.Placed
  follower : link.follower.Placed
  leads : link.leader.status = .leader
  positive : 0 ≤ link.leader.currentTerm
  terms : link.follower.currentTerm ≤ link.leader.currentTerm
  covered : link.follower.lastSnapshotIncludeIndex ≤ link.leader.getLastLogIndex
  /-- The leader does not contradict the snapshot of the follower. -/
  base : ∀ term,
    link.leader.getLogTermFromLogIndex link.follower.lastSnapshotIncludeIndex = .ok term →
      link.follower.lastSnapshotIncludeTerm = term
  agrees : link.follower.AgreesWith link.leader.logs
  next : InRange link.leader.getLastLogIndex server link
  matched : link.leader.matchIndex server ≤ link.leader.getLastLogIndex

/-- The next request starts below the snapshot of the follower, and so does the
one after the snapshot of the leader. -/
def StartsBelow (server : Fin n) (link : Link n) : Prop :=
  link.leader.nextIndex server ≤ link.follower.lastSnapshotIncludeIndex ∧
    link.leader.lastSnapshotIncludeIndex < link.follower.lastSnapshotIncludeIndex

end Link

namespace Raft

variable {rf rf' : Raft n}

/-! ## The parts of an exchange -/

/-- `doHeartBeat` sends entries exactly if the next one is behind the snapshot. -/
theorem heartBeatTo_snapshot_iff {server : Fin n} {outgoing : Outgoing}
    (built : rf.heartBeatTo server = .ok outgoing) :
    outgoing = .snapshot ↔ rf.nextIndex server ≤ rf.lastSnapshotIncludeIndex := by
  simp only [heartBeatTo, bind_eq_ok] at built
  obtain ⟨_, _, built⟩ := built
  split at built
  · cases built
    simpa
  · rename_i behind
    simp only [bind_eq_ok] at built
    obtain ⟨⟨index, term⟩, _, built⟩ := built
    have sent : outgoing ≠ .snapshot := by
      split at built
      · simp only [bind_eq_ok] at built
        obtain ⟨_, _, _, _, _, _, final⟩ := built
        cases final
        simp
      · simp only [bind_eq_ok] at built
        obtain ⟨_, _, _, _, final⟩ := built
        cases final
        simp
    exact iff_of_false sent behind

/-- A refusal of the current term names an index behind the snapshot and up to
`PrevLogIndex`, unless the request contradicts the snapshot itself. -/
theorem appendEntries1_refusal {args : AppendEntriesArgs} {reply : AppendEntriesReply}
    (placed : rf.Placed) (notOutdated : rf.currentTerm ≤ args.term)
    (handled : rf.appendEntries1 args = .ok (rf', reply)) :
    reply.appState = AppNormal ∧ reply.term = args.term ∧
      (reply.success = false →
        rf.lastSnapshotIncludeIndex < reply.updateNextIndex ∧
            reply.updateNextIndex ≤ args.prevLogIndex ∨
          args.prevLogIndex = rf.lastSnapshotIncludeIndex ∧
            args.prevLogTerm ≠ rf.lastSnapshotIncludeTerm) := by
  have keeps := rf.keeps_followTerm notOutdated
  have last := placed.getLastLogIndex
  have sameTerm := rf.followTerm_currentTerm notOutdated
  rw [appendEntries1_of_le notOutdated, checkEntries, keeps.getLastLogIndex] at handled
  split at handled
  · cases handled
    exact ⟨rfl, sameTerm, fun _ => Or.inl ⟨by simp only; omega, by simp only; omega⟩⟩
  · simp only [bind_eq_ok] at handled
    obtain ⟨matched, previous, final⟩ := handled
    have range := matchLog_range previous
    have above : ¬ args.prevLogIndex < (rf.followTerm args.term).lastSnapshotIncludeIndex := by
      omega
    simp only [above, if_false] at final
    cases matched with
    | true =>
        simp only [if_true, acceptEntries, bind_eq_ok] at final
        obtain ⟨stored, looped, _, _, _, _, final⟩ := final
        cases final
        refine ⟨rfl, ?_, by simp⟩
        rw [appendEntriesLoop_eq looped]
        split
        · exact sameTerm
        · exact sameTerm
    | false =>
        simp only [Bool.false_eq_true, if_false, rejectEntries, bind_eq_ok] at final
        obtain ⟨found, scanned, final⟩ := final
        cases final
        refine ⟨rfl, sameTerm, fun _ => ?_⟩
        rw [keeps.index] at range scanned
        rcases eq_or_lt_of_le range.1 with atBase | behind
        · right
          refine ⟨atBase.symm, ?_⟩
          simp only [matchLog, getLogTermFromLogIndex, bind_eq_ok, pure_eq_ok] at previous
          obtain ⟨_, _, term, ⟨_, _, _, _, read⟩, mismatch⟩ := previous
          rw [keeps.index, if_pos atBase.symm] at read
          cases read
          rw [keeps.snapshotTerm, decide_eq_false_iff_not] at mismatch
          exact mismatch
        · left
          cases found with
          | none => exact ⟨behind, le_rfl⟩
          | some index =>
              have found := conflictScan_range (by rw [keeps.index]; omega) scanned index rfl
              rw [keeps.index] at found
              exact found

theorem appendEntries1_refused {args : AppendEntriesArgs} {reply : AppendEntriesReply}
    (notOutdated : rf.currentTerm ≤ args.term)
    (handled : rf.appendEntries1 args = .ok (rf', reply)) (refused : reply.success = false) :
    Keeps rf rf' ∧ rf'.currentTerm = args.term := by
  rcases appendEntries1_cases handled with ⟨outdated, _, _⟩ | ⟨_, rfl, _⟩ | ⟨_, success, _⟩
  · omega
  · exact ⟨(rf.keeps_followTerm notOutdated).trans (keeps_persist _),
      rf.followTerm_currentTerm notOutdated⟩
  · rw [refused] at success
    cases success

/-- The leader takes a refusal of its term. -/
theorem sendAppendEntries_refused {server : Fin n} {args : AppendEntriesArgs}
    {reply : AppendEntriesReply} (leads : rf.status = .leader)
    (connected : reply.appState = AppNormal) (term : reply.term = rf.currentTerm)
    (refused : reply.success = false) (known : reply.updateNextIndex ≠ -100) (appendNums : Int) :
    rf.sendAppendEntries server args reply appendNums = .ok ({ rf with
      nextIndex := Function.update rf.nextIndex server reply.updateNextIndex }, appendNums) := by
  have here : reply.appState ≠ Disconnected := by
    rw [connected]
    decide
  unfold sendAppendEntries
  rw [if_neg here, if_neg (by omega), if_neg (by omega), if_neg (not_not.mpr leads)]
  simp only [myAssert, term, if_true, refused, Bool.false_eq_true, not_false_eq_true, known, ne_eq]
  rfl

/-- The leader takes a success of its term. -/
theorem sendAppendEntries_accepted {server : Fin n} {args : AppendEntriesArgs}
    {reply : AppendEntriesReply} {appendNums appendNums' : Int} (leads : rf.status = .leader)
    (connected : reply.appState = AppNormal) (term : reply.term = rf.currentTerm)
    (success : reply.success = true)
    (processed : rf.sendAppendEntries server args reply appendNums = .ok (rf', appendNums')) :
    rf'.matchIndex server = max (rf.matchIndex server) args.endIndex ∧
      rf'.nextIndex server = max (rf.matchIndex server) args.endIndex + 1 := by
  have here : reply.appState ≠ Disconnected := by
    rw [connected]
    decide
  rw [sendAppendEntries_success leads here term success processed]
  simp

/-- The leader takes a response of its term to the snapshot that it has sent. -/
theorem leaderSendSnapShot_installed {server : Fin n} {response : InstallSnapshotResponse}
    (leads : rf.status = .leader) (answered : response.term ≤ rf.currentTerm) :
    rf.snapshotArgs.1.leaderSendSnapShot server rf.snapshotArgs.2 response =
      { rf.snapshotArgs.1 with
        matchIndex := Function.update rf.matchIndex server rf.lastSnapshotIncludeIndex
        nextIndex := Function.update rf.nextIndex server (rf.lastSnapshotIncludeIndex + 1) } := by
  unfold leaderSendSnapShot
  rw [if_neg, if_neg]
  · rfl
  · exact not_lt.mpr answered
  · rw [not_or, not_not, not_not]
    exact ⟨leads, rfl⟩

/-- What `getPrevLogInfo` sends is what the leader knows of that index. -/
theorem getLogTermFromLogIndex_of_previous {server : Fin n} {index term : Int}
    (placed : rf.Placed) (previous : rf.getPrevLogInfo server = .ok (index, term)) :
    rf.getLogTermFromLogIndex index = .ok term := by
  have last := placed.getLastLogIndex
  obtain ⟨_, ⟨rfl, rfl⟩ | ⟨behind, entry, member, rfl, rfl⟩⟩ := getPrevLogInfo_cases placed previous
  · simp only [getLogTermFromLogIndex, bind_eq_ok, myAssert_eq_ok]
    refine ⟨(), le_rfl, (), by omega, ?_⟩
    rw [if_pos trivial]
    rfl
  · have range := placed.index_range member
    simp only [getLogTermFromLogIndex, bind_eq_ok, myAssert_eq_ok]
    refine ⟨(), range.1.le, (), range.2, ?_⟩
    rw [if_neg behind.ne', bind_eq_ok]
    exact ⟨entry, (Contiguous.logAtIndex_iff_mem placed.logs).mpr ⟨member, rfl⟩, rfl⟩

/-- The response to a request that is not outdated has its term, or none when
the snapshot is outdated. -/
theorem installSnapshot_response {args : InstallSnapshotRequest}
    {response : InstallSnapshotResponse} {msg : Option ApplyMsg}
    (notOutdated : rf.currentTerm ≤ args.term)
    (handled : rf.installSnapshot args = .ok (rf', response, msg)) :
    response.term = 0 ∨ response.term = args.term := by
  rw [installSnapshot_of_le notOutdated] at handled
  dsimp only at handled
  split at handled
  · cases handled
    exact Or.inl rfl
  · simp only [bind_eq_ok] at handled
    obtain ⟨_, _, final⟩ := handled
    cases final
    exact Or.inr (rf.snapshotTerm_currentTerm notOutdated)

/-- The follower after the handling has the larger one of the two snapshots. -/
theorem installSnapshot_larger {args : InstallSnapshotRequest}
    {response : InstallSnapshotResponse} {msg : Option ApplyMsg} (placed : rf.Placed)
    (notOutdated : rf.currentTerm ≤ args.term)
    (handled : rf.installSnapshot args = .ok (rf', response, msg)) :
    rf'.currentTerm = args.term ∧ (∀ entry ∈ rf'.logs, entry ∈ rf.logs) ∧
      (args.lastSnapShotIncludeIndex ≤ rf.lastSnapshotIncludeIndex ∧
          rf'.lastSnapshotIncludeIndex = rf.lastSnapshotIncludeIndex ∧
          rf'.lastSnapshotIncludeTerm = rf.lastSnapshotIncludeTerm ∨
        rf.lastSnapshotIncludeIndex < args.lastSnapShotIncludeIndex ∧
          rf'.lastSnapshotIncludeIndex = args.lastSnapShotIncludeIndex ∧
          rf'.lastSnapshotIncludeTerm = args.lastSnapShotIncludeTerm) := by
  have keeps := rf.keeps_snapshotTerm notOutdated
  have sameTerm := rf.snapshotTerm_currentTerm notOutdated
  rcases installSnapshot_cases handled with ⟨outdated, _⟩ | ⟨_, covered, rfl, _⟩ |
    ⟨_, newer, ⟨logs, cut, rfl⟩, _⟩
  · omega
  · refine ⟨sameTerm, ?_, Or.inl ⟨covered, keeps.index, keeps.snapshotTerm⟩⟩
    rw [keeps.logs]
    exact fun entry member => member
  · exact ⟨sameTerm, (cutLogs_numbered placed newer cut).2.1, Or.inr ⟨newer, rfl, rfl⟩⟩

end Raft

/-! ## One exchange -/

namespace Link

variable {server : Fin n} {link : Link n}

/-- The request of a heartbeat to a follower that does not need the snapshot. -/
theorem Comparable.exists_request (comparable : link.Comparable server)
    (ahead : link.leader.lastSnapshotIncludeIndex < link.leader.nextIndex server) :
    ∃ args, link.leader.heartBeatTo server = .ok (.appendEntries args) ∧
      args.prevLogIndex = link.leader.nextIndex server - 1 ∧
      link.follower.currentTerm ≤ args.term := by
  obtain ⟨positive, bounded⟩ := comparable.next
  obtain ⟨outgoing, built⟩ := Raft.heartBeatTo_succeeds comparable.leader positive bounded
  cases outgoing with
  | snapshot =>
      have covered := (Raft.heartBeatTo_snapshot_iff built).mp rfl
      omega
  | appendEntries args =>
      obtain ⟨term, _, _, _, previous, _⟩ := Raft.heartBeatTo_built comparable.leader built
      refine ⟨args, built, (Raft.getPrevLogInfo_cases comparable.leader previous).1, ?_⟩
      rw [term]
      exact comparable.terms

theorem exchange_of_request {args : AppendEntriesArgs}
    (built : link.leader.heartBeatTo server = .ok (.appendEntries args)) (appendNums : Int) :
    link.exchange server appendNums = link.appendEntries server appendNums args := by
  rw [exchange, built]
  rfl

/-- A refusal leaves the two nodes comparable. -/
theorem Comparable.refused (comparable : link.Comparable server) {follower : Raft n} {next : Int}
    (keeps : link.follower.Keeps follower)
    (term : follower.currentTerm = link.leader.currentTerm) (positive : 1 ≤ next)
    (bounded : next ≤ link.leader.getLastLogIndex + 1) (accepted : Bool) :
    Comparable server {
      leader := { link.leader with nextIndex := Function.update link.leader.nextIndex server next }
      follower := follower
      accepted := accepted } where
  leader := { comparable.leader with }
  follower := keeps.placed comparable.follower
  leads := comparable.leads
  positive := comparable.positive
  terms := by
    rw [term]
  covered := by
    rw [keeps.index]
    exact comparable.covered
  base := by
    rw [keeps.index, keeps.snapshotTerm]
    exact comparable.base
  agrees := by
    intro old member
    rw [keeps.logs] at member
    exact comparable.agrees old member
  next := by
    simp only [InRange, Function.update_self]
    exact ⟨positive, bounded⟩
  matched := comparable.matched

/-- A request that starts at the snapshot of the follower or behind it is
accepted, or refused with a lower index that is behind the snapshot as well. -/
theorem Comparable.exchange_entries (comparable : link.Comparable server)
    (ahead : link.leader.lastSnapshotIncludeIndex < link.leader.nextIndex server)
    (above : link.follower.lastSnapshotIncludeIndex < link.leader.nextIndex server)
    (appendNums : Int) :
    ∃ target, link.exchange server appendNums = .ok target ∧
      target.InRange link.leader.getLastLogIndex server ∧
      (target.CaughtUp link.leader.getLastLogIndex server ∨
        target.Comparable server ∧
          target.leader.getLastLogIndex = link.leader.getLastLogIndex ∧
          target.leader.lastSnapshotIncludeIndex = link.leader.lastSnapshotIncludeIndex ∧
          target.follower.lastSnapshotIncludeIndex = link.follower.lastSnapshotIncludeIndex ∧
          link.follower.lastSnapshotIncludeIndex < target.leader.nextIndex server ∧
          target.leader.nextIndex server < link.leader.nextIndex server) := by
  obtain ⟨positive, bounded⟩ := comparable.next
  obtain ⟨args, built, prevLogIndex, notOutdated⟩ := comparable.exists_request ahead
  obtain ⟨term, numbered, endIndex, _, previous, carried⟩ :=
    Raft.heartBeatTo_built comparable.leader built
  have agrees : link.follower.AgreesWith args.entries := by
    intro old member log sent
    rw [carried] at sent
    exact comparable.agrees old member log (List.mem_of_mem_drop sent)
  obtain ⟨⟨follower, reply⟩, handled⟩ :=
    Raft.appendEntries1_succeeds comparable.follower numbered agrees (Or.inr (by omega))
  obtain ⟨connected, replyTerm, refusal⟩ :=
    Raft.appendEntries1_refusal comparable.follower notOutdated handled
  obtain ⟨⟨leader, appendNums'⟩, processed⟩ :=
    Raft.sendAppendEntries_succeeds comparable.leader endIndex.le
      (fun _ => comparable.matched) reply appendNums
  have done : link.exchange server appendNums =
      .ok { leader := leader, follower := follower, accepted := reply.success } := by
    rw [exchange_of_request built, appendEntries, handled]
    change (link.leader.sendAppendEntries server args reply appendNums >>= fun _ => _) = _
    rw [processed]
    rfl
  refine ⟨_, done, ?_⟩
  have matched := comparable.matched
  have base := comparable.leader.base
  have last := comparable.leader.getLastLogIndex
  cases success : reply.success with
  | true =>
      obtain ⟨matchIndex, nextIndex⟩ := Raft.sendAppendEntries_accepted comparable.leads
        connected (replyTerm.trans term) success processed
      constructor
      · constructor
        · simp only
          omega
        · simp only
          omega
      · left
        refine ⟨rfl, ?_⟩
        simp only
        omega
  | false =>
      -- The leader knows the snapshot of the follower, so it is not contradicted.
      have lower : link.follower.lastSnapshotIncludeIndex < reply.updateNextIndex ∧
          reply.updateNextIndex ≤ args.prevLogIndex := by
        rcases refusal success with lower | ⟨atBase, contradicted⟩
        · exact lower
        · have known := Raft.getLogTermFromLogIndex_of_previous comparable.leader previous
          rw [atBase] at known
          exact absurd (comparable.base _ known).symm contradicted
      have followerBase := comparable.follower.base
      rw [Raft.sendAppendEntries_refused comparable.leads connected (replyTerm.trans term)
        success (by omega)] at processed
      cases processed
      obtain ⟨keeps, followerTerm⟩ := Raft.appendEntries1_refused notOutdated handled success
      have still := comparable.refused keeps (followerTerm.trans term)
        (show 1 ≤ reply.updateNextIndex by omega) (by omega) false
      refine ⟨still.next, Or.inr ⟨still, rfl, rfl, keeps.index, ?_, ?_⟩⟩
      · simp only [Function.update_self]
        exact lower.1
      · simp only [Function.update_self]
        omega

/-- A snapshot leaves the two nodes comparable. -/
theorem Comparable.installed (comparable : link.Comparable server) {follower : Raft n}
    (placed : follower.Placed) (term : follower.currentTerm = link.leader.currentTerm)
    (kept : ∀ entry ∈ follower.logs, entry ∈ link.follower.logs)
    (larger : link.leader.lastSnapshotIncludeIndex ≤ link.follower.lastSnapshotIncludeIndex ∧
        follower.lastSnapshotIncludeIndex = link.follower.lastSnapshotIncludeIndex ∧
        follower.lastSnapshotIncludeTerm = link.follower.lastSnapshotIncludeTerm ∨
      link.follower.lastSnapshotIncludeIndex < link.leader.lastSnapshotIncludeIndex ∧
        follower.lastSnapshotIncludeIndex = link.leader.lastSnapshotIncludeIndex ∧
        follower.lastSnapshotIncludeTerm = link.leader.lastSnapshotIncludeTerm) :
    Comparable server {
      leader := { link.leader.snapshotArgs.1 with
        matchIndex := Function.update link.leader.matchIndex server
          link.leader.lastSnapshotIncludeIndex
        nextIndex := Function.update link.leader.nextIndex server
          (link.leader.lastSnapshotIncludeIndex + 1) }
      follower := follower
      accepted := false } where
  leader := { comparable.leader with }
  follower := placed
  leads := comparable.leads
  positive := comparable.positive
  terms := term.le
  covered := by
    have covered := comparable.covered
    have last := comparable.leader.getLastLogIndex
    change follower.lastSnapshotIncludeIndex ≤ link.leader.getLastLogIndex
    omega
  base := by
    intro term known
    change link.leader.getLogTermFromLogIndex follower.lastSnapshotIncludeIndex = _ at known
    change follower.lastSnapshotIncludeTerm = term
    rcases larger with ⟨_, index, sameBase⟩ | ⟨_, index, sameBase⟩
    · rw [index] at known
      rw [sameBase]
      exact comparable.base term known
    · rw [index] at known
      simp only [Raft.getLogTermFromLogIndex, bind_eq_ok] at known
      obtain ⟨_, _, _, _, read⟩ := known
      rw [if_pos trivial] at read
      cases read
      exact sameBase
  agrees := by
    intro old member
    exact comparable.agrees old (kept old member)
  next := by
    have base := comparable.leader.base
    have last := comparable.leader.getLastLogIndex
    have inRange : 1 ≤ link.leader.lastSnapshotIncludeIndex + 1 ∧
        link.leader.lastSnapshotIncludeIndex + 1 ≤ link.leader.getLastLogIndex + 1 := by omega
    simp only [InRange, Function.update_self]
    exact inRange
  matched := by
    have last := comparable.leader.getLastLogIndex
    simp only [Function.update_self]
    change link.leader.lastSnapshotIncludeIndex ≤ link.leader.getLastLogIndex
    omega

/-- A snapshot that reaches as far as that of the follower aligns the two. -/
theorem Comparable.exchange_snapshot (comparable : link.Comparable server)
    (behind : link.leader.nextIndex server ≤ link.leader.lastSnapshotIncludeIndex)
    (appendNums : Int) :
    ∃ target, link.exchange server appendNums = .ok target ∧ target.accepted = false ∧
      target.InRange link.leader.getLastLogIndex server ∧ target.Comparable server ∧
      target.leader.getLastLogIndex = link.leader.getLastLogIndex ∧
      target.leader.lastSnapshotIncludeIndex = link.leader.lastSnapshotIncludeIndex ∧
      target.leader.nextIndex server = link.leader.lastSnapshotIncludeIndex + 1 ∧
      target.follower.lastSnapshotIncludeIndex =
        max link.follower.lastSnapshotIncludeIndex link.leader.lastSnapshotIncludeIndex := by
  obtain ⟨positive, bounded⟩ := comparable.next
  have base := comparable.leader.base
  have last := comparable.leader.getLastLogIndex
  obtain ⟨outgoing, built⟩ := Raft.heartBeatTo_succeeds comparable.leader positive bounded
  have snapshot := (Raft.heartBeatTo_snapshot_iff built).mpr behind
  subst snapshot
  obtain ⟨⟨follower, response, msg⟩, handled⟩ :=
    Raft.installSnapshot_succeeds comparable.follower.logs link.leader.snapshotArgs.2
  have notOutdated : link.follower.currentTerm ≤ link.leader.snapshotArgs.2.term :=
    comparable.terms
  have answered : response.term ≤ link.leader.currentTerm := by
    rcases Raft.installSnapshot_response notOutdated handled with unset | sent
    · rw [unset]
      exact comparable.positive
    · exact sent.le
  have done : link.exchange server appendNums =
      .ok { leader := link.leader.snapshotArgs.1.leaderSendSnapShot server
              link.leader.snapshotArgs.2 response
            follower := follower
            accepted := false } := by
    rw [exchange, built]
    change link.installSnapshot server = _
    rw [installSnapshot]
    change (link.follower.installSnapshot link.leader.snapshotArgs.2 >>= fun _ => _) = _
    rw [handled]
    rfl
  refine ⟨_, done, rfl, ?_⟩
  rw [Raft.leaderSendSnapShot_installed comparable.leads answered]
  obtain ⟨placed', _⟩ := Raft.installSnapshot_placed comparable.follower handled
  obtain ⟨sameTerm, kept, larger⟩ :=
    Raft.installSnapshot_larger comparable.follower notOutdated handled
  have still := comparable.installed placed' sameTerm kept larger
  refine ⟨still.next, still, rfl, rfl, Function.update_self _ _ _, ?_⟩
  change link.leader.lastSnapshotIncludeIndex ≤ _ ∧ _ ∨
    _ < link.leader.lastSnapshotIncludeIndex ∧ _ = link.leader.lastSnapshotIncludeIndex ∧
      _ at larger
  change follower.lastSnapshotIncludeIndex = _
  omega

/-- A request that starts below the snapshot of the follower ends its process. -/
theorem Comparable.exchange_below (comparable : link.Comparable server)
    (ahead : link.leader.lastSnapshotIncludeIndex < link.leader.nextIndex server)
    (below : link.leader.nextIndex server ≤ link.follower.lastSnapshotIncludeIndex)
    (appendNums : Int) : link.exchange server appendNums = .error .matchOutOfRange := by
  obtain ⟨args, built, prevLogIndex, notOutdated⟩ := comparable.exists_request ahead
  have failed := Raft.appendEntries1_below comparable.follower notOutdated
    (show args.prevLogIndex < link.follower.lastSnapshotIncludeIndex by omega)
  rw [exchange_of_request built, appendEntries, failed]
  rfl

/-! ## All exchanges -/

/-- How far the exchanges are from the end: a refusal lowers `m_nextIndex`
towards the snapshot of the follower, and a snapshot sets it right there. -/
def distance (server : Fin n) (link : Link n) : Nat :=
  if link.leader.nextIndex server ≤ link.leader.lastSnapshotIncludeIndex then 1
  else 2 * (link.leader.nextIndex server - link.follower.lastSnapshotIncludeIndex - 1).toNat

/-- Every exchange reaches the end or comes closer to it. -/
theorem Comparable.exchange_closer (comparable : link.Comparable server)
    (above : ¬ link.StartsBelow server) (appendNums : Int) :
    ∃ target, link.exchange server appendNums = .ok target ∧
      target.InRange link.leader.getLastLogIndex server ∧
      (target.CaughtUp link.leader.getLastLogIndex server ∨
        (target.Comparable server ∧ ¬ target.StartsBelow server ∧
          target.leader.getLastLogIndex = link.leader.getLastLogIndex) ∧
        target.distance server < link.distance server) := by
  unfold StartsBelow at above
  rcases le_or_gt (link.leader.nextIndex server) link.leader.lastSnapshotIncludeIndex with
    behind | ahead
  · obtain ⟨target, done, _, inRange, comparable', last, base, next, larger⟩ :=
      comparable.exchange_snapshot behind appendNums
    have aligned : target.follower.lastSnapshotIncludeIndex =
        link.leader.lastSnapshotIncludeIndex := by omega
    refine ⟨target, done, inRange, Or.inr ⟨⟨comparable', ?_, last⟩, ?_⟩⟩
    · unfold StartsBelow
      omega
    · unfold distance
      rw [if_pos behind, if_neg (by omega)]
      omega
  · obtain ⟨target, done, inRange, caughtUp | ⟨comparable', last, base, base', lower, next⟩⟩ :=
      comparable.exchange_entries ahead (by omega) appendNums
    · exact ⟨target, done, inRange, Or.inl caughtUp⟩
    · refine ⟨target, done, inRange, Or.inr ⟨⟨comparable', ?_, last⟩, ?_⟩⟩
      · unfold StartsBelow
        omega
      · unfold distance
        rw [if_neg (show ¬ link.leader.nextIndex server ≤ _ by omega)]
        split
        · omega
        · omega

/-- Backtracking ends with a matched log exactly if no request starts below the
snapshot of the follower. -/
theorem backtrackingEnds_iff (comparable : link.Comparable server) :
    link.BacktrackingEnds server ↔ ¬ link.StartsBelow server := by
  constructor
  · rintro ends ⟨below, older⟩
    obtain ⟨count, target, reached, ⟨accepted, _⟩, _⟩ := ends fun _ => 1
    rcases le_or_gt (link.leader.nextIndex server) link.leader.lastSnapshotIncludeIndex with
      behind | ahead
    · -- After the snapshot the next request starts at its end.
      obtain ⟨middle, sent, refused, _, comparable', _, base, next, larger⟩ :=
        comparable.exchange_snapshot behind 1
      rw [iterate_succ_of_ok sent] at reached
      cases count with
      | zero =>
          cases reached
          rw [refused] at accepted
          cases accepted
      | succ count =>
          have failed := comparable'.exchange_below (by omega) (by omega) 1
          rw [iterate_succ_of_error failed] at reached
          cases reached
    · rw [iterate_succ_of_error (comparable.exchange_below ahead below 1)] at reached
      cases reached
  · intro above appendNums
    apply reaches_of_rank (fun link' => link'.Comparable server ∧ ¬ link'.StartsBelow server ∧
      link'.leader.getLastLogIndex = link.leader.getLastLogIndex) (distance server)
    · rintro counter link' ⟨comparable', above', last⟩
      obtain ⟨target, done, inRange, later⟩ := comparable'.exchange_closer above' counter
      rw [last] at inRange later
      exact ⟨target, done, inRange, later⟩
    · exact ⟨comparable, above, rfl⟩

/-- A leader of term 3 with three entries, whose follower has two entries of
term 2 behind the first one. -/
def diverged (leader follower : Fin n) : Link n where
  leader :=
    { Raft.init leader none with
      status := .leader
      currentTerm := 3
      logs := [⟨[97], 1, 1⟩, ⟨[98], 3, 2⟩, ⟨[99], 3, 3⟩]
      nextIndex := fun _ => 4 }
  follower :=
    { Raft.init follower none with
      currentTerm := 2
      logs := [⟨[97], 1, 1⟩, ⟨[100], 2, 2⟩, ⟨[101], 2, 3⟩] }
  accepted := false

theorem comparable_diverged : (diverged (0 : Fin 3) 1).Comparable 1 where
  leader := ⟨by decide, by decide, by decide, by decide, by decide, by decide⟩
  follower := ⟨by decide, by decide, by decide, by decide, by decide, by decide⟩
  leads := rfl
  positive := by decide
  terms := by decide
  covered := by decide
  base := by
    intro term known
    cases known
    rfl
  agrees := by
    unfold Raft.AgreesWith
    decide
  next := ⟨by decide, by decide⟩
  matched := by decide

theorem backtrackingEnds_iff_diverged :
    (diverged (0 : Fin 3) 1).BacktrackingEnds 1 ∧ ¬ (diverged (0 : Fin 3) 1).StartsBelow 1 := by
  have above : ¬ (diverged (0 : Fin 3) 1).StartsBelow 1 := by
    unfold StartsBelow
    decide
  exact ⟨(backtrackingEnds_iff comparable_diverged).mpr above, above⟩

/-- The follower has taken over and compacted two entries, and the leader has
not seen its reply. -/
def compactedBehind (leader follower : Fin n) : Link n where
  leader :=
    { Raft.init leader none with
      status := .leader
      currentTerm := 1
      logs := [⟨[97], 1, 1⟩, ⟨[98], 1, 2⟩]
      commitIndex := 2
      nextIndex := fun _ => 2 }
  follower :=
    { Raft.init follower none with
      currentTerm := 1
      lastSnapshotIncludeIndex := 2
      lastSnapshotIncludeTerm := 1
      commitIndex := 2
      lastApplied := 2 }
  accepted := false

theorem comparable_compactedBehind : (compactedBehind (0 : Fin 3) 1).Comparable 1 where
  leader := ⟨by decide, by decide, by decide, by decide, by decide, by decide⟩
  follower := ⟨by decide, by decide, by decide, by decide, by decide, by decide⟩
  leads := rfl
  positive := by decide
  terms := by decide
  covered := by decide
  base := by
    intro term known
    cases known
    rfl
  agrees := by
    unfold Raft.AgreesWith
    decide
  next := ⟨by decide, by decide⟩
  matched := by decide

/-- The first request ends the process of the follower. -/
theorem not_backtrackingEnds :
    ¬ ∀ link : Link 3, link.Comparable 1 → link.BacktrackingEnds 1 := by
  intro ends
  obtain ⟨count, target, reached, _⟩ :=
    ends (compactedBehind 0 1) comparable_compactedBehind fun _ => 1
  rw [iterate_succ_of_error
    (comparable_compactedBehind.exchange_below (by decide) (by decide) 1)] at reached
  cases reached

end Link

end CppRaft.RaftCore
