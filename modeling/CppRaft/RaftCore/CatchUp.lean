import CppRaft.RaftCore.Backtrack

/-!
# What an exchange leaves behind

An exchange between a leader and a follower changes only what the leader knows
of that follower and its commit index.  When the follower accepts, it holds the
end of the leader's log and its commit index.
-/

namespace CppRaft.RaftCore

open CppRaft.Store

variable {n : Nat}

namespace Raft

variable {rf rf' : Raft n}

/-- The node still leads, with the same log. -/
structure LeadsOn (rf rf' : Raft n) : Prop where
  leads : rf'.status = .leader
  term : rf'.currentTerm = rf.currentTerm
  logs : rf'.logs = rf.logs
  index : rf'.lastSnapshotIncludeIndex = rf.lastSnapshotIncludeIndex
  snapshotTerm : rf'.lastSnapshotIncludeTerm = rf.lastSnapshotIncludeTerm
  applied : rf'.lastApplied = rf.lastApplied
  committed : rf.commitIndex ≤ rf'.commitIndex

theorem LeadsOn.refl (leads : rf.status = .leader) : LeadsOn rf rf :=
  ⟨leads, rfl, rfl, rfl, rfl, rfl, le_rfl⟩

theorem LeadsOn.trans {rf'' : Raft n} (first : LeadsOn rf rf') (second : LeadsOn rf' rf'') :
    LeadsOn rf rf'' where
  leads := second.leads
  term := second.term.trans first.term
  logs := second.logs.trans first.logs
  index := second.index.trans first.index
  snapshotTerm := second.snapshotTerm.trans first.snapshotTerm
  applied := second.applied.trans first.applied
  committed := first.committed.trans second.committed

theorem LeadsOn.lastLogIndexAndTerm (leadsOn : LeadsOn rf rf') :
    rf'.getLastLogIndexAndTerm = rf.getLastLogIndexAndTerm := by
  unfold getLastLogIndexAndTerm
  rw [leadsOn.logs, leadsOn.index, leadsOn.snapshotTerm]

theorem LeadsOn.getLastLogIndex (leadsOn : LeadsOn rf rf') :
    rf'.getLastLogIndex = rf.getLastLogIndex :=
  congrArg Prod.fst leadsOn.lastLogIndexAndTerm

theorem LeadsOn.holds_iff (leadsOn : LeadsOn rf rf') (index term : Int) :
    rf'.Holds index term ↔ rf.Holds index term := by
  unfold Holds
  rw [leadsOn.logs, leadsOn.index, leadsOn.snapshotTerm]

/-- A leader after an exchange with `server`. -/
structure GoesOn (server : Fin n) (rf rf' : Raft n) : Prop extends LeadsOn rf rf' where
  others : ∀ w, w ≠ server → rf'.nextIndex w = rf.nextIndex w

theorem GoesOn.trans {server : Fin n} {rf'' : Raft n} (first : GoesOn server rf rf')
    (second : GoesOn server rf' rf'') : GoesOn server rf rf'' where
  toLeadsOn := first.toLeadsOn.trans second.toLeadsOn
  others := fun w other => (second.others w other).trans (first.others w other)

/-! ## What a node holds -/

theorem Placed.getLogTermFromLogIndex_of_holds (placed : rf.Placed) {index term : Int}
    (holds : rf.Holds index term) : rf.getLogTermFromLogIndex index = .ok term := by
  have last := placed.getLastLogIndex
  simp only [getLogTermFromLogIndex, bind_eq_ok, myAssert_eq_ok]
  rcases holds with ⟨entry, member, rfl, rfl⟩ | ⟨rfl, rfl⟩
  · have range := placed.index_range member
    refine ⟨(), range.1.le, (), range.2, ?_⟩
    rw [if_neg range.1.ne', bind_eq_ok]
    exact ⟨entry, (Contiguous.logAtIndex_iff_mem placed.logs).mpr ⟨member, rfl⟩, rfl⟩
  · refine ⟨(), le_rfl, (), by omega, ?_⟩
    rw [if_pos rfl]
    rfl

theorem Placed.holds_range (placed : rf.Placed) {index term : Int} (holds : rf.Holds index term) :
    rf.lastSnapshotIncludeIndex ≤ index ∧ index ≤ rf.getLastLogIndex := by
  have last := placed.getLastLogIndex
  rcases holds with ⟨entry, member, rfl, _⟩ | ⟨rfl, _⟩
  · have range := placed.index_range member
    exact ⟨range.1.le, range.2⟩
  · exact ⟨le_rfl, by omega⟩

theorem Placed.matchLog_of_holds (placed : rf.Placed) {index term : Int}
    (holds : rf.Holds index term) : rf.matchLog index term = .ok true := by
  have range := placed.holds_range holds
  simp only [matchLog, bind_eq_ok, myAssert_eq_ok, pure_eq_ok]
  exact ⟨(), range, term, placed.getLogTermFromLogIndex_of_holds holds, decide_eq_true rfl⟩

/-- A request that starts at what the node holds is accepted. -/
theorem appendEntries1_success {args : AppendEntriesArgs} {reply : AppendEntriesReply}
    (placed : rf.Placed) (notOutdated : rf.currentTerm ≤ args.term)
    (holds : rf.Holds args.prevLogIndex args.prevLogTerm)
    (handled : rf.appendEntries1 args = .ok (rf', reply)) : reply.success = true := by
  have keeps := rf.keeps_followTerm notOutdated
  have placed' := keeps.placed placed
  have holds' : (rf.followTerm args.term).Holds args.prevLogIndex args.prevLogTerm := by
    unfold Holds
    rw [keeps.logs, keeps.index, keeps.snapshotTerm]
    exact holds
  have range := placed'.holds_range holds'
  rw [appendEntries1_of_le notOutdated, checkEntries, if_neg (by omega)] at handled
  simp only [bind_eq_ok] at handled
  obtain ⟨matched, previous, final⟩ := handled
  rw [placed'.matchLog_of_holds holds', Except.ok.injEq] at previous
  rw [if_pos previous.symm] at final
  obtain ⟨_, _, _, success, _⟩ := acceptEntries_eq final
  exact success

/-! ## A leader and one of its followers -/

/-- The term and the snapshot of the follower are no obstacle for the leader. -/
structure Serves (leader : Raft n) (server : Fin n) (follower : Raft n) : Prop where
  terms : follower.currentTerm ≤ leader.currentTerm
  covered : follower.lastSnapshotIncludeIndex ≤ leader.getLastLogIndex
  /-- The leader does not contradict the snapshot of the follower. -/
  base : ∀ term, leader.Holds follower.lastSnapshotIncludeIndex term →
    follower.lastSnapshotIncludeTerm = term
  /-- The next request does not start below the snapshot of the follower. -/
  above : leader.nextIndex server ≤ follower.lastSnapshotIncludeIndex →
    follower.lastSnapshotIncludeIndex ≤ leader.lastSnapshotIncludeIndex

/-- The follower holds the end of the leader's log, and the leader knows it. -/
def Level (leader : Raft n) (server : Fin n) (follower : Raft n) : Prop :=
  leader.nextIndex server = leader.getLastLogIndex + 1 ∧
    follower.Holds leader.getLastLogIndexAndTerm.1 leader.getLastLogIndexAndTerm.2

section Pair

variable {leader leader' follower follower' : Raft n} {server other : Fin n}

theorem GoesOn.serves (goesOn : GoesOn other leader leader') (apart : server ≠ other)
    (serves : leader.Serves server follower) : leader'.Serves server follower where
  terms := by
    rw [goesOn.term]
    exact serves.terms
  covered := by
    rw [goesOn.getLastLogIndex]
    exact serves.covered
  base := fun term holds => serves.base term ((goesOn.holds_iff _ _).mp holds)
  above := by
    rw [goesOn.others server apart, goesOn.index]
    exact serves.above

theorem GoesOn.level (goesOn : GoesOn other leader leader') (apart : server ≠ other)
    (level : leader.Level server follower) : leader'.Level server follower := by
  unfold Level
  rw [goesOn.others server apart, goesOn.getLastLogIndex, goesOn.lastLogIndexAndTerm]
  exact level

/-- A new entry is no obstacle either. -/
theorem Serves.startConses (serves : leader.Serves server follower) (placed : leader.Placed)
    (command : Bytes) : (leader.startConses command).1.Serves server follower := by
  rcases leader.startConses_cases command with ⟨_, same⟩ | ⟨_, appended⟩
  · rw [same]
    exact serves
  · have longer := (startConses_placed placed command).2.last
    rw [appended] at longer ⊢
    refine ⟨serves.terms, serves.covered.trans longer, fun term holds => ?_, serves.above⟩
    apply serves.base
    rcases holds with ⟨entry, member, index, sameTerm⟩ | base
    · rcases List.mem_append.mp member with old | new
      · exact Or.inl ⟨entry, old, index, sameTerm⟩
      · rw [List.mem_singleton.mp new] at index
        have covered := serves.covered
        change leader.getLastLogIndex + 1 = _ at index
        omega
    · exact Or.inr base

/-- The request carries the log of the node up to its end. -/
structure Offers (rf : Raft n) (args : AppendEntriesArgs) : Prop where
  term : args.term = rf.currentTerm
  numbered : args.Numbered
  ends : (args.endIndex, args.endTerm) = rf.getLastLogIndexAndTerm

theorem offers_of_heartBeatTo {args : AppendEntriesArgs} (placed : leader.Placed)
    (built : leader.heartBeatTo server = .ok (.appendEntries args)) : leader.Offers args :=
  have ⟨term, numbered, _⟩ := heartBeatTo_built placed built
  ⟨term, numbered, heartBeatTo_end placed built⟩

theorem Offers.endIndex {args : AppendEntriesArgs} (offers : leader.Offers args) :
    args.endIndex = leader.getLastLogIndex :=
  congrArg Prod.fst offers.ends

theorem LeadsOn.offers {args : AppendEntriesArgs} (leadsOn : LeadsOn leader leader')
    (offers : leader.Offers args) : leader'.Offers args where
  term := offers.term.trans leadsOn.term.symm
  numbered := offers.numbered
  ends := offers.ends.trans leadsOn.lastLogIndexAndTerm.symm

end Pair

/-! ## Exchanges -/

theorem goesOn_of_reply {server : Fin n} {args : AppendEntriesArgs} {reply : AppendEntriesReply}
    {appendNums appendNums' : Int} (leads : rf.status = .leader)
    (term : reply.term = rf.currentTerm)
    (processed : rf.sendAppendEntries server args reply appendNums = .ok (rf', appendNums')) :
    GoesOn server rf rf' := by
  have others : ∀ w, w ≠ server → rf'.nextIndex w = rf.nextIndex w := by
    intro w other
    rcases sendAppendEntries_arrays processed with ⟨next, _⟩ | ⟨_, _, _, _, _, next⟩ |
      ⟨_, _, _, _, next⟩
    · rw [next]
    · rw [next, Function.update_of_ne other]
    · rw [next, Function.update_of_ne other]
  rcases sendAppendEntries_cases processed with ⟨_, later, _⟩ | ⟨_, next, rfl⟩ |
    ⟨_, _, _, next, matched, commit, rfl, raised⟩
  · omega
  · exact ⟨⟨leads, rfl, rfl, rfl, rfl, rfl, le_rfl⟩, others⟩
  · have higher : rf.commitIndex ≤ commit := by
      rcases raised with ⟨_, same⟩ | ⟨_, _, _, same | ⟨_, same⟩⟩
      · exact same.ge
      · exact same.ge
      · rw [same]
        exact le_max_left _ _
    exact ⟨⟨leads, rfl, rfl, rfl, rfl, rfl, higher⟩, others⟩

/-- A success that does not complete the round is counted. -/
theorem sendAppendEntries_counted {server : Fin n} {args : AppendEntriesArgs}
    {reply : AppendEntriesReply} {appendNums appendNums' : Int} (leads : rf.status = .leader)
    (connected : reply.appState ≠ Disconnected) (term : reply.term = rf.currentTerm)
    (success : reply.success = true) (incomplete : appendNums < ((n / 2 : Nat) : Int))
    (processed : rf.sendAppendEntries server args reply appendNums = .ok (rf', appendNums')) :
    appendNums' = appendNums + 1 := by
  unfold sendAppendEntries at processed
  rw [if_neg connected, if_neg (by omega), if_neg (by omega), if_neg (not_not.mpr leads)]
    at processed
  simp only [bind_eq_ok, success, not_true_eq_false, if_false] at processed
  obtain ⟨_, _, _, _, counted⟩ := processed
  rw [if_neg (by push_cast; omega)] at counted
  cases counted
  rfl

theorem goesOn_of_response {server : Fin n} {response : InstallSnapshotResponse}
    (leads : rf.status = .leader) (answered : response.term ≤ rf.currentTerm) :
    GoesOn server rf (rf.snapshotArgs.1.leaderSendSnapShot server rf.snapshotArgs.2 response) := by
  rw [leaderSendSnapShot_installed leads answered]
  exact ⟨⟨leads, rfl, rfl, rfl, rfl, rfl, le_rfl⟩, fun w other => Function.update_of_ne other _ _⟩

theorem heartBeatTo_leaderCommit {server : Fin n} {args : AppendEntriesArgs}
    (built : rf.heartBeatTo server = .ok (.appendEntries args)) :
    args.leaderCommit = rf.commitIndex := by
  simp only [heartBeatTo, bind_eq_ok] at built
  obtain ⟨_, _, sent⟩ := built
  split at sent
  · cases sent
  · simp only [bind_eq_ok] at sent
    obtain ⟨⟨index, term⟩, _, sent⟩ := sent
    split at sent
    · simp only [bind_eq_ok, pure_eq_ok] at sent
      obtain ⟨_, _, _, rfl, _, _, final⟩ := sent
      cases final
      rfl
    · simp only [bind_eq_ok, pure_eq_ok] at sent
      obtain ⟨_, rfl, _, _, final⟩ := sent
      cases final
      rfl

/-- A node that accepts a request keeps its snapshot, adopts the term and takes
over the commit index as far as the request goes. -/
theorem appendEntries1_accepted {args : AppendEntriesArgs} {reply : AppendEntriesReply}
    (placed : rf.Placed) (numbered : args.Numbered) (notOutdated : rf.currentTerm ≤ args.term)
    (handled : rf.appendEntries1 args = .ok (rf', reply)) (success : reply.success = true) :
    rf'.currentTerm = args.term ∧
      rf'.lastSnapshotIncludeIndex = rf.lastSnapshotIncludeIndex ∧
      rf'.lastSnapshotIncludeTerm = rf.lastSnapshotIncludeTerm ∧
      min args.leaderCommit args.endIndex ≤ rf'.commitIndex := by
  rcases appendEntries1_cases handled with ⟨_, _, refused⟩ | ⟨_, _, refused⟩ |
    ⟨_, _, _, previous, stored, looped, rfl⟩
  · rw [success] at refused
    cases refused
  · rw [success] at refused
    cases refused
  · have keeps := rf.keeps_followTerm notOutdated
    have term := rf.followTerm_currentTerm notOutdated
    have last := (appendEntries1_stored placed numbered notOutdated previous looped).2
    have sameRest := appendEntriesLoop_eq looped
    have committed : min args.leaderCommit args.endIndex ≤
        (stored.followCommit args.leaderCommit).commitIndex := by
      unfold followCommit AppendEntriesArgs.endIndex
      split
      · simp only
        omega
      · omega
    obtain ⟨commitIndex, raised⟩ := stored.followCommit_eq args.leaderCommit
    refine ⟨?_, ?_, ?_, committed⟩
    · rw [raised, sameRest]
      exact term
    · rw [raised, sameRest]
      exact keeps.index
    · rw [raised, sameRest]
      exact keeps.snapshotTerm

section Offered

variable {leader leader' follower follower' : Raft n} {server : Fin n} {args : AppendEntriesArgs}
  {reply : AppendEntriesReply} {appendNums appendNums' : Int}

/-- The leader goes on, and the follower has its term. -/
theorem Offers.exchanged (offers : leader.Offers args) (leads : leader.status = .leader)
    (placed : follower.Placed) (terms : follower.currentTerm ≤ leader.currentTerm)
    (handled : follower.appendEntries1 args = .ok (follower', reply))
    (processed : leader.sendAppendEntries server args reply appendNums =
      .ok (leader', appendNums')) :
    leader.GoesOn server leader' ∧ follower'.currentTerm = leader.currentTerm ∧
      follower'.lastApplied = follower.lastApplied := by
  have notOutdated : follower.currentTerm ≤ args.term := terms.trans offers.term.ge
  obtain ⟨_, replyTerm, _⟩ := appendEntries1_refusal placed notOutdated handled
  refine ⟨goesOn_of_reply leads (replyTerm.trans offers.term) processed, ?_,
    appendEntries1_lastApplied handled⟩
  rw [← offers.term]
  cases success : reply.success with
  | false => exact (appendEntries1_refused notOutdated handled success).2
  | true => exact (appendEntries1_accepted placed offers.numbered notOutdated handled success).1

/-- After a success the two are level, and the follower has the commit index of
the request. -/
theorem Offers.accepted (offers : leader.Offers args) (leads : leader.status = .leader)
    (placed : follower.Placed) (serves : leader.Serves server follower)
    (matched : leader.matchIndex server ≤ leader.getLastLogIndex)
    (handled : follower.appendEntries1 args = .ok (follower', reply))
    (processed : leader.sendAppendEntries server args reply appendNums =
      .ok (leader', appendNums')) (success : reply.success = true) :
    leader'.Serves server follower' ∧ leader'.Level server follower' ∧
      min args.leaderCommit leader.getLastLogIndex ≤ follower'.commitIndex := by
  have notOutdated : follower.currentTerm ≤ args.term := serves.terms.trans offers.term.ge
  obtain ⟨goesOn, _, _⟩ := offers.exchanged leads placed serves.terms handled processed
  obtain ⟨connected, replyTerm, _⟩ := appendEntries1_refusal placed notOutdated handled
  obtain ⟨_, nextIndex⟩ := sendAppendEntries_accepted leads connected
    (replyTerm.trans offers.term) success processed
  obtain ⟨term, index, snapshotTerm, committed⟩ :=
    appendEntries1_accepted placed offers.numbered notOutdated handled success
  have holds := appendEntries1_holds placed offers.numbered handled success
  have last := offers.endIndex
  have next : leader'.nextIndex server = leader'.getLastLogIndex + 1 := by
    rw [nextIndex, goesOn.getLastLogIndex, last, max_eq_right matched]
  refine ⟨⟨?_, ?_, ?_, ?_⟩, ⟨next, ?_⟩, last ▸ committed⟩
  · rw [term, offers.term, goesOn.term]
  · rw [index, goesOn.getLastLogIndex]
    exact serves.covered
  · intro heldTerm held
    rw [index] at held
    rw [snapshotTerm]
    exact serves.base heldTerm ((goesOn.holds_iff _ _).mp held)
  · intro below
    have covered := serves.covered
    rw [next, goesOn.getLastLogIndex, index] at below
    omega
  · rw [goesOn.lastLogIndexAndTerm, ← offers.ends]
    exact holds

end Offered

end Raft

namespace Link

variable {server : Fin n} {link target : Link n} {appendNums : Int}

/-- The two kinds of exchanges. -/
theorem exchange_cases (done : link.exchange server appendNums = .ok target) :
    (∃ args follower reply leader appendNums',
      link.leader.heartBeatTo server = .ok (.appendEntries args) ∧
      link.follower.appendEntries1 args = .ok (follower, reply) ∧
      link.leader.sendAppendEntries server args reply appendNums = .ok (leader, appendNums') ∧
      target = { leader := leader, follower := follower, accepted := reply.success }) ∨
    link.leader.heartBeatTo server = .ok .snapshot ∧ ∃ follower response msg,
      link.follower.installSnapshot link.leader.snapshotArgs.2 = .ok (follower, response, msg) ∧
      target =
        { leader := link.leader.snapshotArgs.1.leaderSendSnapShot server
            link.leader.snapshotArgs.2 response
          follower := follower
          accepted := false } := by
  simp only [exchange, bind_eq_ok] at done
  obtain ⟨outgoing, built, sent⟩ := done
  cases outgoing with
  | appendEntries args =>
      simp only [appendEntries, bind_eq_ok, pure_eq_ok] at sent
      obtain ⟨⟨follower, reply⟩, handled, ⟨leader, appendNums'⟩, processed, same⟩ := sent
      exact Or.inl ⟨args, follower, reply, leader, appendNums', built, handled, processed,
        same.symm⟩
  | snapshot =>
      simp only [installSnapshot, bind_eq_ok, pure_eq_ok] at sent
      obtain ⟨⟨follower, response, msg⟩, handled, same⟩ := sent
      exact Or.inr ⟨built, follower, response, msg, handled, same.symm⟩

theorem Comparable.serves (comparable : link.Comparable server)
    (above : ¬ link.StartsBelow server) : link.leader.Serves server link.follower where
  terms := comparable.terms
  covered := comparable.covered
  base := fun term holds =>
    comparable.base term (comparable.leader.getLogTermFromLogIndex_of_holds holds)
  above := fun below => le_of_not_gt fun older => above ⟨below, older⟩

/-- The leader goes on, and the follower has its term. -/
theorem Comparable.exchange_goesOn (comparable : link.Comparable server)
    (done : link.exchange server appendNums = .ok target) :
    link.leader.GoesOn server target.leader ∧
      target.follower.currentTerm = link.leader.currentTerm ∧
      target.follower.lastApplied ≤
        max link.follower.lastApplied link.leader.lastSnapshotIncludeIndex := by
  rcases exchange_cases done with ⟨args, follower, reply, leader, appendNums', built, handled,
    processed, rfl⟩ | ⟨_, follower, response, msg, handled, rfl⟩
  · have offers := Raft.offers_of_heartBeatTo comparable.leader built
    obtain ⟨goesOn, term, applied⟩ := offers.exchanged comparable.leads comparable.follower
      comparable.terms handled processed
    exact ⟨goesOn, term, applied.le.trans (le_max_left _ _)⟩
  · have notOutdated : link.follower.currentTerm ≤ link.leader.snapshotArgs.2.term :=
      comparable.terms
    have answered : response.term ≤ link.leader.currentTerm := by
      rcases Raft.installSnapshot_response notOutdated handled with unset | sent
      · rw [unset]
        exact comparable.positive
      · exact sent.le
    refine ⟨Raft.goesOn_of_response comparable.leads answered,
      (Raft.installSnapshot_larger comparable.follower notOutdated handled).1, ?_⟩
    rcases Raft.installSnapshot_lastApplied handled with ⟨_, same⟩ | ⟨_, _, _, same⟩
    · rw [same]
      exact le_max_left _ _
    · exact same.le

/-- After a success the two are level, and the follower has the commit index of
the leader. -/
theorem Comparable.exchange_accepted (comparable : link.Comparable server)
    (above : ¬ link.StartsBelow server) (done : link.exchange server appendNums = .ok target)
    (accepted : target.accepted = true) :
    target.leader.Serves server target.follower ∧ target.leader.Level server target.follower ∧
      link.leader.commitIndex ≤ target.follower.commitIndex := by
  rcases exchange_cases done with ⟨args, follower, reply, leader, appendNums', built, handled,
    processed, rfl⟩ | ⟨_, follower, response, msg, handled, rfl⟩
  · have offers := Raft.offers_of_heartBeatTo comparable.leader built
    obtain ⟨serves, level, committed⟩ := offers.accepted comparable.leads comparable.follower
      (comparable.serves above) comparable.matched handled processed accepted
    refine ⟨serves, level, ?_⟩
    rw [Raft.heartBeatTo_leaderCommit built, min_eq_left comparable.leader.stored] at committed
    exact committed
  · cases accepted

end Link

end CppRaft.RaftCore
