import CppRaft.Protocol.Assertions
import CppRaft.Protocol.Safety

/-!
# A raised commit index is backed by a majority

The calls of one heartbeat round start at different indexes but all end where
the log of the leader ends, so that every success of the round says that its
server held the same last entry.  The shared counter never runs ahead of the
servers whose successes it has counted, also when it is set back to zero.
-/

namespace CppRaft.Protocol

open CppRaft.RaftCore
open CppRaft.Store
open CppRaft.Transition

variable {n : Nat}

/-! ## The rounds of heartbeats -/

/-- The calls of a heartbeat round, with the term that they speak for and the
index and term of the entry at which they end. -/
def roundTag : Tag n (Int × Int × Int) := fun call =>
  match call.request with
  | .appendEntries args appendNums => some (appendNums, args.term, args.endIndex, args.endTerm)
  | _ => none

theorem roundTag_of_request {call : RpcCall n} {args : AppendEntriesArgs} {a : Nat}
    (request : call.request = .appendEntries args a) :
    roundTag call = some (a, args.term, args.endIndex, args.endTerm) := by
  simp [roundTag, request]

theorem roundTag_votes (i : Fin n) (servers : List (Fin n)) (args : RequestVoteArgs) (a : Nat) :
    ∀ call ∈ servers.map fun server => (⟨i, server, .requestVote args a⟩ : RpcCall n),
      roundTag call = none := by
  intro call member
  obtain ⟨server, _, rfl⟩ := List.mem_map.mp member
  rfl

theorem roundTag_snapshot (i server : Fin n) (args : InstallSnapshotRequest) :
    ∀ call ∈ [(⟨i, server, .installSnapshot args⟩ : RpcCall n)], roundTag call = none := by
  intro call member
  rw [List.mem_singleton.mp member]
  rfl

/-- At one of the moments the node held the entry at which a round ends. -/
def Held (moments : List (Cluster n)) (key : Int × Int × Int) (v : Fin n) : Prop :=
  ∃ moment ∈ moments, (moment.nodes v).Holds key.2.1 key.2.2

theorem Held.append {moments more : List (Cluster n)} {key : Int × Int × Int} {v : Fin n}
    (held : Held moments key v) : Held (moments ++ more) key v := by
  obtain ⟨moment, member, holds⟩ := held
  exact ⟨moment, List.mem_append_left _ member, holds⟩

namespace Cluster

/-! ## The invariant -/

/-- The counters of the heartbeat rounds, with the servers that each of them
has counted: a counted server held the end of its round, as did every server
that answered with a success. -/
structure Counting (moments : List (Cluster n)) (s : Cluster n)
    (counted : Nat → Finset (Fin n)) : Prop where
  tally : Tally roundTag (Held moments) s.calls s.finished s.appendNums.length counted
  counting : ∀ {call a key}, call ∈ s.calls → roundTag call = some (a, key) →
    s.appendNums.getD a 0 ≤ 1 + (counted a).card
  acked : ∀ {k : Nat} {reply call a key}, (k, Reply.appendEntries reply) ∈ s.replies →
    reply.success = true → s.calls[k]? = some call → roundTag call = some (a, key) →
    Held moments key call.dst

theorem counting_start (n : Nat) : Counting [start n] (start n) fun _ => ∅ where
  tally := tally_start _ _
  counting := by simp [start]
  acked := by simp [start]

variable {events emitted : List (Event n)} {moments : List (Cluster n)} {s s' : Cluster n}
  {action : Action n} {counted : Nat → Finset (Fin n)}

theorem Counting.later (inv : Counting moments s counted) (more : List (Cluster n)) :
    Counting (moments ++ more) s counted where
  tally := inv.tally.mono fun _ _ held => held.append
  counting := inv.counting
  acked := fun answered success found tagged =>
    (inv.acked answered success found tagged).append

theorem Counting.finish (inv : Counting moments s counted) (k : Nat) :
    Counting moments (s.finish k) counted :=
  { inv with tally := inv.tally.finish k }

/-- Calls that belong to no heartbeat round. -/
theorem Counting.addCalls (inv : Counting moments s counted) (bounded : s.Bounded)
    {more : List (RpcCall n)} (others : ∀ call ∈ more, roundTag call = none) :
    Counting moments { s with calls := s.calls ++ more } counted where
  tally := inv.tally.append_untagged others
  counting := by
    intro call a key member tagged
    rcases List.mem_append.mp member with before | added
    · exact inv.counting before tagged
    · rw [others call added] at tagged
      cases tagged
  acked := by
    intro k reply call a key answered success found tagged
    obtain ⟨call', found'⟩ := bounded.replied answered
    have same : (s.calls ++ more)[k]? = some call' := getElem?_append_of_eq_some found'
    rw [found, Option.some.injEq] at same
    subst same
    exact inv.acked answered success found' tagged

/-- A reply that is not a success of an `AppendEntries` call. -/
theorem Counting.addReply (inv : Counting moments s counted) (k : Nat) (reply : Reply)
    (other : ∀ answer, reply = .appendEntries answer → answer.success = true →
      ∀ {call a key}, s.calls[k]? = some call → roundTag call = some (a, key) →
        Held moments key call.dst) :
    Counting moments (s.addReply k reply) counted :=
  { inv with
    acked := by
      intro k' answer call a key answered success found tagged
      rcases List.mem_append.mp answered with before | added
      · exact inv.acked before success found tagged
      · rw [List.mem_singleton, Prod.mk.injEq] at added
        obtain ⟨rfl, same⟩ := added
        exact other answer same.symm success found tagged }

/-- The calls of one round end at the end of the log of the leader. -/
theorem Bounded.startedCalls_tag (bounded : s.Bounded) {i : Fin n}
    (leads : (s.nodes i).status = .leader) {round : Nat} {call : RpcCall n}
    (member : call ∈ startedCalls i round (s.nodes i).doHeartBeat.1) :
    call.src = i ∧ call.dst ∈ (s.nodes i).peers ∧
      roundTag call =
        some (round, (s.nodes i).currentTerm, (s.nodes i).getLastLogIndexAndTerm) := by
  obtain ⟨⟨server, outgoing⟩, started, made⟩ := List.mem_filterMap.mp member
  simp only [Raft.doHeartBeat, leads, if_true] at started
  obtain ⟨inside, built⟩ := Raft.mem_heartBeats started
  cases outgoing with
  | appendEntries args =>
      cases made
      refine ⟨rfl, inside, ?_⟩
      rw [roundTag_of_request rfl, Raft.heartBeatTo_term built,
        ← Raft.heartBeatTo_end (bounded.placed i) built]
  | snapshot => cases made

/-- A new round has counted nothing. -/
theorem Counting.beat (inv : Counting moments s counted) (bounded : s.Bounded) {i : Fin n}
    (me : (s.nodes i).me = i) (leads : (s.nodes i).status = .leader) :
    Counting moments (s.beat i) (Function.update counted s.appendNums.length ∅) := by
  have tagged : ∀ call ∈ startedCalls i s.appendNums.length (s.nodes i).doHeartBeat.1,
      call.src = i ∧ call.dst ∈ (s.nodes i).peers ∧
        roundTag call = some (s.appendNums.length, (s.nodes i).currentTerm,
          (s.nodes i).getLastLogIndexAndTerm) :=
    fun call member => bounded.startedCalls_tag leads member
  have servers : ((startedCalls i s.appendNums.length (s.nodes i).doHeartBeat.1).map
      RpcCall.dst).Nodup := by
    apply (startedCalls_dst _ _ _).nodup
    simp only [Raft.doHeartBeat, leads, if_true]
    exact (Raft.heartBeats_sublist _ _).nodup (nodup_peers _)
  have own : ∀ call ∈ startedCalls i s.appendNums.length (s.nodes i).doHeartBeat.1,
      call.src = i ∧ call.src ≠ call.dst := by
    intro call member
    obtain ⟨own, peer, _⟩ := tagged call member
    refine ⟨own, ?_⟩
    intro same
    have notPeer := me_notMem_peers (s.nodes i)
    rw [me] at notPeer
    rw [← same, own] at peer
    exact notPeer peer
  have round := inv.tally.append_round i
    ((s.nodes i).currentTerm, (s.nodes i).getLastLogIndexAndTerm) own
    (fun call member => (tagged call member).2.2) servers
  have length : (s.beat i).appendNums.length = s.appendNums.length + 1 := by
    simp [Cluster.beat]
  exact
    { tally := by
        rw [length]
        exact round
      counting := by
        intro call a key member tag
        rcases List.mem_append.mp member with before | added
        · have inside := inv.tally.bound before tag
          have old : (s.beat i).appendNums.getD a 0 = s.appendNums.getD a 0 := by
            simp [Cluster.beat, List.getD_eq_getElem?_getD, List.getElem?_append_left inside]
          rw [old, Function.update_of_ne inside.ne]
          exact inv.counting before tag
        · rw [(tagged call added).2.2] at tag
          cases tag
          rw [Function.update_self]
          simp [Cluster.beat, List.getD_eq_getElem?_getD]
      acked := by
        intro k reply call a key answered success found tag
        obtain ⟨call', found'⟩ := bounded.replied answered
        have same : (s.beat i).calls[k]? = some call' := getElem?_append_of_eq_some found'
        rw [found, Option.some.injEq] at same
        subst same
        exact inv.acked answered success found' tag }

/-- A success is counted, or completes the count and sets it back. -/
theorem Counting.count (inv : Counting moments s counted) {k a : Nat} {call : RpcCall n}
    {key : Int × Int × Int} (found : s.calls[k]? = some call)
    (tagged : roundTag call = some (a, key)) (pending : k ∉ s.finished)
    (held : Held moments key call.dst) {value : Int}
    (counter : value = s.appendNums.getD a 0 + 1 ∨ value = 0) :
    Counting moments { s.finish k with appendNums := s.appendNums.set a value }
      (countWith counted a call.dst) := by
  have inside := inv.tally.bound (List.mem_of_getElem? found) tagged
  have before := inv.counting (List.mem_of_getElem? found) tagged
  have card := inv.tally.card_count found tagged pending
  have tally := inv.tally.count found tagged held
  exact
    { inv with
      tally := by
        rw [List.length_set]
        exact tally
      counting := by
        intro call' a' key' member' tagged'
        rw [getD_set inside]
        by_cases same : a' = a
        · subst same
          rw [if_pos rfl, card]
          omega
        · rw [if_neg same, countWith_of_ne counted _ same]
          exact inv.counting member' tagged' }

/-- The replies that are processed without being counted. -/
theorem Counting.pass (inv : Counting moments s counted) {k a : Nat} {call : RpcCall n}
    {key : Int × Int × Int} (found : s.calls[k]? = some call)
    (tagged : roundTag call = some (a, key)) :
    Counting moments
      { s.finish k with appendNums := s.appendNums.set a (s.appendNums.getD a 0) } counted := by
  have inside := inv.tally.bound (List.mem_of_getElem? found) tagged
  rw [set_getD_self inside]
  exact inv.finish k

/-- Every step keeps the invariant. -/
theorem Counting.step (inv : Counting moments s counted) (bounded : s.Bounded)
    (me : ∀ v, (s.nodes v).me = v) (effect : s.Effect action s' emitted) :
    ∃ counted', Counting (moments ++ [s']) s' counted' := by
  cases effect with
  | idle => exact ⟨counted, inv.later _⟩
  | fail => exact ⟨counted, { inv.later _ with }⟩
  | @doElection i _ =>
      have asked :
          Counting (moments ++ [s.stand i]) { s with calls := (s.stand i).calls } counted :=
        (inv.later _).addCalls bounded (roundTag_votes i _ _ _)
      exact ⟨counted, { asked with }⟩
  | @doHeartBeat i leads _ => exact ⟨_, (inv.beat bounded (me i) leads).later _⟩
  | @doHeartBeatFail i _ leads _ =>
      exact ⟨_, { (inv.beat bounded (me i) leads).later _ with }⟩
  | startConses => exact ⟨counted, { inv.later _ with }⟩
  | getApplyLogs => exact ⟨counted, { inv.later _ with }⟩
  | snapshot => exact ⟨counted, { inv.later _ with }⟩
  | @sendSnapshot thread i server _ =>
      have sent := (inv.later [s.sendSnapshot thread i server]).addCalls bounded
        (roundTag_snapshot i server (s.nodes i).snapshotArgs.2)
      exact ⟨counted, { sent with }⟩
  | @requestVote k _ call _ rf reply =>
      have answered := (inv.later [(s.setNode call.dst rf).addReply k
        (.requestVote reply)]).addReply k (.requestVote reply) (by
          intro answer same
          cases same)
      exact ⟨counted, { answered with }⟩
  | @appendEntries1 k a call args rf reply found request handled =>
      refine ⟨counted, ?_⟩
      have answered := (inv.later
        [(s.setNode call.dst rf).addReply k (.appendEntries reply)]).addReply k
        (.appendEntries reply) (by
          intro answer same success call' a' key found' tagged
          cases same
          rw [found, Option.some.injEq] at found'
          subst found'
          rw [roundTag_of_request request] at tagged
          cases tagged
          refine ⟨(s.setNode call.dst rf).addReply k (.appendEntries reply), by simp, ?_⟩
          change ((s.setNode call.dst rf).nodes call.dst).Holds _ _
          rw [setNode_nodes_self]
          exact Raft.appendEntries1_holds (bounded.placed _)
            (bounded.offered (List.mem_of_getElem? found) request).1 handled success)
      exact { answered with }
  | @installSnapshot k call _ rf reply =>
      have answered := (inv.later [(s.setNode call.dst rf).addReply k
        (.installSnapshot reply)]).addReply k (.installSnapshot reply) (by
          intro answer same
          cases same)
      exact ⟨counted, { answered with }⟩
  | sendRequestVote => exact ⟨counted, { (inv.later _).finish _ with }⟩
  | @sendAppendEntries position k a call args reply rf appendNums awaited request processed =>
      have tagged := roundTag_of_request request
      rcases Raft.sendAppendEntries_cases processed with ⟨_, _, _, same⟩ | ⟨same, _⟩ |
        ⟨_, _, success, _, _, _, _, counter⟩
      · subst same
        exact ⟨counted, { (inv.later _).pass awaited.found tagged with }⟩
      · subst same
        exact ⟨counted, { (inv.later _).pass awaited.found tagged with }⟩
      · have held := inv.acked (List.mem_of_getElem? awaited.answered) success awaited.found tagged
        have value : appendNums = s.appendNums.getD a 0 + 1 ∨ appendNums = 0 := by
          rcases counter with ⟨next, _⟩ | ⟨_, reset, _⟩
          · exact Or.inl next
          · exact Or.inr reset
        exact ⟨_, { (inv.later _).count awaited.found tagged awaited.pending
          held.append value with }⟩
  | leaderSendSnapShot => exact ⟨counted, { (inv.later _).finish _ with }⟩

theorem counting_of_trace {guard : Cluster n → Action n → Prop}
    (trace : Trace Cluster.step guard (start n) events moments s) :
    ∃ counted, Counting moments s counted := by
  induction trace with
  | nil => exact ⟨_, counting_start n⟩
  | snoc before _ taken ih =>
      obtain ⟨counted, inv⟩ := ih
      have sound := sound_of_trace before
      obtain ⟨_, election⟩ := sound.election
      exact inv.step sound.bounded election.me (step_effect taken)

/-! ## Raised commit indexes -/

/-- What a step that raises a commit index has done. -/
theorem Effect.committed (effect : s.Effect action s' emitted) {i : Fin n} {rf : Raft n}
    (raised : .committed i rf ∈ emitted) :
    s'.nodes i = rf ∧ (s.nodes i).commitIndex < rf.commitIndex ∧
      ∃ position k a call args reply appendNums,
        s.Awaited position k call (.appendEntries reply) ∧
        call.request = .appendEntries args a ∧ call.src = i ∧
        (s.nodes i).sendAppendEntries call.dst args reply (s.appendNums.getD a 0) =
          .ok (rf, appendNums) := by
  cases effect with
  | idle => cases raised
  | fail => cases raised
  | doElection => simp at raised
  | doHeartBeat => cases raised
  | doHeartBeatFail => cases raised
  | startConses => cases raised
  | getApplyLogs => simp at raised
  | snapshot => cases raised
  | sendSnapshot => cases raised
  | requestVote =>
      split at raised
      · simp at raised
      · cases raised
  | appendEntries1 => cases raised
  | installSnapshot => cases raised
  | sendRequestVote =>
      split at raised
      · simp at raised
      · cases raised
  | sendAppendEntries awaited request processed =>
      split at raised
      · rename_i higher
        rw [List.mem_singleton, Event.committed.injEq] at raised
        obtain ⟨rfl, rfl⟩ := raised
        refine ⟨setNode_nodes_self _ _ _, higher, ?_⟩
        exact ⟨_, _, _, _, _, _, _, awaited, request, rfl, processed⟩
      · cases raised
  | leaderSendSnapShot => cases raised

/-- The leader counted the end of a round of its term. -/
theorem Sound.commit (sound : Sound events moments s) {i : Fin n} {rf : Raft n}
    {call : RpcCall n} {args : AppendEntriesArgs} {reply : AppendEntriesReply} {a : Nat}
    {appendNums appendNums' : Int} (member : call ∈ s.calls)
    (request : call.request = .appendEntries args a)
    (higher : (s.nodes i).commitIndex < rf.commitIndex)
    (processed : (s.nodes i).sendAppendEntries call.dst args reply appendNums =
      .ok (rf, appendNums')) :
    rf.status = .leader ∧ rf.currentTerm = args.endTerm ∧ rf.commitIndex = args.endIndex ∧
      reply.success = true ∧ ((n / 2 : Nat) : Int) ≤ appendNums ∧
      ∃ entry ∈ rf.logs, rf.logAtIndex rf.commitIndex = .ok entry ∧
        entry.logTerm = rf.currentTerm := by
  have placed := sound.bounded.placed i
  obtain ⟨placed', _⟩ := Raft.sendAppendEntries_placed placed processed
  rcases Raft.sendAppendEntries_cases processed with ⟨_, _, rfl, _⟩ | ⟨_, _, rfl⟩ |
    ⟨_, leads, success, _, _, commitIndex, rfl, counter⟩
  · exact absurd higher (lt_irrefl _)
  · exact absurd higher (lt_irrefl _)
  · change (s.nodes i).commitIndex < commitIndex at higher
    rcases counter with ⟨_, same⟩ | ⟨majority, _, _, same | ⟨stamped, same⟩⟩
    · omega
    · omega
    · have reached : commitIndex = args.endIndex := by
        unfold AppendEntriesArgs.endIndex
        omega
      have endTerm : args.endTerm = (s.nodes i).currentTerm := by
        unfold AppendEntriesArgs.endTerm
        rw [stamped]
        rfl
      have applied := placed.applied
      have committed := placed.committed
      -- The leader still has the entry that it sent.
      obtain ⟨last, inside, lastIndex, lastTerm⟩ :=
        sound.has_last member request leads stamped (by omega)
      have range := placed.index_range inside
      obtain ⟨entry, member', found, index⟩ :=
        placed.logAtIndex range.1 range.2
      have sameEntry := placed.logs.eq_of_index member' inside index
      refine ⟨leads, endTerm.symm, reached, success, majority, last, inside, ?_, lastTerm⟩
      change (s.nodes i).logAtIndex commitIndex = _
      rw [reached, ← lastIndex, found, sameEntry]

end Cluster

/-- Whenever `sendAppendEntries` raises the commit index of a leader, its entry
there carries its own term, and a majority with the leader has by then held an
entry with this index, term and command, or a snapshot that ends with it. -/
theorem commits_backed {n : Nat} {events emitted : List (Event n)} {moments : List (Cluster n)}
    {s s' : Cluster n} {action : Action n} {i : Fin n} {rf : Raft n}
    (trace : Trace Cluster.step anyStep (Cluster.start n) events moments s)
    (taken : s.step action = some (s', emitted)) (raised : .committed i rf ∈ emitted) :
    rf.status = .leader ∧
    ∃ entry, rf.logAtIndex rf.commitIndex = .ok entry ∧ entry.logTerm = rf.currentTerm ∧
      ∃ Q : Finset (Fin n), n / 2 + 1 ≤ Q.card ∧ i ∈ Q ∧
        ∀ v ∈ Q, ∃ moment ∈ moments ++ [s'],
          (∃ held ∈ (moment.nodes v).logs, held.logIndex = rf.commitIndex ∧
            held.logTerm = rf.currentTerm ∧ held.command = entry.command) ∨
          (moment.nodes v).lastSnapshotIncludeIndex = rf.commitIndex ∧
            (moment.nodes v).lastSnapshotIncludeTerm = rf.currentTerm := by
  have sound := Cluster.sound_of_trace trace
  have after := Cluster.sound_of_trace (trace.snoc trivial taken)
  obtain ⟨counted, counting⟩ := Cluster.counting_of_trace trace
  have effect := Cluster.step_effect taken
  obtain ⟨here, higher, position, k, a, call, args, reply, appendNums, awaited, request, rfl,
    processed⟩ := effect.committed raised
  have member := List.mem_of_getElem? awaited.found
  obtain ⟨leads, term, index, success, majority, entry, inside, found, entryTerm⟩ :=
    sound.commit member request higher processed
  have tagged := roundTag_of_request request
  have entryIndex : entry.logIndex = rf.commitIndex :=
    ((after.bounded.placed call.src).mem_of_logAtIndex (here ▸ found)).2
  -- The counted servers, the server of this reply and the leader.
  have held := counting.acked (List.mem_of_getElem? awaited.answered) success awaited.found tagged
  have tally := counting.tally.count awaited.found tagged held
  have card := counting.tally.card_count awaited.found tagged awaited.pending
  have bound := counting.counting member tagged
  refine ⟨leads, entry, found, entryTerm,
    insert call.src (countWith counted a call.dst a), ?_, Finset.mem_insert_self _ _, ?_⟩
  · rw [Finset.card_insert_of_notMem (tally.apart member tagged), card]
    omega
  · intro v inside'
    rcases Finset.mem_insert.mp inside' with rfl | counted'
    · exact ⟨s', by simp, Or.inl ⟨entry, by rw [here]; exact inside, entryIndex, entryTerm, rfl⟩⟩
    · obtain ⟨moment, passed, holds⟩ := tally.counts member tagged v counted'
      refine ⟨moment, List.mem_append_left _ passed, ?_⟩
      rw [index, term]
      rcases holds with ⟨other, otherInside, otherIndex, otherTerm⟩ | compacted
      · apply Or.inl
        refine ⟨other, otherInside, otherIndex, otherTerm, ?_⟩
        have appeared : Cluster.Appeared (moments ++ [s']) other :=
          ⟨moment, List.mem_append_left _ passed, Or.inl ⟨v, otherInside⟩⟩
        have appeared' : Cluster.Appeared (moments ++ [s']) entry :=
          ⟨s', by simp, Or.inl ⟨call.src, by rw [here]; exact inside⟩⟩
        rw [after.identified.unique appeared appeared'
          (otherIndex.trans (index.symm.trans entryIndex.symm))
          (otherTerm.trans (term.symm.trans entryTerm.symm))]
      · exact Or.inr compacted

/-- The leader of three nodes has sent its first command, and node 1 has stored
it and answered. -/
def storedOnce (leader : Fin n) : List (Action n) :=
  [.doElection leader, .handle 0, .processReply 0,
    .startConses leader [97], .doHeartBeat leader, .handle 2]

theorem commits_backed_storedOnce :
    ∃ (events emitted : List (Event 3)) (moments : List (Cluster 3)) (s s' : Cluster 3)
      (i : Fin 3) (rf : Raft 3),
      Trace Cluster.step anyStep (Cluster.start 3) events moments s ∧
      s.step (.processReply 1) = some (s', emitted) ∧ .committed i rf ∈ emitted ∧
      rf.commitIndex = 1 ∧ ∃ Q : Finset (Fin 3), 2 ≤ Q.card ∧ i ∈ Q := by
  obtain ⟨events, s, run, checked⟩ := exists_run_of_exec Cluster.step anyStep (Cluster.start 3)
    (storedOnce 0)
    (fun (result : Cluster 3 × List (Event 3)) => (result.1.step (.processReply 1)).any
      fun (next : Cluster 3 × List (Event 3)) =>
        next.2.any (Event.isCommitted fun _ rf => decide (rf.commitIndex = 1)))
    (by decide +kernel)
  simp only [Option.any_eq_true] at checked
  obtain ⟨⟨s', emitted⟩, taken, raised⟩ := checked
  obtain ⟨i, rf, raised, index⟩ := exists_committed raised
  obtain ⟨moments, trace⟩ := run.exists_trace
  obtain ⟨_, _, _, _, Q, majority, inside, _⟩ := commits_backed trace taken raised
  exact ⟨events, emitted, moments, s, s', i, rf, trace, taken, raised,
    of_decide_eq_true index, Q, majority, inside⟩

end CppRaft.Protocol
