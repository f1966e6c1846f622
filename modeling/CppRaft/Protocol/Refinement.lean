import CppRaft.Protocol.ElectionSafety
import CppRaft.Protocol.Simulation

/-!
# Every step of the cluster refines the abstract protocol

This holds of the steps in which no follower keeps entries behind a conflict:
an AppendEntries request is handled without leaving a stale tail, and a snapshot
is installed without keeping a suffix that it contradicts.
-/

namespace CppRaft.Protocol

open CppRaft.Consensus
open CppRaft.Consensus.History
open CppRaft.RaftCore
open CppRaft.Store
open CppRaft.Transition

variable {n : Nat} {h h' : History (Fin n) LogEntry} {events : List (Event n)}
  {s s' : Cluster n} {counted : Nat → Finset (Fin n)}

/-- The handling of a request keeps nothing behind a conflict. -/
def CutsConflicts (s : Cluster n) : Action n → Prop
  | .handle k =>
      match s.calls[k]? with
      | none => True
      | some call =>
          match call.request with
          | .requestVote _ _ => True
          | .appendEntries args _ => ¬ (s.nodes call.dst).LeavesStaleTail args
          | .installSnapshot args => ¬ (s.nodes call.dst).KeepsUnmatchedSuffix args
  | _ => True

instance (s : Cluster n) (action : Action n) : Decidable (CutsConflicts s action) := by
  unfold CutsConflicts
  split
  · split
    · infer_instance
    · split <;> infer_instance
  · infer_instance

/-! ## The steps of a node on its own account -/

theorem Simulates.exit (sim : Simulates events s h counted) (i : Fin n) (fault : Fault) :
    Simulates events (s.exit i fault) h counted :=
  { sim with }

theorem Simulates.stand (sim : Simulates events s h counted) {i : Fin n}
    (me : (s.nodes i).me = i) :
    Simulates (events ++ [.voted i (s.nodes i).candidacy.currentTerm i]) (s.stand i)
      (h.campaign i ((s.nodes i).currentTerm + 1)) counted := by
  have node := sim.node i
  have follows := node.doElection sim.reachable me
  have voted := sim.follow follows [.voted i (s.nodes i).candidacy.currentTerm i] (by
    intro event member
    rw [List.mem_singleton.mp member]
    simp [EventRel, History.campaign, Raft.candidacy, Raft.persist])
  refine { voted.addCalls ?_ ?_ with }
  · intro call member
    obtain ⟨server, _, rfl⟩ := List.mem_map.mp member
    refine ⟨by rw [me], h.log i, by simp [History.campaign], ?_, ?_⟩
    · rw [node.view.getLastLogIndexAndTerm]
    · rw [node.view.getLastLogIndexAndTerm]
  · intro call member
    obtain ⟨server, _, rfl⟩ := List.mem_map.mp member
    rfl

theorem startedCalls_dst (i : Fin n) (round : Nat) (started : List (Fin n × Raft.Outgoing)) :
    ((Cluster.startedCalls i round started).map RpcCall.dst).Sublist (started.map Prod.fst) := by
  induction started with
  | nil => simp [Cluster.startedCalls]
  | cons first rest ih =>
      obtain ⟨server, outgoing⟩ := first
      cases outgoing with
      | appendEntries args => exact ih.cons_cons server
      | snapshot => exact ih.cons server

/-- The heartbeat round of a leader offers its log. -/
theorem Simulates.beat (sim : Simulates events s h counted) {i : Fin n} (me : (s.nodes i).me = i)
    (leads : (s.nodes i).status = .leader) :
    ∃ counted', Simulates events (s.beat i) h counted' := by
  have node := sim.node i
  obtain ⟨leader, current⟩ := node.leads leads
  have commitBound := node.bound
  have beats : (s.nodes i).doHeartBeat = (s.nodes i).heartBeats (s.nodes i).peers := by
    simp [Raft.doHeartBeat, leads]
  have sent : ∀ call ∈ Cluster.startedCalls i s.appendNums.length (s.nodes i).doHeartBeat.1,
      ∃ args, (call.dst, Raft.Outgoing.appendEntries args) ∈ (s.nodes i).doHeartBeat.1 ∧
        call = ⟨i, call.dst, .appendEntries args s.appendNums.length⟩ := by
    intro call member
    obtain ⟨⟨server, outgoing⟩, started, made⟩ := List.mem_filterMap.mp member
    cases outgoing with
    | appendEntries args =>
        cases made
        exact ⟨args, started, rfl⟩
    | snapshot => cases made
  have servers := (startedCalls_dst i s.appendNums.length (s.nodes i).doHeartBeat.1).trans
    (beats ▸ Raft.heartBeats_sublist (s.nodes i) (s.nodes i).peers)
  have offers : ∀ call ∈ Cluster.startedCalls i s.appendNums.length (s.nodes i).doHeartBeat.1,
      CallRel h call ∧ appendTag call =
        some (s.appendNums.length, (s.nodes i).currentTerm, ((h.log i).length : Int)) := by
    intro call member
    obtain ⟨args, started, same⟩ := sent call member
    rw [beats] at started
    obtain ⟨k, short, term, prevLogIndex, prevLogTerm, entries, leaderCommit⟩ :=
      node.view.heartBeatTo (Raft.mem_heartBeats started).2
    have offer : Offer h i args k (h.log i).length :=
      { leads := term ▸ leader
        ordered := short
        bounded := by rw [term, current]
        prevLogIndex := prevLogIndex
        prevLogTerm := by rw [term, current, prevLogTerm]
        entries := by rw [term, current, entries, List.take_length]
        commitBound := by rw [leaderCommit]; exact commitBound
        committed := by rw [term, current, leaderCommit]; exact node.committed }
    have length := offer.length
    rw [same]
    refine ⟨⟨k, _, offer⟩, ?_⟩
    rw [appendTag_of_request rfl, term, length]
  have round := sim.addRound i ((s.nodes i).currentTerm, ((h.log i).length : Int))
    (fun call member => (offers call member).1)
    (by
      intro call member
      obtain ⟨args, _, same⟩ := sent call member
      have peer := servers.subset (List.mem_map_of_mem member)
      have notMe := me_notMem_peers (s.nodes i)
      rw [me] at notMe
      rw [same]
      exact ⟨rfl, fun (equal : i = call.dst) => notMe (equal ▸ peer)⟩)
    (fun call member => (offers call member).2) (servers.nodup (nodup_peers _))
  exact ⟨_, { round with }⟩

theorem Simulates.startConses (sim : Simulates events s h counted) (i : Fin n) (command : Bytes) :
    ∃ h', Simulates events (s.setNode i ((s.nodes i).startConses command).1) h' counted := by
  rcases (s.nodes i).startConses_cases command with ⟨_, refused⟩ | ⟨leads, appended⟩
  · rw [refused]
    exact ⟨h, sim.follow_silent (.refl (sim.node i))⟩
  · rw [appended]
    obtain ⟨steps, node⟩ := (sim.node i).startConses sim.reachable leads command
    have moved := sim.move steps node.persist [] (by simp)
      (fun elected => by
        rw [List.append_nil]
        exact sim.leader elected)
      (by
        intro t elected
        by_cases own : t = h.term i
        · subst own
          have view := node.view.indexed
          simpa [History.propose] using view
        · have old : h.Elected t := elected
          simpa [History.propose, own] using sim.indexed old)
    rw [List.append_nil] at moved
    exact ⟨_, moved⟩

theorem Simulates.getApplyLogs (sim : Simulates events s h counted) {i : Fin n} {rf : Raft n}
    {applyMsgs : List ApplyMsg} (collected : (s.nodes i).getApplyLogs = .ok (rf, applyMsgs)) :
    Simulates (events ++ applyMsgs.map (Event.emitted i)) (s.setNode i rf) h counted := by
  have node := sim.node i
  have bound := node.bound
  have nonneg := node.compacted.trans' node.view.snapshotNonneg
  simp only [Raft.getApplyLogs, bind_eq_ok] at collected
  obtain ⟨_, _, applied⟩ := collected
  have sameNode := Raft.applyLoop_eq applied
  have kept : NodeRel h i rf := by
    rw [sameNode]
    exact node.congr rfl rfl rfl rfl rfl rfl id
  apply sim.follow (.refl kept) _
  intro event member
  obtain ⟨msg, emitted, rfl⟩ := List.mem_map.mp member
  obtain ⟨k, entry, found, index, command, above, below⟩ :=
    node.view.applyLoop applied msg emitted
  refine ⟨_, _, k, entry, node.committed, ?_, index, command⟩
  rw [List.getElem?_take_of_lt (by omega)]
  exact found

theorem Simulates.sendSnapshot (sim : Simulates events s h counted) (thread : Nat)
    (i server : Fin n) : Simulates events (s.sendSnapshot thread i server) h counted := by
  have node := sim.node i
  have kept : NodeRel h i (s.nodes i).snapshotArgs.1 := node.congr rfl rfl rfl rfl rfl rfl id
  have read := sim.follow_silent (.refl kept)
  have described :
      ∀ call ∈ [(⟨i, server, .installSnapshot (s.nodes i).snapshotArgs.2⟩ : RpcCall n)],
        CallRel h call := by
    intro call member
    rw [List.mem_singleton.mp member]
    exact ⟨_, node.covers⟩
  exact { read.addCalls described (by simp [appendTag]) with }

/-! ## Requests and replies -/

theorem Simulates.requestVote (sim : Simulates events s h counted) {k a : Nat} {call : RpcCall n}
    {args : RequestVoteArgs} {rf : Raft n} {reply : RequestVoteReply}
    (found : s.calls[k]? = some call) (request : call.request = .requestVote args a)
    (handled : (s.nodes call.dst).requestVote args = .ok (rf, reply)) :
    ∃ h', Simulates
      (events ++ if reply.voteGranted then [.voted call.dst reply.term call.src] else [])
      ((s.setNode call.dst rf).addReply k (.requestVote reply)) h' counted := by
  have rel := sim.call call (List.mem_of_getElem? found)
  simp only [CallRel, request] at rel
  obtain ⟨h', follows, voted⟩ := (sim.node call.dst).requestVote sim.reachable rel handled
  have moved := sim.follow follows
    (if reply.voteGranted then [.voted call.dst reply.term call.src] else []) (by
      intro event member
      split at member
      · rename_i granted
        rw [List.mem_singleton.mp member]
        exact voted granted
      · cases member)
  refine ⟨h', moved.addReply k _ ?_⟩
  intro answer same
  cases same

/-- A follower that cuts its conflicts acknowledges what it has been offered. -/
theorem Simulates.appendEntries1 (sim : Simulates events s h counted) {k a : Nat}
    {call : RpcCall n} {args : AppendEntriesArgs} {rf : Raft n} {reply : AppendEntriesReply}
    (found : s.calls[k]? = some call) (request : call.request = .appendEntries args a)
    (cuts : ¬ (s.nodes call.dst).LeavesStaleTail args)
    (handled : (s.nodes call.dst).appendEntries1 args = .ok (rf, reply)) :
    ∃ h', Simulates events ((s.setNode call.dst rf).addReply k (.appendEntries reply)) h'
      counted := by
  have rel := sim.call call (List.mem_of_getElem? found)
  simp only [CallRel, request] at rel
  obtain ⟨first, last, offer⟩ := rel
  have leaderIndexed := sim.indexed ⟨call.src, offer.leads⟩
  obtain ⟨h', follows, acked⟩ :=
    (sim.node call.dst).appendEntries1 sim.reachable offer leaderIndexed cuts handled
  refine ⟨h', (sim.follow_silent follows).addReply k _ ?_⟩
  intro answer same success
  cases same
  obtain ⟨term, reached⟩ := acked success
  refine ⟨call, args, a, found, request, term, ?_⟩
  rw [Acked, offer.length]
  exact reached

theorem Simulates.installSnapshot (sim : Simulates events s h counted) {k : Nat}
    {call : RpcCall n} {args : InstallSnapshotRequest} {rf : Raft n}
    {reply : InstallSnapshotResponse} {msg : Option ApplyMsg}
    (found : s.calls[k]? = some call) (request : call.request = .installSnapshot args)
    (cuts : ¬ (s.nodes call.dst).KeepsUnmatchedSuffix args)
    (handled : (s.nodes call.dst).installSnapshot args = .ok (rf, reply, msg)) :
    ∃ h', Simulates events ((s.setNode call.dst rf).addReply k (.installSnapshot reply)) h'
      counted := by
  have rel := sim.call call (List.mem_of_getElem? found)
  simp only [CallRel, request] at rel
  obtain ⟨l, covers⟩ := rel
  obtain ⟨h', follows⟩ :=
    (sim.node call.dst).installSnapshot sim.reachable covers cuts handled
  refine ⟨h', (sim.follow_silent follows).addReply k _ ?_⟩
  intro answer same
  cases same

/-- A vote reply: the node adopts a term, is elected, or does nothing. -/
theorem Simulates.sendRequestVote (sim : Simulates events s h counted)
    {votes : Nat → Finset (Fin n)} {i : Fin n} {reply : RequestVoteReply} {votedNum : Int}
    {outcome : Raft.VoteOutcome n}
    (processed : (s.nodes i).sendRequestVote reply votedNum = .ok outcome)
    (inv : Election (events ++ if outcome.elected then [.elected i outcome.rf] else []) s' votes) :
    ∃ h', Simulates (events ++ if outcome.elected then [.elected i outcome.rf] else [])
      (s.setNode i outcome.rf) h' counted := by
  have node := sim.node i
  rcases Raft.sendRequestVote_cases processed with ⟨later, rfl⟩ | ⟨_, rfl⟩ | ⟨_, _, rfl⟩ |
    ⟨_, _, _, _, rfl⟩
  · obtain ⟨h', follows⟩ := node.adoptTerm sim.reachable later
    exact ⟨h', sim.follow (follows.mapNode follows.node.persist) _ (by simp)⟩
  · exact ⟨h, sim.follow (.refl node) _ (by simp)⟩
  · exact ⟨h, sim.follow (.refl node) _ (by simp)⟩
  · simp only [if_true] at inv ⊢
    have sameTerm : (s.nodes i).becomeLeader.currentTerm = (s.nodes i).currentTerm := rfl
    have electedNow : Event.elected i (s.nodes i).becomeLeader ∈
        events ++ [.elected i (s.nodes i).becomeLeader] := by simp
    have vacant : h.leader (s.nodes i).currentTerm = none := by
      cases leads : h.leader (s.nodes i).currentTerm with
      | none => rfl
      | some c =>
          obtain ⟨rf, before, term⟩ := sim.leader leads
          have apart := (List.pairwise_append.mp inv.once).2.2 _ before _
            (List.mem_singleton_self _) (s.nodes i).currentTerm (by rw [Event.electedTerm, term])
          exact absurd rfl apart
    obtain ⟨Q, majority, voted⟩ := inv.quorum electedNow
    obtain ⟨steps, leader⟩ := node.becomeLeader sim.reachable vacant majority (by
      intro w member
      have vote : Event.voted w (s.nodes i).currentTerm i ∈ events := by
        simpa [sameTerm] using voted w member
      exact sim.event _ vote)
    have term := node.term
    refine ⟨_, sim.move steps leader _ ?_ ?_ ?_⟩
    · intro event member
      rw [List.mem_singleton.mp member]
      refine ⟨by simp [History.elect, sameTerm, term], ?_⟩
      simpa [History.elect, sameTerm, term] using leader.view
    · intro t c leads
      by_cases own : t = (s.nodes i).currentTerm
      · subst own
        obtain rfl : i = c := by simpa [History.elect, term] using leads
        exact ⟨_, electedNow, sameTerm⟩
      · have before : h.leader t = some c := by simpa [History.elect, term, own] using leads
        exact (sim.leader before).mono _
    · rintro t ⟨c, leads⟩
      by_cases own : t = (s.nodes i).currentTerm
      · subst own
        simpa [History.elect, term] using node.view.indexed
      · have before : h.leader t = some c := by simpa [History.elect, term, own] using leads
        simpa [History.elect, term, own] using sim.indexed ⟨c, before⟩

theorem getLast?_entries {l : List LogEntry} {k m : Nat} {term : Int}
    (last : ((l.take m).drop k).getLast?.map LogEntry.logTerm = some term) :
    0 < m ∧ lastTerm (l.take m) = term := by
  rw [List.getLast?_drop] at last
  split at last
  · simp at last
  · rename_i long
    constructor
    · rw [List.length_take] at long
      omega
    · have same : (l.take m).getLast?.map termOf = some term := last
      rw [lastTerm, same, Option.getD_some]

/-- A leader that completes a majority of a round commits what it offered. -/
theorem Simulates.commitRound (sim : Simulates events s h counted) {k a : Nat} {call : RpcCall n}
    {args : AppendEntriesArgs} (found : s.calls[k]? = some call)
    (request : call.request = .appendEntries args a) (pending : k ∉ s.finished)
    (acked : Acked h (args.term, args.prevLogIndex + args.entries.length) call.dst)
    (leads : (s.nodes call.src).status = .leader)
    (current : args.term = (s.nodes call.src).currentTerm)
    (majority : ((n / 2 : Nat) : Int) ≤ s.appendNums.getD a 0)
    (stamped : args.entries.getLast?.map LogEntry.logTerm =
      some (s.nodes call.src).currentTerm) :
    ∃ h', Follows h h' call.src
      { s.nodes call.src with
        commitIndex := max (s.nodes call.src).commitIndex
          (args.prevLogIndex + args.entries.length) } := by
  have member := List.mem_of_getElem? found
  have tagged := appendTag_of_request request
  have node := sim.node call.src
  have rel := sim.call call member
  simp only [CallRel, request] at rel
  obtain ⟨first, last, offer⟩ := rel
  have length := offer.length
  have bounded := offer.bounded
  have leaderLog := (node.leads leads).2
  rw [← current] at leaderLog
  rw [offer.entries] at stamped
  obtain ⟨positive, stamp⟩ := getLast?_entries stamped
  rw [leaderLog] at bounded stamp
  have tally := sim.tally.count found tagged acked
  have card := sim.tally.card_count found tagged pending
  have counting := sim.counting member request
  have quorum : Majority (insert call.src (countWith counted a call.dst a)) := by
    unfold Majority
    rw [Finset.card_insert_of_notMem (tally.apart member tagged), card, Fintype.card_fin]
    omega
  rw [length]
  apply node.leaderCommit leads positive bounded stamp quorum
  intro w inside
  have reached := tally.counts member tagged w inside
  rw [Acked, length, Int.toNat_natCast] at reached
  rw [← current]
  exact reached

theorem Simulates.sendAppendEntries (sim : Simulates events s h counted) {position k a : Nat}
    {call : RpcCall n} {args : AppendEntriesArgs} {reply : AppendEntriesReply} {rf : Raft n}
    {appendNums : Int} (awaited : s.Awaited position k call (.appendEntries reply))
    (request : call.request = .appendEntries args a)
    (processed : (s.nodes call.src).sendAppendEntries call.dst args reply
      (s.appendNums.getD a 0) = .ok (rf, appendNums)) :
    ∃ h' counted', Simulates
      (events ++ if rf.commitIndex > (s.nodes call.src).commitIndex then
        [.committed call.src rf] else [])
      { (s.setNode call.src rf).finish k with appendNums := s.appendNums.set a appendNums }
      h' counted' := by
  have found := awaited.found
  have pending := awaited.pending
  have answered := List.mem_of_getElem? awaited.answered
  have node := sim.node call.src
  have inside := sim.tally.bound (List.mem_of_getElem? found) (appendTag_of_request request)
  have shown : ∀ {h'}, NodeRel h' call.src rf →
      ∀ event ∈ (if rf.commitIndex > (s.nodes call.src).commitIndex then
        [Event.committed call.src rf] else []), EventRel h' event := by
    intro h' node' event member
    split at member
    · rw [List.mem_singleton.mp member]
      exact ⟨h'.log call.src, node'.view, node'.bound, node'.committed⟩
    · cases member
  -- A reply that is not counted leaves the counter alone.
  have uncounted : ∀ {h'}, Follows h h' call.src rf → appendNums = s.appendNums.getD a 0 →
      ∃ h' counted', Simulates
        (events ++ if rf.commitIndex > (s.nodes call.src).commitIndex then
          [.committed call.src rf] else [])
        { (s.setNode call.src rf).finish k with appendNums := s.appendNums.set a appendNums }
        h' counted' := by
    intro h' follows same
    refine ⟨h', counted, ?_⟩
    rw [same, set_getD_self inside]
    exact (sim.follow follows _ (shown follows.node)).finish k
  have countedReply : ∀ {h'}, Follows h h' call.src rf →
      Acked h (args.term, args.prevLogIndex + args.entries.length) call.dst →
      appendNums ≤ s.appendNums.getD a 0 + 1 ∨ appendNums = 0 →
      ∃ h' counted', Simulates
        (events ++ if rf.commitIndex > (s.nodes call.src).commitIndex then
          [.committed call.src rf] else [])
        { (s.setNode call.src rf).finish k with appendNums := s.appendNums.set a appendNums }
        h' counted' := by
    intro h' follows acked raised
    have moved := sim.follow follows _ (shown follows.node)
    have ext := (follows.steps.moves sim.reachable).ext
    exact ⟨h', _, moved.count found request pending (acked.mono ext) raised⟩
  rcases Raft.sendAppendEntries_cases processed with ⟨_, later, rfl, same⟩ |
    ⟨same, nextIndex, rfl⟩ | ⟨term, leads, success, nextIndex, matchIndex, commitIndex, rfl, counts⟩
  · obtain ⟨h', follows⟩ := node.adoptTerm sim.reachable later
    exact uncounted follows same
  · exact uncounted (.refl (node.congr rfl rfl rfl rfl rfl rfl id)) same
  · obtain ⟨call', args', a', found', request', term', acked⟩ := sim.reply answered success
    rw [found, Option.some.injEq] at found'
    subst found'
    rw [request, Request.appendEntries.injEq] at request'
    obtain ⟨rfl, rfl⟩ := request'
    rcases counts with ⟨raised, rfl⟩ | ⟨majority, reset, _, rfl | ⟨stamped, rfl⟩⟩
    · exact countedReply (.refl (node.congr rfl rfl rfl rfl rfl rfl id)) acked (Or.inl raised.le)
    · exact countedReply (.refl (node.congr rfl rfl rfl rfl rfl rfl id)) acked (Or.inr reset)
    · obtain ⟨h', follows⟩ := sim.commitRound found request pending acked leads
        (term'.symm.trans term) majority stamped
      exact countedReply (follows.mapNode (follows.node.congr rfl rfl rfl rfl rfl rfl id)) acked
        (Or.inr reset)

/-! ## Runs -/

/-- Every step that cuts conflicts keeps the simulation. -/
theorem Simulates.step (sim : Simulates events s h counted) {votes votes' : Nat → Finset (Fin n)}
    (inv : Election events s votes) {action : Action n} {emitted : List (Event n)}
    (cuts : CutsConflicts s action) (taken : s.step action = some (s', emitted))
    (inv' : Election (events ++ emitted) s' votes') :
    ∃ h' counted', Simulates (events ++ emitted) s' h' counted' := by
  cases Cluster.step_effect taken with
  | idle => exact ⟨h, counted, by rwa [List.append_nil]⟩
  | fail =>
      rw [List.append_nil]
      exact ⟨h, counted, sim.exit _ _⟩
  | doElection => exact ⟨_, counted, sim.stand (inv.me _)⟩
  | doHeartBeat leads =>
      rw [List.append_nil]
      exact ⟨h, sim.beat (inv.me _) leads⟩
  | doHeartBeatFail leads =>
      rw [List.append_nil]
      obtain ⟨counted', round⟩ := sim.beat (inv.me _) leads
      exact ⟨h, counted', round.exit _ _⟩
  | startConses =>
      rw [List.append_nil]
      obtain ⟨h', next⟩ := sim.startConses _ _
      exact ⟨h', counted, next⟩
  | getApplyLogs collected => exact ⟨h, counted, sim.getApplyLogs collected⟩
  | snapshot compacted =>
      rw [List.append_nil]
      exact ⟨h, counted, sim.follow_silent (.refl ((sim.node _).snapshot compacted))⟩
  | sendSnapshot =>
      rw [List.append_nil]
      exact ⟨h, counted, sim.sendSnapshot _ _ _⟩
  | requestVote found request handled =>
      obtain ⟨h', next⟩ := sim.requestVote found request handled
      exact ⟨h', counted, next⟩
  | appendEntries1 found request handled =>
      rw [List.append_nil]
      simp only [CutsConflicts, found, request] at cuts
      obtain ⟨h', next⟩ := sim.appendEntries1 found request cuts handled
      exact ⟨h', counted, next⟩
  | installSnapshot found request handled =>
      rw [List.append_nil]
      simp only [CutsConflicts, found, request] at cuts
      obtain ⟨h', next⟩ := sim.installSnapshot found request cuts handled
      exact ⟨h', counted, next⟩
  | sendRequestVote awaited request processed =>
      obtain ⟨h', next⟩ := sim.sendRequestVote processed inv'
      exact ⟨h', counted, { next.finish _ with }⟩
  | sendAppendEntries awaited request processed =>
      exact sim.sendAppendEntries awaited request processed
  | @leaderSendSnapShot position k call args reply awaited request =>
      rw [List.append_nil]
      obtain ⟨h', follows⟩ := (sim.node call.src).leaderSendSnapShot sim.reachable call.dst args
        reply
      exact ⟨h', counted, (sim.follow_silent follows).finish k⟩

/-- A run that cuts conflicts is described by a reachable history. -/
theorem simulates_of_run (run : ClusterRun CutsConflicts events s) :
    ∃ (h : History (Fin n) LogEntry) (counted : Nat → Finset (Fin n)),
      Simulates events s h counted := by
  induction run with
  | nil => exact ⟨_, _, simulates_start n⟩
  | snoc before accepted taken ih =>
      obtain ⟨h, counted, sim⟩ := ih
      obtain ⟨votes, inv⟩ := election_of_run before
      obtain ⟨votes', inv'⟩ := election_of_run (before.snoc accepted taken)
      exact sim.step inv accepted taken inv'

end CppRaft.Protocol
