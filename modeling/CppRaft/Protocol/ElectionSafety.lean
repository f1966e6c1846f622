import CppRaft.Protocol.Election

/-!
# Election safety of the cluster

Every step of the cluster keeps the invariant of elections.  In every run there
is at most one election event for a term, and the assertion of
`sendRequestVote` against a second one never fails.
-/

namespace CppRaft.Protocol

open CppRaft.Consensus
open CppRaft.RaftCore
open CppRaft.Store
open CppRaft.Transition

variable {n : Nat} {events : List (Event n)} {s : Cluster n} {counted : Nat → Finset (Fin n)}

/-! ## The steps of a node on its own account -/

theorem nodup_peers (rf : Raft n) : rf.peers.Nodup :=
  (List.nodup_finRange n).filter _

theorem me_notMem_peers (rf : Raft n) : rf.me ∉ rf.peers := by
  simp [Raft.peers]

/-- The node enters the new term without a vote, votes for itself and asks its
peers. -/
theorem Election.stand (inv : Election events s counted) (i : Fin n) :
    Election (events ++ [.voted i (s.nodes i).candidacy.currentTerm i]) (s.stand i)
      (Function.update counted s.votedNums.length ∅) := by
  have me := inv.me i
  have entered := inv.setNode i
    { s.nodes i with
      status := .candidate, currentTerm := (s.nodes i).currentTerm + 1, votedFor := -1 }
    (.of_later rfl (Int.lt_succ _) (by simp))
  have voted := entered.vote i i (s.nodes i).candidacy
    (by simpa [Raft.candidacy, Raft.persist] using me)
    (by simp [Raft.candidacy, Raft.persist])
    (by simp [Raft.candidacy, Raft.persist, me])
    (by simp) (by simp [Raft.candidacy, Raft.persist])
  rw [Cluster.setNode_setNode] at voted
  have fresh : ∀ call ∈ s.calls, ∀ args a, call.request = .requestVote args a → call.src = i →
      args.term ≠ (s.nodes i).currentTerm + 1 := by
    rintro call member args a request rfl
    have bound := (inv.asked member request).2.1
    omega
  have notWon : ¬ Won (events ++ [.voted i (s.nodes i).candidacy.currentTerm i]) i
      ((s.nodes i).currentTerm + 1) := by
    rintro ⟨rf, elected, term⟩
    have bound := inv.wonBound ⟨rf, by simpa using elected, term⟩
    omega
  have notPeer : i ∉ (s.nodes i).candidacy.peers := by
    have notPeer := me_notMem_peers (s.nodes i).candidacy
    rwa [show (s.nodes i).candidacy.me = i from me] at notPeer
  exact voted.addRound i
    { term := (s.nodes i).currentTerm + 1
      candidateId := ((s.nodes i).me : Int)
      lastLogIndex := (s.nodes i).getLastLogIndexAndTerm.1
      lastLogTerm := (s.nodes i).getLastLogIndexAndTerm.2 }
    (s.nodes i).candidacy.peers (nodup_peers _) notPeer (by rw [me])
    (by simp [Raft.candidacy, Raft.persist]) (by simp [Raft.candidacy, Raft.persist])
    notWon fresh

theorem voteTag_startedCalls (i : Fin n) (round : Nat) (started : List (Fin n × Raft.Outgoing)) :
    ∀ call ∈ Cluster.startedCalls i round started, voteTag call = none := by
  intro call member
  obtain ⟨⟨server, outgoing⟩, _, made⟩ := List.mem_filterMap.mp member
  cases outgoing with
  | appendEntries args =>
      cases made
      rfl
  | snapshot => cases made

theorem Election.beat (inv : Election events s counted) (i : Fin n) :
    Election events (s.beat i) counted :=
  { inv.addCalls (voteTag_startedCalls i s.appendNums.length (s.nodes i).doHeartBeat.1) with }

theorem Election.sendSnapshot (inv : Election events s counted) (thread : Nat) (i server : Fin n) :
    Election events (s.sendSnapshot thread i server) counted := by
  have read := inv.setNode i (s.nodes i).snapshotArgs.1 (.of_same rfl rfl rfl id)
  have untagged : ∀ call ∈ [(⟨i, server, .installSnapshot (s.nodes i).snapshotArgs.2⟩ : RpcCall n)],
      voteTag call = none := by
    simp [voteTag]
  exact { read.addCalls untagged with }

/-! ## Requests and replies -/

/-- A vote that is granted is an event, and answers what was asked. -/
theorem Election.requestVote (inv : Election events s counted) {k a : Nat} {call : RpcCall n}
    {args : RequestVoteArgs} {rf : Raft n} {reply : RequestVoteReply}
    (found : s.calls[k]? = some call) (request : call.request = .requestVote args a)
    (handled : (s.nodes call.dst).requestVote args = .ok (rf, reply)) :
    Election (events ++ if reply.voteGranted then [.voted call.dst reply.term call.src] else [])
      ((s.setNode call.dst rf).addReply k (.requestVote reply)) counted := by
  have member := List.mem_of_getElem? found
  rcases Raft.requestVote_cases handled with ⟨_, rfl, refused⟩ |
    ⟨notOutdated, rfl, refused⟩ | ⟨notOutdated, granted, term, _, free, rfl⟩
  · simp only [refused, Bool.false_eq_true, if_false, List.append_nil]
    apply (inv.setNode _ _ (Raft.voteFrame_persist _)).addReply k _
    rintro vote same given
    cases same
    rw [refused] at given
    cases given
  · simp only [refused, Bool.false_eq_true, if_false, List.append_nil]
    refine (inv.setNode _ _ ((Raft.voteFrame_meetTerm _ notOutdated).trans
      (Raft.voteFrame_persist _))).addReply k _ ?_
    rintro vote same given
    cases same
    rw [refused] at given
    cases given
  · simp only [granted, if_true]
    have own := (inv.asked member request).1
    have metTerm := (s.nodes call.dst).meetTerm_currentTerm notOutdated
    have met := inv.setNode call.dst _ (Raft.voteFrame_meetTerm _ notOutdated)
    have voted := met.vote call.dst call.src
      { (s.nodes call.dst).meetTerm args.term with votedFor := args.candidateId }.persist
      ((Raft.voteFrame_meetTerm _ notOutdated).me.trans (inv.me _))
      (by simp [Raft.persist]) own
      (by rwa [Cluster.setNode_nodes_self, ← own])
      (by simp [Raft.persist])
    rw [Cluster.setNode_setNode] at voted
    have sameTerm : { (s.nodes call.dst).meetTerm args.term with
        votedFor := args.candidateId }.persist.currentTerm = args.term := metTerm
    rw [sameTerm] at voted
    rw [term]
    apply voted.addReply k _
    rintro vote same _
    cases same
    exact ⟨call, args, a, found, request, term, by simp⟩

/-- A node changes without giving a vote, and answers another request. -/
theorem Election.answer (inv : Election events s counted) {k : Nat} {i : Fin n} {rf : Raft n}
    {reply : Reply} (frame : (s.nodes i).VoteFrame rf)
    (other : ∀ vote, reply ≠ .requestVote vote) :
    Election events ((s.setNode i rf).addReply k reply) counted :=
  (inv.setNode i rf frame).addReply k reply fun vote same => absurd same (other vote)

theorem set_getD_self {counters : List Int} {a : Nat} (inside : a < counters.length) :
    counters.set a (counters.getD a 0) = counters := by
  apply List.ext_getElem?
  intro a'
  by_cases same : a = a'
  · subst same
    simp [List.getD_eq_getElem?_getD, inside]
  · rw [List.getElem?_set_ne same]

/-- A granted vote answers what its call has asked. -/
theorem Election.granted_voted (inv : Election events s counted) {k a : Nat} {call : RpcCall n}
    {args : RequestVoteArgs} {vote : RequestVoteReply} (found : s.calls[k]? = some call)
    (request : call.request = .requestVote args a)
    (answered : (k, Reply.requestVote vote) ∈ s.replies) (given : vote.voteGranted = true) :
    vote.term = args.term ∧ .voted call.dst args.term call.src ∈ events := by
  obtain ⟨call', args', a', found', request', term, voted⟩ := inv.granted answered given
  rw [found, Option.some.injEq] at found'
  subst found'
  rw [request, Request.requestVote.injEq] at request'
  obtain ⟨rfl, rfl⟩ := request'
  exact ⟨term, voted⟩

/-- The reply to a request for a vote. -/
theorem Election.sendRequestVote (inv : Election events s counted) {position k a : Nat}
    {call : RpcCall n} {args : RequestVoteArgs} {reply : RequestVoteReply}
    {outcome : Raft.VoteOutcome n} (awaited : s.Awaited position k call (.requestVote reply))
    (request : call.request = .requestVote args a)
    (processed : (s.nodes call.src).sendRequestVote reply (s.votedNums.getD a 0) = .ok outcome) :
    ∃ counted', Election
      (events ++ if outcome.elected then [.elected call.src outcome.rf] else [])
      { (s.setNode call.src outcome.rf).finish k with
        votedNums := s.votedNums.set a outcome.votedNum } counted' := by
  have found := awaited.found
  have pending := awaited.pending
  have inside := inv.tally.bound (List.mem_of_getElem? found) (voteTag_of_request request)
  have voted := inv.granted_voted found request (List.mem_of_getElem? awaited.answered)
  rcases Raft.sendRequestVote_cases processed with ⟨later, rfl⟩ | ⟨_, rfl⟩ |
    ⟨term, given, rfl⟩ | ⟨term, given, majority, _, rfl⟩
  · refine ⟨counted, ?_⟩
    have adopted := (inv.setNode call.src _ ((Raft.voteFrame_adoptTerm _ later).trans
      (Raft.voteFrame_persist _))).finish k
    simp only [set_getD_self inside, Bool.false_eq_true, if_false, List.append_nil]
    exact adopted
  · refine ⟨counted, ?_⟩
    have kept := (inv.setNode call.src _ (Raft.VoteFrame.refl _)).finish k
    simp only [set_getD_self inside, Bool.false_eq_true, if_false, List.append_nil]
    exact kept
  · obtain ⟨sameTerm, vote'⟩ := voted given
    have kept := inv.setNode call.src _ (Raft.VoteFrame.refl _)
    have counting := kept.count found request pending vote'
    refine ⟨countWith counted a call.dst, ?_⟩
    simp only [Bool.false_eq_true, if_false, List.append_nil]
    exact { counting with }
  · obtain ⟨sameTerm, vote'⟩ := voted given
    exact ⟨_, inv.win found request pending vote' majority (term.symm.trans sameTerm)⟩

/-- The reply to a heartbeat decides nothing. -/
theorem Election.sendAppendEntries (inv : Election events s counted) {k a : Nat}
    {call : RpcCall n} {rf : Raft n} {appendNums : Int} (frame : (s.nodes call.src).VoteFrame rf) :
    Election
      (events ++ if rf.commitIndex > (s.nodes call.src).commitIndex then
        [.committed call.src rf] else [])
      { (s.setNode call.src rf).finish k with appendNums := s.appendNums.set a appendNums }
      counted := by
  have moved := (inv.setNode call.src rf frame).finish k
  have renumbered : Election events
      { (s.setNode call.src rf).finish k with appendNums := s.appendNums.set a appendNums }
      counted :=
    { moved with }
  apply renumbered.quiet
  intro event member
  split at member
  · rw [List.mem_singleton.mp member]
    trivial
  · cases member

/-- No function fails the assertion against a second election. -/
theorem Election.failure_ne (inv : Election events s counted) {action : Action n} {i : Fin n}
    {fault : Fault} (failure : s.Failure action i fault) : fault ≠ .electedTwice := by
  rintro rfl
  cases failure with
  | getApplyLogs failed => exact Raft.avoids_getApplyLogs _ failed
  | snapshot failed => exact Raft.avoids_snapshot _ _ _ failed
  | requestVote _ _ failed => exact Raft.avoids_requestVote _ _ failed
  | appendEntries1 _ _ failed => exact Raft.avoids_appendEntries1 _ _ failed
  | installSnapshot _ _ failed => exact Raft.avoids_installSnapshot _ _ failed
  | sendAppendEntries _ _ failed => exact Raft.avoids_sendAppendEntries _ _ _ _ _ failed
  | sendRequestVote awaited request failed =>
      obtain ⟨term, given, majority, leads⟩ := Raft.sendRequestVote_fault failed
      obtain ⟨sameTerm, voted⟩ := inv.granted_voted awaited.found request
        (List.mem_of_getElem? awaited.answered) given
      have won := inv.leads leads
      rw [← term, sameTerm] at won
      exact inv.not_won awaited.found request awaited.pending voted majority won

/-! ## Winners -/

theorem Won.append {emitted : List (Event n)} {c : Fin n} {T : Int} (won : Won events c T) :
    Won (events ++ emitted) c T := by
  obtain ⟨rf, elected, term⟩ := won
  exact ⟨rf, List.mem_append_left _ elected, term⟩

/-- A term has one winner. -/
theorem Election.winner_unique (inv : Election events s counted) {c d : Fin n} {T : Int}
    (won : Won events c T) (won' : Won events d T) : c = d := by
  obtain ⟨rf, elected, rfl⟩ := won'
  obtain ⟨Q, majority, votes⟩ := inv.quorum elected
  exact inv.won_unique won majority votes

/-- A term that a step decides had no winner before it. -/
theorem Election.not_won_before {emitted : List (Event n)}
    (inv : Election (events ++ emitted) s counted) {v : Fin n} {rf : Raft n}
    (elected : .elected v rf ∈ emitted) (c : Fin n) :
    ¬ Won events c rf.currentTerm := by
  rintro ⟨rf', before, sameTerm⟩
  have apart := (List.pairwise_append.mp inv.once).2.2 _ before _ elected
  exact apart rf.currentTerm (by rw [← sameTerm]; rfl) rfl

/-! ## Runs -/

/-- Every step of the cluster keeps the invariant of elections. -/
theorem Election.step (inv : Election events s counted) {action : Action n} {s' : Cluster n}
    {emitted : List (Event n)} (taken : s.step action = some (s', emitted)) :
    ∃ counted', Election (events ++ emitted) s' counted' := by
  cases Cluster.step_effect taken with
  | idle => exact ⟨counted, by rwa [List.append_nil]⟩
  | fail failure =>
      rw [List.append_nil]
      exact ⟨counted, inv.exit _ (inv.failure_ne failure)⟩
  | doElection => exact ⟨_, inv.stand _⟩
  | doHeartBeat =>
      rw [List.append_nil]
      exact ⟨counted, inv.beat _⟩
  | @doHeartBeatFail i fault leads failed =>
      rw [List.append_nil]
      refine ⟨counted, (inv.beat i).exit i ?_⟩
      rintro rfl
      simp only [Raft.doHeartBeat, leads, if_true] at failed
      exact Raft.heartBeats_fault _ _ failed
  | startConses =>
      rw [List.append_nil]
      exact ⟨counted, inv.setNode _ _ (Raft.voteFrame_startConses _ _)⟩
  | getApplyLogs collected =>
      refine ⟨counted, (inv.setNode _ _ (Raft.voteFrame_getApplyLogs collected)).quiet ?_⟩
      intro event member
      obtain ⟨msg, _, rfl⟩ := List.mem_map.mp member
      trivial
  | snapshot compacted =>
      rw [List.append_nil]
      exact ⟨counted, inv.setNode _ _ (Raft.voteFrame_snapshot compacted)⟩
  | sendSnapshot =>
      rw [List.append_nil]
      exact ⟨counted, inv.sendSnapshot _ _ _⟩
  | requestVote found request handled => exact ⟨counted, inv.requestVote found request handled⟩
  | appendEntries1 _ _ handled =>
      rw [List.append_nil]
      exact ⟨counted, inv.answer (Raft.voteFrame_appendEntries1 handled) (by simp)⟩
  | installSnapshot _ _ handled =>
      rw [List.append_nil]
      exact ⟨counted, inv.answer (Raft.voteFrame_installSnapshot handled) (by simp)⟩
  | sendRequestVote awaited request processed =>
      exact inv.sendRequestVote awaited request processed
  | sendAppendEntries awaited request processed =>
      exact ⟨counted, inv.sendAppendEntries (Raft.voteFrame_sendAppendEntries processed)⟩
  | leaderSendSnapShot =>
      rw [List.append_nil]
      exact ⟨counted, (inv.setNode _ _ (Raft.voteFrame_leaderSendSnapShot _ _ _ _)).finish _⟩

/-- The invariant of elections holds along every run. -/
theorem election_of_run {guard : Cluster n → Action n → Prop}
    (run : ClusterRun guard events s) : ∃ counted, Election events s counted := by
  induction run with
  | nil => exact ⟨_, election_start n⟩
  | snoc _ _ taken ih =>
      obtain ⟨counted, inv⟩ := ih
      exact inv.step taken

/-- A node that leads one term at two moments has led it all the time between:
what holds at the first moment and is kept by every step over which the node
goes on leading holds at the second. -/
theorem while_leading {guard : Cluster n → Action n → Prop} {i : Fin n} {T : Int}
    {P : Cluster n → Prop} (run : ClusterRun guard events s)
    (leads : (s.nodes i).status = .leader) (term : (s.nodes i).currentTerm = T)
    {more : List (Event n)} {s' : Cluster n} (later : Run Cluster.step guard s more s')
    (leads' : (s'.nodes i).status = .leader) (term' : (s'.nodes i).currentTerm = T)
    (here : P s)
    (kept : ∀ {seen : List (Event n)} {state target : Cluster n} {action : Action n}
      {emitted : List (Event n)}, ClusterRun guard seen state → P state → guard state action →
      state.step action = some (target, emitted) → (state.nodes i).status = .leader →
      (target.nodes i).status = .leader →
      (target.nodes i).currentTerm = (state.nodes i).currentTerm → P target) : P s' := by
  induction later with
  | nil => exact here
  | @snoc more state action target emitted before accepted taken ih =>
      have moved := (Cluster.step_effect taken).moved i
      rcases moved.leads leads' with ⟨led, sameTerm⟩ | ⟨_, _, elected⟩
      · exact kept (run.append before) (ih led (sameTerm.symm.trans term')) accepted taken led
          leads' sameTerm
      · -- The node has won this term already, and cannot win it again.
        obtain ⟨counted, election⟩ := election_of_run run
        have won := election.leads leads
        have whole := (run.append before).snoc accepted taken
        obtain ⟨counted', election'⟩ := election_of_run whole
        have noWinner := election'.not_won_before elected i
        rw [term', ← term] at noWinner
        exact absurd won.append noWinner

theorem countP_le_one {α : Type} {p : α → Bool} {l : List α}
    (apart : l.Pairwise fun first second => p first = true → p second = false) :
    l.countP p ≤ 1 := by
  induction l with
  | nil => simp
  | cons first rest ih =>
      obtain ⟨others, apartRest⟩ := List.pairwise_cons.mp apart
      cases here : p first with
      | true =>
          have none : rest.countP p = 0 := by
            rw [List.countP_eq_zero]
            intro other member
            simp [others other member here]
          rw [List.countP_cons_of_pos here, none]
      | false =>
          rw [List.countP_cons_of_neg (by simp [here])]
          exact ih apartRest

/-- Election safety: in every run at most one step makes a node the leader of a
term, and the assertion against a second election never fails. -/
theorem one_leader_per_term {n : Nat} {events : List (Event n)} {s : Cluster n}
    (run : ClusterRun anyStep events s) :
    (∀ T : Int, events.countP (fun event => event.electedTerm = some T) ≤ 1) ∧
      ∀ i, s.exited i ≠ some .electedTwice := by
  obtain ⟨counted, inv⟩ := election_of_run run
  refine ⟨?_, inv.safe⟩
  intro T
  refine countP_le_one (inv.once.imp ?_)
  intro event event' apart electedThen
  simpa using apart T (by simpa using electedThen)

/-- Three nodes elect node 0 in term 1, and then node 1 in term 2. -/
theorem one_leader_per_term_twoElections :
    ∃ (events : List (Event 3)) (s : Cluster 3), ClusterRun anyStep events s ∧
      events.filterMap Event.electedTerm = [1, 2] ∧
      events.countP (fun event => event.electedTerm = some 1) ≤ 1 := by
  obtain ⟨events, s, run, checked⟩ := exists_run_of_exec Cluster.step anyStep (Cluster.start 3)
    [.doElection 0, .handle 0, .processReply 0, .doElection 1, .handle 3, .processReply 1]
    (fun result => decide (result.2.filterMap Event.electedTerm = [1, 2]))
    (by decide +kernel)
  rw [decide_eq_true_eq] at checked
  exact ⟨events, s, run, checked, (one_leader_per_term run).1 1⟩

end CppRaft.Protocol
