import CppRaft.Protocol.Assertions
import CppRaft.Protocol.Refinement
import CppRaft.Protocol.Speaker
import CppRaft.RaftCore.Total
import CppRaft.Transition.Possible
import Mathlib.Data.Finset.Max
import Mathlib.Data.Finset.Order
import Mathlib.Data.Prod.Lex

/-!
# A majority can elect a leader

As long as a majority of the processes runs and one of them does not lead, some
further steps make a running node the leader of a new term.  The node with the
longest log stands; it needs a term above all others, and the vote of every
running node until the votes are a majority.
-/

namespace CppRaft.RaftCore.Raft

variable {n : Nat} {rf : Raft n}

/-- A vote for a later term is given to every candidate with an up-to-date log. -/
theorem requestVote_later {args : RequestVoteArgs} (later : rf.currentTerm < args.term)
    (upToDate : rf.upToDate args.lastLogIndex args.lastLogTerm = true) :
    rf.requestVote args =
      .ok ({ rf.adoptTerm args.term with votedFor := args.candidateId }.persist,
        { term := args.term, voteState := Normal, voteGranted := true }) := by
  have adopted : rf.meetTerm args.term = rf.adoptTerm args.term := if_pos later
  have same : (rf.adoptTerm args.term).upToDate args.lastLogIndex args.lastLogTerm = true :=
    upToDate
  have free : ¬ ((rf.adoptTerm args.term).votedFor ≠ -1 ∧
      (rf.adoptTerm args.term).votedFor ≠ args.candidateId) := fun spent => spent.1 rfl
  rw [requestVote_of_le later.le]
  dsimp only
  rw [adopted, if_neg (not_not.mpr same), if_neg free]
  rfl

/-- A vote of its term is counted by a candidate, and makes it leader if it
completes a majority. -/
theorem sendRequestVote_granted (rf : Raft n) (votedNum : Int) (stands : rf.status ≠ .leader) :
    rf.sendRequestVote { term := rf.currentTerm, voteState := Normal, voteGranted := true }
        votedNum =
      if votedNum + 1 ≥ ((n / 2 + 1 : Nat) : Int) then .ok ⟨rf.becomeLeader, 0, true⟩
      else .ok ⟨rf, votedNum + 1, false⟩ := by
  unfold sendRequestVote
  rw [if_neg (Int.lt_irrefl _), if_neg (Int.lt_irrefl _)]
  simp only [myAssert, stands, if_true, ne_eq, not_true_eq_false, not_false_eq_true, if_false]
  rfl

/-- A request with a later term makes every node a follower. -/
theorem requestVote_follows {rf' : Raft n} {args : RequestVoteArgs} {reply : RequestVoteReply}
    (later : rf.currentTerm < args.term) (handled : rf.requestVote args = .ok (rf', reply)) :
    rf'.status = .follower := by
  have adopted : rf.meetTerm args.term = rf.adoptTerm args.term := if_pos later
  rcases requestVote_cases handled with ⟨outdated, _⟩ | ⟨_, rfl, _⟩ | ⟨_, _, _, _, _, rfl⟩
  · omega
  · rw [adopted]
    rfl
  · rw [adopted]
    rfl

theorem keeps_candidacy : rf.Keeps rf.candidacy :=
  ⟨rfl, rfl, rfl, rfl, rfl, by simp only [candidacy, persist]; omega⟩

theorem Keeps.upToDate {rf' : Raft n} (keeps : rf.Keeps rf') (index term : Int) :
    rf'.upToDate index term = rf.upToDate index term := by
  unfold Raft.upToDate getLastLogIndexAndTerm
  rw [keeps.logs, keeps.index, keeps.snapshotTerm]

end CppRaft.RaftCore.Raft

namespace CppRaft.Protocol

open CppRaft.Consensus
open CppRaft.RaftCore
open CppRaft.Store
open CppRaft.Transition

variable {n : Nat}

namespace Cluster

/-- The nodes whose processes run. -/
def running (s : Cluster n) : Finset (Fin n) :=
  Finset.univ.filter fun v => s.exited v = none

theorem mem_running {s : Cluster n} {v : Fin n} : v ∈ s.running ↔ s.exited v = none := by
  simp [running]

/-- The processes that have ended and the logs are the same. -/
structure Keeps (s s' : Cluster n) : Prop where
  exited : s'.exited = s.exited
  nodes : ∀ v, (s.nodes v).Keeps (s'.nodes v)

theorem Keeps.refl (s : Cluster n) : s.Keeps s :=
  ⟨rfl, fun v => Raft.Keeps.refl (s.nodes v)⟩

theorem Keeps.trans {s s' s'' : Cluster n} (first : s.Keeps s') (second : s'.Keeps s'') :
    s.Keeps s'' :=
  ⟨second.exited.trans first.exited, fun v => (first.nodes v).trans (second.nodes v)⟩

theorem Keeps.of_setNode {s s' : Cluster n} {i : Fin n} {rf : Raft n}
    (exited : s'.exited = s.exited) (nodes : s'.nodes = (s.setNode i rf).nodes)
    (keeps : (s.nodes i).Keeps rf) : s.Keeps s' := by
  refine ⟨exited, fun v => ?_⟩
  rw [nodes]
  by_cases here : v = i
  · subst here
    rw [setNode_nodes_self]
    exact keeps
  · rw [s.setNode_nodes_ne rf here]
    exact Raft.Keeps.refl _

theorem Keeps.running {s s' : Cluster n} (keeps : s.Keeps s') : s'.running = s.running := by
  unfold Cluster.running
  rw [keeps.exited]

end Cluster

/-! ## Calls that have processed a reply -/

/-- Every call that is finished has been made. -/
theorem finished_of_run {guard : Cluster n → Action n → Prop} {events : List (Event n)}
    {s : Cluster n} (run : ClusterRun guard events s) : ∀ k ∈ s.finished, k < s.calls.length := by
  induction run with
  | nil => exact List.forall_mem_nil _
  | @snoc _ s _ _ _ _ _ taken ih =>
      have longer : ∀ calls : List (RpcCall n), ∀ k ∈ s.finished,
          k < (s.calls ++ calls).length := by
        intro calls k member
        rw [List.length_append]
        exact Nat.lt_add_right _ (ih k member)
      cases Cluster.step_effect taken with
      | doElection => exact longer _
      | doHeartBeat => exact longer _
      | doHeartBeatFail => exact longer _
      | sendSnapshot => exact longer _
      | sendRequestVote awaited | sendAppendEntries awaited | leaderSendSnapShot awaited =>
          rintro k (_ | ⟨_, member⟩)
          · exact (List.getElem?_eq_some_iff.mp awaited.found).1
          · exact ih k member
      | _ => exact ih

/-! ## One vote -/

namespace Cluster

variable {s : Cluster n}

theorem step_handle {k : Nat} {call : RpcCall n} (found : s.calls[k]? = some call)
    (alive : s.exited call.dst = none) : s.step (.handle k) = some (s.handle k call) := by
  simp only [step, found, alive, if_true]

theorem step_processReply {position k : Nat} {call : RpcCall n} {reply : Reply}
    (answered : s.replies[position]? = some (k, reply)) (found : s.calls[k]? = some call)
    (alive : s.exited call.src = none) (pending : k ∉ s.finished) :
    s.step (.processReply position) = s.processReply k call reply := by
  simp only [step, answered, found, alive, pending, not_false_eq_true, and_self, if_true]

theorem handle_requestVote {k a : Nat} {i v : Fin n} {args : RequestVoteArgs} {rf : Raft n}
    {reply : RequestVoteReply} (handled : (s.nodes v).requestVote args = .ok (rf, reply)) :
    s.handle k ⟨i, v, .requestVote args a⟩ =
      ((s.setNode v rf).addReply k (.requestVote reply),
        if reply.voteGranted then [.voted v reply.term i] else []) := by
  simp only [handle, handled]

theorem processReply_requestVote {k a : Nat} {i v : Fin n} {args : RequestVoteArgs}
    {reply : RequestVoteReply} {votedNum : Int} {outcome : Raft.VoteOutcome n}
    (counter : s.votedNums[a]? = some votedNum)
    (processed : (s.nodes i).sendRequestVote reply votedNum = .ok outcome) :
    s.processReply k ⟨i, v, .requestVote args a⟩ (.requestVote reply) =
      some ({ (s.setNode i outcome.rf).finish k with
          votedNums := s.votedNums.set a outcome.votedNum },
        if outcome.elected then [.elected i outcome.rf] else []) := by
  have current : s.votedNums.getD a 0 = votedNum := by
    rw [List.getD_eq_getElem?_getD, counter, Option.getD_some]
  simp only [processReply, current, processed]

/-- Node `i` leads in the highest term, and has not yet sent anything. -/
structure NewLeader (i : Fin n) (s : Cluster n) : Prop where
  alive : s.exited i = none
  leads : (s.nodes i).status = .leader
  highest : ∀ v, (s.nodes v).currentTerm ≤ (s.nodes i).currentTerm
  next : ∀ v, (s.nodes i).nextIndex v = (s.nodes i).getLastLogIndex + 1

theorem newLeader_of_becomeLeader {s s' : Cluster n} {i : Fin n} (alive : s.exited i = none)
    (highest : ∀ v, (s.nodes v).currentTerm ≤ (s.nodes i).currentTerm)
    (exited : s'.exited = s.exited)
    (nodes : s'.nodes = (s.setNode i (s.nodes i).becomeLeader).nodes) :
    s'.NewLeader i ∧ (s'.nodes i).currentTerm = (s.nodes i).currentTerm := by
  have leader : s'.nodes i = (s.nodes i).becomeLeader := by
    rw [nodes]
    exact s.setNode_nodes_self i _
  refine ⟨⟨by rw [exited]; exact alive, by rw [leader]; rfl, ?_, ?_⟩, by rw [leader]; rfl⟩
  · intro v
    rw [leader, nodes]
    by_cases here : v = i
    · subst here
      rw [setNode_nodes_self]
    · rw [s.setNode_nodes_ne _ here]
      exact highest v
  · intro v
    rw [leader]
    rfl

/-- Node `i` has asked for votes, with counter `a`.  The servers in `waiting`
have not voted, and with their votes there is a majority. -/
structure Campaign (i : Fin n) (args : RequestVoteArgs) (a : Nat) (waiting : Finset (Fin n))
    (s : Cluster n) : Prop where
  alive : s.exited i = none
  stands : (s.nodes i).status ≠ .leader
  term : (s.nodes i).currentTerm = args.term
  highest : ∀ v, (s.nodes v).currentTerm ≤ args.term
  votes : ∃ votes : Nat, s.votedNums[a]? = some (votes : Int) ∧ votes ≤ n / 2 ∧
    n / 2 + 1 ≤ votes + waiting.card
  asked : ∀ v ∈ waiting, v ≠ i ∧ s.exited v = none ∧ (s.nodes v).currentTerm < args.term ∧
    (s.nodes v).upToDate args.lastLogIndex args.lastLogTerm = true ∧
    ∃ k, s.calls[k]? = some ⟨i, v, .requestVote args a⟩ ∧ k ∉ s.finished

variable {i v : Fin n} {args : RequestVoteArgs} {a : Nat} {waiting : Finset (Fin n)}

/-- The vote of `v` is on its way to the candidate. -/
structure VoteSent (i v : Fin n) (args : RequestVoteArgs) (a k position : Nat) (s s' : Cluster n) :
    Prop where
  reached : CanReach step CutsConflicts s s'
  keeps : s.Keeps s'
  nodes : ∀ w, w ≠ v → s'.nodes w = s.nodes w
  term : (s'.nodes v).currentTerm = args.term
  calls : s'.calls = s.calls
  finished : s'.finished = s.finished
  votedNums : s'.votedNums = s.votedNums
  found : s.calls[k]? = some ⟨i, v, .requestVote args a⟩
  answered : s'.replies[position]? = some (k, .requestVote
    { term := args.term, voteState := Normal, voteGranted := true })

/-- A server that has been asked gives its vote. -/
theorem Campaign.exists_voteSent (campaign : Campaign i args a waiting s) (member : v ∈ waiting) :
    ∃ k position s', k ∉ s.finished ∧ VoteSent i v args a k position s s' := by
  obtain ⟨_, alive, later, upToDate, k, found, pending⟩ := campaign.asked v member
  have handled := Raft.requestVote_later later upToDate
  have taken := step_handle found alive
  rw [handle_requestVote handled] at taken
  have kept : CutsConflicts s (.handle k) := by simp only [CutsConflicts, found]
  exact ⟨k, s.replies.length, _, pending,
    { reached := CanReach.of_step kept taken
      keeps := Keeps.of_setNode rfl rfl (Raft.requestVote_keeps handled)
      nodes := fun w other => s.setNode_nodes_ne _ other
      term := congrArg Raft.currentTerm (s.setNode_nodes_self v _)
      calls := rfl
      finished := rfl
      votedNums := rfl
      found := found
      answered := List.getElem?_concat_length }⟩

/-- A server gives its vote, and the candidate counts it. -/
theorem Campaign.count (campaign : Campaign i args a waiting s) (member : v ∈ waiting) :
    ∃ s', CanReach step CutsConflicts s s' ∧ s.Keeps s' ∧
      (s'.NewLeader i ∧ (s'.nodes i).currentTerm = args.term ∨
        s'.Campaign i args a (waiting.erase v)) := by
  obtain ⟨k, position, s₁, pending, sent⟩ := campaign.exists_voteSent member
  obtain ⟨votes, counter, short, enough⟩ := campaign.votes
  have other := (campaign.asked v member).1
  have same := sent.nodes i other.symm
  have term : (s₁.nodes i).currentTerm = args.term := by rw [same, campaign.term]
  have stands : (s₁.nodes i).status ≠ .leader := by rw [same]; exact campaign.stands
  have alive : s₁.exited i = none := by rw [sent.keeps.exited]; exact campaign.alive
  have highest : ∀ w, (s₁.nodes w).currentTerm ≤ args.term := by
    intro w
    by_cases here : w = v
    · rw [here, sent.term]
    · rw [sent.nodes w here]
      exact campaign.highest w
  have taken := step_processReply sent.answered (sent.calls ▸ sent.found) alive
    (sent.finished ▸ pending)
  have processed := (s₁.nodes i).sendRequestVote_granted votes stands
  rw [term] at processed
  have counts : CutsConflicts s₁ (.processReply position) := trivial
  by_cases complete : n / 2 + 1 ≤ votes + 1
  · rw [if_pos (by omega)] at processed
    rw [processReply_requestVote (sent.votedNums ▸ counter) processed] at taken
    have kept := Raft.sendRequestVote_keeps processed
    refine ⟨_, sent.reached.trans (CanReach.of_step counts taken),
      sent.keeps.trans (Keeps.of_setNode rfl rfl kept), Or.inl ?_⟩
    rw [← term] at highest ⊢
    exact newLeader_of_becomeLeader alive highest rfl rfl
  · rw [if_neg (by omega)] at processed
    rw [processReply_requestVote (sent.votedNums ▸ counter) processed] at taken
    have unchanged : (s₁.setNode i (s₁.nodes i)).nodes = s₁.nodes := by simp [setNode]
    obtain ⟨s₂, taken, nodes, exited, calls, finished, votedNums⟩ : ∃ s₂ : Cluster n,
        s₁.step (.processReply position) = some (s₂, []) ∧ s₂.nodes = s₁.nodes ∧
          s₂.exited = s₁.exited ∧ s₂.calls = s₁.calls ∧ s₂.finished = k :: s₁.finished ∧
          s₂.votedNums = s₁.votedNums.set a ((votes : Int) + 1) :=
      ⟨_, taken, unchanged, rfl, rfl, rfl, rfl⟩
    have inside : a < s.votedNums.length := (List.getElem?_eq_some_iff.mp counter).1
    refine ⟨s₂, sent.reached.trans (CanReach.of_step counts taken),
      sent.keeps.trans ⟨exited, fun w => nodes ▸ Raft.Keeps.refl _⟩, Or.inr ?_⟩
    exact
      { alive := by rw [exited]; exact alive
        stands := by rw [nodes]; exact stands
        term := by rw [nodes]; exact term
        highest := by rw [nodes]; exact highest
        votes := by
          refine ⟨votes + 1, ?_, by omega, ?_⟩
          · rw [votedNums, sent.votedNums, List.getElem?_set_self inside]
            rfl
          · rw [Finset.card_erase_of_mem member]
            omega
        asked := by
          intro w later
          obtain ⟨apart, later⟩ := Finset.mem_erase.mp later
          obtain ⟨other', alive', lower, upToDate, k', found', pending'⟩ :=
            campaign.asked w later
          rw [exited, sent.keeps.exited, nodes, sent.nodes w apart, calls, sent.calls, finished,
            sent.finished]
          refine ⟨other', alive', lower, upToDate, k', found', ?_⟩
          rw [List.mem_cons, not_or]
          refine ⟨?_, pending'⟩
          rintro rfl
          rw [sent.found] at found'
          cases found'
          exact apart rfl }

/-- The votes of the servers that are left make the candidate leader. -/
theorem Campaign.exists_newLeader (campaign : Campaign i args a waiting s) :
    ∃ s', CanReach step CutsConflicts s s' ∧ s.Keeps s' ∧ s'.NewLeader i ∧
      (s'.nodes i).currentTerm = args.term := by
  have closer : ∀ waiting s', (s.Keeps s' ∧ Campaign i args a waiting s') →
      ∃ s'', CanReach step CutsConflicts s' s'' ∧
        ((s.Keeps s'' ∧ s''.NewLeader i ∧ (s''.nodes i).currentTerm = args.term) ∨
          ∃ waiting', (s.Keeps s'' ∧ Campaign i args a waiting' s'') ∧
            waiting'.card < waiting.card) := by
    rintro waiting s' ⟨kept, campaign⟩
    obtain ⟨votes, _, short, enough⟩ := campaign.votes
    obtain ⟨v, member⟩ := Finset.card_pos.mp (show 0 < waiting.card by omega)
    obtain ⟨s'', reached, keeps, leader | campaign'⟩ := campaign.count member
    · exact ⟨s'', reached, Or.inl ⟨kept.trans keeps, leader⟩⟩
    · exact ⟨s'', reached, Or.inr ⟨waiting.erase v, ⟨kept.trans keeps, campaign'⟩,
        Finset.card_erase_lt_of_mem member⟩⟩
  exact exists_canReach_of_rank _ Finset.card closer ⟨Keeps.refl s, campaign⟩

/-! ## Candidates -/

/-- What a candidate asks for. -/
def votesFor (rf : Raft n) : RequestVoteArgs where
  term := rf.currentTerm + 1
  candidateId := (rf.me : Int)
  lastLogIndex := rf.getLastLogIndexAndTerm.1
  lastLogTerm := rf.getLastLogIndexAndTerm.2

theorem step_doElection (alive : s.exited i = none) (follows : (s.nodes i).status ≠ .leader) :
    s.step (.doElection i) =
      some (s.stand i, [.voted i (s.nodes i).candidacy.currentTerm i]) := by
  rcases (s.nodes i).doElection_cases with ⟨leads, _⟩ | ⟨_, stands⟩
  · exact absurd leads follows
  · simp only [step, alive, if_true, doElection, stands]
    rfl

theorem canReach_stand (alive : s.exited i = none) (follows : (s.nodes i).status ≠ .leader) :
    CanReach step CutsConflicts s (s.stand i) := by
  have accepted : CutsConflicts s (.doElection i) := trivial
  exact CanReach.of_step accepted (step_doElection alive follows)

theorem keeps_stand (s : Cluster n) (i : Fin n) : s.Keeps (s.stand i) :=
  Keeps.of_setNode rfl rfl Raft.keeps_candidacy

theorem stand_nodes_self (s : Cluster n) (i : Fin n) :
    (s.stand i).nodes i = (s.nodes i).candidacy :=
  s.setNode_nodes_self i _

theorem stand_nodes_ne (s : Cluster n) {i v : Fin n} (other : v ≠ i) :
    (s.stand i).nodes v = s.nodes v :=
  s.setNode_nodes_ne _ other

/-- The call that a candidate makes to a peer. -/
theorem exists_stand_call (s : Cluster n) (me : (s.nodes i).me = i) (other : v ≠ i) :
    ∃ k, s.calls.length ≤ k ∧ (s.stand i).calls[k]? =
      some ⟨i, v, .requestVote (votesFor (s.nodes i)) s.votedNums.length⟩ := by
  have peer : v ∈ (s.nodes i).candidacy.peers := by
    rw [mem_peers]
    change v ≠ (s.nodes i).me
    rw [me]
    exact other
  obtain ⟨position, found⟩ := List.getElem?_of_mem peer
  refine ⟨s.calls.length + position, Nat.le_add_right _ _, ?_⟩
  change (s.calls ++ _)[_]? = _
  rw [List.getElem?_append_right (Nat.le_add_right _ _), Nat.add_sub_cancel_left,
    List.getElem?_map, found]
  rfl

/-- Node `i` has stood for election any number of times. -/
structure Stood (i : Fin n) (s s' : Cluster n) : Prop where
  reached : CanReach step CutsConflicts s s'
  keeps : s.Keeps s'
  others : ∀ w, w ≠ i → s'.nodes w = s.nodes w
  follows : (s'.nodes i).status ≠ .leader

theorem stood_stand (alive : s.exited i = none) (follows : (s.nodes i).status ≠ .leader) :
    Stood i s (s.stand i) where
  reached := canReach_stand alive follows
  keeps := s.keeps_stand i
  others := fun _ other => s.stand_nodes_ne other
  follows := by
    rw [stand_nodes_self]
    simp [Raft.candidacy, Raft.persist]

theorem Stood.trans {s' s'' : Cluster n} (first : Stood i s s') (second : Stood i s' s'') :
    Stood i s s'' where
  reached := first.reached.trans second.reached
  keeps := first.keeps.trans second.keeps
  others := fun w other => (second.others w other).trans (first.others w other)
  follows := second.follows

/-- A candidate reaches any term by standing again and again. -/
theorem exists_raised (alive : s.exited i = none) (follows : (s.nodes i).status ≠ .leader)
    {bound : Int} (left : Nat) (near : bound ≤ (s.nodes i).currentTerm + left) :
    ∃ s', Stood i s s' ∧ bound ≤ (s'.nodes i).currentTerm := by
  induction left generalizing s with
  | zero => exact ⟨s, ⟨CanReach.refl s, Keeps.refl s, fun _ _ => rfl, follows⟩, by omega⟩
  | succ left ih =>
      have stood := stood_stand alive follows
      have alive' : (s.stand i).exited i = none := alive
      have next : ((s.stand i).nodes i).currentTerm = (s.nodes i).currentTerm + 1 := by
        rw [stand_nodes_self]
        rfl
      obtain ⟨s', later, reached⟩ := ih alive' stood.follows (by omega)
      exact ⟨s', stood.trans later, reached⟩

/-- A candidate reaches a term that no node has passed. -/
theorem exists_highest (alive : s.exited i = none) (follows : (s.nodes i).status ≠ .leader) :
    ∃ s', Stood i s s' ∧ ∀ v, (s'.nodes v).currentTerm ≤ (s'.nodes i).currentTerm := by
  obtain ⟨bound, highest⟩ := Finset.exists_le (Finset.univ.image fun v => (s.nodes v).currentTerm)
  have near : bound ≤ (s.nodes i).currentTerm + (bound - (s.nodes i).currentTerm).toNat := by
    omega
  obtain ⟨s', stood, reached⟩ := exists_raised alive follows _ near
  refine ⟨s', stood, fun v => ?_⟩
  by_cases here : v = i
  · rw [here]
  · rw [stood.others v here]
    exact (highest _ (Finset.mem_image_of_mem _ (Finset.mem_univ v))).trans reached

/-- A run goes on to a state that can be reached. -/
theorem exists_clusterRun {guard : Cluster n → Action n → Prop} {events : List (Event n)}
    {s' : Cluster n} (run : ClusterRun guard events s) (reached : CanReach step guard s s') :
    ∃ events', ClusterRun guard events' s' := by
  obtain ⟨more, later⟩ := reached
  exact ⟨events ++ more, run.append later⟩

/-- A leader gives way to a candidate of a later term. -/
theorem exists_deposed {events : List (Event n)} (run : ClusterRun CutsConflicts events s)
    {j : Fin n} (alive : s.exited j = none) (follows : (s.nodes j).status ≠ .leader)
    (alive' : s.exited i = none) :
    ∃ s', CanReach step CutsConflicts s s' ∧ s.Keeps s' ∧ (s'.nodes i).status ≠ .leader := by
  by_cases leads : (s.nodes i).status = .leader
  · have other : i ≠ j := by
      rintro rfl
      exact follows leads
    obtain ⟨s₁, stood, highest⟩ := exists_highest alive follows
    obtain ⟨events', run'⟩ := exists_clusterRun run stood.reached
    obtain ⟨counted, election⟩ := election_of_run run'
    have stood' := stood_stand (by rw [stood.keeps.exited]; exact alive) stood.follows
    obtain ⟨k, _, found⟩ := exists_stand_call s₁ (election.me j) other
    have later : ((s₁.stand j).nodes i).currentTerm < (votesFor (s₁.nodes j)).term := by
      rw [stand_nodes_ne s₁ other]
      exact Int.lt_add_one_of_le (highest i)
    obtain ⟨⟨rf, reply⟩, handled⟩ :=
      ((s₁.stand j).nodes i).requestVote_succeeds (votesFor (s₁.nodes j))
    have running : (s₁.stand j).exited i = none := by
      rw [stood'.keeps.exited, stood.keeps.exited]
      exact alive'
    have taken := step_handle found running
    rw [handle_requestVote handled] at taken
    have accepted : CutsConflicts (s₁.stand j) (.handle k) := by simp only [CutsConflicts, found]
    refine ⟨_, (stood.reached.trans stood'.reached).trans (CanReach.of_step accepted taken),
      (stood.keeps.trans stood'.keeps).trans
        (Keeps.of_setNode rfl rfl (Raft.requestVote_keeps handled)), ?_⟩
    change (((s₁.stand j).setNode i rf).nodes i).status ≠ _
    rw [setNode_nodes_self, Raft.requestVote_follows later handled]
    simp
  · exact ⟨s, CanReach.refl s, Keeps.refl s, leads⟩

/-- The node with the highest term and the longest log asks all others. -/
theorem campaign_stand {guard : Cluster n → Action n → Prop} {events : List (Event n)}
    (run : ClusterRun guard events s) (several : 1 < n) (majority : Majority s.running)
    (alive : s.exited i = none) (follows : (s.nodes i).status ≠ .leader)
    (highest : ∀ v, (s.nodes v).currentTerm ≤ (s.nodes i).currentTerm)
    (longest : ∀ v, s.exited v = none → (s.nodes v).upToDate
      (s.nodes i).getLastLogIndexAndTerm.1 (s.nodes i).getLastLogIndexAndTerm.2 = true) :
    (s.stand i).Campaign i (votesFor (s.nodes i)) s.votedNums.length (s.running.erase i) where
  alive := alive
  stands := (stood_stand alive follows).follows
  term := by
    rw [stand_nodes_self]
    rfl
  highest := by
    intro v
    by_cases here : v = i
    · rw [here, stand_nodes_self]
      exact le_rfl
    · rw [stand_nodes_ne s here]
      exact (highest v).trans (Int.lt_succ_self _).le
  votes := by
    unfold Majority at majority
    rw [Fintype.card_fin] at majority
    refine ⟨1, List.getElem?_concat_length, by omega, ?_⟩
    rw [Finset.card_erase_of_mem (mem_running.mpr alive)]
    omega
  asked := by
    intro v member
    obtain ⟨other, running⟩ := Finset.mem_erase.mp member
    obtain ⟨counted, election⟩ := election_of_run run
    obtain ⟨k, fresh, found⟩ := exists_stand_call s (election.me i) other
    rw [stand_nodes_ne s other]
    refine ⟨other, mem_running.mp running, Int.lt_add_one_of_le (highest v),
      longest v (mem_running.mp running), k, found, ?_⟩
    intro finished
    exact absurd (finished_of_run run k finished) (Nat.not_lt.mpr fresh)

/-- Some running node has a log that no running node would refuse. -/
theorem exists_longest (nonempty : s.running.Nonempty) :
    ∃ i, s.exited i = none ∧ ∀ v, s.exited v = none → (s.nodes v).upToDate
      (s.nodes i).getLastLogIndexAndTerm.1 (s.nodes i).getLastLogIndexAndTerm.2 = true := by
  obtain ⟨i, member, longest⟩ := s.running.exists_max_image
    (fun v => toLex ((s.nodes v).getLastLogIndexAndTerm.2, (s.nodes v).getLastLogIndexAndTerm.1))
    nonempty
  refine ⟨i, mem_running.mp member, fun v alive => ?_⟩
  have order := Prod.Lex.toLex_le_toLex.mp (longest v (mem_running.mpr alive))
  rw [Raft.upToDate, decide_eq_true_eq]
  rcases order with shorter | ⟨same, shorter⟩
  · exact Or.inl shorter
  · exact Or.inr ⟨same.symm, shorter⟩

/-- A majority elects the node with the longest log. -/
theorem exists_elected {events : List (Event n)} (run : ClusterRun CutsConflicts events s)
    (several : 1 < n) (majority : Majority s.running) {j : Fin n} (alive : s.exited j = none)
    (follows : (s.nodes j).status ≠ .leader) :
    ∃ i s', CanReach step CutsConflicts s s' ∧ s.Keeps s' ∧ s'.NewLeader i ∧
      ∀ v, (s.nodes v).currentTerm < (s'.nodes i).currentTerm := by
  obtain ⟨i, alive', longest⟩ := exists_longest ⟨j, mem_running.mpr alive⟩
  obtain ⟨s₁, first, keeps₁, follows₁⟩ := exists_deposed run alive follows alive'
  obtain ⟨s₂, stood, highest⟩ :=
    exists_highest (i := i) (by rw [keeps₁.exited]; exact alive') follows₁
  have reached := first.trans stood.reached
  have keeps := keeps₁.trans stood.keeps
  obtain ⟨events', run'⟩ := exists_clusterRun run reached
  have same : (s₂.nodes i).getLastLogIndexAndTerm = (s.nodes i).getLastLogIndexAndTerm := by
    unfold Raft.getLastLogIndexAndTerm
    rw [(keeps.nodes i).logs, (keeps.nodes i).index, (keeps.nodes i).snapshotTerm]
  have alive₂ : s₂.exited i = none := by rw [keeps.exited]; exact alive'
  have campaign := campaign_stand run' several (by rw [keeps.running]; exact majority) alive₂
    stood.follows highest (by
      intro v running
      rw [keeps.exited] at running
      rw [(keeps.nodes v).upToDate, same]
      exact longest v running)
  obtain ⟨s', later, keeps', leader, term⟩ := campaign.exists_newLeader
  have stand := stood_stand alive₂ stood.follows
  refine ⟨i, s', (reached.trans stand.reached).trans later,
    (keeps.trans stand.keeps).trans keeps', leader, fun v => ?_⟩
  rw [term]
  exact Int.lt_add_one_of_le ((keeps.nodes v).term.trans (highest v))

end Cluster

/-! ## Result -/

/-- After every run that cuts conflicts, if a majority of the processes runs and
one of them does not lead, some more steps elect a running node in a term that
no node has seen; no process ends and no log, snapshot or commit index changes. -/
theorem electable {n : Nat} {events : List (Event n)} {s : Cluster n}
    (run : ClusterRun CutsConflicts events s) (several : 1 < n) (majority : Majority s.running)
    {j : Fin n} (alive : s.exited j = none) (follows : (s.nodes j).status ≠ .leader) :
    ∃ (more : List (Event n)) (s' : Cluster n) (i : Fin n),
      Run Cluster.step CutsConflicts s more s' ∧ s'.exited = s.exited ∧
      s'.exited i = none ∧ (s'.nodes i).status = .leader ∧
      (∀ v, (s.nodes v).currentTerm < (s'.nodes i).currentTerm) ∧
      (∀ v, (s'.nodes v).currentTerm ≤ (s'.nodes i).currentTerm) ∧
      ∀ v, (s'.nodes v).logs = (s.nodes v).logs ∧
        (s'.nodes v).lastSnapshotIncludeIndex = (s.nodes v).lastSnapshotIncludeIndex ∧
        (s'.nodes v).commitIndex = (s.nodes v).commitIndex ∧
        (s'.nodes v).lastApplied = (s.nodes v).lastApplied := by
  obtain ⟨i, s', ⟨more, later⟩, keeps, leader, above⟩ :=
    Cluster.exists_elected run several majority alive follows
  refine ⟨more, s', i, later, keeps.exited, leader.alive, leader.leads, above, leader.highest,
    fun v => ?_⟩
  exact ⟨(keeps.nodes v).logs, (keeps.nodes v).index, (keeps.nodes v).committed,
    (keeps.nodes v).applied⟩

/-- The process of node 1 has ended, and node 0 leads term 1. -/
theorem electable_twoOfThree :
    ∃ (events : List (Event 3)) (s : Cluster 3), ClusterRun CutsConflicts events s ∧
      s.exited 1 = some .matchOutOfRange ∧ (s.nodes 0).currentTerm = 1 ∧
      ∃ (more : List (Event 3)) (s' : Cluster 3) (i : Fin 3),
        Run Cluster.step CutsConflicts s more s' ∧ s'.exited i = none ∧
        (s'.nodes i).status = .leader ∧ 1 < (s'.nodes i).currentTerm := by
  obtain ⟨events, s, run, checked⟩ := exists_run_of_exec Cluster.step CutsConflicts
    (Cluster.start 3) (compactedOnce 0 1 ++ [.handle 2])
    (fun result => decide (result.1.exited 1 = some .matchOutOfRange ∧
      (result.1.nodes 0).currentTerm = 1 ∧ Fintype.card (Fin 3) < 2 * result.1.running.card ∧
      result.1.exited 2 = none ∧ (result.1.nodes 2).status ≠ .leader))
    (by decide +kernel)
  obtain ⟨ended, term, majority, alive, follows⟩ := of_decide_eq_true checked
  obtain ⟨more, s', i, later, _, alive', leads, above, _⟩ :=
    electable run (by decide) majority alive follows
  exact ⟨events, s, run, ended, term, more, s', i, later, alive', leads, term ▸ above 0⟩

end CppRaft.Protocol
