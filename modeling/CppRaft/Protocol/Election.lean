import CppRaft.Consensus.Prefix
import CppRaft.Protocol.Effect

/-!
# One leader in a term

The invariant of elections.  Every vote is an event, and a node gives one vote
in a term.  The counter of an election is bounded by the servers it has
counted; when it makes its node leader it is reset, and from then on it lags
behind them by half of the cluster, so that it never reaches a majority again.
-/

namespace CppRaft.Protocol

open CppRaft.Consensus
open CppRaft.RaftCore
open CppRaft.Store
open CppRaft.Transition

variable {n : Nat}

/-- The term of an election event. -/
def Event.electedTerm : Event n → Option Int
  | .elected _ rf => some rf.currentTerm
  | _ => none

/-- The calls of an election, with the term and the candidate they ask for. -/
def voteTag : Tag n (Int × Fin n) := fun call =>
  match call.request with
  | .requestVote args votedNum => some (votedNum, args.term, call.src)
  | _ => none

theorem voteTag_of_request {call : RpcCall n} {args : RequestVoteArgs} {a : Nat}
    (request : call.request = .requestVote args a) :
    voteTag call = some (a, args.term, call.src) := by
  simp [voteTag, request]

/-- `v` has voted as an election asks. -/
def Voted (events : List (Event n)) (asked : Int × Fin n) (v : Fin n) : Prop :=
  .voted v asked.1 asked.2 ∈ events

/-- `c` was elected in term `T`. -/
def Won (events : List (Event n)) (c : Fin n) (T : Int) : Prop :=
  ∃ rf, .elected c rf ∈ events ∧ rf.currentTerm = T

/-- The invariant of elections; `counted` names the servers that each vote
counter has counted. -/
structure Election (events : List (Event n)) (s : Cluster n) (counted : Nat → Finset (Fin n)) :
    Prop where
  me : ∀ v, (s.nodes v).me = v
  votedBound : ∀ {v T c}, .voted v T c ∈ events → T ≤ (s.nodes v).currentTerm
  votedFor : ∀ {v T} {c : Fin n}, .voted v T c ∈ events → T = (s.nodes v).currentTerm →
    (s.nodes v).votedFor = (c : Int)
  votedOnce : ∀ {v T c c'}, .voted v T c ∈ events → .voted v T c' ∈ events → c = c'
  leads : ∀ {v}, (s.nodes v).status = .leader → Won events v (s.nodes v).currentTerm
  wonBound : ∀ {c T}, Won events c T → T ≤ (s.nodes c).currentTerm
  asked : ∀ {call args a}, call ∈ s.calls → call.request = .requestVote args a →
    args.candidateId = (call.src : Int) ∧ args.term ≤ (s.nodes call.src).currentTerm ∧
      .voted call.src args.term call.src ∈ events
  oneRound : ∀ {call call' args args' a a'}, call ∈ s.calls → call' ∈ s.calls →
    call.request = .requestVote args a → call'.request = .requestVote args' a' →
    call.src = call'.src → args.term = args'.term → a = a'
  granted : ∀ {k reply}, (k, Reply.requestVote reply) ∈ s.replies → reply.voteGranted = true →
    ∃ call args a, s.calls[k]? = some call ∧ call.request = .requestVote args a ∧
      reply.term = args.term ∧ .voted call.dst args.term call.src ∈ events
  tally : Tally voteTag (Voted events) s.calls s.finished s.votedNums.length counted
  counting : ∀ {call args a}, call ∈ s.calls → call.request = .requestVote args a →
    s.votedNums.getD a 0 ≤ 1 + (counted a).card
  wonCounting : ∀ {call args a}, call ∈ s.calls → call.request = .requestVote args a →
    Won events call.src args.term →
    s.votedNums.getD a 0 + (n / 2 : Nat) ≤ (counted a).card
  quorum : ∀ {c rf}, .elected c rf ∈ events →
    ∃ Q : Finset (Fin n), Majority Q ∧ ∀ v ∈ Q, .voted v rf.currentTerm c ∈ events
  once : events.Pairwise fun event event' =>
    ∀ T, event.electedTerm = some T → event'.electedTerm ≠ some T
  safe : ∀ v, s.exited v ≠ some .electedTwice

theorem election_start (n : Nat) : Election [] (Cluster.start n) fun _ => ∅ where
  me := fun _ => rfl
  votedBound := by simp
  votedFor := by simp
  votedOnce := by simp
  leads := by
    intro v leader
    cases leader
  wonBound := by
    rintro c T ⟨rf, elected, _⟩
    simp at elected
  asked := by simp [Cluster.start]
  oneRound := by simp [Cluster.start]
  granted := by simp [Cluster.start]
  tally := tally_start _ _
  counting := by simp [Cluster.start]
  wonCounting := by simp [Cluster.start]
  quorum := by simp
  once := List.Pairwise.nil
  safe := by simp [Cluster.start]

variable {events : List (Event n)} {s : Cluster n} {counted : Nat → Finset (Fin n)}

/-! ## Steps that decide nothing -/

/-- A node changes without giving a vote; it leads only in a term that it has
won. -/
theorem Election.moveNode (inv : Election events s counted) (i : Fin n) (rf : Raft n)
    (me : rf.me = (s.nodes i).me) (term : (s.nodes i).currentTerm ≤ rf.currentTerm)
    (vote : rf.currentTerm = (s.nodes i).currentTerm → rf.votedFor = (s.nodes i).votedFor)
    (leads : rf.status = .leader → Won events i rf.currentTerm) :
    Election events (s.setNode i rf) counted := by
  have terms : ∀ v, (s.nodes v).currentTerm ≤ ((s.setNode i rf).nodes v).currentTerm := by
    intro v
    by_cases same : v = i
    · subst same
      simpa using term
    · rw [s.setNode_nodes_ne rf same]
  exact
    { inv with
      me := by
        intro v
        by_cases same : v = i
        · subst same
          rw [s.setNode_nodes_self, me]
          exact inv.me v
        · rw [s.setNode_nodes_ne rf same]
          exact inv.me v
      votedBound := fun voted => (inv.votedBound voted).trans (terms _)
      votedFor := by
        intro v T c voted current
        by_cases same : v = i
        · subst same
          rw [s.setNode_nodes_self] at current ⊢
          have bound := inv.votedBound voted
          rw [vote (by omega)]
          exact inv.votedFor voted (by omega)
        · rw [s.setNode_nodes_ne rf same] at current ⊢
          exact inv.votedFor voted current
      leads := by
        intro v leader
        by_cases same : v = i
        · subst same
          rw [s.setNode_nodes_self] at leader ⊢
          exact leads leader
        · rw [s.setNode_nodes_ne rf same] at leader ⊢
          exact inv.leads leader
      wonBound := fun won => (inv.wonBound won).trans (terms _)
      asked := by
        intro call args a member request
        obtain ⟨own, bound, voted⟩ := inv.asked member request
        exact ⟨own, bound.trans (terms _), voted⟩ }

/-- A node changes without giving a vote or being elected. -/
theorem Election.setNode (inv : Election events s counted) (i : Fin n) (rf : Raft n)
    (frame : (s.nodes i).VoteFrame rf) : Election events (s.setNode i rf) counted := by
  apply inv.moveNode i rf frame.me frame.term frame.vote
  intro leader
  obtain ⟨leads, sameTerm⟩ := frame.leads leader
  rw [sameTerm]
  exact inv.leads leads

/-- A node leaves the cluster by another assertion. -/
theorem Election.exit (inv : Election events s counted) (i : Fin n) {fault : Fault}
    (other : fault ≠ .electedTwice) : Election events (s.exit i fault) counted :=
  { inv with
    safe := by
      intro v
      by_cases same : v = i
      · subst same
        simpa [Cluster.exit] using other
      · simpa [Cluster.exit, same] using inv.safe v }

/-- A call processes a reply that is not counted. -/
theorem Election.finish (inv : Election events s counted) (k : Nat) :
    Election events (s.finish k) counted :=
  { inv with tally := inv.tally.finish k }

/-- Calls that do not ask for a vote. -/
theorem Election.addCalls (inv : Election events s counted) {more : List (RpcCall n)}
    (others : ∀ call ∈ more, voteTag call = none) :
    Election events { s with calls := s.calls ++ more } counted := by
  have old : ∀ {call args a}, call ∈ s.calls ++ more → call.request = .requestVote args a →
      call ∈ s.calls := by
    intro call args a member request
    rcases List.mem_append.mp member with before | added
    · exact before
    · have untagged := others call added
      rw [voteTag_of_request request] at untagged
      exact absurd untagged (by simp)
  exact
    { inv with
      asked := fun member request => inv.asked (old member request) request
      oneRound := fun member member' request request' =>
        inv.oneRound (old member request) (old member' request') request request'
      granted := by
        intro k reply answered given
        obtain ⟨call, args, a, found, answer⟩ := inv.granted answered given
        exact ⟨call, args, a, getElem?_append_of_eq_some found, answer⟩
      tally := inv.tally.append_untagged others
      counting := fun member request => inv.counting (old member request) request
      wonCounting := fun member request => inv.wonCounting (old member request) request }

/-- A reply to call `k` that, if it grants a vote, answers what was asked. -/
theorem Election.addReply (inv : Election events s counted) (k : Nat) (reply : Reply)
    (answers : ∀ vote, reply = .requestVote vote → vote.voteGranted = true →
      ∃ call args a, s.calls[k]? = some call ∧ call.request = .requestVote args a ∧
        vote.term = args.term ∧ .voted call.dst args.term call.src ∈ events) :
    Election events (s.addReply k reply) counted :=
  { inv with
    granted := by
      intro k' vote answered given
      rcases List.mem_append.mp answered with before | added
      · exact inv.granted before given
      · rw [List.mem_singleton, Prod.mk.injEq] at added
        obtain ⟨rfl, same⟩ := added
        exact answers vote same.symm given }

/-- An event that is neither a vote nor an election. -/
def Event.Quiet : Event n → Prop
  | .voted _ _ _ => False
  | .elected _ _ => False
  | _ => True

/-- Events that are neither votes nor elections. -/
theorem Election.quiet (inv : Election events s counted) {more : List (Event n)}
    (quiet : ∀ event ∈ more, event.Quiet) : Election (events ++ more) s counted := by
  have voted : ∀ {v T c}, Event.voted v T c ∈ events ++ more ↔ Event.voted v T c ∈ events := by
    intro v T c
    rw [List.mem_append, or_iff_left]
    exact fun added => quiet _ added
  have elected : ∀ {c rf}, Event.elected c rf ∈ events ++ more ↔ Event.elected c rf ∈ events := by
    intro c rf
    rw [List.mem_append, or_iff_left]
    exact fun added => quiet _ added
  have won : ∀ {c T}, Won (events ++ more) c T ↔ Won events c T := by
    intro c T
    simp only [Won, elected]
  have noTerm : ∀ event ∈ more, event.electedTerm = none := by
    intro event member
    cases event with
    | elected c rf => exact absurd (quiet _ member) id
    | _ => rfl
  exact
    { inv with
      votedBound := by simpa only [voted] using @inv.votedBound
      votedFor := by simpa only [voted] using @inv.votedFor
      votedOnce := by simpa only [voted] using @inv.votedOnce
      leads := by simpa only [won] using @inv.leads
      wonBound := by simpa only [won] using @inv.wonBound
      asked := by simpa only [voted] using @inv.asked
      granted := by simpa only [voted] using @inv.granted
      tally := inv.tally.mono fun _ _ vote => voted.mpr vote
      wonCounting := by simpa only [won] using @inv.wonCounting
      quorum := by simpa only [voted, elected] using @inv.quorum
      once := by
        refine List.pairwise_append.mpr ⟨inv.once, ?_, ?_⟩
        · apply List.pairwise_of_forall_mem_list
          intro event member event' _ T electedThen
          rw [noTerm event member] at electedThen
          exact absurd electedThen (by simp)
        · intro event _ event' member T _ electedThen
          rw [noTerm event' member] at electedThen
          exact absurd electedThen (by simp) }

/-! ## Votes -/

/-- A node gives the vote of its term, if it has not given it to another. -/
theorem Election.vote (inv : Election events s counted) (i c : Fin n) (rf : Raft n)
    (me : rf.me = i) (sameTerm : rf.currentTerm = (s.nodes i).currentTerm)
    (gives : rf.votedFor = (c : Int))
    (free : (s.nodes i).votedFor = -1 ∨ (s.nodes i).votedFor = (c : Int))
    (leads : rf.status = .leader → (s.nodes i).status = .leader) :
    Election (events ++ [.voted i rf.currentTerm c]) (s.setNode i rf) counted := by
  have voted : ∀ {v T d}, Event.voted v T d ∈ events ++ [.voted i rf.currentTerm c] →
      Event.voted v T d ∈ events ∨ v = i ∧ T = rf.currentTerm ∧ d = c := by
    intro v T d member
    simpa using member
  have elected : ∀ {d rf'}, Event.elected d rf' ∈ events ++ [.voted i rf.currentTerm c] ↔
      Event.elected d rf' ∈ events := by
    simp
  have won : ∀ {d T}, Won (events ++ [.voted i rf.currentTerm c]) d T ↔ Won events d T := by
    intro d T
    simp only [Won, elected]
  have nodeTerm : ∀ v, ((s.setNode i rf).nodes v).currentTerm = (s.nodes v).currentTerm := by
    intro v
    by_cases same : v = i
    · subst same
      simpa using sameTerm
    · rw [s.setNode_nodes_ne rf same]
  have sameCandidate : ∀ {d}, Event.voted i rf.currentTerm d ∈ events → d = c := by
    intro d before
    have votes := inv.votedFor before sameTerm
    rcases free with unspent | same
    · omega
    · exact Fin.ext (by omega)
  exact
    { inv with
      me := by
        intro v
        by_cases same : v = i
        · subst same
          simpa using me
        · rw [s.setNode_nodes_ne rf same]
          exact inv.me v
      votedBound := by
        intro v T d member
        rw [nodeTerm]
        rcases voted member with before | ⟨rfl, rfl, rfl⟩
        · exact inv.votedBound before
        · exact sameTerm.le
      votedFor := by
        intro v T d member current
        rw [nodeTerm] at current
        by_cases same : v = i
        · subst same
          rw [Cluster.setNode_nodes_self, gives]
          rcases voted member with before | ⟨_, _, rfl⟩
          · rw [current, ← sameTerm] at before
            rw [sameCandidate before]
          · rfl
        · rw [s.setNode_nodes_ne rf same]
          rcases voted member with before | ⟨here, _⟩
          · exact inv.votedFor before current
          · exact absurd here same
      votedOnce := by
        intro v T d d' member member'
        rcases voted member with before | ⟨rfl, rfl, rfl⟩
        · rcases voted member' with before' | ⟨rfl, rfl, rfl⟩
          · exact inv.votedOnce before before'
          · exact sameCandidate before
        · rcases voted member' with before' | ⟨_, _, rfl⟩
          · exact (sameCandidate before').symm
          · rfl
      leads := by
        intro v leader
        rw [won, nodeTerm]
        by_cases same : v = i
        · subst same
          rw [Cluster.setNode_nodes_self] at leader
          exact inv.leads (leads leader)
        · rw [s.setNode_nodes_ne rf same] at leader
          exact inv.leads leader
      wonBound := by
        intro d T wonThen
        rw [nodeTerm]
        exact inv.wonBound (won.mp wonThen)
      asked := by
        intro call args a member request
        obtain ⟨own, bound, vote⟩ := inv.asked member request
        exact ⟨own, by rwa [nodeTerm], List.mem_append_left _ vote⟩
      granted := by
        intro k reply answered given
        obtain ⟨call, args, a, found, request, term, vote⟩ := inv.granted answered given
        exact ⟨call, args, a, found, request, term, List.mem_append_left _ vote⟩
      tally := inv.tally.mono fun _ _ vote => List.mem_append_left _ vote
      wonCounting := fun member request wonThen =>
        inv.wonCounting member request (won.mp wonThen)
      quorum := by
        intro d rf' member
        obtain ⟨Q, majority, votes⟩ := inv.quorum (elected.mp member)
        exact ⟨Q, majority, fun v inside => List.mem_append_left _ (votes v inside)⟩
      once := by
        refine List.pairwise_append.mpr ⟨inv.once, List.pairwise_singleton _ _, ?_⟩
        intro event _ event' last T _ electedThen
        rw [List.mem_singleton.mp last] at electedThen
        exact absurd electedThen (by simp [Event.electedTerm]) }

/-- A candidate asks every peer for its vote in a term for which it has not
asked before. -/
theorem Election.addRound (inv : Election events s counted) (i : Fin n) (args : RequestVoteArgs)
    (servers : List (Fin n)) (distinct : servers.Nodup) (remote : i ∉ servers)
    (own : args.candidateId = (i : Int)) (bound : args.term ≤ (s.nodes i).currentTerm)
    (voted : .voted i args.term i ∈ events) (notWon : ¬ Won events i args.term)
    (fresh : ∀ call ∈ s.calls, ∀ args' a, call.request = .requestVote args' a → call.src = i →
      args'.term ≠ args.term) :
    Election events
      { s with
        calls := s.calls ++ servers.map fun server =>
          ⟨i, server, .requestVote args s.votedNums.length⟩
        votedNums := s.votedNums ++ [1] }
      (Function.update counted s.votedNums.length ∅) := by
  have cases : ∀ {call args' a}, call ∈ s.calls ++ servers.map (fun server =>
      (⟨i, server, .requestVote args s.votedNums.length⟩ : RpcCall n)) →
      call.request = .requestVote args' a →
      call ∈ s.calls ∧ a < s.votedNums.length ∨
        call.src = i ∧ args' = args ∧ a = s.votedNums.length := by
    intro call args' a member request
    rcases List.mem_append.mp member with before | added
    · exact Or.inl ⟨before, inv.tally.bound before (voteTag_of_request request)⟩
    · obtain ⟨server, _, rfl⟩ := List.mem_map.mp added
      cases request
      exact Or.inr ⟨rfl, rfl, rfl⟩
  have oldCounter : ∀ a < s.votedNums.length,
      (s.votedNums ++ [1]).getD a 0 = s.votedNums.getD a 0 := by
    intro a inside
    simp [List.getD_eq_getElem?_getD, List.getElem?_append_left inside]
  have newCounter : (s.votedNums ++ [1]).getD s.votedNums.length 0 = 1 := by
    simp [List.getD_eq_getElem?_getD]
  exact
    { inv with
      asked := by
        intro call args' a member request
        rcases cases member request with ⟨before, _⟩ | ⟨rfl, rfl, _⟩
        · exact inv.asked before request
        · exact ⟨own, bound, voted⟩
      oneRound := by
        intro call call' args₁ args₂ a a' member member' request request' sameSrc sameTerm
        rcases cases member request with ⟨before, _⟩ | ⟨src, rfl, rfl⟩
        · rcases cases member' request' with ⟨before', _⟩ | ⟨src', rfl, _⟩
          · exact inv.oneRound before before' request request' sameSrc sameTerm
          · exact absurd sameTerm (fresh call before _ _ request (sameSrc.trans src'))
        · rcases cases member' request' with ⟨before', _⟩ | ⟨_, _, rfl⟩
          · exact absurd sameTerm.symm (fresh call' before' _ _ request' (sameSrc.symm.trans src))
          · rfl
      granted := by
        intro k reply answered given
        obtain ⟨call, args', a, found, answer⟩ := inv.granted answered given
        exact ⟨call, args', a, getElem?_append_of_eq_some found, answer⟩
      tally := by
        rw [List.length_append, List.length_singleton]
        apply inv.tally.append_round i (args.term, i)
        · intro call added
          obtain ⟨server, inside, rfl⟩ := List.mem_map.mp added
          exact ⟨rfl, fun (same : i = server) => remote (same ▸ inside)⟩
        · intro call added
          obtain ⟨server, _, rfl⟩ := List.mem_map.mp added
          rfl
        · simpa [List.map_map, Function.comp_def] using distinct
      counting := by
        intro call args' a member request
        rcases cases member request with ⟨before, inside⟩ | ⟨_, _, rfl⟩
        · rw [oldCounter a inside, Function.update_of_ne inside.ne]
          exact inv.counting before request
        · rw [newCounter, Function.update_self]
          simp
      wonCounting := by
        intro call args' a member request won
        rcases cases member request with ⟨before, inside⟩ | ⟨rfl, rfl, _⟩
        · rw [oldCounter a inside, Function.update_of_ne inside.ne]
          exact inv.wonCounting before request won
        · exact absurd won notWon }

/-! ## Counting votes -/

section Counting

variable {k a : Nat} {call : RpcCall n} {args : RequestVoteArgs}

/-- A counter that can still complete a majority is not that of a won
election. -/
theorem Election.not_won (inv : Election events s counted) (found : s.calls[k]? = some call)
    (request : call.request = .requestVote args a) (pending : k ∉ s.finished)
    (voted : .voted call.dst args.term call.src ∈ events)
    (majority : ((n / 2 : Nat) : Int) ≤ s.votedNums.getD a 0) :
    ¬ Won events call.src args.term := by
  intro won
  have member := List.mem_of_getElem? found
  have tagged := voteTag_of_request request
  have ahead := inv.wonCounting member request won
  have bounded := (inv.tally.count found tagged voted).card_lt member tagged
  rw [inv.tally.card_count found tagged pending] at bounded
  omega

/-- At most one node is elected in a term: the voters of two elections have a
node in common, and it gave one vote. -/
theorem Election.won_unique (inv : Election events s counted) {c d : Fin n} {T : Int}
    {Q : Finset (Fin n)} (won : Won events c T) (majority : Majority Q)
    (votes : ∀ v ∈ Q, .voted v T d ∈ events) : c = d := by
  obtain ⟨rf, elected, rfl⟩ := won
  obtain ⟨Q', majority', votes'⟩ := inv.quorum elected
  obtain ⟨v, member', member⟩ := majority'.exists_common majority
  exact inv.votedOnce (votes' v member') (votes v member)

/-- A vote is counted. -/
theorem Election.count (inv : Election events s counted) (found : s.calls[k]? = some call)
    (request : call.request = .requestVote args a) (pending : k ∉ s.finished)
    (voted : .voted call.dst args.term call.src ∈ events) :
    Election events
      { s.finish k with votedNums := s.votedNums.set a (s.votedNums.getD a 0 + 1) }
      (countWith counted a call.dst) := by
  have member := List.mem_of_getElem? found
  have tagged := voteTag_of_request request
  have inside := inv.tally.bound member tagged
  have card := inv.tally.card_count found tagged pending
  have tally := inv.tally.count found tagged voted
  have sameLength : s.votedNums.length =
      (s.votedNums.set a (s.votedNums.getD a 0 + 1)).length := List.length_set.symm
  rw [sameLength] at tally
  exact
    { inv with
      tally := tally
      counting := by
        intro call' args' a' member' request'
        rw [getD_set inside]
        by_cases same : a' = a
        · subst same
          have before := inv.counting member request
          rw [if_pos rfl, card]
          omega
        · rw [if_neg same, countWith_of_ne counted _ same]
          exact inv.counting member' request'
      wonCounting := by
        intro call' args' a' member' request' won
        rw [getD_set inside]
        by_cases same : a' = a
        · subst same
          have before := inv.wonCounting member' request' won
          rw [if_pos rfl, card]
          omega
        · rw [if_neg same, countWith_of_ne counted _ same]
          exact inv.wonCounting member' request' won }

/-- The counted servers, the candidate and the server of the last vote are a
majority that voted for the candidate. -/
theorem Election.voters (inv : Election events s counted) (found : s.calls[k]? = some call)
    (request : call.request = .requestVote args a) (pending : k ∉ s.finished)
    (voted : .voted call.dst args.term call.src ∈ events)
    (majority : ((n / 2 : Nat) : Int) ≤ s.votedNums.getD a 0) :
    ∃ Q : Finset (Fin n), Majority Q ∧ ∀ v ∈ Q, .voted v args.term call.src ∈ events := by
  have member := List.mem_of_getElem? found
  have tagged := voteTag_of_request request
  have tally := inv.tally.count found tagged voted
  have card := inv.tally.card_count found tagged pending
  have counting := inv.counting member request
  refine ⟨insert call.src (countWith counted a call.dst a), ?_, ?_⟩
  · unfold Majority
    rw [Finset.card_insert_of_notMem (tally.apart member tagged), card,
      Fintype.card_fin]
    omega
  · intro v inside
    rcases Finset.mem_insert.mp inside with rfl | counted'
    · exact (inv.asked member request).2.2
    · exact tally.counts member tagged v counted'

/-- The event of an election, and the counter that is reset. -/
theorem Election.elect (inv : Election events s counted) (found : s.calls[k]? = some call)
    (request : call.request = .requestVote args a) (pending : k ∉ s.finished)
    (voted : .voted call.dst args.term call.src ∈ events)
    (majority : ((n / 2 : Nat) : Int) ≤ s.votedNums.getD a 0)
    (current : (s.nodes call.src).currentTerm = args.term) {rf : Raft n}
    (newTerm : rf.currentTerm = args.term) :
    Election (events ++ [.elected call.src rf])
      { s.finish k with votedNums := s.votedNums.set a 0 } (countWith counted a call.dst) := by
  have member := List.mem_of_getElem? found
  have tagged := voteTag_of_request request
  have inside := inv.tally.bound member tagged
  have card := inv.tally.card_count found tagged pending
  have counting := inv.counting member request
  have notWon := inv.not_won found request pending voted majority
  have tally := inv.tally.count found tagged voted
  obtain ⟨Q, majorityQ, votes⟩ := inv.voters found request pending voted majority
  have votedThen : ∀ {v T c}, Event.voted v T c ∈ events ++ [.elected call.src rf] ↔
      Event.voted v T c ∈ events := by
    simp
  have won : ∀ {c T}, Won (events ++ [.elected call.src rf]) c T →
      Won events c T ∨ c = call.src ∧ T = args.term := by
    rintro c T ⟨rf', elected, rfl⟩
    rcases List.mem_append.mp elected with before | last
    · exact Or.inl ⟨rf', before, rfl⟩
    · rw [List.mem_singleton, Event.elected.injEq] at last
      obtain ⟨rfl, rfl⟩ := last
      exact Or.inr ⟨rfl, newTerm⟩
  have sameLength : s.votedNums.length = (s.votedNums.set a 0).length := List.length_set.symm
  rw [sameLength] at tally
  exact
    { inv with
      votedBound := fun before => inv.votedBound (votedThen.mp before)
      votedFor := fun before => inv.votedFor (votedThen.mp before)
      votedOnce := fun before before' =>
        inv.votedOnce (votedThen.mp before) (votedThen.mp before')
      leads := by
        intro v leads
        obtain ⟨rf', elected, term⟩ := inv.leads leads
        exact ⟨rf', List.mem_append_left _ elected, term⟩
      wonBound := by
        intro c T wonThen
        rcases won wonThen with before | ⟨rfl, rfl⟩
        · exact inv.wonBound before
        · exact current.ge
      asked := by
        intro call' args' a' member' request'
        obtain ⟨own, bound, vote⟩ := inv.asked member' request'
        exact ⟨own, bound, List.mem_append_left _ vote⟩
      granted := by
        intro k' reply answered given
        obtain ⟨call', args', a', found', request', term, vote⟩ := inv.granted answered given
        exact ⟨call', args', a', found', request', term, List.mem_append_left _ vote⟩
      tally := tally.mono fun _ _ vote => List.mem_append_left _ vote
      counting := by
        intro call' args' a' member' request'
        rw [getD_set inside]
        by_cases same : a' = a
        · rw [if_pos same]
          omega
        · rw [if_neg same, countWith_of_ne counted _ same]
          exact inv.counting member' request'
      wonCounting := by
        intro call' args' a' member' request' wonThen
        rw [getD_set inside]
        by_cases same : a' = a
        · subst same
          rw [if_pos rfl, card]
          omega
        · rw [if_neg same, countWith_of_ne counted _ same]
          rcases won wonThen with before | ⟨sameSrc, sameTerm⟩
          · exact inv.wonCounting member' request' before
          · exact absurd (inv.oneRound member' member request' request sameSrc sameTerm) same
      quorum := by
        intro c rf' elected
        rcases List.mem_append.mp elected with before | last
        · obtain ⟨Q', majority', votes'⟩ := inv.quorum before
          exact ⟨Q', majority', fun v inside' => List.mem_append_left _ (votes' v inside')⟩
        · rw [List.mem_singleton, Event.elected.injEq] at last
          obtain ⟨rfl, rfl⟩ := last
          rw [newTerm]
          exact ⟨Q, majorityQ, fun v inside' => List.mem_append_left _ (votes v inside')⟩
      once := by
        refine List.pairwise_append.mpr ⟨inv.once, List.pairwise_singleton _ _, ?_⟩
        intro event before event' last T electedThen sameTerm
        rw [List.mem_singleton.mp last] at sameTerm
        cases event with
        | elected c rf' =>
            simp only [Event.electedTerm, Option.some.injEq] at electedThen sameTerm
            have wonBefore : Won events c args.term :=
              ⟨rf', before, by rw [electedThen, ← sameTerm, newTerm]⟩
            have sameNode := inv.won_unique wonBefore majorityQ votes
            exact notWon (sameNode ▸ wonBefore)
        | _ => simp [Event.electedTerm] at electedThen }

/-- A counted vote completes a majority, and the counter is reset. -/
theorem Election.win (inv : Election events s counted) (found : s.calls[k]? = some call)
    (request : call.request = .requestVote args a) (pending : k ∉ s.finished)
    (voted : .voted call.dst args.term call.src ∈ events)
    (majority : ((n / 2 : Nat) : Int) ≤ s.votedNums.getD a 0)
    (current : (s.nodes call.src).currentTerm = args.term) :
    Election (events ++ [.elected call.src (s.nodes call.src).becomeLeader])
      { (s.setNode call.src (s.nodes call.src).becomeLeader).finish k with
        votedNums := s.votedNums.set a 0 }
      (countWith counted a call.dst) := by
  have newTerm : (s.nodes call.src).becomeLeader.currentTerm = args.term := current
  have elected := inv.elect found request pending voted majority current newTerm
  have won : Won (events ++ [.elected call.src (s.nodes call.src).becomeLeader]) call.src
      (s.nodes call.src).becomeLeader.currentTerm := ⟨_, by simp, rfl⟩
  exact elected.moveNode call.src (s.nodes call.src).becomeLeader rfl le_rfl (fun _ => rfl)
    fun _ => won

end Counting

end CppRaft.Protocol
