import CppRaft.Consensus.Reachable
import CppRaft.RaftCore.Storing

/-!
# A node in a history of the abstract protocol

`NodeRel` relates a Raft node to its place in a history of the abstract
protocol.  For every critical section one lemma finds the abstract steps that
it takes.
-/

namespace CppRaft.Protocol

open CppRaft.Consensus
open CppRaft.Consensus.History
open CppRaft.RaftCore
open CppRaft.Store

variable {n : Nat} {h h' : History (Fin n) LogEntry} {v : Fin n} {rf rf' : Raft n}

/-- Node `v` of the history is the Raft node `rf`. -/
structure NodeRel (h : History (Fin n) LogEntry) (v : Fin n) (rf : Raft n) : Prop where
  term : h.term v = rf.currentTerm
  view : LogView rf (h.log v)
  free : rf.votedFor = -1 → h.ballot rf.currentTerm v = none
  given : ∀ c : Fin n, rf.votedFor = (c : Int) → h.ballot rf.currentTerm v = some c
  leads : rf.status = .leader →
    h.leader rf.currentTerm = some v ∧ h.leaderLog rf.currentTerm = h.log v
  compacted : rf.lastSnapshotIncludeIndex ≤ rf.commitIndex
  bound : rf.commitIndex ≤ (h.log v).length
  committed : h.CommittedBy rf.currentTerm ((h.log v).take rf.commitIndex.toNat)

/-- Node `v` takes abstract steps to a history where it is `rf`, and the
leaders and their logs stay. -/
structure Follows (h h' : History (Fin n) LogEntry) (v : Fin n) (rf : Raft n) : Prop where
  steps : Steps v h h'
  node : NodeRel h' v rf
  leader : h'.leader = h.leader
  leaderLog : h'.leaderLog = h.leaderLog

theorem Follows.refl (node : NodeRel h v rf) : Follows h h v rf where
  steps := Steps.refl
  node := node
  leader := rfl
  leaderLog := rfl

theorem Follows.trans {h'' : History (Fin n) LogEntry} (first : Follows h h' v rf)
    (second : Follows h' h'' v rf') : Follows h h'' v rf' where
  steps := first.steps.trans second.steps
  node := second.node
  leader := second.leader.trans first.leader
  leaderLog := second.leaderLog.trans first.leaderLog

/-- One more step. -/
theorem Follows.snoc {h'' : History (Fin n) LogEntry} (first : Follows h h' v rf)
    (step : Step h' v h'') (node : NodeRel h'' v rf') (leader : h''.leader = h'.leader)
    (leaderLog : h''.leaderLog = h'.leaderLog) : Follows h h'' v rf' where
  steps := first.steps.snoc step
  node := node
  leader := leader.trans first.leader
  leaderLog := leaderLog.trans first.leaderLog

theorem Follows.mapNode (first : Follows h h' v rf) (node : NodeRel h' v rf') :
    Follows h h' v rf' :=
  { first with node := node }

/-! ## Changes that the history does not see -/

theorem NodeRel.congr (node : NodeRel h v rf) (term : rf'.currentTerm = rf.currentTerm)
    (vote : rf'.votedFor = rf.votedFor) (logs : rf'.logs = rf.logs)
    (index : rf'.lastSnapshotIncludeIndex = rf.lastSnapshotIncludeIndex)
    (snapshotTerm : rf'.lastSnapshotIncludeTerm = rf.lastSnapshotIncludeTerm)
    (commit : rf'.commitIndex = rf.commitIndex)
    (leads : rf'.status = .leader → rf.status = .leader) : NodeRel h v rf' where
  term := node.term.trans term.symm
  view := node.view.congr logs index snapshotTerm
  free := by
    rw [vote, term]
    exact node.free
  given := by
    rw [vote, term]
    exact node.given
  leads := by
    rw [term]
    exact fun leader => node.leads (leads leader)
  compacted := by
    rw [index, commit]
    exact node.compacted
  bound := commit ▸ node.bound
  committed := by
    rw [term, commit]
    exact node.committed

theorem NodeRel.persist (node : NodeRel h v rf) : NodeRel h v rf.persist :=
  node.congr rfl rfl rfl rfl rfl rfl id

theorem NodeRel.save (node : NodeRel h v rf) (snapshot : Bytes) : NodeRel h v (rf.save snapshot) :=
  node.congr rfl rfl rfl rfl rfl rfl id

/-- The commit index rises to a committed prefix. -/
theorem NodeRel.commit (node : NodeRel h v rf) (commitIndex : Int)
    (bound : commitIndex ≤ (h.log v).length)
    (committed : h.CommittedBy rf.currentTerm ((h.log v).take commitIndex.toNat)) :
    NodeRel h v { rf with commitIndex := max rf.commitIndex commitIndex } where
  term := node.term
  view := node.view.congr rfl rfl rfl
  free := node.free
  given := node.given
  leads := node.leads
  compacted := node.compacted.trans (le_max_left _ _)
  bound := max_le node.bound bound
  committed := by
    rcases max_choice rf.commitIndex commitIndex with old | new
    · simp only [old]
      exact node.committed
    · simp only [new]
      exact committed

/-! ## Terms -/

/-- A node meets the term of a message. -/
theorem NodeRel.meetTerm (reachable : Reachable h) (node : NodeRel h v rf) {t : Int}
    (notOutdated : rf.currentTerm ≤ t) :
    ∃ h', Follows h h' v (rf.meetTerm t) ∧ h'.log v = h.log v := by
  rcases rf.meetTerm_eq_or notOutdated with ⟨same, _⟩ | ⟨adopted, later⟩
  · rw [same]
    exact ⟨h, .refl node, rfl⟩
  · rw [adopted]
    have step : Step h v (h.raise v t) := .raise v t (node.term ▸ later.le)
    have ext := reachable.sound.extends_step step
    refine ⟨h.raise v t, ⟨step.steps, ?_, rfl, rfl⟩, rfl⟩
    have noBallot : h.ballot t v = none := by
      cases cast : h.ballot t v with
      | none => rfl
      | some c =>
          have bound := reachable.sound.ballotBound t v c cast
          rw [node.term] at bound
          omega
    exact
      { term := by simp [History.raise, Raft.adoptTerm]
        view := node.view.congr rfl rfl rfl
        free := fun _ => noBallot
        given := by
          intro c voted
          simp only [Raft.adoptTerm] at voted
          omega
        leads := by
          intro leader
          cases leader
        compacted := node.compacted
        bound := node.bound
        committed := node.committed.mono ext later.le }

/-- A node becomes the follower of the sender of a message. -/
theorem NodeRel.followTerm (reachable : Reachable h) (node : NodeRel h v rf) {t : Int}
    (notOutdated : rf.currentTerm ≤ t) :
    ∃ h', Follows h h' v (rf.followTerm t) ∧ h'.log v = h.log v := by
  obtain ⟨h', follows, sameLog⟩ := node.meetTerm reachable notOutdated
  refine ⟨h', follows.mapNode (follows.node.congr rfl rfl rfl rfl rfl rfl ?_), sameLog⟩
  intro leader
  cases leader

/-! ## Elections -/

/-- What a vote request says of the candidate. -/
structure Candidacy (h : History (Fin n) LogEntry) (src : Fin n) (args : RequestVoteArgs) :
    Prop where
  candidateId : args.candidateId = (src : Int)
  log : ∃ candidate, h.candidateLog args.term src = some candidate ∧
    args.lastLogIndex = candidate.length ∧ args.lastLogTerm = lastTerm candidate

theorem Candidacy.mono (ext : Extends h h') {src : Fin n} {args : RequestVoteArgs}
    (asks : Candidacy h src args) : Candidacy h' src args where
  candidateId := asks.candidateId
  log := by
    obtain ⟨candidate, stands, index, term⟩ := asks.log
    exact ⟨candidate, ext.candidateLog _ _ _ stands, index, term⟩

theorem NodeRel.requestVote (reachable : Reachable h) (node : NodeRel h v rf) {src : Fin n}
    {args : RequestVoteArgs} {reply : RequestVoteReply} (asks : Candidacy h src args)
    (handled : rf.requestVote args = .ok (rf', reply)) :
    ∃ h', Follows h h' v rf' ∧
      (reply.voteGranted = true → h'.ballot reply.term v = some src) := by
  rcases Raft.requestVote_cases handled with ⟨_, rfl, refused⟩ | ⟨notOutdated, rfl, refused⟩ |
    ⟨notOutdated, _, replyTerm, upToDate, free, rfl⟩
  · exact ⟨h, .refl node.persist, by simp [refused]⟩
  · obtain ⟨h', follows, _⟩ := node.meetTerm reachable notOutdated
    exact ⟨h', follows.mapNode follows.node.persist, by simp [refused]⟩
  · obtain ⟨h₁, follows, _⟩ := node.meetTerm reachable notOutdated
    have sound := (follows.steps.reachable reachable).sound
    have ext := (follows.steps.moves reachable).ext
    have met := follows.node
    have sameTerm := rf.meetTerm_currentTerm notOutdated
    rw [replyTerm, asks.candidateId]
    rw [asks.candidateId] at free
    by_cases given : (rf.meetTerm args.term).votedFor = (src : Int)
    · -- The vote was given before, and the state does not change.
      refine ⟨h₁, follows.mapNode (met.congr rfl given.symm rfl rfl rfl rfl id), fun _ => ?_⟩
      rw [← sameTerm]
      exact met.given src given
    · have unspent := met.free (free.resolve_right given)
      obtain ⟨candidate, stands, lastIndex, lastTerm_eq⟩ := (asks.mono ext).log
      have term := met.term
      rw [sameTerm] at term unspent
      rw [← term] at unspent stands
      have better : AsUpToDate candidate (h₁.log v) := by
        simp only [Raft.upToDate, met.view.getLastLogIndexAndTerm, decide_eq_true_eq,
          lastIndex, lastTerm_eq] at upToDate
        rcases upToDate with laterTerm | ⟨same, longer⟩
        · exact Or.inl laterTerm
        · exact Or.inr ⟨same, by omega⟩
      have step : Step h₁ v (h₁.grant v src) := .grant v src candidate unspent stands better
      have ext' := sound.extends_step step
      refine ⟨h₁.grant v src, follows.snoc step ?_ rfl rfl, fun _ => ?_⟩
      · exact
          { term := met.term
            view := met.view.congr rfl rfl rfl
            free := by
              intro voted
              simp only [Raft.persist] at voted
              omega
            given := by
              intro c voted
              have same : c = src := Fin.ext (by simp only [Raft.persist] at voted; omega)
              simp [History.grant, Raft.persist, same, sameTerm, term]
            leads := met.leads
            compacted := met.compacted
            bound := met.bound
            committed := met.committed.mono ext' le_rfl }
      · simp [History.grant, term]

theorem NodeRel.doElection (reachable : Reachable h) (node : NodeRel h v rf) (me : rf.me = v) :
    Follows h (h.campaign v (rf.currentTerm + 1)) v rf.candidacy := by
  have later : h.term v < rf.currentTerm + 1 := by
    rw [node.term]
    omega
  have step : Step h v (h.campaign v (rf.currentTerm + 1)) := .campaign v _ later
  have ext := reachable.sound.extends_step step
  refine ⟨step.steps, ?_, rfl, rfl⟩
  exact
    { term := by simp [History.campaign, Raft.candidacy, Raft.persist]
      view := node.view.congr rfl rfl rfl
      free := by
        intro voted
        simp only [Raft.candidacy, Raft.persist] at voted
        omega
      given := by
        intro c voted
        have same : c = v := by
          rw [← me]
          exact Fin.ext (by simp only [Raft.candidacy, Raft.persist] at voted; omega)
        simp [History.campaign, Raft.candidacy, Raft.persist, same]
      leads := by
        intro leader
        cases leader
      compacted := node.compacted
      bound := node.bound
      committed := node.committed.mono ext (by simp only [Raft.candidacy, Raft.persist]; omega) }

/-- A majority of ballots makes the node the leader of its term. -/
theorem NodeRel.becomeLeader (reachable : Reachable h) (node : NodeRel h v rf)
    {Q : Finset (Fin n)} (vacant : h.leader rf.currentTerm = none) (majority : Majority Q)
    (votes : ∀ w ∈ Q, h.ballot rf.currentTerm w = some v) :
    Steps v h (h.elect v) ∧ NodeRel (h.elect v) v rf.becomeLeader := by
  rw [← node.term] at vacant votes
  have step : Step h v (h.elect v) := .elect v Q vacant majority votes
  have ext := reachable.sound.extends_step step
  refine ⟨step.steps, ?_⟩
  exact
    { term := node.term
      view := node.view.congr rfl rfl rfl
      free := node.free
      given := node.given
      leads := by
        intro _
        simp [History.elect, Raft.becomeLeader, Raft.persist, node.term]
      compacted := node.compacted
      bound := node.bound
      committed := node.committed.mono ext le_rfl }

end CppRaft.Protocol
