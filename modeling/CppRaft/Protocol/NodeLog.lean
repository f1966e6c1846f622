import CppRaft.Protocol.NodeRel

/-!
# The log of a node follows the abstract protocol

The abstract steps of the functions that change the log or the commit index:
`AppendEntries1`, `InstallSnapshot`, `Snapshot`, `StartConses`, and the reply
that lets a leader commit.
-/

namespace CppRaft.Protocol

open CppRaft.Consensus
open CppRaft.Consensus.History
open CppRaft.RaftCore
open CppRaft.Store

variable {n : Nat} {h h' : History (Fin n) LogEntry} {v : Fin n} {rf rf' : Raft n}

/-! ## Entries -/

/-- What an AppendEntries request offers: the entries `k + 1` to `m` of the log
of the leader of its term, and a committed prefix of them. -/
structure Offer (h : History (Fin n) LogEntry) (src : Fin n) (args : AppendEntriesArgs)
    (k m : Nat) : Prop where
  leads : h.leader args.term = some src
  ordered : k ≤ m
  bounded : m ≤ (h.leaderLog args.term).length
  prevLogIndex : args.prevLogIndex = k
  prevLogTerm : args.prevLogTerm = lastTerm ((h.leaderLog args.term).take k)
  entries : args.entries = ((h.leaderLog args.term).take m).drop k
  commitBound : args.leaderCommit ≤ m
  committed : h.CommittedBy args.term ((h.leaderLog args.term).take args.leaderCommit.toNat)

theorem take_leaderLog (ext : Extends h h') {t : Int} (elected : h.Elected t) {k : Nat}
    (bounded : k ≤ (h.leaderLog t).length) :
    (h'.leaderLog t).take k = (h.leaderLog t).take k := by
  obtain ⟨added, same, _⟩ := ext.leaderLog t elected
  rw [same, List.take_append_of_le_length bounded]

theorem Offer.mono (ext : Extends h h') {src : Fin n} {args : AppendEntriesArgs} {k m : Nat}
    (offer : Offer h src args k m) : Offer h' src args k m := by
  have elected : h.Elected args.term := ⟨src, offer.leads⟩
  have commitBound := offer.commitBound
  have bounded := offer.bounded
  have ordered := offer.ordered
  exact
    { leads := ext.leader _ _ offer.leads
      ordered := offer.ordered
      bounded := offer.bounded.trans (ext.leaderLog_prefix elected).length_le
      prevLogIndex := offer.prevLogIndex
      prevLogTerm := by
        rw [take_leaderLog ext elected (by omega)]
        exact offer.prevLogTerm
      entries := by
        rw [take_leaderLog ext elected bounded]
        exact offer.entries
      commitBound := offer.commitBound
      committed := by
        rw [take_leaderLog ext elected (by omega)]
        exact offer.committed.mono ext le_rfl }

theorem Offer.length {src : Fin n} {args : AppendEntriesArgs} {k m : Nat}
    (offer : Offer h src args k m) : args.prevLogIndex + args.entries.length = m := by
  have ordered := offer.ordered
  have bounded := offer.bounded
  rw [offer.prevLogIndex, offer.entries, List.length_drop, List.length_take]
  omega

/-- The previous entry of an offer matches: the logs agree up to it. -/
theorem Offer.shared (reachable : Reachable h) (node : NodeRel h v rf) {src : Fin n}
    {args : AppendEntriesArgs} {k m : Nat} (offer : Offer h src args k m)
    (matched : rf.matchLog args.prevLogIndex args.prevLogTerm = .ok true) :
    rf.lastSnapshotIncludeIndex ≤ k ∧ k ≤ (h.log v).length ∧
      (h.log v).take k = (h.leaderLog args.term).take k := by
  have sound := reachable.sound
  have bounded := offer.bounded
  have ordered := offer.ordered
  obtain ⟨above, below, term⟩ := node.view.matchLog matched
  rw [offer.prevLogIndex] at above below term
  rw [Int.toNat_natCast, offer.prevLogTerm] at term
  have below : k ≤ (h.log v).length := by omega
  refine ⟨above, below, ?_⟩
  rcases Nat.eq_zero_or_pos k with rfl | positive
  · simp
  · have ownLength : ((h.log v).take k).length = k := by simp [below]
    have leaderLength : ((h.leaderLog args.term).take k).length = k := by
      rw [List.length_take]
      omega
    exact Backed.eq_of_lastTerm ((sound.logBacked v).of_isPrefix (List.take_prefix _ _))
      ((sound.leaderBacked _ ⟨src, offer.leads⟩).of_isPrefix (List.take_prefix _ _))
      (List.ne_nil_of_length_pos (by omega)) (List.ne_nil_of_length_pos (by omega))
      term.symm (ownLength.trans leaderLength.symm)

theorem followCommit_eq (rf : Raft n) {leaderCommit : Int}
    (covered : leaderCommit ≤ rf.getLastLogIndex) :
    rf.followCommit leaderCommit =
      { rf with commitIndex := max rf.commitIndex leaderCommit } := by
  unfold Raft.followCommit
  split
  · rw [min_eq_left covered, max_eq_right (by omega)]
  · rw [max_eq_left (by omega)]

theorem followTerm_conflictsAt (rf : Raft n) (t index term : Int) :
    (rf.followTerm t).ConflictsAt index term ↔ rf.ConflictsAt index term := by
  unfold Raft.followTerm Raft.meetTerm
  split <;> rfl

theorem followTerm_matchLog (rf : Raft n) (t index term : Int) :
    (rf.followTerm t).matchLog index term = rf.matchLog index term := by
  unfold Raft.followTerm Raft.meetTerm
  split <;> rfl

theorem NodeRel.commitLength (node : NodeRel h v rf) :
    ((h.log v).take rf.commitIndex.toNat).length = rf.commitIndex.toNat := by
  have bound := node.bound
  rw [List.length_take]
  omega

/-- A follower takes over a log that has what it knows to be committed. -/
theorem NodeRel.accept (node : NodeRel h v rf) (m : Nat) {l : List LogEntry} {stored : Raft n}
    (follower : rf.status = .follower) (unchanged : stored = { rf with logs := stored.logs })
    (view : LogView stored l) (keeps : (h.log v).take rf.commitIndex.toNat <+: l) :
    NodeRel (h.accept v m l) v stored := by
  have ext := extends_accept h v m l
  have length := node.commitLength
  have longer := keeps.length_le
  have same := take_of_prefix keeps length.ge
  rw [List.take_take, min_self] at same
  have log : (h.accept v m l).log v = l := by simp [History.accept]
  rw [unchanged] at view ⊢
  exact
    { term := node.term
      view := log.symm ▸ view
      free := node.free
      given := node.given
      leads := by
        intro leader
        rw [follower] at leader
        cases leader
      compacted := node.compacted
      bound := by
        rw [log]
        simp only
        omega
      committed := by
        rw [log]
        simp only [same]
        exact node.committed.mono ext le_rfl }

/-- A node that has stored an offer acknowledges it, with the log that it had
or with that of the leader. -/
theorem NodeRel.stored (reachable : Reachable h) (node : NodeRel h v rf) {src : Fin n}
    {args : AppendEntriesArgs} {k m : Nat} (offer : Offer h src args k m)
    (current : rf.currentTerm = args.term) (follower : rf.status = .follower)
    (leaderIndexed : Indexed (h.leaderLog args.term))
    (matched : rf.matchLog args.prevLogIndex args.prevLogTerm = .ok true)
    (noTail : (m : Int) < rf.getLastLogIndex →
      ∀ log ∈ args.entries, ¬ rf.ConflictsAt log.logIndex log.logTerm)
    {stored : Raft n} (looped : rf.appendEntriesLoop args.entries = .ok stored) :
    ∃ h', Follows h h' v (stored.followCommit args.leaderCommit).persist ∧
      m ≤ h'.acked args.term v := by
  have sound := reachable.sound
  have term : h.term v = args.term := node.term.trans current
  have elected : h.Elected (h.term v) := ⟨src, by rw [term]; exact offer.leads⟩
  have bounded := offer.bounded
  have commitBound := offer.commitBound
  obtain ⟨above, below, shared⟩ := offer.shared reachable node matched
  have unchanged := Raft.appendEntriesLoop_eq looped
  rw [offer.entries] at looped noTail
  have outcome := node.view.store_offer leaderIndexed offer.ordered bounded above below shared
    looped fun long => noTail (by rw [node.view.getLastLogIndex]; omega)
  have takeLength : ((h.leaderLog args.term).take m).length = m := by simp [bounded]
  -- Either way the node has the offered entries and what it knew as committed.
  have accepts : ∀ l, LogView stored l → (h.leaderLog args.term).take m <+: l →
      (h.log v).take rf.commitIndex.toNat <+: l → Step h v (h.accept v m l) →
      ∃ h', Follows h h' v (stored.followCommit args.leaderCommit).persist ∧
        m ≤ h'.acked args.term v := by
    intro l view offered keeps step
    have longer := offered.length_le
    have log : (h.accept v m l).log v = l := by simp [History.accept]
    have accepted := node.accept m follower unchanged view keeps
    have covered : args.leaderCommit ≤ stored.getLastLogIndex := by
      rw [view.getLastLogIndex]
      omega
    have sameTerm : stored.currentTerm = args.term := by
      rw [unchanged]
      exact current
    have committed := accepted.commit args.leaderCommit (by rw [log]; omega) (by
      have begins := take_of_prefix offered (show args.leaderCommit.toNat ≤ _ by omega)
      rw [List.take_take, Nat.min_eq_left (by omega)] at begins
      rw [log, begins, sameTerm]
      exact offer.committed.mono (extends_accept h v m l) le_rfl)
    rw [← followCommit_eq stored covered] at committed
    refine ⟨_, ⟨step.steps, committed.persist, rfl, rfl⟩, ?_⟩
    simp [History.accept, term]
  have ownPrefix := List.take_prefix rf.commitIndex.toNat (h.log v)
  rcases outcome with ⟨holds, view⟩ | ⟨lacks, view⟩
  · exact accepts _ view holds ownPrefix
      (.acknowledge v m elected (by rw [term]; exact bounded) (by rw [term]; exact holds))
  · have step : Step h v (h.accept v m ((h.leaderLog (h.term v)).take m)) :=
      .follow v m elected (by rw [term]; exact bounded) (by rw [term]; exact lacks)
    rw [term] at step
    refine accepts _ view List.prefix_rfl ?_ step
    have ownCommitted := node.committed
    rw [current, ← term] at ownCommitted
    have inLeader := sound.committedBy_prefix_leaderLog ownCommitted elected
    rw [term] at inLeader
    rcases le_total ((h.log v).take rf.commitIndex.toNat).length m with short | long
    · exact prefix_of_common inLeader (List.take_prefix _ _) (by rw [takeLength]; exact short)
    · have held := prefix_of_common (List.take_prefix m _) inLeader (by rw [takeLength]; exact long)
      exact absurd (held.trans ownPrefix) lacks

/-- A handled AppendEntries request. -/
theorem NodeRel.appendEntries1 (reachable : Reachable h) (node : NodeRel h v rf) {src : Fin n}
    {args : AppendEntriesArgs} {reply : AppendEntriesReply} {k m : Nat}
    (offer : Offer h src args k m) (leaderIndexed : Indexed (h.leaderLog args.term))
    (noTail : ¬ rf.LeavesStaleTail args) (handled : rf.appendEntries1 args = .ok (rf', reply)) :
    ∃ h', Follows h h' v rf' ∧
      (reply.success = true → reply.term = args.term ∧ m ≤ h'.acked args.term v) := by
  rcases Raft.appendEntries1_cases handled with ⟨_, rfl, refused⟩ | ⟨notOutdated, rfl, refused⟩ |
    ⟨notOutdated, _, replyTerm, matched, stored, looped, rfl⟩
  · exact ⟨h, .refl node, by simp [refused]⟩
  · obtain ⟨h', follows, _⟩ := node.followTerm reachable notOutdated
    exact ⟨h', follows.mapNode follows.node.persist, by simp [refused]⟩
  · obtain ⟨h₁, follows, sameLog⟩ := node.followTerm reachable notOutdated
    have reachable₁ := follows.steps.reachable reachable
    have ext := (follows.steps.moves reachable).ext
    obtain ⟨h₂, stores, acked⟩ := follows.node.stored reachable₁ (offer.mono ext)
      (rf.followTerm_currentTerm notOutdated) rfl (by rw [follows.leaderLog]; exact leaderIndexed)
      matched
      (by
        intro long log member conflict
        rw [followTerm_conflictsAt] at conflict
        rw [followTerm_matchLog] at matched
        refine noTail ⟨notOutdated, matched, ⟨log, member, conflict⟩, ?_⟩
        rw [follows.node.view.getLastLogIndex, sameLog] at long
        rw [offer.length, node.view.getLastLogIndex]
        exact long)
      looped
    exact ⟨h₂, follows.trans stores, fun _ => ⟨replyTerm, acked⟩⟩

/-! ## Snapshots -/

/-- What an InstallSnapshot request carries: a committed prefix. -/
structure Covers (h : History (Fin n) LogEntry) (args : InstallSnapshotRequest)
    (l : List LogEntry) : Prop where
  committed : h.CommittedBy args.term l
  indexed : Indexed l
  index : args.lastSnapShotIncludeIndex = l.length
  term : args.lastSnapShotIncludeTerm = lastTerm l

theorem Covers.mono (ext : Extends h h') {args : InstallSnapshotRequest} {l : List LogEntry}
    (covers : Covers h args l) : Covers h' args l :=
  { covers with committed := covers.committed.mono ext le_rfl }

/-- A node that agrees with a snapshot has its prefix as the beginning of its
log. -/
theorem Covers.take_eq (reachable : Reachable h) (node : NodeRel h v rf)
    {args : InstallSnapshotRequest} {l : List LogEntry} (covers : Covers h args l)
    (newer : rf.lastSnapshotIncludeIndex < args.lastSnapShotIncludeIndex)
    (inside : args.lastSnapShotIncludeIndex < rf.getLastLogIndex)
    (agrees : ¬ rf.ConflictsAt args.lastSnapShotIncludeIndex args.lastSnapShotIncludeTerm) :
    (h.log v).take l.length = l := by
  have sound := reachable.sound
  have nonneg := node.view.snapshotNonneg
  rw [node.view.getLastLogIndex] at inside
  rw [covers.index] at newer inside agrees
  have positive : l.length - 1 + 1 = l.length := by omega
  have short : l.length - 1 < (h.log v).length := by omega
  have found := List.getElem?_eq_getElem short
  have atIndex := node.view.logAtIndex.mpr ⟨newer, by rw [Int.toNat_natCast, found]⟩
  rw [Raft.conflictsAt_of_found atIndex, not_not, covers.term, ← termOf_eq_logTerm,
    ← lastTerm_take found, positive]
    at agrees
  have length : ((h.log v).take l.length).length = l.length := by
    rw [List.length_take]
    omega
  exact Backed.eq_of_lastTerm ((sound.logBacked v).of_isPrefix (List.take_prefix _ _))
    (sound.backed_of_committedBy covers.committed).1
    (List.ne_nil_of_length_pos (by omega)) (List.ne_nil_of_length_pos (by omega)) agrees length

theorem snapshotTerm_eq (rf : Raft n) (t : Int) :
    rf.snapshotTerm t = { rf.followTerm t with persister := (rf.snapshotTerm t).persister } := by
  unfold Raft.snapshotTerm Raft.followTerm Raft.meetTerm
  split <;> rfl

/-- A node takes over a new snapshot that its log does not contradict. -/
theorem NodeRel.withSnapshot (reachable : Reachable h) (node : NodeRel h v rf)
    {args : InstallSnapshotRequest} {l logs : List LogEntry} (covers : Covers h args l)
    (current : rf.currentTerm = args.term) (follower : rf.status = .follower)
    (newer : rf.lastSnapshotIncludeIndex < args.lastSnapShotIncludeIndex)
    (matched : args.lastSnapShotIncludeIndex < rf.getLastLogIndex →
      ¬ rf.ConflictsAt args.lastSnapShotIncludeIndex args.lastSnapShotIncludeTerm)
    (cut : rf.cutLogs args.lastSnapShotIncludeIndex = .ok logs) :
    ∃ h', Follows h h' v (rf.withSnapshot args logs) := by
  have length := covers.index
  have noLeader : ∀ {p : Prop}, (rf.withSnapshot args logs).status = .leader → p := by
    intro p leader
    simp only [Raft.withSnapshot, follower] at leader
    cases leader
  rcases Raft.cutLogs_cases cut with ⟨short, rfl⟩ | ⟨long, _, rfl⟩
  · rw [node.view.getLastLogIndex] at short
    have bound := node.bound
    have rises : max rf.commitIndex args.lastSnapShotIncludeIndex = l.length := by omega
    have committed := covers.committed
    rw [← current, ← node.term] at committed
    have step : Step h v (h.install v l) := .install v l committed (by omega)
    have ext := reachable.sound.extends_step step
    have log : (h.install v l).log v = l := by simp [History.install]
    refine ⟨h.install v l, step.steps, ?_, rfl, rfl⟩
    exact
      { term := node.term
        view := by
          rw [log]
          exact node.view.install_over covers.indexed covers.index covers.term newer
        free := node.free
        given := node.given
        leads := noLeader
        compacted := le_max_right _ _
        bound := by
          rw [log]
          exact rises.le
        committed := by
          rw [log]
          simp only [Raft.withSnapshot, rises, Int.toNat_natCast, List.take_length]
          rw [node.term] at committed
          exact committed.mono ext le_rfl }
  · have agrees := covers.take_eq reachable node newer long (matched long)
    rw [node.view.getLastLogIndex] at long
    have term : args.lastSnapShotIncludeTerm =
        lastTerm ((h.log v).take args.lastSnapShotIncludeIndex.toNat) := by
      rw [length, Int.toNat_natCast, agrees, covers.term]
    have rises := node.commit args.lastSnapShotIncludeIndex long.le (by
      rw [length, Int.toNat_natCast, agrees, current]
      exact covers.committed)
    refine ⟨h, Steps.refl, ?_, rfl, rfl⟩
    exact
      { term := node.term
        view := node.view.install_within newer long term
        free := node.free
        given := node.given
        leads := noLeader
        compacted := le_max_right _ _
        bound := rises.bound
        committed := rises.committed }

/-- A handled InstallSnapshot request. -/
theorem NodeRel.installSnapshot (reachable : Reachable h) (node : NodeRel h v rf)
    {args : InstallSnapshotRequest} {response : InstallSnapshotResponse} {msg : Option ApplyMsg}
    {l : List LogEntry} (covers : Covers h args l) (matched : ¬ rf.KeepsUnmatchedSuffix args)
    (handled : rf.installSnapshot args = .ok (rf', response, msg)) :
    ∃ h', Follows h h' v rf' := by
  rcases Raft.installSnapshot_cases handled with ⟨_, rfl, _⟩ | ⟨notOutdated, _, rfl, _⟩ |
    ⟨notOutdated, newer, ⟨logs, cut, rfl⟩, _⟩
  · exact ⟨h, .refl node⟩
  · obtain ⟨h₁, follows, _⟩ := node.followTerm reachable notOutdated
    rw [snapshotTerm_eq]
    exact ⟨h₁, follows.mapNode (follows.node.congr rfl rfl rfl rfl rfl rfl id)⟩
  · obtain ⟨h₁, follows, sameLog⟩ := node.followTerm reachable notOutdated
    have ext := (follows.steps.moves reachable).ext
    have met : NodeRel h₁ v (rf.snapshotTerm args.term) := by
      rw [snapshotTerm_eq]
      exact follows.node.congr rfl rfl rfl rfl rfl rfl id
    have sameIndex := rf.snapshotTerm_lastSnapshotIncludeIndex args.term
    have current := rf.snapshotTerm_currentTerm notOutdated
    obtain ⟨h₂, installs⟩ := met.withSnapshot (follows.steps.reachable reachable)
      (covers.mono ext) current (by rw [snapshotTerm_eq]; rfl) (by rw [sameIndex]; exact newer)
      (by
        intro long conflict
        rw [met.view.getLastLogIndex, sameLog, ← node.view.getLastLogIndex] at long
        refine matched ⟨notOutdated, newer, long, ?_⟩
        rw [snapshotTerm_eq] at conflict
        exact (followTerm_conflictsAt rf _ _ _).mp conflict)
      (by rw [rf.snapshotTerm_cutLogs notOutdated]; exact cut)
    exact ⟨h₂, follows.trans (installs.mapNode (installs.node.save args.data))⟩

/-- `Snapshot` takes no step of the protocol. -/
theorem NodeRel.snapshot (node : NodeRel h v rf) {index : Int} {data : Bytes}
    (taken : rf.snapshot index data = .ok rf') : NodeRel h v rf' := by
  rcases Raft.snapshot_cases taken with rfl | ⟨above, below, entry, logs, found, collected, rfl⟩
  · exact node
  · exact
      { term := node.term
        view := (node.view.compacted above found collected).congr rfl rfl rfl
        free := node.free
        given := node.given
        leads := node.leads
        compacted := by
          simp only [Raft.compacted, Raft.save]
          exact le_max_right _ _
        bound := by
          simp only [Raft.compacted, Raft.save, max_eq_left below]
          exact node.bound
        committed := by
          simp only [Raft.compacted, Raft.save, max_eq_left below]
          exact node.committed }

/-- The first section of `leaderSendSnapShot` sends what the node has
compacted. -/
theorem NodeRel.covers (node : NodeRel h v rf) :
    Covers h rf.snapshotArgs.2 ((h.log v).take rf.lastSnapshotIncludeIndex.toNat) where
  committed := by
    have ordered : rf.lastSnapshotIncludeIndex.toNat ≤ rf.commitIndex.toNat := by
      have := node.compacted
      omega
    exact node.committed.of_isPrefix (List.take_prefix_take_left ordered)
  indexed := node.view.indexed.of_isPrefix (List.take_prefix _ _)
  index := by
    have nonneg := node.view.snapshotNonneg
    have bound := node.view.snapshotBound
    rw [List.length_take]
    simp only [Raft.snapshotArgs]
    omega
  term := node.view.snapshotTerm

theorem NodeRel.adoptTerm (reachable : Reachable h) (node : NodeRel h v rf) {t : Int}
    (later : rf.currentTerm < t) : ∃ h', Follows h h' v (rf.adoptTerm t) := by
  obtain ⟨h', follows, _⟩ := node.meetTerm reachable later.le
  rw [Raft.meetTerm, if_pos later] at follows
  exact ⟨h', follows⟩

/-- The answer to a snapshot. -/
theorem NodeRel.leaderSendSnapShot (reachable : Reachable h) (node : NodeRel h v rf)
    (server : Fin n) (args : InstallSnapshotRequest) (reply : InstallSnapshotResponse) :
    ∃ h', Follows h h' v (rf.leaderSendSnapShot server args reply) := by
  rcases rf.leaderSendSnapShot_cases server args reply with ⟨later, adopted⟩ | ⟨_, _, moved⟩
  · rw [adopted]
    obtain ⟨h', follows⟩ := node.adoptTerm reachable later
    exact ⟨h', follows.mapNode follows.node.persist⟩
  · rw [moved]
    exact ⟨h, .refl (node.congr rfl rfl rfl rfl rfl rfl id)⟩

/-! ## The leader -/

/-- A leader appends the entry of a command. -/
theorem NodeRel.startConses (reachable : Reachable h) (node : NodeRel h v rf)
    (leads : rf.status = .leader) (command : Bytes) :
    Steps v h (h.propose v (rf.newLogEntry command)) ∧
      NodeRel (h.propose v (rf.newLogEntry command)) v
        { rf with logs := rf.logs ++ [rf.newLogEntry command] } := by
  obtain ⟨leader, current⟩ := node.leads leads
  rw [← node.term] at leader current
  have stamp : termOf (rf.newLogEntry command) = h.term v := node.term.symm
  have step : Step h v (h.propose v (rf.newLogEntry command)) :=
    .propose v _ leader current.symm stamp
  have ext := reachable.sound.extends_step step
  refine ⟨step.steps, ?_⟩
  have log : (h.propose v (rf.newLogEntry command)).log v =
      h.log v ++ [rf.newLogEntry command] := by
    simp [History.propose]
  have commitBound := node.bound
  exact
    { term := node.term
      view := by
        rw [log]
        exact node.view.newLogEntry command
      free := node.free
      given := node.given
      leads := by
        intro _
        rw [← node.term]
        simp [History.propose, leader]
      compacted := node.compacted
      bound := by
        rw [log, List.length_append]
        simp only
        omega
      committed := by
        change History.CommittedBy _ rf.currentTerm (List.take rf.commitIndex.toNat _)
        rw [log, List.take_append_of_le_length (by omega)]
        exact node.committed.mono ext le_rfl }

/-- A leader commits up to the end of what a majority has acknowledged with it,
if that ends with an entry of its term. -/
theorem NodeRel.leaderCommit (node : NodeRel h v rf)
    (leads : rf.status = .leader) {m : Nat} (positive : 0 < m) (bounded : m ≤ (h.log v).length)
    (stamp : lastTerm ((h.log v).take m) = rf.currentTerm) {Q : Finset (Fin n)}
    (majority : Majority (insert v Q)) (acks : ∀ w ∈ Q, m ≤ h.acked rf.currentTerm w) :
    ∃ h', Follows h h' v { rf with commitIndex := max rf.commitIndex (m : Int) } := by
  obtain ⟨leader, current⟩ := node.leads leads
  have elected : h.Elected (h.term v) := by
    rw [node.term]
    exact ⟨v, leader⟩
  have step : Step h v (h.accept v m (h.log v)) :=
    .acknowledge v m elected (by rw [node.term, current]; exact bounded)
      (by rw [node.term, current]; exact List.take_prefix m _)
  have ext := extends_accept h v m (h.log v)
  have log : (h.accept v m (h.log v)).log v = h.log v := by simp [History.accept]
  have node' : NodeRel (h.accept v m (h.log v)) v rf :=
    { term := node.term
      view := log.symm ▸ node.view
      free := node.free
      given := node.given
      leads := by
        intro _
        rw [log]
        exact ⟨leader, current⟩
      compacted := node.compacted
      bound := log.symm ▸ node.bound
      committed := by
        rw [log]
        exact node.committed.mono ext le_rfl }
  have takeLength : ((h.log v).take m).length = m := by simp [bounded]
  have committed : (h.accept v m (h.log v)).Committed rf.currentTerm ((h.log v).take m) :=
    { stamped :=
        { elected := ⟨v, leader⟩
          isPrefix := by
            change _ <+: h.leaderLog rf.currentTerm
            rw [current]
            exact List.take_prefix m _
          nonempty := List.ne_nil_of_length_pos (by omega)
          lastTerm_eq := stamp }
      quorum := by
        refine ⟨insert v Q, majority, ?_⟩
        intro w member
        rw [takeLength]
        rcases Finset.mem_insert.mp member with rfl | other
        · simp [History.accept, node.term]
        · exact (acks w other).trans (ext.acked _ w) }
  refine ⟨_, step.steps, node'.commit m (by rw [log]; omega) ?_, rfl, rfl⟩
  rw [log, Int.toNat_natCast]
  exact Or.inr ⟨_, le_rfl, _, committed, List.prefix_rfl⟩

end CppRaft.Protocol
