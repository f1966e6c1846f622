import CppRaft.Protocol.Reign

/-!
# Every command can be applied everywhere

As long as a majority of the processes runs and one of them does not lead, any
command can be replicated: a new leader brings the running followers to its own
log, proposes the command, commits it with one round of heartbeats, and spreads
the commit index, after which every running server applies the command.
-/

namespace CppRaft.RaftCore.Raft

open CppRaft.Store

variable {n : Nat} {rf rf' : Raft n}

/-- The end of the log is held. -/
theorem holds_last (rf : Raft n) :
    rf.Holds rf.getLastLogIndexAndTerm.1 rf.getLastLogIndexAndTerm.2 := by
  rcases rf.getLastLogIndexAndTerm_cases with ⟨_, same⟩ | ⟨entry, member, same⟩
  · rw [same]
    exact Or.inr ⟨rfl, rfl⟩
  · rw [same]
    exact Or.inl ⟨entry, member, rfl, rfl⟩

/-- `getApplyLogs` emits every entry that is committed and not yet applied. -/
theorem getApplyLogs_complete {applyMsgs : List ApplyMsg} (placed : rf.Placed)
    (collected : rf.getApplyLogs = .ok (rf', applyMsgs)) {entry : LogEntry}
    (member : entry ∈ rf.logs) (unapplied : rf.lastApplied < entry.logIndex)
    (committed : entry.logIndex ≤ rf.commitIndex) :
    { commandValid := true, command := entry.command, commandIndex := entry.logIndex } ∈
      applyMsgs := by
  simp only [getApplyLogs, bind_eq_ok] at collected
  obtain ⟨_, _, applied⟩ := collected
  obtain ⟨length, _, emits⟩ := applyLoop_emits applied
  have inside : (entry.logIndex - rf.lastApplied - 1).toNat < applyMsgs.length := by omega
  obtain ⟨other, found, same⟩ := emits _ _ (List.getElem?_eq_getElem inside)
  have position : rf.lastApplied + (entry.logIndex - rf.lastApplied - 1).toNat + 1 =
      entry.logIndex := by omega
  rw [position] at found same
  obtain ⟨member', index⟩ := placed.mem_of_logAtIndex found
  rw [placed.logs.eq_of_index member' member index] at same
  rw [← same]
  exact List.getElem_mem inside

/-- The new entry is the end of the leader's log. -/
theorem startConses_last (leads : rf.status = .leader) (command : Bytes) :
    rf.newLogEntry command ∈ (rf.startConses command).1.logs ∧
      (rf.startConses command).1.getLastLogIndexAndTerm =
        ((rf.newLogEntry command).logIndex, (rf.newLogEntry command).logTerm) := by
  rcases rf.startConses_cases command with ⟨follows, _⟩ | ⟨_, appended⟩
  · exact absurd leads follows
  · rw [appended]
    refine ⟨List.mem_append_right _ (List.mem_singleton_self _), ?_⟩
    unfold getLastLogIndexAndTerm persist
    simp only [List.getLast?_concat]

/-- A leader that is level with a follower sends it a new entry right behind
what the follower holds. -/
theorem startConses_request {follower : Raft n} {server : Fin n} (placed : rf.Placed)
    (leads : rf.status = .leader) (level : rf.Level server follower) (command : Bytes) :
    ∃ args, (rf.startConses command).1.heartBeatTo server = .ok (.appendEntries args) ∧
      args.entries.getLast?.map LogEntry.logTerm = some rf.currentTerm ∧
      follower.Holds args.prevLogIndex args.prevLogTerm := by
  have placed' := (startConses_placed placed command).1
  have final := (startConses_last leads command).2
  rcases rf.startConses_cases command with ⟨follows, _⟩ | ⟨_, appended⟩
  · exact absurd leads follows
  rw [appended] at placed' final ⊢
  obtain ⟨leader, same⟩ : ∃ leader : Raft n,
      leader = { rf with logs := rf.logs ++ [rf.newLogEntry command] }.persist := ⟨_, rfl⟩
  rw [← same] at placed' final ⊢
  dsimp only at placed' final ⊢
  have next : leader.nextIndex server = rf.getLastLogIndex + 1 := by
    rw [same]
    exact level.1
  have base : leader.lastSnapshotIncludeIndex = rf.lastSnapshotIncludeIndex := by
    rw [same]
    rfl
  have last : leader.getLastLogIndex = rf.getLastLogIndex + 1 := congrArg Prod.fst final
  have length := placed.getLastLogIndex
  have nonneg := placed.base
  have builds : Succeeds (leader.heartBeatTo server) :=
    heartBeatTo_succeeds placed' (by omega) (by omega)
  obtain ⟨outgoing, built⟩ := builds
  cases outgoing with
  | snapshot =>
      have behind := (heartBeatTo_snapshot_iff built).mp rfl
      omega
  | appendEntries args =>
      have offers := offers_of_heartBeatTo placed' built
      obtain ⟨_, _, _, _, previous, _⟩ := heartBeatTo_built placed' built
      have start := (getPrevLogInfo_cases placed' previous).1
      have known := getLogTermFromLogIndex_of_previous placed' previous
      have endIndex := offers.endIndex
      unfold AppendEntriesArgs.endIndex at endIndex
      refine ⟨args, built, ?_, ?_⟩
      · obtain ⟨entry, single⟩ : ∃ entry, args.entries = [entry] :=
          List.length_eq_one_iff.mp (by omega)
        have term := congrArg Prod.snd (offers.ends.trans final)
        unfold AppendEntriesArgs.endTerm at term
        rw [single] at term ⊢
        exact congrArg some term
      · -- Both nodes hold the old end of the log, and the leader knows its term.
        have held : leader.Holds rf.getLastLogIndexAndTerm.1 rf.getLastLogIndexAndTerm.2 := by
          rw [same]
          rcases rf.holds_last with ⟨entry, member, index, term⟩ | snapshot
          · exact Or.inl ⟨entry, List.mem_append_left _ member, index, term⟩
          · exact Or.inr snapshot
        have known' := placed'.getLogTermFromLogIndex_of_holds held
        have index : args.prevLogIndex = rf.getLastLogIndexAndTerm.1 := by
          rw [start, next, Int.add_sub_cancel]
          rfl
        rw [index, known', Except.ok.injEq] at known
        rw [index, ← known]
        exact level.2

end CppRaft.RaftCore.Raft

namespace CppRaft.Protocol

open CppRaft.Consensus
open CppRaft.RaftCore
open CppRaft.Store
open CppRaft.Transition

variable {n : Nat}

namespace Cluster

variable {s s' : Cluster n} {i v : Fin n} {m : Int} {events : List (Event n)}

/-! ## A new leader -/

/-- The log of a leader contains what any node of its term has committed. -/
theorem committed_leader (run : ClusterRun CutsConflicts events s)
    (leads : (s.nodes i).status = .leader)
    (term : (s.nodes v).currentTerm ≤ (s.nodes i).currentTerm) :
    (s.nodes v).commitIndex ≤ (s.nodes i).getLastLogIndex ∧
      ∀ known, (s.nodes i).Holds (s.nodes v).lastSnapshotIncludeIndex known →
        (s.nodes v).lastSnapshotIncludeTerm = known := by
  obtain ⟨h, counted, sim⟩ := simulates_of_run run
  have bounded := bounded_of_run run
  have leader := sim.node i
  have node := sim.node v
  obtain ⟨elected, log⟩ := leader.leads leads
  have contained := sim.reachable.sound.committedBy_prefix_leaderLog
    (node.committed.mono (.refl h) term) ⟨i, elected⟩
  rw [log] at contained
  have bound := node.bound
  have compacted := node.compacted
  have nonneg := node.view.snapshotNonneg
  have length := contained.length_le
  rw [List.length_take] at length
  have last := leader.view.getLastLogIndex
  refine ⟨by omega, fun known holds => ?_⟩
  obtain ⟨_, _, same⟩ := leader.view.getLogTermFromLogIndex
    ((bounded.placed i).getLogTermFromLogIndex_of_holds holds)
  rw [same, node.view.snapshotTerm]
  obtain ⟨rest, split⟩ := contained
  rw [← split, List.take_append_of_le_length (by rw [List.length_take]; omega), List.take_take,
    min_eq_left (by omega)]

theorem reign_of_newLeader (run : ClusterRun CutsConflicts events s) (leader : s.NewLeader i) :
    Reign i (s.nodes i).getLastLogIndex s := by
  have bounded := bounded_of_run run
  obtain ⟨h, counted, sim⟩ := simulates_of_run run
  have behind : ∀ v, (s.nodes v).lastApplied ≤ (s.nodes i).getLastLogIndex ∧
      (s.nodes v).lastSnapshotIncludeIndex ≤ (s.nodes i).getLastLogIndex := by
    intro v
    have committed := (committed_leader run leader.leads (leader.highest v)).1
    have placed := bounded.placed v
    have applied := placed.applied
    exact ⟨placed.committed.trans committed, applied.trans (placed.committed.trans committed)⟩
  exact
    { run := ⟨events, run.mono fun _ _ _ => trivial⟩
      alive := leader.alive
      leads := leader.leads
      positive := by
        have elected := (sim.node i).leads leader.leads
        exact (sim.reachable.sound.elected_pos ⟨i, elected.1⟩).le
      serves := by
        intro v _ _
        have covered := (behind v).2
        refine ⟨leader.highest v, covered,
          (committed_leader run leader.leads (leader.highest v)).2, fun below => ?_⟩
        rw [leader.next v] at below
        omega
      snapshot := (behind i).2
      unapplied := fun v _ => (behind v).1 }

/-! ## A round of heartbeats -/

theorem step_startConses (alive : s.exited i = none) (command : Bytes) :
    s.step (.startConses i command) =
      some (s.setNode i ((s.nodes i).startConses command).1, []) := by
  simp only [step, alive, if_true]

theorem Reign.startConses (reign : Reign i m s) (command : Bytes) :
    Reign i m (s.setNode i ((s.nodes i).startConses command).1) := by
  obtain ⟨events, run⟩ := reign.run
  have placed := (bounded_of_run run).placed i
  have reached : CanReach step anyStep s (s.setNode i ((s.nodes i).startConses command).1) :=
    CanReach.of_step trivial (step_startConses reign.alive command)
  have serves : ∀ v, s.exited v = none → v ≠ i →
      ((s.nodes i).startConses command).1.Serves v (s.nodes v) :=
    fun v alive apart => (reign.serves v alive apart).startConses placed command
  rcases (s.nodes i).startConses_cases command with ⟨follows, _⟩ | ⟨leads, appended⟩
  · exact absurd reign.leads follows
  · rw [appended] at reached serves ⊢
    exact
      { run := exists_clusterRun run reached
        alive := reign.alive
        leads := by
          rw [setNode_nodes_self]
          exact leads
        positive := by
          rw [setNode_nodes_self]
          exact reign.positive
        serves := by
          intro v alive apart
          rw [setNode_nodes_self, setNode_nodes_ne _ _ apart]
          exact serves v alive apart
        snapshot := by
          rw [setNode_nodes_self]
          exact reign.snapshot
        unapplied := by
          intro v alive
          by_cases here : v = i
          · rw [here, setNode_nodes_self]
            exact reign.unapplied i reign.alive
          · rw [setNode_nodes_ne _ _ here]
            exact reign.unapplied v alive }

/-- Node `i` has sent its last entry in a round with counter `a`, to followers
that hold the entry before it.  The followers in `waiting` have not taken it,
and with them there is a majority. -/
structure Round (i : Fin n) (m : Int) (a : Nat) (waiting : Finset (Fin n)) (s : Cluster n) :
    Prop where
  reign : Reign i m s
  successes : ∃ successes : Nat, s.appendNums[a]? = some (successes : Int) ∧
    successes ≤ n / 2 ∧ n / 2 + 1 ≤ successes + waiting.card
  asked : ∀ v ∈ waiting, v ≠ i ∧ s.exited v = none ∧ ∃ args k, (s.nodes i).Offers args ∧
    args.entries.getLast?.map LogEntry.logTerm = some (s.nodes i).currentTerm ∧
    (s.nodes v).Holds args.prevLogIndex args.prevLogTerm ∧
    s.calls[k]? = some ⟨i, v, .appendEntries args a⟩ ∧ k ∉ s.finished

variable {a : Nat} {waiting : Finset (Fin n)}

/-- A follower takes the entry, and the leader counts it. -/
theorem Round.count (round : Round i m a waiting s) (member : v ∈ waiting) :
    ∃ s', Served i m s s' ∧ ((s'.nodes i).getLastLogIndex ≤ (s'.nodes i).commitIndex ∨
      Round i m a (waiting.erase v) s') := by
  have reign := round.reign
  obtain ⟨successes, counter, short, enough⟩ := round.successes
  obtain ⟨apart, alive, args, k, offers, stamped, holds, found, pending⟩ := round.asked v member
  obtain ⟨events, run⟩ := reign.run
  obtain ⟨moments, trace⟩ := run.exists_trace
  have sound := sound_of_trace trace
  have placed := sound.bounded.placed v
  have placed' := sound.bounded.placed i
  have matched := (sound.bounded.tracked reign.leads v).2.2
  have serves := reign.serves v alive apart
  have notOutdated : (s.nodes v).currentTerm ≤ args.term := serves.terms.trans offers.term.ge
  have agrees := sound.identified.agrees sound.now (List.mem_of_getElem? found) rfl v
  obtain ⟨⟨follower, reply⟩, handled⟩ := Raft.appendEntries1_succeeds placed offers.numbered
    agrees (Or.inr (placed.holds_range holds).1)
  have success := Raft.appendEntries1_success placed notOutdated holds handled
  have processes : Succeeds ((s.nodes i).sendAppendEntries v args reply successes) :=
    Raft.sendAppendEntries_succeeds placed' offers.endIndex.le (fun _ => matched) reply successes
  obtain ⟨⟨leader, appendNums⟩, processed⟩ := processes
  obtain ⟨goesOn, _, applied⟩ :=
    offers.exchanged reign.leads placed serves.terms handled processed
  have serves' :=
    (offers.accepted reign.leads placed serves matched handled processed success).1
  obtain ⟨s', exchanged, calls, finished, appendNums'⟩ :=
    exists_appended found pending apart reign.alive alive counter handled processed
  have served := reign.exchanged apart exchanged goesOn serves'
    (applied.le.trans (reign.unapplied v alive))
  refine ⟨s', served.toServed, ?_⟩
  obtain ⟨connected, replyTerm, _⟩ := Raft.appendEntries1_refusal placed notOutdated handled
  have connected' : reply.appState ≠ Disconnected := by
    rw [connected]
    decide
  by_cases complete : n / 2 ≤ successes
  · left
    have raised := Raft.sendAppendEntries_success reign.leads connected'
      (replyTerm.trans offers.term) success processed
    rw [served.leadsOn.getLastLogIndex, exchanged.leader, raised, ← offers.endIndex]
    simp only
    rw [if_pos ⟨by omega, stamped⟩]
    exact le_max_right _ _
  · right
    have next := Raft.sendAppendEntries_counted reign.leads connected'
      (replyTerm.trans offers.term) success (by omega) processed
    exact
      { reign := served.reign
        successes := by
          have inside : a < s.appendNums.length := (List.getElem?_eq_some_iff.mp counter).1
          refine ⟨successes + 1, ?_, by omega, ?_⟩
          · rw [appendNums', List.getElem?_set_self inside, next]
            rfl
          · rw [Finset.card_erase_of_mem member]
            omega
        asked := by
          intro w later
          obtain ⟨here, later⟩ := Finset.mem_erase.mp later
          obtain ⟨apart', alive', args', k', offers', stamped', holds', found', pending'⟩ :=
            round.asked w later
          refine ⟨apart', served.exited ▸ alive', args', k', served.leadsOn.offers offers', ?_⟩
          rw [served.leadsOn.term, exchanged.others w apart' here, calls, finished]
          refine ⟨stamped', holds', found', ?_⟩
          rw [List.mem_cons, not_or]
          refine ⟨?_, pending'⟩
          rintro rfl
          rw [found] at found'
          cases found'
          exact here rfl }

/-- The followers that are left complete the round. -/
theorem Round.exists_committed (round : Round i m a waiting s) :
    ∃ s', Served i m s s' ∧ (s'.nodes i).getLastLogIndex ≤ (s'.nodes i).commitIndex := by
  have closer : ∀ waiting s₁, (Served i m s s₁ ∧ Round i m a waiting s₁) →
      ∃ s₂, CanReach step anyStep s₁ s₂ ∧
        ((Served i m s s₂ ∧ (s₂.nodes i).getLastLogIndex ≤ (s₂.nodes i).commitIndex) ∨
          ∃ waiting', (Served i m s s₂ ∧ Round i m a waiting' s₂) ∧
            waiting'.card < waiting.card) := by
    rintro waiting s₁ ⟨served, round⟩
    obtain ⟨successes, _, short, enough⟩ := round.successes
    obtain ⟨v, member⟩ := Finset.card_pos.mp (show 0 < waiting.card by omega)
    obtain ⟨s₂, later, committed | round'⟩ := round.count member
    · exact ⟨s₂, later.reached, Or.inl ⟨served.trans later, committed⟩⟩
    · exact ⟨s₂, later.reached, Or.inr ⟨waiting.erase v, ⟨served.trans later, round'⟩,
        Finset.card_erase_lt_of_mem member⟩⟩
  obtain ⟨s', _, served⟩ :=
    exists_canReach_of_rank _ Finset.card closer ⟨.refl round.reign, round⟩
  exact ⟨s', served⟩

/-- A leader that is level with its followers proposes a command and sends it. -/
theorem Reign.exists_round (reign : Reign i m s) (several : 1 < n) (majority : Majority s.running)
    (level : ∀ v ∈ s.running.erase i, (s.nodes i).Level v (s.nodes v)) (command : Bytes) :
    ∃ s' a, CanReach step anyStep s s' ∧ s'.exited = s.exited ∧
      s'.nodes i = ((s.nodes i).startConses command).1 ∧
      Round i m a (s.running.erase i) s' := by
  obtain ⟨events, run⟩ := reign.run
  have placed := (bounded_of_run run).placed i
  have reign₁ := reign.startConses command
  obtain ⟨s₁, same⟩ : ∃ s₁, s₁ = s.setNode i ((s.nodes i).startConses command).1 := ⟨_, rfl⟩
  rw [← same] at reign₁
  have leader : s₁.nodes i = ((s.nodes i).startConses command).1 := by
    rw [same, setNode_nodes_self]
  have others : ∀ v, v ≠ i → s₁.nodes v = s.nodes v := by
    intro v apart
    rw [same, setNode_nodes_ne _ _ apart]
  have exited : s₁.exited = s.exited := by
    rw [same]
    rfl
  obtain ⟨events₁, run₁⟩ := reign₁.run
  obtain ⟨counted, election⟩ := election_of_run run₁
  have passes := (bounded_of_run run₁).beats reign₁.leads
  have proposed : CanReach step anyStep s s₁ := by
    rw [same]
    exact CanReach.of_step trivial (step_startConses reign.alive command)
  have beaten : CanReach step anyStep s₁ (s₁.beat i) :=
    CanReach.of_step trivial (step_doHeartBeat reign₁.alive reign₁.leads passes)
  refine ⟨s₁.beat i, s₁.appendNums.length, proposed.trans beaten, exited, leader, ?_⟩
  exact
    { reign := { reign₁ with run := exists_clusterRun run₁ beaten }
      successes := by
        unfold Majority at majority
        rw [Fintype.card_fin] at majority
        refine ⟨1, List.getElem?_concat_length, by omega, ?_⟩
        rw [Finset.card_erase_of_mem (mem_running.mpr reign.alive)]
        omega
      asked := by
        intro v member
        obtain ⟨apart, running⟩ := Finset.mem_erase.mp member
        have alive := mem_running.mp running
        obtain ⟨args, built, stamped, holds⟩ :=
          Raft.startConses_request placed reign.leads (level v member) command
        rw [← leader] at built
        have offers := Raft.offers_of_heartBeatTo ((bounded_of_run run₁).placed i) built
        obtain ⟨k, later, found⟩ :=
          exists_beat_call (election.me i) reign₁.leads passes apart built
        have term : (s₁.nodes i).currentTerm = (s.nodes i).currentTerm := by
          rw [leader]
          rcases (s.nodes i).startConses_cases command with ⟨_, idle⟩ | ⟨_, appended⟩
          · rw [idle]
          · rw [appended]
            rfl
        refine ⟨apart, exited ▸ alive, args, k, offers, ?_, ?_, found, ?_⟩
        · exact stamped.trans (congrArg some term.symm)
        · change (s₁.nodes v).Holds _ _
          rw [others v apart]
          exact holds
        · intro finished
          exact absurd (finished_of_run run₁ k finished) (Nat.not_lt.mpr later) }

/-! ## Application -/

/-- Node `v` runs and is about to apply an entry. -/
structure Applicable (entry : LogEntry) (v : Fin n) (s : Cluster n) : Prop where
  alive : s.exited v = none
  member : entry ∈ (s.nodes v).logs
  unapplied : (s.nodes v).lastApplied < entry.logIndex
  committed : entry.logIndex ≤ (s.nodes v).commitIndex

/-- The message that applies an entry. -/
def applies (entry : LogEntry) : ApplyMsg :=
  { commandValid := true, command := entry.command, commandIndex := entry.logIndex }

/-- Servers that are about to apply an entry apply it. -/
theorem exists_applied {guard : Cluster n → Action n → Prop} (run : ClusterRun guard events s)
    {entry : LogEntry} (servers : Finset (Fin n))
    (applicable : ∀ v ∈ servers, Applicable entry v s) :
    ∃ more s', Run step anyStep s more s' ∧ s'.exited = s.exited ∧
      (∀ w, w ∉ servers → s'.nodes w = s.nodes w) ∧
      ∀ v ∈ servers, Event.emitted v (applies entry) ∈ more := by
  induction servers using Finset.induction_on with
  | empty => exact ⟨[], s, Run.nil, rfl, fun _ _ => rfl, by simp⟩
  | insert v rest fresh ih =>
      obtain ⟨more, s₁, later, exited, others, applied⟩ :=
        ih fun w member => applicable w (Finset.mem_insert_of_mem member)
      have here := applicable v (Finset.mem_insert_self v rest)
      have same := others v fresh
      have placed := (bounded_of_run run).placed v
      obtain ⟨⟨rf, applyMsgs⟩, collected⟩ := Raft.getApplyLogs_succeeds placed
      have emitted := Raft.getApplyLogs_complete placed collected here.member here.unapplied
        here.committed
      have taken : s₁.step (.getApplyLogs v) =
          some (s₁.setNode v rf, applyMsgs.map (Event.emitted v)) := by
        simp only [step, exited, here.alive, if_true, getApplyLogs, same, collected]
      refine ⟨_, _, later.snoc trivial taken, exited, ?_, ?_⟩
      · intro w outside
        rw [Finset.mem_insert, not_or] at outside
        rw [setNode_nodes_ne _ _ outside.1, others w outside.2]
      · intro w member
        rcases Finset.mem_insert.mp member with rfl | before
        · exact List.mem_append_right _ (List.mem_map_of_mem emitted)
        · exact List.mem_append_left _ (applied w before)

/-- A running node that is level with the leader is about to apply the last
entry of the leader, if the entry is committed. -/
theorem Reign.applicable (reign : Reign i m s) {entry : LogEntry}
    (member : entry ∈ (s.nodes i).logs) (index : entry.logIndex = m + 1)
    (last : (s.nodes i).getLastLogIndexAndTerm = (entry.logIndex, entry.logTerm))
    (alive : s.exited v = none) (level : (s.nodes i).Level v (s.nodes v))
    (committed : entry.logIndex ≤ (s.nodes v).commitIndex) : Applicable entry v s := by
  obtain ⟨events, run⟩ := reign.run
  have placed := (bounded_of_run run).placed v
  have unapplied := reign.unapplied v alive
  have compacted := placed.applied
  refine ⟨alive, ?_, by omega, committed⟩
  obtain ⟨_, holds⟩ := level
  rw [last] at holds
  rcases holds with ⟨entry', member', sameIndex, sameTerm⟩ | ⟨snapshot, _⟩
  · rw [eq_of_index_of_term run member member' sameIndex.symm sameTerm.symm]
    exact member'
  · simp only at snapshot
    omega

/-- A leader can bring any command to the point where all running nodes are
about to apply it. -/
theorem Reign.exists_applicable (reign : Reign i (s.nodes i).getLastLogIndex s) (several : 1 < n)
    (majority : Majority s.running) (command : Bytes) :
    ∃ s' entry, CanReach step anyStep s s' ∧ s'.exited = s.exited ∧ entry.command = command ∧
      entry.logIndex = (s.nodes i).getLastLogIndex + 1 ∧
      ∀ v, s.exited v = none → Applicable entry v s' := by
  have followers : ∀ v ∈ s.running.erase i, s.exited v = none ∧ v ≠ i := by
    intro v member
    obtain ⟨apart, running⟩ := Finset.mem_erase.mp member
    exact ⟨mem_running.mp running, apart⟩
  obtain ⟨s₁, served₁, level₁⟩ := reign.exists_allLevel le_rfl _ followers
  have sameRunning : s₁.running = s.running := by
    unfold running
    rw [served₁.exited]
  rw [← sameRunning] at majority level₁
  obtain ⟨s₂, a, reached₂, exited₂, proposed, round⟩ := served₁.reign.exists_round several majority
    (fun v member => (level₁ v member).1) command
  obtain ⟨member, final⟩ := Raft.startConses_last served₁.reign.leads command
  rw [← proposed] at member final
  obtain ⟨s₃, served₃, committed⟩ := round.exists_committed
  have exited₃ : s₃.exited = s.exited :=
    served₃.exited.trans (exited₂.trans served₁.exited)
  obtain ⟨s₄, served₄, level₄⟩ := served₃.reign.exists_allLevel committed (s.running.erase i)
    (fun v inside => exited₃.symm ▸ followers v inside)
  have leadsOn := served₃.leadsOn.trans served₄.leadsOn
  obtain ⟨entry, same⟩ : ∃ entry, entry = (s₁.nodes i).newLogEntry command := ⟨_, rfl⟩
  have index : entry.logIndex = (s.nodes i).getLastLogIndex + 1 := by
    rw [same, ← served₁.leadsOn.getLastLogIndex]
    rfl
  rw [← same] at member final
  rw [← leadsOn.logs] at member
  have last := leadsOn.lastLogIndexAndTerm.trans final
  have lastIndex : (s₃.nodes i).getLastLogIndex = entry.logIndex :=
    congrArg Prod.fst (served₃.leadsOn.lastLogIndexAndTerm.trans final)
  have exited₄ : s₄.exited = s.exited := served₄.exited.trans exited₃
  refine ⟨s₄, entry, ((served₁.reached.trans reached₂).trans served₃.reached).trans served₄.reached,
    exited₄, by rw [same]; rfl, index, fun v alive => ?_⟩
  by_cases here : v = i
  · subst here
    have unapplied := served₄.reign.unapplied v served₄.reign.alive
    have raised := served₄.leadsOn.committed
    exact ⟨served₄.reign.alive, member, by omega, by omega⟩
  · obtain ⟨level, raised⟩ := level₄ v (Finset.mem_erase.mpr ⟨here, mem_running.mpr alive⟩)
    exact served₄.reign.applicable member index last (exited₄.symm ▸ alive) level
      (lastIndex ▸ raised)

end Cluster

/-! ## Result -/

/-- After every run that cuts conflicts, if a majority of the processes runs and
one of them does not lead, some more steps commit any command at an index above
all commit indexes, and every running server applies it there. -/
theorem available {n : Nat} {events : List (Event n)} {s : Cluster n}
    (run : ClusterRun CutsConflicts events s) (several : 1 < n) (majority : Majority s.running)
    {j : Fin n} (alive : s.exited j = none) (follows : (s.nodes j).status ≠ .leader)
    (command : Bytes) :
    ∃ (more : List (Event n)) (s' : Cluster n) (index : Int),
      Run Cluster.step anyStep s more s' ∧ s'.exited = s.exited ∧
      (∀ v, (s.nodes v).commitIndex < index) ∧
      ∀ v, s.exited v = none → Event.emitted v
        { commandValid := true, command := command, commandIndex := index } ∈ more := by
  obtain ⟨i, t, reached, keeps, leader, _⟩ :=
    Cluster.exists_elected run several majority alive follows
  obtain ⟨events', run'⟩ := Cluster.exists_clusterRun run reached
  have reign := Cluster.reign_of_newLeader run' leader
  rw [← keeps.running] at majority
  obtain ⟨s₁, entry, reached₁, exited₁, rfl, index, applicable⟩ :=
    reign.exists_applicable several majority command
  rw [keeps.exited] at exited₁ applicable
  have together := (reached.mono fun _ _ _ => trivial).trans reached₁
  obtain ⟨events₁, run₁⟩ :=
    Cluster.exists_clusterRun (run.mono fun _ _ _ => trivial) together
  obtain ⟨before, later⟩ := together
  obtain ⟨more, s', last, exited', _, applied⟩ := Cluster.exists_applied run₁ s.running
    fun v running => applicable v (Cluster.mem_running.mp running)
  refine ⟨before ++ more, s', entry.logIndex, later.append last, exited'.trans exited₁, ?_, ?_⟩
  · intro v
    have behind := (Cluster.committed_leader run' leader.leads (leader.highest v)).1
    rw [(keeps.nodes v).committed] at behind
    omega
  · intro v running
    exact List.mem_append_right _ (applied v (Cluster.mem_running.mpr running))

/-- The process of node 1 has ended with commit index 1; nodes 0 and 2 go on. -/
theorem available_twoOfThree :
    ∃ (events : List (Event 3)) (s : Cluster 3), ClusterRun CutsConflicts events s ∧
      s.exited 1 = some .matchOutOfRange ∧
      ∃ (more : List (Event 3)) (s' : Cluster 3) (index : Int),
        Run Cluster.step anyStep s more s' ∧ 1 < index ∧
        (∀ v, v = 0 ∨ v = 2 → Event.emitted v
          { commandValid := true, command := [98], commandIndex := index } ∈ more) := by
  obtain ⟨events, s, run, checked⟩ := exists_run_of_exec Cluster.step CutsConflicts
    (Cluster.start 3) (compactedOnce 0 1 ++ [.handle 2])
    (fun result => decide (result.1.exited 1 = some .matchOutOfRange ∧
      (result.1.nodes 1).commitIndex = 1 ∧ Fintype.card (Fin 3) < 2 * result.1.running.card ∧
      result.1.exited 0 = none ∧ result.1.exited 2 = none ∧
      (result.1.nodes 2).status ≠ .leader))
    (by decide +kernel)
  obtain ⟨ended, committed, majority, alive, alive', follows⟩ := of_decide_eq_true checked
  obtain ⟨more, s', index, later, _, above, applied⟩ :=
    available run (by decide) majority alive' follows [98]
  refine ⟨events, s, run, ended, more, s', index, later, committed ▸ above 1, ?_⟩
  rintro v (rfl | rfl)
  · exact applied 0 alive
  · exact applied 2 alive'

end CppRaft.Protocol
