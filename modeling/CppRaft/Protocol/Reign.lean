import CppRaft.Protocol.Electable
import CppRaft.RaftCore.CatchUp

/-!
# The reign of a leader

A leader that no running node contradicts brings every running follower to its
own log: one exchange after the other, each delivered and answered, until the
follower accepts.
-/

namespace CppRaft.RaftCore.Raft

variable {n : Nat} {rf : Raft n}

theorem heartBeats_complete {servers : List (Fin n)} {server : Fin n} {outgoing : Outgoing}
    (passes : (rf.heartBeats servers).2 = none) (inside : server ∈ servers)
    (built : rf.heartBeatTo server = .ok outgoing) :
    (server, outgoing) ∈ (rf.heartBeats servers).1 := by
  induction servers with
  | nil => cases inside
  | cons first rest ih =>
      unfold heartBeats at passes ⊢
      split at passes
      · cases passes
      · rename_i sent
        rcases List.mem_cons.mp inside with rfl | later
        · rw [built, Except.ok.injEq] at sent
          rw [sent]
          exact List.mem_cons_self
        · exact List.mem_cons_of_mem _ (ih passes later)

end CppRaft.RaftCore.Raft

namespace CppRaft.Protocol

open CppRaft.Consensus
open CppRaft.RaftCore
open CppRaft.Store
open CppRaft.Transition

variable {n : Nat}

namespace Cluster

variable {s s' : Cluster n} {i v : Fin n}

/-! ## One round of heartbeats -/

theorem step_doHeartBeat (alive : s.exited i = none) (leads : (s.nodes i).status = .leader)
    (passes : (s.nodes i).doHeartBeat.2 = none) :
    s.step (.doHeartBeat i) = some (s.beat i, []) := by
  simp only [step, alive, if_true, doHeartBeat, leads, passes]
  rfl

/-- What a round starts for a peer. -/
theorem mem_beat (me : (s.nodes i).me = i) (leads : (s.nodes i).status = .leader)
    (passes : (s.nodes i).doHeartBeat.2 = none) (other : v ≠ i) {outgoing : Raft.Outgoing}
    (built : (s.nodes i).heartBeatTo v = .ok outgoing) :
    (v, outgoing) ∈ (s.nodes i).doHeartBeat.1 := by
  simp only [Raft.doHeartBeat, leads, if_true] at passes ⊢
  apply Raft.heartBeats_complete passes _ built
  rw [mem_peers, me]
  exact other

theorem exists_beat_call (me : (s.nodes i).me = i) (leads : (s.nodes i).status = .leader)
    (passes : (s.nodes i).doHeartBeat.2 = none) (other : v ≠ i) {args : AppendEntriesArgs}
    (built : (s.nodes i).heartBeatTo v = .ok (.appendEntries args)) :
    ∃ k, s.calls.length ≤ k ∧
      (s.beat i).calls[k]? = some ⟨i, v, .appendEntries args s.appendNums.length⟩ := by
  have started : (⟨i, v, .appendEntries args s.appendNums.length⟩ : RpcCall n) ∈
      startedCalls i s.appendNums.length (s.nodes i).doHeartBeat.1 :=
    List.mem_filterMap.mpr ⟨_, mem_beat me leads passes other built, rfl⟩
  obtain ⟨position, found⟩ := List.getElem?_of_mem started
  refine ⟨s.calls.length + position, Nat.le_add_right _ _, ?_⟩
  change (s.calls ++ _)[_]? = _
  rw [List.getElem?_append_right (Nat.le_add_right _ _), Nat.add_sub_cancel_left, found]

theorem exists_beat_thread (me : (s.nodes i).me = i) (leads : (s.nodes i).status = .leader)
    (passes : (s.nodes i).doHeartBeat.2 = none) (other : v ≠ i)
    (built : (s.nodes i).heartBeatTo v = .ok .snapshot) :
    ∃ thread : Nat, (s.beat i).snapshotThreads[thread]? = some (i, v, false) := by
  have started : (i, v, false) ∈ startedThreads i (s.nodes i).doHeartBeat.1 :=
    List.mem_filterMap.mpr ⟨_, mem_beat me leads passes other built, rfl⟩
  exact List.getElem?_of_mem (List.mem_append_right _ started)

/-! ## One exchange -/

/-- Nodes `i` and `v` have exchanged a call. -/
structure Exchanged (i v : Fin n) (leader follower : Raft n) (s s' : Cluster n) : Prop where
  reached : CanReach step anyStep s s'
  exited : s'.exited = s.exited
  leader : s'.nodes i = leader
  follower : s'.nodes v = follower
  others : ∀ w, w ≠ i → w ≠ v → s'.nodes w = s.nodes w

/-- A step of the two nodes ends an exchange. -/
theorem Exchanged.of_setNode {leader follower : Raft n} (s₁ : Cluster n) (rf : Raft n)
    (apart : v ≠ i)
    (reached : CanReach step anyStep s s₁) (reached' : CanReach step anyStep s₁ s')
    (exited : s'.exited = s.exited)
    (nodes : s'.nodes = (s₁.setNode i leader).nodes)
    (before : s₁.nodes = ((s.setNode i rf).setNode v follower).nodes) :
    Exchanged i v leader follower s s' where
  reached := reached.trans reached'
  exited := exited
  leader := by
    rw [nodes, setNode_nodes_self]
  follower := by
    rw [nodes, setNode_nodes_ne _ _ apart, before, setNode_nodes_self]
  others := by
    intro w other other'
    rw [nodes, setNode_nodes_ne _ _ other, before, setNode_nodes_ne _ _ other',
      setNode_nodes_ne _ _ other]

theorem handle_appendEntries {k a : Nat} {args : AppendEntriesArgs} {rf : Raft n}
    {reply : AppendEntriesReply} (handled : (s.nodes v).appendEntries1 args = .ok (rf, reply)) :
    s.handle k ⟨i, v, .appendEntries args a⟩ =
      ((s.setNode v rf).addReply k (.appendEntries reply), []) := by
  simp only [handle, handled]

/-- An `AppendEntries` call is handled, and its reply is processed. -/
theorem exists_appended {k a : Nat} {args : AppendEntriesArgs} {leader follower : Raft n}
    {reply : AppendEntriesReply} {appendNums appendNums' : Int}
    (found : s.calls[k]? = some ⟨i, v, .appendEntries args a⟩) (pending : k ∉ s.finished)
    (apart : v ≠ i) (alive : s.exited i = none) (alive' : s.exited v = none)
    (counter : s.appendNums[a]? = some appendNums)
    (handled : (s.nodes v).appendEntries1 args = .ok (follower, reply))
    (processed : (s.nodes i).sendAppendEntries v args reply appendNums =
      .ok (leader, appendNums')) :
    ∃ s', Exchanged i v leader follower s s' ∧ s'.calls = s.calls ∧
      s'.finished = k :: s.finished ∧ s'.appendNums = s.appendNums.set a appendNums' := by
  have answered := step_handle found alive'
  rw [handle_appendEntries handled] at answered
  obtain ⟨s₁, answered, nodes, exited, calls, finished, appendNums₁, found₁⟩ : ∃ s₁ : Cluster n,
      s.step (.handle k) = some (s₁, []) ∧ s₁.nodes = (s.setNode v follower).nodes ∧
        s₁.exited = s.exited ∧ s₁.calls = s.calls ∧ s₁.finished = s.finished ∧
        s₁.appendNums = s.appendNums ∧
        s₁.replies[s.replies.length]? = some (k, .appendEntries reply) :=
    ⟨_, answered, rfl, rfl, rfl, rfl, rfl, List.getElem?_concat_length⟩
  have same : s₁.nodes i = s.nodes i := by
    rw [nodes, setNode_nodes_ne _ _ apart.symm]
  have current : s₁.appendNums.getD a 0 = appendNums := by
    rw [appendNums₁, List.getD_eq_getElem?_getD, counter, Option.getD_some]
  have taken := step_processReply found₁ (calls ▸ found) (exited ▸ alive) (finished ▸ pending)
  simp only [processReply, same, current, processed] at taken
  refine ⟨_, Exchanged.of_setNode s₁ (s.nodes i) apart
    (CanReach.of_step trivial answered) (CanReach.of_step trivial taken) exited rfl ?_, calls,
    congrArg (k :: ·) finished, congrArg (List.set · a appendNums') appendNums₁⟩
  rw [nodes]
  simp [setNode]

theorem handle_installSnapshot {k : Nat} {args : InstallSnapshotRequest} {rf : Raft n}
    {response : InstallSnapshotResponse} {msg : Option ApplyMsg}
    (handled : (s.nodes v).installSnapshot args = .ok (rf, response, msg)) :
    s.handle k ⟨i, v, .installSnapshot args⟩ =
      ((s.setNode v rf).addReply k (.installSnapshot response), []) := by
  simp only [handle, handled]

/-- A `leaderSendSnapShot` thread runs, its call is handled, and the response is
processed. -/
theorem exists_installed {thread : Nat} {follower : Raft n} {response : InstallSnapshotResponse}
    {msg : Option ApplyMsg} (waiting : s.snapshotThreads[thread]? = some (i, v, false))
    (pending : s.calls.length ∉ s.finished) (apart : v ≠ i) (alive : s.exited i = none)
    (alive' : s.exited v = none)
    (handled : (s.nodes v).installSnapshot (s.nodes i).snapshotArgs.2 =
      .ok (follower, response, msg)) :
    ∃ s', Exchanged i v ((s.nodes i).snapshotArgs.1.leaderSendSnapShot v
      (s.nodes i).snapshotArgs.2 response) follower s s' := by
  have sent : s.step (.leaderSendSnapShot thread) = some (s.sendSnapshot thread i v, []) := by
    simp only [step, waiting, alive, if_true]
  have nodes : (s.sendSnapshot thread i v).nodes =
      (s.setNode i (s.nodes i).snapshotArgs.1).nodes := rfl
  have found : (s.sendSnapshot thread i v).calls[s.calls.length]? =
      some ⟨i, v, .installSnapshot (s.nodes i).snapshotArgs.2⟩ := List.getElem?_concat_length
  have same : (s.sendSnapshot thread i v).nodes v = s.nodes v := by
    rw [nodes, setNode_nodes_ne _ _ apart]
  have answered := step_handle found alive'
  rw [handle_installSnapshot (same.symm ▸ handled)] at answered
  obtain ⟨s₁, answered, nodes₁, exited, calls, finished, found₁⟩ : ∃ s₁ : Cluster n,
      (s.sendSnapshot thread i v).step (.handle s.calls.length) = some (s₁, []) ∧
        s₁.nodes = ((s.sendSnapshot thread i v).setNode v follower).nodes ∧
        s₁.exited = s.exited ∧ s₁.calls = (s.sendSnapshot thread i v).calls ∧
        s₁.finished = s.finished ∧
        s₁.replies[s.replies.length]? = some (s.calls.length, .installSnapshot response) :=
    ⟨_, answered, rfl, rfl, rfl, rfl, List.getElem?_concat_length⟩
  have leader : s₁.nodes i = (s.nodes i).snapshotArgs.1 := by
    rw [nodes₁, setNode_nodes_ne _ _ apart.symm, nodes, setNode_nodes_self]
  have taken := step_processReply found₁ (calls ▸ found) (exited ▸ alive) (finished ▸ pending)
  simp only [processReply, leader] at taken
  refine ⟨_, Exchanged.of_setNode s₁ (s.nodes i).snapshotArgs.1 apart
    ((CanReach.of_step trivial sent).trans (CanReach.of_step trivial answered))
    (CanReach.of_step trivial taken) exited rfl nodes₁⟩

/-- The nodes exchange a call as a leader and its follower do. -/
theorem exists_exchanged {guard : Cluster n → Action n → Prop} {events : List (Event n)}
    (run : ClusterRun guard events s) (me : (s.nodes i).me = i) (alive : s.exited i = none)
    (leads : (s.nodes i).status = .leader) (alive' : s.exited v = none) (apart : v ≠ i)
    {target : Link n}
    (done : Link.exchange v 1 ⟨s.nodes i, s.nodes v, false⟩ = .ok target) :
    ∃ s', Exchanged i v target.leader target.follower s s' := by
  have passes := (bounded_of_run run).beats leads
  have beaten : CanReach step anyStep s (s.beat i) :=
    CanReach.of_step trivial (step_doHeartBeat alive leads passes)
  have fresh : ∀ k, s.calls.length ≤ k → k ∉ (s.beat i).finished := by
    intro k later finished
    exact absurd (finished_of_run run k finished) (Nat.not_lt.mpr later)
  rcases Link.exchange_cases done with ⟨args, follower, reply, leader, appendNums, built, handled,
    processed, rfl⟩ | ⟨built, follower, response, msg, handled, rfl⟩
  · obtain ⟨k, later, found⟩ := exists_beat_call me leads passes apart built
    have counter : (s.beat i).appendNums[s.appendNums.length]? = some 1 :=
      List.getElem?_concat_length
    obtain ⟨s', exchanged, _⟩ := exists_appended found (fresh k later) apart alive alive' counter
      handled processed
    exact ⟨s', { exchanged with reached := beaten.trans exchanged.reached }⟩
  · obtain ⟨thread, waiting⟩ := exists_beat_thread me leads passes apart built
    have longer : s.calls.length ≤ (s.beat i).calls.length := by
      change s.calls.length ≤ (s.calls ++ _).length
      rw [List.length_append]
      exact Nat.le_add_right _ _
    obtain ⟨s', exchanged⟩ := exists_installed waiting (fresh _ longer) apart alive alive' handled
    exact ⟨s', { exchanged with reached := beaten.trans exchanged.reached }⟩

/-! ## The reign -/

/-- Node `i` leads, and no running node is an obstacle for it.  No node has
compacted or applied what comes after index `m`. -/
structure Reign (i : Fin n) (m : Int) (s : Cluster n) : Prop where
  run : ∃ events, ClusterRun anyStep events s
  alive : s.exited i = none
  leads : (s.nodes i).status = .leader
  positive : 0 ≤ (s.nodes i).currentTerm
  serves : ∀ v, s.exited v = none → v ≠ i → (s.nodes i).Serves v (s.nodes v)
  snapshot : (s.nodes i).lastSnapshotIncludeIndex ≤ m
  unapplied : ∀ v, s.exited v = none → (s.nodes v).lastApplied ≤ m

/-- The leader reigns on with its log. -/
structure Served (i : Fin n) (m : Int) (s s' : Cluster n) : Prop where
  reached : CanReach step anyStep s s'
  exited : s'.exited = s.exited
  reign : Reign i m s'
  leadsOn : (s.nodes i).LeadsOn (s'.nodes i)

/-- The leader has exchanged calls with node `v` only. -/
structure ServedOnly (i v : Fin n) (m : Int) (s s' : Cluster n) : Prop extends
    Served i m s s' where
  goesOn : (s.nodes i).GoesOn v (s'.nodes i)
  others : ∀ w, w ≠ i → w ≠ v → s'.nodes w = s.nodes w

variable {m : Int} {s'' : Cluster n}

theorem Served.refl (reign : Reign i m s) : Served i m s s :=
  ⟨CanReach.refl s, rfl, reign, .refl reign.leads⟩

theorem Served.trans (first : Served i m s s') (second : Served i m s' s'') : Served i m s s'' where
  reached := first.reached.trans second.reached
  exited := second.exited.trans first.exited
  reign := second.reign
  leadsOn := first.leadsOn.trans second.leadsOn

theorem ServedOnly.refl (reign : Reign i m s) : ServedOnly i v m s s :=
  ⟨.refl reign, ⟨.refl reign.leads, fun _ _ => rfl⟩, fun _ _ _ => rfl⟩

theorem ServedOnly.trans (first : ServedOnly i v m s s') (second : ServedOnly i v m s' s'') :
    ServedOnly i v m s s'' where
  toServed := first.toServed.trans second.toServed
  goesOn := first.goesOn.trans second.goesOn
  others := fun w other other' => (second.others w other other').trans (first.others w other other')

/-- In every run, two entries with one index and one term are the same. -/
theorem eq_of_index_of_term {guard : Cluster n → Action n → Prop} {events : List (Event n)}
    (run : ClusterRun guard events s) {w : Fin n} {entry entry' : LogEntry}
    (inside : entry ∈ (s.nodes v).logs) (inside' : entry' ∈ (s.nodes w).logs)
    (index : entry.logIndex = entry'.logIndex) (term : entry.logTerm = entry'.logTerm) :
    entry = entry' := by
  obtain ⟨moments, trace⟩ := run.exists_trace
  have sound := sound_of_trace trace
  exact sound.identified.unique ⟨s, sound.now, Or.inl ⟨v, inside⟩⟩
    ⟨s, sound.now, Or.inl ⟨w, inside'⟩⟩ index term

/-- The leader can compare its log with that of every running node. -/
theorem Reign.comparable (reign : Reign i m s) (alive' : s.exited v = none) (apart : v ≠ i) :
    Link.Comparable v ⟨s.nodes i, s.nodes v, false⟩ ∧
      ¬ Link.StartsBelow v ⟨s.nodes i, s.nodes v, false⟩ := by
  obtain ⟨events, run⟩ := reign.run
  have bounded := bounded_of_run run
  have serves := reign.serves v alive' apart
  have tracked := bounded.tracked reign.leads v
  refine ⟨?_, fun below => absurd (serves.above below.1) (not_le.mpr below.2)⟩
  exact
    { leader := bounded.placed i
      follower := bounded.placed v
      leads := reign.leads
      positive := reign.positive
      terms := serves.terms
      covered := serves.covered
      base := fun term known =>
        serves.base term ((bounded.placed i).holds_of_getLogTermFromLogIndex known)
      agrees := fun old inside log inside' index term =>
        congrArg LogEntry.command (eq_of_index_of_term run inside inside' index term)
      next := ⟨tracked.1, tracked.2.1⟩
      matched := tracked.2.2 }

/-- The leader reigns on after an exchange. -/
theorem Reign.exchanged (reign : Reign i m s) (apart : v ≠ i) {leader follower : Raft n}
    (exchanged : Exchanged i v leader follower s s') (goesOn : (s.nodes i).GoesOn v leader)
    (serves : leader.Serves v follower) (applied : follower.lastApplied ≤ m) :
    ServedOnly i v m s s' := by
  obtain ⟨events, run⟩ := reign.run
  have same := exchanged.leader
  subst same
  have same := exchanged.follower
  subst same
  refine ⟨⟨exchanged.reached, exchanged.exited, ?_, goesOn.toLeadsOn⟩, goesOn, exchanged.others⟩
  exact
    { run := exists_clusterRun run exchanged.reached
      alive := by rw [exchanged.exited]; exact reign.alive
      leads := goesOn.leads
      positive := by rw [goesOn.term]; exact reign.positive
      serves := by
        intro w alive' other
        rw [exchanged.exited] at alive'
        by_cases here : w = v
        · subst here
          exact serves
        · rw [exchanged.others w other here]
          exact goesOn.serves here (reign.serves w alive' other)
      snapshot := by rw [goesOn.index]; exact reign.snapshot
      unapplied := by
        intro w alive'
        rw [exchanged.exited] at alive'
        by_cases leader : w = i
        · rw [leader, goesOn.applied]
          exact reign.unapplied i reign.alive
        · by_cases here : w = v
          · rw [here]
            exact applied
          · rw [exchanged.others w leader here]
            exact reign.unapplied w alive' }

/-- Every exchange ends level or comes closer to it. -/
theorem Reign.exists_closer (reign : Reign i m s) (alive' : s.exited v = none) (apart : v ≠ i) :
    ∃ s', ServedOnly i v m s s' ∧
      ((s'.nodes i).Level v (s'.nodes v) ∧
          (s.nodes i).commitIndex ≤ (s'.nodes v).commitIndex ∨
        Link.distance v ⟨s'.nodes i, s'.nodes v, false⟩ <
          Link.distance v ⟨s.nodes i, s.nodes v, false⟩) := by
  obtain ⟨events, run⟩ := reign.run
  obtain ⟨counted, election⟩ := election_of_run run
  obtain ⟨comparable, above⟩ := reign.comparable alive' apart
  obtain ⟨target, done, _, later⟩ := comparable.exchange_closer above 1
  obtain ⟨s', exchanged⟩ :=
    exists_exchanged run (election.me i) reign.alive reign.leads alive' apart done
  obtain ⟨goesOn, _, applied⟩ := comparable.exchange_goesOn done
  have unapplied : target.follower.lastApplied ≤ m :=
    applied.trans (max_le (reign.unapplied v alive') reign.snapshot)
  rcases later with ⟨accepted, _⟩ | ⟨⟨comparable', above', _⟩, closer⟩
  · obtain ⟨serves, level, committed⟩ := comparable.exchange_accepted above done accepted
    refine ⟨s', reign.exchanged apart exchanged goesOn serves unapplied, Or.inl ?_⟩
    rw [exchanged.leader, exchanged.follower]
    exact ⟨level, committed⟩
  · refine ⟨s', reign.exchanged apart exchanged goesOn (comparable'.serves above') unapplied,
      Or.inr ?_⟩
    rw [exchanged.leader, exchanged.follower]
    exact closer

/-- The leader brings one follower to its log and its commit index. -/
theorem Reign.exists_level (reign : Reign i m s) (alive' : s.exited v = none) (apart : v ≠ i) :
    ∃ s', ServedOnly i v m s s' ∧ (s'.nodes i).Level v (s'.nodes v) ∧
      (s.nodes i).commitIndex ≤ (s'.nodes v).commitIndex := by
  have closer : ∀ a s₁, (ServedOnly i v m s s₁ ∧
      Link.distance v ⟨s₁.nodes i, s₁.nodes v, false⟩ = a) →
      ∃ s₂, CanReach step anyStep s₁ s₂ ∧
        ((ServedOnly i v m s s₂ ∧ (s₂.nodes i).Level v (s₂.nodes v) ∧
            (s.nodes i).commitIndex ≤ (s₂.nodes v).commitIndex) ∨
          ∃ a', (ServedOnly i v m s s₂ ∧
            Link.distance v ⟨s₂.nodes i, s₂.nodes v, false⟩ = a') ∧ id a' < id a) := by
    rintro a s₁ ⟨served, rfl⟩
    obtain ⟨s₂, later, ⟨level, committed⟩ | closer⟩ :=
      served.reign.exists_closer (served.exited ▸ alive') apart
    · exact ⟨s₂, later.reached, Or.inl ⟨served.trans later, level,
        served.leadsOn.committed.trans committed⟩⟩
    · exact ⟨s₂, later.reached, Or.inr ⟨_, ⟨served.trans later, rfl⟩, closer⟩⟩
  obtain ⟨s', _, served⟩ := exists_canReach_of_rank _ id closer ⟨.refl reign, rfl⟩
  exact ⟨s', served⟩

/-- The leader brings all followers to its log and its commit index. -/
theorem Reign.exists_allLevel (reign : Reign i m s) {bound : Int}
    (committed : bound ≤ (s.nodes i).commitIndex) (followers : Finset (Fin n))
    (running : ∀ v ∈ followers, s.exited v = none ∧ v ≠ i) :
    ∃ s', Served i m s s' ∧ ∀ v ∈ followers, (s'.nodes i).Level v (s'.nodes v) ∧
      bound ≤ (s'.nodes v).commitIndex := by
  induction followers using Finset.induction_on with
  | empty => exact ⟨s, .refl reign, by simp⟩
  | insert v rest _ ih =>
      obtain ⟨s₁, served, before⟩ := ih fun w member => running w (Finset.mem_insert_of_mem member)
      obtain ⟨alive', apart⟩ := running v (Finset.mem_insert_self v rest)
      obtain ⟨s₂, later, level, raised⟩ :=
        served.reign.exists_level (served.exited ▸ alive') apart
      refine ⟨s₂, served.trans later.toServed, fun w member => ?_⟩
      by_cases here : w = v
      · subst here
        exact ⟨level, (committed.trans served.leadsOn.committed).trans raised⟩
      · have member' := Finset.mem_of_mem_insert_of_ne member here
        rw [later.others w (running w member).2 here]
        exact ⟨later.goesOn.level here (before w member').1, (before w member').2⟩

end Cluster

end CppRaft.Protocol
