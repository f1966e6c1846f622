import CppRaft.Protocol.Refinement

/-!
# Log matching, leader completeness and state machine safety

The three properties are read off the history that describes a run.  They hold
of the runs in which every handled request cuts what it conflicts with.  The
code does not always do so: `AppendEntries1` overwrites a conflicting entry and
keeps the entries behind it, and `InstallSnapshot` keeps the entries behind a
snapshot that it contradicts.  One run of five nodes shows what follows.
-/

namespace CppRaft.Protocol

open CppRaft.Consensus
open CppRaft.Consensus.History
open CppRaft.RaftCore
open CppRaft.Store
open CppRaft.Transition

variable {n : Nat} {h : History (Fin n) LogEntry} {events : List (Event n)} {s : Cluster n}
  {counted : Nat → Finset (Fin n)}

/-! ## Two runs -/

/-- A raised commit index with a property. -/
def Event.isCommitted (check : Fin n → Raft n → Bool) : Event n → Bool
  | .committed i rf => check i rf
  | _ => false

/-- An election with a property. -/
def Event.isElected (check : Fin n → Raft n → Bool) : Event n → Bool
  | .elected i rf => check i rf
  | _ => false

theorem exists_committed {check : Fin n → Raft n → Bool}
    (found : events.any (Event.isCommitted check) = true) :
    ∃ i rf, Event.committed i rf ∈ events ∧ check i rf = true := by
  obtain ⟨event, member, shown⟩ := List.any_eq_true.mp found
  cases event with
  | committed i rf => exact ⟨i, rf, member, shown⟩
  | emitted _ _ => cases shown
  | voted _ _ _ => cases shown
  | elected _ _ => cases shown

theorem exists_elected {check : Fin n → Raft n → Bool}
    (found : events.any (Event.isElected check) = true) :
    ∃ i rf, Event.elected i rf ∈ events ∧ check i rf = true := by
  obtain ⟨event, member, shown⟩ := List.any_eq_true.mp found
  cases event with
  | elected i rf => exact ⟨i, rf, member, shown⟩
  | emitted _ _ => cases shown
  | voted _ _ _ => cases shown
  | committed _ _ => cases shown

/-- Three nodes: node 0 commits two commands of term 1, nodes 0 and 1 apply
them, and node 1 becomes the leader of term 2. -/
def committedTwice : List (Action 3) :=
  [.doElection 0, .handle 0, .processReply 0,
    .startConses 0 [97], .startConses 0 [98], .doHeartBeat 0, .handle 2, .processReply 1,
    .getApplyLogs 0, .doHeartBeat 0, .handle 4, .getApplyLogs 1,
    .doElection 1, .handle 7, .processReply 3]

/-- Five nodes: the leader of term 1 sends two entries to node 4 only, and the
leader of term 2 then sends one entry to nodes 2 and 4.  Node 4 overwrites its
first entry and keeps the second. -/
def staleTail : List (Action 5) :=
  [.doElection 0, .handle 0, .handle 1, .processReply 0, .processReply 1,
    .startConses 0 [97], .startConses 0 [98], .doHeartBeat 0, .handle 7,
    .doElection 1, .handle 9, .handle 10, .processReply 3, .processReply 4,
    .startConses 1 [120], .doHeartBeat 1, .handle 13, .handle 15]

/-- The leader of term 2 commits and applies its entry, and node 0 is elected in
term 3 by nodes 3 and 4. -/
def staleElection : List (Action 5) :=
  staleTail ++
    [.processReply 5, .processReply 6, .getApplyLogs 1,
      .handle 8, .doElection 0, .handle 18, .handle 19, .processReply 8, .processReply 9]

/-- The leader of term 3 commits and applies its own first entry. -/
def staleCommit : List (Action 5) :=
  staleElection ++
    [.startConses 0 [99], .doHeartBeat 0, .handle 22, .processReply 10,
      .doHeartBeat 0, .handle 26, .handle 27, .processReply 11, .processReply 12,
      .getApplyLogs 0]

/-! ## Log matching -/

/-- Two nodes that hold entries of one term at an index agree on every smaller
index that both still hold. -/
def LogsMatch (s : Cluster n) : Prop :=
  ∀ (i j : Fin n) (index : Int) (entry entry' : LogEntry),
    (s.nodes i).logAtIndex index = .ok entry → (s.nodes j).logAtIndex index = .ok entry' →
    entry.logTerm = entry'.logTerm →
    ∀ (smaller : Int) (first second : LogEntry), smaller < index →
      (s.nodes i).logAtIndex smaller = .ok first →
      (s.nodes j).logAtIndex smaller = .ok second →
      first.logTerm = second.logTerm ∧ first.command = second.command

theorem Simulates.logsMatch (sim : Simulates events s h counted) : LogsMatch s := by
  intro i j index entry entry' held held' sameTerm smaller first second below heldFirst heldSecond
  have backed := sim.reachable.sound.logBacked
  have left := (sim.node i).view
  have right := (sim.node j).view
  have nonneg := left.snapshotNonneg
  obtain ⟨_, found⟩ := left.logAtIndex.mp held
  obtain ⟨_, found'⟩ := right.logAtIndex.mp held'
  obtain ⟨above, foundFirst⟩ := left.logAtIndex.mp heldFirst
  obtain ⟨_, foundSecond⟩ := right.logAtIndex.mp heldSecond
  have agree := (backed i).take_eq (backed j) found found' sameTerm
  have inside : smaller.toNat - 1 < index.toNat - 1 + 1 := by omega
  have same : first = second := by
    rw [← Option.some_inj, ← foundFirst, ← foundSecond, ← List.getElem?_take_of_lt inside, agree,
      List.getElem?_take_of_lt inside]
  rw [same]
  exact ⟨rfl, rfl⟩

/-- Log matching, in every run that cuts conflicts. -/
theorem logs_match {n : Nat} {events : List (Event n)} {s : Cluster n}
    (run : ClusterRun CutsConflicts events s) : LogsMatch s := by
  obtain ⟨h, counted, sim⟩ := simulates_of_run run
  exact sim.logsMatch

theorem logs_match_committedTwice :
    ∃ (events : List (Event 3)) (s : Cluster 3), ClusterRun CutsConflicts events s ∧
      (s.nodes 0).logAtIndex 2 = (s.nodes 1).logAtIndex 2 ∧
      (s.nodes 1).logAtIndex 2 = .ok ⟨[98], 1, 2⟩ ∧ LogsMatch s := by
  obtain ⟨events, s, run, checked⟩ := exists_run_of_exec Cluster.step CutsConflicts
    (Cluster.start 3) committedTwice
    (fun result => decide ((result.1.nodes 0).logAtIndex 2 = (result.1.nodes 1).logAtIndex 2 ∧
      (result.1.nodes 1).logAtIndex 2 = .ok ⟨[98], 1, 2⟩))
    (by decide +kernel)
  rw [decide_eq_true_eq] at checked
  exact ⟨events, s, run, checked.1, checked.2, logs_match run⟩

/-- Nodes 0 and 4 hold the entry of term 1 at index 2 and differ at index 1. -/
theorem not_logs_match :
    ∃ (events : List (Event 5)) (s : Cluster 5), ClusterRun anyStep events s ∧
      (∀ i, s.exited i = none) ∧ ¬ LogsMatch s := by
  obtain ⟨events, s, run, checked⟩ := exists_run_of_exec Cluster.step anyStep (Cluster.start 5)
    staleTail
    (fun result => decide ((∀ i, result.1.exited i = none) ∧
      (result.1.nodes 0).logAtIndex 2 = .ok ⟨[98], 1, 2⟩ ∧
      (result.1.nodes 4).logAtIndex 2 = .ok ⟨[98], 1, 2⟩ ∧
      (result.1.nodes 0).logAtIndex 1 = .ok ⟨[97], 1, 1⟩ ∧
      (result.1.nodes 4).logAtIndex 1 = .ok ⟨[120], 2, 1⟩))
    (by decide +kernel)
  rw [decide_eq_true_eq] at checked
  obtain ⟨alive, held, held', heldFirst, heldSecond⟩ := checked
  refine ⟨events, s, run, alive, ?_⟩
  intro agree
  have same := agree 0 4 2 _ _ held held' rfl 1 _ _ (by decide) heldFirst heldSecond
  exact absurd same.1 (by decide)

/-! ## Leader completeness -/

/-- What the leader of a term commits is what every leader of a later term
holds or has compacted when it is elected. -/
def LeadersComplete (events : List (Event n)) : Prop :=
  ∀ (i : Fin n) (rf : Raft n), .committed i rf ∈ events →
    ∃ full, LogView rf full ∧ rf.commitIndex ≤ full.length ∧
      ∀ (j : Fin n) (rf' : Raft n), .elected j rf' ∈ events → rf.currentTerm < rf'.currentTerm →
        ∀ index, 1 ≤ index → index ≤ rf.commitIndex →
          index ≤ rf'.lastSnapshotIncludeIndex ∨
          ∃ entry, rf'.logAtIndex index = .ok entry ∧ full[index.toNat - 1]? = some entry

theorem Simulates.leadersComplete (sim : Simulates events s h counted) :
    LeadersComplete events := by
  intro i rf raised
  obtain ⟨full, view, bound, committed⟩ := sim.event _ raised
  refine ⟨full, view, bound, ?_⟩
  intro j rf' won later index positive inside
  obtain ⟨leads, view'⟩ := sim.event _ won
  have contained := sim.reachable.sound.committedBy_prefix_electedLog committed later ⟨j, leads⟩
  by_cases compacted : index ≤ rf'.lastSnapshotIncludeIndex
  · exact Or.inl compacted
  · have short : index.toNat - 1 < rf.commitIndex.toNat := by omega
    have within : index.toNat - 1 < full.length := by omega
    have found := List.getElem?_eq_getElem within
    refine Or.inr ⟨full[index.toNat - 1], view'.logAtIndex.mpr ⟨by omega, ?_⟩, found⟩
    obtain ⟨rest, same⟩ := contained
    rw [← same, List.getElem?_append_left (by rw [List.length_take]; omega),
      List.getElem?_take_of_lt short, found]

/-- Leader completeness, in every run that cuts conflicts. -/
theorem leaders_complete {n : Nat} {events : List (Event n)} {s : Cluster n}
    (run : ClusterRun CutsConflicts events s) : LeadersComplete events := by
  obtain ⟨h, counted, sim⟩ := simulates_of_run run
  exact sim.leadersComplete

theorem leaders_complete_committedTwice :
    ∃ (events : List (Event 3)) (s : Cluster 3), ClusterRun CutsConflicts events s ∧
      (∃ i rf, .committed i rf ∈ events ∧ rf.currentTerm = 1 ∧ rf.commitIndex = 2) ∧
      (∃ i rf, .elected i rf ∈ events ∧ rf.currentTerm = 2) ∧ LeadersComplete events := by
  obtain ⟨events, s, run, checked⟩ := exists_run_of_exec Cluster.step CutsConflicts
    (Cluster.start 3) committedTwice
    (fun result =>
      result.2.any (Event.isCommitted fun _ rf =>
        decide (rf.currentTerm = 1 ∧ rf.commitIndex = 2)) &&
      result.2.any (Event.isElected fun _ rf => decide (rf.currentTerm = 2)))
    (by decide +kernel)
  rw [Bool.and_eq_true] at checked
  obtain ⟨i, rf, raised, bound⟩ := exists_committed checked.1
  obtain ⟨j, rf', won, term⟩ := exists_elected checked.2
  exact ⟨events, s, run, ⟨i, rf, raised, of_decide_eq_true bound⟩,
    ⟨j, rf', won, of_decide_eq_true term⟩, leaders_complete run⟩

/-- The leader of term 2 commits an entry at index 1, and the leader of term 3
is elected with another one there. -/
theorem not_leaders_complete :
    ∃ (events : List (Event 5)) (s : Cluster 5), ClusterRun anyStep events s ∧
      (∀ i, s.exited i = none) ∧ ¬ LeadersComplete events := by
  obtain ⟨events, s, run, checked⟩ := exists_run_of_exec Cluster.step anyStep (Cluster.start 5)
    staleElection
    (fun result => decide (∀ i, result.1.exited i = none) &&
      (result.2.any (Event.isCommitted fun _ rf => decide (rf.currentTerm = 2 ∧
        rf.commitIndex = 1 ∧ rf.logAtIndex 1 = .ok ⟨[120], 2, 1⟩)) &&
      result.2.any (Event.isElected fun _ rf => decide (rf.currentTerm = 3 ∧
        rf.lastSnapshotIncludeIndex = 0 ∧ rf.logAtIndex 1 = .ok ⟨[97], 1, 1⟩))))
    (by decide +kernel)
  rw [Bool.and_eq_true, Bool.and_eq_true, decide_eq_true_eq] at checked
  obtain ⟨alive, raised, won⟩ := checked
  obtain ⟨i, rf, raised, shown⟩ := exists_committed raised
  obtain ⟨j, rf', won, shown'⟩ := exists_elected won
  obtain ⟨term, commit, held⟩ := of_decide_eq_true shown
  obtain ⟨term', snapshot, held'⟩ := of_decide_eq_true shown'
  refine ⟨events, s, run, alive, ?_⟩
  intro complete
  obtain ⟨full, view, _, later⟩ := complete i rf raised
  have found := (view.logAtIndex.mp held).2
  rcases later j rf' won (by omega) 1 le_rfl (by omega) with compacted | ⟨entry, kept, expected⟩
  · omega
  · rw [held'] at kept
    cases kept
    rw [found] at expected
    exact absurd expected (by decide)

/-! ## State machine safety -/

/-- No two messages for the service carry different commands of one index. -/
def AppliesAgree (events : List (Event n)) : Prop :=
  ∀ (i j : Fin n) (msg msg' : ApplyMsg), .emitted i msg ∈ events → .emitted j msg' ∈ events →
    msg.commandIndex = msg'.commandIndex → msg.command = msg'.command

theorem Simulates.appliesAgree (sim : Simulates events s h counted) : AppliesAgree events := by
  intro i j msg msg' emitted emitted' sameIndex
  obtain ⟨t, l, k, entry, committed, found, index, command⟩ := sim.event _ emitted
  obtain ⟨t', l', k', entry', committed', found', index', command'⟩ := sim.event _ emitted'
  obtain rfl : k = k' := by omega
  have same : some entry = some entry' := by
    rw [← found, ← found']
    rcases sim.reachable.sound.committedBy_comparable committed committed' with
      ⟨rest, rfl⟩ | ⟨rest, rfl⟩
    · exact (List.getElem?_append_left (List.getElem?_eq_some_iff.mp found).1).symm
    · exact List.getElem?_append_left (List.getElem?_eq_some_iff.mp found').1
  rw [command, command', Option.some_inj.mp same]

/-- State machine safety, in every run that cuts conflicts. -/
theorem applies_agree {n : Nat} {events : List (Event n)} {s : Cluster n}
    (run : ClusterRun CutsConflicts events s) : AppliesAgree events := by
  obtain ⟨h, counted, sim⟩ := simulates_of_run run
  exact sim.appliesAgree

/-- The commands that are applied at an index. -/
def Event.appliedAt (index : Int) : Event n → Option Bytes
  | .emitted _ msg => if msg.commandIndex = index then some msg.command else none
  | _ => none

theorem exists_emitted {index : Int} {command : Bytes}
    (found : command ∈ events.filterMap (Event.appliedAt index)) :
    ∃ i msg, Event.emitted i msg ∈ events ∧ msg.commandIndex = index ∧ msg.command = command := by
  obtain ⟨event, member, shown⟩ := List.mem_filterMap.mp found
  cases event with
  | emitted i msg =>
      simp only [Event.appliedAt, Option.ite_none_right_eq_some, Option.some.injEq] at shown
      exact ⟨i, msg, member, shown⟩
  | voted _ _ _ => cases shown
  | elected _ _ => cases shown
  | committed _ _ => cases shown

theorem applies_agree_committedTwice :
    ∃ (events : List (Event 3)) (s : Cluster 3), ClusterRun CutsConflicts events s ∧
      events.filterMap (Event.appliedAt 2) = [[98], [98]] ∧ AppliesAgree events := by
  obtain ⟨events, s, run, checked⟩ := exists_run_of_exec Cluster.step CutsConflicts
    (Cluster.start 3) committedTwice
    (fun result => decide (result.2.filterMap (Event.appliedAt 2) = [[98], [98]]))
    (by decide +kernel)
  exact ⟨events, s, run, of_decide_eq_true checked, applies_agree run⟩

/-- Two nodes apply different commands at index 1. -/
theorem not_applies_agree :
    ∃ (events : List (Event 5)) (s : Cluster 5), ClusterRun anyStep events s ∧
      (∀ i, s.exited i = none) ∧ ¬ AppliesAgree events := by
  obtain ⟨events, s, run, checked⟩ := exists_run_of_exec Cluster.step anyStep (Cluster.start 5)
    staleCommit
    (fun result => decide ((∀ i, result.1.exited i = none) ∧
      result.2.filterMap (Event.appliedAt 1) = [[120], [97]]))
    (by decide +kernel)
  obtain ⟨alive, applied⟩ := of_decide_eq_true checked
  refine ⟨events, s, run, alive, ?_⟩
  intro agree
  obtain ⟨i, msg, emitted, index, command⟩ :=
    exists_emitted (show [120] ∈ events.filterMap (Event.appliedAt 1) by rw [applied]; simp)
  obtain ⟨j, msg', emitted', index', command'⟩ :=
    exists_emitted (show [97] ∈ events.filterMap (Event.appliedAt 1) by rw [applied]; simp)
  have same := agree i j msg msg' emitted emitted' (index.trans index'.symm)
  rw [command, command'] at same
  exact absurd same (by decide)

end CppRaft.Protocol
