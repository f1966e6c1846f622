import CppRaft.Protocol.Bounds
import CppRaft.Protocol.ElectionSafety

/-!
# The log of a leader

While a node leads one term, its log changes at two places only: `StartConses`
appends behind the end, and `Snapshot` takes away a beginning.  The handlers
that rewrite the log leave the node a follower, and a node that has stopped
leading a term does not lead it again.
-/

namespace CppRaft.Protocol

open CppRaft.RaftCore
open CppRaft.Store
open CppRaft.Transition

variable {n : Nat}

/-! ## One step -/

/-- Every entry behind the last snapshot of `rf'` that `rf` held is still there,
and the log has not become shorter. -/
structure AppendsOnly (rf rf' : Raft n) : Prop where
  base : rf.lastSnapshotIncludeIndex ≤ rf'.lastSnapshotIncludeIndex
  last : rf.getLastLogIndex ≤ rf'.getLastLogIndex
  kept : ∀ (index : Int) (entry : LogEntry), rf'.lastSnapshotIncludeIndex < index →
    rf.logAtIndex index = .ok entry → rf'.logAtIndex index = .ok entry

theorem AppendsOnly.refl (rf : Raft n) : AppendsOnly rf rf where
  base := le_rfl
  last := le_rfl
  kept := fun _ _ _ found => found

theorem AppendsOnly.trans {rf rf' rf'' : Raft n} (first : AppendsOnly rf rf')
    (second : AppendsOnly rf' rf'') : AppendsOnly rf rf'' where
  base := first.base.trans second.base
  last := first.last.trans second.last
  kept := by
    intro index entry behind found
    exact second.kept index entry behind
      (first.kept index entry (second.base.trans_lt behind) found)

theorem appendsOnly_of_logs {rf rf' : Raft n} (placed : rf.Placed) (logs : rf'.logs = rf.logs)
    (base : rf'.lastSnapshotIncludeIndex = rf.lastSnapshotIncludeIndex) : AppendsOnly rf rf' where
  base := base.ge
  last := (Raft.getLastLogIndex_congr logs base).ge
  kept := by
    intro index entry _ found
    obtain ⟨member, place⟩ := placed.mem_of_logAtIndex found
    have contiguous : rf'.Contiguous := by
      rw [Raft.Contiguous, base, logs]
      exact placed.logs
    rw [← logs] at member
    exact contiguous.logAtIndex_iff_mem.mpr ⟨member, place⟩

theorem appendsOnly_startConses {rf : Raft n} (placed : rf.Placed) (command : Bytes) :
    AppendsOnly rf (rf.startConses command).1 := by
  obtain ⟨placed', advances⟩ := Raft.startConses_placed placed command
  refine ⟨advances.snapshot, advances.last, ?_⟩
  intro index entry _ found
  obtain ⟨member, place⟩ := placed.mem_of_logAtIndex found
  apply (Raft.Contiguous.logAtIndex_iff_mem placed'.logs).mpr
  refine ⟨?_, place⟩
  rcases rf.startConses_cases command with ⟨_, idle⟩ | ⟨_, appended⟩
  · rwa [idle]
  · rw [appended]
    exact List.mem_append_left _ member

theorem appendsOnly_snapshot {rf rf' : Raft n} (placed : rf.Placed) {index : Int} {data : Bytes}
    (taken : rf.snapshot index data = .ok rf') : AppendsOnly rf rf' := by
  obtain ⟨placed', advances, _⟩ := Raft.snapshot_placed placed taken
  refine ⟨advances.snapshot, advances.last, ?_⟩
  intro index' entry behind found
  obtain ⟨member, place⟩ := placed.mem_of_logAtIndex found
  have range := placed.index_range member
  apply (Raft.Contiguous.logAtIndex_iff_mem placed'.logs).mpr
  refine ⟨?_, place⟩
  rcases Raft.snapshot_cases taken with rfl | ⟨_, _, last, logs, _, collected, rfl⟩
  · exact member
  · -- The entries behind the snapshot are collected one by one.
    obtain ⟨length, access⟩ := Raft.collectLogs_eq collected
    change index < index' at behind
    have inside : (index' - index - 1).toNat < logs.length := by omega
    have collectedAt := access _ _ (List.getElem?_eq_getElem inside)
    rw [show index + 1 + ((index' - index - 1).toNat : Int) = index' by omega, found,
      Except.ok.injEq] at collectedAt
    rw [collectedAt]
    exact List.getElem_mem inside

namespace Cluster

variable {events emitted : List (Event n)} {s s' : Cluster n} {action : Action n}

/-- A step after which a node still leads has not rewritten its log. -/
theorem Bounded.moved_appendsOnly (bounded : s.Bounded) {v : Fin n} {rf : Raft n}
    (moved : s.Moved action emitted v rf) (leads' : rf.status = .leader) :
    AppendsOnly (s.nodes v) rf := by
  have placed := bounded.placed v
  have kept : ∀ {rf' : Raft n}, Raft.Keeps (s.nodes v) rf' → AppendsOnly (s.nodes v) rf' :=
    fun keeps => appendsOnly_of_logs placed keeps.logs keeps.index
  cases moved with
  | same => exact AppendsOnly.refl _
  | candidacy => cases leads'
  | startConses => exact appendsOnly_startConses placed _
  | getApplyLogs collected =>
      rw [Raft.getApplyLogs_eq collected]
      exact appendsOnly_of_logs placed rfl rfl
  | snapshot compacted => exact appendsOnly_snapshot placed compacted
  | snapshotArgs => exact kept (Raft.snapshotArgs_keeps _)
  | requestVote handled => exact kept (Raft.requestVote_keeps handled)
  | appendEntries1 _ _ _ _ _ handled =>
      rw [Raft.appendEntries1_leading handled leads']
      exact AppendsOnly.refl _
  | installSnapshot _ _ _ handled =>
      rw [Raft.installSnapshot_leading handled leads']
      exact AppendsOnly.refl _
  | sendRequestVote processed _ => exact kept (Raft.sendRequestVote_keeps processed)
  | sendAppendEntries _ _ _ _ processed =>
      rcases Raft.sendAppendEntries_cases processed with ⟨_, later, rfl, _⟩ | ⟨_, _, rfl⟩ |
        ⟨_, _, _, _, _, _, rfl, _⟩
      · exact kept ((s.nodes v).keeps_adoptTerm later)
      · exact appendsOnly_of_logs placed rfl rfl
      · exact appendsOnly_of_logs placed rfl rfl
  | leaderSendSnapShot => exact kept (Raft.leaderSendSnapShot_keeps _ _ _ _)

end Cluster

/-! ## The time of one leadership -/

/-- Leader append-only: between two moments of a run, in particular before and
after one step, at which a node leads one term, its log has only been appended
to and compacted. -/
theorem leader_appends_only {n : Nat} {events more : List (Event n)} {s s' : Cluster n}
    (run : ClusterRun anyStep events s) (later : Run Cluster.step anyStep s more s') {i : Fin n}
    (leads : (s.nodes i).status = .leader) (leads' : (s'.nodes i).status = .leader)
    (sameTerm : (s'.nodes i).currentTerm = (s.nodes i).currentTerm) :
    AppendsOnly (s.nodes i) (s'.nodes i) := by
  apply while_leading (P := fun state => AppendsOnly (s.nodes i) (state.nodes i))
    run leads rfl later leads' sameTerm (AppendsOnly.refl _)
  intro _ state target action emitted before appended _ taken _ led _
  have bounded := Cluster.bounded_of_run before
  exact appended.trans (bounded.moved_appendsOnly ((Cluster.step_effect taken).moved i) led)

/-- A node of three is elected, appends two commands, and replicates and commits
them. -/
def committedTwo (leader : Fin n) : List (Action n) :=
  [.doElection leader, .handle 0, .processReply 0, .startConses leader [97],
    .startConses leader [98], .doHeartBeat leader, .handle 2, .processReply 1]

/-- The node leads one term in both states, with two entries in the first and the
first of them compacted in the second. -/
def compactsOne (leader : Fin n) (s s' : Cluster n) : Bool :=
  decide ((s.nodes leader).status = .leader ∧ (s'.nodes leader).status = .leader ∧
    (s'.nodes leader).currentTerm = (s.nodes leader).currentTerm ∧
    (s'.nodes leader).lastSnapshotIncludeIndex = 1 ∧ (s.nodes leader).getLastLogIndex = 2)

/-- The leader compacts its first entry and appends a third command. -/
theorem leader_appends_only_compacted :
    ∃ (events more : List (Event 3)) (s s' : Cluster 3), ClusterRun anyStep events s ∧
      Run Cluster.step anyStep s more s' ∧ (s'.nodes 0).lastSnapshotIncludeIndex = 1 ∧
      (s.nodes 0).getLastLogIndex = 2 ∧ AppendsOnly (s.nodes 0) (s'.nodes 0) := by
  obtain ⟨events, s, run, reached⟩ := exists_run_of_exec Cluster.step anyStep (Cluster.start 3)
    (committedTwo 0)
    (fun result => (exec Cluster.step anyStep result.1
      [.snapshot 0 1 [], .startConses 0 [99]]).any fun later => compactsOne 0 result.1 later.1)
    (by decide +kernel)
  obtain ⟨more, s', later, checked⟩ := exists_run_of_exec Cluster.step anyStep s
    [.snapshot 0 1 [], .startConses 0 [99]] (fun later => compactsOne 0 s later.1) reached
  simp only [compactsOne, decide_eq_true_eq] at checked
  obtain ⟨leads, leads', sameTerm, compacted, last⟩ := checked
  exact ⟨events, more, s, s', run, later, compacted, last,
    leader_appends_only run later leads leads' sameTerm⟩

end CppRaft.Protocol
