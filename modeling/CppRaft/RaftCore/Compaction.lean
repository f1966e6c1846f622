import CppRaft.RaftCore.Total
import CppRaft.Transition.Lockstep

/-!
# A node and the same node with a shorter log

`Snapshot` cuts the log at an index.  Behind this index the accessors give what
they gave before, although every position in `m_logs` has changed.
-/

namespace CppRaft.RaftCore

open CppRaft.Store
open CppRaft.Transition

variable {n : Nat}

/-- An assertion that has the same answer on both sides. -/
theorem lockstep_myAssert {condition condition' : Prop} [Decidable condition]
    [Decidable condition'] (same : condition ↔ condition') (fault : Fault) :
    Lockstep (fun _ _ => True) (myAssert condition fault) (myAssert condition' fault) := by
  unfold myAssert
  by_cases holds : condition
  · rw [if_pos holds, if_pos (same.mp holds)]
    trivial
  · rw [if_neg holds, if_neg (fun holds' => holds (same.mpr holds'))]
    exact rfl

namespace Raft

/-- The node `short` is the node `rf` with its log cut at `index`. -/
structure CutAt (index : Int) (rf short : Raft n) : Prop where
  contiguous : rf.Contiguous
  contiguous' : short.Contiguous
  above : rf.lastSnapshotIncludeIndex < index
  base : short.lastSnapshotIncludeIndex = index
  baseTerm : ∃ entry, rf.logAtIndex index = .ok entry ∧
    short.lastSnapshotIncludeTerm = entry.logTerm
  logs : short.logs = rf.logs.drop (index - rf.lastSnapshotIncludeIndex).toNat
  term : short.currentTerm = rf.currentTerm
  votedFor : short.votedFor = rf.votedFor
  commitIndex : short.commitIndex = rf.commitIndex

namespace CutAt

variable {index : Int} {rf rf' short short' : Raft n}

/-! ## The accessors -/

theorem inside (cut : CutAt index rf short) : index ≤ rf.getLastLogIndex := by
  obtain ⟨entry, found, _⟩ := cut.baseTerm
  obtain ⟨_, here⟩ := (Contiguous.logAtIndex cut.contiguous).mp found
  have inside := (List.getElem?_eq_some_iff.mp here).1
  have last := getLastLogIndex_of_numbered cut.contiguous
  have above := cut.above
  omega

theorem getLastLogIndexAndTerm (cut : CutAt index rf short) :
    short.getLastLogIndexAndTerm = rf.getLastLogIndexAndTerm := by
  have above := cut.above
  obtain ⟨entry, found, term⟩ := cut.baseTerm
  obtain ⟨_, here⟩ := (Contiguous.logAtIndex cut.contiguous).mp found
  have place := numberedFrom_iff.mp cut.contiguous _ _ here
  have inside := (List.getElem?_eq_some_iff.mp here).1
  rw [Raft.getLastLogIndexAndTerm, Raft.getLastLogIndexAndTerm, cut.logs, List.getLast?_drop]
  by_cases covered : rf.logs.length ≤ (index - rf.lastSnapshotIncludeIndex).toNat
  · -- The log ends at the index.
    have last : rf.logs.getLast? = some entry := by
      rw [List.getLast?_eq_getElem?, ← here]
      congr 1
      omega
    rw [if_pos covered, last, cut.base, term]
    change (index, entry.logTerm) = (entry.logIndex, entry.logTerm)
    rw [Prod.mk.injEq]
    exact ⟨by omega, rfl⟩
  · rw [if_neg covered]
    have last : rf.logs.getLast? ≠ none := by
      rw [ne_eq, List.getLast?_eq_none_iff, ← List.length_eq_zero_iff]
      omega
    cases found : rf.logs.getLast? with
    | none => exact absurd found last
    | some entry => rfl

theorem getLastLogIndex (cut : CutAt index rf short) :
    short.getLastLogIndex = rf.getLastLogIndex := by
  rw [Raft.getLastLogIndex, cut.getLastLogIndexAndTerm, ← Raft.getLastLogIndex]

theorem upToDate (cut : CutAt index rf short) (lastIndex lastTerm : Int) :
    short.upToDate lastIndex lastTerm = rf.upToDate lastIndex lastTerm := by
  rw [Raft.upToDate, Raft.upToDate, cut.getLastLogIndexAndTerm]

/-- How many entries are cut off. -/
def cutOff (index : Int) (rf : Raft n) : Nat :=
  (index - rf.lastSnapshotIncludeIndex).toNat

/-- Behind the index a position of the short log is one of the long log. -/
theorem getSlicesIndexFromLogIndex (cut : CutAt index rf short) {logIndex : Int}
    (behind : index < logIndex) :
    Lockstep (fun slice slice' => slice = cutOff index rf + slice')
      (rf.getSlicesIndexFromLogIndex logIndex) (short.getSlicesIndexFromLogIndex logIndex) := by
  have above := cut.above
  unfold Raft.getSlicesIndexFromLogIndex
  rw [cut.getLastLogIndex, cut.base]
  apply Lockstep.bind (lockstep_myAssert (by omega) _)
  intro _ _ _ _ _
  apply Lockstep.bind_left
  intro _ _
  change (_ : Nat) = _
  rw [cutOff]
  omega

theorem logAt (cut : CutAt index rf short) (slice : Nat) :
    rf.logAt (cutOff index rf + slice) = short.logAt slice := by
  rw [Raft.logAt, Raft.logAt, cut.logs, List.getElem?_drop]
  rfl

/-- The entry at a remaining index. -/
theorem logAtIndex (cut : CutAt index rf short) {logIndex : Int} (behind : index < logIndex) :
    rf.logAtIndex logIndex = short.logAtIndex logIndex := by
  apply Lockstep.eq
  apply Lockstep.bind (cut.getSlicesIndexFromLogIndex behind)
  intro slice slice' _ _ same
  rw [same, cut.logAt]
  exact Lockstep.refl _

theorem getLogTermFromLogIndex (cut : CutAt index rf short) {logIndex : Int}
    (reaches : index ≤ logIndex) :
    rf.getLogTermFromLogIndex logIndex = short.getLogTermFromLogIndex logIndex := by
  have above := cut.above
  have inside := cut.inside
  apply Lockstep.eq
  unfold Raft.getLogTermFromLogIndex
  rw [cut.getLastLogIndex, cut.base]
  apply Lockstep.bind (lockstep_myAssert (by omega) _)
  intro _ _ _ _ _
  apply Lockstep.bind_left
  intro _ _
  rw [if_neg (by omega)]
  by_cases atCut : logIndex = index
  · obtain ⟨entry, found, term⟩ := cut.baseTerm
    rw [if_pos atCut, atCut, found, term]
    exact rfl
  · rw [if_neg atCut, cut.logAtIndex (by omega)]
    exact Lockstep.refl _

theorem matchLog (cut : CutAt index rf short) {logIndex : Int} (reaches : index ≤ logIndex)
    (logTerm : Int) : rf.matchLog logIndex logTerm = short.matchLog logIndex logTerm := by
  have above := cut.above
  apply Lockstep.eq
  unfold Raft.matchLog
  rw [cut.getLastLogIndex, cut.base, cut.getLogTermFromLogIndex reaches]
  apply Lockstep.bind (lockstep_myAssert (by omega) _)
  intro _ _ _ _ _
  exact Lockstep.refl _

/-! ## Updates -/

/-- Fields that the relation does not mention. -/
theorem congr (cut : CutAt index rf short) (logs : rf'.logs = rf.logs)
    (logs' : short'.logs = short.logs)
    (base : rf'.lastSnapshotIncludeIndex = rf.lastSnapshotIncludeIndex)
    (base' : short'.lastSnapshotIncludeIndex = short.lastSnapshotIncludeIndex)
    (baseTerm : short'.lastSnapshotIncludeTerm = short.lastSnapshotIncludeTerm)
    (term : short'.currentTerm = rf'.currentTerm) (votedFor : short'.votedFor = rf'.votedFor)
    (commitIndex : short'.commitIndex = rf'.commitIndex) : CutAt index rf' short' where
  contiguous := by
    rw [Contiguous, base, logs]
    exact cut.contiguous
  contiguous' := by
    rw [Contiguous, base', logs']
    exact cut.contiguous'
  above := by
    rw [base]
    exact cut.above
  base := base'.trans cut.base
  baseTerm := by
    obtain ⟨entry, found, same⟩ := cut.baseTerm
    refine ⟨entry, ?_, baseTerm.trans same⟩
    have contiguous : rf'.Contiguous := by
      rw [Contiguous, base, logs]
      exact cut.contiguous
    rw [Contiguous.logAtIndex contiguous, base, logs]
    exact (Contiguous.logAtIndex cut.contiguous).mp found
  logs := by
    rw [logs', base, logs]
    exact cut.logs
  term := term
  votedFor := votedFor
  commitIndex := commitIndex

theorem persist (cut : CutAt index rf short) : CutAt index rf.persist short.persist :=
  cut.congr rfl rfl rfl rfl rfl cut.term cut.votedFor cut.commitIndex

theorem length_logs (cut : CutAt index rf short) :
    rf.logs.length = cutOff index rf + short.logs.length := by
  have above := cut.above
  have inside := cut.inside
  have last := getLastLogIndex_of_numbered cut.contiguous
  rw [cut.logs, List.length_drop, cutOff]
  omega

/-- Entries behind the index are laid over both logs. -/
theorem overlay (cut : CutAt index rf short) {start : Nat} {entries : List LogEntry}
    (inside : start ≤ short.logs.length) (numbered : NumberedFrom (index + 1 + start) entries) :
    CutAt index
      { rf with logs := RaftCore.overlay rf.logs (cutOff index rf + start) entries }
      { short with logs := RaftCore.overlay short.logs start entries } := by
  have above := cut.above
  have length := cut.length_logs
  have inside' : cutOff index rf + start ≤ rf.logs.length := by omega
  have numbered' : NumberedFrom
      (rf.lastSnapshotIncludeIndex + 1 + (cutOff index rf + start : Nat)) entries := by
    have place : rf.lastSnapshotIncludeIndex + 1 + ((cutOff index rf + start : Nat) : Int) =
        index + 1 + start := by
      rw [cutOff]
      omega
    rw [place]
    exact numbered
  have contiguous := overlay_contiguous cut.contiguous inside' numbered'
  exact
    { contiguous := contiguous
      contiguous' := by
        rw [← cut.base] at numbered
        exact overlay_contiguous cut.contiguous' inside numbered
      above := above
      base := cut.base
      baseTerm := by
        obtain ⟨entry, found, term⟩ := cut.baseTerm
        obtain ⟨_, here⟩ := (Contiguous.logAtIndex cut.contiguous).mp found
        refine ⟨entry, (Contiguous.logAtIndex contiguous).mpr ⟨above, ?_⟩, term⟩
        rw [← here]
        apply overlay_getElem?_before inside'
        change (index - rf.lastSnapshotIncludeIndex - 1).toNat < _
        rw [cutOff]
        omega
      logs := by
        change RaftCore.overlay short.logs start entries = _
        rw [cut.logs]
        exact overlay_drop inside'
      term := cut.term
      votedFor := cut.votedFor
      commitIndex := cut.commitIndex }

end CutAt

/-! ## Snapshot -/

/-- The entries stand at the indexes behind the last snapshot, and the counters are
ordered. -/
structure Arranged (rf : Raft n) : Prop where
  logs : rf.Contiguous
  applied : rf.lastSnapshotIncludeIndex ≤ rf.lastApplied
  committed : rf.lastApplied ≤ rf.commitIndex
  stored : rf.commitIndex ≤ rf.getLastLogIndex

variable {rf : Raft n}

theorem Placed.arranged (placed : rf.Placed) : rf.Arranged :=
  ⟨placed.logs, placed.applied, placed.committed, placed.stored⟩

/-- The collected entries are the end of the log. -/
theorem collectLogs_eq_drop (contiguous : rf.Contiguous) {index : Int} {logs : List LogEntry}
    (above : rf.lastSnapshotIncludeIndex < index) (inside : index ≤ rf.getLastLogIndex)
    (collected : rf.collectLogs (index + 1) (rf.getLastLogIndex - index).toNat = .ok logs) :
    logs = rf.logs.drop (index - rf.lastSnapshotIncludeIndex).toNat := by
  have last := getLastLogIndex_of_numbered contiguous
  obtain ⟨length, access⟩ := collectLogs_eq collected
  apply List.ext_getElem?
  intro k
  rw [List.getElem?_drop]
  rcases lt_or_ge k logs.length with within | outside
  · rw [List.getElem?_eq_getElem within]
    obtain ⟨_, here⟩ := (Contiguous.logAtIndex contiguous).mp
      (access k _ (List.getElem?_eq_getElem within))
    rw [← here]
    congr 1
    omega
  · rw [List.getElem?_eq_none outside, List.getElem?_eq_none (by omega)]

/-- `Snapshot` cuts the log at a committed index. -/
theorem cutAt_compacted (contiguous : rf.Contiguous) {index : Int} {entry : LogEntry}
    {logs : List LogEntry} (data : Bytes) (above : rf.lastSnapshotIncludeIndex < index)
    (committed : index ≤ rf.commitIndex) (found : rf.logAtIndex index = .ok entry)
    (inside : index ≤ rf.getLastLogIndex)
    (collected : rf.collectLogs (index + 1) (rf.getLastLogIndex - index).toNat = .ok logs) :
    CutAt index rf ((rf.compacted index entry.logTerm logs).save data) := by
  have cut := collectLogs_eq_drop contiguous above inside collected
  exact
    { contiguous := contiguous
      contiguous' := by
        change NumberedFrom (index + 1) logs
        have place : index + 1 = rf.lastSnapshotIncludeIndex + 1 +
            ((index - rf.lastSnapshotIncludeIndex).toNat : Int) := by omega
        rw [cut, place]
        exact contiguous.drop _
      above := above
      base := rfl
      baseTerm := ⟨entry, found, rfl⟩
      logs := cut
      term := rfl
      votedFor := rfl
      commitIndex := max_eq_left committed }

end Raft

end CppRaft.RaftCore
