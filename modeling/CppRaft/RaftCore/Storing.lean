import CppRaft.RaftCore.LogView
import CppRaft.RaftCore.Overlay

/-!
# What the log operations do to the whole log

The loop of `AppendEntries1` writes the entries of the request over the whole
log and keeps what lies behind them.  `InstallSnapshot` keeps what lies behind
the snapshot.  Both are only right when what is kept agrees with the leader's
log; `LeavesStaleTail` and `KeepsUnmatchedSuffix` say when it visibly does not.
-/

namespace CppRaft.RaftCore

open CppRaft.Consensus
open CppRaft.Store

variable {n : Nat} {rf rf' : Raft n} {full : List LogEntry}

namespace Raft

/-! ## Conflicts with the sender's log -/

/-- The node holds an entry at `index` that has another term. -/
def ConflictsAt (rf : Raft n) (index term : Int) : Prop :=
  match rf.logAtIndex index with
  | .ok entry => entry.logTerm ≠ term
  | .error _ => False

instance (rf : Raft n) (index term : Int) : Decidable (rf.ConflictsAt index term) := by
  unfold ConflictsAt
  split <;> infer_instance

/-- The request reaches the loop of `AppendEntries1`, one of its entries
conflicts, and the log reaches past the last of them. -/
def LeavesStaleTail (rf : Raft n) (args : AppendEntriesArgs) : Prop :=
  rf.currentTerm ≤ args.term ∧ rf.matchLog args.prevLogIndex args.prevLogTerm = .ok true ∧
    (∃ log ∈ args.entries, rf.ConflictsAt log.logIndex log.logTerm) ∧
    args.prevLogIndex + args.entries.length < rf.getLastLogIndex

instance (rf : Raft n) (args : AppendEntriesArgs) : Decidable (rf.LeavesStaleTail args) := by
  unfold LeavesStaleTail
  infer_instance

/-- The snapshot of the request is new, the log reaches past it, and the entry
at its last index has another term. -/
def KeepsUnmatchedSuffix (rf : Raft n) (args : InstallSnapshotRequest) : Prop :=
  rf.currentTerm ≤ args.term ∧
    rf.lastSnapshotIncludeIndex < args.lastSnapShotIncludeIndex ∧
    args.lastSnapShotIncludeIndex < rf.getLastLogIndex ∧
    rf.ConflictsAt args.lastSnapShotIncludeIndex args.lastSnapShotIncludeTerm

instance (rf : Raft n) (args : InstallSnapshotRequest) :
    Decidable (rf.KeepsUnmatchedSuffix args) := by
  unfold KeepsUnmatchedSuffix
  infer_instance

theorem conflictsAt_of_found {index term : Int} {entry : LogEntry}
    (found : rf.logAtIndex index = .ok entry) :
    rf.ConflictsAt index term ↔ entry.logTerm ≠ term := by
  simp only [ConflictsAt, found]

/-! ## The loop of AppendEntries1 -/

/-- An entry that the log covers without a conflict changes nothing. -/
theorem appendEntry_of_no_conflict {log : LogEntry} (covered : log.logIndex ≤ rf.getLastLogIndex)
    (agrees : ¬ rf.ConflictsAt log.logIndex log.logTerm)
    (stored : rf.appendEntry log = .ok rf') : rf' = rf := by
  unfold appendEntry at stored
  rw [if_neg (by omega)] at stored
  simp only [bind_eq_ok] at stored
  obtain ⟨slice, sliced, old, found, _, _, final⟩ := stored
  have atIndex : rf.logAtIndex log.logIndex = .ok old := bind_eq_ok.mpr ⟨slice, sliced, found⟩
  rw [conflictsAt_of_found atIndex, not_not] at agrees
  rw [if_neg (by simpa using agrees), pure_eq_ok] at final
  exact final.symm

theorem appendEntriesLoop_of_no_conflict {entries : List LogEntry}
    (covered : ∀ log ∈ entries, log.logIndex ≤ rf.getLastLogIndex)
    (agrees : ∀ log ∈ entries, ¬ rf.ConflictsAt log.logIndex log.logTerm)
    (stored : rf.appendEntriesLoop entries = .ok rf') : rf' = rf := by
  induction entries with
  | nil =>
      cases stored
      rfl
  | cons log rest ih =>
      simp only [appendEntriesLoop, bind_eq_ok] at stored
      obtain ⟨middle, first, later⟩ := stored
      have same := appendEntry_of_no_conflict (covered log List.mem_cons_self)
        (agrees log List.mem_cons_self) first
      subst same
      exact ih (fun other member => covered other (List.mem_cons_of_mem log member))
        (fun other member => agrees other (List.mem_cons_of_mem log member)) later

end Raft

namespace LogView

theorem contiguous (view : LogView rf full) : rf.Contiguous := by
  have nonneg := view.snapshotNonneg
  apply numberedFrom_iff.mpr
  intro position entry found
  rw [view.logs, List.getElem?_drop] at found
  have index := view.indexed _ entry found
  omega

theorem length_logs (view : LogView rf full) :
    rf.lastSnapshotIncludeIndex + rf.logs.length = full.length :=
  (Raft.getLastLogIndex_of_numbered view.contiguous).symm.trans view.getLastLogIndex

/-- The loop lays the entries, which stand at the indexes from `k + 1` on, over
the whole log. -/
theorem appendEntriesLoop (view : LogView rf full) {k : Nat} {entries : List LogEntry}
    (above : rf.lastSnapshotIncludeIndex ≤ k) (below : k ≤ full.length)
    (index : ∀ (j : Nat) (log : LogEntry), entries[j]? = some log →
      log.logIndex = (k + j : Nat) + 1)
    (stored : rf.appendEntriesLoop entries = .ok rf') : LogView rf' (overlay full k entries) := by
  have nonneg := view.snapshotNonneg
  have length := view.length_logs
  obtain ⟨start, place⟩ := Nat.exists_eq_add_of_le
    (show rf.lastSnapshotIncludeIndex.toNat ≤ k by omega)
  have inside : start ≤ rf.logs.length := by omega
  have numbered : NumberedFrom (rf.lastSnapshotIncludeIndex + 1 + start) entries := by
    apply numberedFrom_iff.mpr
    intro j log found
    rw [index j log found]
    omega
  rw [Raft.appendEntriesLoop_overlay view.contiguous inside numbered stored]
  apply view.withLogs
  · intro position entry found
    rcases lt_or_ge position k with before | notBefore
    · rw [overlay_getElem?_before below before] at found
      exact view.indexed position entry found
    · rcases lt_or_ge position (k + entries.length) with within | behind
      · obtain ⟨offset, rfl⟩ := Nat.exists_eq_add_of_le notBefore
        rw [overlay_getElem?_within below (by omega)] at found
        exact index offset entry found
      · rw [overlay_getElem?_behind below behind] at found
        exact view.indexed position entry found
  · rw [length_overlay below]
    omega
  · rw [overlay, List.append_assoc, List.take_append_of_le_length (by simp; omega),
      List.take_take, Nat.min_eq_left (by omega)]
  · rw [view.logs, overlay_drop (by omega), place]

/-- Storing the entries `k + 1` to `m` of a leader's log `l`, when the first `k`
agree: the log stays if it has them all, and otherwise, unless it has a
conflict and a tail behind it, becomes the first `m` entries of `l`. -/
theorem store_offer (view : LogView rf full) {l : List LogEntry} (indexed : Indexed l) {k m : Nat}
    (ordered : k ≤ m) (bounded : m ≤ l.length) (above : rf.lastSnapshotIncludeIndex ≤ k)
    (below : k ≤ full.length) (shared : full.take k = l.take k)
    (stored : rf.appendEntriesLoop ((l.take m).drop k) = .ok rf')
    (noTail : m < full.length →
      ∀ log ∈ (l.take m).drop k, ¬ rf.ConflictsAt log.logIndex log.logTerm) :
    l.take m <+: full ∧ LogView rf' full ∨ ¬ l.take m <+: full ∧ LogView rf' (l.take m) := by
  have nonneg := view.snapshotNonneg
  have takeLength : (l.take m).length = m := by simp [bounded]
  have index : ∀ (j : Nat) (log : LogEntry), ((l.take m).drop k)[j]? = some log →
      log.logIndex = (k + j : Nat) + 1 := by
    intro j log found
    rw [List.getElem?_drop] at found
    exact indexed.of_isPrefix (List.take_prefix m l) (k + j) log found
  have written := view.appendEntriesLoop above below index stored
  have offered : full.take k ++ (l.take m).drop k = l.take m := by
    have same : full.take k = (l.take m).take k := by
      rw [shared, List.take_take, Nat.min_eq_left ordered]
    rw [same, List.take_append_drop]
  have entryCount : k + ((l.take m).drop k).length = m := by
    rw [List.length_drop, takeLength]
    omega
  rw [overlay, offered, entryCount] at written
  by_cases contained : l.take m <+: full
  · refine Or.inl ⟨contained, ?_⟩
    obtain ⟨rest, rfl⟩ := contained
    rwa [List.drop_append_of_le_length takeLength.ge, List.drop_of_length_le takeLength.le,
      List.nil_append] at written
  · refine Or.inr ⟨contained, ?_⟩
    rcases le_or_gt full.length m with short | long
    · rwa [List.drop_of_length_le short, List.append_nil] at written
    · -- Without a conflict the loop leaves the log alone.
      have same : rf' = rf := by
        refine Raft.appendEntriesLoop_of_no_conflict ?_ (noTail long) stored
        intro log member
        obtain ⟨j, found⟩ := List.getElem?_of_mem member
        have inside := (List.getElem?_eq_some_iff.mp found).1
        rw [index j log found, view.getLastLogIndex]
        omega
      subst same
      have behind := view.logs.symm.trans written.logs
      have before : full.take rf'.lastSnapshotIncludeIndex.toNat =
          (l.take m ++ full.drop m).take rf'.lastSnapshotIncludeIndex.toNat := by
        have small : rf'.lastSnapshotIncludeIndex.toNat ≤ k := by omega
        rw [List.take_append_of_le_length (by omega), List.take_take,
          Nat.min_eq_left (by omega), ← Nat.min_eq_left small, ← List.take_take, shared,
          List.take_take]
      have whole : full = l.take m ++ full.drop m :=
        calc
          full = full.take rf'.lastSnapshotIncludeIndex.toNat ++
              full.drop rf'.lastSnapshotIncludeIndex.toNat := (List.take_append_drop _ _).symm
          _ = (l.take m ++ full.drop m).take rf'.lastSnapshotIncludeIndex.toNat ++
              (l.take m ++ full.drop m).drop rf'.lastSnapshotIncludeIndex.toNat :=
            congrArg₂ (· ++ ·) before behind
          _ = l.take m ++ full.drop m := List.take_append_drop _ _
      exact absurd ⟨full.drop m, whole.symm⟩ contained

/-! ## New entries -/

theorem newLogEntry (view : LogView rf full) (command : Bytes) :
    LogView { rf with logs := rf.logs ++ [rf.newLogEntry command] }
      (full ++ [rf.newLogEntry command]) := by
  have nonneg := view.snapshotNonneg
  have bound := view.snapshotBound
  have place : (rf.newLogEntry command).logIndex = (full.length : Int) + 1 := by
    simp only [Raft.newLogEntry, Raft.getNewCommandIndex, view.getLastLogIndex]
  apply view.withLogs (view.indexed.concat place)
  · rw [List.length_append]
    omega
  · rw [List.take_append_of_le_length (by omega)]
  · rw [List.drop_append_of_le_length (by omega), view.logs]

/-! ## Snapshots -/

/-- A snapshot that covers the log replaces it. -/
theorem install_over (view : LogView rf full) {args : InstallSnapshotRequest} {l : List LogEntry}
    (indexed : Indexed l) (index : args.lastSnapShotIncludeIndex = l.length)
    (term : args.lastSnapShotIncludeTerm = lastTerm l)
    (covered : rf.lastSnapshotIncludeIndex < args.lastSnapShotIncludeIndex) :
    LogView (rf.withSnapshot args []) l where
  indexed := indexed
  snapshotNonneg := view.snapshotNonneg.trans covered.le
  snapshotBound := index.le
  snapshotTerm := by
    change args.lastSnapShotIncludeTerm = lastTerm (l.take args.lastSnapShotIncludeIndex.toNat)
    rw [term, index, Int.toNat_natCast, List.take_length]
  logs := by
    change [] = l.drop args.lastSnapShotIncludeIndex.toNat
    rw [index, Int.toNat_natCast, List.drop_length]

/-- A snapshot that the log agrees with compacts it. -/
theorem install_within (view : LogView rf full) {args : InstallSnapshotRequest}
    (covered : rf.lastSnapshotIncludeIndex < args.lastSnapShotIncludeIndex)
    (inside : args.lastSnapShotIncludeIndex < full.length)
    (term : args.lastSnapShotIncludeTerm =
      lastTerm (full.take args.lastSnapShotIncludeIndex.toNat)) :
    LogView (rf.withSnapshot args (rf.logs.drop
      ((args.lastSnapShotIncludeIndex - rf.lastSnapshotIncludeIndex - 1).toNat + 1))) full where
  indexed := view.indexed
  snapshotNonneg := view.snapshotNonneg.trans covered.le
  snapshotBound := inside.le
  snapshotTerm := term
  logs := by
    have nonneg := view.snapshotNonneg
    change rf.logs.drop _ = full.drop args.lastSnapShotIncludeIndex.toNat
    rw [view.logs, List.drop_drop]
    congr 1
    omega

theorem collectLogs (view : LogView rf full) {k count : Nat} {logs : List LogEntry}
    (whole : k + count = full.length)
    (collected : rf.collectLogs ((k : Int) + 1) count = .ok logs) : logs = full.drop k := by
  induction count generalizing k logs with
  | zero =>
      cases collected
      rw [List.drop_of_length_le (by omega)]
  | succ count ih =>
      simp only [Raft.collectLogs, bind_eq_ok, pure_eq_ok] at collected
      obtain ⟨entry, found, rest, later, rfl⟩ := collected
      obtain ⟨_, found⟩ := view.logAtIndex.mp found
      have position : ((k : Int) + 1).toNat - 1 = k := by omega
      rw [position] at found
      obtain ⟨inside, rfl⟩ := List.getElem?_eq_some_iff.mp found
      rw [ih (show k + 1 + count = full.length by omega) later, List.drop_eq_getElem_cons inside]

/-- `Snapshot` compacts the log and keeps the whole one. -/
theorem compacted (view : LogView rf full) {index : Int} {entry : LogEntry} {logs : List LogEntry}
    (above : rf.lastSnapshotIncludeIndex < index) (found : rf.logAtIndex index = .ok entry)
    (collected : rf.collectLogs (index + 1) (rf.getLastLogIndex - index).toNat = .ok logs) :
    LogView (rf.compacted index entry.logTerm logs) full := by
  have nonneg := view.snapshotNonneg
  obtain ⟨_, found⟩ := view.logAtIndex.mp found
  have inside := (List.getElem?_eq_some_iff.mp found).1
  have position : index.toNat - 1 + 1 = index.toNat := by omega
  have cast : (index.toNat : Int) = index := by omega
  rw [view.getLastLogIndex, ← cast] at collected
  exact
    { indexed := view.indexed
      snapshotNonneg := nonneg.trans above.le
      snapshotBound := by
        change index ≤ _
        omega
      snapshotTerm := by
        change entry.logTerm = lastTerm (full.take index.toNat)
        rw [← position, lastTerm_take found, termOf_eq_logTerm]
      logs := by
        change logs = full.drop index.toNat
        exact view.collectLogs (by omega) collected }

/-! ## What is sent and applied -/

/-- An AppendEntries request carries everything from some position on. -/
theorem heartBeatTo (view : LogView rf full) {server : Fin n} {args : AppendEntriesArgs}
    (built : rf.heartBeatTo server = .ok (.appendEntries args)) :
    ∃ k : Nat, k ≤ full.length ∧ args.term = rf.currentTerm ∧ args.prevLogIndex = k ∧
      args.prevLogTerm = lastTerm (full.take k) ∧ args.entries = full.drop k ∧
      args.leaderCommit = rf.commitIndex := by
  have nonneg := view.snapshotNonneg
  have bound := view.snapshotBound
  simp only [Raft.heartBeatTo, bind_eq_ok] at built
  obtain ⟨_, _, built⟩ := built
  split at built
  · cases built
  · simp only [bind_eq_ok] at built
    obtain ⟨⟨preLogIndex, prevLogTerm⟩, previous, built⟩ := built
    -- The previous entry is the last one of a prefix of the whole log.
    have before : rf.lastSnapshotIncludeIndex ≤ preLogIndex ∧ preLogIndex ≤ full.length ∧
        prevLogTerm = lastTerm (full.take preLogIndex.toNat) := by
      unfold Raft.getPrevLogInfo at previous
      split at previous
      · cases previous
        exact ⟨le_rfl, bound, view.snapshotTerm⟩
      · simp only [bind_eq_ok, pure_eq_ok] at previous
        obtain ⟨entry, found, same⟩ := previous
        cases same
        obtain ⟨above, found⟩ := view.logAtIndex.mp found
        have inside := (List.getElem?_eq_some_iff.mp found).1
        have position :
            (rf.nextIndex server - 1).toNat - 1 + 1 = (rf.nextIndex server - 1).toNat := by
          omega
        refine ⟨by omega, by omega, ?_⟩
        rw [← position, lastTerm_take found, termOf_eq_logTerm]
    obtain ⟨above, below, term⟩ := before
    split at built
    · simp only [bind_eq_ok, pure_eq_ok] at built
      obtain ⟨slice, sliced, _, rfl, _, _, final⟩ := built
      obtain ⟨_, _, rfl⟩ := view.getSlicesIndexFromLogIndex.mp sliced
      cases final
      refine ⟨preLogIndex.toNat, by omega, rfl, by simp only; omega, term, ?_, rfl⟩
      simp only [view.logs, List.drop_drop]
      congr 1
      omega
    · rename_i atSnapshot
      simp only [bind_eq_ok, pure_eq_ok] at built
      obtain ⟨_, rfl, _, _, final⟩ := built
      cases final
      refine ⟨preLogIndex.toNat, by omega, rfl, by simp only; omega, term, ?_, rfl⟩
      simp only [ne_eq, not_not] at atSnapshot
      simp only [view.logs, atSnapshot]

/-- Every message of `getApplyLogs` carries the command of an entry up to the
commit index. -/
theorem applyLoop (view : LogView rf full) {count : Nat} {applyMsgs : List ApplyMsg}
    (applied : rf.applyLoop count = .ok (rf', applyMsgs)) :
    ∀ msg ∈ applyMsgs, ∃ (k : Nat) (entry : LogEntry), full[k]? = some entry ∧
      msg.commandIndex = (k : Int) + 1 ∧ msg.command = entry.command ∧
      rf.lastApplied < (k : Int) + 1 ∧ (k : Int) + 1 ≤ rf.lastApplied + count := by
  induction count generalizing rf applyMsgs with
  | zero =>
      cases applied
      simp
  | succ count ih =>
      simp only [Raft.applyLoop, bind_eq_ok] at applied
      obtain ⟨entry, found, _, _, ⟨_, later⟩, rest, final⟩ := applied
      cases final
      have moved : LogView { rf with lastApplied := rf.lastApplied + 1 } full :=
        view.congr rfl rfl rfl
      intro msg member
      rcases List.mem_cons.mp member with rfl | member
      · obtain ⟨above, found⟩ := moved.logAtIndex.mp found
        have nonneg := moved.snapshotNonneg
        simp only at above nonneg ⊢
        exact ⟨_, entry, found, by omega, rfl, by omega, by omega⟩
      · obtain ⟨k, entry', found', index, command, later, bound⟩ := ih moved rest msg member
        simp only at later bound
        exact ⟨k, entry', found', index, command, by omega, by omega⟩

end LogView

end CppRaft.RaftCore
