import CppRaft.Consensus.Prefix
import CppRaft.RaftCore.Outcome

/-!
# The whole log behind a compacted one

A node keeps the entries after its last snapshot.  `LogView` relates it to a
whole log, in which an entry stands at the position given by its index, and
describes the accessors of the node by the whole log.
-/

namespace CppRaft.RaftCore

open CppRaft.Consensus
open CppRaft.Store

variable {n : Nat}

instance : Termed LogEntry :=
  ⟨LogEntry.logTerm⟩

theorem termOf_eq_logTerm (entry : LogEntry) : termOf entry = entry.logTerm :=
  rfl

/-- Every entry carries the index of its position. -/
def Indexed (l : List LogEntry) : Prop :=
  ∀ (k : Nat) (entry : LogEntry), l[k]? = some entry → entry.logIndex = (k : Int) + 1

theorem Indexed.of_isPrefix {p l : List LogEntry} (indexed : Indexed l) (inside : p <+: l) :
    Indexed p := by
  intro k entry found
  obtain ⟨rest, rfl⟩ := inside
  have inside := (List.getElem?_eq_some_iff.mp found).1
  exact indexed k entry (by rw [List.getElem?_append_left inside, found])

theorem Indexed.concat {l : List LogEntry} (indexed : Indexed l) {entry : LogEntry}
    (next : entry.logIndex = (l.length : Int) + 1) : Indexed (l ++ [entry]) := by
  intro k entry' found
  rcases lt_or_ge k l.length with inside | outside
  · rw [List.getElem?_append_left inside] at found
    exact indexed k entry' found
  · rw [List.getElem?_append_right outside] at found
    have atEnd : k = l.length := by
      have bound := (List.getElem?_eq_some_iff.mp found).1
      simp only [List.length_singleton] at bound
      omega
    subst atEnd
    simp only [Nat.sub_self, List.getElem?_cons_zero, Option.some.injEq] at found
    rw [← found, next]

/-- The node keeps the entries of `full` after its last snapshot. -/
structure LogView (rf : Raft n) (full : List LogEntry) : Prop where
  indexed : Indexed full
  snapshotNonneg : 0 ≤ rf.lastSnapshotIncludeIndex
  snapshotBound : rf.lastSnapshotIncludeIndex ≤ full.length
  snapshotTerm :
    rf.lastSnapshotIncludeTerm = lastTerm (full.take rf.lastSnapshotIncludeIndex.toNat)
  logs : rf.logs = full.drop rf.lastSnapshotIncludeIndex.toNat

namespace LogView

variable {rf rf' : Raft n} {full : List LogEntry}

theorem congr (view : LogView rf full) (logs : rf'.logs = rf.logs)
    (index : rf'.lastSnapshotIncludeIndex = rf.lastSnapshotIncludeIndex)
    (term : rf'.lastSnapshotIncludeTerm = rf.lastSnapshotIncludeTerm) : LogView rf' full where
  indexed := view.indexed
  snapshotNonneg := by rw [index]; exact view.snapshotNonneg
  snapshotBound := by rw [index]; exact view.snapshotBound
  snapshotTerm := by rw [index, term]; exact view.snapshotTerm
  logs := by rw [index, logs]; exact view.logs

/-- The log changes behind the last snapshot. -/
theorem withLogs (view : LogView rf full) {full' logs : List LogEntry} (indexed : Indexed full')
    (bound : rf.lastSnapshotIncludeIndex ≤ full'.length)
    (keeps : full'.take rf.lastSnapshotIncludeIndex.toNat =
      full.take rf.lastSnapshotIncludeIndex.toNat)
    (behind : logs = full'.drop rf.lastSnapshotIncludeIndex.toNat) :
    LogView { rf with logs := logs } full' where
  indexed := indexed
  snapshotNonneg := view.snapshotNonneg
  snapshotBound := bound
  snapshotTerm := view.snapshotTerm.trans (congrArg lastTerm keeps.symm)
  logs := behind

/-! ## The accessors -/

theorem getLastLogIndexAndTerm (view : LogView rf full) :
    rf.getLastLogIndexAndTerm = ((full.length : Int), lastTerm full) := by
  have nonneg := view.snapshotNonneg
  have bound := view.snapshotBound
  unfold Raft.getLastLogIndexAndTerm
  rw [view.logs, List.getLast?_drop]
  by_cases compacted : full.length ≤ rf.lastSnapshotIncludeIndex.toNat
  · have whole : rf.lastSnapshotIncludeIndex = full.length := by omega
    rw [if_pos compacted, view.snapshotTerm, whole, Int.toNat_natCast, List.take_length]
  · rw [if_neg compacted]
    have inside : full.length - 1 < full.length := by omega
    have last : full.getLast? = some full[full.length - 1] := by
      rw [List.getLast?_eq_getElem?, List.getElem?_eq_getElem inside]
    have index := view.indexed _ _ (List.getElem?_eq_getElem inside)
    rw [last, lastTerm, last]
    simp only [Option.map_some, Option.getD_some, termOf_eq_logTerm, Prod.mk.injEq, and_true]
    omega

theorem getLastLogIndex (view : LogView rf full) : rf.getLastLogIndex = full.length := by
  rw [Raft.getLastLogIndex, view.getLastLogIndexAndTerm]

theorem getSlicesIndexFromLogIndex (view : LogView rf full) {index : Int} {slice : Nat} :
    rf.getSlicesIndexFromLogIndex index = .ok slice ↔
      rf.lastSnapshotIncludeIndex < index ∧ index ≤ full.length ∧
        slice = (index - rf.lastSnapshotIncludeIndex - 1).toNat := by
  simp only [Raft.getSlicesIndexFromLogIndex, bind_eq_ok, myAssert_eq_ok, pure_eq_ok,
    view.getLastLogIndex]
  constructor
  · rintro ⟨_, above, _, below, rfl⟩
    exact ⟨above, below, rfl⟩
  · rintro ⟨above, below, rfl⟩
    exact ⟨(), above, (), below, rfl⟩

theorem logAt (view : LogView rf full) {slice : Nat} {entry : LogEntry} :
    rf.logAt slice = .ok entry ↔
      full[rf.lastSnapshotIncludeIndex.toNat + slice]? = some entry := by
  unfold Raft.logAt
  rw [view.logs, List.getElem?_drop]
  cases full[rf.lastSnapshotIncludeIndex.toNat + slice]? <;> simp

theorem logAtIndex (view : LogView rf full) {index : Int} {entry : LogEntry} :
    rf.logAtIndex index = .ok entry ↔
      rf.lastSnapshotIncludeIndex < index ∧ full[index.toNat - 1]? = some entry := by
  have nonneg := view.snapshotNonneg
  unfold Raft.logAtIndex
  rw [bind_eq_ok]
  constructor
  · rintro ⟨slice, sliced, found⟩
    obtain ⟨above, _, rfl⟩ := view.getSlicesIndexFromLogIndex.mp sliced
    rw [view.logAt] at found
    refine ⟨above, ?_⟩
    rw [← found]
    congr 1
    omega
  · rintro ⟨above, found⟩
    have inside := (List.getElem?_eq_some_iff.mp found).1
    refine ⟨_, view.getSlicesIndexFromLogIndex.mpr ⟨above, by omega, rfl⟩, ?_⟩
    rw [view.logAt, ← found]
    congr 1
    omega

theorem getLogTermFromLogIndex (view : LogView rf full) {index term : Int}
    (read : rf.getLogTermFromLogIndex index = .ok term) :
    rf.lastSnapshotIncludeIndex ≤ index ∧ index ≤ full.length ∧
      term = lastTerm (full.take index.toNat) := by
  have nonneg := view.snapshotNonneg
  simp only [Raft.getLogTermFromLogIndex, bind_eq_ok, myAssert_eq_ok, view.getLastLogIndex] at read
  obtain ⟨_, above, _, below, final⟩ := read
  refine ⟨above, below, ?_⟩
  split at final
  · rename_i atSnapshot
    rw [pure_eq_ok] at final
    rw [← final, view.snapshotTerm, atSnapshot]
  · simp only [bind_eq_ok, pure_eq_ok] at final
    obtain ⟨entry, found, rfl⟩ := final
    obtain ⟨later, found⟩ := view.logAtIndex.mp found
    have position : index.toNat = index.toNat - 1 + 1 := by omega
    rw [position, lastTerm_take found, termOf_eq_logTerm]

theorem matchLog (view : LogView rf full) {index term : Int}
    (matched : rf.matchLog index term = .ok true) :
    rf.lastSnapshotIncludeIndex ≤ index ∧ index ≤ full.length ∧
      term = lastTerm (full.take index.toNat) := by
  simp only [Raft.matchLog, bind_eq_ok, pure_eq_ok, decide_eq_true_eq] at matched
  obtain ⟨_, _, term', read, same⟩ := matched
  rw [same]
  exact view.getLogTermFromLogIndex read

end LogView

end CppRaft.RaftCore
