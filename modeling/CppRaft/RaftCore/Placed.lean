import CppRaft.RaftCore.Outcome
import Mathlib.Data.Int.Order.Basic

/-!
# The indexes of a node

The entries of `m_logs` stand at the indexes after the last snapshot, and the
counters of the node are ordered.  Every critical section keeps this and moves
the counters forward only.  The one thing that is asked of a message is that
the entries of an `AppendEntries` request are numbered from the index after
`PrevLogIndex` on.
-/

namespace CppRaft.RaftCore

open CppRaft.Store

variable {n : Nat}

/-! ## Numbered entries -/

/-- The entries are numbered one by one from `next` on. -/
def NumberedFrom (next : Int) : List LogEntry → Prop
  | [] => True
  | entry :: rest => entry.logIndex = next ∧ NumberedFrom (next + 1) rest

instance decidableNumberedFrom :
    (next : Int) → (entries : List LogEntry) → Decidable (NumberedFrom next entries)
  | _, [] => isTrue trivial
  | next, entry :: rest =>
      match decEq entry.logIndex next, decidableNumberedFrom (next + 1) rest with
      | isTrue here, isTrue later => isTrue ⟨here, later⟩
      | isFalse other, _ => isFalse fun both => other both.1
      | _, isFalse other => isFalse fun both => other both.2

theorem numberedFrom_iff {next : Int} {entries : List LogEntry} :
    NumberedFrom next entries ↔
      ∀ (k : Nat) (entry : LogEntry), entries[k]? = some entry → entry.logIndex = next + k := by
  induction entries generalizing next with
  | nil => simp [NumberedFrom]
  | cons first rest ih =>
      constructor
      · rintro ⟨here, later⟩ k entry found
        cases k with
        | zero =>
            rw [List.getElem?_cons_zero, Option.some.injEq] at found
            rw [← found, here]
            simp
        | succ k =>
            have index := ih.mp later k entry found
            push_cast
            omega
      · intro index
        constructor
        · simpa using index 0 first rfl
        · apply ih.mpr
          intro k entry found
          have index := index (k + 1) entry found
          push_cast at index
          omega

theorem NumberedFrom.append {next : Int} {front back : List LogEntry}
    (numbered : NumberedFrom next front) (later : NumberedFrom (next + front.length) back) :
    NumberedFrom next (front ++ back) := by
  induction front generalizing next with
  | nil => simpa using later
  | cons entry rest ih =>
      apply And.intro numbered.1
      apply ih numbered.2
      rw [List.length_cons] at later
      push_cast at later
      rwa [show next + 1 + (rest.length : Int) = next + ((rest.length : Int) + 1) by omega]

theorem NumberedFrom.drop {next : Int} {entries : List LogEntry}
    (numbered : NumberedFrom next entries) (count : Nat) :
    NumberedFrom (next + count) (entries.drop count) := by
  apply numberedFrom_iff.mpr
  intro k entry found
  rw [List.getElem?_drop] at found
  have index := numberedFrom_iff.mp numbered _ entry found
  push_cast at index
  omega

/-- The entries behind an index are a suffix. -/
theorem NumberedFrom.filter_behind {next : Int} {entries : List LogEntry}
    (numbered : NumberedFrom next entries) (index : Int) :
    entries.filter (fun entry => decide (index < entry.logIndex)) =
      entries.drop (index + 1 - next).toNat := by
  induction entries generalizing next with
  | nil => simp
  | cons first rest ih =>
      obtain ⟨here, later⟩ := numbered
      by_cases behind : index < first.logIndex
      · have nothing : (index + 1 - next).toNat = 0 := by omega
        have nothingMore : (index + 1 - (next + 1)).toNat = 0 := by omega
        rw [List.filter_cons_of_pos (by simpa using behind), ih later, nothing, nothingMore,
          List.drop_zero, List.drop_zero]
      · have more : (index + 1 - next).toNat = (index + 1 - (next + 1)).toNat + 1 := by omega
        rw [List.filter_cons_of_neg (by simpa using behind), ih later, more, List.drop_succ_cons]

theorem NumberedFrom.mem_range {next : Int} {entries : List LogEntry}
    (numbered : NumberedFrom next entries) {entry : LogEntry} (member : entry ∈ entries) :
    next ≤ entry.logIndex ∧ entry.logIndex < next + entries.length := by
  obtain ⟨k, found⟩ := List.mem_iff_getElem?.mp member
  have index := numberedFrom_iff.mp numbered k entry found
  have inside := (List.getElem?_eq_some_iff.mp found).1
  omega

/-- The index of an entry determines its position. -/
theorem NumberedFrom.eq_of_index {next : Int} {entries : List LogEntry}
    (numbered : NumberedFrom next entries) {entry entry' : LogEntry} (member : entry ∈ entries)
    (member' : entry' ∈ entries) (same : entry.logIndex = entry'.logIndex) : entry = entry' := by
  obtain ⟨k, found⟩ := List.mem_iff_getElem?.mp member
  obtain ⟨k', found'⟩ := List.mem_iff_getElem?.mp member'
  have index := numberedFrom_iff.mp numbered k entry found
  have index' := numberedFrom_iff.mp numbered k' entry' found'
  have samePosition : k = k' := by omega
  subst samePosition
  rw [found, Option.some.injEq] at found'
  exact found'

/-- The entries of a request are numbered from the one after `PrevLogIndex`. -/
def AppendEntriesArgs.Numbered (args : AppendEntriesArgs) : Prop :=
  NumberedFrom (args.prevLogIndex + 1) args.entries

instance (args : AppendEntriesArgs) : Decidable args.Numbered :=
  decidableNumberedFrom _ _

namespace Raft

/-! ## The invariant of a node -/

/-- The entries stand at the indexes after the last snapshot, and the counters
are ordered. -/
structure Placed (rf : Raft n) : Prop where
  base : 0 ≤ rf.lastSnapshotIncludeIndex
  baseTerm : rf.lastSnapshotIncludeIndex = 0 → rf.lastSnapshotIncludeTerm = 0
  logs : NumberedFrom (rf.lastSnapshotIncludeIndex + 1) rf.logs
  applied : rf.lastSnapshotIncludeIndex ≤ rf.lastApplied
  committed : rf.lastApplied ≤ rf.commitIndex
  stored : rf.commitIndex ≤ rf.getLastLogIndex

/-- The counters of `rf'` are those of `rf` or later ones. -/
structure Advances (rf rf' : Raft n) : Prop where
  term : rf.currentTerm ≤ rf'.currentTerm
  snapshot : rf.lastSnapshotIncludeIndex ≤ rf'.lastSnapshotIncludeIndex
  applied : rf.lastApplied ≤ rf'.lastApplied
  committed : rf.commitIndex ≤ rf'.commitIndex
  last : rf.getLastLogIndex ≤ rf'.getLastLogIndex

theorem Advances.refl (rf : Raft n) : Advances rf rf :=
  ⟨le_rfl, le_rfl, le_rfl, le_rfl, le_rfl⟩

theorem Advances.trans {rf rf' rf'' : Raft n} (first : Advances rf rf')
    (second : Advances rf' rf'') : Advances rf rf'' where
  term := first.term.trans second.term
  snapshot := first.snapshot.trans second.snapshot
  applied := first.applied.trans second.applied
  committed := first.committed.trans second.committed
  last := first.last.trans second.last

/-- `rf'` has the log and the counters of `rf`, and its term or a later one. -/
structure Keeps (rf rf' : Raft n) : Prop where
  logs : rf'.logs = rf.logs
  index : rf'.lastSnapshotIncludeIndex = rf.lastSnapshotIncludeIndex
  snapshotTerm : rf'.lastSnapshotIncludeTerm = rf.lastSnapshotIncludeTerm
  applied : rf'.lastApplied = rf.lastApplied
  committed : rf'.commitIndex = rf.commitIndex
  term : rf.currentTerm ≤ rf'.currentTerm

theorem Keeps.refl (rf : Raft n) : Keeps rf rf :=
  ⟨rfl, rfl, rfl, rfl, rfl, le_rfl⟩

theorem Keeps.trans {rf rf' rf'' : Raft n} (first : Keeps rf rf') (second : Keeps rf' rf'') :
    Keeps rf rf'' where
  logs := second.logs.trans first.logs
  index := second.index.trans first.index
  snapshotTerm := second.snapshotTerm.trans first.snapshotTerm
  applied := second.applied.trans first.applied
  committed := second.committed.trans first.committed
  term := first.term.trans second.term

theorem getLastLogIndex_congr {rf rf' : Raft n} (logs : rf'.logs = rf.logs)
    (index : rf'.lastSnapshotIncludeIndex = rf.lastSnapshotIncludeIndex) :
    rf'.getLastLogIndex = rf.getLastLogIndex := by
  unfold getLastLogIndex getLastLogIndexAndTerm
  rw [logs, index]
  cases rf.logs.getLast? with
  | none => rfl
  | some entry => rfl

theorem Keeps.getLastLogIndex {rf rf' : Raft n} (keeps : Keeps rf rf') :
    rf'.getLastLogIndex = rf.getLastLogIndex :=
  getLastLogIndex_congr keeps.logs keeps.index

theorem Keeps.placed {rf rf' : Raft n} (keeps : Keeps rf rf') (placed : rf.Placed) :
    rf'.Placed where
  base := by rw [keeps.index]; exact placed.base
  baseTerm := by rw [keeps.index, keeps.snapshotTerm]; exact placed.baseTerm
  logs := by rw [keeps.index, keeps.logs]; exact placed.logs
  applied := by rw [keeps.index, keeps.applied]; exact placed.applied
  committed := by rw [keeps.applied, keeps.committed]; exact placed.committed
  stored := by rw [keeps.getLastLogIndex, keeps.committed]; exact placed.stored

theorem Keeps.advances {rf rf' : Raft n} (keeps : Keeps rf rf') : Advances rf rf' where
  term := keeps.term
  snapshot := keeps.index.ge
  applied := keeps.applied.ge
  committed := keeps.committed.ge
  last := keeps.getLastLogIndex.ge

theorem placed_init (me : Fin n) : (init me none).Placed where
  base := le_rfl
  baseTerm := fun _ => rfl
  logs := trivial
  applied := le_rfl
  committed := le_rfl
  stored := le_rfl

/-! ## The accessors of a node with placed entries -/

/-- The entries stand one by one at the indexes after the last snapshot. -/
abbrev Contiguous (rf : Raft n) : Prop :=
  NumberedFrom (rf.lastSnapshotIncludeIndex + 1) rf.logs

section Accessors

variable {rf : Raft n}

theorem getLastLogIndex_of_numbered (numbered : rf.Contiguous) :
    rf.getLastLogIndex = rf.lastSnapshotIncludeIndex + rf.logs.length := by
  unfold Raft.getLastLogIndex getLastLogIndexAndTerm
  cases last : rf.logs.getLast? with
  | none =>
      rw [List.getLast?_eq_none_iff.mp last]
      simp
  | some entry =>
      rw [List.getLast?_eq_getElem?] at last
      have index := numberedFrom_iff.mp numbered _ entry last
      have inside := (List.getElem?_eq_some_iff.mp last).1
      change entry.logIndex = _
      omega

theorem Placed.getLastLogIndex (placed : rf.Placed) :
    rf.getLastLogIndex = rf.lastSnapshotIncludeIndex + rf.logs.length :=
  getLastLogIndex_of_numbered placed.logs

theorem Placed.index_range (placed : rf.Placed) {entry : LogEntry} (member : entry ∈ rf.logs) :
    rf.lastSnapshotIncludeIndex < entry.logIndex ∧ entry.logIndex ≤ rf.getLastLogIndex := by
  have range := placed.logs.mem_range member
  have last := placed.getLastLogIndex
  omega

/-- The access `m_logs[getSlicesIndexFromLogIndex(index)]` by positions. -/
theorem Contiguous.logAtIndex (contiguous : rf.Contiguous) {index : Int} {entry : LogEntry} :
    rf.logAtIndex index = .ok entry ↔
      rf.lastSnapshotIncludeIndex < index ∧
        rf.logs[(index - rf.lastSnapshotIncludeIndex - 1).toNat]? = some entry := by
  have last := getLastLogIndex_of_numbered contiguous
  simp only [Raft.logAtIndex, getSlicesIndexFromLogIndex, bind_eq_ok, myAssert_eq_ok, pure_eq_ok]
  constructor
  · rintro ⟨_, ⟨_, above, _, _, rfl⟩, found⟩
    refine ⟨above, ?_⟩
    unfold logAt at found
    split at found
    · cases found
    · rename_i here
      cases found
      exact here
  · rintro ⟨above, found⟩
    have inside := (List.getElem?_eq_some_iff.mp found).1
    refine ⟨_, ⟨(), above, (), by omega, rfl⟩, ?_⟩
    rw [logAt, found]

theorem Contiguous.logAtIndex_iff_mem (contiguous : rf.Contiguous) {index : Int}
    {entry : LogEntry} :
    rf.logAtIndex index = .ok entry ↔ entry ∈ rf.logs ∧ entry.logIndex = index := by
  rw [contiguous.logAtIndex]
  constructor
  · rintro ⟨above, found⟩
    have place := numberedFrom_iff.mp contiguous _ _ found
    exact ⟨List.mem_of_getElem? found, by omega⟩
  · rintro ⟨member, rfl⟩
    obtain ⟨k, found⟩ := List.mem_iff_getElem?.mp member
    have place := numberedFrom_iff.mp contiguous k entry found
    have position : (entry.logIndex - rf.lastSnapshotIncludeIndex - 1).toNat = k := by omega
    rw [position]
    exact ⟨by omega, found⟩

/-- The access is in range behind the snapshot, and finds the entry with that
index. -/
theorem Placed.logAtIndex (placed : rf.Placed) {index : Int}
    (above : rf.lastSnapshotIncludeIndex < index) (below : index ≤ rf.getLastLogIndex) :
    ∃ entry ∈ rf.logs, rf.logAtIndex index = .ok entry ∧ entry.logIndex = index := by
  have last := placed.getLastLogIndex
  have inside : (index - rf.lastSnapshotIncludeIndex - 1).toNat < rf.logs.length := by omega
  have found := Contiguous.logAtIndex placed.logs |>.mpr ⟨above, List.getElem?_eq_getElem inside⟩
  obtain ⟨member, place⟩ := (Contiguous.logAtIndex_iff_mem placed.logs).mp found
  exact ⟨_, member, found, place⟩

theorem Placed.mem_of_logAtIndex (placed : rf.Placed) {index : Int} {entry : LogEntry}
    (found : rf.logAtIndex index = .ok entry) :
    entry ∈ rf.logs ∧ entry.logIndex = index :=
  (Contiguous.logAtIndex_iff_mem placed.logs).mp found

/-- The end of the log is an entry of the log or the last snapshot. -/
theorem getLastLogIndexAndTerm_cases (rf : Raft n) :
    rf.logs = [] ∧
      rf.getLastLogIndexAndTerm = (rf.lastSnapshotIncludeIndex, rf.lastSnapshotIncludeTerm) ∨
    ∃ entry ∈ rf.logs, rf.getLastLogIndexAndTerm = (entry.logIndex, entry.logTerm) := by
  unfold getLastLogIndexAndTerm
  cases last : rf.logs.getLast? with
  | none => exact Or.inl ⟨List.getLast?_eq_none_iff.mp last, rfl⟩
  | some entry => exact Or.inr ⟨entry, List.mem_of_getLast? last, rfl⟩

end Accessors

end Raft

end CppRaft.RaftCore
