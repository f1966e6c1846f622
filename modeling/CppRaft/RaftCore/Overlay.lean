import CppRaft.RaftCore.Placed

/-!
# The entries of a request written over the log

The loop of `AppendEntries1` compares entry by entry, but its result is the old
log with the entries of the request laid over it: what stood before them and
what stood behind them is kept.
-/

namespace CppRaft.RaftCore

/-! ## Lists -/

section Overlay

variable {α : Type}

/-- `items` with `patch` laid over them from position `start` on. -/
def overlay (items : List α) (start : Nat) (patch : List α) : List α :=
  items.take start ++ patch ++ items.drop (start + patch.length)

theorem overlay_nil (items : List α) (start : Nat) : overlay items start [] = items := by
  simp [overlay]

theorem length_overlay {items patch : List α} {start : Nat} (inside : start ≤ items.length) :
    (overlay items start patch).length = max items.length (start + patch.length) := by
  simp only [overlay, List.length_append, List.length_take, List.length_drop]
  omega

/-- Laying over one item and then the rest is laying over all of them. -/
theorem overlay_cons {items patch : List α} {start : Nat} {item : α}
    (inside : start ≤ items.length) :
    overlay (overlay items start [item]) (start + 1) patch =
      overlay items start (item :: patch) := by
  have length : (items.take start ++ [item]).length = start + 1 := by
    rw [List.length_append, List.length_take, Nat.min_eq_left inside, List.length_singleton]
  have front : (overlay items start [item]).take (start + 1) = items.take start ++ [item] := by
    rw [overlay, List.take_append_of_le_length length.ge, List.take_of_length_le length.le]
  have behind : (overlay items start [item]).drop (start + 1 + patch.length) =
      items.drop (start + (item :: patch).length) := by
    rw [overlay, List.drop_append, List.drop_of_length_le (by omega), List.nil_append, length,
      List.drop_drop, List.length_singleton, List.length_cons]
    congr 1
    omega
  rw [overlay, front, behind, overlay]
  simp

/-- Laying over the end of a list is the end of laying over the list. -/
theorem overlay_drop {items patch : List α} {skipped start : Nat}
    (inside : skipped + start ≤ items.length) :
    overlay (items.drop skipped) start patch =
      (overlay items (skipped + start) patch).drop skipped := by
  have front : (items.take (skipped + start) ++ patch).drop skipped =
      (items.drop skipped).take start ++ patch := by
    rw [List.drop_append_of_le_length (by simp; omega), List.drop_take, Nat.add_sub_cancel_left]
  rw [overlay, overlay, List.drop_append_of_le_length (by simp; omega), front, List.drop_drop,
    Nat.add_assoc]

theorem mem_overlay {items patch : List α} {start : Nat} {item : α}
    (member : item ∈ overlay items start patch) : item ∈ items ∨ item ∈ patch := by
  rcases List.mem_append.mp member with early | behind
  · rcases List.mem_append.mp early with before | laid
    · exact Or.inl (List.mem_of_mem_take before)
    · exact Or.inr laid
  · exact Or.inl (List.mem_of_mem_drop behind)

theorem overlay_getElem?_before {items patch : List α} {start position : Nat}
    (inside : start ≤ items.length) (before : position < start) :
    (overlay items start patch)[position]? = items[position]? := by
  rw [overlay, List.append_assoc, List.getElem?_append_left (by simp; omega),
    List.getElem?_take_of_lt before]

theorem overlay_getElem?_within {items patch : List α} {start offset : Nat}
    (inside : start ≤ items.length) (within : offset < patch.length) :
    (overlay items start patch)[start + offset]? = patch[offset]? := by
  have taken : (items.take start).length = start := by
    rw [List.length_take, Nat.min_eq_left inside]
  rw [overlay, List.append_assoc, List.getElem?_append_right (by omega), taken,
    Nat.add_sub_cancel_left, List.getElem?_append_left within]

theorem overlay_getElem?_behind {items patch : List α} {start position : Nat}
    (inside : start ≤ items.length) (behind : start + patch.length ≤ position) :
    (overlay items start patch)[position]? = items[position]? := by
  have front : (items.take start ++ patch).length = start + patch.length := by
    rw [List.length_append, List.length_take, Nat.min_eq_left inside]
  rw [overlay, List.getElem?_append_right (by omega), front, List.getElem?_drop]
  congr 1
  omega

end Overlay

/-! ## The loop of AppendEntries1 -/

namespace Raft

variable {n : Nat} {rf rf' : Raft n}

theorem exists_position (contiguous : rf.Contiguous) {next : Int}
    (above : rf.lastSnapshotIncludeIndex < next) (reaches : next ≤ rf.getLastLogIndex + 1) :
    ∃ start : Nat, next = rf.lastSnapshotIncludeIndex + 1 + start ∧ start ≤ rf.logs.length := by
  have last := getLastLogIndex_of_numbered contiguous
  obtain ⟨start, place⟩ := Int.le.dest (show rf.lastSnapshotIncludeIndex + 1 ≤ next by omega)
  exact ⟨start, by omega, by omega⟩

theorem appendEntry_overlay {log : LogEntry} {start : Nat} (contiguous : rf.Contiguous)
    (inside : start ≤ rf.logs.length)
    (place : log.logIndex = rf.lastSnapshotIncludeIndex + 1 + start)
    (stored : rf.appendEntry log = .ok rf') :
    rf' = { rf with logs := overlay rf.logs start [log] } := by
  have last := getLastLogIndex_of_numbered contiguous
  unfold appendEntry at stored
  split at stored
  · cases stored
    have atEnd : start = rf.logs.length := by omega
    simp [overlay, atEnd]
  · simp only [getSlicesIndexFromLogIndex, bind_eq_ok, myAssert_eq_ok, pure_eq_ok] at stored
    obtain ⟨slice, ⟨_, _, _, _, rfl⟩, old, found, _, sameCommand, final⟩ := stored
    have position : (log.logIndex - rf.lastSnapshotIncludeIndex - 1).toNat = start := by omega
    rw [position] at found final
    have shorter : start < rf.logs.length := by omega
    have replaced : overlay rf.logs start [log] = rf.logs.set start log := by
      rw [List.set_eq_take_append_cons_drop, if_pos shorter]
      simp [overlay]
    rw [replaced]
    split at final
    · cases final
      rfl
    · rename_i sameTerm
      cases final
      unfold logAt at found
      split at found
      · cases found
      · rename_i here
        cases found
        -- The entry in place has the term, hence the command, of the new one.
        have index := numberedFrom_iff.mp contiguous start old here
        have same : old = log := by
          obtain ⟨command, term, index'⟩ := old
          obtain ⟨command', term', index''⟩ := log
          simp only [ne_eq, not_not] at sameTerm
          simp only [ne_eq, not_and, not_not] at sameCommand
          simp only at index place sameTerm sameCommand
          rw [sameCommand sameTerm, sameTerm, index, place]
        obtain ⟨_, rfl⟩ := List.getElem?_eq_some_iff.mp here
        rw [← same, List.set_getElem_self]

theorem overlay_contiguous {entries : List LogEntry} {start : Nat} (contiguous : rf.Contiguous)
    (inside : start ≤ rf.logs.length)
    (numbered : NumberedFrom (rf.lastSnapshotIncludeIndex + 1 + start) entries) :
    { rf with logs := overlay rf.logs start entries }.Contiguous := by
  apply numberedFrom_iff.mpr
  intro position entry found
  change (overlay rf.logs start entries)[position]? = some entry at found
  change entry.logIndex = rf.lastSnapshotIncludeIndex + 1 + position
  rcases lt_or_ge position start with before | notBefore
  · rw [overlay_getElem?_before inside before] at found
    exact numberedFrom_iff.mp contiguous position entry found
  · rcases lt_or_ge position (start + entries.length) with within | behind
    · obtain ⟨offset, rfl⟩ := Nat.exists_eq_add_of_le notBefore
      rw [overlay_getElem?_within inside (by omega)] at found
      have index := numberedFrom_iff.mp numbered offset entry found
      push_cast
      omega
    · rw [overlay_getElem?_behind inside behind] at found
      exact numberedFrom_iff.mp contiguous position entry found

theorem overlay_getLastLogIndex {entries : List LogEntry} {start : Nat}
    (contiguous : rf.Contiguous) (inside : start ≤ rf.logs.length)
    (numbered : NumberedFrom (rf.lastSnapshotIncludeIndex + 1 + start) entries) :
    { rf with logs := overlay rf.logs start entries }.getLastLogIndex =
      max rf.getLastLogIndex (rf.lastSnapshotIncludeIndex + start + entries.length) := by
  have last := getLastLogIndex_of_numbered contiguous
  have last' := getLastLogIndex_of_numbered (overlay_contiguous contiguous inside numbered)
  simp only [length_overlay inside] at last'
  omega

/-- The loop lays the entries of the request over the log. -/
theorem appendEntriesLoop_overlay {entries : List LogEntry} {start : Nat}
    (contiguous : rf.Contiguous) (inside : start ≤ rf.logs.length)
    (numbered : NumberedFrom (rf.lastSnapshotIncludeIndex + 1 + start) entries)
    (stored : rf.appendEntriesLoop entries = .ok rf') :
    rf' = { rf with logs := overlay rf.logs start entries } := by
  induction entries generalizing rf start with
  | nil =>
      cases stored
      rw [overlay_nil]
  | cons log rest ih =>
      simp only [appendEntriesLoop, bind_eq_ok] at stored
      obtain ⟨middle, first, later⟩ := stored
      obtain ⟨place, numberedRest⟩ := numbered
      have laid := appendEntry_overlay contiguous inside place first
      subst laid
      have contiguous' := overlay_contiguous contiguous inside
        (show NumberedFrom _ [log] from ⟨place, trivial⟩)
      have inside' : start + 1 ≤ (overlay rf.logs start [log]).length := by
        rw [length_overlay inside]
        exact Nat.le_max_right _ _
      have numbered' : NumberedFrom (rf.lastSnapshotIncludeIndex + 1 + (start + 1 : Nat)) rest := by
        push_cast
        rwa [← Int.add_assoc]
      rw [ih contiguous' inside' numbered' later, overlay_cons inside]

end Raft

end CppRaft.RaftCore
