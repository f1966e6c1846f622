import CppRaft.RaftCore.Exchange

/-!
# The assertions that hold

On a node whose entries are in their places every function of the node passes
its assertions and stays inside `m_logs`, given bounds on what it is called
with.  The exception is `AppendEntries1` with a previous index that the node
has compacted: the branch for that case fills the reply but does not return.
-/

namespace CppRaft.RaftCore

open CppRaft.Store

variable {n : Nat}

/-- A fallible step that does not fail. -/
def Succeeds {α : Type} (step : Except Fault α) : Prop :=
  ∃ result, step = .ok result

section Succeeds

variable {α β : Type}

theorem succeeds_pure (value : α) : Succeeds (pure value) :=
  ⟨value, rfl⟩

theorem succeeds_myAssert {condition : Prop} [Decidable condition] {fault : Fault}
    (holds : condition) : Succeeds (myAssert condition fault) :=
  ⟨(), myAssert_eq_ok.mpr holds⟩

theorem Succeeds.bind {first : Except Fault α} {second : α → Except Fault β}
    (succeeds : Succeeds first) (later : ∀ value, first = .ok value → Succeeds (second value)) :
    Succeeds (first >>= second) := by
  obtain ⟨value, done⟩ := succeeds
  obtain ⟨result, doneLater⟩ := later value done
  exact ⟨result, bind_eq_ok.mpr ⟨value, done, doneLater⟩⟩

theorem Succeeds.ne_error {step : Except Fault α} (succeeds : Succeeds step) (fault : Fault) :
    step ≠ .error fault := by
  obtain ⟨result, done⟩ := succeeds
  rw [done]
  simp

end Succeeds

namespace Raft

variable {rf : Raft n}

/-! ## The accessors -/

theorem slice_succeeds (contiguous : rf.Contiguous) {index : Int}
    (above : rf.lastSnapshotIncludeIndex < index) (below : index ≤ rf.getLastLogIndex) :
    rf.getSlicesIndexFromLogIndex index =
        .ok (index - rf.lastSnapshotIncludeIndex - 1).toNat ∧
      (index - rf.lastSnapshotIncludeIndex - 1).toNat < rf.logs.length := by
  have length := getLastLogIndex_of_numbered contiguous
  constructor
  · simp only [getSlicesIndexFromLogIndex, bind_eq_ok, myAssert_eq_ok, pure_eq_ok]
    exact ⟨(), above, (), below, trivial⟩
  · omega

theorem logAt_succeeds {slice : Nat} (inside : slice < rf.logs.length) :
    rf.logAt slice = .ok rf.logs[slice] := by
  rw [logAt, List.getElem?_eq_getElem inside]

theorem logAtIndex_succeeds (contiguous : rf.Contiguous) {index : Int}
    (above : rf.lastSnapshotIncludeIndex < index) (below : index ≤ rf.getLastLogIndex) :
    Succeeds (rf.logAtIndex index) := by
  obtain ⟨_, inside⟩ := slice_succeeds contiguous above below
  have found := (Contiguous.logAtIndex contiguous).mpr ⟨above, List.getElem?_eq_getElem inside⟩
  exact ⟨_, found⟩

theorem getLogTermFromLogIndex_succeeds (contiguous : rf.Contiguous) {index : Int}
    (above : rf.lastSnapshotIncludeIndex ≤ index) (below : index ≤ rf.getLastLogIndex) :
    Succeeds (rf.getLogTermFromLogIndex index) := by
  unfold getLogTermFromLogIndex
  apply (succeeds_myAssert above).bind
  intro _ _
  apply (succeeds_myAssert below).bind
  intro _ _
  split
  · exact succeeds_pure _
  · apply (logAtIndex_succeeds contiguous (by omega) below).bind
    intro entry _
    exact succeeds_pure _

theorem Placed.matchLog_succeeds (placed : rf.Placed) {index : Int} (term : Int)
    (above : rf.lastSnapshotIncludeIndex ≤ index) (below : index ≤ rf.getLastLogIndex) :
    Succeeds (rf.matchLog index term) := by
  unfold matchLog
  apply (succeeds_myAssert ⟨above, below⟩).bind
  intro _ _
  apply (getLogTermFromLogIndex_succeeds placed.logs above below).bind
  intro _ _
  exact succeeds_pure _

/-! ## AppendEntries -/

/-- The node has no entry that a request contradicts at its index and term. -/
def AgreesWith (rf : Raft n) (entries : List LogEntry) : Prop :=
  ∀ old ∈ rf.logs, ∀ log ∈ entries, old.logIndex = log.logIndex → old.logTerm = log.logTerm →
    old.command = log.command

theorem appendEntry_succeeds {log : LogEntry} (contiguous : rf.Contiguous)
    (above : rf.lastSnapshotIncludeIndex < log.logIndex) (agrees : rf.AgreesWith [log]) :
    Succeeds (rf.appendEntry log) := by
  unfold appendEntry
  split
  · exact succeeds_pure _
  · obtain ⟨slice, inside⟩ := slice_succeeds contiguous above (by omega)
    apply Succeeds.bind ⟨_, slice⟩
    intro slice' same
    rw [slice, Except.ok.injEq] at same
    subst same
    apply Succeeds.bind ⟨_, logAt_succeeds inside⟩
    intro old found
    rw [logAt_succeeds inside, Except.ok.injEq] at found
    subst found
    have place := numberedFrom_iff.mp contiguous _ _ (List.getElem?_eq_getElem inside)
    apply Succeeds.bind
    · apply succeeds_myAssert
      rintro ⟨sameTerm, other⟩
      exact other (agrees _ (List.getElem_mem inside) log (by simp) (by omega) sameTerm)
    · intro _ _
      split
      · exact succeeds_pure _
      · exact succeeds_pure _

theorem appendEntriesLoop_succeeds {entries : List LogEntry} {start : Nat}
    (contiguous : rf.Contiguous) (inside : start ≤ rf.logs.length)
    (numbered : NumberedFrom (rf.lastSnapshotIncludeIndex + 1 + start) entries)
    (agrees : rf.AgreesWith entries) : Succeeds (rf.appendEntriesLoop entries) := by
  induction entries generalizing rf start with
  | nil => exact succeeds_pure _
  | cons log rest ih =>
      obtain ⟨here, numberedRest⟩ := numbered
      unfold appendEntriesLoop
      apply Succeeds.bind
      · apply appendEntry_succeeds contiguous (by omega)
        intro old member log' member'
        rw [List.mem_singleton] at member'
        subst member'
        exact agrees old member log' List.mem_cons_self
      · intro middle first
        have laid := appendEntry_overlay contiguous inside here first
        have contiguous' := overlay_contiguous contiguous inside
          (show NumberedFrom _ [log] from ⟨here, trivial⟩)
        have length : (overlay rf.logs start [log]).length = max rf.logs.length (start + 1) :=
          length_overlay inside
        rw [laid]
        have numbered' :
            NumberedFrom (rf.lastSnapshotIncludeIndex + 1 + (start + 1 : Nat)) rest := by
          push_cast
          rwa [← Int.add_assoc]
        apply ih contiguous' (length ▸ Nat.le_max_right _ _) numbered'
        intro old member log' member' sameIndex sameTerm
        rcases mem_overlay member with before | new
        · exact agrees old before log' (List.mem_cons_of_mem _ member') sameIndex sameTerm
        · have range := numberedRest.mem_range member'
          rw [List.mem_singleton] at new
          subst new
          omega

theorem conflictScan_succeeds {prevLogIndex : Int} {count : Nat} (contiguous : rf.Contiguous)
    (above : rf.lastSnapshotIncludeIndex ≤ prevLogIndex) (below : prevLogIndex ≤ rf.getLastLogIndex)
    (reaches : rf.lastSnapshotIncludeIndex + count ≤ prevLogIndex + 1) :
    Succeeds (rf.conflictScan prevLogIndex count) := by
  induction count with
  | zero => exact succeeds_pure _
  | succ count ih =>
      push_cast at reaches
      unfold conflictScan
      apply (getLogTermFromLogIndex_succeeds contiguous (by omega) (by omega)).bind
      intro _ _
      apply (getLogTermFromLogIndex_succeeds contiguous above below).bind
      intro _ _
      split
      · exact succeeds_pure _
      · exact ih (by omega)

theorem acceptEntries_succeeds {args : AppendEntriesArgs} {reply : AppendEntriesReply}
    (contiguous : rf.Contiguous) (committed : rf.commitIndex ≤ rf.getLastLogIndex)
    (numbered : args.Numbered) (above : rf.lastSnapshotIncludeIndex ≤ args.prevLogIndex)
    (below : args.prevLogIndex ≤ rf.getLastLogIndex) (agrees : rf.AgreesWith args.entries) :
    Succeeds (rf.acceptEntries args reply) := by
  unfold AppendEntriesArgs.Numbered at numbered
  obtain ⟨start, place, inside⟩ := exists_position contiguous
    (show rf.lastSnapshotIncludeIndex < args.prevLogIndex + 1 by omega) (by omega)
  rw [place] at numbered
  unfold acceptEntries
  apply (appendEntriesLoop_succeeds contiguous inside numbered agrees).bind
  intro stored looped
  have laid := appendEntriesLoop_overlay contiguous inside numbered looped
  have last := overlay_getLastLogIndex contiguous inside numbered
  rw [← laid] at last
  apply (succeeds_myAssert (by omega)).bind
  intro _ _
  have committed' : stored.commitIndex ≤ stored.getLastLogIndex := by
    rw [last, laid]
    exact committed.trans (le_max_left _ _)
  apply (succeeds_myAssert (followCommit_stored committed' args.leaderCommit)).bind
  intro _ _
  exact succeeds_pure _

theorem checkEntries_succeeds {args : AppendEntriesArgs} {reply : AppendEntriesReply}
    (placed : rf.Placed) (numbered : args.Numbered)
    (above : rf.lastSnapshotIncludeIndex ≤ args.prevLogIndex)
    (agrees : rf.AgreesWith args.entries) : Succeeds (rf.checkEntries args reply) := by
  unfold checkEntries
  split
  · exact succeeds_pure _
  · apply (placed.matchLog_succeeds _ above (by omega)).bind
    intro matched _
    cases matched with
    | true =>
        exact acceptEntries_succeeds placed.logs placed.stored numbered above (by omega) agrees
    | false =>
        apply (conflictScan_succeeds placed.logs above (by omega) (by omega)).bind
        intro _ _
        exact succeeds_pure _

/-- `AppendEntries1` passes its assertions if the request is outdated or does
not start below the snapshot of the node. -/
theorem appendEntries1_succeeds {args : AppendEntriesArgs} (placed : rf.Placed)
    (numbered : args.Numbered) (agrees : rf.AgreesWith args.entries)
    (above : args.term < rf.currentTerm ∨ rf.lastSnapshotIncludeIndex ≤ args.prevLogIndex) :
    Succeeds (rf.appendEntries1 args) := by
  rcases Int.lt_or_le args.term rf.currentTerm with outdated | notOutdated
  · rw [appendEntries1_outdated outdated]
    exact succeeds_pure _
  · have keeps := rf.keeps_followTerm notOutdated
    rw [appendEntries1_of_le notOutdated]
    apply checkEntries_succeeds (keeps.placed placed) numbered
    · rw [keeps.index]
      omega
    · intro old member
      rw [keeps.logs] at member
      exact agrees old member

/-- A request that starts below the snapshot of the node ends its process. -/
theorem appendEntries1_below {args : AppendEntriesArgs} (placed : rf.Placed)
    (notOutdated : rf.currentTerm ≤ args.term)
    (below : args.prevLogIndex < rf.lastSnapshotIncludeIndex) :
    rf.appendEntries1 args = .error .matchOutOfRange := by
  have keeps := rf.keeps_followTerm notOutdated
  have length := (keeps.placed placed).getLastLogIndex
  have base := keeps.index
  have fails : (rf.followTerm args.term).matchLog args.prevLogIndex args.prevLogTerm =
      .error .matchOutOfRange := by
    unfold matchLog myAssert
    rw [if_neg (by omega)]
    rfl
  rw [appendEntries1_of_le notOutdated, checkEntries, if_neg (by omega), fails]
  rfl

/-! ## RequestVote and InstallSnapshot -/

theorem requestVote_succeeds (rf : Raft n) (args : RequestVoteArgs) :
    Succeeds (rf.requestVote args) := by
  rcases Int.lt_or_le args.term rf.currentTerm with outdated | notOutdated
  · rw [requestVote_outdated outdated]
    exact succeeds_pure _
  · rw [requestVote_of_le notOutdated]
    dsimp only
    split
    · exact succeeds_pure _
    · split
      · exact succeeds_pure _
      · exact succeeds_pure _

theorem cutLogs_succeeds {index : Int} (contiguous : rf.Contiguous)
    (newer : rf.lastSnapshotIncludeIndex < index) : Succeeds (rf.cutLogs index) := by
  unfold cutLogs
  split
  · obtain ⟨slice, inside⟩ := slice_succeeds contiguous newer (by omega)
    apply Succeeds.bind ⟨_, slice⟩
    intro slice' same
    rw [slice, Except.ok.injEq] at same
    subst same
    rw [if_pos (Nat.succ_le_of_lt inside)]
    exact succeeds_pure _
  · exact succeeds_pure _

theorem installSnapshot_succeeds (contiguous : rf.Contiguous) (args : InstallSnapshotRequest) :
    Succeeds (rf.installSnapshot args) := by
  rcases Int.lt_or_le args.term rf.currentTerm with outdated | notOutdated
  · rw [installSnapshot_outdated outdated]
    exact succeeds_pure _
  · have keeps := rf.keeps_snapshotTerm notOutdated
    rw [installSnapshot_of_le notOutdated]
    dsimp only
    split
    · exact succeeds_pure _
    · have contiguous' : (rf.snapshotTerm args.term).Contiguous := by
        rw [Contiguous, keeps.index, keeps.logs]
        exact contiguous
      apply (cutLogs_succeeds contiguous' (by omega)).bind
      intro _ _
      exact succeeds_pure _

/-! ## The steps of a leader -/

theorem getPrevLogInfo_succeeds {server : Fin n} (placed : rf.Placed)
    (above : rf.lastSnapshotIncludeIndex < rf.nextIndex server)
    (bounded : rf.nextIndex server ≤ rf.getLastLogIndex + 1) :
    Succeeds (rf.getPrevLogInfo server) := by
  unfold getPrevLogInfo
  split
  · exact succeeds_pure _
  · apply (logAtIndex_succeeds placed.logs (by omega) (by omega)).bind
    intro _ _
    exact succeeds_pure _

theorem heartBeatTo_succeeds {server : Fin n} (placed : rf.Placed)
    (positive : 1 ≤ rf.nextIndex server)
    (bounded : rf.nextIndex server ≤ rf.getLastLogIndex + 1) :
    Succeeds (rf.heartBeatTo server) := by
  have length := placed.getLastLogIndex
  unfold heartBeatTo
  apply (succeeds_myAssert positive).bind
  intro _ _
  split
  · exact succeeds_pure _
  · apply (getPrevLogInfo_succeeds placed (by omega) bounded).bind
    rintro ⟨index, term⟩ found
    obtain ⟨next, _⟩ := getPrevLogInfo_cases placed found
    simp only
    split
    · have behind : rf.lastSnapshotIncludeIndex < index := by omega
      obtain ⟨slice, inside⟩ := slice_succeeds placed.logs behind (by omega)
      apply Succeeds.bind ⟨_, slice⟩
      intro slice' same
      rw [slice, Except.ok.injEq] at same
      subst same
      apply (succeeds_pure _).bind
      intro entries carried
      rw [pure_eq_ok] at carried
      subst carried
      apply Succeeds.bind
      · apply succeeds_myAssert
        rw [List.length_drop]
        omega
      · intro _ _
        exact succeeds_pure _
    · apply (succeeds_pure _).bind
      intro entries carried
      rw [pure_eq_ok] at carried
      subst carried
      apply (succeeds_myAssert (by omega)).bind
      intro _ _
      exact succeeds_pure _

theorem heartBeats_succeed {servers : List (Fin n)}
    (each : ∀ server, Succeeds (rf.heartBeatTo server)) : (rf.heartBeats servers).2 = none := by
  induction servers with
  | nil => rfl
  | cons server rest ih =>
      obtain ⟨outgoing, built⟩ := each server
      unfold heartBeats
      rw [built]
      exact ih

theorem sendAppendEntries_succeeds {server : Fin n} {args : AppendEntriesArgs}
    (placed : rf.Placed) (sent : args.endIndex ≤ rf.getLastLogIndex)
    (matched : rf.status = .leader → rf.matchIndex server ≤ rf.getLastLogIndex)
    (reply : AppendEntriesReply) (appendNums : Int) :
    Succeeds (rf.sendAppendEntries server args reply appendNums) := by
  have stored := placed.stored
  unfold AppendEntriesArgs.endIndex at sent
  unfold sendAppendEntries
  split
  · exact succeeds_pure _
  · split
    · exact succeeds_pure _
    · split
      · exact succeeds_pure _
      · split
        · exact succeeds_pure _
        · rename_i leads
          have matched := matched (not_not.mp leads)
          apply (succeeds_myAssert (by omega)).bind
          intro _ _
          split
          · split
            · exact succeeds_pure _
            · exact succeeds_pure _
          · apply Succeeds.bind
            · apply succeeds_myAssert
              simp only [Function.update_self]
              change max (rf.matchIndex server) (args.prevLogIndex + args.entries.length) + 1 ≤
                rf.getLastLogIndex + 1
              omega
            · intro _ _
              split
              · apply Succeeds.bind
                · apply succeeds_myAssert
                  split
                  · exact max_le stored sent
                  · exact stored
                · intro _ _
                  exact succeeds_pure _
              · exact succeeds_pure _

/-! ## The calls of the service -/

theorem applyLoop_succeeds {count : Nat} (placed : rf.Placed)
    (inside : rf.lastApplied + count ≤ rf.commitIndex) : Succeeds (rf.applyLoop count) := by
  induction count generalizing rf with
  | zero => exact succeeds_pure _
  | succ count ih =>
      have applied := placed.applied
      have stored := placed.stored
      push_cast at inside
      have placed' : { rf with lastApplied := rf.lastApplied + 1 }.Placed :=
        { placed with
          applied := by
            change rf.lastSnapshotIncludeIndex ≤ rf.lastApplied + 1
            omega
          committed := by
            change rf.lastApplied + 1 ≤ rf.commitIndex
            omega }
      have above : rf.lastSnapshotIncludeIndex < rf.lastApplied + 1 := by omega
      have below : rf.lastApplied + 1 ≤ rf.getLastLogIndex := by omega
      obtain ⟨entry, _, found, index⟩ := placed'.logAtIndex above below
      unfold applyLoop
      apply Succeeds.bind ⟨entry, found⟩
      intro entry' found'
      rw [found, Except.ok.injEq] at found'
      subst found'
      apply (succeeds_myAssert index).bind
      intro _ _
      apply (ih placed' (by change rf.lastApplied + 1 + (count : Int) ≤ rf.commitIndex; omega)).bind
      intro _ _
      exact succeeds_pure _

theorem getApplyLogs_succeeds (placed : rf.Placed) : Succeeds rf.getApplyLogs := by
  have committed := placed.committed
  unfold getApplyLogs
  apply (succeeds_myAssert placed.stored).bind
  intro _ _
  exact applyLoop_succeeds placed (by omega)

theorem collectLogs_succeeds {index : Int} {count : Nat} (contiguous : rf.Contiguous)
    (above : rf.lastSnapshotIncludeIndex < index)
    (below : index + count ≤ rf.getLastLogIndex + 1) : Succeeds (rf.collectLogs index count) := by
  induction count generalizing index with
  | zero => exact succeeds_pure _
  | succ count ih =>
      push_cast at below
      unfold collectLogs
      apply (logAtIndex_succeeds contiguous above (by omega)).bind
      intro _ _
      apply (ih (by omega) (by omega)).bind
      intro _ _
      exact succeeds_pure _

theorem snapshot_succeeds (contiguous : rf.Contiguous)
    (stored : rf.commitIndex ≤ rf.getLastLogIndex) (index : Int) (data : Bytes) :
    Succeeds (rf.snapshot index data) := by
  unfold snapshot
  split
  · exact succeeds_pure _
  · apply (logAtIndex_succeeds contiguous (by omega) (by omega)).bind
    intro entry _
    apply (collectLogs_succeeds contiguous (by omega) (by omega)).bind
    intro logs collected
    have length := (collectLogs_eq collected).1
    apply Succeeds.bind
    · apply succeeds_myAssert
      change (logs.length : Int) + index = rf.getLastLogIndex
      omega
    · intro _ _
      exact succeeds_pure _

end Raft

end CppRaft.RaftCore
