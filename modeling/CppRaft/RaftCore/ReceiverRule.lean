import CppRaft.RaftCore.Persistence
import CppRaft.RaftCore.Storing
import CppRaft.RaftCore.Total

/-!
# The rules of the receiver

What a successful `AppendEntries1` and a new snapshot are meant to leave in the
log, and when they do.  Both keep what stands behind the message.  That is the
rule as long as the log does not visibly disagree with the sender's.
-/

namespace CppRaft.RaftCore.Raft

open CppRaft.Store

variable {n : Nat} {rf rf' : Raft n}

/-! ## AppendEntries -/

/-- What a success of `AppendEntries1` is to leave in the log. -/
structure ReceiverRule (rf rf' : Raft n) (args : AppendEntriesArgs) : Prop where
  snapshot : rf'.lastSnapshotIncludeIndex = rf.lastSnapshotIncludeIndex ∧
    rf'.lastSnapshotIncludeTerm = rf.lastSnapshotIncludeTerm
  before : ∀ (index : Int) (entry : LogEntry), index ≤ args.prevLogIndex →
    (rf'.logAtIndex index = .ok entry ↔ rf.logAtIndex index = .ok entry)
  stored : ∀ log ∈ args.entries, rf'.logAtIndex log.logIndex = .ok log
  cut : (∃ log ∈ args.entries, rf.ConflictsAt log.logIndex log.logTerm) →
    rf'.getLastLogIndex = args.prevLogIndex + args.entries.length
  kept : (∀ log ∈ args.entries, ¬ rf.ConflictsAt log.logIndex log.logTerm) →
    ∀ (index : Int) (entry : LogEntry), args.prevLogIndex + args.entries.length < index →
      (rf'.logAtIndex index = .ok entry ↔ rf.logAtIndex index = .ok entry)

theorem followTerm_matchLog (rf : Raft n) {term : Int} (notOutdated : rf.currentTerm ≤ term)
    (index indexTerm : Int) :
    (rf.followTerm term).matchLog index indexTerm = rf.matchLog index indexTerm := by
  unfold followTerm
  rcases rf.meetTerm_eq_or notOutdated with ⟨same, _⟩ | ⟨adopted, _⟩
  · rw [same]
    rfl
  · rw [adopted]
    rfl

/-- A request whose previous entry matches goes to the loop over its entries. -/
theorem appendEntries1_of_match {args : AppendEntriesArgs}
    (notOutdated : rf.currentTerm ≤ args.term)
    (previous : rf.matchLog args.prevLogIndex args.prevLogTerm = .ok true) :
    rf.appendEntries1 args =
      (rf.followTerm args.term).acceptEntries args { appState := AppNormal } := by
  rw [← rf.followTerm_matchLog notOutdated] at previous
  have range := matchLog_range previous
  rw [appendEntries1_of_le notOutdated, checkEntries, if_neg (by omega), previous,
    if_neg (show ¬ _ < _ by omega)]
  rfl

theorem followTerm_contiguous (contiguous : rf.Contiguous) {term : Int}
    (notOutdated : rf.currentTerm ≤ term) : (rf.followTerm term).Contiguous := by
  have keeps := rf.keeps_followTerm notOutdated
  rw [Contiguous, keeps.index, keeps.logs]
  exact contiguous

/-- The log of a node that has answered with success: the entries of the request
laid over the old log. -/
theorem appendEntries1_overlay {args : AppendEntriesArgs} {reply : AppendEntriesReply}
    (contiguous : rf.Contiguous) (numbered : args.Numbered)
    (notOutdated : rf.currentTerm ≤ args.term)
    (handled : rf.appendEntries1 args = .ok (rf', reply)) (success : reply.success = true) :
    ∃ start : Nat, args.prevLogIndex = rf.lastSnapshotIncludeIndex + start ∧
      start ≤ rf.logs.length ∧
      rf'.lastSnapshotIncludeIndex = rf.lastSnapshotIncludeIndex ∧
      rf'.lastSnapshotIncludeTerm = rf.lastSnapshotIncludeTerm ∧
      rf'.logs = overlay rf.logs start args.entries := by
  rcases appendEntries1_cases handled with ⟨outdated, _, _⟩ | ⟨_, _, refused⟩ |
    ⟨_, _, _, previous, stored, looped, rfl⟩
  · omega
  · rw [success] at refused
    cases refused
  · have keeps := rf.keeps_followTerm notOutdated
    have contiguous' := followTerm_contiguous contiguous notOutdated
    have range := matchLog_range previous
    unfold AppendEntriesArgs.Numbered at numbered
    obtain ⟨start, place, inside⟩ := exists_position contiguous'
      (show (rf.followTerm args.term).lastSnapshotIncludeIndex < args.prevLogIndex + 1 by omega)
      (by omega)
    rw [place] at numbered
    have laid := appendEntriesLoop_overlay contiguous' inside numbered looped
    obtain ⟨commitIndex, raised⟩ := stored.followCommit_eq args.leaderCommit
    rw [keeps.logs] at inside laid
    rw [keeps.index] at place
    refine ⟨start, by omega, inside, ?_⟩
    rw [raised, laid]
    exact ⟨keeps.index, keeps.snapshotTerm, rfl⟩

/-- The two accesses find the same entry if the positions hold the same. -/
theorem logAtIndex_iff_of_position (contiguous : rf.Contiguous) (contiguous' : rf'.Contiguous)
    (base : rf'.lastSnapshotIncludeIndex = rf.lastSnapshotIncludeIndex) {index : Int}
    (same : rf.lastSnapshotIncludeIndex < index →
      rf'.logs[(index - rf.lastSnapshotIncludeIndex - 1).toNat]? =
        rf.logs[(index - rf.lastSnapshotIncludeIndex - 1).toNat]?) (entry : LogEntry) :
    rf'.logAtIndex index = .ok entry ↔ rf.logAtIndex index = .ok entry := by
  rw [contiguous.logAtIndex, contiguous'.logAtIndex, base]
  apply and_congr_right
  intro above
  rw [same above]

/-- `AppendEntries1` follows the rule of the receiver exactly if it does not
leave a tail behind a conflict. -/
theorem appendEntries1_receiverRule {args : AppendEntriesArgs} (contiguous : rf.Contiguous)
    (notOutdated : rf.currentTerm ≤ args.term)
    (previous : rf.matchLog args.prevLogIndex args.prevLogTerm = .ok true)
    (numbered : args.Numbered) (agrees : rf.AgreesWith args.entries) :
    (rf.commitIndex ≤ rf.getLastLogIndex →
      ∃ rf' reply, rf.appendEntries1 args = .ok (rf', reply) ∧ reply.success = true) ∧
    ∀ rf' reply, rf.appendEntries1 args = .ok (rf', reply) → reply.success = true →
      (ReceiverRule rf rf' args ↔ ¬ rf.LeavesStaleTail args) := by
  constructor
  · intro committed
    have keeps := rf.keeps_followTerm notOutdated
    have range := matchLog_range previous
    have accepted : Succeeds
        ((rf.followTerm args.term).acceptEntries args { appState := AppNormal }) := by
      apply acceptEntries_succeeds (followTerm_contiguous contiguous notOutdated) _ numbered
      · rw [keeps.index]
        exact range.1
      · rw [keeps.getLastLogIndex]
        exact range.2
      · intro old member
        rw [keeps.logs] at member
        exact agrees old member
      · rw [keeps.committed, keeps.getLastLogIndex]
        exact committed
    obtain ⟨⟨rf', reply⟩, done⟩ := accepted
    obtain ⟨_, _, _, success, _⟩ := acceptEntries_eq done
    refine ⟨rf', reply, ?_, success⟩
    rw [appendEntries1_of_match notOutdated previous, done]
  · intro rf' reply handled success
    obtain ⟨start, place, inside, base, baseTerm, laid⟩ :=
      appendEntries1_overlay contiguous numbered notOutdated handled success
    have numbered' : NumberedFrom (rf.lastSnapshotIncludeIndex + 1 + start) args.entries := by
      have numbered' := numbered
      unfold AppendEntriesArgs.Numbered at numbered'
      rwa [place, show rf.lastSnapshotIncludeIndex + (start : Int) + 1 =
        rf.lastSnapshotIncludeIndex + 1 + start by omega] at numbered'
    have contiguous' : rf'.Contiguous := by
      have covered := overlay_contiguous contiguous inside numbered'
      rw [Contiguous, base, laid]
      exact covered
    have last := getLastLogIndex_of_numbered contiguous
    have last' := getLastLogIndex_of_numbered contiguous'
    rw [base, laid, length_overlay inside] at last'
    constructor
    · rintro rule ⟨_, _, conflict, longer⟩
      have cut := rule.cut conflict
      omega
    · intro noTail
      exact
        { snapshot := ⟨base, baseTerm⟩
          before := by
            intro index entry below
            apply logAtIndex_iff_of_position contiguous contiguous' base
            intro above
            rw [laid, overlay_getElem?_before inside (by omega)]
          stored := by
            intro log member
            obtain ⟨offset, found⟩ := List.mem_iff_getElem?.mp member
            have index := numberedFrom_iff.mp numbered' offset log found
            have within := (List.getElem?_eq_some_iff.mp found).1
            apply contiguous'.logAtIndex.mpr
            rw [base, laid, show (log.logIndex - rf.lastSnapshotIncludeIndex - 1).toNat =
              start + offset by omega, overlay_getElem?_within inside within]
            exact ⟨by omega, found⟩
          cut := by
            intro conflict
            have short : ¬ args.prevLogIndex + args.entries.length < rf.getLastLogIndex :=
              fun longer => noTail ⟨notOutdated, previous, conflict, longer⟩
            omega
          kept := by
            intro _ index entry behind
            apply logAtIndex_iff_of_position contiguous contiguous' base
            intro above
            rw [laid, overlay_getElem?_behind inside (by omega)] }

/-- A follower of term 1 with three entries. -/
def threeEntries (me : Fin n) : Raft n :=
  { Raft.init me none with
    currentTerm := 1
    logs := [⟨[97], 1, 1⟩, ⟨[98], 1, 2⟩, ⟨[99], 1, 3⟩] }

/-- A leader of term 2 replaces the entry at index 2. -/
def replaceSecond : AppendEntriesArgs where
  term := 2
  leaderId := 0
  prevLogIndex := 1
  prevLogTerm := 1
  entries := [⟨[100], 2, 2⟩]
  leaderCommit := 0

/-- A leader of term 2 replaces the entries from index 2 on. -/
def replaceRest : AppendEntriesArgs :=
  { replaceSecond with entries := [⟨[100], 2, 2⟩, ⟨[101], 2, 3⟩] }

theorem appendEntries1_receiverRule_replaceRest :
    ((threeEntries (1 : Fin 3)).commitIndex ≤ (threeEntries (1 : Fin 3)).getLastLogIndex →
      ∃ rf' reply, (threeEntries (1 : Fin 3)).appendEntries1 replaceRest = .ok (rf', reply) ∧
        reply.success = true) ∧
    ∀ rf' reply, (threeEntries (1 : Fin 3)).appendEntries1 replaceRest = .ok (rf', reply) →
      reply.success = true →
      (ReceiverRule (threeEntries 1) rf' replaceRest ↔
        ¬ (threeEntries (1 : Fin 3)).LeavesStaleTail replaceRest) :=
  appendEntries1_receiverRule (by decide) (by decide) (by rfl) (by decide)
    (by unfold AgreesWith; decide)

/-- The entry at index 3 survives behind the conflict at index 2. -/
theorem not_appendEntries1_receiverRule :
    ¬ ∀ (rf : Raft 3) (args : AppendEntriesArgs), rf.Contiguous → rf.currentTerm ≤ args.term →
      rf.matchLog args.prevLogIndex args.prevLogTerm = .ok true → args.Numbered →
      rf.AgreesWith args.entries → ∀ rf' reply, rf.appendEntries1 args = .ok (rf', reply) →
        reply.success = true → ReceiverRule rf rf' args := by
  intro follows
  have rule := follows (threeEntries 1) replaceSecond (by decide) (by decide) (by rfl) (by decide)
    (by unfold AgreesWith; decide) _ _ rfl rfl
  exact absurd (rule.cut ⟨⟨[100], 2, 2⟩, by decide, by decide⟩) (by decide)

/-! ## InstallSnapshot -/

/-- What a new snapshot is to leave: its index and term, the old entries behind
it if the old log had its last entry, and the new state with the Persister. -/
structure Installed (rf rf' : Raft n) (args : InstallSnapshotRequest) : Prop where
  index : rf'.lastSnapshotIncludeIndex = args.lastSnapShotIncludeIndex
  term : rf'.lastSnapshotIncludeTerm = args.lastSnapShotIncludeTerm
  matching : ∀ entry, rf.logAtIndex args.lastSnapShotIncludeIndex = .ok entry →
    entry.logTerm = args.lastSnapShotIncludeTerm →
    rf'.logs = rf.logs.filter fun old => decide (args.lastSnapShotIncludeIndex < old.logIndex)
  other : (¬ ∃ entry, rf.logAtIndex args.lastSnapShotIncludeIndex = .ok entry ∧
    entry.logTerm = args.lastSnapShotIncludeTerm) → rf'.logs = []
  raftState : latestRaftState rf'.persister = some rf'.persistData
  snapshot : latestSnapshot rf'.persister = some args.data

/-- The log that `InstallSnapshot` leaves is the part of the old one behind the
snapshot, whatever the entry at the snapshot is. -/
theorem cutLogs_eq_filter {index : Int} {logs : List LogEntry} (contiguous : rf.Contiguous)
    (cut : rf.cutLogs index = .ok logs) :
    logs = rf.logs.filter fun old => decide (index < old.logIndex) := by
  have last := getLastLogIndex_of_numbered contiguous
  rw [contiguous.filter_behind]
  rcases cutLogs_cases cut with ⟨covered, rfl⟩ | ⟨longer, above, rfl⟩
  · rw [List.drop_of_length_le (by omega)]
  · congr 1
    omega

/-- A new snapshot is installed as it is meant to be exactly if the node does
not keep a suffix behind an entry that the snapshot contradicts. -/
theorem installSnapshot_installed {args : InstallSnapshotRequest} (contiguous : rf.Contiguous)
    (notOutdated : rf.currentTerm ≤ args.term)
    (newer : rf.lastSnapshotIncludeIndex < args.lastSnapShotIncludeIndex) :
    ∃ rf' response msg, rf.installSnapshot args = .ok (rf', response, msg) ∧
      (Installed rf rf' args ↔ ¬ rf.KeepsUnmatchedSuffix args) := by
  have last := getLastLogIndex_of_numbered contiguous
  obtain ⟨⟨rf', response, msg⟩, handled⟩ := installSnapshot_succeeds contiguous args
  refine ⟨rf', response, msg, handled, ?_⟩
  rcases installSnapshot_cases handled with ⟨outdated, _⟩ | ⟨_, covered, _⟩ |
    ⟨_, _, ⟨logs, cut, rfl⟩, _⟩
  · omega
  · omega
  · have kept := cutLogs_eq_filter contiguous cut
    constructor
    · rintro installed ⟨_, _, longer, conflict⟩
      obtain ⟨_, empty⟩ | ⟨_, _, behind⟩ := cutLogs_cases cut
      · omega
      · have cleared : logs = [] := by
          apply installed.other
          rintro ⟨entry, found, sameTerm⟩
          exact (conflictsAt_of_found found).mp conflict sameTerm
        have length := congrArg List.length behind
        rw [cleared, List.length_drop, List.length_nil] at length
        omega
    · intro matches'
      exact
        { index := rfl
          term := rfl
          matching := fun _ _ _ => kept
          other := by
            intro absent
            change logs = []
            obtain ⟨_, empty⟩ | ⟨longer, _, _⟩ := cutLogs_cases cut
            · exact empty
            · have inside : (args.lastSnapShotIncludeIndex -
                  rf.lastSnapshotIncludeIndex - 1).toNat < rf.logs.length := by omega
              have found := contiguous.logAtIndex.mpr
                ⟨newer, List.getElem?_eq_getElem inside⟩
              refine absurd ⟨notOutdated, newer, longer, ?_⟩ matches'
              rw [conflictsAt_of_found found]
              intro sameTerm
              exact absent ⟨_, found, sameTerm⟩
          raftState := synced_save _ _
          snapshot := by simp [latestSnapshot, save] }

/-- A snapshot up to index 1 whose last entry the node has. -/
def snapshotOfFirst : InstallSnapshotRequest where
  leaderId := 0
  term := 2
  lastSnapShotIncludeIndex := 1
  lastSnapShotIncludeTerm := 1
  data := [120]

theorem installSnapshot_installed_snapshotOfFirst :
    ∃ rf' response msg,
      (threeEntries (1 : Fin 3)).installSnapshot snapshotOfFirst = .ok (rf', response, msg) ∧
        (Installed (threeEntries 1) rf' snapshotOfFirst ↔
          ¬ (threeEntries (1 : Fin 3)).KeepsUnmatchedSuffix snapshotOfFirst) :=
  installSnapshot_installed (by decide) (by decide) (by decide)

/-- The entries 2 and 3 of term 1 stay behind a snapshot whose last entry has
term 2. -/
theorem not_installSnapshot_installed :
    ¬ ∀ (rf : Raft 3) (args : InstallSnapshotRequest), rf.Contiguous →
      rf.currentTerm ≤ args.term →
      rf.lastSnapshotIncludeIndex < args.lastSnapShotIncludeIndex →
      ∃ rf' response msg, rf.installSnapshot args = .ok (rf', response, msg) ∧
        Installed rf rf' args := by
  intro installs
  obtain ⟨rf', response, msg, handled, installed⟩ :=
    installs (threeEntries 1) { snapshotOfFirst with lastSnapShotIncludeTerm := 2 }
      (by decide) (by decide) (by decide)
  cases handled
  have cleared := installed.other (by
    rintro ⟨entry, found, sameTerm⟩
    cases found
    exact absurd sameTerm (by decide))
  exact absurd cleared (by decide)

end CppRaft.RaftCore.Raft
