import CppRaft.RaftCore.Exchange
import CppRaft.RaftCore.Total
import Mathlib.Data.Nat.Find

/-!
# Committing by counter and by recount

`leaderUpdateCommitIndex` looks for the largest index of the current term that
a majority has matched.  `sendAppendEntries` no longer calls it: it counts the
successes of one heartbeat round, and commits the end of the request whose
reply completes the count.
-/

namespace CppRaft.RaftCore

open CppRaft.Store

namespace Raft

variable {n : Nat}

/-! ## The recount -/

/-- The inner loop of `leaderUpdateCommitIndex`: this node and the peers that
have matched `index`. -/
def matched (rf : Raft n) (index : Int) : Nat :=
  (List.finRange n).countP fun i => decide (i = rf.me ∨ rf.matchIndex i ≥ index)

/-- The outer loop of `leaderUpdateCommitIndex`, from the entry number `count`
downwards. -/
def recountLoop (rf : Raft n) : Nat → Except Fault (Raft n)
  | 0 => return rf
  | count + 1 =>
      let index := rf.lastSnapshotIncludeIndex + (count + 1 : Nat)
      if rf.matched index ≥ n / 2 + 1 then do
        if (← rf.getLogTermFromLogIndex index) = rf.currentTerm then
          return { rf with commitIndex := index }
        else
          rf.recountLoop count
      else
        rf.recountLoop count

/-- `Raft::leaderUpdateCommitIndex`. -/
def leaderUpdateCommitIndex (rf : Raft n) : Except Fault (Raft n) :=
  let rf := { rf with commitIndex := rf.lastSnapshotIncludeIndex }
  rf.recountLoop (rf.getLastLogIndex - rf.lastSnapshotIncludeIndex).toNat

/-- The log has an entry of the current term at `index`. -/
def HasCurrent (rf : Raft n) (index : Int) : Prop :=
  ∃ entry ∈ rf.logs, entry.logIndex = index ∧ entry.logTerm = rf.currentTerm

/-- An index that `leaderUpdateCommitIndex` may commit. -/
def Replicated (rf : Raft n) (index : Int) : Prop :=
  rf.HasCurrent index ∧ n / 2 + 1 ≤ rf.matched index

instance (rf : Raft n) (index : Int) : Decidable (rf.HasCurrent index) :=
  inferInstanceAs (Decidable (∃ entry ∈ rf.logs, _))

instance (rf : Raft n) (index : Int) : Decidable (rf.Replicated index) :=
  inferInstanceAs (Decidable (_ ∧ _))

variable {rf rf' : Raft n}

theorem hasCurrent_iff (contiguous : rf.Contiguous) {index term : Int}
    (above : rf.lastSnapshotIncludeIndex < index)
    (read : rf.getLogTermFromLogIndex index = .ok term) :
    rf.HasCurrent index ↔ term = rf.currentTerm := by
  simp only [getLogTermFromLogIndex, bind_eq_ok] at read
  obtain ⟨_, _, _, _, found⟩ := read
  rw [if_neg (by omega)] at found
  simp only [bind_eq_ok, pure_eq_ok] at found
  obtain ⟨entry, here, rfl⟩ := found
  obtain ⟨member, place⟩ := (Contiguous.logAtIndex_iff_mem contiguous).mp here
  constructor
  · rintro ⟨other, member', place', current⟩
    rw [contiguous.eq_of_index member member' (place.trans place'.symm)]
    exact current
  · intro current
    exact ⟨entry, member, place, current⟩

/-- One iteration of the outer loop. -/
theorem recountLoop_succ (contiguous : rf.Contiguous) {count : Nat}
    (inside : count + 1 ≤ rf.logs.length) :
    rf.recountLoop (count + 1) =
      if rf.Replicated (rf.lastSnapshotIncludeIndex + (count + 1 : Nat)) then
        .ok { rf with commitIndex := rf.lastSnapshotIncludeIndex + (count + 1 : Nat) }
      else rf.recountLoop count := by
  have last := getLastLogIndex_of_numbered contiguous
  have above : rf.lastSnapshotIncludeIndex <
    rf.lastSnapshotIncludeIndex + (count + 1 : Nat) := by omega
  obtain ⟨term, read⟩ := getLogTermFromLogIndex_succeeds contiguous above.le (by omega)
  have current := hasCurrent_iff contiguous above read
  rw [recountLoop]
  by_cases majority : rf.matched (rf.lastSnapshotIncludeIndex + (count + 1 : Nat)) ≥ n / 2 + 1
  · rw [if_pos majority, read]
    by_cases sameTerm : term = rf.currentTerm
    · rw [if_pos ⟨current.mpr sameTerm, majority⟩, sameTerm]
      exact if_pos rfl
    · rw [if_neg fun found => sameTerm (current.mp found.1)]
      exact if_neg sameTerm
  · rw [if_neg majority, if_neg fun found => majority found.2]

/-- The loop stops at the greatest number of a replicated entry. -/
theorem recountLoop_eq (contiguous : rf.Contiguous)
    (base : rf.commitIndex = rf.lastSnapshotIncludeIndex) {count : Nat}
    (inside : count ≤ rf.logs.length) :
    rf.recountLoop count = .ok { rf with
      commitIndex := rf.lastSnapshotIncludeIndex +
        Nat.findGreatest (fun k => rf.Replicated (rf.lastSnapshotIncludeIndex + k)) count } := by
  induction count with
  | zero =>
      rw [Nat.findGreatest_zero, Int.natCast_zero, Int.add_zero]
      exact congrArg (fun index => Except.ok { rf with commitIndex := index }) base
  | succ count ih =>
      rw [recountLoop_succ contiguous inside]
      split
      · rename_i found
        rw [Nat.findGreatest_eq found]
      · rename_i missing
        rw [Nat.findGreatest_of_not missing]
        exact ih (by omega)

theorem replicated_range (contiguous : rf.Contiguous) {index : Int}
    (replicated : rf.Replicated index) :
    rf.lastSnapshotIncludeIndex < index ∧ index ≤ rf.getLastLogIndex := by
  obtain ⟨⟨entry, member, rfl, _⟩, _⟩ := replicated
  have range := NumberedFrom.mem_range contiguous member
  have last := getLastLogIndex_of_numbered contiguous
  omega

/-- `leaderUpdateCommitIndex` commits the largest replicated index, or the end
of the snapshot if there is none. -/
theorem leaderUpdateCommitIndex_greatest (contiguous : rf.Contiguous) :
    ∃ index, rf.leaderUpdateCommitIndex = .ok { rf with commitIndex := index } ∧
      (index = rf.lastSnapshotIncludeIndex ∨ rf.Replicated index) ∧
      ∀ other, rf.Replicated other → other ≤ index := by
  have last := getLastLogIndex_of_numbered contiguous
  obtain ⟨number, greatest⟩ : ∃ number, Nat.findGreatest (fun k : Nat =>
    rf.Replicated (rf.lastSnapshotIncludeIndex + k)) rf.logs.length = number := ⟨_, rfl⟩
  have loop : rf.leaderUpdateCommitIndex =
      .ok { rf with commitIndex := rf.lastSnapshotIncludeIndex + (number : Int) } := by
    have count : (rf.getLastLogIndex - rf.lastSnapshotIncludeIndex).toNat = rf.logs.length := by
      omega
    rw [← greatest]
    change recountLoop _ (rf.getLastLogIndex - rf.lastSnapshotIncludeIndex).toNat = _
    rw [count]
    have base : ({ rf with commitIndex := rf.lastSnapshotIncludeIndex } : Raft n).Contiguous :=
      contiguous
    exact recountLoop_eq base rfl le_rfl
  obtain ⟨_, found, later⟩ := Nat.findGreatest_eq_iff.mp greatest
  refine ⟨_, loop, ?_, ?_⟩
  · by_cases none : number = 0
    · exact Or.inl (by omega)
    · exact Or.inr (found none)
  · intro other replicated
    have range := replicated_range contiguous replicated
    obtain ⟨k, rfl⟩ := Int.exists_add_of_le range.1.le
    by_contra above
    exact later (show number < k by omega) (by omega) replicated

/-- The commit index of `rf'` is the larger of that of `rf` and the one that the
recount of `rf'` finds. -/
def CommitsRecount (rf rf' : Raft n) : Prop :=
  ∃ counted, rf'.leaderUpdateCommitIndex = .ok counted ∧
    rf'.commitIndex = max rf.commitIndex counted.commitIndex

instance (rf rf' : Raft n) : Decidable (CommitsRecount rf rf') :=
  match loop : rf'.leaderUpdateCommitIndex with
  | .error _ => isFalse fun ⟨_, loop', _⟩ => nomatch loop.symm.trans loop'
  | .ok counted =>
      decidable_of_iff (rf'.commitIndex = max rf.commitIndex counted.commitIndex)
        ⟨fun same => ⟨counted, loop, same⟩, fun ⟨_, loop', same⟩ => by
          rwa [Except.ok.inj (loop.symm.trans loop')]⟩

/-- The commit index is not behind the recount. -/
def CaughtUp (rf : Raft n) : Prop :=
  ∀ index, rf.Replicated index → index ≤ rf.commitIndex

theorem CommitsRecount.caughtUp (contiguous : rf'.Contiguous) (agrees : CommitsRecount rf rf') :
    rf'.CaughtUp := by
  obtain ⟨counted, loop, same⟩ := agrees
  obtain ⟨greatest, loop', _, later⟩ := leaderUpdateCommitIndex_greatest contiguous
  rw [loop, Except.ok.injEq] at loop'
  subst loop'
  intro index replicated
  rw [same]
  exact (later index replicated).trans (le_max_right _ _)

theorem commitsRecount_iff (contiguous : rf'.Contiguous)
    (above : rf'.lastSnapshotIncludeIndex ≤ rf.commitIndex) :
    CommitsRecount rf rf' ↔
      (rf'.commitIndex = rf.commitIndex ∨
        rf.commitIndex < rf'.commitIndex ∧ rf'.Replicated rf'.commitIndex) ∧
      rf'.CaughtUp := by
  obtain ⟨greatest, loop, found, later⟩ := leaderUpdateCommitIndex_greatest contiguous
  have max_iff : CommitsRecount rf rf' ↔ rf'.commitIndex = max rf.commitIndex greatest := by
    constructor
    · rintro ⟨counted, loop', same⟩
      rw [loop, Except.ok.injEq] at loop'
      rw [same, ← loop']
    · intro same
      exact ⟨_, loop, same⟩
  rw [max_iff]
  constructor
  · intro same
    refine ⟨?_, fun index replicated => (later index replicated).trans (by omega)⟩
    by_cases lower : greatest ≤ rf.commitIndex
    · exact Or.inl (by omega)
    · have here : rf'.commitIndex = greatest := by omega
      rw [here]
      exact Or.inr ⟨by omega, found.resolve_left (by omega)⟩
  · rintro ⟨same | ⟨higher, replicated⟩, bound⟩
    · rcases found with base | replicated
      · omega
      · have := bound greatest replicated
        omega
    · have := later _ replicated
      rcases found with base | replicated'
      · omega
      · have := bound greatest replicated'
        omega

/-! ## The counter of a round -/

/-- This node and the peers that match `index` once `server` has matched
everything up to `last`. -/
def matchedWith (rf : Raft n) (server : Fin n) (last index : Int) : Nat :=
  (List.finRange n).countP fun i =>
    decide (i = rf.me ∨ rf.matchIndex i ≥ index ∨ i = server ∧ last ≥ index)

/-- The success completes its round, and its request ends in an entry of the
current term. -/
def CompletesRound (rf : Raft n) (args : AppendEntriesArgs) (appendNums : Int) : Prop :=
  appendNums + 1 ≥ ((1 + n / 2 : Nat) : Int) ∧
    args.entries.getLast?.map LogEntry.logTerm = some rf.currentTerm

/-- The success of `server` completes its round exactly when it gives an entry
of the current term behind the commit index a majority. -/
structure CountsMajority (rf : Raft n) (server : Fin n) (args : AppendEntriesArgs)
    (appendNums : Int) : Prop where
  enough : rf.CompletesRound args appendNums → rf.commitIndex < args.endIndex →
    n / 2 + 1 ≤ rf.matchedWith server args.endIndex args.endIndex
  noneLost : ∀ entry ∈ rf.logs, rf.commitIndex < entry.logIndex →
    entry.logTerm = rf.currentTerm →
    n / 2 + 1 ≤ rf.matchedWith server args.endIndex entry.logIndex →
    rf.CompletesRound args appendNums

instance (rf : Raft n) (args : AppendEntriesArgs) (appendNums : Int) :
    Decidable (rf.CompletesRound args appendNums) :=
  inferInstanceAs (Decidable (_ ∧ _))

instance (rf : Raft n) (server : Fin n) (args : AppendEntriesArgs) (appendNums : Int) :
    Decidable (rf.CountsMajority server args appendNums) :=
  decidable_of_iff ((_ → _ → _) ∧ ∀ entry ∈ rf.logs, _ → _ → _ → _)
    ⟨fun both => ⟨both.1, both.2⟩, fun counts => ⟨counts.enough, counts.noneLost⟩⟩

theorem matched_update (rf : Raft n) (server : Fin n) (last index commitIndex : Int)
    (nextIndex : Fin n → Int) :
    { rf with
      matchIndex := Function.update rf.matchIndex server (max (rf.matchIndex server) last)
      nextIndex := nextIndex
      commitIndex := commitIndex }.matched index = rf.matchedWith server last index := by
  unfold matched matchedWith
  congr 1
  funext i
  apply decide_eq_decide.mpr
  by_cases here : i = server
  · subst here
    have either : index ≤ max (rf.matchIndex i) last ↔ index ≤ rf.matchIndex i ∨ index ≤ last := by
      omega
    simp [either]
  · simp [here]

theorem matchedWith_of_lt (rf : Raft n) (server : Fin n) {last index : Int}
    (beyond : last < index) : rf.matchedWith server last index = rf.matched index := by
  unfold matched matchedWith
  congr 1
  funext i
  apply decide_eq_decide.mpr
  have absent : ¬ last ≥ index := by omega
  simp [absent]

/-- The reply is a success that `sendAppendEntries` counts. -/
def TakesSuccess (rf : Raft n) (reply : AppendEntriesReply) : Prop :=
  rf.status = .leader ∧ reply.appState ≠ Disconnected ∧ reply.term = rf.currentTerm ∧
    reply.success = true

instance (rf : Raft n) (reply : AppendEntriesReply) : Decidable (rf.TakesSuccess reply) :=
  inferInstanceAs (Decidable (_ ∧ _))

theorem sendAppendEntries_matchIndex {server : Fin n} {args : AppendEntriesArgs}
    {reply : AppendEntriesReply} {appendNums appendNums' : Int}
    (other : ¬ rf.TakesSuccess reply)
    (processed : rf.sendAppendEntries server args reply appendNums = .ok (rf', appendNums')) :
    rf'.matchIndex = rf.matchIndex := by
  unfold sendAppendEntries at processed
  split at processed
  · cases processed
    rfl
  · rename_i connected
    split at processed
    · cases processed
      rfl
    · split at processed
      · cases processed
        rfl
      · split at processed
        · cases processed
          rfl
        · rename_i notLater notEarlier leads
          simp only [bind_eq_ok] at processed
          obtain ⟨_, _, answered⟩ := processed
          split at answered
          · split at answered
            · cases answered
              rfl
            · cases answered
              rfl
          · rename_i success
            exact absurd ⟨not_not.mp leads, connected, by omega, by simpa using success⟩ other

theorem matched_mono {index : Int} (me : rf'.me = rf.me)
    (fewer : ∀ server, rf'.matchIndex server ≥ index → rf.matchIndex server ≥ index) :
    rf'.matched index ≤ rf.matched index := by
  apply List.countP_mono_left
  intro i _ counted
  simp only [decide_eq_true_eq, me] at counted ⊢
  exact counted.imp_right (fewer i)

/-- An index that no peer has matched has one copy. -/
theorem matched_le_one {index : Int} (unmatched : ∀ server, rf.matchIndex server < index) :
    rf.matched index ≤ 1 := by
  have alone : ∀ i, (i = rf.me ∨ rf.matchIndex i ≥ index) ↔ i = rf.me := by
    intro i
    have below := unmatched i
    constructor
    · rintro (here | matched)
      · exact here
      · omega
    · exact Or.inl
  unfold matched
  simp only [alone]
  exact List.nodup_iff_count.mp (List.nodup_finRange n) rf.me

/-- After a success the commit index agrees with the recount exactly when the
counter has counted that majority, provided that it was not behind before. -/
theorem sendAppendEntries_commitsRecount {server : Fin n} {args : AppendEntriesArgs}
    {reply : AppendEntriesReply} {appendNums appendNums' : Int} (placed : rf.Placed)
    (leads : rf.status = .leader) (connected : reply.appState ≠ Disconnected)
    (term : reply.term = rf.currentTerm) (success : reply.success = true)
    (caughtUp : rf.CaughtUp)
    (sent : args.entries.getLast?.map LogEntry.logTerm = some rf.currentTerm →
      rf.commitIndex < args.endIndex → rf.HasCurrent args.endIndex)
    (processed : rf.sendAppendEntries server args reply appendNums = .ok (rf', appendNums')) :
    CommitsRecount rf rf' ↔ rf.CountsMajority server args appendNums := by
  have after := sendAppendEntries_success leads connected term success processed
  have replicated_iff : ∀ index, rf'.Replicated index ↔
      rf.HasCurrent index ∧ n / 2 + 1 ≤ rf.matchedWith server args.endIndex index := by
    intro index
    rw [after, Replicated, matched_update]
    exact Iff.rfl
  -- An index beyond the request has no more copies than before.
  have before : ∀ index, rf'.Replicated index → args.endIndex < index →
      index ≤ rf.commitIndex := by
    intro index replicated beyond
    rw [replicated_iff, rf.matchedWith_of_lt server beyond] at replicated
    exact caughtUp index replicated
  have contiguous : rf'.Contiguous := by
    rw [after]
    exact placed.logs
  have above : rf'.lastSnapshotIncludeIndex ≤ rf.commitIndex := by
    rw [after]
    exact placed.applied.trans placed.committed
  rw [commitsRecount_iff contiguous above]
  by_cases completes : rf.CompletesRound args appendNums
  · have commit : rf'.commitIndex = max rf.commitIndex args.endIndex := by
      rw [after]
      exact if_pos completes
    by_cases higher : rf.commitIndex < args.endIndex
    · have here : rf'.commitIndex = args.endIndex := by omega
      rw [here]
      constructor
      · rintro ⟨same | ⟨_, replicated⟩, _⟩
        · omega
        · exact ⟨fun _ _ => ((replicated_iff _).mp replicated).2, fun _ _ _ _ _ => completes⟩
      · intro counts
        refine ⟨Or.inr ⟨higher, (replicated_iff _).mpr
          ⟨sent completes.2 higher, counts.enough completes higher⟩⟩, ?_⟩
        intro index replicated
        by_contra beyond
        have := before index replicated (by omega)
        omega
    · have here : rf'.commitIndex = rf.commitIndex := by omega
      rw [here]
      constructor
      · intro _
        exact ⟨fun _ higher' => absurd higher' higher, fun _ _ _ _ _ => completes⟩
      · intro _
        refine ⟨Or.inl rfl, ?_⟩
        intro index replicated
        by_contra beyond
        have := before index replicated (by omega)
        omega
  · have commit : rf'.commitIndex = rf.commitIndex := by
      rw [after]
      exact if_neg completes
    rw [commit]
    constructor
    · rintro ⟨_, bound⟩
      refine ⟨fun completes' => absurd completes' completes, ?_⟩
      intro entry member beyond current majority
      have := bound entry.logIndex ((replicated_iff _).mpr
        ⟨⟨entry, member, rfl, current⟩, majority⟩)
      omega
    · intro counts
      refine ⟨Or.inl rfl, ?_⟩
      intro index replicated
      obtain ⟨⟨entry, member, rfl, current⟩, majority⟩ := (replicated_iff index).mp replicated
      by_contra beyond
      exact completes (counts.noneLost entry member (by omega) current majority)

end Raft

end CppRaft.RaftCore
