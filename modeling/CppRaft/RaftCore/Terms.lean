import CppRaft.RaftCore.Outcome
import Mathlib.Data.Int.Order.Basic

/-!
# Terms, votes and the leader status in a critical section

Apart from standing for election, giving a vote and being elected, a critical
section keeps the vote of the term it is in and makes no leader.  The assertion
against a second election in one term is only made by `sendRequestVote`.
-/

namespace CppRaft.RaftCore

open CppRaft.Store

variable {n : Nat}

namespace Raft

/-! ## Keeping the vote -/

/-- `rf'` keeps the vote of the term of `rf` or has a later term, and leads
only if `rf` did. -/
structure VoteFrame (rf rf' : Raft n) : Prop where
  me : rf'.me = rf.me
  term : rf.currentTerm ≤ rf'.currentTerm
  vote : rf'.currentTerm = rf.currentTerm → rf'.votedFor = rf.votedFor
  leads : rf'.status = .leader → rf.status = .leader ∧ rf'.currentTerm = rf.currentTerm

theorem VoteFrame.of_same {rf rf' : Raft n} (me : rf'.me = rf.me)
    (term : rf'.currentTerm = rf.currentTerm) (vote : rf'.votedFor = rf.votedFor)
    (leads : rf'.status = .leader → rf.status = .leader) : VoteFrame rf rf' where
  me := me
  term := term.ge
  vote := fun _ => vote
  leads := fun leader => ⟨leads leader, term⟩

theorem VoteFrame.refl (rf : Raft n) : VoteFrame rf rf :=
  .of_same rfl rfl rfl id

theorem voteFrame_persist (rf : Raft n) : VoteFrame rf rf.persist :=
  .of_same rfl rfl rfl id

/-- A node that adopts a later term leads nothing. -/
theorem VoteFrame.of_later {rf rf' : Raft n} (me : rf'.me = rf.me)
    (later : rf.currentTerm < rf'.currentTerm) (follows : rf'.status ≠ .leader) :
    VoteFrame rf rf' where
  me := me
  term := later.le
  vote := fun same => absurd same later.ne'
  leads := fun leader => absurd leader follows

theorem voteFrame_adoptTerm (rf : Raft n) {term : Int} (later : rf.currentTerm < term) :
    VoteFrame rf (rf.adoptTerm term) :=
  .of_later rfl later (by simp [adoptTerm])

theorem voteFrame_meetTerm (rf : Raft n) {term : Int} (notOutdated : rf.currentTerm ≤ term) :
    VoteFrame rf (rf.meetTerm term) := by
  rcases rf.meetTerm_eq_or notOutdated with ⟨same, _⟩ | ⟨adopted, later⟩
  · rw [same]
    exact VoteFrame.refl rf
  · rw [adopted]
    exact voteFrame_adoptTerm rf later

theorem VoteFrame.trans {rf rf' rf'' : Raft n} (first : VoteFrame rf rf')
    (second : VoteFrame rf' rf'') : VoteFrame rf rf'' where
  me := second.me.trans first.me
  term := first.term.trans second.term
  vote := by
    intro same
    have := first.term
    have := second.term
    rw [second.vote (by omega), first.vote (by omega)]
  leads := by
    intro leader
    obtain ⟨leads', same'⟩ := second.leads leader
    obtain ⟨leads, same⟩ := first.leads leads'
    exact ⟨leads, same'.trans same⟩

theorem voteFrame_appendEntries1 {rf rf' : Raft n} {args : AppendEntriesArgs}
    {reply : AppendEntriesReply} (handled : rf.appendEntries1 args = .ok (rf', reply)) :
    VoteFrame rf rf' := by
  rcases appendEntries1_cases handled with
    ⟨_, rfl, _⟩ | ⟨notOutdated, rfl, _⟩ | ⟨notOutdated, _, _, _, stored, looped, rfl⟩
  · exact VoteFrame.refl _
  · refine (voteFrame_meetTerm rf notOutdated).trans (.of_same rfl rfl rfl ?_)
    intro leader
    cases leader
  · refine (voteFrame_meetTerm rf notOutdated).trans ?_
    rw [appendEntriesLoop_eq looped]
    unfold followCommit
    split
    all_goals
      refine .of_same rfl rfl rfl ?_
      intro leader
      cases leader

theorem voteFrame_installSnapshot {rf rf' : Raft n} {args : InstallSnapshotRequest}
    {response : InstallSnapshotResponse} {msg : Option ApplyMsg}
    (handled : rf.installSnapshot args = .ok (rf', response, msg)) : VoteFrame rf rf' := by
  have termFrame : rf.currentTerm ≤ args.term → VoteFrame rf (rf.snapshotTerm args.term) := by
    intro notOutdated
    rcases rf.snapshotTerm_eq_or notOutdated with ⟨same, _⟩ | ⟨adopted, later⟩
    · rw [same]
      refine .of_same rfl rfl rfl ?_
      intro leader
      cases leader
    · rw [adopted]
      exact (voteFrame_adoptTerm rf later).trans (voteFrame_persist _)
  rcases installSnapshot_cases handled with
    ⟨_, rfl, _⟩ | ⟨notOutdated, _, rfl, _⟩ | ⟨notOutdated, _, ⟨logs, _, rfl⟩, _⟩
  · exact VoteFrame.refl _
  · exact termFrame notOutdated
  · exact (termFrame notOutdated).trans (.of_same rfl rfl rfl id)

theorem voteFrame_sendAppendEntries {rf rf' : Raft n} {server : Fin n} {args : AppendEntriesArgs}
    {reply : AppendEntriesReply} {appendNums appendNums' : Int}
    (processed : rf.sendAppendEntries server args reply appendNums = .ok (rf', appendNums')) :
    VoteFrame rf rf' := by
  rcases sendAppendEntries_cases processed with
    ⟨_, later, rfl, _⟩ | ⟨_, _, rfl⟩ | ⟨_, _, _, _, _, _, rfl, _⟩
  · exact voteFrame_adoptTerm rf later
  · exact .of_same rfl rfl rfl id
  · exact .of_same rfl rfl rfl id

theorem voteFrame_leaderSendSnapShot (rf : Raft n) (server : Fin n)
    (args : InstallSnapshotRequest) (reply : InstallSnapshotResponse) :
    VoteFrame rf (rf.leaderSendSnapShot server args reply) := by
  rcases rf.leaderSendSnapShot_cases server args reply with ⟨later, adopted⟩ | ⟨_, _, moved⟩
  · rw [adopted]
    exact (voteFrame_adoptTerm rf later).trans (voteFrame_persist _)
  · rw [moved]
    exact .of_same rfl rfl rfl id

theorem voteFrame_startConses (rf : Raft n) (command : Bytes) :
    VoteFrame rf (rf.startConses command).1 := by
  rcases rf.startConses_cases command with ⟨_, refused⟩ | ⟨_, appended⟩
  · rw [refused]
    exact VoteFrame.refl rf
  · rw [appended]
    exact .of_same rfl rfl rfl id

theorem voteFrame_snapshot {rf rf' : Raft n} {index : Int} {data : Bytes}
    (taken : rf.snapshot index data = .ok rf') : VoteFrame rf rf' := by
  rcases snapshot_cases taken with rfl | ⟨_, _, _, _, _, _, rfl⟩
  · exact VoteFrame.refl _
  · exact .of_same rfl rfl rfl id

/-- `getApplyLogs` only moves `m_lastApplied`. -/
theorem applyLoop_eq {rf rf' : Raft n} {count : Nat} {applyMsgs : List ApplyMsg}
    (applied : rf.applyLoop count = .ok (rf', applyMsgs)) :
    rf' = { rf with lastApplied := rf'.lastApplied } := by
  induction count generalizing rf applyMsgs with
  | zero =>
      cases applied
      rfl
  | succ count ih =>
      simp only [applyLoop, bind_eq_ok] at applied
      obtain ⟨_, _, _, _, ⟨_, _⟩, later, final⟩ := applied
      cases final
      rw [ih later]

theorem getApplyLogs_eq {rf rf' : Raft n} {applyMsgs : List ApplyMsg}
    (collected : rf.getApplyLogs = .ok (rf', applyMsgs)) :
    rf' = { rf with lastApplied := rf'.lastApplied } := by
  simp only [getApplyLogs, bind_eq_ok] at collected
  obtain ⟨_, _, applied⟩ := collected
  exact applyLoop_eq applied

theorem voteFrame_getApplyLogs {rf rf' : Raft n} {applyMsgs : List ApplyMsg}
    (collected : rf.getApplyLogs = .ok (rf', applyMsgs)) : VoteFrame rf rf' := by
  rw [getApplyLogs_eq collected]
  exact .of_same rfl rfl rfl id

/-- A heartbeat speaks for the term of the node. -/
theorem heartBeatTo_term {rf : Raft n} {server : Fin n} {args : AppendEntriesArgs}
    (built : rf.heartBeatTo server = .ok (.appendEntries args)) : args.term = rf.currentTerm := by
  simp only [heartBeatTo, bind_eq_ok] at built
  obtain ⟨_, _, sent⟩ := built
  split at sent
  · cases sent
  · simp only [bind_eq_ok] at sent
    obtain ⟨⟨index, term⟩, _, sent⟩ := sent
    split at sent
    · simp only [bind_eq_ok] at sent
      obtain ⟨_, _, _, _, _, _, final⟩ := sent
      cases final
      rfl
    · simp only [bind_eq_ok] at sent
      obtain ⟨_, _, _, _, final⟩ := sent
      cases final
      rfl

end Raft

/-! ## The other assertions -/

/-- A fallible step that does not fail with `fault`. -/
def Avoids {α : Type} (fault : Fault) (step : Except Fault α) : Prop :=
  step ≠ .error fault

section Avoids

variable {α β : Type} {fault : Fault}

theorem avoids_pure (value : α) : Avoids fault (pure value) := by
  intro failed
  cases failed

theorem avoids_error {fault' : Fault} (other : fault' ≠ fault) :
    Avoids fault (.error fault' : Except Fault α) :=
  fun failed => other (Except.error.inj failed)

theorem avoids_myAssert {condition : Prop} [Decidable condition] {fault' : Fault}
    (other : fault' ≠ fault) : Avoids fault (myAssert condition fault') := by
  unfold myAssert
  split
  · exact avoids_pure ()
  · exact avoids_error other

theorem Avoids.bind {first : Except Fault α} {second : α → Except Fault β}
    (avoids : Avoids fault first) (later : ∀ value, Avoids fault (second value)) :
    Avoids fault (first >>= second) := by
  cases first with
  | error fault' =>
      intro failed
      cases failed
      exact avoids rfl
  | ok value => exact later value

theorem Avoids.ite {condition : Prop} [Decidable condition] {left right : Except Fault α}
    (leftAvoids : Avoids fault left) (rightAvoids : Avoids fault right) :
    Avoids fault (if condition then left else right) := by
  split
  · exact leftAvoids
  · exact rightAvoids

end Avoids

namespace Raft

theorem avoids_getSlicesIndexFromLogIndex (rf : Raft n) (logIndex : Int) :
    Avoids .electedTwice (rf.getSlicesIndexFromLogIndex logIndex) :=
  (avoids_myAssert (by decide)).bind fun _ =>
    (avoids_myAssert (by decide)).bind fun _ => avoids_pure _

theorem avoids_logAt (rf : Raft n) (slice : Nat) : Avoids .electedTwice (rf.logAt slice) := by
  unfold logAt
  split
  · exact avoids_error (by decide)
  · exact avoids_pure _

theorem avoids_logAtIndex (rf : Raft n) (logIndex : Int) :
    Avoids .electedTwice (rf.logAtIndex logIndex) :=
  (rf.avoids_getSlicesIndexFromLogIndex logIndex).bind fun _ => rf.avoids_logAt _

theorem avoids_getLogTermFromLogIndex (rf : Raft n) (logIndex : Int) :
    Avoids .electedTwice (rf.getLogTermFromLogIndex logIndex) :=
  (avoids_myAssert (by decide)).bind fun _ => (avoids_myAssert (by decide)).bind fun _ =>
    Avoids.ite (avoids_pure _) ((rf.avoids_logAtIndex logIndex).bind fun _ => avoids_pure _)

theorem avoids_appendEntriesLoop (rf : Raft n) (entries : List LogEntry) :
    Avoids .electedTwice (rf.appendEntriesLoop entries) := by
  induction entries generalizing rf with
  | nil => exact avoids_pure rf
  | cons log rest ih =>
      refine Avoids.bind (Avoids.ite (avoids_pure _) ?_) fun rf' => ih rf'
      exact (rf.avoids_getSlicesIndexFromLogIndex _).bind fun _ => (rf.avoids_logAt _).bind fun _ =>
        (avoids_myAssert (by decide)).bind fun _ => Avoids.ite (avoids_pure _) (avoids_pure _)

theorem avoids_conflictScan (rf : Raft n) (prevLogIndex : Int) (count : Nat) :
    Avoids .electedTwice (rf.conflictScan prevLogIndex count) := by
  induction count with
  | zero => exact avoids_pure none
  | succ count ih =>
      exact (rf.avoids_getLogTermFromLogIndex _).bind fun _ =>
        (rf.avoids_getLogTermFromLogIndex _).bind fun _ => Avoids.ite (avoids_pure _) ih

theorem avoids_appendEntries1 (rf : Raft n) (args : AppendEntriesArgs) :
    Avoids .electedTwice (rf.appendEntries1 args) := by
  refine Avoids.ite (avoids_pure _) ((avoids_myAssert (by decide)).bind fun _ => ?_)
  refine Avoids.ite (avoids_pure _) (Avoids.bind ?_ fun matched => Avoids.ite ?_ ?_)
  · exact (avoids_myAssert (by decide)).bind fun _ =>
      (avoids_getLogTermFromLogIndex _ _).bind fun _ => avoids_pure _
  · exact (avoids_appendEntriesLoop _ _).bind fun _ => (avoids_myAssert (by decide)).bind fun _ =>
      (avoids_myAssert (by decide)).bind fun _ => avoids_pure _
  · exact (avoids_conflictScan _ _ _).bind fun _ => avoids_pure _

theorem avoids_requestVote (rf : Raft n) (args : RequestVoteArgs) :
    Avoids .electedTwice (rf.requestVote args) :=
  Avoids.ite (avoids_pure _) ((avoids_myAssert (by decide)).bind fun _ =>
    Avoids.ite (avoids_pure _) (Avoids.ite (avoids_pure _) (avoids_pure _)))

theorem avoids_installSnapshot (rf : Raft n) (args : InstallSnapshotRequest) :
    Avoids .electedTwice (rf.installSnapshot args) := by
  refine Avoids.ite (avoids_pure _) (Avoids.ite (avoids_pure _) (Avoids.bind ?_ fun _ =>
    avoids_pure _))
  refine Avoids.ite ?_ (avoids_pure _)
  exact (avoids_getSlicesIndexFromLogIndex _ _).bind fun _ =>
    Avoids.ite (avoids_pure _) (avoids_error (by decide))

theorem avoids_sendAppendEntries (rf : Raft n) (server : Fin n) (args : AppendEntriesArgs)
    (reply : AppendEntriesReply) (appendNums : Int) :
    Avoids .electedTwice (rf.sendAppendEntries server args reply appendNums) :=
  Avoids.ite (avoids_pure _) (Avoids.ite (avoids_pure _) (Avoids.ite (avoids_pure _)
    (Avoids.ite (avoids_pure _) ((avoids_myAssert (by decide)).bind fun _ =>
      Avoids.ite (Avoids.ite (avoids_pure _) (avoids_pure _))
        ((avoids_myAssert (by decide)).bind fun _ => Avoids.ite
          ((avoids_myAssert (by decide)).bind fun _ => avoids_pure _) (avoids_pure _))))))

theorem avoids_getPrevLogInfo (rf : Raft n) (server : Fin n) :
    Avoids .electedTwice (rf.getPrevLogInfo server) :=
  Avoids.ite (avoids_pure _) ((rf.avoids_logAtIndex _).bind fun _ => avoids_pure _)

theorem avoids_heartBeatTo (rf : Raft n) (server : Fin n) :
    Avoids .electedTwice (rf.heartBeatTo server) := by
  refine (avoids_myAssert (by decide)).bind fun _ => Avoids.ite (avoids_pure _) ?_
  refine (rf.avoids_getPrevLogInfo server).bind fun ⟨_, _⟩ => Avoids.ite ?_ ?_
  · exact (rf.avoids_getSlicesIndexFromLogIndex _).bind fun _ => (avoids_pure _).bind fun _ =>
      (avoids_myAssert (by decide)).bind fun _ => avoids_pure _
  · exact (avoids_pure _).bind fun _ => (avoids_myAssert (by decide)).bind fun _ => avoids_pure _

theorem heartBeats_fault (rf : Raft n) (servers : List (Fin n)) :
    (rf.heartBeats servers).2 ≠ some .electedTwice := by
  induction servers with
  | nil => simp [heartBeats]
  | cons server rest ih =>
      unfold heartBeats
      split
      · rename_i fault failed
        intro same
        cases same
        exact rf.avoids_heartBeatTo server failed
      · exact ih

theorem avoids_applyLoop (rf : Raft n) (count : Nat) :
    Avoids .electedTwice (rf.applyLoop count) := by
  induction count generalizing rf with
  | zero => exact avoids_pure _
  | succ count ih =>
      exact (avoids_logAtIndex _ _).bind fun _ => (avoids_myAssert (by decide)).bind fun _ =>
        (ih _).bind fun _ => avoids_pure _

theorem avoids_getApplyLogs (rf : Raft n) : Avoids .electedTwice rf.getApplyLogs :=
  (avoids_myAssert (by decide)).bind fun _ => rf.avoids_applyLoop _

theorem avoids_collectLogs (rf : Raft n) (index : Int) (count : Nat) :
    Avoids .electedTwice (rf.collectLogs index count) := by
  induction count generalizing index with
  | zero => exact avoids_pure []
  | succ count ih =>
      exact (rf.avoids_logAtIndex index).bind fun _ => (ih _).bind fun _ => avoids_pure _

theorem avoids_snapshot (rf : Raft n) (index : Int) (data : Bytes) :
    Avoids .electedTwice (rf.snapshot index data) :=
  Avoids.ite (avoids_pure _) ((rf.avoids_logAtIndex index).bind fun _ =>
    (rf.avoids_collectLogs _ _).bind fun _ =>
      (avoids_myAssert (by decide)).bind fun _ => avoids_pure _)

end Raft

end CppRaft.RaftCore
