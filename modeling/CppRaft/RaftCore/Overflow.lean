import CppRaft.RaftCore.Wrapping

/-!
# The runs of one node on machine integers

Of the sums of a node that can leave the range of `int`, two are stored in its
term or in its log: the term of `doElection` and the index of `StartConses`.
Both then wrap around to the smallest value, and the counters go back.  The
others reach no more than `m_nextIndex` and the loop counter of `Snapshot`,
whose next access ends the process.  In every run in which neither of the two
wraps around, the entries stay in their places, the counters move forward, and
`getApplyLogs` hands out every index once, in order, except those that a
snapshot covers.
-/

namespace CppRaft.RaftCore

open CppRaft.Common CppRaft.Store CppRaft.Transition

variable {n : Nat}

/-! ## The numbers of a node -/

/-- The numbers of the node that its sums read are of type `int`. -/
structure Raft.HasInts (rf : Raft n) : Prop where
  currentTerm : IsInt rf.currentTerm
  logs : ∀ entry ∈ rf.logs, entry.HasInts
  commitIndex : IsInt rf.commitIndex
  lastApplied : IsInt rf.lastApplied
  nextIndex : ∀ server, IsInt (rf.nextIndex server)
  matchIndex : ∀ server, IsInt (rf.matchIndex server)
  snapshotIndex : IsInt rf.lastSnapshotIncludeIndex
  snapshotTerm : IsInt rf.lastSnapshotIncludeTerm

namespace Raft.HasInts

variable {rf rf' : Raft n}

theorem init (me : Fin n) : (Raft.init me none).HasInts where
  currentTerm := isInt_zero
  logs := by
    intro entry member
    cases member
  commitIndex := isInt_zero
  lastApplied := isInt_zero
  nextIndex := fun _ => isInt_zero
  matchIndex := fun _ => isInt_zero
  snapshotIndex := isInt_zero
  snapshotTerm := isInt_zero

theorem getLastLogIndex (ints : rf.HasInts) : IsInt rf.getLastLogIndex := by
  rcases rf.getLastLogIndexAndTerm_cases with ⟨_, last⟩ | ⟨entry, member, last⟩
  · rw [Raft.getLastLogIndex, last]
    exact ints.snapshotIndex
  · rw [Raft.getLastLogIndex, last]
    exact (ints.logs entry member).2

theorem adoptTerm (ints : rf.HasInts) {term : Int} (fits : IsInt term) :
    (rf.adoptTerm term).HasInts :=
  { ints with currentTerm := fits }

theorem meetTerm (ints : rf.HasInts) {term : Int} (fits : IsInt term) :
    (rf.meetTerm term).HasInts := by
  unfold Raft.meetTerm
  split
  · exact ints.adoptTerm fits
  · exact ints

theorem followTerm (ints : rf.HasInts) {term : Int} (fits : IsInt term) :
    (rf.followTerm term).HasInts :=
  { ints.meetTerm fits with }

theorem meetSnapshot (ints : rf.HasInts) {term : Int} (fits : IsInt term) :
    (rf.snapshotTerm term).HasInts := by
  unfold Raft.snapshotTerm
  split
  · exact { ints.adoptTerm fits with }
  · exact { ints with }

theorem followCommit (ints : rf.HasInts) {leaderCommit : Int} (fits : IsInt leaderCommit) :
    (rf.followCommit leaderCommit).HasInts := by
  unfold Raft.followCommit
  split
  · exact { ints with commitIndex := fits.min ints.getLastLogIndex }
  · exact ints

theorem withNextIndex (ints : rf.HasInts) (server : Fin n) {index : Int} (fits : IsInt index) :
    { rf with nextIndex := Function.update rf.nextIndex server index }.HasInts :=
  { ints with
    nextIndex := by
      intro other
      dsimp only
      rw [Function.update_apply]
      split
      · exact fits
      · exact ints.nextIndex other }

theorem withMatchIndex (ints : rf.HasInts) (server : Fin n) {index : Int} (fits : IsInt index) :
    { rf with matchIndex := Function.update rf.matchIndex server index }.HasInts :=
  { ints with
    matchIndex := by
      intro other
      dsimp only
      rw [Function.update_apply]
      split
      · exact fits
      · exact ints.matchIndex other }

/-- A stored entry was in the log before or comes with the request. -/
theorem appendEntry (ints : rf.HasInts) {log : LogEntry} (fits : log.HasInts)
    (stored : rf.appendEntry log = .ok rf') : rf'.HasInts := by
  unfold Raft.appendEntry at stored
  split at stored
  · cases stored
    refine { ints with logs := ?_ }
    intro entry member
    rcases List.mem_append.mp member with before | added
    · exact ints.logs entry before
    · rwa [List.mem_singleton.mp added]
  · simp only [bind_eq_ok] at stored
    obtain ⟨slice, _, old, _, _, _, final⟩ := stored
    split at final
    · cases final
      refine { ints with logs := ?_ }
      intro entry member
      rcases List.mem_or_eq_of_mem_set member with before | rfl
      · exact ints.logs entry before
      · exact fits
    · cases final
      exact ints

theorem appendEntriesLoop {entries : List LogEntry} (ints : rf.HasInts)
    (fits : ∀ entry ∈ entries, entry.HasInts) (stored : rf.appendEntriesLoop entries = .ok rf') :
    rf'.HasInts := by
  induction entries generalizing rf with
  | nil =>
      cases stored
      exact ints
  | cons log rest ih =>
      simp only [Raft.appendEntriesLoop, bind_eq_ok] at stored
      obtain ⟨middle, first, later⟩ := stored
      exact ih (ints.appendEntry (fits log List.mem_cons_self) first)
        (fun entry member => fits entry (List.mem_cons_of_mem _ member)) later

theorem appendEntries1 (ints : rf.HasInts) {args : AppendEntriesArgs} (fits : args.HasInts)
    {reply : AppendEntriesReply} (handled : rf.appendEntries1 args = .ok (rf', reply)) :
    rf'.HasInts := by
  obtain ⟨term, _, _, _, commit, entries⟩ := fits
  rcases appendEntries1_cases handled with ⟨_, rfl, _⟩ | ⟨_, rfl, _⟩ |
    ⟨_, _, _, _, stored, looped, rfl⟩
  · exact ints
  · exact { ints.followTerm term with }
  · exact { ((ints.followTerm term).appendEntriesLoop entries looped).followCommit commit with }

theorem requestVote (ints : rf.HasInts) {args : RequestVoteArgs} (fits : IsInt args.term)
    {reply : RequestVoteReply} (handled : rf.requestVote args = .ok (rf', reply)) :
    rf'.HasInts := by
  rcases requestVote_cases handled with ⟨_, rfl, _⟩ | ⟨_, rfl, _⟩ | ⟨_, _, _, _, _, rfl⟩
  · exact { ints with }
  · exact { ints.meetTerm fits with }
  · exact { ints.meetTerm fits with }

theorem installSnapshot (ints : rf.HasInts) {args : InstallSnapshotRequest} (fits : args.HasInts)
    {response : InstallSnapshotResponse} {msg : Option ApplyMsg}
    (handled : rf.installSnapshot args = .ok (rf', response, msg)) : rf'.HasInts := by
  obtain ⟨_, term, index, includeTerm⟩ := fits
  rcases installSnapshot_cases handled with ⟨_, rfl, _⟩ | ⟨_, _, rfl, _⟩ |
    ⟨_, _, ⟨logs, cut, rfl⟩, _⟩
  · exact ints
  · exact ints.meetSnapshot term
  · have met := ints.meetSnapshot term
    exact
      { currentTerm := met.currentTerm
        logs := by
          intro entry member
          rcases cutLogs_cases cut with ⟨_, rfl⟩ | ⟨_, _, rfl⟩
          · cases member
          · exact ints.logs entry (List.mem_of_mem_drop member)
        commitIndex := met.commitIndex.max index
        lastApplied := met.lastApplied.max index
        nextIndex := met.nextIndex
        matchIndex := met.matchIndex
        snapshotIndex := index
        snapshotTerm := includeTerm }

theorem getApplyLogs (ints : rf.HasInts) {applyMsgs : List ApplyMsg}
    (collected : rf.getApplyLogs = .ok (rf', applyMsgs)) : rf'.HasInts := by
  simp only [Raft.getApplyLogs, bind_eq_ok] at collected
  obtain ⟨_, _, applied⟩ := collected
  have moved := (applyLoop_emits applied).2.1
  have between : IsInt rf'.lastApplied := by
    have here := ints.lastApplied
    have there := ints.commitIndex
    exact ⟨by have := here.1; omega, by have := here.2; have := there.2; omega⟩
  rw [applyLoop_eq applied]
  exact { ints with lastApplied := between }

end Raft.HasInts

namespace Wrapping

variable {rf rf' : Raft n}

theorem becomeLeader_hasInts (ints : rf.HasInts) : (becomeLeader rf).HasInts :=
  { ints with
    nextIndex := fun _ => isInt_int32 _
    matchIndex := fun _ => isInt_zero }

theorem sendRequestVote_hasInts (ints : rf.HasInts) {reply : RequestVoteReply} {votedNum : Int}
    {outcome : Raft.VoteOutcome n} (fits : IsInt reply.term)
    (processed : sendRequestVote rf reply votedNum = .ok outcome) : outcome.rf.HasInts := by
  rcases sendRequestVote_cases processed with ⟨_, same⟩ | same | same
  · rw [same]
    exact { ints.adoptTerm fits with }
  · rwa [same]
  · rw [same]
    exact becomeLeader_hasInts ints

theorem sendAppendEntries_hasInts (ints : rf.HasInts) {server : Fin n} {args : AppendEntriesArgs}
    {reply : AppendEntriesReply} {appendNums appendNums' : Int} (term : IsInt reply.term)
    (update : IsInt reply.updateNextIndex)
    (processed : sendAppendEntries rf server args reply appendNums = .ok (rf', appendNums')) :
    rf'.HasInts := by
  rcases sendAppendEntries_cases processed with ⟨_, rfl⟩ | rfl | rfl |
    ⟨matched, commitIndex, reached, raised, rfl⟩
  · exact ints.adoptTerm term
  · exact ints
  · exact ints.withNextIndex server update
  · have fitsMatched : IsInt matched := by
      rw [reached]
      exact (ints.matchIndex server).max (isInt_int32 _)
    have moved := (ints.withNextIndex server (isInt_int32 (matched + 1))).withMatchIndex
      server fitsMatched
    refine { moved with commitIndex := ?_ }
    rcases raised with rfl | ⟨rfl, _⟩
    · exact ints.commitIndex
    · exact ints.commitIndex.max (isInt_int32 _)

theorem leaderSendSnapShot_hasInts (ints : rf.HasInts) (server : Fin n)
    {args : InstallSnapshotRequest} {reply : InstallSnapshotResponse}
    (index : IsInt args.lastSnapShotIncludeIndex) (term : IsInt reply.term) :
    (leaderSendSnapShot rf server args reply).HasInts := by
  rcases leaderSendSnapShot_cases rf server args reply with same | ⟨_, same⟩ | same
  · rwa [same]
  · rw [same]
    exact { ints.adoptTerm term with }
  · rw [same]
    exact (ints.withNextIndex server (isInt_int32 _)).withMatchIndex server index

theorem doElection_hasInts (ints : rf.HasInts) : (doElection rf).1.HasInts := by
  unfold doElection
  split
  · exact ints
  · exact { ints with currentTerm := isInt_int32 _ }

theorem startConses_hasInts (ints : rf.HasInts) (command : Bytes) :
    (startConses rf command).1.HasInts := by
  unfold startConses
  split
  · exact ints
  · refine { ints with logs := ?_ }
    intro entry member
    rcases List.mem_append.mp member with before | added
    · exact ints.logs entry before
    · rw [List.mem_singleton.mp added]
      exact ⟨ints.currentTerm, isInt_int32 _⟩

theorem snapshot_hasInts (ints : rf.HasInts) {index : Int} {data : Bytes} (fits : IsInt index)
    (taken : snapshot rf index data = .ok rf') : rf'.HasInts := by
  unfold snapshot at taken
  split at taken
  · cases taken
    exact ints
  · simp only [bind_eq_ok] at taken
    obtain ⟨entry, found, logs, collected, _, _, final⟩ := taken
    cases final
    exact
      { ints with
        logs := fun entry member => ints.logs entry (collectLogs_mem collected member)
        commitIndex := ints.commitIndex.max fits
        lastApplied := ints.lastApplied.max fits
        snapshotIndex := fits
        snapshotTerm := (ints.logs entry (logAtIndex_mem found)).1 }

/-- Every critical section keeps the numbers in the range. -/
theorem release_hasInts {action : NodeAction n} (ints : rf.HasInts) (fits : action.HasInts)
    (released : release rf action = .ok rf') : rf'.HasInts := by
  cases action with
  | appendEntries1 args =>
      obtain ⟨⟨_, _⟩, handled, rfl⟩ := map_eq_ok.mp released
      exact ints.appendEntries1 fits handled
  | requestVote args =>
      obtain ⟨⟨_, _⟩, handled, rfl⟩ := map_eq_ok.mp released
      exact ints.requestVote fits.1 handled
  | installSnapshot args =>
      obtain ⟨⟨_, _, _⟩, handled, rfl⟩ := map_eq_ok.mp released
      exact ints.installSnapshot fits handled
  | sendRequestVote reply votedNum =>
      obtain ⟨outcome, processed, rfl⟩ := map_eq_ok.mp released
      exact sendRequestVote_hasInts ints fits.1 processed
  | sendAppendEntries server args reply appendNums =>
      obtain ⟨⟨_, _⟩, processed, rfl⟩ := map_eq_ok.mp released
      exact sendAppendEntries_hasInts ints fits.2.1 fits.2.2.1 processed
  | snapshotArgs =>
      cases released
      exact { ints with }
  | leaderSendSnapShot server args reply =>
      cases released
      exact leaderSendSnapShot_hasInts ints server fits.1.2.2.1 fits.2
  | doElection =>
      cases released
      exact doElection_hasInts ints
  | startConses command =>
      cases released
      exact startConses_hasInts ints command
  | snapshot index data => exact snapshot_hasInts ints fits released

/-! ## One step -/

/-- The step is called with numbers of type `int`, and the entries of an
incoming `AppendEntries` request are numbered as `doHeartBeat` numbers them. -/
def Received (rf : Raft n) : NodeStep n → Prop
  | .critical action => rf.NumberedRequest (.critical action) ∧ action.HasInts
  | .getApplyLogs => True
  | .doHeartBeat => True

instance (rf : Raft n) : (step : NodeStep n) → Decidable (Received rf step)
  | .critical _ => inferInstanceAs (Decidable (_ ∧ _))
  | .getApplyLogs => isTrue trivial
  | .doHeartBeat => isTrue trivial

/-- The step stores a sum that has left the range of `int` in the term or in the
log: an election starts in the last term, or a leader takes a command behind the
last index. -/
def Overflows (rf : Raft n) : NodeStep n → Prop
  | .critical .doElection => rf.status ≠ .leader ∧ rf.currentTerm = 2147483647
  | .critical (.startConses _) => rf.status = .leader ∧ rf.getLastLogIndex = 2147483647
  | _ => False

instance (rf : Raft n) : (step : NodeStep n) → Decidable (Overflows rf step)
  | .critical (.appendEntries1 _) => isFalse id
  | .critical (.requestVote _) => isFalse id
  | .critical (.installSnapshot _) => isFalse id
  | .critical (.sendRequestVote _ _) => isFalse id
  | .critical (.sendAppendEntries _ _ _ _) => isFalse id
  | .critical .snapshotArgs => isFalse id
  | .critical (.leaderSendSnapShot _ _ _) => isFalse id
  | .critical .doElection => inferInstanceAs (Decidable (_ ∧ _))
  | .critical (.startConses _) => inferInstanceAs (Decidable (_ ∧ _))
  | .critical (.snapshot _ _) => isFalse id
  | .getApplyLogs => isFalse id
  | .doHeartBeat => isFalse id

/-- The received steps that store no sum out of range in the term or the log. -/
abbrev WithinRange (rf : Raft n) (step : NodeStep n) : Prop :=
  Received rf step ∧ ¬ Overflows rf step

/-- What a step of a node can be. -/
theorem operate_cases {step : NodeStep n} {more : List ApplyMsg}
    (taken : operate rf step = some (rf', more)) :
    (∃ action, step = .critical action ∧ release rf action = .ok rf' ∧ more = []) ∨
      step = .getApplyLogs ∧ rf.getApplyLogs = .ok (rf', more) ∨
      step = .doHeartBeat ∧ rf' = rf ∧ more = [] := by
  cases step with
  | critical action =>
      simp only [operate] at taken
      cases released : release rf action with
      | error fault => simp [released] at taken
      | ok result =>
          simp only [released, Option.some.injEq, Prod.mk.injEq] at taken
          obtain ⟨rfl, rfl⟩ := taken
          exact Or.inl ⟨action, rfl, released, rfl⟩
  | getApplyLogs =>
      change rf.operate .getApplyLogs = _ at taken
      rcases Raft.operate_cases taken with ⟨_, other, _⟩ | collected | ⟨other, _⟩
      · cases other
      · exact Or.inr (Or.inl collected)
      · cases other
  | doHeartBeat =>
      change rf.operate .doHeartBeat = _ at taken
      rcases Raft.operate_cases taken with ⟨_, other, _⟩ | ⟨other, _⟩ | beat
      · cases other
      · cases other
      · exact Or.inr (Or.inr beat)

/-- Every step keeps the numbers in the range. -/
theorem operate_hasInts {step : NodeStep n} {more : List ApplyMsg} (ints : rf.HasInts)
    (received : Received rf step) (taken : operate rf step = some (rf', more)) :
    rf'.HasInts := by
  rcases operate_cases taken with ⟨action, rfl, released, _⟩ | ⟨_, collected⟩ | ⟨_, rfl, _⟩
  · exact release_hasInts ints received.2 released
  · exact ints.getApplyLogs collected
  · exact ints

/-- The node is as before, up to the term that it adopts, the two arrays of a
leader, and a larger commit index within the log. -/
def KeepsBut (rf rf' : Raft n) : Prop :=
  ∃ commitIndex, rf.commitIndex ≤ commitIndex ∧ commitIndex ≤ rf.getLastLogIndex ∧
    Raft.Keeps { rf with commitIndex := commitIndex } rf'

theorem keepsBut_of_keeps (placed : rf.Placed) (keeps : rf.Keeps rf') : KeepsBut rf rf' :=
  ⟨rf.commitIndex, le_rfl, placed.stored, keeps⟩

theorem sendRequestVote_keeps {reply : RequestVoteReply} {votedNum : Int}
    {outcome : Raft.VoteOutcome n}
    (processed : sendRequestVote rf reply votedNum = .ok outcome) : rf.Keeps outcome.rf := by
  rcases sendRequestVote_cases processed with ⟨later, same⟩ | same | same
  · rw [same]
    exact { rf.keeps_adoptTerm later with }
  · rw [same]
    exact Raft.Keeps.refl rf
  · rw [same]
    exact { Raft.Keeps.refl rf with }

theorem sendAppendEntries_keepsBut (placed : rf.Placed) {server : Fin n}
    {args : AppendEntriesArgs} {reply : AppendEntriesReply} {appendNums appendNums' : Int}
    (processed : sendAppendEntries rf server args reply appendNums = .ok (rf', appendNums')) :
    KeepsBut rf rf' := by
  have stored := placed.stored
  rcases sendAppendEntries_cases processed with ⟨later, same⟩ | same | same |
    ⟨matched, commitIndex, _, raised, same⟩
  · rw [same]
    exact keepsBut_of_keeps placed { rf.keeps_adoptTerm later with }
  · rw [same]
    exact keepsBut_of_keeps placed (Raft.Keeps.refl rf)
  · rw [same]
    exact keepsBut_of_keeps placed { Raft.Keeps.refl rf with }
  · rw [same]
    refine ⟨commitIndex, ?_, ?_, { Raft.Keeps.refl { rf with commitIndex := commitIndex } with }⟩
    · omega
    · omega

theorem leaderSendSnapShot_keeps (rf : Raft n) (server : Fin n) (args : InstallSnapshotRequest)
    (reply : InstallSnapshotResponse) : rf.Keeps (leaderSendSnapShot rf server args reply) := by
  rcases leaderSendSnapShot_cases rf server args reply with same | ⟨later, same⟩ | same
  · rw [same]
    exact Raft.Keeps.refl rf
  · rw [same]
    exact { rf.keeps_adoptTerm later with }
  · rw [same]
    exact { Raft.Keeps.refl rf with }

/-- A critical section that stores no sum out of range does what it does on
unbounded integers, up to the two arrays of the leader and a commit index that
its assertion has checked. -/
theorem release_cases {action : NodeAction n} (placed : rf.Placed) (first : 0 ≤ rf.currentTerm)
    (ints : rf.HasInts) (within : WithinRange rf (.critical action))
    (released : release rf action = .ok rf') :
    rf.release action = .ok rf' ∨ KeepsBut rf rf' := by
  obtain ⟨⟨numbered, fits⟩, within⟩ := within
  cases action with
  | appendEntries1 args =>
      have sum : Fits rf (.appendEntries1 args) := fits.sum numbered
      exact Or.inl (release_of_fits sum ▸ released)
  | requestVote args => exact Or.inl released
  | installSnapshot args => exact Or.inl released
  | sendRequestVote reply votedNum =>
      obtain ⟨outcome, processed, rfl⟩ := map_eq_ok.mp released
      exact Or.inr (keepsBut_of_keeps placed (sendRequestVote_keeps processed))
  | sendAppendEntries server args reply appendNums =>
      obtain ⟨⟨_, _⟩, processed, rfl⟩ := map_eq_ok.mp released
      exact Or.inr (sendAppendEntries_keepsBut placed processed)
  | snapshotArgs => exact Or.inl released
  | leaderSendSnapShot server args reply =>
      cases released
      exact Or.inr (keepsBut_of_keeps placed (leaderSendSnapShot_keeps rf server args reply))
  | doElection =>
      cases released
      apply Or.inl
      by_cases leads : rf.status = .leader
      · simp [Raft.release, doElection, Raft.doElection, leads]
      · have room : rf.currentTerm ≠ 2147483647 := fun last => within ⟨leads, last⟩
        have top := ints.currentTerm.2
        rw [Raft.release, doElection_of_isInt ⟨by omega, by omega⟩]
  | startConses command =>
      cases released
      apply Or.inl
      by_cases leads : rf.status = .leader
      · have room : rf.getLastLogIndex ≠ 2147483647 := fun last => within ⟨leads, last⟩
        have fitsLast := ints.getLastLogIndex
        rw [Raft.release, startConses_of_isInt
          ⟨by have := fitsLast.1; omega, by have := fitsLast.2; omega⟩]
      · simp [Raft.release, startConses, Raft.startConses, leads]
  | snapshot index data => exact Or.inl (snapshot_ok fits placed.base released)

/-- A larger commit index within the log. -/
theorem placed_withCommit (placed : rf.Placed) {commitIndex : Int}
    (raised : rf.commitIndex ≤ commitIndex) (stored : commitIndex ≤ rf.getLastLogIndex) :
    { rf with commitIndex := commitIndex }.Placed where
  base := placed.base
  baseTerm := placed.baseTerm
  logs := placed.logs
  applied := placed.applied
  committed := placed.committed.trans raised
  stored := stored

/-- What holds along the runs on machine integers. -/
structure Sound (emitted : List ApplyMsg) (rf : Raft n) : Prop where
  progress : Raft.Progress emitted rf
  first : 0 ≤ rf.currentTerm
  ints : rf.HasInts

theorem sound_init (me : Fin n) : Sound [] (Raft.init me none) where
  progress := Raft.progress_init me
  first := le_rfl
  ints := Raft.HasInts.init me

theorem release_sound {emitted : List ApplyMsg} {action : NodeAction n} (sound : Sound emitted rf)
    (within : WithinRange rf (.critical action)) (released : release rf action = .ok rf') :
    Sound emitted rf' ∧ Raft.Advances rf rf' := by
  have placed := sound.progress.placed
  have ints := release_hasInts sound.ints within.1.2 released
  rcases release_cases placed sound.first sound.ints within released with
    same | ⟨commitIndex, raised, stored, keeps⟩
  · obtain ⟨placed', advances⟩ := Raft.release_placed placed within.1.1 same
    exact ⟨⟨sound.progress.silent placed' advances (Raft.release_applied same),
      sound.first.trans advances.term, ints⟩, advances⟩
  · have placed' := keeps.placed (placed_withCommit placed raised stored)
    have forward : Raft.Advances rf { rf with commitIndex := commitIndex } :=
      { Raft.Advances.refl rf with committed := raised }
    have advances := forward.trans keeps.advances
    have applied : rf'.lastApplied = rf.lastApplied := keeps.applied
    exact ⟨⟨sound.progress.silent placed' advances (by omega),
      sound.first.trans advances.term, ints⟩, advances⟩

theorem operate_sound {emitted more : List ApplyMsg} {step : NodeStep n}
    (sound : Sound emitted rf) (within : WithinRange rf step)
    (taken : operate rf step = some (rf', more)) :
    Sound (emitted ++ more) rf' ∧ Raft.Advances rf rf' := by
  rcases operate_cases taken with ⟨action, rfl, released, rfl⟩ | ⟨rfl, collected⟩ | ⟨_, rfl, rfl⟩
  · rw [List.append_nil]
    exact release_sound sound within released
  · obtain ⟨_, advances, _, _⟩ := Raft.getApplyLogs_placed sound.progress.placed collected
    exact ⟨⟨sound.progress.collect collected, sound.first.trans advances.term,
      sound.ints.getApplyLogs collected⟩, advances⟩
  · rw [List.append_nil]
    exact ⟨sound, Raft.Advances.refl _⟩

/-! ## Runs -/

/-- Every run keeps the numbers of the node in the range, also when a sum wraps
around. -/
theorem hasInts_of_run {me : Fin n} {emitted : List ApplyMsg}
    (run : Run operate Received (Raft.init me none) emitted rf) : rf.HasInts := by
  induction run with
  | nil => exact Raft.HasInts.init me
  | snoc _ received taken ih => exact operate_hasInts ih received taken

theorem sound_of_run {start : Raft n} {emitted more : List ApplyMsg}
    (sound : Sound emitted start) (run : Run operate WithinRange start more rf) :
    Sound (emitted ++ more) rf ∧ Raft.Advances start rf := by
  induction run with
  | nil =>
      rw [List.append_nil]
      exact ⟨sound, Raft.Advances.refl _⟩
  | snoc _ within taken ih =>
      obtain ⟨middle, advances⟩ := ih
      obtain ⟨next, later⟩ := operate_sound middle within taken
      rw [← List.append_assoc]
      exact ⟨next, advances.trans later⟩

/-- A step that stores a sum out of range puts the term back, or leaves an entry
out of its place. -/
theorem lt_or_not_placed_of_overflows {step : NodeStep n} {more : List ApplyMsg}
    (overflows : Overflows rf step) (taken : operate rf step = some (rf', more)) :
    rf'.currentTerm < rf.currentTerm ∨ ¬ rf'.Placed := by
  rcases operate_cases taken with ⟨action, rfl, released, _⟩ | ⟨rfl, _⟩ | ⟨rfl, _⟩
  · cases action with
    | doElection =>
        obtain ⟨notLeader, last⟩ := overflows
        cases released
        apply Or.inl
        rw [doElection, if_neg notLeader]
        change int32 (rf.currentTerm + 1) < rf.currentTerm
        rw [last]
        decide
    | startConses command =>
        obtain ⟨leads, last⟩ := overflows
        cases released
        refine Or.inr fun placed' => ?_
        have index : getNewCommandIndex rf = -2147483648 := by
          rw [getNewCommandIndex, last]
          decide
        have member : (⟨command, rf.currentTerm, getNewCommandIndex rf⟩ : LogEntry) ∈
            (startConses rf command).1.logs := by
          simp [startConses, leads, Raft.persist]
        have inside := placed'.index_range member
        have base := placed'.base
        simp only [index] at inside
        omega
    | _ => cases overflows
  · cases overflows
  · cases overflows

/-- The condition is exact: a received step keeps the entries in their places
and moves the counters forward if and only if it stores no sum out of range. -/
theorem placed_and_advances_iff {emitted more : List ApplyMsg} {step : NodeStep n}
    (sound : Sound emitted rf) (received : Received rf step)
    (taken : operate rf step = some (rf', more)) :
    rf'.Placed ∧ Raft.Advances rf rf' ↔ ¬ Overflows rf step := by
  constructor
  · rintro ⟨placed', advances⟩ overflows
    rcases lt_or_not_placed_of_overflows overflows taken with back | misplaced
    · exact absurd advances.term (Int.not_le.mpr back)
    · exact misplaced placed'
  · intro within
    obtain ⟨next, advances⟩ := operate_sound sound ⟨received, within⟩ taken
    exact ⟨next.progress.placed, advances⟩

/-- The entries stand at the indexes after the last snapshot and the counters
are ordered, `getApplyLogs` has emitted strictly increasing indexes and skipped
only those that a snapshot covers, and no later run whose steps `guard` accepts
takes a counter back. -/
def Progresses (guard : Raft n → NodeStep n → Prop) (emitted : List ApplyMsg) (rf : Raft n) :
    Prop :=
  ((∀ (j : Nat) (entry : LogEntry), rf.logs[j]? = some entry →
      entry.logIndex = rf.lastSnapshotIncludeIndex + 1 + j) ∧
    rf.lastSnapshotIncludeIndex ≤ rf.lastApplied ∧ rf.lastApplied ≤ rf.commitIndex ∧
    rf.commitIndex ≤ rf.getLastLogIndex) ∧
  (emitted.Pairwise (fun msg msg' => msg.commandIndex < msg'.commandIndex) ∧
    (∀ msg ∈ emitted, 1 ≤ msg.commandIndex ∧ msg.commandIndex ≤ rf.lastApplied) ∧
    ∀ index, 1 ≤ index → index ≤ rf.lastApplied →
      index ≤ rf.lastSnapshotIncludeIndex ∨ ∃ msg ∈ emitted, msg.commandIndex = index) ∧
  ∀ (more : List ApplyMsg) (rf' : Raft n), Run operate guard rf more rf' →
    rf.currentTerm ≤ rf'.currentTerm ∧
    rf.lastSnapshotIncludeIndex ≤ rf'.lastSnapshotIncludeIndex ∧
    rf.lastApplied ≤ rf'.lastApplied ∧ rf.commitIndex ≤ rf'.commitIndex ∧
    rf.getLastLogIndex ≤ rf'.getLastLogIndex

theorem Sound.progresses {emitted : List ApplyMsg} (sound : Sound emitted rf) :
    Progresses WithinRange emitted rf := by
  have placed := sound.progress.placed
  refine ⟨⟨numberedFrom_iff.mp placed.logs, placed.applied, placed.committed, placed.stored⟩,
    ⟨sound.progress.increasing, sound.progress.range, sound.progress.complete⟩, ?_⟩
  intro more rf' later
  have advances := (sound_of_run sound later).2
  exact ⟨advances.term, advances.snapshot, advances.applied, advances.committed, advances.last⟩

end Wrapping

/-- A fresh node, whatever requests, replies and calls reach it, keeps its
entries in their places and its counters ordered and moving forward, as long as
no election starts in the last term and no leader takes a command behind the
last index. -/
theorem node_progresses {n : Nat} {me : Fin n} {emitted : List ApplyMsg} {rf : Raft n}
    (run : Run Wrapping.operate Wrapping.WithinRange (Raft.init me none) emitted rf) :
    Wrapping.Progresses Wrapping.WithinRange emitted rf :=
  (Wrapping.sound_of_run (Wrapping.sound_init me) run).1.progresses

/-- A node that leads, commits two commands, compacts its log, and then follows
another leader whose snapshot and entry it takes. -/
def progressingSteps (peer : Fin n) : List (NodeStep n) :=
  [.critical .doElection,
    .critical (.sendRequestVote { term := 1, voteGranted := true, voteState := Normal } peer),
    .critical (.startConses [97]), .critical (.startConses [98]), .doHeartBeat,
    .critical (.sendAppendEntries peer ⟨1, 0, 0, 0, [⟨[97], 1, 1⟩, ⟨[98], 1, 2⟩], 0⟩
      { term := 1, success := true, appState := AppNormal } 1),
    .getApplyLogs, .critical (.snapshot 1 [7]),
    .critical (.installSnapshot ⟨1, 2, 5, 2, [8]⟩),
    .critical (.appendEntries1 ⟨2, 1, 5, 2, [⟨[99], 2, 6⟩], 6⟩), .getApplyLogs]

/-- The node skips the indexes from 3 to 5, which the snapshot covers. -/
theorem node_progresses_skips :
    ∃ (emitted : List ApplyMsg) (rf : Raft 3),
      Run Wrapping.operate Wrapping.WithinRange (Raft.init 0 none) emitted rf ∧
      emitted.map ApplyMsg.commandIndex = [1, 2, 6] ∧ rf.lastSnapshotIncludeIndex = 5 ∧
      rf.commitIndex ≤ rf.getLastLogIndex := by
  obtain ⟨emitted, rf, run, checked⟩ := exists_run_of_exec Wrapping.operate Wrapping.WithinRange
    (Raft.init 0 none : Raft 3) (progressingSteps 1)
    (fun result => decide (result.2.map ApplyMsg.commandIndex = [1, 2, 6] ∧
      result.1.lastSnapshotIncludeIndex = 5))
    (by decide +kernel)
  rw [decide_eq_true_eq] at checked
  exact ⟨emitted, rf, run, checked.1, checked.2, (node_progresses run).1.2.2.2⟩

/-- A candidate's request with the last term is followed by an election of the
node's own, in the smallest term. -/
theorem not_node_progresses :
    ¬ ∀ (emitted : List ApplyMsg) (rf : Raft 3),
      Run Wrapping.operate Wrapping.Received (Raft.init 0 none) emitted rf →
        Wrapping.Progresses Wrapping.Received emitted rf := by
  intro progresses
  obtain ⟨more, rf, run, checked⟩ := exists_run_of_exec Wrapping.operate Wrapping.Received
    (Raft.init 0 none : Raft 3)
    [.critical (.requestVote ⟨2147483647, 1, 0, 0⟩), .critical .doElection]
    (fun result => decide (result.1.currentTerm = -2147483648))
    (by decide +kernel)
  rw [decide_eq_true_eq] at checked
  have forward := (progresses [] _ Run.nil).2.2 more rf run
  rw [checked] at forward
  exact absurd forward.1 (by decide)

end CppRaft.RaftCore
