import CppRaft.RaftCore.Outcome
import CppRaft.Transition.Run

/-!
# Persisting before the mutex is released

A run of one node calls its functions in any order and with any arguments.  A
call whose assertion fails ends the process, so it has no step.  Every release
of the mutex either hands the persistent fields to the Persister or leaves both
the fields and the last write alone, with one exception in `sendAppendEntries`.
-/

namespace CppRaft.RaftCore

open CppRaft.Store
open CppRaft.Transition

variable {n : Nat}

/-- A critical section of one node. -/
inductive NodeAction (n : Nat)
  | appendEntries1 (args : AppendEntriesArgs)
  | requestVote (args : RequestVoteArgs)
  | installSnapshot (args : InstallSnapshotRequest)
  | sendRequestVote (reply : RequestVoteReply) (votedNum : Int)
  | sendAppendEntries (server : Fin n) (args : AppendEntriesArgs) (reply : AppendEntriesReply)
      (appendNums : Int)
  | snapshotArgs
  | leaderSendSnapShot (server : Fin n) (args : InstallSnapshotRequest)
      (reply : InstallSnapshotResponse)
  | doElection
  | startConses (command : Bytes)
  | snapshot (index : Int) (data : Bytes)

/-- A step changed a persistent field. -/
inductive DurableEvent
  | changed
deriving DecidableEq

namespace Raft

/-- The state in which a critical section releases the mutex. -/
def release (rf : Raft n) : NodeAction n → Except Fault (Raft n)
  | .appendEntries1 args => (rf.appendEntries1 args).map Prod.fst
  | .requestVote args => (rf.requestVote args).map Prod.fst
  | .installSnapshot args => (rf.installSnapshot args).map Prod.fst
  | .sendRequestVote reply votedNum => (rf.sendRequestVote reply votedNum).map VoteOutcome.rf
  | .sendAppendEntries server args reply appendNums =>
      (rf.sendAppendEntries server args reply appendNums).map Prod.fst
  | .snapshotArgs => .ok rf.snapshotArgs.1
  | .leaderSendSnapShot server args reply => .ok (rf.leaderSendSnapShot server args reply)
  | .doElection => .ok rf.doElection.1
  | .startConses command => .ok (rf.startConses command).1
  | .snapshot index data => rf.snapshot index data

/-- One step of a node. -/
def step (rf : Raft n) (action : NodeAction n) : Option (Raft n × List DurableEvent) :=
  match rf.release action with
  | .error _ => none
  | .ok rf' => some (rf', if rf'.persistData = rf.persistData then [] else [.changed])

/-- The raft state last handed to the Persister is that of the memory. -/
def Synced (rf : Raft n) : Prop :=
  latestRaftState rf.persister = some rf.persistData

/-- A release that persists, or that changes neither the persistent fields nor
what was last written. -/
def Saves (rf rf' : Raft n) : Prop :=
  rf'.Synced ∨
    rf'.persistData = rf.persistData ∧
      latestRaftState rf'.persister = latestRaftState rf.persister

theorem synced_persist (rf : Raft n) : rf.persist.Synced :=
  latestRaftState_append_saveRaftState _ _

theorem synced_save (rf : Raft n) (snapshot : Bytes) : (rf.save snapshot).Synced :=
  latestRaftState_append_save _ _ _

theorem Saves.refl (rf : Raft n) : Saves rf rf :=
  Or.inr ⟨rfl, rfl⟩

theorem saves_snapshotTerm (rf : Raft n) {term : Int} (notOutdated : rf.currentTerm ≤ term) :
    Saves rf (rf.snapshotTerm term) := by
  rcases rf.snapshotTerm_eq_or notOutdated with ⟨same, _⟩ | ⟨adopted, _⟩
  · rw [same]
    exact Or.inr ⟨rfl, rfl⟩
  · rw [adopted]
    exact Or.inl (synced_persist _)

/-- The reply of an AppendEntries call that makes `sendAppendEntries` adopt a
term and return without `persist`. -/
def AdoptsWithoutPersist (rf : Raft n) : NodeAction n → Prop
  | .sendAppendEntries _ _ reply _ =>
      reply.appState ≠ Disconnected ∧ rf.currentTerm < reply.term
  | _ => False

instance (rf : Raft n) (action : NodeAction n) : Decidable (rf.AdoptsWithoutPersist action) := by
  cases action <;> unfold AdoptsWithoutPersist <;> infer_instance

/-- The steps that persist what they change. -/
abbrev PersistsTerm (rf : Raft n) (action : NodeAction n) : Prop :=
  ¬ rf.AdoptsWithoutPersist action

/-- Every other release persists what it changes. -/
theorem release_saves {rf rf' : Raft n} {action : NodeAction n}
    (released : rf.release action = .ok rf') (persists : rf.PersistsTerm action) :
    Saves rf rf' := by
  cases action with
  | appendEntries1 args =>
      simp only [release, map_eq_ok] at released
      obtain ⟨⟨_, reply⟩, handled, rfl⟩ := released
      rcases appendEntries1_cases handled with
        ⟨_, rfl, _⟩ | ⟨_, rfl, _⟩ | ⟨_, _, _, _, stored, _, rfl⟩
      · exact Saves.refl _
      · exact Or.inl (synced_persist _)
      · exact Or.inl (synced_persist _)
  | requestVote args =>
      simp only [release, map_eq_ok] at released
      obtain ⟨⟨_, reply⟩, handled, rfl⟩ := released
      rcases requestVote_cases handled with
        ⟨_, rfl, _⟩ | ⟨_, rfl, _⟩ | ⟨_, _, _, _, _, rfl⟩
      all_goals exact Or.inl (synced_persist _)
  | installSnapshot args =>
      simp only [release, map_eq_ok] at released
      obtain ⟨⟨_, response, msg⟩, handled, rfl⟩ := released
      rcases installSnapshot_cases handled with
        ⟨_, rfl, _⟩ | ⟨notOutdated, _, rfl, _⟩ | ⟨_, _, ⟨logs, _, rfl⟩, _⟩
      · exact Saves.refl _
      · exact saves_snapshotTerm rf notOutdated
      · exact Or.inl (synced_save _ _)
  | sendRequestVote reply votedNum =>
      simp only [release, map_eq_ok] at released
      obtain ⟨outcome, processed, rfl⟩ := released
      rcases sendRequestVote_cases processed with
        ⟨_, rfl⟩ | ⟨_, rfl⟩ | ⟨_, _, rfl⟩ | ⟨_, _, _, _, rfl⟩
      · exact Or.inl (synced_persist _)
      · exact Saves.refl _
      · exact Saves.refl _
      · exact Or.inl (synced_persist _)
  | sendAppendEntries server args reply appendNums =>
      simp only [release, map_eq_ok] at released
      obtain ⟨⟨_, _⟩, processed, rfl⟩ := released
      rcases sendAppendEntries_cases processed with
        ⟨connected, later, _⟩ | ⟨_, _, rfl⟩ | ⟨_, _, _, _, _, _, rfl, _⟩
      · exact absurd ⟨connected, later⟩ persists
      · exact Or.inr ⟨rfl, rfl⟩
      · exact Or.inr ⟨rfl, rfl⟩
  | snapshotArgs =>
      cases released
      exact Or.inr ⟨rfl, latestRaftState_append_readSnapshot _⟩
  | leaderSendSnapShot server args reply =>
      cases released
      rcases rf.leaderSendSnapShot_cases server args reply with ⟨_, adopted⟩ | ⟨_, _, moved⟩
      · rw [adopted]
        exact Or.inl (synced_persist _)
      · rw [moved]
        exact Or.inr ⟨rfl, rfl⟩
  | doElection =>
      cases released
      rcases rf.doElection_cases with ⟨_, idle⟩ | ⟨_, stands⟩
      · rw [idle]
        exact Saves.refl _
      · rw [stands]
        exact Or.inl (synced_persist _)
  | startConses command =>
      cases released
      rcases rf.startConses_cases command with ⟨_, refused⟩ | ⟨_, appended⟩
      · rw [refused]
        exact Saves.refl _
      · rw [appended]
        exact Or.inl (synced_persist _)
  | snapshot index data =>
      rcases snapshot_cases released with rfl | ⟨_, _, _, _, _, _, rfl⟩
      · exact Saves.refl _
      · exact Or.inl (synced_save _ _)

end Raft

/-- The runs of node `me` after `init`, with the raft state that it read. -/
abbrev NodeRun (me : Fin n) (saved : Option BoostPersistRaftNode)
    (guard : Raft n → NodeAction n → Prop) (events : List DurableEvent) (rf : Raft n) : Prop :=
  Run Raft.step guard (Raft.init me saved) events rf

/-- Once a persistent field has changed, what the Persister was given last is
what the memory holds. -/
def PersistedOnceChanged (events : List DurableEvent) (rf : Raft n) : Prop :=
  .changed ∈ events → rf.Synced

/-- In a run in which no AppendEntries reply makes the node adopt a term, every
release of the mutex leaves the persistent fields persisted once they have
changed. -/
theorem persisted_once_changed {me : Fin n} {saved : Option BoostPersistRaftNode}
    {events : List DurableEvent} {rf : Raft n}
    (run : NodeRun me saved Raft.PersistsTerm events rf) :
    PersistedOnceChanged events rf := by
  apply run.invariant
  · intro changed
    exact absurd changed List.not_mem_nil
  · intro events rf action rf' emitted synced persists taken changed
    unfold Raft.step at taken
    cases released : rf.release action with
    | error fault => simp [released] at taken
    | ok target =>
        simp only [released, Option.some.injEq, Prod.mk.injEq] at taken
        obtain ⟨rfl, rfl⟩ := taken
        rcases Raft.release_saves released persists with saved | ⟨sameData, sameWrite⟩
        · exact saved
        · rw [if_pos sameData, List.append_nil] at changed
          have before := synced changed
          unfold Raft.Synced at before ⊢
          rw [sameWrite, sameData, before]

/-- The calls by which node 0 of three becomes the leader of term 1 and appends
a command. -/
def leadingActions : List (NodeAction 3) :=
  [.doElection,
    .sendRequestVote { term := 1, voteGranted := true, voteState := Normal } 1,
    .startConses [97]]

/-- A leader that has appended a command has persisted it. -/
theorem persisted_once_changed_leader :
    ∃ (events : List DurableEvent) (rf : Raft 3),
      NodeRun 0 none Raft.PersistsTerm events rf ∧ rf.logs.length = 1 ∧ rf.Synced := by
  obtain ⟨events, rf, run, checked⟩ := exists_run_of_exec Raft.step Raft.PersistsTerm
    (Raft.init 0 none) leadingActions
    (fun result => decide (DurableEvent.changed ∈ result.2 ∧ result.1.logs.length = 1))
    (by decide +kernel)
  rw [decide_eq_true_eq] at checked
  exact ⟨events, rf, run, checked.2, persisted_once_changed run checked.1⟩

/-- A leader of term 1 adopts term 2 from a reply and keeps term 1 on disk. -/
theorem not_persisted_once_changed :
    ¬ ∀ (events : List DurableEvent) (rf : Raft 3),
      NodeRun 0 none anyStep events rf → PersistedOnceChanged events rf := by
  intro persisted
  obtain ⟨events, rf, run, checked⟩ := exists_run_of_exec Raft.step anyStep
    (Raft.init 0 none)
    (leadingActions ++
      [.sendAppendEntries 1
        { term := 1, leaderId := 0, prevLogIndex := 0, prevLogTerm := 0, entries := [],
          leaderCommit := 0 }
        { term := 2, appState := AppNormal, updateNextIndex := -100 } 1])
    (fun result => decide (DurableEvent.changed ∈ result.2 ∧
      latestRaftState result.1.persister ≠ some result.1.persistData))
    (by decide +kernel)
  rw [decide_eq_true_eq] at checked
  exact checked.2 (persisted events rf run checked.1)

end CppRaft.RaftCore
