import CppRaft.Protocol.Identity

/-!
# The assertions of a cluster

Of all the assertions of the nodes one can fail in a run: `AppendEntries1`
answers a request that starts below the snapshot of its node and then goes on,
so that `matchLog` ends the process.  It is enough that a request is delayed or
duplicated until its receiver has compacted what the request starts from.
-/

namespace CppRaft.Protocol

open CppRaft.RaftCore
open CppRaft.Store
open CppRaft.Transition

variable {n : Nat}

/-- An `AppendEntries` request that is not outdated and starts below the
snapshot of its receiver. -/
def Request.StartsBelow (rf : Raft n) : Request → Prop
  | .appendEntries args _ =>
      rf.currentTerm ≤ args.term ∧ args.prevLogIndex < rf.lastSnapshotIncludeIndex
  | .requestVote _ _ => False
  | .installSnapshot _ => False

instance (rf : Raft n) : (request : Request) → Decidable (request.StartsBelow rf)
  | .appendEntries _ _ => inferInstanceAs (Decidable (_ ∧ _))
  | .requestVote _ _ => isFalse id
  | .installSnapshot _ => isFalse id

/-- The step handles such a request. -/
def StartsBelowSnapshot (s : Cluster n) : Action n → Prop
  | .handle k => ∃ call ∈ s.calls[k]?, call.request.StartsBelow (s.nodes call.dst)
  | _ => False

instance (s : Cluster n) : (action : Action n) → Decidable (StartsBelowSnapshot s action)
  | .handle k =>
      inferInstanceAs (Decidable (∃ call ∈ s.calls[k]?,
        call.request.StartsBelow (s.nodes call.dst)))
  | .doElection _ | .doHeartBeat _ | .startConses _ _ | .getApplyLogs _ | .snapshot _ _ _
  | .leaderSendSnapShot _ | .processReply _ => isFalse id

/-- The steps that handle no such request. -/
abbrev StartsAboveSnapshot (s : Cluster n) (action : Action n) : Prop :=
  ¬ StartsBelowSnapshot s action

theorem startsBelowSnapshot_of_request {s : Cluster n} {k a : Nat} {call : RpcCall n}
    {args : AppendEntriesArgs} (found : s.calls[k]? = some call)
    (request : call.request = .appendEntries args a) :
    StartsBelowSnapshot s (.handle k) ↔
      (s.nodes call.dst).currentTerm ≤ args.term ∧
        args.prevLogIndex < (s.nodes call.dst).lastSnapshotIncludeIndex := by
  simp only [StartsBelowSnapshot, found, Option.mem_some_iff, exists_eq_left', request,
    Request.StartsBelow]

namespace Cluster

variable {events emitted : List (Event n)} {moments : List (Cluster n)} {s s' : Cluster n}
  {action : Action n}

/-- No entry of a request contradicts the log of its receiver. -/
theorem Identified.agrees (inv : Identified events moments s) (now : s ∈ moments) {a : Nat}
    {call : RpcCall n} {args : AppendEntriesArgs} (member : call ∈ s.calls)
    (request : call.request = .appendEntries args a) (v : Fin n) :
    (s.nodes v).AgreesWith args.entries := by
  intro old inside log inside' sameIndex sameTerm
  have appeared : Appeared moments old := ⟨s, now, Or.inl ⟨v, inside⟩⟩
  have appeared' : Appeared moments log :=
    ⟨s, now, Or.inr ⟨call, member, args, a, request, inside'⟩⟩
  rw [inv.unique appeared appeared' sameIndex sameTerm]

/-- The assertion that a step fails is one of two. -/
theorem Sound.failure (sound : Sound events moments s) {i : Fin n} {fault : Fault}
    (failure : s.Failure action i fault) :
    fault = .electedTwice ∨ fault = .matchOutOfRange ∧ StartsBelowSnapshot s action := by
  have bounded := sound.bounded
  cases failure with
  | getApplyLogs failed =>
      exact absurd failed ((Raft.getApplyLogs_succeeds (bounded.placed i)).ne_error fault)
  | snapshot failed =>
      have placed := bounded.placed i
      exact absurd failed
        ((Raft.snapshot_succeeds placed.logs placed.stored _ _).ne_error fault)
  | requestVote _ _ failed =>
      exact absurd failed ((Raft.requestVote_succeeds _ _).ne_error fault)
  | @appendEntries1 k a call args _ found request failed =>
      have member := List.mem_of_getElem? found
      have placed := bounded.placed call.dst
      have offered := bounded.offered member request
      by_cases below : (s.nodes call.dst).currentTerm ≤ args.term ∧
          args.prevLogIndex < (s.nodes call.dst).lastSnapshotIncludeIndex
      · rw [Raft.appendEntries1_below placed below.1 below.2, Except.error.injEq] at failed
        exact Or.inr ⟨failed.symm, (startsBelowSnapshot_of_request found request).mpr below⟩
      · have succeeds := Raft.appendEntries1_succeeds placed offered.1
          (sound.identified.agrees sound.now member request call.dst) (by omega)
        exact absurd failed (succeeds.ne_error fault)
  | installSnapshot _ _ failed =>
      exact absurd failed
        ((Raft.installSnapshot_succeeds (bounded.placed _).logs _).ne_error fault)
  | sendRequestVote _ _ failed => exact Or.inl (Raft.sendRequestVote_error failed)
  | @sendAppendEntries position k a call args reply _ awaited request failed =>
      have offered := bounded.offered (List.mem_of_getElem? awaited.found) request
      have succeeds := Raft.sendAppendEntries_succeeds (bounded.placed call.src) offered.2.2.2
        (fun leads => (bounded.tracked leads call.dst).2.2) reply (s.appendNums.getD a 0)
      exact absurd failed (succeeds.ne_error fault)

theorem Bounded.beats (bounded : s.Bounded) {i : Fin n}
    (leads : (s.nodes i).status = .leader) : (s.nodes i).doHeartBeat.2 = none := by
  simp only [Raft.doHeartBeat, leads, if_true]
  apply Raft.heartBeats_succeed
  intro server
  have tracked := bounded.tracked leads server
  exact Raft.heartBeatTo_succeeds (bounded.placed i) tracked.1 tracked.2.1

theorem exit_exited (s : Cluster n) (i v : Fin n) (fault : Fault) :
    (s.exit i fault).exited v = s.exited v ∨ (s.exit i fault).exited v = some fault := by
  by_cases here : v = i
  · subst here
    exact Or.inr (Function.update_self _ _ _)
  · exact Or.inl (Function.update_of_ne here _ _)

/-- A step ends a process only through a request that starts below the snapshot
of its receiver. -/
theorem Sound.exited_step (sound : Sound events moments s) (effect : s.Effect action s' emitted)
    (safe : ∀ v, s'.exited v ≠ some .electedTwice) (v : Fin n) :
    s'.exited v = s.exited v ∨
      s'.exited v = some .matchOutOfRange ∧ StartsBelowSnapshot s action := by
  cases effect with
  | @fail _ i fault failure =>
      rcases s.exit_exited i v fault with same | failed
      · exact Or.inl same
      · rcases sound.failure failure with rfl | ⟨rfl, below⟩
        · exact absurd failed (safe v)
        · exact Or.inr ⟨failed, below⟩
  | doHeartBeatFail leads failed =>
      rw [sound.bounded.beats leads] at failed
      cases failed
  | _ => exact Or.inl rfl

/-- A process that has ended failed the one assertion. -/
theorem exited_of_trace {guard : Cluster n → Action n → Prop}
    (trace : Trace Cluster.step guard (start n) events moments s) (v : Fin n) :
    s.exited v = none ∨ s.exited v = some .matchOutOfRange := by
  induction trace with
  | nil => exact Or.inl rfl
  | snoc before accepted taken ih =>
      have sound := sound_of_trace before
      have safe := (sound_of_trace (before.snoc accepted taken)).election.choose_spec.safe
      rcases sound.exited_step (step_effect taken) safe v with same | ⟨failed, _⟩
      · rw [same]
        exact ih
      · exact Or.inr failed

/-- No process ends when no request starts below the snapshot of its receiver. -/
theorem running_of_trace (trace : Trace Cluster.step StartsAboveSnapshot (start n) events moments s)
    (v : Fin n) : s.exited v = none := by
  induction trace with
  | nil => rfl
  | snoc before accepted taken ih =>
      have sound := sound_of_trace before
      have safe := (sound_of_trace (before.snoc accepted taken)).election.choose_spec.safe
      rcases sound.exited_step (step_effect taken) safe v with same | ⟨_, below⟩
      · rw [same]
        exact ih
      · exact absurd below accepted

end Cluster

/-! ## Results -/

/-- In every reachable state, two entries with one index and one term, in the
log of any node or in any request, have one command, and no process has ended
because they differed. -/
theorem entries_identified {n : Nat} {events : List (Event n)} {s : Cluster n}
    (run : ClusterRun anyStep events s) :
    (∀ entry entry' : LogEntry, s.Present entry → s.Present entry' →
      entry.logIndex = entry'.logIndex → entry.logTerm = entry'.logTerm →
      entry.command = entry'.command) ∧
    ∀ i, s.exited i ≠ some .sameTermOtherCommand := by
  obtain ⟨moments, trace⟩ := run.exists_trace
  have sound := Cluster.sound_of_trace trace
  constructor
  · intro entry entry' present present' sameIndex sameTerm
    rw [sound.identified.unique ⟨s, sound.now, present⟩ ⟨s, sound.now, present'⟩ sameIndex sameTerm]
  · intro i ended
    rcases Cluster.exited_of_trace trace i with running | failed
    · rw [running] at ended
      cases ended
    · rw [failed] at ended
      cases ended

/-- Node 0 of three nodes leads term 1 and replicates a command to node 1. -/
def replicatedOnce (leader : Fin n) : List (Action n) :=
  [.doElection leader, .handle 0, .processReply 0,
    .startConses leader [97], .doHeartBeat leader, .handle 2, .processReply 1]

/-- What nodes 0 and 1 hold at index 1 fixes the command of every such entry. -/
theorem entries_identified_replicatedOnce :
    ∃ (events : List (Event 3)) (s : Cluster 3), ClusterRun anyStep events s ∧
      (s.nodes 0).logs = [⟨[97], 1, 1⟩] ∧ (s.nodes 1).logs = [⟨[97], 1, 1⟩] ∧
      ∀ entry, s.Present entry → entry.logIndex = 1 → entry.logTerm = 1 →
        entry.command = [97] := by
  obtain ⟨events, s, run, checked⟩ := exists_run_of_exec Cluster.step anyStep (Cluster.start 3)
    (replicatedOnce 0)
    (fun result => decide ((result.1.nodes 0).logs = [⟨[97], 1, 1⟩] ∧
      (result.1.nodes 1).logs = [⟨[97], 1, 1⟩]))
    (by decide +kernel)
  rw [decide_eq_true_eq] at checked
  refine ⟨events, s, run, checked.1, checked.2, ?_⟩
  intro entry present index term
  have held : s.Present ⟨[97], 1, 1⟩ := by
    apply Or.inl
    exact ⟨0, checked.1 ▸ List.mem_singleton_self _⟩
  exact (entries_identified run).1 entry ⟨[97], 1, 1⟩ present held index term

/-- No assertion fails and no access is out of range, in every run in which no
request starts below the snapshot of its receiver.  In a leader `m_nextIndex`
is positive, and `getPrevLogInfo` finds an index between the snapshot and the
end of the log whenever `doHeartBeat` calls it. -/
theorem no_assertion_fails {n : Nat} {events : List (Event n)} {s : Cluster n}
    (run : ClusterRun StartsAboveSnapshot events s) :
    (∀ i, s.exited i = none) ∧
    ∀ i, (s.nodes i).status = .leader → ∀ server,
      1 ≤ (s.nodes i).nextIndex server ∧
      ((s.nodes i).lastSnapshotIncludeIndex < (s.nodes i).nextIndex server →
        ∃ index term, (s.nodes i).getPrevLogInfo server = .ok (index, term) ∧
          (s.nodes i).lastSnapshotIncludeIndex ≤ index ∧ index ≤ (s.nodes i).getLastLogIndex) := by
  obtain ⟨moments, trace⟩ := run.exists_trace
  have bounded := (Cluster.sound_of_trace trace).bounded
  refine ⟨Cluster.running_of_trace trace, ?_⟩
  intro i leads server
  have placed := bounded.placed i
  have tracked := bounded.tracked leads server
  refine ⟨tracked.1, ?_⟩
  intro above
  obtain ⟨⟨index, term⟩, previous⟩ :=
    Raft.getPrevLogInfo_succeeds placed above tracked.2.1
  obtain ⟨next, _⟩ := Raft.getPrevLogInfo_cases placed previous
  exact ⟨index, term, previous, by omega, by omega⟩

/-- The command is committed, and applied and compacted by node 1. -/
def compactedOnce (leader follower : Fin n) : List (Action n) :=
  replicatedOnce leader ++
    [.doHeartBeat leader, .handle 4, .getApplyLogs follower, .snapshot follower 1 [7]]

theorem no_assertion_fails_compactedOnce :
    ∃ (events : List (Event 3)) (s : Cluster 3), ClusterRun StartsAboveSnapshot events s ∧
      (s.nodes 1).lastSnapshotIncludeIndex = 1 ∧ (s.nodes 0).status = .leader ∧
      (∀ i, s.exited i = none) ∧ 1 ≤ (s.nodes 0).nextIndex 1 := by
  obtain ⟨events, s, run, checked⟩ := exists_run_of_exec Cluster.step StartsAboveSnapshot
    (Cluster.start 3) (compactedOnce 0 1)
    (fun result => decide ((result.1.nodes 1).lastSnapshotIncludeIndex = 1 ∧
      (result.1.nodes 0).status = .leader))
    (by decide +kernel)
  rw [decide_eq_true_eq] at checked
  have safe := no_assertion_fails run
  exact ⟨events, s, run, checked.1, checked.2, safe.1, (safe.2 0 checked.2 1).1⟩

/-- The first request of the leader arrives at node 1 once more, and ends its
process. -/
theorem not_no_assertion_fails :
    ∃ (events : List (Event 3)) (s : Cluster 3), ClusterRun anyStep events s ∧
      s.exited 1 = some .matchOutOfRange := by
  obtain ⟨events, s, run, checked⟩ := exists_run_of_exec Cluster.step anyStep (Cluster.start 3)
    (compactedOnce 0 1 ++ [.handle 2])
    (fun result => decide (result.1.exited 1 = some .matchOutOfRange))
    (by decide +kernel)
  rw [decide_eq_true_eq] at checked
  exact ⟨events, s, run, checked⟩

end CppRaft.Protocol
