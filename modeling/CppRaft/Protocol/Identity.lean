import CppRaft.Protocol.Bounds
import CppRaft.Protocol.ElectionSafety
import CppRaft.RaftCore.Total
import CppRaft.Transition.Trace

/-!
# An entry is identified by its index and term

Only the winner of a term makes entries of that term, each one index above the
end of its log.  No log ever gets shorter, so the end of the winner's log stays
above every entry of its term, and a new entry has a new index.  While the
winner leads, it also keeps all of these entries that it has not compacted.
-/

namespace CppRaft.Protocol

open CppRaft.RaftCore
open CppRaft.Store
open CppRaft.Transition

variable {n : Nat}

/-! ## Where entries are -/

namespace Cluster

/-- The entry is in the log of a node or in an `AppendEntries` request. -/
def Present (s : Cluster n) (entry : LogEntry) : Prop :=
  (∃ v, entry ∈ (s.nodes v).logs) ∨
    ∃ call ∈ s.calls, ∃ args a, call.request = .appendEntries args a ∧ entry ∈ args.entries

/-- The entry was present at one of the moments. -/
def Appeared (moments : List (Cluster n)) (entry : LogEntry) : Prop :=
  ∃ moment ∈ moments, moment.Present entry

section Step

variable {s s' : Cluster n} {action : Action n} {emitted : List (Event n)}

/-- The log of a node takes entries from a request, or a new one from
`StartConses` on a leader. -/
theorem Bounded.moved_logs (bounded : s.Bounded) {v : Fin n} {rf : Raft n}
    (moved : s.Moved action emitted v rf) {entry : LogEntry} (member : entry ∈ rf.logs) :
    s.Present entry ∨
      ∃ command, action = .startConses v command ∧ (s.nodes v).status = .leader ∧
        entry = (s.nodes v).newLogEntry command := by
  have placed := bounded.placed v
  have kept : rf.logs = (s.nodes v).logs → s.Present entry := by
    intro same
    rw [same] at member
    exact Or.inl ⟨v, member⟩
  cases moved with
  | same => exact Or.inl (Or.inl ⟨v, member⟩)
  | candidacy => exact Or.inl (Or.inl ⟨v, member⟩)
  | @startConses command taken =>
      rcases (s.nodes v).startConses_cases command with ⟨_, idle⟩ | ⟨leads, appended⟩
      · rw [idle] at member
        exact Or.inl (Or.inl ⟨v, member⟩)
      · rw [appended] at member
        rcases List.mem_append.mp member with before | new
        · exact Or.inl (Or.inl ⟨v, before⟩)
        · exact Or.inr ⟨command, taken, leads, List.mem_singleton.mp new⟩
  | getApplyLogs collected =>
      exact Or.inl (kept (Raft.getApplyLogs_placed placed collected).2.2.1)
  | snapshot compacted =>
      exact Or.inl (Or.inl ⟨v, (Raft.snapshot_placed placed compacted).2.2 entry member⟩)
  | snapshotArgs => exact Or.inl (Or.inl ⟨v, member⟩)
  | requestVote handled => exact Or.inl (kept (Raft.requestVote_keeps handled).logs)
  | @appendEntries1 k a call args rf reply inside request _ _ _ handled =>
      rcases Raft.appendEntries1_cases handled with ⟨_, rfl, _⟩ | ⟨notOutdated, rfl, _⟩ |
        ⟨notOutdated, _, _, previous, stored, looped, rfl⟩
      · exact Or.inl (kept rfl)
      · exact Or.inl (kept ((s.nodes v).keeps_followTerm notOutdated).logs)
      · have keeps := (s.nodes v).keeps_followTerm notOutdated
        have range := Raft.matchLog_range previous
        obtain ⟨commitIndex, raised⟩ := stored.followCommit_eq args.leaderCommit
        rw [raised] at member
        have origin := (Raft.appendEntriesLoop_holds (keeps.placed placed)
          (bounded.offered inside request).1 (by omega) (by omega) looped).1 entry member
        rw [keeps.logs] at origin
        rcases origin with before | sent
        · exact Or.inl (Or.inl ⟨v, before⟩)
        · exact Or.inl (Or.inr ⟨call, inside, args, a, request, sent⟩)
  | installSnapshot _ _ _ handled =>
      rcases Raft.installSnapshot_cases handled with ⟨_, rfl, _⟩ | ⟨notOutdated, _, rfl, _⟩ |
        ⟨_, newer, ⟨logs, cut, rfl⟩, _⟩
      · exact Or.inl (kept rfl)
      · exact Or.inl (kept ((s.nodes v).keeps_snapshotTerm notOutdated).logs)
      · exact Or.inl (Or.inl ⟨v, (Raft.cutLogs_numbered placed newer cut).2.1 entry member⟩)
  | sendRequestVote processed _ =>
      exact Or.inl (kept (Raft.sendRequestVote_keeps processed).logs)
  | sendAppendEntries _ _ _ _ processed =>
      rcases Raft.sendAppendEntries_cases processed with ⟨_, _, rfl, _⟩ | ⟨_, _, rfl⟩ |
        ⟨_, _, _, _, _, _, rfl, _⟩
      · exact Or.inl (kept rfl)
      · exact Or.inl (kept rfl)
      · exact Or.inl (kept rfl)
  | leaderSendSnapShot => exact Or.inl (kept (Raft.leaderSendSnapShot_keeps _ _ _ _).logs)

/-- Every entry that is present after a step was present before it, or is the
new entry of a leader. -/
theorem Bounded.present (bounded : s.Bounded) (effect : s.Effect action s' emitted)
    {entry : LogEntry} (present : s'.Present entry) :
    s.Present entry ∨
      ∃ v command, action = .startConses v command ∧ (s.nodes v).status = .leader ∧
        entry = (s.nodes v).newLogEntry command ∧ entry ∈ (s'.nodes v).logs := by
  rcases present with ⟨v, member⟩ | ⟨call, inside, args, a, request, member⟩
  · rcases bounded.moved_logs (effect.moved v) member with before | ⟨command, taken, leads, new⟩
    · exact Or.inl before
    · exact Or.inr ⟨v, command, taken, leads, new, member⟩
  · rcases effect.newCall inside with before | started
    · exact Or.inl (Or.inr ⟨call, before, args, a, request, member⟩)
    · cases started with
      | requestVote => cases request
      | @appendEntries i server args' leads _ built =>
          cases request
          obtain ⟨_, _, _, _, _, carried⟩ := Raft.heartBeatTo_built (bounded.placed i) built
          rw [carried] at member
          exact Or.inl (Or.inl ⟨i, List.mem_of_mem_drop member⟩)
      | installSnapshot => cases request

/-- A leader that keeps leading keeps its entries, except those it compacts. -/
theorem Bounded.moved_keeps (bounded : s.Bounded) {v : Fin n} {rf : Raft n}
    (moved : s.Moved action emitted v rf) (leader : rf.status = .leader) {entry : LogEntry}
    (member : entry ∈ (s.nodes v).logs) (above : rf.lastSnapshotIncludeIndex < entry.logIndex) :
    entry ∈ rf.logs := by
  have placed := bounded.placed v
  have kept : rf.logs = (s.nodes v).logs → entry ∈ rf.logs := by
    intro same
    rwa [same]
  cases moved with
  | same => exact member
  | candidacy => exact member
  | @startConses command _ =>
      rcases (s.nodes v).startConses_cases command with ⟨_, idle⟩ | ⟨_, appended⟩
      · rw [idle]
        exact member
      · rw [appended]
        exact List.mem_append_left _ member
  | getApplyLogs collected => exact kept (Raft.getApplyLogs_placed placed collected).2.2.1
  | snapshot compacted =>
      obtain ⟨placed', advances, origin⟩ := Raft.snapshot_placed placed compacted
      have range := placed.index_range member
      have longer := advances.last
      obtain ⟨entry', here, _, index⟩ := placed'.logAtIndex above (by omega)
      have same := placed.logs.eq_of_index (origin entry' here) member index
      rwa [← same]
  | snapshotArgs => exact member
  | requestVote handled => exact kept (Raft.requestVote_keeps handled).logs
  | appendEntries1 _ _ _ _ _ handled =>
      rcases Raft.appendEntries1_cases handled with ⟨_, rfl, _⟩ | ⟨notOutdated, rfl, _⟩ |
        ⟨_, _, _, _, stored, looped, rfl⟩
      · exact member
      · cases leader
      · obtain ⟨commitIndex, raised⟩ := stored.followCommit_eq _
        rw [raised, Raft.appendEntriesLoop_eq looped] at leader
        cases leader
  | installSnapshot _ _ _ handled =>
      rcases Raft.installSnapshot_cases handled with ⟨_, rfl, _⟩ | ⟨_, _, rfl, _⟩ |
        ⟨_, _, ⟨_, _, rfl⟩, _⟩
      · exact member
      · cases leader
      · cases leader
  | sendRequestVote processed _ => exact kept (Raft.sendRequestVote_keeps processed).logs
  | sendAppendEntries _ _ _ _ processed =>
      rcases Raft.sendAppendEntries_cases processed with ⟨_, _, rfl, _⟩ | ⟨_, _, rfl⟩ |
        ⟨_, _, _, _, _, _, rfl, _⟩
      · exact member
      · exact member
      · exact member
  | leaderSendSnapShot => exact kept (Raft.leaderSendSnapShot_keeps _ _ _ _).logs

end Step

/-! ## The invariant -/

/-- The entries that have appeared so far: the winner of their term made them,
no two share index and term, and the winner keeps them while it leads. -/
structure Identified (events : List (Event n)) (moments : List (Cluster n)) (s : Cluster n) :
    Prop where
  made : ∀ {entry}, Appeared moments entry →
    ∃ c, Won events c entry.logTerm ∧ entry.logIndex ≤ (s.nodes c).getLastLogIndex
  unique : ∀ {entry entry'}, Appeared moments entry → Appeared moments entry' →
    entry.logIndex = entry'.logIndex → entry.logTerm = entry'.logTerm → entry = entry'
  kept : ∀ {v}, (s.nodes v).status = .leader → ∀ {entry}, Appeared moments entry →
    entry.logTerm = (s.nodes v).currentTerm →
    (s.nodes v).lastSnapshotIncludeIndex < entry.logIndex → entry ∈ (s.nodes v).logs

theorem identified_start (n : Nat) : Identified [] [start n] (start n) := by
  have nothing : ∀ {entry}, ¬ Appeared [start n] entry := by
    rintro entry ⟨moment, member, present⟩
    rw [List.mem_singleton.mp member] at present
    rcases present with ⟨v, inside⟩ | ⟨call, inside, _⟩
    · cases inside
    · cases inside
  exact
    { made := fun appeared => absurd appeared nothing
      unique := fun appeared => absurd appeared nothing
      kept := fun _ _ appeared => absurd appeared nothing }

/-- Every step keeps the invariant. -/
theorem Identified.step {events emitted : List (Event n)} {moments : List (Cluster n)}
    {s s' : Cluster n} {action : Action n} {counted counted' : Nat → Finset (Fin n)}
    (inv : Identified events moments s) (bounded : s.Bounded) (now : s ∈ moments)
    (election : Election events s counted) (election' : Election (events ++ emitted) s' counted')
    (effect : s.Effect action s' emitted) :
    Identified (events ++ emitted) (moments ++ [s']) s' := by
  have longer : ∀ v, (s.nodes v).getLastLogIndex ≤ (s'.nodes v).getLastLogIndex :=
    fun v => (bounded.moved (effect.moved v)).2.last
  -- An entry appeared before, or is made by this step on a leader.
  have origin : ∀ {entry}, Appeared (moments ++ [s']) entry → Appeared moments entry ∨
      ∃ v command, action = .startConses v command ∧ (s.nodes v).status = .leader ∧
        entry = (s.nodes v).newLogEntry command ∧ entry ∈ (s'.nodes v).logs := by
    rintro entry ⟨moment, member, present⟩
    rcases List.mem_append.mp member with before | here
    · exact Or.inl ⟨moment, before, present⟩
    · rw [List.mem_singleton.mp here] at present
      rcases bounded.present effect present with before | new
      · exact Or.inl ⟨s, now, before⟩
      · exact Or.inr new
  -- A new entry is above every entry of its term.
  have fresh : ∀ {entry v command}, Appeared moments entry → (s.nodes v).status = .leader →
      entry.logTerm = ((s.nodes v).newLogEntry command).logTerm →
      entry.logIndex < ((s.nodes v).newLogEntry command).logIndex := by
    intro entry v command appeared leads sameTerm
    obtain ⟨c, won, index⟩ := inv.made appeared
    rw [sameTerm] at won
    rw [election.winner_unique won (election.leads leads)] at index
    exact Int.lt_add_one_of_le index
  exact
    { made := by
        intro entry appeared
        rcases origin appeared with before | ⟨v, command, _, leads, rfl, member⟩
        · obtain ⟨c, won, index⟩ := inv.made before
          exact ⟨c, won.append, index.trans (longer c)⟩
        · have placed' := (bounded.moved (effect.moved v)).1
          exact ⟨v, (election.leads leads).append, (placed'.index_range member).2⟩
      unique := by
        intro entry entry' appeared appeared' sameIndex sameTerm
        rcases origin appeared with before | ⟨v, command, taken, leads, rfl, _⟩
        · rcases origin appeared' with before' | ⟨v', command', _, leads', rfl, _⟩
          · exact inv.unique before before' sameIndex sameTerm
          · have below := fresh before leads' sameTerm
            omega
        · rcases origin appeared' with before' | ⟨v', command', taken', leads', rfl, _⟩
          · have below := fresh before' leads sameTerm.symm
            omega
          · rw [taken, Action.startConses.injEq] at taken'
            obtain ⟨rfl, rfl⟩ := taken'
            rfl
      kept := by
        intro v leader entry appeared sameTerm above
        have moved := effect.moved v
        have later := (bounded.moved moved).2.snapshot
        rcases moved.leads leader with ⟨leads, term⟩ | ⟨_, _, elected⟩
        · rw [term] at sameTerm
          rcases origin appeared with before | ⟨v', command, _, leads', rfl, member⟩
          · have member := inv.kept leads before sameTerm (by omega)
            exact bounded.moved_keeps moved leader member above
          · have won := election.leads leads'
            rw [show (s.nodes v').currentTerm = (s.nodes v).currentTerm from sameTerm] at won
            rwa [← election.winner_unique won (election.leads leads)]
        · have noWinner := election'.not_won_before elected
          rcases origin appeared with before | ⟨v', command, _, leads', rfl, _⟩
          · obtain ⟨c, won, _⟩ := inv.made before
            rw [sameTerm] at won
            exact absurd won (noWinner c)
          · have won := election.leads leads'
            rw [show (s.nodes v').currentTerm = (s'.nodes v).currentTerm from sameTerm] at won
            exact absurd won (noWinner v') }

/-! ## Runs -/

/-- The invariants that hold along every run. -/
structure Sound (events : List (Event n)) (moments : List (Cluster n)) (s : Cluster n) :
    Prop where
  election : ∃ counted, Election events s counted
  bounded : s.Bounded
  identified : Identified events moments s
  now : s ∈ moments

/-- A leader that has not compacted the end of a request of its term has the
last entry of that request. -/
theorem Sound.has_last {events : List (Event n)} {moments : List (Cluster n)} {s : Cluster n}
    (sound : Sound events moments s) {i : Fin n} {call : RpcCall n} {args : AppendEntriesArgs}
    {a : Nat} (member : call ∈ s.calls) (request : call.request = .appendEntries args a)
    (leads : (s.nodes i).status = .leader)
    (stamped : args.entries.getLast?.map LogEntry.logTerm = some (s.nodes i).currentTerm)
    (above : (s.nodes i).lastSnapshotIncludeIndex < args.endIndex) :
    ∃ last ∈ (s.nodes i).logs, last.logIndex = args.endIndex ∧
      last.logTerm = (s.nodes i).currentTerm := by
  obtain ⟨last, final, lastTerm⟩ := Option.map_eq_some_iff.mp stamped
  have numbered := (sound.bounded.offered member request).1
  have lastIndex : last.logIndex = args.endIndex := by
    rw [List.getLast?_eq_getElem?] at final
    have place := numberedFrom_iff.mp numbered _ last final
    have inside := (List.getElem?_eq_some_iff.mp final).1
    unfold AppendEntriesArgs.endIndex
    omega
  have appeared : Appeared moments last :=
    ⟨s, sound.now, Or.inr ⟨call, member, args, a, request, List.mem_of_getLast? final⟩⟩
  exact ⟨last, sound.identified.kept leads appeared lastTerm (by omega), lastIndex, lastTerm⟩

theorem sound_of_trace {guard : Cluster n → Action n → Prop} {events : List (Event n)}
    {moments : List (Cluster n)} {s : Cluster n}
    (trace : Trace Cluster.step guard (start n) events moments s) : Sound events moments s := by
  induction trace with
  | nil =>
      exact ⟨⟨_, election_start n⟩, bounded_start n, identified_start n, by simp⟩
  | snoc _ _ taken ih =>
      obtain ⟨counted, election⟩ := ih.election
      have election' := election.step taken
      have effect := step_effect taken
      obtain ⟨counted', next⟩ := election'
      exact ⟨⟨counted', next⟩, ih.bounded.step effect,
        ih.identified.step ih.bounded ih.now election next effect, by simp⟩

end Cluster

end CppRaft.Protocol
