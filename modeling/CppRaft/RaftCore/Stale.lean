import CppRaft.RaftCore.Progress
import CppRaft.RaftCore.ReceiverRule

/-!
# Requests that arrive late

While a leader leads one term it appends to its log, compacts it and raises its
commit index, and it sends requests to a follower all the while.  A follower
that has accepted one of them and agrees with the leader up to its end takes
nothing back when an older one arrives, unless that one starts below the
snapshot of the follower: then its process ends.
-/

namespace CppRaft.RaftCore

open CppRaft.Consensus
open CppRaft.Store
open CppRaft.Transition

variable {n : Nat}

/-! ## The run of a leader -/

/-- A leader, with its whole log: the entries that it holds and those that it
has compacted. -/
structure Leadership (n : Nat) where
  rf : Raft n
  whole : List LogEntry

namespace Raft

/-- The entries that a step of a leader appends. -/
def appended (rf : Raft n) : NodeStep n → List LogEntry
  | .critical (.startConses command) => [rf.newLogEntry command]
  | _ => []

end Raft

/-- One step of a leader that goes on leading its term, with the request that
`doHeartBeat` builds for `server`. -/
def Leadership.lead (server : Fin n) (state : Leadership n) :
    NodeStep n → Option (Leadership n × List AppendEntriesArgs)
  | .doHeartBeat =>
      match state.rf.heartBeatTo server with
      | .error _ => none
      | .ok .snapshot => some (state, [])
      | .ok (.appendEntries args) => some (state, [args])
  | step =>
      match state.rf.operate step with
      | none => none
      | some (rf, _) =>
          if rf.status = .leader ∧ rf.currentTerm = state.rf.currentTerm then
            some (⟨rf, state.whole ++ state.rf.appended step⟩, [])
          else none

/-- The request carries a part of the whole log, and no later commit index. -/
structure Carries (whole : List LogEntry) (term commitIndex : Int) (args : AppendEntriesArgs) :
    Prop where
  term : args.term = term
  part : ∃ first last : Nat, first ≤ last ∧ last ≤ whole.length ∧ args.prevLogIndex = first ∧
    args.prevLogTerm = lastTerm (whole.take first) ∧
    args.entries = (whole.take last).drop first
  commit : args.leaderCommit ≤ commitIndex

/-- What a leader has sent so far, it still stands for. -/
structure Leading (T : Int) (requests : List AppendEntriesArgs) (state : Leadership n) :
    Prop where
  leads : state.rf.status = .leader
  term : state.rf.currentTerm = T
  placed : state.rf.Placed
  view : LogView state.rf state.whole
  sent : ∀ args ∈ requests, Carries state.whole T state.rf.commitIndex args

theorem Carries.mono {whole whole' : List LogEntry} {term commitIndex commitIndex' : Int}
    {args : AppendEntriesArgs} (carries : Carries whole term commitIndex args)
    (grown : whole <+: whole') (later : commitIndex ≤ commitIndex') :
    Carries whole' term commitIndex' args where
  term := carries.term
  part := by
    obtain ⟨first, last, ordered, inside, index, prevTerm, entries⟩ := carries.part
    obtain ⟨more, rfl⟩ := grown
    refine ⟨first, last, ordered, ?_, index, ?_, ?_⟩
    · rw [List.length_append]
      omega
    · rw [prevTerm, List.take_append_of_le_length (by omega)]
    · rw [entries, List.take_append_of_le_length inside]
  commit := carries.commit.trans later

/-- The request that a leader builds carries its log to the end. -/
theorem carries_heartBeatTo {rf : Raft n} {whole : List LogEntry} {server : Fin n}
    {args : AppendEntriesArgs} (view : LogView rf whole)
    (built : rf.heartBeatTo server = .ok (.appendEntries args)) :
    Carries whole rf.currentTerm rf.commitIndex args := by
  obtain ⟨first, inside, term, index, prevTerm, entries, commit⟩ := view.heartBeatTo built
  exact
    { term := term
      part := ⟨first, whole.length, inside, le_rfl, index, prevTerm, by
        rw [List.take_length, entries]⟩
      commit := commit.le }

/-- A critical section over which a node goes on leading keeps the whole log and
appends to it. -/
theorem LogView.release {rf rf' : Raft n} {whole : List LogEntry} {action : NodeAction n}
    (view : LogView rf whole) (released : rf.release action = .ok rf')
    (leads' : rf'.status = .leader) : LogView rf' (whole ++ rf.appended (.critical action)) := by
  have kept : ∀ {rf'' : Raft n}, Raft.Keeps rf rf'' → LogView rf'' (whole ++ []) := by
    intro rf'' keeps
    rw [List.append_nil]
    exact view.congr keeps.logs keeps.index keeps.snapshotTerm
  cases action with
  | appendEntries1 args =>
      obtain ⟨⟨_, _⟩, handled, rfl⟩ := map_eq_ok.mp released
      rw [Raft.appendEntries1_leading handled leads']
      exact kept (Raft.Keeps.refl _)
  | requestVote args =>
      obtain ⟨⟨_, _⟩, handled, rfl⟩ := map_eq_ok.mp released
      exact kept (Raft.requestVote_keeps handled)
  | installSnapshot args =>
      obtain ⟨⟨_, _, _⟩, handled, rfl⟩ := map_eq_ok.mp released
      rw [Raft.installSnapshot_leading handled leads']
      exact kept (Raft.Keeps.refl _)
  | sendRequestVote reply votedNum =>
      obtain ⟨_, processed, rfl⟩ := map_eq_ok.mp released
      exact kept (Raft.sendRequestVote_keeps processed)
  | sendAppendEntries server args reply appendNums =>
      obtain ⟨⟨_, _⟩, processed, rfl⟩ := map_eq_ok.mp released
      change LogView _ (whole ++ [])
      rw [List.append_nil]
      rcases Raft.sendAppendEntries_cases processed with ⟨_, _, rfl, _⟩ | ⟨_, _, rfl⟩ |
        ⟨_, _, _, _, _, _, rfl, _⟩
      · cases leads'
      · exact view.congr rfl rfl rfl
      · exact view.congr rfl rfl rfl
  | snapshotArgs =>
      cases released
      exact kept rf.snapshotArgs_keeps
  | leaderSendSnapShot server args reply =>
      cases released
      exact kept (rf.leaderSendSnapShot_keeps server args reply)
  | doElection =>
      cases released
      exact kept rf.doElection_keeps
  | startConses command =>
      cases released
      rcases rf.startConses_cases command with ⟨follows, idle⟩ | ⟨_, appended⟩
      · rw [idle] at leads'
        exact absurd leads' follows
      · rw [appended]
        exact (view.newLogEntry command).congr rfl rfl rfl
  | snapshot index data =>
      change LogView _ (whole ++ [])
      rw [List.append_nil]
      rcases Raft.snapshot_cases released with rfl | ⟨above, _, _, _, found, collected, rfl⟩
      · exact view
      · exact (view.compacted above found collected).congr rfl rfl rfl

theorem Raft.release_leading {rf rf' : Raft n} {action : NodeAction n} (placed : rf.Placed)
    (released : rf.release action = .ok rf') (leads' : rf'.status = .leader) :
    rf'.Placed ∧ Raft.Advances rf rf' := by
  by_cases received : ∃ args, action = .appendEntries1 args
  · obtain ⟨args, rfl⟩ := received
    obtain ⟨⟨_, _⟩, handled, rfl⟩ := map_eq_ok.mp released
    rw [Raft.appendEntries1_leading handled leads']
    exact ⟨placed, Raft.Advances.refl rf⟩
  · apply Raft.release_placed placed _ released
    cases action with
    | appendEntries1 args => exact absurd ⟨args, rfl⟩ received
    | _ => trivial

/-- What one step of a leader can be. -/
theorem Leadership.lead_cases {state target : Leadership n} {server : Fin n} {step : NodeStep n}
    {more : List AppendEntriesArgs} (taken : state.lead server step = some (target, more)) :
    target = state ∧ (∀ args ∈ more, state.rf.heartBeatTo server = .ok (.appendEntries args)) ∨
      more = [] ∧ target.rf.status = .leader ∧ target.rf.currentTerm = state.rf.currentTerm ∧
        target.whole = state.whole ++ state.rf.appended step ∧
        ∃ msgs, state.rf.operate step = some (target.rf, msgs) := by
  have operated : ∀ {result : Option (Raft n × List ApplyMsg)},
      (match result with
        | none => none
        | some (rf, _) =>
            if rf.status = .leader ∧ rf.currentTerm = state.rf.currentTerm then
              some ((⟨rf, state.whole ++ state.rf.appended step⟩ : Leadership n), [])
            else none) = some (target, more) →
      more = [] ∧ target.rf.status = .leader ∧ target.rf.currentTerm = state.rf.currentTerm ∧
        target.whole = state.whole ++ state.rf.appended step ∧
        ∃ msgs, result = some (target.rf, msgs) := by
    intro result taken
    cases result with
    | none => cases taken
    | some outcome =>
        simp only [Option.ite_none_right_eq_some, Option.some.injEq, Prod.mk.injEq] at taken
        obtain ⟨⟨leads, term⟩, rfl, rfl⟩ := taken
        exact ⟨rfl, leads, term, rfl, outcome.2, rfl⟩
  cases step with
  | critical action => exact Or.inr (operated taken)
  | getApplyLogs => exact Or.inr (operated taken)
  | doHeartBeat =>
      simp only [Leadership.lead] at taken
      cases built : state.rf.heartBeatTo server with
      | error fault => simp [built] at taken
      | ok outgoing =>
          cases outgoing with
          | snapshot =>
              simp only [built, Option.some.injEq, Prod.mk.injEq] at taken
              obtain ⟨rfl, rfl⟩ := taken
              exact Or.inl ⟨rfl, by simp⟩
          | appendEntries args =>
              simp only [built, Option.some.injEq, Prod.mk.injEq] at taken
              obtain ⟨rfl, rfl⟩ := taken
              exact Or.inl ⟨rfl, by simp⟩

/-- A leader goes on standing for what it has sent. -/
theorem Leading.lead {T : Int} {requests more : List AppendEntriesArgs}
    {state target : Leadership n} {server : Fin n} {step : NodeStep n}
    (leading : Leading T requests state)
    (taken : state.lead server step = some (target, more)) :
    Leading T (requests ++ more) target := by
  rcases Leadership.lead_cases taken with ⟨rfl, built⟩ |
    ⟨rfl, leads, sameTerm, whole, msgs, operated⟩
  · have sent : ∀ args ∈ requests ++ more,
        Carries target.whole T target.rf.commitIndex args := by
      intro args member
      rcases List.mem_append.mp member with before | new
      · exact leading.sent args before
      · have carries := carries_heartBeatTo leading.view (built args new)
        rwa [leading.term] at carries
    exact { leading with sent := sent }
  · have grown : Raft.Advances state.rf target.rf ∧ target.rf.Placed ∧
        LogView target.rf target.whole := by
      rw [whole]
      rcases Raft.operate_cases operated with ⟨action, rfl, released, _⟩ | ⟨rfl, collected⟩ |
        ⟨rfl, same, _⟩
      · obtain ⟨placed, advances⟩ := Raft.release_leading leading.placed released leads
        exact ⟨advances, placed, leading.view.release released leads⟩
      · obtain ⟨placed, advances, _⟩ := Raft.getApplyLogs_placed leading.placed collected
        refine ⟨advances, placed, ?_⟩
        change LogView _ (state.whole ++ [])
        rw [List.append_nil, Raft.getApplyLogs_eq collected]
        exact leading.view.congr rfl rfl rfl
      · change _ ∧ _ ∧ LogView _ (state.whole ++ [])
        rw [List.append_nil, same]
        exact ⟨Raft.Advances.refl _, leading.placed, leading.view⟩
    obtain ⟨advances, placed, view⟩ := grown
    exact
      { leads := leads
        term := sameTerm.trans leading.term
        placed := placed
        view := view
        sent := by
          intro args member
          rw [List.append_nil] at member
          apply (leading.sent args member).mono _ advances.committed
          rw [whole]
          exact List.prefix_append _ _ }

theorem leading_of_run {T : Int} {requests : List AppendEntriesArgs} {start state : Leadership n}
    {server : Fin n} (leading : Leading T [] start)
    (run : Run (Leadership.lead server) anyStep start requests state) :
    Leading T requests state := by
  induction run with
  | nil => exact leading
  | snoc _ _ taken ih => exact ih.lead taken

/-! ## The follower -/

/-- The node agrees with the whole log of a leader from its own snapshot on. -/
structure AgreesFrom (rf : Raft n) (whole : List LogEntry) : Prop where
  base : rf.lastSnapshotIncludeIndex ≤ whole.length →
    rf.lastSnapshotIncludeTerm = lastTerm (whole.take rf.lastSnapshotIncludeIndex.toNat)
  behind : ∀ (k : Nat) (entry : LogEntry), rf.lastSnapshotIncludeIndex ≤ k →
    whole[k]? = some entry → rf.logAtIndex ((k : Int) + 1) = .ok entry

/-- The fields that a late request is to leave alone. -/
structure Unmoved (rf rf' : Raft n) : Prop where
  logs : rf'.logs = rf.logs
  commit : rf'.commitIndex = rf.commitIndex
  term : rf'.currentTerm = rf.currentTerm
  vote : rf'.votedFor = rf.votedFor
  base : rf'.lastSnapshotIncludeIndex = rf.lastSnapshotIncludeIndex
  baseTerm : rf'.lastSnapshotIncludeTerm = rf.lastSnapshotIncludeTerm
  applied : rf'.lastApplied = rf.lastApplied

/-- A follower of the term `T` that has taken over the log `whole` of its leader
and the commit index `commitIndex`. -/
structure TakenOver (T commitIndex : Int) (whole : List LogEntry) (rf : Raft n) : Prop where
  placed : rf.Placed
  term : rf.currentTerm = T
  indexed : Indexed whole
  agrees : AgreesFrom rf whole
  committed : commitIndex ≤ rf.commitIndex

/-- The requests are handled one after the other. -/
def Raft.handleAll (rf : Raft n) : List AppendEntriesArgs → Except Fault (Raft n)
  | [] => return rf
  | args :: rest => do
      let (rf, _) ← rf.appendEntries1 args
      rf.handleAll rest

theorem Unmoved.refl (rf : Raft n) : Unmoved rf rf :=
  ⟨rfl, rfl, rfl, rfl, rfl, rfl, rfl⟩

theorem Unmoved.trans {rf rf' rf'' : Raft n} (first : Unmoved rf rf')
    (second : Unmoved rf' rf'') : Unmoved rf rf'' where
  logs := second.logs.trans first.logs
  commit := second.commit.trans first.commit
  term := second.term.trans first.term
  vote := second.vote.trans first.vote
  base := second.base.trans first.base
  baseTerm := second.baseTerm.trans first.baseTerm
  applied := second.applied.trans first.applied

theorem Unmoved.symm {rf rf' : Raft n} (unmoved : Unmoved rf rf') : Unmoved rf' rf where
  logs := unmoved.logs.symm
  commit := unmoved.commit.symm
  term := unmoved.term.symm
  vote := unmoved.vote.symm
  base := unmoved.base.symm
  baseTerm := unmoved.baseTerm.symm
  applied := unmoved.applied.symm

theorem TakenOver.unmoved {T commitIndex : Int} {whole : List LogEntry} {rf rf' : Raft n}
    (taken : TakenOver T commitIndex whole rf) (unmoved : Unmoved rf rf') :
    TakenOver T commitIndex whole rf' := by
  have keeps : Raft.Keeps rf rf' :=
    ⟨unmoved.logs, unmoved.base, unmoved.baseTerm, unmoved.applied, unmoved.commit,
      unmoved.term.ge⟩
  have placed := keeps.placed taken.placed
  exact
    { placed := placed
      term := unmoved.term.trans taken.term
      indexed := taken.indexed
      agrees :=
        { base := by
            rw [unmoved.base, unmoved.baseTerm]
            exact taken.agrees.base
          behind := by
            intro k entry above found
            rw [unmoved.base] at above
            have here := taken.agrees.behind k entry above found
            have member := taken.placed.mem_of_logAtIndex here
            rw [← unmoved.logs] at member
            exact (Raft.Contiguous.logAtIndex_iff_mem placed.logs).mpr member }
      committed := by
        rw [unmoved.commit]
        exact taken.committed }

section TakenOver

variable {T commitIndex : Int} {whole : List LogEntry} {rf : Raft n} {args : AppendEntriesArgs}

/-- The node holds what a late request carries. -/
theorem TakenOver.holds (taken : TakenOver T commitIndex whole rf)
    (carries : Carries whole T commitIndex args)
    (above : rf.lastSnapshotIncludeIndex ≤ args.prevLogIndex) {log : LogEntry}
    (member : log ∈ args.entries) : rf.logAtIndex log.logIndex = .ok log := by
  obtain ⟨first, last, _, _, index, _, entries⟩ := carries.part
  rw [entries] at member
  obtain ⟨j, found⟩ := List.mem_iff_getElem?.mp member
  rw [List.getElem?_drop] at found
  have inWhole : whole[first + j]? = some log := by
    obtain ⟨rest, split⟩ := List.take_prefix last whole
    have inside := (List.getElem?_eq_some_iff.mp found).1
    rw [← split, List.getElem?_append_left inside, found]
  rw [taken.indexed _ log inWhole]
  exact taken.agrees.behind _ log (by omega) inWhole

/-- The log of the node reaches as far as that of the leader. -/
theorem TakenOver.reaches (taken : TakenOver T commitIndex whole rf)
    (shorter : rf.lastSnapshotIncludeIndex ≤ whole.length) :
    (whole.length : Int) ≤ rf.getLastLogIndex := by
  have base := taken.placed.base
  have last := taken.placed.getLastLogIndex
  rcases eq_or_lt_of_le shorter with all | behind
  · omega
  · have inside : whole.length - 1 < whole.length := by omega
    have found := taken.agrees.behind _ _ (by omega) (List.getElem?_eq_getElem inside)
    obtain ⟨member, index⟩ := taken.placed.mem_of_logAtIndex found
    have range := taken.placed.index_range member
    omega

/-- The previous entry of a late request matches. -/
theorem TakenOver.matchLog (taken : TakenOver T commitIndex whole rf)
    (carries : Carries whole T commitIndex args)
    (above : rf.lastSnapshotIncludeIndex ≤ args.prevLogIndex) :
    rf.matchLog args.prevLogIndex args.prevLogTerm = .ok true := by
  obtain ⟨first, last, ordered, inside, index, prevTerm, _⟩ := carries.part
  have base := taken.placed.base
  have reaches := taken.reaches (by omega)
  have below : args.prevLogIndex ≤ rf.getLastLogIndex := by omega
  have known : rf.getLogTermFromLogIndex args.prevLogIndex = .ok args.prevLogTerm := by
    simp only [Raft.getLogTermFromLogIndex, bind_eq_ok, myAssert_eq_ok]
    refine ⟨(), above, (), below, ?_⟩
    split
    · rename_i atBase
      have baseTerm := taken.agrees.base (by omega)
      have position : rf.lastSnapshotIncludeIndex.toNat = first := by omega
      rw [pure_eq_ok, baseTerm, position, prevTerm]
    · rename_i behind
      obtain ⟨k, rfl⟩ := Nat.exists_eq_add_of_lt (show 0 < first by omega)
      have found : whole[0 + k]? = some whole[0 + k] := List.getElem?_eq_getElem (by omega)
      have here := taken.agrees.behind _ _ (by omega) found
      rw [bind_eq_ok, prevTerm, lastTerm_take found]
      refine ⟨_, ?_, rfl⟩
      rw [index]
      exact_mod_cast here
  simp only [Raft.matchLog, bind_eq_ok, myAssert_eq_ok, pure_eq_ok, decide_eq_true_eq]
  exact ⟨(), ⟨above, below⟩, _, known, rfl⟩

theorem Carries.numbered (carries : Carries whole T commitIndex args) (indexed : Indexed whole) :
    args.Numbered := by
  obtain ⟨first, last, _, _, index, _, entries⟩ := carries.part
  unfold AppendEntriesArgs.Numbered
  rw [entries]
  apply numberedFrom_iff.mpr
  intro j log found
  rw [List.getElem?_drop] at found
  have place := indexed.of_isPrefix (List.take_prefix last whole) _ log found
  omega

/-- A late request that starts at the snapshot or behind it changes nothing. -/
theorem TakenOver.appendEntries1 (taken : TakenOver T commitIndex whole rf)
    (carries : Carries whole T commitIndex args)
    (above : rf.lastSnapshotIncludeIndex ≤ args.prevLogIndex) :
    ∃ rf' reply, rf.appendEntries1 args = .ok (rf', reply) ∧ Unmoved rf rf' := by
  have sameTerm : args.term = rf.currentTerm := carries.term.trans taken.term.symm
  have follows : rf.followTerm args.term = { rf with status := .follower } := by
    unfold Raft.followTerm Raft.meetTerm
    rw [if_neg (by omega)]
  have unmoved : Unmoved rf (rf.followTerm args.term) := by
    rw [follows]
    exact ⟨rfl, rfl, rfl, rfl, rfl, rfl, rfl⟩
  have taken' := taken.unmoved unmoved
  rw [Raft.appendEntries1_of_match sameTerm.ge (taken.matchLog carries above)]
  generalize rf.followTerm args.term = rf' at unmoved taken'
  rw [← unmoved.base] at above
  have range := Raft.matchLog_range (taken'.matchLog carries above)
  have holds : ∀ log ∈ args.entries, rf'.logAtIndex log.logIndex = .ok log :=
    fun log member => taken'.holds carries above member
  have agrees : rf'.AgreesWith args.entries := by
    intro old member log sent sameIndex _
    have here := (Raft.Contiguous.logAtIndex_iff_mem taken'.placed.logs).mpr ⟨member, sameIndex⟩
    rw [holds log sent, Except.ok.injEq] at here
    rw [here]
  have accepted : Succeeds (rf'.acceptEntries args { appState := AppNormal }) :=
    Raft.acceptEntries_succeeds taken'.placed.logs taken'.placed.stored
      (carries.numbered taken'.indexed) range.1 range.2 agrees
  obtain ⟨⟨rf'', reply⟩, accepted⟩ := accepted
  refine ⟨rf'', reply, accepted, ?_⟩
  obtain ⟨stored, looped, rfl, _⟩ := Raft.acceptEntries_eq accepted
  -- Every entry is in place, so the loop changes nothing.
  have same : stored = rf' := by
    refine Raft.appendEntriesLoop_of_no_conflict ?_ ?_ looped
    · intro log sent
      obtain ⟨member, _⟩ := taken'.placed.mem_of_logAtIndex (holds log sent)
      exact (taken'.placed.index_range member).2
    · intro log sent conflict
      exact (Raft.conflictsAt_of_found (holds log sent)).mp conflict rfl
  subst same
  have committed := taken'.committed
  have commit := carries.commit
  have kept : stored.followCommit args.leaderCommit = stored := by
    unfold Raft.followCommit
    rw [if_neg (by omega)]
  rw [kept]
  exact unmoved.trans ⟨rfl, rfl, rfl, rfl, rfl, rfl, rfl⟩

/-- Late requests are handled without a trace exactly if none of them starts
below the snapshot. -/
theorem TakenOver.handleAll_iff (taken : TakenOver T commitIndex whole rf)
    {late : List AppendEntriesArgs} (carries : ∀ args ∈ late, Carries whole T commitIndex args) :
    (∃ rf', rf.handleAll late = .ok rf' ∧ Unmoved rf rf') ↔
      ∀ args ∈ late, rf.lastSnapshotIncludeIndex ≤ args.prevLogIndex := by
  induction late generalizing rf with
  | nil =>
      constructor
      · simp
      · intro _
        exact ⟨rf, rfl, Unmoved.refl rf⟩
  | cons args rest ih =>
      have sent := carries args List.mem_cons_self
      have notOutdated : rf.currentTerm ≤ args.term := (taken.term.trans sent.term.symm).le
      rcases lt_or_ge args.prevLogIndex rf.lastSnapshotIncludeIndex with below | above
      · have failed := Raft.appendEntries1_below taken.placed notOutdated below
        apply iff_of_false
        · rintro ⟨rf', handled, _⟩
          rw [Raft.handleAll, failed] at handled
          cases handled
        · intro all
          have here := all args List.mem_cons_self
          omega
      · obtain ⟨middle, reply, handled, unmoved⟩ := taken.appendEntries1 sent above
        have later := ih (taken.unmoved unmoved)
          fun other member => carries other (List.mem_cons_of_mem _ member)
        have first : rf.handleAll (args :: rest) = middle.handleAll rest := by
          rw [Raft.handleAll, handled]
          rfl
        rw [first, List.forall_mem_cons]
        rw [unmoved.base] at later
        constructor
        · rintro ⟨rf', done, unmoved'⟩
          exact ⟨above, later.mp ⟨rf', done, unmoved.symm.trans unmoved'⟩⟩
        · rintro ⟨_, all⟩
          obtain ⟨rf', done, unmoved'⟩ := later.mpr all
          exact ⟨rf', done, unmoved.trans unmoved'⟩

end TakenOver

/-! ## All late requests -/

/-- A node that has accepted a request has taken over the commit index with it. -/
theorem Raft.appendEntries1_committed {rf rf' : Raft n} {args : AppendEntriesArgs}
    {reply : AppendEntriesReply} (placed : rf.Placed) (numbered : args.Numbered)
    (bounded : args.leaderCommit ≤ args.endIndex)
    (handled : rf.appendEntries1 args = .ok (rf', reply)) (success : reply.success = true) :
    args.leaderCommit ≤ rf'.commitIndex := by
  rcases appendEntries1_cases handled with ⟨_, _, refused⟩ | ⟨_, _, refused⟩ |
    ⟨notOutdated, _, _, previous, stored, looped, rfl⟩
  · rw [success] at refused
    cases refused
  · rw [success] at refused
    cases refused
  · obtain ⟨_, last⟩ := appendEntries1_stored placed numbered notOutdated previous looped
    unfold AppendEntriesArgs.endIndex at bounded
    change args.leaderCommit ≤ (stored.followCommit args.leaderCommit).commitIndex
    unfold followCommit
    split
    · change args.leaderCommit ≤ min args.leaderCommit stored.getLastLogIndex
      omega
    · omega

/-- A follower that has accepted a request, and agrees with the log of the leader
to the end of it, handles every mixture of this request and earlier ones without
changing its log, commit index, term, vote and snapshot, exactly if none of them
starts below its snapshot. -/
theorem stale_requests_iff {n : Nat} {server : Fin n} {start leader : Leadership n}
    {sent late : List AppendEntriesArgs} {latest : AppendEntriesArgs}
    {follower accepting rf : Raft n} {reply : AppendEntriesReply} {msgs : List ApplyMsg}
    -- The leader runs in one term and builds `latest` at the end.
    (leads : start.rf.status = .leader) (placed : start.rf.Placed)
    (view : LogView start.rf start.whole)
    (run : Run (Leadership.lead server) anyStep start sent leader)
    (built : leader.rf.heartBeatTo server = .ok (.appendEntries latest))
    -- The follower accepts `latest` and goes on in that term.
    (follows : follower.Placed) (handled : follower.appendEntries1 latest = .ok (accepting, reply))
    (success : reply.success = true)
    (later : Run Raft.operate Raft.NumberedRequest accepting msgs rf)
    (term : rf.currentTerm = leader.rf.currentTerm) (agrees : AgreesFrom rf leader.whole)
    (old : ∀ args ∈ late, args ∈ sent ∨ args = latest) :
    (∃ rf', rf.handleAll late = .ok rf' ∧ Unmoved rf rf') ↔
      ∀ args ∈ late, rf.lastSnapshotIncludeIndex ≤ args.prevLogIndex := by
  have leading : Leading start.rf.currentTerm sent leader :=
    leading_of_run ⟨leads, rfl, placed, view, by simp⟩ run
  obtain ⟨_, numbered, endIndex, _⟩ := Raft.heartBeatTo_built leading.placed built
  have carries := carries_heartBeatTo leading.view built
  have stored := leading.placed.stored
  have commit : latest.leaderCommit = leader.rf.commitIndex := by
    obtain ⟨_, _, _, _, _, _, commit⟩ := leading.view.heartBeatTo built
    exact commit
  obtain ⟨placed', _⟩ := Raft.appendEntries1_placed follows numbered handled
  have committed := Raft.appendEntries1_committed follows numbered (by omega) handled success
  obtain ⟨placed'', advances⟩ := Raft.placed_of_run placed' later
  have taken : TakenOver leader.rf.currentTerm leader.rf.commitIndex leader.whole rf :=
    { placed := placed''
      term := term
      indexed := leading.view.indexed
      agrees := agrees
      committed := (commit ▸ committed).trans advances.committed }
  apply taken.handleAll_iff
  intro args member
  rcases old args member with before | rfl
  · have carries := leading.sent args before
    rwa [← leading.term] at carries
  · exact carries

/-- A leader of term 1 with one entry. -/
def oneEntry (leader : Fin n) : Leadership n where
  rf :=
    { Raft.init leader none with
      status := .leader
      currentTerm := 1
      logs := [⟨[97], 1, 1⟩]
      nextIndex := fun _ => 1 }
  whole := [⟨[97], 1, 1⟩]

/-- The leader after it has appended a second entry. -/
def twoEntries (leader : Fin n) : Leadership n where
  rf := ((oneEntry leader).rf.startConses [98]).1
  whole := [⟨[97], 1, 1⟩, ⟨[98], 1, 2⟩]

/-- The request that carries the first `count` of the two entries. -/
def requestOf (count : Nat) (leaderCommit : Int) : AppendEntriesArgs where
  term := 1
  leaderId := 0
  prevLogIndex := 0
  prevLogTerm := 0
  entries := [⟨[97], 1, 1⟩, ⟨[98], 1, 2⟩].take count
  leaderCommit := leaderCommit

/-- A fresh follower after it has accepted both entries. -/
def acceptedTwo (me : Fin n) (leaderCommit : Int) : Raft n :=
  { Raft.init me none with
    currentTerm := 1
    logs := (requestOf 2 leaderCommit).entries
    commitIndex := leaderCommit }.persist

theorem placed_oneEntry : (oneEntry (0 : Fin 3)).rf.Placed :=
  ⟨by decide, by decide, by decide, by decide, by decide, by decide⟩

theorem view_oneEntry (leader : Fin n) : LogView (oneEntry leader).rf (oneEntry leader).whole where
  indexed := by
    intro k entry found
    match k, found with
    | 0, found =>
        cases found
        rfl
  snapshotNonneg := le_refl (0 : Int)
  snapshotBound := show (0 : Int) ≤ 1 by decide
  snapshotTerm := rfl
  logs := rfl

theorem agreesFrom_of_two (leader : Fin n) {rf : Raft n}
    (base : rf.lastSnapshotIncludeTerm =
      lastTerm ((twoEntries leader).whole.take rf.lastSnapshotIncludeIndex.toNat))
    (first : rf.lastSnapshotIncludeIndex ≤ 0 → rf.logAtIndex 1 = .ok ⟨[97], 1, 1⟩)
    (second : rf.lastSnapshotIncludeIndex ≤ 1 → rf.logAtIndex 2 = .ok ⟨[98], 1, 2⟩) :
    AgreesFrom rf (twoEntries leader).whole where
  base := fun _ => base
  behind := by
    intro k entry above found
    match k, above, found with
    | 0, above, found =>
        cases found
        exact first above
    | 1, above, found =>
        cases found
        exact second above

/-- The first request, the second one and the first one again arrive after both
entries were accepted. -/
theorem stale_requests_iff_twoEntries :
    ∃ rf', (acceptedTwo (1 : Fin 3) 0).handleAll [requestOf 1 0, requestOf 2 0, requestOf 1 0] =
        .ok rf' ∧
      Unmoved (acceptedTwo 1 0) rf' := by
  have run : Run (Leadership.lead 1) anyStep (oneEntry (0 : Fin 3)) [requestOf 1 0]
      (twoEntries 0) := by
    have sent : Run (Leadership.lead 1) anyStep (oneEntry (0 : Fin 3)) ([] ++ [requestOf 1 0])
        (oneEntry 0) :=
      Run.nil.snoc trivial (show (oneEntry 0).lead 1 .doHeartBeat = _ from rfl)
    exact sent.snoc trivial
      (show (oneEntry 0).lead 1 (.critical (.startConses [98])) = some (twoEntries 0, []) from rfl)
  exact (stale_requests_iff rfl placed_oneEntry (view_oneEntry 0) run
    (show (twoEntries 0).rf.heartBeatTo 1 = .ok (.appendEntries (requestOf 2 0)) from rfl)
    (Raft.placed_init 1) rfl rfl Run.nil rfl
    (agreesFrom_of_two 0 rfl (fun _ => rfl) (fun _ => rfl)) (by simp)).mpr (by decide)

/-- A leader with two committed entries, of which its follower knows nothing. -/
def twoCommitted (leader : Fin n) : Leadership n :=
  { twoEntries leader with rf := { (twoEntries leader).rf with commitIndex := 2 } }

theorem view_twoCommitted (leader : Fin n) :
    LogView (twoCommitted leader).rf (twoCommitted leader).whole := by
  have appended := (view_oneEntry leader).newLogEntry [98]
  exact appended.congr rfl rfl rfl

/-- The follower after it has compacted the two entries. -/
def compactedTwo (me : Fin n) : Raft n :=
  ((acceptedTwo me 2).compacted 2 1 []).save [120]

/-- The request that the follower has accepted arrives once more after the
follower has compacted its entries, and ends the process. -/
theorem not_stale_requests :
    ¬ ∀ (start leader : Leadership 3) (sent late : List AppendEntriesArgs)
      (latest : AppendEntriesArgs) (follower accepting rf : Raft 3) (reply : AppendEntriesReply)
      (msgs : List ApplyMsg), start.rf.status = .leader → start.rf.Placed →
      LogView start.rf start.whole → Run (Leadership.lead 1) anyStep start sent leader →
      leader.rf.heartBeatTo 1 = .ok (.appendEntries latest) → follower.Placed →
      follower.appendEntries1 latest = .ok (accepting, reply) → reply.success = true →
      Run Raft.operate Raft.NumberedRequest accepting msgs rf →
      rf.currentTerm = leader.rf.currentTerm → AgreesFrom rf leader.whole →
      (∀ args ∈ late, args ∈ sent ∨ args = latest) →
      ∃ rf', rf.handleAll late = .ok rf' ∧ Unmoved rf rf' := by
  intro harmless
  have compacts : Run Raft.operate Raft.NumberedRequest (acceptedTwo (1 : Fin 3) 2) ([] ++ [])
      (compactedTwo 1) :=
    Run.nil.snoc
      (show (acceptedTwo 1 2).NumberedRequest (.critical (.snapshot 2 [120])) from trivial)
      (show (acceptedTwo 1 2).operate (.critical (.snapshot 2 [120])) =
        some (compactedTwo 1, []) from rfl)
  have placed : (twoCommitted (0 : Fin 3)).rf.Placed :=
    ⟨by decide, by decide, by decide, by decide, by decide, by decide⟩
  obtain ⟨rf', handled, _⟩ := harmless (twoCommitted 0) (twoCommitted 0) [] [requestOf 2 2]
    (requestOf 2 2) (Raft.init 1 none) (acceptedTwo 1 2) (compactedTwo 1) _ [] rfl placed
    (view_twoCommitted 0) Run.nil rfl (Raft.placed_init 1) rfl rfl compacts rfl
    (agreesFrom_of_two 0 rfl (by decide) (by decide)) (by simp)
  cases handled

end CppRaft.RaftCore
