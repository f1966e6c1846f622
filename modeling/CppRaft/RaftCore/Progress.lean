import CppRaft.RaftCore.Advance

/-!
# The runs of one node

A node runs its critical sections, its applier and its heartbeats in any order
and with any arguments.  A step whose assertion fails ends the process, so it
is not enabled.  Along such a run the entries stay in their places, the
counters move forward, and `getApplyLogs` hands out every index once, in order,
except those that a snapshot covers.
-/

namespace CppRaft.RaftCore

open CppRaft.Store
open CppRaft.Transition

variable {n : Nat}

/-- A step of one node: a critical section, or one of the tickers
`applierTicker` and `leaderHearBeatTicker`. -/
inductive NodeStep (n : Nat)
  | critical (action : NodeAction n)
  | getApplyLogs
  | doHeartBeat

namespace Raft

/-- One step of a node, with the messages that `getApplyLogs` emits. -/
def operate (rf : Raft n) : NodeStep n → Option (Raft n × List ApplyMsg)
  | .critical action =>
      match rf.release action with
      | .error _ => none
      | .ok rf' => some (rf', [])
  | .getApplyLogs =>
      match rf.getApplyLogs with
      | .error _ => none
      | .ok result => some result
  | .doHeartBeat =>
      match rf.doHeartBeat with
      | (_, some _) => none
      | (_, none) => some (rf, [])

/-- The entries of an incoming `AppendEntries` request are numbered as
`doHeartBeat` numbers them. -/
def NumberedRequest (_ : Raft n) : NodeStep n → Prop
  | .critical (.appendEntries1 args) => args.Numbered
  | _ => True

instance (rf : Raft n) : (step : NodeStep n) → Decidable (rf.NumberedRequest step)
  | .critical (.appendEntries1 _) => decidableNumberedFrom _ _
  | .critical (.requestVote _) => isTrue trivial
  | .critical (.installSnapshot _) => isTrue trivial
  | .critical (.sendRequestVote _ _) => isTrue trivial
  | .critical (.sendAppendEntries _ _ _ _) => isTrue trivial
  | .critical .snapshotArgs => isTrue trivial
  | .critical (.leaderSendSnapShot _ _ _) => isTrue trivial
  | .critical .doElection => isTrue trivial
  | .critical (.startConses _) => isTrue trivial
  | .critical (.snapshot _ _) => isTrue trivial
  | .getApplyLogs => isTrue trivial
  | .doHeartBeat => isTrue trivial

/-! ## One step -/

theorem release_placed {rf rf' : Raft n} {action : NodeAction n} (placed : rf.Placed)
    (numbered : rf.NumberedRequest (.critical action)) (released : rf.release action = .ok rf') :
    rf'.Placed ∧ Advances rf rf' := by
  cases action with
  | appendEntries1 args =>
      obtain ⟨⟨_, _⟩, handled, rfl⟩ := map_eq_ok.mp released
      exact appendEntries1_placed placed numbered handled
  | requestVote args =>
      obtain ⟨⟨_, _⟩, handled, rfl⟩ := map_eq_ok.mp released
      have keeps := requestVote_keeps handled
      exact ⟨keeps.placed placed, keeps.advances⟩
  | installSnapshot args =>
      obtain ⟨⟨_, _, _⟩, handled, rfl⟩ := map_eq_ok.mp released
      exact installSnapshot_placed placed handled
  | sendRequestVote reply votedNum =>
      obtain ⟨_, processed, rfl⟩ := map_eq_ok.mp released
      have keeps := sendRequestVote_keeps processed
      exact ⟨keeps.placed placed, keeps.advances⟩
  | sendAppendEntries server args reply appendNums =>
      obtain ⟨⟨_, _⟩, processed, rfl⟩ := map_eq_ok.mp released
      exact sendAppendEntries_placed placed processed
  | snapshotArgs =>
      cases released
      have keeps := rf.snapshotArgs_keeps
      exact ⟨keeps.placed placed, keeps.advances⟩
  | leaderSendSnapShot server args reply =>
      cases released
      have keeps := rf.leaderSendSnapShot_keeps server args reply
      exact ⟨keeps.placed placed, keeps.advances⟩
  | doElection =>
      cases released
      have keeps := rf.doElection_keeps
      exact ⟨keeps.placed placed, keeps.advances⟩
  | startConses command =>
      cases released
      exact startConses_placed placed command
  | snapshot index data =>
      obtain ⟨placed', advances, _⟩ := snapshot_placed placed released
      exact ⟨placed', advances⟩

/-- What a step of a node can be. -/
theorem operate_cases {rf rf' : Raft n} {step : NodeStep n} {more : List ApplyMsg}
    (taken : rf.operate step = some (rf', more)) :
    (∃ action, step = .critical action ∧ rf.release action = .ok rf' ∧ more = []) ∨
      step = .getApplyLogs ∧ rf.getApplyLogs = .ok (rf', more) ∨
      step = .doHeartBeat ∧ rf' = rf ∧ more = [] := by
  cases step with
  | critical action =>
      simp only [operate] at taken
      cases released : rf.release action with
      | error fault => simp [released] at taken
      | ok result =>
          simp only [released, Option.some.injEq, Prod.mk.injEq] at taken
          obtain ⟨rfl, rfl⟩ := taken
          exact Or.inl ⟨action, rfl, released, rfl⟩
  | getApplyLogs =>
      simp only [operate] at taken
      cases collected : rf.getApplyLogs with
      | error fault => simp [collected] at taken
      | ok result =>
          simp only [collected, Option.some.injEq] at taken
          subst taken
          exact Or.inr (Or.inl ⟨rfl, rfl⟩)
  | doHeartBeat =>
      simp only [operate] at taken
      split at taken
      · cases taken
      · cases taken
        exact Or.inr (Or.inr ⟨rfl, rfl, rfl⟩)

theorem operate_placed {rf rf' : Raft n} {step : NodeStep n} {more : List ApplyMsg}
    (placed : rf.Placed) (numbered : rf.NumberedRequest step)
    (taken : rf.operate step = some (rf', more)) : rf'.Placed ∧ Advances rf rf' := by
  rcases operate_cases taken with ⟨action, rfl, released, _⟩ | ⟨_, collected⟩ | ⟨_, rfl, _⟩
  · exact release_placed placed numbered released
  · obtain ⟨placed', advances, _, _⟩ := getApplyLogs_placed placed collected
    exact ⟨placed', advances⟩
  · exact ⟨placed, Advances.refl rf'⟩

theorem placed_of_run {rf rf' : Raft n} {emitted : List ApplyMsg} (placed : rf.Placed)
    (run : Run operate NumberedRequest rf emitted rf') : rf'.Placed ∧ Advances rf rf' := by
  induction run with
  | nil => exact ⟨placed, Advances.refl rf⟩
  | snoc _ numbered taken ih =>
      obtain ⟨placed', advances⟩ := ih
      obtain ⟨next, later⟩ := operate_placed placed' numbered taken
      exact ⟨next, advances.trans later⟩

/-- A critical section passes over an index only by a snapshot that covers it. -/
theorem release_applied {rf rf' : Raft n} {action : NodeAction n}
    (released : rf.release action = .ok rf') :
    rf'.lastApplied ≤ max rf.lastApplied rf'.lastSnapshotIncludeIndex := by
  by_cases installs : ∃ args, action = .installSnapshot args
  · obtain ⟨args, rfl⟩ := installs
    obtain ⟨⟨_, _, _⟩, handled, rfl⟩ := map_eq_ok.mp released
    rcases installSnapshot_cases handled with ⟨_, rfl, _⟩ | ⟨_, _, rfl, _⟩ | ⟨_, _, ⟨_, _, rfl⟩, _⟩
    · exact le_max_left _ _
    · rw [snapshotTerm_lastApplied]
      exact le_max_left _ _
    · change max (rf.snapshotTerm args.term).lastApplied _ ≤ _
      rw [snapshotTerm_lastApplied]
      exact le_rfl
  · by_cases compacts : ∃ index data, action = .snapshot index data
    · obtain ⟨index, data, rfl⟩ := compacts
      rcases snapshot_cases released with rfl | ⟨_, _, _, _, _, _, rfl⟩
      · exact le_max_left _ _
      · exact le_rfl
    · rw [release_lastApplied released (fun args same => installs ⟨args, same⟩)
        (fun index data same => compacts ⟨index, data, same⟩)]
      exact le_max_left _ _

/-- The invariant of a run: the entries are in their places, and the messages
emitted so far carry every index up to `m_lastApplied` once and in order,
except those that a snapshot covers. -/
structure Progress (emitted : List ApplyMsg) (rf : Raft n) : Prop where
  placed : rf.Placed
  increasing : emitted.Pairwise fun msg msg' => msg.commandIndex < msg'.commandIndex
  range : ∀ msg ∈ emitted, 1 ≤ msg.commandIndex ∧ msg.commandIndex ≤ rf.lastApplied
  complete : ∀ index, 1 ≤ index → index ≤ rf.lastApplied →
    index ≤ rf.lastSnapshotIncludeIndex ∨ ∃ msg ∈ emitted, msg.commandIndex = index

theorem progress_init (me : Fin n) : Progress [] (init me none) where
  placed := placed_init me
  increasing := List.Pairwise.nil
  range := by simp
  complete := by
    intro index first applied
    change index ≤ 0 at applied
    omega

/-- A step that emits nothing and passes over no index but those covered by a
snapshot. -/
theorem Progress.silent {emitted : List ApplyMsg} {rf rf' : Raft n}
    (inv : Progress emitted rf) (placed : rf'.Placed) (advances : Advances rf rf')
    (applied : rf'.lastApplied ≤ max rf.lastApplied rf'.lastSnapshotIncludeIndex) :
    Progress emitted rf' where
  placed := placed
  increasing := inv.increasing
  range := by
    intro msg member
    have range := inv.range msg member
    have later := advances.applied
    omega
  complete := by
    intro index first below
    by_cases before : index ≤ rf.lastApplied
    · rcases inv.complete index first before with covered | emitted
      · exact Or.inl (covered.trans advances.snapshot)
      · exact Or.inr emitted
    · apply Or.inl
      omega

/-- `getApplyLogs` emits the indexes after `m_lastApplied`. -/
theorem Progress.collect {emitted applyMsgs : List ApplyMsg} {rf rf' : Raft n}
    (inv : Progress emitted rf) (collected : rf.getApplyLogs = .ok (rf', applyMsgs)) :
    Progress (emitted ++ applyMsgs) rf' := by
  obtain ⟨placed, advances, _, _⟩ := getApplyLogs_placed inv.placed collected
  obtain ⟨moved, emits⟩ := getApplyLogs_emits collected
  have index : ∀ (k : Nat) (msg : ApplyMsg), applyMsgs[k]? = some msg →
      msg.commandIndex = rf.lastApplied + k + 1 := by
    intro k msg found
    obtain ⟨_, entry, _, rfl⟩ := emits k msg found
    rfl
  have above : ∀ msg ∈ applyMsgs,
      rf.lastApplied < msg.commandIndex ∧ msg.commandIndex ≤ rf'.lastApplied := by
    intro msg member
    obtain ⟨k, found⟩ := List.mem_iff_getElem?.mp member
    have here := index k msg found
    have inside := (List.getElem?_eq_some_iff.mp found).1
    omega
  have base := inv.placed.base
  have applied := inv.placed.applied
  have later := advances.snapshot
  exact
    { placed := placed
      increasing := by
        apply List.pairwise_append.mpr
        refine ⟨inv.increasing, ?_, ?_⟩
        · apply List.pairwise_iff_getElem.mpr
          intro k k' inside inside' below
          rw [index k _ (List.getElem?_eq_getElem inside),
            index k' _ (List.getElem?_eq_getElem inside')]
          omega
        · intro msg member msg' member'
          have before := inv.range msg member
          have after := above msg' member'
          omega
      range := by
        intro msg member
        rcases List.mem_append.mp member with before | added
        · have range := inv.range msg before
          omega
        · have range := above msg added
          omega
      complete := by
        intro k first below
        by_cases before : k ≤ rf.lastApplied
        · rcases inv.complete k first before with covered | ⟨msg, member, here⟩
          · exact Or.inl (covered.trans later)
          · exact Or.inr ⟨msg, List.mem_append_left _ member, here⟩
        · have inside : (k - rf.lastApplied - 1).toNat < applyMsgs.length := by omega
          have found := List.getElem?_eq_getElem inside
          have here := index _ _ found
          exact Or.inr ⟨_, List.mem_append_right _ (List.mem_of_getElem? found), by omega⟩ }

/-- Every step keeps the invariant. -/
theorem operate_progress {emitted more : List ApplyMsg} {rf rf' : Raft n} {step : NodeStep n}
    (inv : Progress emitted rf) (numbered : rf.NumberedRequest step)
    (taken : rf.operate step = some (rf', more)) : Progress (emitted ++ more) rf' := by
  obtain ⟨placed, advances⟩ := operate_placed inv.placed numbered taken
  rcases operate_cases taken with ⟨action, rfl, released, rfl⟩ | ⟨_, collected⟩ | ⟨_, rfl, rfl⟩
  · rw [List.append_nil]
    exact inv.silent placed advances (release_applied released)
  · exact inv.collect collected
  · rw [List.append_nil]
    exact inv

end Raft

end CppRaft.RaftCore
