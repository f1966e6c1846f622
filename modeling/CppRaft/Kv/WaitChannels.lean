import CppRaft.Kv.Ownership

/-!
# Wait channels

A handler makes its `LockQueue`, waits on it and deletes it, nobody else does,
and only the command that is applied at its index is pushed to it.
-/

namespace CppRaft.Kv

open CppRaft.RaftCore
open CppRaft.Store
open CppRaft.Transition

variable {n : Nat}

/-- The queue that is made. -/
def HostEvent.creates : HostEvent → Option Nat
  | .created _ queue => some queue
  | _ => none

/-- The queue that is deleted. -/
def HostEvent.deletes : HostEvent → Option Nat
  | .deleted _ queue => some queue
  | _ => none

namespace Host

variable {archives : Archives} {s s' : Host n} {events emitted : List HostEvent}

/-! ## What the events record -/

/-- No two events have the same value of `f`. -/
def Once {β : Type} (f : HostEvent → Option β) (events : List HostEvent) : Prop :=
  events.Pairwise fun event event' => ∀ b, f event = some b → f event' ≠ some b

theorem Once.append {β : Type} {f : HostEvent → Option β} (once : Once f events)
    (single : ∀ b ∈ emitted.filterMap f, ∀ event ∈ events, f event ≠ some b)
    (more : Once f emitted) : Once f (events ++ emitted) := by
  apply List.pairwise_append.mpr
  refine ⟨once, more, ?_⟩
  intro event before event' after b here there
  exact single b (List.mem_filterMap.mpr ⟨event', after, there⟩) event before here

theorem once_of_quiet {β : Type} {f : HostEvent → Option β}
    (quiet : ∀ event ∈ emitted, f event = none) : Once f emitted := by
  apply List.Pairwise.imp_of_mem (R := fun _ _ => True)
  · intro event event' here _ _ b value
    rw [quiet event here] at value
    cases value
  · exact List.pairwise_of_forall fun _ _ => trivial

theorem Once.quiet {β : Type} {f : HostEvent → Option β} (once : Once f events)
    (quiet : ∀ event ∈ emitted, f event = none) : Once f (events ++ emitted) := by
  apply once.append
  · intro b member
    rw [List.filterMap_eq_nil_iff.mpr quiet] at member
    cases member
  · exact once_of_quiet quiet

/-- The queues that were made are those of the handlers, and the deleted ones
those of handlers that have returned. -/
structure Recorded (events : List HostEvent) (s : Host n) : Prop where
  created : ∀ {h ch}, .created h ch ∈ events ↔ (s.stage h).ch = some ch
  deleted : ∀ {h ch}, .deleted h ch ∈ events ↔
    (s.stage h).ch = some ch ∧ (s.stage h).serves = false
  waited : ∀ {h ch}, .waited h ch ∈ events → (s.stage h).ch = some ch
  createdOnce : Once HostEvent.creates events
  deletedOnce : Once HostEvent.deletes events

theorem recorded_start (me : Fin n) (maxRaftState : Int) :
    Recorded [] (start me maxRaftState) where
  created := by simp [start, stage, HandlerStage.ch]
  deleted := by simp [start, stage, HandlerStage.ch]
  waited := by simp
  createdOnce := List.Pairwise.nil
  deletedOnce := List.Pairwise.nil

/-- A step that neither makes nor deletes a queue. -/
theorem Recorded.keep (recorded : Recorded events s)
    (same : ∀ h, (s'.stage h).ch = (s.stage h).ch ∧ (s'.stage h).serves = (s.stage h).serves)
    (creates : ∀ event ∈ emitted, event.creates = none)
    (deletes : ∀ event ∈ emitted, event.deletes = none)
    (waits : ∀ h ch, .waited h ch ∈ emitted → (s.stage h).ch = some ch) :
    Recorded (events ++ emitted) s' where
  created := by
    intro h ch
    rw [(same h).1, ← recorded.created, List.mem_append, or_iff_left]
    intro made
    cases creates _ made
  deleted := by
    intro h ch
    rw [(same h).1, (same h).2, ← recorded.deleted, List.mem_append, or_iff_left]
    intro gone
    cases deletes _ gone
  waited := by
    intro h ch waited
    rw [(same h).1]
    rcases List.mem_append.mp waited with before | now
    · exact recorded.waited before
    · exact waits h ch now
  createdOnce := recorded.createdOnce.quiet creates
  deletedOnce := recorded.deletedOnce.quiet deletes

/-- A handler makes a queue. -/
theorem Recorded.create (recorded : Recorded events s) (owned : s.Owned) {h : Nat}
    {raftIndex : Int} (creating : s.stage h = .creating raftIndex)
    (stages : s'.stage = Function.update s.stage h
      (.serving raftIndex s.kv.lockQueues.length .waiting)) :
    Recorded (events ++ [.created h s.kv.lockQueues.length]) s' := by
  have here := stage_self stages
  have none : ∀ ch, (s.stage h).ch ≠ some ch := by
    rw [creating]
    simp [HandlerStage.ch]
  exact
    { created := by
        intro h' ch
        rw [List.mem_append, List.mem_singleton, recorded.created]
        by_cases same : h' = h
        · subst same
          rw [here, creating]
          simp [HandlerStage.ch, eq_comm]
        · rw [stage_other stages same]
          simp [same]
      deleted := by
        intro h' ch
        rw [List.mem_append, List.mem_singleton, recorded.deleted]
        by_cases same : h' = h
        · subst same
          rw [here]
          simp [none, HandlerStage.serves]
        · rw [stage_other stages same]
          simp
      waited := by
        intro h' ch waited
        have before : .waited h' ch ∈ events := by simpa using waited
        have has := recorded.waited before
        have other : h' ≠ h := by
          rintro rfl
          exact none ch has
        rwa [stage_other stages other]
      createdOnce := by
        apply recorded.createdOnce.append
        · intro ch new event before made
          cases event with
          | created h' ch' =>
              have inside := owned.inside (recorded.created.mp before)
              have sameMade : ch' = ch := Option.some.inj made
              have sameNew : ch = s.kv.lockQueues.length := by simpa [HostEvent.creates] using new
              omega
          | _ => cases made
        · exact List.pairwise_singleton _ _
      deletedOnce := recorded.deletedOnce.quiet (by simp [HostEvent.deletes]) }

/-- A handler deletes its queue. -/
theorem Recorded.delete (recorded : Recorded events s) (owned : s.Owned) {h ch : Nat}
    {raftIndex : Int} {reply : Reply}
    (serving : s.stage h = .serving raftIndex ch (.deleting reply))
    (stages : s'.stage = Function.update s.stage h (.returned raftIndex ch reply)) :
    Recorded (events ++ [.deleted h ch]) s' := by
  have here := stage_self stages
  have sameCh : ∀ h', (s'.stage h').ch = (s.stage h').ch := by
    intro h'
    by_cases same : h' = h
    · rw [same, here, serving]
      rfl
    · rw [stage_other stages same]
  have mine : (s.stage h).ch = some ch := by
    rw [serving]
    rfl
  exact
    { created := by
        intro h' ch'
        rw [List.mem_append, List.mem_singleton, recorded.created, sameCh]
        simp
      deleted := by
        intro h' ch'
        rw [List.mem_append, List.mem_singleton, recorded.deleted, sameCh]
        by_cases same : h' = h
        · subst same
          rw [here, mine, serving]
          simp [HandlerStage.serves, eq_comm]
        · rw [stage_other stages same]
          simp [same]
      waited := by
        intro h' ch' waited
        have before : .waited h' ch' ∈ events := by simpa using waited
        rw [sameCh]
        exact recorded.waited before
      createdOnce := recorded.createdOnce.quiet (by simp [HostEvent.creates])
      deletedOnce := by
        apply recorded.deletedOnce.append
        · intro ch' new event before gone
          cases event with
          | deleted h' ch'' =>
              obtain ⟨has, finished⟩ := recorded.deleted.mp before
              have sameGone : ch'' = ch' := Option.some.inj gone
              have sameNew : ch' = ch := by simpa [HostEvent.deletes] using new
              have me := owned.own has (show (s.stage h).ch = some ch'' by
                rw [mine, sameGone, sameNew])
              rw [me, serving] at finished
              cases finished
          | _ => cases gone
        · exact List.pairwise_singleton _ _ }

theorem Recorded.step (recorded : Recorded events s) (owned : s.Owned)
    (effect : Effect s s' emitted) : Recorded (events ++ emitted) s' := by
  -- A stage that changes without touching the queue of its handler.
  have update : ∀ {h : Nat} {st : HandlerStage},
      s'.stage = Function.update s.stage h st → st.ch = (s.stage h).ch →
      st.serves = (s.stage h).serves →
      ∀ h', (s'.stage h').ch = (s.stage h').ch ∧ (s'.stage h').serves = (s.stage h').serves := by
    intro h st stages ch serves h'
    by_cases same : h' = h
    · rw [same, stage_self stages]
      exact ⟨ch, serves⟩
    · rw [stage_other stages same]
      exact ⟨rfl, rfl⟩
  cases effect with
  | still stages same applied _ =>
      apply recorded.keep (by simp [stages])
      · intro event member
        obtain ⟨_, _, rfl⟩ := applied event member
        rfl
      · intro event member
        obtain ⟨_, _, rfl⟩ := applied event member
        rfl
      · intro h ch member
        obtain ⟨_, _, same⟩ := applied _ member
        cases same
  | sent _ _ stages kv =>
      exact recorded.keep (by simp [stages]) (by simp) (by simp) (by simp)
  | refused starting stages same _ =>
      apply recorded.keep (update stages _ _) (by simp) (by simp) (by simp)
      · rw [starting]
        rfl
      · rw [starting]
        rfl
  | accepted starting stages same _ _ _ =>
      apply recorded.keep (update stages _ _) (by simp) (by simp) (by simp)
      · rw [starting]
        rfl
      · rw [starting]
        rfl
  | created creating stages kv _ =>
      have unmade := owned.unmade creating
      rw [createWaitCh_unmade unmade] at stages ⊢
      rw [unmade]
      exact recorded.create owned creating stages
  | moved serving stages same _ waits =>
      apply recorded.keep (update stages _ _)
      · intro event member
        rw [waits event member]
        rfl
      · intro event member
        rw [waits event member]
        rfl
      · intro h ch member
        cases waits _ member
        rw [serving]
        rfl
      · rw [serving]
        rfl
      · rw [serving]
        rfl
  | @popped h ch _ _ _ _ serving _ stages _ _ _ =>
      apply recorded.keep (update stages _ _) (by simp [HostEvent.creates])
        (by simp [HostEvent.deletes])
      · intro h' ch' member
        obtain ⟨rfl, rfl⟩ : h' = h ∧ ch' = ch := by simpa using member
        rw [serving]
        rfl
      · rw [serving]
        rfl
      · rw [serving]
        rfl
  | @deleted h ch raftIndex reply serving stages _ _ =>
      have mapped : s.kv.waitApplyCh.lookup raftIndex = some ch :=
        owned.mapped.mpr ⟨h, by rw [serving]; exact ⟨rfl, rfl, rfl⟩⟩
      rw [mapped]
      exact recorded.delete owned serving stages

/-! ## What the queues carry -/

/-- The queue of a handler holds only commands applied at its index, and the
loop is executing an applied command. -/
structure Delivered (events : List HostEvent) (s : Host n) : Prop where
  queued : ∀ {h ch raftIndex ops}, (s.stage h).raftIndex = some raftIndex →
    (s.stage h).ch = some ch → s.kv.lockQueues[ch]? = some ops →
    ∀ op ∈ ops, .applied raftIndex op ∈ events
  running : ∀ {raftIndex op}, s.turn.command = some (raftIndex, op) →
    .applied raftIndex op ∈ events
  popped : ∀ {h op}, .popped h op ∈ events →
    ∃ raftIndex, (s.stage h).raftIndex = some raftIndex ∧ .applied raftIndex op ∈ events
  consumed : (events.filterMap HostEvent.appliedIndex).Sublist s.consumed

theorem delivered_start (me : Fin n) (maxRaftState : Int) :
    Delivered [] (start me maxRaftState) where
  queued := by simp [start, stage, HandlerStage.ch]
  running := by simp [start, Turn.command]
  popped := by simp
  consumed := List.nil_sublist _

/-- A step after which no queue holds a new command. -/
theorem Delivered.keep (delivered : Delivered events s) (flows : Flows s s' emitted)
    (raftIndex : ∀ {h given}, (s.stage h).raftIndex = some given →
      (s'.stage h).raftIndex = some given)
    (queued : ∀ {h ch given ops}, (s'.stage h).raftIndex = some given →
      (s'.stage h).ch = some ch → s'.kv.lockQueues[ch]? = some ops → ∀ op ∈ ops,
      .applied given op ∈ events)
    (running : ∀ {given op}, s'.turn.command = some (given, op) →
      s.turn.command = some (given, op) ∨ .applied given op ∈ emitted)
    (popped : ∀ {h op}, .popped h op ∈ emitted →
      ∃ given, (s'.stage h).raftIndex = some given ∧ .applied given op ∈ events) :
    Delivered (events ++ emitted) s' where
  queued := fun given has found op member =>
    List.mem_append_left _ (queued given has found op member)
  running := by
    intro given op runs
    rcases running runs with before | now
    · exact List.mem_append_left _ (delivered.running before)
    · exact List.mem_append_right _ now
  popped := by
    intro h op member
    rcases List.mem_append.mp member with before | now
    · obtain ⟨given, has, applied⟩ := delivered.popped before
      exact ⟨given, raftIndex has, List.mem_append_left _ applied⟩
    · obtain ⟨given, has, applied⟩ := popped now
      exact ⟨given, has, List.mem_append_left _ applied⟩
  consumed := by
    rw [List.filterMap_append]
    exact flows.consumed delivered.consumed

/-- The loop sends the command that it has executed. -/
theorem Delivered.send (delivered : Delivered events s) (owned : s.Owned)
    {raftIndex : Int} {op : Op} (running : s.turn.command = some (raftIndex, op))
    (stages : s'.stage = s.stage) (kv : s'.kv = s.kv.sendMessageToWaitChan op raftIndex)
    {h ch : Nat} {given : Int} {ops : List Op} (index : (s'.stage h).raftIndex = some given)
    (has : (s'.stage h).ch = some ch) (found : s'.kv.lockQueues[ch]? = some ops) :
    ∀ op ∈ ops, .applied given op ∈ events := by
  rw [stages] at index has
  unfold KvServer.sendMessageToWaitChan at kv
  split at kv
  · rw [kv] at found
    exact delivered.queued index has found
  · rename_i queue mapped
    rw [kv] at found
    change (s.kv.lockQueues.modify queue (· ++ [op]))[ch]? = some ops at found
    rw [List.getElem?_modify, Option.map_eq_map, Option.map_eq_some_iff] at found
    obtain ⟨old, before, changed⟩ := found
    split at changed
    · rename_i same
      subst same
      subst changed
      -- The queue in `waitApplyCh` is that of the handler with this index.
      obtain ⟨h', index', has', _⟩ := owned.mapped.mp mapped
      have me := owned.own has has'
      subst me
      rw [index, Option.some.injEq] at index'
      subst index'
      intro other member
      rcases List.mem_append.mp member with older | new
      · exact delivered.queued index has before other older
      · rw [List.mem_singleton.mp new]
        exact delivered.running running
    · subst changed
      exact delivered.queued index has before

/-- A critical section of one handler. -/
theorem Delivered.handler (delivered : Delivered events s) (flows : Flows s s' emitted)
    {h : Nat} {st : HandlerStage} (stages : s'.stage = Function.update s.stage h st)
    (turn : s'.turn = s.turn)
    (index : ∀ {given}, (s.stage h).raftIndex = some given → st.raftIndex = some given)
    (mine : ∀ {ch given ops}, st.raftIndex = some given → st.ch = some ch →
      s'.kv.lockQueues[ch]? = some ops → ∀ op ∈ ops, .applied given op ∈ events)
    (others : ∀ {h' ch ops}, h' ≠ h → (s.stage h').ch = some ch →
      s'.kv.lockQueues[ch]? = some ops → s.kv.lockQueues[ch]? = some ops)
    (popped : ∀ {h' op}, .popped h' op ∈ emitted →
      h' = h ∧ ∃ given, st.raftIndex = some given ∧ .applied given op ∈ events) :
    Delivered (events ++ emitted) s' := by
  have here := stage_self stages
  apply delivered.keep flows
  · intro h' given has
    by_cases same : h' = h
    · rw [same] at has
      rw [same, here]
      exact index has
    · rwa [stage_other stages same]
  · intro h' ch given ops has taken found
    by_cases same : h' = h
    · rw [same, here] at has taken
      exact mine has taken found
    · rw [stage_other stages same] at has taken
      exact delivered.queued has taken (others same taken found)
  · intro given op runs
    rw [turn] at runs
    exact Or.inl runs
  · intro h' op member
    obtain ⟨rfl, given, has, applied⟩ := popped member
    exact ⟨given, by rwa [here], applied⟩

theorem Delivered.step (delivered : Delivered events s) (owned : s.Owned)
    (effect : Effect s s' emitted) (flows : Flows s s' emitted) :
    Delivered (events ++ emitted) s' := by
  cases effect with
  | still stages same applied turn =>
      apply delivered.keep flows
      · intro h given has
        rwa [stages]
      · intro h ch given ops index has found
        rw [stages] at index has
        rw [same.lockQueues] at found
        exact delivered.queued index has found
      · exact fun runs => turn _ _ runs
      · intro h op member
        obtain ⟨_, _, same⟩ := applied _ member
        cases same
  | sent running turn stages kv =>
      apply delivered.keep flows
      · intro h given has
        rwa [stages]
      · exact fun index has found => delivered.send owned running stages kv index has found
      · intro given op runs
        rw [turn] at runs
        cases runs
      · simp
  | refused starting stages same turn =>
      apply delivered.handler flows stages turn
      · intro given has
        rw [starting] at has
        cases has
      · intro ch given ops has
        cases has
      · intro h' ch ops _ _ found
        rwa [← same.lockQueues]
      · simp
  | accepted starting stages same turn _ _ =>
      apply delivered.handler flows stages turn
      · intro given has
        rw [starting] at has
        cases has
      · intro ch given ops _ taken
        cases taken
      · intro h' ch ops _ _ found
        rwa [← same.lockQueues]
      · simp
  | created creating stages kv turn =>
      have unmade := owned.unmade creating
      rw [createWaitCh_unmade unmade] at stages kv flows ⊢
      rw [unmade] at flows ⊢
      have queues : s'.kv.lockQueues = s.kv.lockQueues ++ [[]] := by
        rw [kv]
      apply delivered.handler flows stages turn
      · intro given has
        rw [creating] at has
        exact has
      · intro ch given ops _ taken found op member
        cases taken
        rw [queues, List.getElem?_concat_length, Option.some.injEq] at found
        rw [← found] at member
        cases member
      · intro h' ch ops _ taken found
        rw [queues, List.getElem?_append_left (owned.inside taken)] at found
        exact found
      · simp
  | moved serving stages same turn waits =>
      apply delivered.handler flows stages turn
      · intro given has
        rw [serving] at has
        exact has
      · intro ch given ops has taken found
        rw [same.lockQueues] at found
        exact delivered.queued (by rw [serving]; exact has) (by rw [serving]; exact taken) found
      · intro h' ch ops _ _ found
        rwa [← same.lockQueues]
      · intro h' op member
        cases waits _ member
  | @popped h ch raftIndex phase op rest serving queued stages waitApplyCh lockQueues turn =>
      have mine : (s.stage h).ch = some ch := by
        rw [serving]
        rfl
      have applied := delivered.queued (h := h) (by rw [serving]; rfl) mine queued
      apply delivered.handler flows stages turn
      · intro given has
        rw [serving] at has
        exact has
      · intro ch' given ops has taken found other member
        cases has
        cases taken
        rw [lockQueues, List.getElem?_set_self (List.getElem?_eq_some_iff.mp queued).1,
          Option.some.injEq] at found
        rw [← found] at member
        exact applied other (List.mem_cons_of_mem op member)
      · intro h' ch' ops other taken found
        have apart : ch ≠ ch' := by
          rintro rfl
          exact other (owned.own taken mine)
        rwa [lockQueues, List.getElem?_set_ne apart] at found
      · intro h' op' member
        obtain ⟨rfl, rfl⟩ : h' = h ∧ op' = op := by simpa using member
        exact ⟨rfl, raftIndex, rfl, applied op' List.mem_cons_self⟩
  | deleted serving stages kv turn =>
      have queues : s'.kv.lockQueues = s.kv.lockQueues := by
        rw [kv]
        rfl
      apply delivered.handler flows stages turn
      · intro given has
        rw [serving] at has
        exact has
      · intro ch given ops has taken found
        rw [queues] at found
        exact delivered.queued (by rw [serving]; exact has) (by rw [serving]; exact taken) found
      · intro h' ch ops _ _ found
        rwa [← queues]
      · simp

/-! ## Runs -/

theorem fed_start (me : Fin n) (maxRaftState : Int) : (Pipeline.start me maxRaftState).Fed where
  progress := Raft.progress_init me
  threads := by simp [Pipeline.start]

theorem invariants_of_run {me : Fin n} {maxRaftState : Int}
    (run : HostRun archives me maxRaftState NumberedByPeers events s) :
    s.pipeline.Fed ∧ s.Owned ∧ Recorded events s ∧ Delivered events s := by
  induction run with
  | nil =>
      exact ⟨fed_start me maxRaftState, owned_start me maxRaftState,
        recorded_start me maxRaftState, delivered_start me maxRaftState⟩
  | snoc _ numbered taken ih =>
      obtain ⟨fed, owned, recorded, delivered⟩ := ih
      obtain ⟨effect, flows⟩ := step_effect fed numbered taken
      exact ⟨flows.fed, owned.step effect flows.last, recorded.step owned effect,
        delivered.step owned effect flows⟩

theorem serving_of_serves {st : HandlerStage} {raftIndex : Int} {ch : Nat}
    (index : st.raftIndex = some raftIndex) (has : st.ch = some ch) (serves : st.serves = true) :
    ∃ phase, st = .serving raftIndex ch phase := by
  cases st with
  | serving _ _ phase =>
      cases index
      cases has
      exact ⟨phase, rfl⟩
  | _ => cases serves

/-- Every index is applied at most once. -/
theorem Delivered.appliedOnce (delivered : Delivered events s) (fed : s.pipeline.Fed) :
    Once HostEvent.appliedIndex events := by
  have sub : s.consumed.Sublist (s.pipeline.commands.map ApplyMsg.commandIndex) := by
    apply List.Sublist.map
    apply List.Sublist.filter
    exact (List.take_sublist _ _).trans (List.sublist_append_left _ _)
  have increasing := (List.pairwise_map.mpr fed.progress.increasing).sublist
    (delivered.consumed.trans sub)
  apply (List.pairwise_filterMap.mp increasing).imp
  intro event event' below index here there
  exact lt_irrefl _ (below index here index there)

/-- No handler serves when all of them have returned. -/
theorem not_serves (returned : ∀ handler ∈ s.handlers, handler.stage.Returned) (h : Nat) :
    (s.stage h).serves = false := by
  cases found : s.handlers[h]? with
  | none => simp [stage, found, HandlerStage.serves]
  | some handler =>
      have finished := returned handler (List.mem_of_getElem? found)
      rw [stage_of_getElem? found]
      cases st : handler.stage with
      | serving raftIndex ch phase =>
          rw [st] at finished
          cases finished
      | _ => rfl

end Host

/-- The wait channels of a server and what has happened to their queues. -/
structure WaitChannels (events : List HostEvent) (s : Host n) : Prop where
  /-- A queue is made at most once, so by one handler, and deleted at most once. -/
  createdOnce : Host.Once HostEvent.creates events
  deletedOnce : Host.Once HostEvent.deletes events
  /-- A handler waits on a queue, and deletes one, only if it has made it. -/
  waited : ∀ h ch, .waited h ch ∈ events → .created h ch ∈ events
  deleted : ∀ h ch, .deleted h ch ∈ events → .created h ch ∈ events
  /-- Between the two the queue of a handler is in `waitApplyCh`, and nobody has
  deleted it. -/
  serving : ∀ h raftIndex ch phase, s.stage h = .serving raftIndex ch phase →
    .created h ch ∈ events ∧ (∀ h', .deleted h' ch ∉ events) ∧
      s.kv.waitApplyCh.lookup raftIndex = some ch
  mapped : ∀ raftIndex ch, s.kv.waitApplyCh.lookup raftIndex = some ch →
    ∃ h phase, s.stage h = .serving raftIndex ch phase
  /-- An index is applied at most once, and a handler pops only the command that
  was applied at its index. -/
  appliedOnce : Host.Once HostEvent.appliedIndex events
  popped : ∀ h op, .popped h op ∈ events →
    ∃ raftIndex, (s.stage h).raftIndex = some raftIndex ∧ .applied raftIndex op ∈ events
  /-- When all handlers have returned, no channel is left. -/
  emptied : (∀ handler ∈ s.handlers, handler.stage.Returned) →
    s.kv.waitApplyCh = ∅ ∧ ∀ h ch, .created h ch ∈ events → .deleted h ch ∈ events

/-- In every run of a fresh server whose peers number their entries, the wait
channels are owned by one handler each.  The indexes are unbounded; on values of
type `int` this is about the runs in which `getNewCommandIndex` stays in the
range, which an `InstallSnapshot` request up to `2147483647` can leave. -/
theorem wait_channels {n : Nat} {archives : Archives} {me : Fin n} {maxRaftState : Int}
    {events : List HostEvent} {s : Host n}
    (run : HostRun archives me maxRaftState NumberedByPeers events s) :
    WaitChannels events s := by
  obtain ⟨fed, owned, recorded, delivered⟩ := Host.invariants_of_run run
  exact
    { createdOnce := recorded.createdOnce
      deletedOnce := recorded.deletedOnce
      waited := fun h ch waited => recorded.created.mpr (recorded.waited waited)
      deleted := fun h ch gone => recorded.created.mpr (recorded.deleted.mp gone).1
      serving := by
        intro h raftIndex ch phase serving
        have has : (s.stage h).ch = some ch := by
          rw [serving]
          rfl
        refine ⟨recorded.created.mpr has, ?_, ?_⟩
        · intro h' gone
          obtain ⟨has', finished⟩ := recorded.deleted.mp gone
          rw [owned.own has' has, serving] at finished
          cases finished
        · exact owned.mapped.mpr ⟨h, by rw [serving]; exact ⟨rfl, rfl, rfl⟩⟩
      mapped := by
        intro raftIndex ch found
        obtain ⟨h, index, has, serves⟩ := owned.mapped.mp found
        exact ⟨h, Host.serving_of_serves index has serves⟩
      appliedOnce := delivered.appliedOnce fed
      popped := fun h op popped => delivered.popped popped
      emptied := by
        intro returned
        constructor
        · apply Finmap.ext_lookup
          intro raftIndex
          rw [Finmap.lookup_empty]
          by_contra filled
          obtain ⟨ch, found⟩ := Option.ne_none_iff_exists'.mp filled
          obtain ⟨h, _, _, serves⟩ := owned.mapped.mp found
          rw [Host.not_serves returned h] at serves
          cases serves
        · intro h ch made
          exact recorded.deleted.mpr ⟨recorded.created.mp made, Host.not_serves returned h⟩ }

/-- A Put of client `c`, and a text archive that reads it. -/
def onePut : Op where
  operation := .put
  key := [97]
  value := [98]
  clientId := [99]
  requestId := 1

/-- The archive of the Put is one byte. -/
def onePutArchives : Archives where
  readOp := fun data => if data = [1] then some onePut else none
  readKvData := fun _ => none

/-- A node that leads accepts the Put and commits it, and the handler gets it
over its channel and returns. -/
def servePut (peer : Fin n) : List (HostAction n) :=
  [.pipeline (.raft .doElection),
    .pipeline (.raft (.sendRequestVote
      { term := 1, voteGranted := true, voteState := Normal } peer)),
    .call onePut, .startConses 0 [1], .createWaitCh 0,
    .pipeline (.raft (.sendAppendEntries peer ⟨1, 0, 0, 0, [⟨[1], 1, 1⟩], 0⟩
      { term := 1, success := true, appState := AppNormal } 1)),
    .pipeline .getApplyLogs, .pipeline .applierPush, .pop, .checkDuplicate, .execute,
    .getRaftStateSize, .sendMessage, .timeOutPop 0 false, .deleteWaitCh 0]

theorem wait_channels_servePut :
    ∃ (events : List HostEvent) (s : Host 3),
      HostRun onePutArchives (0 : Fin 3) (-1) NumberedByPeers events s ∧
      events = [.created 0 0, .applied 1 onePut, .waited 0 0, .popped 0 onePut, .deleted 0 0] ∧
      s.stage 0 = .returned 1 0 { err := .ok } ∧ WaitChannels events s := by
  obtain ⟨events, s, run, checked⟩ := exists_run_of_exec (Host.step onePutArchives)
    NumberedByPeers (Host.start (0 : Fin 3) (-1)) (servePut 1)
    (fun result => decide (result.2 = [.created 0 0, .applied 1 onePut, .waited 0 0,
      .popped 0 onePut, .deleted 0 0] ∧
      result.1.stage 0 = .returned 1 0 { err := .ok }))
    (by decide +kernel)
  rw [decide_eq_true_eq] at checked
  exact ⟨events, s, run, checked.1, checked.2, wait_channels run⟩

end CppRaft.Kv
