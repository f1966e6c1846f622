import CppRaft.Kv.AtMostOnce
import CppRaft.Transition.Trace

/-!
# Fresh reads

A handler of a Get reads after its server has consumed the command of the Get,
whether it has popped the command or, after a time-out, found it marked.  The
command is committed after the call began, behind every write that had returned
by then.  Marks may move back meanwhile: all that the argument needs of them is
that a marked request was consumed.
-/

namespace CppRaft.Kv

open CppRaft.Session
open CppRaft.Store
open CppRaft.Transition

variable {κ : Type} {m : Nat} {archives : Archives} {s t : Service κ m}
  {events : List (ServiceEvent κ m)} {action : ServiceAction κ m}

/-! ## Marks of consumed requests -/

/-- Every marked request was consumed. -/
def MarksConsumed (log : List (Command κ)) (data : KvData) : Prop :=
  ∀ clientId last, data.marks clientId = some last → Occurs log clientId last

/-- The mark of a consumed request. -/
theorem MarksConsumed.update {log : List (Command κ)} {data data' : KvData} {op : Op}
    (consumed : MarksConsumed log data) (occurs : Occurs log op.clientId op.requestId)
    (marks : data'.marks = Function.update data.marks op.clientId (some op.requestId)) :
    MarksConsumed log data' := by
  intro clientId last mark
  rw [marks] at mark
  by_cases same : clientId = op.clientId
  · subst same
    rw [Function.update_self, Option.some.injEq] at mark
    exact mark ▸ occurs
  · rw [Function.update_of_ne same] at mark
    exact consumed clientId last mark

theorem tracks_marksConsumed : Tracks (MarksConsumed : List (Command κ) → KvData → Prop) where
  start := by
    intro clientId last mark
    cases mark
  marked := id
  consume := by
    intro log command data duplicate consumed _ _
    have kept : MarksConsumed (log ++ [command]) data := fun clientId last mark =>
      (consumed clientId last mark).mono (List.prefix_append _ _)
    split
    · exact kept
    · by_cases writes : command.op.Writes
      · have occurs : Occurs (log ++ [command]) command.op.clientId command.op.requestId :=
          occurs_concat.mpr (Or.inr ⟨rfl, rfl⟩)
        exact kept.update occurs (KvData.marks_executeCommand data writes)
      · rw [KvData.executeCommand_of_not_writes data writes]
        exact kept

/-- Any read of a consumed command will do, also one that moves a mark back. -/
theorem Tracked.readsTracked (inv : Tracked MarksConsumed archives s) :
    ReadsTracked MarksConsumed s action := by
  cases action with
  | executeGet h =>
      intro handler _ occurs
      exact MarksConsumed.update (inv.server handler.server).tracked occurs
        (KvData.marks_executeGetOpOnKVDB _ _)
  | _ => trivial

variable [DecidableEq κ] {clientId : κ → Bytes} {maxRaftState : Int}
  {guard : Service κ m → ServiceAction κ m → Prop}

/-- Every run of clerks with distinct ids. -/
theorem tracked_of_run (distinct : Function.Injective clientId)
    (run : ServiceRun archives clientId maxRaftState guard events s) :
    Tracked MarksConsumed archives s := by
  have guarded := ownId_of_run distinct run
  apply (tracked_start tracks_marksConsumed clientId maxRaftState).run tracks_marksConsumed
    (fun _ _ both => both.2) _ guarded
  exact fun _ _ inv _ => inv.readsTracked

/-! ## Answers of a Get -/

/-- The reply of a handler that has come to one. -/
def Stage.answer : Stage → Option Reply
  | .deleting _ reply | .replied reply => some reply
  | _ => none

/-- What `Clerk::Get` returns for a reply that it accepts. -/
def Reply.result (reply : Reply) : Bytes :=
  if reply.err = .errNoKey then [] else reply.value

/-- The value of a key in `m_kvDB` of a server, empty when the key is absent. -/
def Service.value (s : Service κ m) (i : Fin m) (key : Bytes) : Bytes :=
  ((s.servers i).kv.data.kvDB.lookup key).getD []

theorem Reply.result_ofValue (value : Option Bytes) :
    (Reply.ofValue value).result = value.getD [] := by
  cases value <;> rfl

/-- The handler has the reply, or may read it now. -/
def Service.Yields (s : Service κ m) (handler : Handler κ m) (reply : Reply) : Prop :=
  handler.stage.answer = some reply ∨
    handler.stage.Answers ∧ reply.result = s.value handler.server handler.command.op.key

omit [DecidableEq κ] in
/-- A handler of a Get comes to an accepted reply by reading only. -/
theorem HandlerSection.answer {h : Nat} {handler : Handler κ m}
    (ran : HandlerSection s h handler action t) :
    ∃ stage : Stage, t.handlers = s.handlers.set h { handler with stage := stage } ∧
      (handler.command.op.operation = .get → ∀ reply, stage.answer = some reply →
        reply.err ≠ .errWrongLeader → s.Yields handler reply) := by
  cases ran with
  | propose | createWaitCh | timeOut | getState =>
      refine ⟨_, rfl, fun _ reply answer _ => ?_⟩
      cases answer
  | refuse starting =>
      refine ⟨_, rfl, fun _ reply answer accepted => ?_⟩
      cases answer
      exact absurd rfl accepted
  | pop waiting queued =>
      refine ⟨_, rfl, fun get reply answer accepted => ?_⟩
      unfold Service.poppedStage at answer
      rw [if_pos get] at answer
      split at answer
      · cases answer
      · cases answer
        exact absurd rfl accepted
  | acknowledge timedOut writes => exact ⟨_, rfl, fun get => absurd get writes⟩
  | retry knows =>
      refine ⟨_, rfl, fun _ reply answer accepted => ?_⟩
      split at answer
      · cases answer
      · cases answer
        exact absurd rfl accepted
  | executeGet reading =>
      refine ⟨_, rfl, fun _ reply answer _ => Or.inr ?_⟩
      cases answer
      rw [reading]
      exact ⟨trivial, Reply.result_ofValue _⟩
  | deleteWaitCh deleting =>
      refine ⟨_, rfl, fun _ other answer _ => Or.inl ?_⟩
      rw [deleting]
      exact answer

/-- Every accepted reply of a Get comes from a handler that yields it. -/
theorem Service.step_answer (taken : s.step archives action = some (t, events))
    {handler : Handler κ m} (member : handler ∈ t.handlers)
    (get : handler.command.op.operation = .get) {reply : Reply}
    (answer : handler.stage.answer = some reply) (accepted : reply.err ≠ .errWrongLeader) :
    ∃ before ∈ s.handlers, before.command = handler.command ∧ before.server = handler.server ∧
      s.Yields before reply := by
  have kept : handler ∈ s.handlers → ∃ before ∈ s.handlers, before.command = handler.command ∧
      before.server = handler.server ∧ s.Yields before reply :=
    fun old => ⟨handler, old, rfl, rfl, Or.inl answer⟩
  cases step_section taken with
  | request | takeReply | commit => exact kept member
  | call sent =>
      rcases List.mem_append.mp member with old | new
      · exact kept old
      · rw [List.mem_singleton.mp new] at answer
        cases answer
  | @handler _ h before _ found ran =>
      obtain ⟨stage, handlers, yields⟩ := ran.answer
      rw [handlers] at member
      rcases List.mem_or_eq_of_mem_set member with old | rfl
      · exact kept old
      · exact ⟨before, List.mem_of_getElem? found, rfl, rfl, yields get reply answer accepted⟩
  | server ran =>
      rw [ran.handlers.2] at member
      exact kept member

/-! ## The moment of the read -/

/-- Every command whose call has returned is committed. -/
theorem committed_of_returned (distinct : Function.Injective clientId)
    (run : ServiceRun archives clientId maxRaftState guard events s) {command : Command κ}
    (returned : .returned command ∈ events) : command ∈ s.log := by
  induction run with
  | nil => cases returned
  | snoc before _ taken ih =>
      have effect := Service.step_effect taken
      rcases List.mem_append.mp returned with old | new
      · exact effect.log.subset (ih old)
      · cases effect.emits with
        | nothing => cases new
        | execution => cases List.mem_singleton.mp new
        | @answer h handler reply found replied accepted =>
            cases List.mem_singleton.mp new
            have answers : handler.stage.Answers := by
              rw [replied]
              exact accepted
            have consumed := (tracked_of_run distinct before).mem_of_answers found answers
            exact effect.log.subset (List.mem_of_mem_take consumed)

/-- The commands sent for a client carry numbers that its clerk has begun. -/
theorem requestId_le_of_run (distinct : Function.Injective clientId)
    (run : ServiceRun archives clientId maxRaftState guard events s) {command : Command κ}
    (sent : command ∈ s.commands) {c : κ}
    (client : command.op.clientId = (s.clerks c).clientId) :
    command.op.requestId ≤ (s.clerks c).requestId := by
  have issued := (tracked_of_run distinct run).issued command sent
  have same : command.clerk = c := by
    apply distinct
    have ids := issued.client.symm.trans client
    rwa [clientId_of_run run, clientId_of_run run] at ids
  exact same ▸ issued.begun

/-- An accepted reply for a Get that was sent since `s` was read at a moment
since `s`, when the server had consumed the whole log of `s`. -/
theorem read_of_trace (distinct : Function.Injective clientId) {before : List (ServiceEvent κ m)}
    (run : ServiceRun archives clientId maxRaftState guard before s) {command : Command κ}
    (get : command.op.operation = .get)
    (absent : ¬ Occurs s.log command.op.clientId command.op.requestId)
    (unsent : command ∉ s.commands) {moments : List (Service κ m)}
    (trace : Trace (Service.step archives) guard s events moments t) {handler : Handler κ m}
    (member : handler ∈ t.handlers) (own : handler.command = command) {reply : Reply}
    (answer : handler.stage.answer = some reply) (accepted : reply.err ≠ .errWrongLeader) :
    ∃ moment ∈ moments, reply.result = moment.value handler.server command.op.key ∧
      s.log <+: moment.log.take (moment.servers handler.server).position := by
  induction trace generalizing handler with
  | nil => exact absurd (own ▸ List.mem_map_of_mem member) unsent
  | @snoc _ moments state action target _ earlier _ taken ih =>
      subst own
      obtain ⟨old, oldMember, sameCommand, sameServer, yields⟩ :=
        Service.step_answer taken member get answer accepted
      rw [← sameServer]
      rcases yields with had | ⟨reads, result⟩
      · obtain ⟨moment, passed, read⟩ := ih oldMember sameCommand had
        exact ⟨moment, List.mem_append_left _ passed, read⟩
      · have inv := tracked_of_run distinct (run.append earlier.run)
        have occurs := inv.consumed old oldMember reads
        rw [sameCommand] at occurs result
        exact ⟨state, List.mem_append_left _ earlier.state_mem, result,
          occurs.prefix_of_absent (List.take_prefix _ _) (log_of_run earlier.run) absent⟩

/-- The result of a read on server `i` is the value there at one of the moments,
when the server had consumed every write whose call had returned. -/
def ReadsFresh (before : List (ServiceEvent κ m)) (moments : List (Service κ m)) (i : Fin m)
    (key result : Bytes) : Prop :=
  ∃ moment ∈ moments, result = moment.value i key ∧
    ∀ write, .returned write ∈ before → write.op.Writes →
      write ∈ moment.log.take (moment.servers i).position

/-- Every call of `Clerk::Get` that returns, with the moments from its begin to
its return, after any run.  Servers may also install snapshots. -/
theorem fresh_reads {κ : Type} [DecidableEq κ] {m : Nat} {archives : Archives}
    {clientId : κ → Bytes} {maxRaftState : Int} (distinct : Function.Injective clientId)
    {before begun during returned : List (ServiceEvent κ m)} {s s' t t' : Service κ m}
    (run : ServiceRun archives clientId maxRaftState anyStep before s)
    {c : κ} {key value : Bytes}
    (begins : s.step archives (.request c .get key value) = some (s', begun))
    {moments : List (Service κ m)}
    (trace : Trace (Service.step archives) anyStep s' during moments t)
    {h : Nat} {handler : Handler κ m} {reply : Reply} (found : t.handlers[h]? = some handler)
    (own : handler.command = { clerk := c, op := (s.clerks c).nextOp .get key value })
    (replied : handler.stage = .replied reply)
    (returns : t.step archives (.takeReply h) = some (t', returned)) :
    ReadsFresh before moments handler.server key reply.result := by
  have client : handler.command.op.clientId = (s.clerks c).clientId := by
    rw [own]
    rfl
  have number : handler.command.op.requestId = (s.clerks c).requestId + 1 := by
    rw [own]
    rfl
  have fresh : ∀ command ∈ s.commands,
      ¬ (command.op.clientId = handler.command.op.clientId ∧
        command.op.requestId = handler.command.op.requestId) := by
    rintro command sent ⟨sameClient, sameNumber⟩
    have begun := requestId_le_of_run distinct run sent (sameClient.trans client)
    omega
  have absent : ¬ Occurs s.log handler.command.op.clientId handler.command.op.requestId := by
    rintro ⟨command, committed, same⟩
    exact fresh command ((tracked_of_run distinct run).committed command committed) same
  have accepted : reply.err ≠ .errWrongLeader := by
    simp only [Service.step, found, replied] at returns
    split at returns
    · rename_i accepted
      exact accepted.1
    · cases returns
  have start := run.snoc trivial begins
  simp only [Service.step] at begins
  split at begins
  · cases begins
    obtain ⟨moment, passed, result, consumed⟩ := read_of_trace distinct start (by rw [own]; rfl)
      absent (fun sent => fresh _ sent ⟨rfl, rfl⟩) trace (List.mem_of_getElem? found) rfl
      (by rw [replied]; rfl) accepted
    refine ⟨moment, passed, ?_, fun write answered _ => ?_⟩
    · rw [result, own]
      rfl
    · exact consumed.subset (committed_of_returned distinct run answered)
  · cases begins

/-- A Get of `c` is sent to a leader that commits nothing, then to `leader`,
whose handler reads but does not answer in time.  The handler of the third call
finds the Get marked after a time-out. -/
def retriedGet (c : κ) (stale leader : Fin m) : List (ServiceAction κ m) :=
  List.flatten
    [[.call c stale, .startConses 1 (some 1), .createWaitCh 1, .call c leader,
        .startConses 2 (some 2), .createWaitCh 2, .commit 2],
      consume leader,
      [.timeOutPop 1 true, .getState 1 true, .ifRequestDuplicate 1, .timeOutPop 2 false,
        .executeGet 2, .call c leader, .startConses 3 (some 3), .createWaitCh 3,
        .timeOutPop 3 true, .getState 3 true, .ifRequestDuplicate 3, .executeGet 3,
        .deleteWaitCh 3]]

/-- A Get after a Put of another clerk that has returned. -/
theorem fresh_reads_timedOut :
    ∃ (before begun during : List (ServiceEvent Bool 2)) (s s' t : Service Bool 2)
      (moments : List (Service Bool 2)) (write : Command Bool),
      ServiceRun noArchives (fun clerk => text (toString clerk)) (-1) anyStep before s ∧
      s.step noArchives (.request true .get (text "k") []) = some (s', begun) ∧
      Trace (Service.step noArchives) anyStep s' during moments t ∧
      (.returned write ∈ before ∧ write.op.Writes) ∧
      ReadsFresh before moments 0 (text "k") (text "v") := by
  obtain ⟨before, s, run, checked⟩ := exists_run_of_exec (Service.step noArchives) anyStep
    (Service.start (fun clerk => text (toString clerk)) (-1) : Service Bool 2)
    (List.flatten
      [[.request false .put (text "k") (text "v"), .call false 0, .startConses 0 (some 1),
          .createWaitCh 0, .commit 0],
        consume 0, [.timeOutPop 0 false, .deleteWaitCh 0, .takeReply 0]])
    (fun result : Service Bool 2 × List (ServiceEvent Bool 2) =>
      result.2.any (fun event : ServiceEvent Bool 2 =>
        match event with
        | .returned write => decide write.op.Writes
        | .executed _ _ => false) &&
      (result.1.step noArchives (.request true .get (text "k") [])).any
        fun begun : Service Bool 2 × List (ServiceEvent Bool 2) =>
          (exec (Service.step noArchives) anyStep begun.1 (retriedGet true 1 0)).any
            fun later : Service Bool 2 × List (ServiceEvent Bool 2) =>
              later.1.handlers[3]?.any (fun handler : Handler Bool 2 => decide (
                handler.command =
                  { clerk := true, op := (result.1.clerks true).nextOp .get (text "k") [] } ∧
                handler.server = 0 ∧
                handler.stage = .replied { err := .ok, value := text "v" })) &&
              (later.1.step noArchives (.takeReply 3)).isSome)
    (by decide +kernel)
  simp only [Bool.and_eq_true, List.any_eq_true, Option.any_eq_true, Option.isSome_iff_exists,
    decide_eq_true_eq] at checked
  obtain ⟨⟨event, answered, writes⟩, ⟨s', begun⟩, begins, ⟨t, during⟩, executed,
    ⟨handler, found, own, server, replied⟩, ⟨⟨t', returned⟩, returns⟩⟩ := checked
  obtain ⟨moments, trace⟩ := (run_of_exec Run.nil executed).exists_trace
  have distinct : Function.Injective fun clerk : Bool => text (toString clerk) :=
    Bool.injective_iff.mpr (by decide)
  have read := fresh_reads distinct run begins trace found own replied returns
  rw [server] at read
  cases event with
  | executed i command => cases writes
  | returned write =>
      exact ⟨before, begun, _, s, s', t, moments, write, run, begins, trace,
        ⟨answered, of_decide_eq_true writes⟩, read⟩

end CppRaft.Kv
