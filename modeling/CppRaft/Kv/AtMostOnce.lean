import CppRaft.Kv.Consistent
import CppRaft.Kv.Effect

/-!
# At most one execution of every request

As long as nothing but the apply loop moves a mark back, every server executes
a Put or Append at most once and its marks never decrease.  A `Get` handler
that wakes up late moves a mark back, so that a retried Append is executed
again.
-/

namespace CppRaft.Kv

open CppRaft.Session
open CppRaft.Store
open CppRaft.Transition

variable {κ : Type} {m : Nat} {archives : Archives} {s t : Service κ m}
  {events emitted : List (ServiceEvent κ m)} {action : ServiceAction κ m}

/-! ## Executions -/

/-- A Put or Append of a client with a number is executed on server `i`. -/
def ServiceEvent.Executes (i : Fin m) (clientId : Bytes) (requestId : Int) :
    ServiceEvent κ m → Prop
  | .executed j command =>
      j = i ∧ command.op.clientId = clientId ∧ command.op.requestId = requestId
  | .returned _ => False

instance (i : Fin m) (clientId : Bytes) (requestId : Int) :
    DecidablePred (ServiceEvent.Executes i clientId requestId : ServiceEvent κ m → Prop)
  | .executed j command =>
      inferInstanceAs (Decidable
        (j = i ∧ command.op.clientId = clientId ∧ command.op.requestId = requestId))
  | .returned _ => inferInstanceAs (Decidable False)

/-- How often a request is executed on server `i`. -/
def executions (events : List (ServiceEvent κ m)) (i : Fin m) (clientId : Bytes)
    (requestId : Int) : Nat :=
  events.countP fun event => event.Executes i clientId requestId

theorem executions_append (events emitted : List (ServiceEvent κ m)) (i : Fin m)
    (clientId : Bytes) (requestId : Int) :
    executions (events ++ emitted) i clientId requestId =
      executions events i clientId requestId + executions emitted i clientId requestId :=
  List.countP_append

/-- The executed commands are consumed, each once. -/
structure Executed (events : List (ServiceEvent κ m)) (s : Service κ m) : Prop where
  consumed : ∀ i command, .executed i command ∈ events →
    command ∈ s.log.take (s.servers i).position
  once : ∀ i clientId requestId, executions events i clientId requestId ≤ 1

theorem executed_nil (s : Service κ m) : Executed [] s where
  consumed := by simp
  once := by simp [executions]

/-- A request that is not consumed is not executed. -/
theorem Executed.executions_eq_zero (executed : Executed events s) {i : Fin m} {clientId : Bytes}
    {requestId : Int}
    (fresh : ¬ Occurs (s.log.take (s.servers i).position) clientId requestId) :
    executions events i clientId requestId = 0 := by
  unfold executions
  rw [List.countP_eq_zero]
  intro event member executes
  cases event with
  | returned command => exact of_decide_eq_true executes
  | executed j command =>
      obtain ⟨rfl, client, number⟩ := of_decide_eq_true executes
      exact fresh ⟨command, executed.consumed j command member, client, number⟩

/-- The consumed prefix of a server grows. -/
theorem StepEffect.take_prefix (effect : StepEffect archives s action t emitted) (i : Fin m) :
    s.log.take (s.servers i).position <+: t.log.take (t.servers i).position :=
  (effect.log.take _).trans (List.take_prefix_take_left (effect.server i).position_le)

/-- A command is executed only if it has not occurred before. -/
theorem Consistent.not_occurs_of_execution (inv : Consistent archives s) {i : Fin m} {op : Op}
    {commandIndex : Int} {command : Command κ}
    (checked : (s.servers i).applyLoop = .checked op commandIndex false) (writes : op.Writes)
    (next : s.log[(s.servers i).position]? = some command) :
    ¬ Occurs (s.log.take (s.servers i).position) command.op.clientId command.op.requestId := by
  obtain ⟨_, rfl, recognized⟩ := inv.of_checked checked next
  intro occurs
  cases (recognized writes).mpr occurs

theorem Executed.step (executed : Executed events s) (inv : Consistent archives s)
    (effect : StepEffect archives s action t emitted) : Executed (events ++ emitted) t := by
  have before : ∀ i command, .executed i command ∈ events →
      command ∈ t.log.take (t.servers i).position :=
    fun i command member => (effect.take_prefix i).subset (executed.consumed i command member)
  cases effect.emits with
  | nothing =>
      rw [List.append_nil]
      exact { consumed := before, once := executed.once }
  | answer found replied accepted =>
      constructor
      · intro i command member
        exact before i command (by simpa using member)
      · intro i clientId requestId
        rw [executions_append]
        exact executed.once i clientId requestId
  | @execution j op commandIndex command checked writes next position =>
      constructor
      · intro i other member
        rcases List.mem_append.mp member with old | new
        · exact before i other old
        · cases List.mem_singleton.mp new
          rw [position]
          apply (effect.log.take _).subset
          rw [take_position_succ next]
          simp
      · intro i clientId requestId
        rw [executions_append]
        by_cases same : ServiceEvent.Executes i clientId requestId (.executed j command)
        · obtain ⟨rfl, rfl, rfl⟩ := same
          rw [executed.executions_eq_zero (inv.not_occurs_of_execution checked writes next),
            Nat.zero_add]
          exact List.countP_le_length
        · have none : executions [.executed j command] i clientId requestId = 0 :=
            List.countP_eq_zero.mpr (by simpa using same)
          rw [none]
          exact executed.once i clientId requestId

/-! ## Marks -/

/-- Neither a read nor a snapshot moves a mark back. -/
def MarksForward (archives : Archives) (s : Service κ m) : ServiceAction κ m → Prop
  | .getSnapShotFromRaft i snapshot =>
      ∀ index bytes, s.snapshots[snapshot]? = some (index, bytes) →
        ∀ data, archives.readKvData bytes = some data →
          ∀ clientId last, s.mark i clientId = some last →
            ∃ last', data.marks clientId = some last' ∧ last ≤ last'
  | action => ReadsForward s action

/-- A snapshot is installed. -/
def ServiceAction.installs : ServiceAction κ m → Bool
  | .getSnapShotFromRaft _ _ => true
  | _ => false

theorem marksForward_of_readsForward (forward : ReadsForward s action)
    (kept : ¬ action.installs) : MarksForward archives s action := by
  cases action with
  | getSnapShotFromRaft i snapshot => exact absurd rfl kept
  | _ => exact forward

theorem MarksForward.readsForward (forward : MarksForward archives s action) :
    ReadsForward s action := by
  cases action with
  | getSnapShotFromRaft i snapshot => trivial
  | _ => exact forward

/-- A step does not decrease a mark. -/
theorem Consistent.mark_le (inv : Consistent archives s) (forward : MarksForward archives s action)
    (effect : StepEffect archives s action t emitted) {i : Fin m} {clientId : Bytes} {last : Int}
    (mark : s.mark i clientId = some last) :
    ∃ last', t.mark i clientId = some last' ∧ last ≤ last' := by
  have updated : ∀ {op : Op}, (t.servers i).kv.data.marks =
        Function.update (s.servers i).kv.data.marks op.clientId (some op.requestId) →
      (op.clientId = clientId → last ≤ op.requestId) →
      ∃ last', t.mark i clientId = some last' ∧ last ≤ last' := by
    intro op marks ahead
    change ∃ last', (t.servers i).kv.data.marks clientId = some last' ∧ last ≤ last'
    rw [marks]
    by_cases same : clientId = op.clientId
    · subst same
      exact ⟨op.requestId, Function.update_self _ _ _, ahead rfl⟩
    · exact ⟨last, by rwa [Function.update_of_ne same], le_rfl⟩
  have kept : (t.servers i).kv.data = (s.servers i).kv.data →
      ∃ last', t.mark i clientId = some last' ∧ last ≤ last' := by
    intro same
    exact ⟨last, by rwa [Service.mark, same], le_rfl⟩
  cases effect.server i with
  | keeps _ data => exact kept data
  | skips _ data _ => exact kept data
  | @reads h handler found own _ data =>
      subst own
      have marks := congrArg KvData.marks data
      rw [KvData.marks_executeGetOpOnKVDB] at marks
      apply updated marks
      rintro rfl
      exact forward handler found last mark
  | @consumes op _ duplicate command checked next _ data _ =>
      obtain ⟨_, rfl, recognized⟩ := inv.of_checked checked next
      by_cases executes : duplicate = false ∧ command.op.Writes
      · obtain ⟨rfl, writes⟩ := executes
        have fresh := inv.not_occurs_of_execution checked writes next
        have marks := congrArg KvData.marks data
        rw [if_neg Bool.false_ne_true, KvData.marks_executeCommand _ writes] at marks
        apply updated marks
        rintro rfl
        have inOrder := inv.inOrder.take ((s.servers i).position + 1)
        rw [take_position_succ next] at inOrder
        exact ((inv.server i).replica.marked.last_lt inOrder fresh mark).le
      · apply kept
        rw [data]
        split
        · rfl
        · rename_i fresh
          apply KvData.executeCommand_of_not_writes
          intro writes
          exact executes ⟨by simpa using fresh, writes⟩
  | @installs snapshot index bytes made _ _ read =>
      obtain ⟨_, nonempty, _⟩ := inv.snapshot index bytes (List.mem_of_getElem? made)
      exact forward index bytes made _ (read nonempty) clientId last mark

/-! ## Runs -/

variable [DecidableEq κ] {guard : Service κ m → ServiceAction κ m → Prop}

theorem executed_of_run {clientId : κ → Bytes} {maxRaftState : Int}
    (ownId : ∀ s action, guard s action → OwnId s action)
    (forward : ∀ s action, guard s action → ReadsForward s action)
    (run : ServiceRun archives clientId maxRaftState guard events s) : Executed events s := by
  induction run with
  | nil => exact executed_nil _
  | snoc before _ taken ih =>
      have inv := (consistent_start clientId maxRaftState).run ownId forward before
      exact ih.step inv (Service.step_effect taken)

theorem mark_le_of_run (inv : Consistent archives s)
    (run : Run (Service.step archives)
      (fun s action => MarksForward archives s action ∧ OwnId s action) s events t)
    {i : Fin m} {clientId : Bytes} {last : Int} (mark : s.mark i clientId = some last) :
    ∃ last', t.mark i clientId = some last' ∧ last ≤ last' := by
  induction run with
  | nil => exact ⟨last, mark, le_rfl⟩
  | snoc before accepted taken ih =>
      obtain ⟨middle, marked, le⟩ := ih
      have inv' := inv.run (fun _ _ both => both.2) (fun _ _ both => both.1.readsForward) before
      obtain ⟨last', marked', le'⟩ :=
        inv'.mark_le accepted.1 (Service.step_effect taken) marked
      exact ⟨last', marked', le.trans le'⟩

/-- No request is executed twice on a server so far, and no mark decreases from
here. -/
def AtMostOnce (archives : Archives) (guard : Service κ m → ServiceAction κ m → Prop)
    (events : List (ServiceEvent κ m)) (s : Service κ m) : Prop :=
  (∀ i clientId requestId, executions events i clientId requestId ≤ 1) ∧
    ∀ later t, Run (Service.step archives) guard s later t →
      ∀ i clientId last, s.mark i clientId = some last →
        ∃ last', t.mark i clientId = some last' ∧ last ≤ last'

/-! ## A late read -/

/-- Archives that read nothing, for servers that make no snapshot. -/
def noArchives : Archives where
  readOp := fun _ => none
  readKvData := fun _ => none

/-- Server `i` consumes the next command. -/
def consume (i : Fin m) : List (ServiceAction κ m) :=
  [.pop i, .checkDuplicate i, .execute i, .sendMessage i]

/-- A Get is sent twice; its first handler pops the command but does not read
yet.  The clerk goes on with an Append, which is sent twice and committed
twice.  The late handler reads between the two on server 0. -/
def lateRead : List (ServiceAction Unit 2) :=
  List.flatten
    [[.request () .get (text "k") [], .call () 0, .startConses 0 (some 1), .createWaitCh 0,
        .commit 0],
      consume 0,
      [.timeOutPop 0 false, .call () 0, .startConses 1 (some 2), .createWaitCh 1, .commit 1],
      consume 0,
      [.timeOutPop 1 false, .executeGet 1, .deleteWaitCh 1, .takeReply 1,
        .request () .append (text "k") (text "v"), .call () 0, .startConses 2 (some 3),
        .call () 0, .startConses 3 (some 4), .commit 2, .commit 3],
      consume 0, [.executeGet 0], consume 0, consume 1, consume 1, consume 1, consume 1]

/-- Every run in which marks only move forward. -/
theorem at_most_once {κ : Type} [DecidableEq κ] {m : Nat} {archives : Archives}
    {clientId : κ → Bytes} {maxRaftState : Int} (distinct : Function.Injective clientId)
    {events : List (ServiceEvent κ m)} {s : Service κ m}
    (run : ServiceRun archives clientId maxRaftState (MarksForward archives) events s) :
    AtMostOnce archives (MarksForward archives) events s := by
  have guarded := ownId_of_run distinct run
  have inv := (consistent_start clientId maxRaftState).run (fun _ _ both => both.2)
    (fun _ _ both => both.1.readsForward) guarded
  constructor
  · exact (executed_of_run (fun _ _ both => both.2)
      (fun _ _ both => both.1.readsForward) guarded).once
  · intro later t further i client last mark
    have sameIds : Function.Injective fun c => (s.clerks c).clientId := by
      simpa only [clientId_of_run run, Service.start] using distinct
    exact mark_le_of_run inv (ownId_of_run sameIds further) mark

/-- A Put, a repeated Put and a read in time: the Put is executed once and the
mark is the number of the read. -/
theorem at_most_once_readInTime :
    ∃ (events : List (ServiceEvent Unit 2)) (s : Service Unit 2),
      ServiceRun noArchives (fun _ : Unit => text "c") (-1) (MarksForward noArchives) events s ∧
      executions events 0 (text "c") 1 = 1 ∧ s.mark 0 (text "c") = some 2 ∧
      AtMostOnce noArchives (MarksForward noArchives) events s := by
  obtain ⟨events, s, run, checked⟩ := exists_run_of_exec (Service.step noArchives)
    (fun s action => ReadsForward s action ∧ ¬ action.installs)
    (Service.start (fun _ : Unit => text "c") (-1) : Service Unit 2)
    (List.flatten
      [[.request () .put (text "k") (text "v"), .call () 0, .startConses 0 (some 1),
          .createWaitCh 0, .call () 0, .startConses 1 (some 2), .commit 0, .commit 1],
        consume 0, consume 0,
        [.timeOutPop 0 false, .deleteWaitCh 0, .takeReply 0, .request () .get (text "k") [],
          .call () 0, .startConses 2 (some 3), .createWaitCh 2, .commit 2],
        consume 0, [.timeOutPop 2 false, .executeGet 2, .deleteWaitCh 2, .takeReply 2]])
    (fun result => decide (executions result.2 0 (text "c") 1 = 1 ∧
      result.1.mark 0 (text "c") = some 2))
    (by decide +kernel)
  obtain ⟨once, mark⟩ := of_decide_eq_true checked
  have forward : ServiceRun noArchives (fun _ : Unit => text "c") (-1)
      (MarksForward noArchives) events s :=
    run.mono fun _ _ both => marksForward_of_readsForward both.1 both.2
  exact ⟨events, s, forward, once, mark, at_most_once (fun _ _ _ => rfl) forward⟩

/-- With a late read the Append is executed twice. -/
theorem not_at_most_once :
    ¬ ∀ (events : List (ServiceEvent Unit 2)) (s : Service Unit 2),
      ServiceRun noArchives (fun _ : Unit => text "c") (-1) anyStep events s →
      AtMostOnce noArchives anyStep events s := by
  obtain ⟨events, s, run, twice⟩ := exists_run_of_exec (Service.step noArchives) anyStep
    (Service.start (fun _ : Unit => text "c") (-1)) lateRead
    (fun result => decide (executions result.2 0 (text "c") 2 = 2)) (by decide +kernel)
  intro claim
  have once := (claim events s run).1 0 (text "c") 2
  rw [of_decide_eq_true twice] at once
  omega

end CppRaft.Kv
