import CppRaft.Kv.AtMostOnce
import Mathlib.Data.Fintype.Basic

/-!
# Acknowledged writes

A call returns only after a server has consumed its command, and a consumed Put
or Append is executed unless a request of the same client and number was.  With
one clerk process every acknowledged write is therefore executed exactly once.
All clerk processes compute the same client id, however, so that the writes of
a second one are acknowledged and skipped.
-/

namespace CppRaft.Kv

open CppRaft.Session
open CppRaft.Store
open CppRaft.Transition

variable {κ : Type} {m : Nat} {archives : Archives} {s t : Service κ m}
  {events emitted : List (ServiceEvent κ m)} {action : ServiceAction κ m}

/-! ## Client ids -/

/-- `Clerk::Uuid`, from the outputs of `rand`.  C++ leaves open in which order the
four calls are made; the first one stands in front here, as in the text of the
source, and `g++` makes the last one first.  Two processes that use the same
outputs get the same id in either order. -/
def uuid (rand : Nat → Int) : Bytes :=
  text (toString (rand 0)) ++ text (toString (rand 1)) ++ text (toString (rand 2)) ++
    text (toString (rand 3))

/-- What `rand` yields without a call of `srand`. -/
def defaultRand (k : Nat) : Int :=
  [1804289383, 846930886, 1681692777, 1714636915].getD k 0

/-! ## Calls of Put and Append -/

/-- Clerks call Put and Append only, the Raft layer accepts every command at the
next index and delivers every accepted command once and in order. -/
def Delivers (s : Service κ m) : ServiceAction κ m → Prop
  | .request _ operation _ _ => operation ≠ .get
  | .startConses _ raftIndex => ∀ index ∈ raftIndex, index = (s.proposals.length : Int) + 1
  | .commit proposal => proposal = s.log.length
  | .getSnapShotFromRaft _ _ => False
  | _ => True

instance (s : Service κ m) : ∀ action : ServiceAction κ m, Decidable (Delivers s action)
  | .request _ operation _ _ => inferInstanceAs (Decidable (operation ≠ .get))
  | .startConses _ raftIndex =>
      inferInstanceAs (Decidable (∀ index ∈ raftIndex, index = (s.proposals.length : Int) + 1))
  | .commit proposal => inferInstanceAs (Decidable (proposal = s.log.length))
  | .getSnapShotFromRaft _ _ => isFalse id
  | .call _ _ | .takeReply _ | .createWaitCh _ | .timeOutPop _ _ | .getState _ _
  | .ifRequestDuplicate _ | .executeGet _ | .deleteWaitCh _ | .pop _ | .checkDuplicate _
  | .execute _ | .makeSnapShot _ _ | .sendMessage _ => isTrue trivial

instance [DecidableEq κ] [Fintype κ] (s : Service κ m) (action : ServiceAction κ m) :
    Decidable (OwnId s action) :=
  inferInstanceAs (Decidable (∀ c ∈ action.requester, ∀ c',
    (s.clerks c').clientId = (s.clerks c).clientId → c' ≠ c → (s.clerks c').requestId = 0))

/-- The stages of a handler of `Get` on its way to the database. -/
def Stage.Reads : Stage → Prop
  | .knowsState _ _ => True
  | .reading _ => True
  | _ => False

/-- Only Puts and Appends are under way. -/
structure WritesOnly (s : Service κ m) : Prop where
  outstanding : ∀ c op, (s.clerks c).outstanding = some op → op.Writes
  handlers : ∀ handler ∈ s.handlers, handler.command.op.Writes ∧ ¬ handler.stage.Reads

theorem writesOnly_start (clientId : κ → Bytes) (maxRaftState : Int) :
    WritesOnly (Service.start clientId maxRaftState : Service κ m) where
  outstanding := by simp [Service.start]
  handlers := by simp [Service.start]

/-- A handler of a Put or Append does not come to read. -/
theorem HandlerSection.stage {h : Nat} {handler : Handler κ m}
    (ran : HandlerSection s h handler action t) (writes : handler.command.op.Writes)
    (reads : ¬ handler.stage.Reads) :
    t.clerks = s.clerks ∧ ∃ stage : Stage, ¬ stage.Reads ∧
      t.handlers = s.handlers.set h { handler with stage := stage } := by
  cases ran with
  | refuse | propose | createWaitCh | timeOut | acknowledge | deleteWaitCh =>
      exact ⟨rfl, _, id, rfl⟩
  | pop =>
      refine ⟨rfl, _, ?_, rfl⟩
      unfold Service.poppedStage
      rw [if_neg writes]
      split <;> exact id
  | getState timedOut get => exact absurd get writes
  | retry knows =>
      rw [knows] at reads
      exact absurd trivial reads
  | executeGet reading =>
      rw [reading] at reads
      exact absurd trivial reads

theorem WritesOnly.step [DecidableEq κ] (only : WritesOnly s) (delivers : Delivers s action)
    (taken : s.step archives action = some (t, emitted)) : WritesOnly t := by
  cases Service.step_section taken with
  | @request c operation key value idle =>
      refine { only with outstanding := ?_ }
      intro c' op sent
      by_cases same : c' = c
      · subst same
        simp only [Function.update_self, Clerk.begin, Option.some.injEq] at sent
        subst sent
        exact delivers
      · simp only [Function.update_of_ne same] at sent
        exact only.outstanding c' op sent
  | @call c i op sent =>
      refine { only with handlers := ?_ }
      intro handler member
      rcases List.mem_append.mp member with old | new
      · exact only.handlers handler old
      · rw [List.mem_singleton.mp new]
        exact ⟨only.outstanding c op sent, id⟩
  | @takeReply h handler reply found replied accepted sent =>
      refine { only with outstanding := ?_ }
      intro c op left
      by_cases same : c = handler.command.clerk
      · subst same
        simp at left
      · simp only [Function.update_of_ne same] at left
        exact only.outstanding c op left
  | commit proposed => exact { only with }
  | handler found ran =>
      obtain ⟨writes, reads⟩ := only.handlers _ (List.mem_of_getElem? found)
      obtain ⟨clerks, stage, reads', handlers⟩ := ran.stage writes reads
      constructor
      · rw [clerks]
        exact only.outstanding
      · rw [handlers]
        intro other member
        rcases List.mem_or_eq_of_mem_set member with old | rfl
        · exact only.handlers other old
        · exact ⟨writes, reads'⟩
  | server ran =>
      constructor
      · rw [ran.handlers.1]
        exact only.outstanding
      · rw [ran.handlers.2]
        exact only.handlers

/-- Handlers of Put and Append run no read. -/
theorem WritesOnly.readsForward [DecidableEq κ] (only : WritesOnly s)
    (taken : s.step archives action = some (t, emitted)) : ReadsForward s action := by
  cases Service.step_section taken with
  | handler found ran =>
      cases ran with
      | executeGet reading =>
          have reads := (only.handlers _ (List.mem_of_getElem? found)).2
          rw [reading] at reads
          exact absurd trivial reads
      | _ => trivial
  | server ran => cases ran <;> trivial
  | _ => trivial

/-! ## Acknowledgement -/

/-- Every call that has returned was for a command that a server has consumed,
and every consumed Put or Append is executed. -/
structure Acknowledged (events : List (ServiceEvent κ m)) (s : Service κ m) : Prop where
  returned : ∀ command, .returned command ∈ events →
    ∃ i, command ∈ s.log.take (s.servers i).position
  executed : ∀ i, ∀ command ∈ s.log.take (s.servers i).position, command.op.Writes →
    .executed i command ∈ events

theorem acknowledged_start (clientId : κ → Bytes) (maxRaftState : Int) :
    Acknowledged [] (Service.start clientId maxRaftState : Service κ m) where
  returned := by simp
  executed := by simp [Service.start]

/-- A command that is skipped as a duplicate was executed before. -/
theorem Acknowledged.executed_of_occurs (acknowledged : Acknowledged events s)
    (inv : Consistent archives s) {i : Fin m} {command : Command κ}
    (member : command ∈ s.log) (writes : command.op.Writes)
    (occurs : Occurs (s.log.take (s.servers i).position) command.op.clientId
      command.op.requestId) : .executed i command ∈ events := by
  obtain ⟨other, consumed, client, number⟩ := occurs
  have same := inv.unique other (inv.committed other (List.mem_of_mem_take consumed))
    command (inv.committed command member) client number
  subst same
  exact acknowledged.executed i other consumed writes

theorem Acknowledged.step (acknowledged : Acknowledged events s) (inv : Consistent archives s)
    (plain : ¬ action.installs) (effect : StepEffect archives s action t emitted) :
    Acknowledged (events ++ emitted) t where
  returned := by
    intro command member
    rcases List.mem_append.mp member with old | new
    · obtain ⟨i, consumed⟩ := acknowledged.returned command old
      exact ⟨i, (effect.take_prefix i).subset consumed⟩
    · cases effect.emits with
      | nothing => cases new
      | execution => simp at new
      | answer found replied accepted =>
          cases List.mem_singleton.mp new
          have consumed := (consistent_iff.mp inv).mem_of_answers found (by
            rw [replied]
            exact accepted)
          exact ⟨_, (effect.take_prefix _).subset consumed⟩
  executed := by
    intro i command member writes
    have same : ∀ k, k ≤ s.log.length → t.log.take k = s.log.take k := by
      intro k bound
      obtain ⟨rest, extended⟩ := effect.log
      rw [← extended, List.take_append_of_le_length bound]
    have before : command ∈ s.log.take (s.servers i).position →
        .executed i command ∈ events ++ emitted :=
      fun consumed => List.mem_append_left _ (acknowledged.executed i command consumed writes)
    have kept : (t.servers i).position = (s.servers i).position →
        .executed i command ∈ events ++ emitted := by
      intro position
      rw [position, same _ (inv.server i).bound] at member
      exact before member
    cases effect.server i with
    | keeps position _ => exact kept position
    | reads _ _ position _ => exact kept position
    | skips _ _ covered =>
        have := (inv.server i).lastSnapShot
        omega
    | installs => exact absurd rfl plain
    | @consumes op _ duplicate next checked found position _ shown =>
        have inside := (List.getElem?_eq_some_iff.mp found).1
        rw [position, same _ inside, take_position_succ found] at member
        rcases List.mem_append.mp member with old | new
        · exact before old
        · rw [List.mem_singleton.mp new] at writes ⊢
          obtain ⟨_, rfl, recognized⟩ := inv.of_checked checked found
          cases duplicate with
          | false => exact List.mem_append_right _ (shown rfl writes)
          | true =>
              apply List.mem_append_left
              exact acknowledged.executed_of_occurs inv (List.mem_of_getElem? found) writes
                ((recognized writes).mp rfl)

/-! ## Runs -/

/-- Every Put or Append whose call has returned was executed exactly once on the
server. -/
def ExecutedOnce [DecidableEq κ] (events : List (ServiceEvent κ 1)) : Prop :=
  ∀ command, .returned command ∈ events → command.op.Writes →
    events.count (.executed 0 command) = 1

variable [DecidableEq κ] {clientId : κ → Bytes} {maxRaftState : Int}

theorem writesOnly_of_run
    (run : ServiceRun archives clientId maxRaftState
      (fun s action => Delivers s action ∧ OwnId s action) events s) :
    WritesOnly s ∧ ServiceRun archives clientId maxRaftState
      (fun s action => (Delivers s action ∧ OwnId s action) ∧ ReadsForward s action) events s := by
  induction run with
  | nil => exact ⟨writesOnly_start clientId maxRaftState, .nil⟩
  | snoc _ accepted taken ih =>
      obtain ⟨only, forward⟩ := ih
      exact ⟨only.step accepted.1 taken, forward.snoc ⟨accepted, only.readsForward taken⟩ taken⟩

theorem acknowledged_of_run
    (run : ServiceRun archives clientId maxRaftState
      (fun s action => (Delivers s action ∧ OwnId s action) ∧ ReadsForward s action) events s) :
    Acknowledged events s := by
  induction run with
  | nil => exact acknowledged_start clientId maxRaftState
  | @snoc _ _ action _ _ before accepted taken ih =>
      have inv := (consistent_start clientId maxRaftState).run (fun _ _ all => all.1.2)
        (fun _ _ all => all.2) before
      refine ih.step inv ?_ (Service.step_effect taken)
      cases action with
      | getSnapShotFromRaft i snapshot => exact fun _ => accepted.1.1
      | _ => exact Bool.false_ne_true

/-- The executions of a command are executions of its request. -/
theorem count_executed_le (events : List (ServiceEvent κ m)) (i : Fin m) (command : Command κ) :
    events.count (.executed i command) ≤
      executions events i command.op.clientId command.op.requestId := by
  apply List.countP_mono_left
  intro event _ same
  rw [eq_of_beq same]
  exact decide_eq_true ⟨rfl, rfl, rfl⟩

/-- Every run in which a clerk begins a call only while no other clerk has begun
one. -/
theorem acknowledged_once {κ : Type} [DecidableEq κ] {archives : Archives} {rand : Nat → Int}
    {maxRaftState : Int} {events : List (ServiceEvent κ 1)} {s : Service κ 1}
    (run : ServiceRun archives (fun _ : κ => uuid rand) maxRaftState
      (fun s action => Delivers s action ∧ OwnId s action) events s) :
    ExecutedOnce events := by
  have forward := (writesOnly_of_run run).2
  have acknowledged := acknowledged_of_run forward
  have executed := executed_of_run (fun _ _ all => all.1.2) (fun _ _ all => all.2) forward
  intro command returned writes
  obtain ⟨i, consumed⟩ := acknowledged.returned command returned
  have same : i = 0 := Subsingleton.elim _ _
  subst same
  apply Nat.le_antisymm
  · exact (count_executed_le events 0 command).trans (executed.once _ _ _)
  · exact List.count_pos_iff.mpr (acknowledged.executed 0 command consumed writes)

/-- One of two clerk processes calls Put; the call is repeated and its second
handler finds the command executed after a time-out. -/
theorem acknowledged_once_oneClerk :
    ∃ (events : List (ServiceEvent Bool 1)) (s : Service Bool 1),
      ServiceRun noArchives (fun _ : Bool => uuid defaultRand) (-1)
        (fun s action => Delivers s action ∧ OwnId s action) events s ∧
      (∃ command, .returned command ∈ events ∧ command.op.Writes) ∧ ExecutedOnce events := by
  obtain ⟨events, s, run, checked⟩ := exists_run_of_exec (Service.step noArchives)
    (fun s action => Delivers s action ∧ OwnId s action)
    (Service.start (fun _ => uuid defaultRand) (-1) : Service Bool 1)
    (List.flatten
      [[.request false .put (text "k") (text "v"), .call false 0, .startConses 0 (some 1),
          .call false 0, .startConses 1 (some 2), .createWaitCh 1, .commit 0],
        consume 0,
        [.timeOutPop 1 true, .ifRequestDuplicate 1, .deleteWaitCh 1, .takeReply 1, .commit 1],
        consume 0])
    (fun result => result.2.any fun event =>
      match event with
      | .returned command => decide command.op.Writes
      | _ => false)
    (by decide +kernel)
  obtain ⟨event, member, writes⟩ := List.any_eq_true.mp checked
  refine ⟨events, s, run, ?_, acknowledged_once run⟩
  cases event with
  | executed i command => cases writes
  | returned command => exact ⟨command, member, of_decide_eq_true writes⟩

/-- The Put of a second clerk process has the client id and the number of the
first one: it is skipped as a duplicate and acknowledged. -/
theorem not_acknowledged_once :
    ¬ ∀ (events : List (ServiceEvent Bool 1)) (s : Service Bool 1),
      ServiceRun noArchives (fun _ : Bool => uuid defaultRand) (-1) Delivers events s →
      ExecutedOnce events := by
  obtain ⟨events, s, run, checked⟩ := exists_run_of_exec (Service.step noArchives) Delivers
    (Service.start (fun _ => uuid defaultRand) (-1) : Service Bool 1)
    (List.flatten
      [[.request false .put (text "k") (text "v"), .call false 0, .startConses 0 (some 1),
          .createWaitCh 0, .commit 0],
        consume 0,
        [.timeOutPop 0 false, .deleteWaitCh 0, .takeReply 0,
          .request true .put (text "k") (text "w"), .call true 0, .startConses 1 (some 2),
          .createWaitCh 1, .commit 1],
        consume 0, [.timeOutPop 1 false, .deleteWaitCh 1, .takeReply 1]])
    (fun result => result.2.any fun event =>
      match event with
      | .returned command =>
          decide (command.op.Writes ∧ result.2.count (.executed 0 command) ≠ 1)
      | _ => false)
    (by decide +kernel)
  obtain ⟨event, member, skipped⟩ := List.any_eq_true.mp checked
  intro claim
  cases event with
  | executed i command => cases skipped
  | returned command =>
      obtain ⟨writes, missing⟩ := of_decide_eq_true skipped
      exact missing (claim events s run command member writes)

end CppRaft.Kv
