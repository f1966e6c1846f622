import CppRaft.Container.Total
import CppRaft.Fiber.Registration
import CppRaft.Fiber.Scheduler

/-!
# Wake-ups

A wake-up of a fiber is on its way in a timer, in the context of an event, in a
callback, in a task or at a run loop.  The calls move it and make no second one.
-/

namespace CppRaft.Fiber

open CppRaft.Container
open CppRaft.Transition

variable {g : Nat}

/-! ## Their numbers -/

/-- 1 for the fiber `f` itself. -/
def mark (f g : Nat) : Nat :=
  if f = g then 1 else 0

@[simp]
theorem mark_self (f : Nat) : mark f f = 1 :=
  if_pos rfl

theorem mark_of_ne {f g : Nat} (other : f ≠ g) : mark f g = 0 :=
  if_neg other

/-- Whether the callback wakes fiber `g`, as a number. -/
def Callback.wakes (g : Nat) : Callback → Nat
  | .wake f => mark f g
  | .function | .timeout _ _ _ => 0

/-- Whether the job resumes fiber `g` or wakes it. -/
def Job.wakes (g : Nat) : Job → Nat
  | .fiber f => mark f g
  | .cb callback => callback.wakes g

/-- As for its job. -/
def SchedulerTask.wakes (g : Nat) (task : SchedulerTask) : Nat :=
  task.job.wakes g

/-- A fiber that is about to run the callback has it. -/
def Stage.wakes (g : Nat) : Stage → Nat
  | .calling cb => cb.wakes g
  | _ => 0

/-- As for its stage. -/
def FiberObject.wakes (g : Nat) (fiber : FiberObject) : Nat :=
  fiber.stage.wakes g

/-- The wake-ups in the hands of a thread. -/
def ThreadStage.wakes (g : Nat) : ThreadStage → Nat
  | .holds job => job.wakes g
  | .idling cbs => total (Callback.wakes g) cbs
  | .looking | .runs _ => 0

/-- An armed timer has its callback. -/
def Timer.wakes (g : Nat) (timer : Timer Callback) : Nat :=
  timer.cb_.elim 0 (Callback.wakes g)

/-- The wake-ups that wait for their time. -/
def TimerManager.wakes (g : Nat) (tm : TimerManager Callback) : Nat :=
  total (Timer.wakes g) tm.objects

/-- For the continuation of a context. -/
def continuationWakes (g : Nat) : Option (Continuation Empty) → Nat
  | some (.fiber f) => mark f g
  | _ => 0

/-- For both events of a descriptor. -/
def FdContext.wakes (g : Nat) (ctx : FdContext Empty) : Nat :=
  continuationWakes g (ctx.context .read).task + continuationWakes g (ctx.context .write).task

/-- The wake-ups that wait for a descriptor. -/
def IOManager.wakes (g : Nat) (io : IOManager Empty) : Nat :=
  total (FdContext.wakes g) io.fdContexts_

/-! ## Timers -/

namespace TimerManager

variable {tm tm' : TimerManager Callback} {p : Nat} {timer : Timer Callback}

/-- No timer is recurring, so that an expired one has no callback any more. -/
def Once (tm : TimerManager Callback) : Prop :=
  ∀ timer ∈ tm.objects, timer.recurring_ = false

/-- A timer that is cancelled or has expired. -/
theorem Once.clear (once : tm.Once) (found : tm.objects[p]? = some timer) :
    (tm.put p { timer with cb_ := none }).Once := by
  intro timer' member
  rcases List.mem_or_eq_of_mem_set member with old | rfl
  · exact once timer' old
  · exact once timer (List.mem_of_getElem? found)

theorem wakes_clear (found : tm.objects[p]? = some timer) :
    (tm.put p { timer with cb_ := none }).wakes g + timer.wakes g = tm.wakes g :=
  total_set (Timer.wakes g) found { timer with cb_ := none }

theorem wakes_addTimer (ms : UInt64) (cb : Callback) (now address : UInt64) :
    (tm.addTimer ms cb false now address).1.wakes g = tm.wakes g + cb.wakes g := by
  rw [wakes, wakes, addTimer, addTimerLocked, insert, total_append, total_singleton]
  rfl

theorem Once.addTimer (once : tm.Once) (ms : UInt64) (cb : Callback) (now address : UInt64) :
    (tm.addTimer ms cb false now address).1.Once := by
  intro timer member
  rcases List.mem_append.mp member with old | new
  · exact once timer old
  · rw [List.mem_singleton.mp new]

theorem cancel_spec {done : Bool} (once : tm.Once) (cancelled : tm.cancel p = some (tm', done)) :
    tm'.Once ∧ tm'.wakes g ≤ tm.wakes g := by
  unfold cancel at cancelled
  split at cancelled
  · cases cancelled
  · rename_i timer found
    split at cancelled
    · dsimp only at cancelled
      split at cancelled
      · cases cancelled
      · cases cancelled
        have cleared := wakes_clear (g := g) found
        exact ⟨once.clear found, Nat.le.intro cleared⟩
    · cases cancelled
      exact ⟨once, Nat.le_refl _⟩

/-- The callbacks of a listing. -/
def listedWakes (g : Nat) (cbs : List (Nat × Option Callback)) : Nat :=
  total (Callback.wakes g) (cbs.filterMap Prod.snd)

theorem listedWakes_cons (p : Nat) (timer : Timer Callback) (cbs : List (Nat × Option Callback)) :
    listedWakes g ((p, timer.cb_) :: cbs) = timer.wakes g + listedWakes g cbs := by
  rw [Timer.wakes]
  cases timer.cb_ with
  | none =>
      rw [Option.elim_none, Nat.zero_add]
      rfl
  | some cb => rfl

theorem sweep_spec {now_ms : UInt64} {expired : List Nat} {cbs : List (Nat × Option Callback)}
    (once : tm.Once) (swept : sweep now_ms expired tm = some (tm', cbs)) :
    tm'.Once ∧ tm'.wakes g + listedWakes g cbs = tm.wakes g := by
  induction expired generalizing tm cbs with
  | nil =>
      cases swept
      exact ⟨once, rfl⟩
  | cons p expired ih =>
      rw [sweep] at swept
      split at swept
      · cases swept
      · rename_i timer found
        have single := once timer (List.mem_of_getElem? found)
        rw [sweepOne, if_neg (by rw [single]; decide), Option.map_eq_some_iff] at swept
        obtain ⟨⟨tm₁, cbs₁⟩, restSwept, same⟩ := swept
        cases same
        have cleared := wakes_clear (g := g) found
        have ⟨kept, moved⟩ := ih (once.clear found) restSwept
        refine ⟨kept, ?_⟩
        calc
          tm₁.wakes g + listedWakes g ((p, timer.cb_) :: cbs₁)
              = tm₁.wakes g + (timer.wakes g + listedWakes g cbs₁) := by rw [listedWakes_cons]
          _ = tm₁.wakes g + listedWakes g cbs₁ + timer.wakes g := by omega
          _ = tm.wakes g := by rw [moved, cleared]

theorem listExpiredCb_spec {now_ms address : UInt64} {cbs : List (Nat × Option Callback)}
    (once : tm.Once) (listed : tm.listExpiredCb now_ms address = some (tm', cbs)) :
    tm'.Once ∧ tm'.wakes g + listedWakes g cbs = tm.wakes g := by
  unfold listExpiredCb at listed
  split at listed
  · cases listed
    exact ⟨once, rfl⟩
  · dsimp only at listed
    split at listed
    · cases listed
    · split at listed
      · cases listed
        exact ⟨once, rfl⟩
      · have swept := fun kept => sweep_spec (g := g) kept listed
        exact swept once

end TimerManager

/-! ## Tasks -/

/-- The wake-ups in a queue. -/
def taskWakes (g : Nat) (tasks : List SchedulerTask) : Nat :=
  total (SchedulerTask.wakes g) tasks

/-- A taken task leaves the others. -/
theorem takeTask_total {t : Nat} {tasks rest : List SchedulerTask} {task : SchedulerTask}
    (weight : SchedulerTask → Nat) (taken : takeTask t tasks = some (task, rest)) :
    total weight tasks = weight task + total weight rest := by
  induction tasks generalizing rest with
  | nil => cases taken
  | cons first tasks ih =>
      rw [takeTask] at taken
      split at taken
      · cases taken
        rfl
      · rw [Option.map_eq_some_iff] at taken
        obtain ⟨⟨task₁, rest₁⟩, later, same⟩ := taken
        cases same
        have moved : total weight tasks = weight task₁ + total weight rest₁ := ih later
        simp only [total, moved]
        omega

/-! ## Events -/

namespace FdContext

variable {ctx : FdContext Empty} {event : Event} {context : EventContext Empty}

theorem wakes_put (ctx : FdContext Empty) (event : Event) (bit : Bool)
    (context : EventContext Empty) : (ctx.put event bit context).wakes g +
      continuationWakes g (ctx.context event).task =
        ctx.wakes g + continuationWakes g context.task := by
  cases event with
  | read =>
      rw [wakes, put_context_self, put_context_of_ne (by decide), wakes]
      omega
  | write =>
      rw [wakes, put_context_self, put_context_of_ne (by decide), wakes]
      omega

theorem triggerEvent_task {ctx' : FdContext Empty} {scheduler : Nat}
    {task : Option (Continuation Empty)}
    (triggered : ctx.triggerEvent event = .ok (ctx', scheduler, task)) :
    task = (ctx.context event).task := by
  rw [triggerEvent] at triggered
  split at triggered
  · split at triggered
    · cases triggered
    · cases triggered
      rfl
  · cases triggered

end FdContext

namespace IOManager

variable {io io' : IOManager Empty} {fd : Nat} {ctx : FdContext Empty} {event : Event} {ok : Bool}

/-- The wake-ups that the scheduler gets. -/
def emittedWakes (g : Nat) (events : List (IoEvent Empty)) : Nat :=
  taskWakes g (ioTasks events)

theorem emittedWakes_scheduled (fd : Nat) (event : Event) (scheduler : Nat)
    (task : Option (Continuation Empty)) (events : List (IoEvent Empty)) :
    emittedWakes g (.scheduled fd event scheduler task :: events) =
      continuationWakes g task + emittedWakes g events := by
  cases task with
  | none =>
      rw [continuationWakes, Nat.zero_add]
      · rfl
      · intro f absurd
        cases absurd
  | some continuation =>
      cases continuation with
      | cb callback => exact callback.elim
      | fiber f => rfl

theorem wakes_setCtx (inside : fd < io.fdContexts_.length) (ctx : FdContext Empty) :
    (io.setCtx fd ctx).wakes g + (io.fdCtx fd).wakes g = io.wakes g + ctx.wakes g :=
  total_set (FdContext.wakes g) (getElem?_of_lt inside) ctx

theorem trigger_wakes (fd : Nat) (events : List Event) (io : IOManager Empty) :
    (trigger fd events io).1.wakes g + emittedWakes g (trigger fd events io).2 ≤ io.wakes g := by
  induction events generalizing io with
  | nil => exact Nat.le_refl _
  | cons event rest ih =>
      rw [trigger]
      split
      · exact Nat.le_refl _
      · rename_i ctx' scheduler task triggered
        have ⟨set, reset⟩ := FdContext.triggerEvent_ok triggered
        have waiting := FdContext.triggerEvent_task triggered
        subst reset
        have moved := wakes_setCtx (g := g) (lt_length set) ((io.fdCtx fd).reset event)
        have emptied := (io.fdCtx fd).wakes_put (g := g) event false {}
        have later := ih ({ io with pendingEventCnt_ := io.pendingEventCnt_ - 1 }.setCtx fd
          ((io.fdCtx fd).reset event))
        dsimp only
        rw [emittedWakes_scheduled, waiting]
        change ((io.fdCtx fd).reset event).wakes g + _ = _ + 0 at emptied
        change _ ≤ (io.setCtx fd ((io.fdCtx fd).reset event)).wakes g at later
        omega

theorem wakes_contextResize (size : Nat) : (io.contextResize size).wakes g ≤ io.wakes g := by
  have kept : total (FdContext.wakes g) (io.fdContexts_.take size) ≤ io.wakes g := by
    rw [wakes, ← List.take_append_drop size io.fdContexts_, total_append,
      List.take_append_drop]
    exact Nat.le_add_right _ _
  have empty :
      total (FdContext.wakes g) (List.replicate (size - io.fdContexts_.length) {}) = 0 := by
    apply total_eq_zero
    intro ctx member
    rw [List.eq_of_mem_replicate member]
    rfl
  rw [wakes, contextResize, total_append, empty]
  exact kept

/-- Another context for a descriptor, which may be outside of the table. -/
theorem wakes_setCtx_le (io : IOManager Empty) (fd : Nat) (ctx : FdContext Empty) {k : Nat}
    (weight : ctx.wakes g ≤ (io.fdCtx fd).wakes g + k) :
    (io.setCtx fd ctx).wakes g ≤ io.wakes g + k := by
  by_cases inside : fd < io.fdContexts_.length
  · have moved := wakes_setCtx (g := g) inside ctx
    omega
  · rw [wakes, setCtx, List.set_eq_of_length_le (Nat.le_of_not_lt inside)]
    exact Nat.le_add_right _ _

/-- Only a registration makes a wake-up, of the fiber that calls. -/
theorem addEvent_wakes (io : IOManager Empty) (caller : Caller) (fd : Nat) (event : Event)
    (ok : Bool) : (∀ g, (io.addEvent caller fd event none ok).1.wakes g ≤ io.wakes g) ∨
      (∃ fd' event' continuation, (io.addEvent caller fd event none ok).2 =
          [.registered fd' event' continuation]) ∧
        ∀ g, (io.addEvent caller fd event none ok).1.wakes g ≤
          io.wakes g + mark caller.fiber g := by
  have grown : ∀ g, (if fd < io.fdContexts_.length then io
      else io.contextResize (fd * 3 / 2)).wakes g ≤ io.wakes g := by
    intro g
    split
    · exact Nat.le_refl _
    · exact wakes_contextResize _
  unfold addEvent
  generalize (if fd < io.fdContexts_.length then io
      else io.contextResize (fd * 3 / 2)) = table at grown
  dsimp only
  split
  · exact .inl grown
  · split
    · exact .inl grown
    · rename_i epoll told
      split
      · exact .inl grown
      · split
        · exact .inl grown
        · right
          refine ⟨⟨_, _, _, rfl⟩, ?_⟩
          intro g
          have before := grown g
          have written := (table.fdCtx fd).wakes_put (g := g) event true (caller.eventContext none)
          rw [caller.task_eventContext] at written
          change _ = _ + mark caller.fiber g at written
          have weight : ((table.fdCtx fd).put event true (caller.eventContext none)).wakes g ≤
              (table.fdCtx fd).wakes g + mark caller.fiber g := by omega
          exact Nat.le_trans (table.wakes_setCtx_le fd _ weight) (Nat.add_le_add_right before _)

/-- Every other call only moves wake-ups to the scheduler. -/
def Moves (g : Nat) (io : IOManager Empty) (result : IOManager Empty × List (IoEvent Empty)) :
    Prop :=
  result.1.wakes g + emittedWakes g result.2 ≤ io.wakes g

theorem cancelEvent_moves : io.Moves g (io.cancelEvent fd event ok) := by
  unfold cancelEvent
  dsimp only
  split
  · exact Nat.le_refl _
  · split
    · exact Nat.le_refl _
    · split
      · exact Nat.le_refl _
      · rename_i epoll told
        exact trigger_wakes fd [event] { io with epoll := epoll }

theorem emittedWakes_append (events more : List (IoEvent Empty)) :
    emittedWakes g (events ++ more) = emittedWakes g events + emittedWakes g more := by
  rw [emittedWakes, ioTasks, List.filterMap_append, taskWakes, total_append]
  rfl

theorem cancelAll_moves : io.Moves g (io.cancelAll fd ok) := by
  unfold cancelAll
  dsimp only
  split
  · exact Nat.le_refl _
  · split
    · exact Nat.le_refl _
    · split
      · exact Nat.le_refl _
      · rename_i epoll told
        have moved := trigger_wakes (g := g) fd (io.fdCtx fd).events.toList
          { io with epoll := epoll }
        split
        · rw [Moves, emittedWakes_append]
          exact moved
        · exact moved

theorem dispatch_moves (report : Report) : io.Moves g (io.dispatch report ok) := by
  unfold dispatch
  dsimp only
  split
  · split
    · exact Nat.le_refl _
    · rename_i epoll told
      exact trigger_wakes report.fd _ { io with epoll := epoll }
  · exact Nat.le_refl _

end IOManager

end CppRaft.Fiber
