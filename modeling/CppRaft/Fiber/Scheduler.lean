import CppRaft.Fiber.IOManager
import CppRaft.Fiber.Timer

/-!
# Scheduler threads and fibers

Every thread goes through `Scheduler::run`: it takes a task, resumes its fiber,
and runs `idle` when no task is there for it.  A fiber that calls a hooked
function registers its wake-up in one step and yields in later ones.  Threads
interleave at every step.
-/

namespace CppRaft.Fiber

open CppRaft.Transition

/-! ## Tasks -/

/-- A function that a fiber can run. -/
inductive Callback
  /-- Any function of the program. -/
  | function
  /-- `Scheduler::scheduler`, bound to a fiber by `sleep`, `usleep` or `nanosleep`. -/
  | wake (fiber : Nat)
  /-- What `do_io` gives to `addConditionTimer`. -/
  | timeout (tinfo fd : Nat) (event : Event)
deriving DecidableEq

/-- `fiber_` or `cb_` of a `SchedulerTask`. -/
inductive Job
  | fiber (fiber : Nat)
  | cb (cb : Callback)
deriving DecidableEq

/-- An entry of `tasks_`: a fiber or a function, and the thread that it is meant
for. -/
structure SchedulerTask where
  job : Job
  /-- `none` is -1. -/
  thread_ : Option Nat

/-! ## Fibers -/

/-- `Fiber::State`. -/
inductive FiberState
  | ready
  | running
  | term
deriving DecidableEq

/-- `timer_info`. -/
structure TimerInfo where
  /-- It is `ETIMEDOUT`. -/
  cnacelled : Bool
  /-- The call of `do_io` that has made it has not returned. -/
  alive : Bool

/-- The variables of a call of `do_io`. -/
structure DoIo where
  fd : Nat
  event : Event
  /-- `none` is -1. -/
  to_ : Option UInt64
  tinfo : Nat
  timer : Option Nat
deriving DecidableEq

/-- Where a fiber is.  A hooked call is `none` for the sleeps. -/
inductive Stage
  /-- Made for a task and not started. -/
  | fresh
  /-- In a function of the program. -/
  | user
  /-- At the start of a callback of a timer. -/
  | calling (cb : Callback)
  /-- In `timeout`, before `cancelEvent`. -/
  | cancelling (fd : Nat) (event : Event)
  /-- In `do_io`, before `addEvent`. -/
  | blocked (io : DoIo)
  /-- In `do_io`, behind an `addEvent` that has failed. -/
  | refused (io : DoIo)
  /-- Behind `addTimer` or `addEvent`, before `yield` sets the state. -/
  | registered (call : Option DoIo)
  /-- In `yield`, before `swapcontext`. -/
  | yielding (call : Option DoIo)
  | suspended (call : Option DoIo)
  /-- In `do_io`, behind `yield`. -/
  | woken (io : DoIo)
  /-- In `do_io`, at `retry`. -/
  | retrying (io : DoIo)
  /-- In `MainFunc`, behind the function. -/
  | returned
  /-- In the `yield` of `MainFunc`, before `swapcontext`. -/
  | ended
  | gone
deriving DecidableEq

/-- `MainFunc` with a function. -/
def Stage.start : Callback → Stage
  | .function => .user
  | cb => .calling cb

/-- Behind the `swapcontext` that `resume` returns to. -/
def Stage.resume : Stage → Stage
  | .fresh | .suspended none => .user
  | .suspended (some io) => .woken io
  | stage => stage

/-- A `Fiber` with the place in its function where it stands. -/
structure FiberObject where
  state_ : FiberState
  stage : Stage

/-! ## The scheduler -/

/-- Where a thread is in `run`. -/
inductive ThreadStage
  /-- Before it looks for a task. -/
  | looking
  /-- It has a task and is about to resume its fiber. -/
  | holds (job : Job)
  | runs (fiber : Nat)
  /-- In `idle`, with expired callbacks to schedule. -/
  | idling (cbs : List Callback)
deriving DecidableEq

/-- A scheduler with its threads, the fibers that were made so far, and its timers
and IO events. -/
structure Scheduler where
  fibers : List FiberObject
  tasks_ : List SchedulerTask
  threads : List ThreadStage
  timers : TimerManager Callback
  io : IOManager Empty
  tinfos : List TimerInfo
  /-- A `CondPanic` has ended the process, or two threads are on one stack. -/
  aborted : Bool

/-- What a run loop does with a fiber of `tasks_`. -/
inductive SchedulerEvent
  /-- A run loop has found a fiber in `tasks_`. -/
  | took (thread fiber : Nat) (found : FiberObject)
  /-- A run loop resumes a fiber, which another thread may still run. -/
  | resumed (thread fiber : Nat) (found : FiberObject) (elsewhere : Bool)

/-- What a running fiber does next. -/
inductive FiberCall
  /-- `sleep`, `usleep` and `nanosleep`, up to their timer. -/
  | sleep (ms now address : UInt64)
  /-- `do_io` on a descriptor that is not ready, up to its timer. -/
  | doIo (fd : Nat) (event : Event) (to_ : Option UInt64) (now address : UInt64)
  | addEvent (ok : Bool)
  | yield
  | swapcontext
  | cancelTimer
  /-- The descriptor is still not ready. -/
  | again (now address : UInt64)
  /-- The system call of `do_io` has an answer. -/
  | done
  /-- `close`, which cancels all events of the descriptor. -/
  | close (fd : Nat) (ok : Bool)
  /-- The function of the program returns. -/
  | return
  /-- A callback of a timer runs. -/
  | callback
  | cancelEvent (ok : Bool)
  /-- The end of `MainFunc`. -/
  | finish

/-- The steps of `idle`. -/
inductive IdleCall
  | listExpiredCb (now address : UInt64)
  /-- The first expired callback is scheduled. -/
  | scheduler
  | epollWait (report : Report)
  | dispatch (i : Nat) (ok : Bool)
  | yield

/-- One step of a thread: of the program outside the fibers, of a run loop, of the
fiber that it runs, or of `idle`. -/
inductive SchedulerCall
  /-- The program schedules a function. -/
  | schedule (thread_ : Option Nat)
  /-- The program schedules a new fiber. -/
  | scheduleFiber (thread_ : Option Nat)
  | take (t : Nat)
  | resume (t : Nat)
  | fiber (t : Nat) (call : FiberCall)
  | idle (t : Nat) (call : IdleCall)

/-- What `triggerEvent` has given to the scheduler. -/
def ioTasks (events : List (IoEvent Empty)) : List SchedulerTask :=
  events.filterMap fun event =>
    match event with
    | .scheduled _ _ _ (some (.fiber fiber)) => some ⟨.fiber fiber, none⟩
    | _ => none

/-- The first task that thread `t` may run, and the others. -/
def takeTask (t : Nat) : List SchedulerTask → Option (SchedulerTask × List SchedulerTask)
  | [] => none
  | task :: rest =>
      if task.thread_ = none ∨ task.thread_ = some t then some (task, rest)
      else (takeTask t rest).map fun taken => (taken.1, task :: taken.2)

namespace Scheduler

/-- A scheduler with a number of threads whose timers were made at `now`. -/
def new (threads : Nat) (now : UInt64) : Scheduler where
  fibers := []
  tasks_ := []
  threads := List.replicate threads .looking
  timers := .new now
  io := .new
  tinfos := []
  aborted := false

/-- Write to a fiber. -/
def setFiber (s : Scheduler) (f : Nat) (fiber : FiberObject) : Scheduler :=
  { s with fibers := s.fibers.set f fiber }

/-- Move a thread in `run`. -/
def setThread (s : Scheduler) (t : Nat) (stage : ThreadStage) : Scheduler :=
  { s with threads := s.threads.set t stage }

/-- A new fiber, whose number is the count of the others. -/
def addFiber (s : Scheduler) (fiber : FiberObject) : Scheduler :=
  { s with fibers := s.fibers ++ [fiber] }

/-- Append to `tasks_`. -/
def push (s : Scheduler) (tasks : List SchedulerTask) : Scheduler :=
  { s with tasks_ := s.tasks_ ++ tasks }

/-! ## The run loop -/

/-- A run loop looks for a task, and runs `idle` if it finds none. -/
def take (s : Scheduler) (t : Nat) : Option (Scheduler × List SchedulerEvent) :=
  match s.threads[t]? with
  | some .looking =>
      match takeTask t s.tasks_ with
      | none => some (s.setThread t (.idling []), [])
      | some (task, rest) =>
          let taken := { s with tasks_ := rest }.setThread t (.holds task.job)
          match task.job with
          | .cb _ => some (taken, [])
          | .fiber f =>
              match s.fibers[f]? with
              | none => none
              | some fiber =>
                  if fiber.state_ = .ready then some (taken, [.took t f fiber])
                  else some ({ s with aborted := true }, [.took t f fiber])
  | _ => none

/-- A run loop resumes the fiber of its task, which is a new one for a function. -/
def resume (s : Scheduler) (t : Nat) : Option (Scheduler × List SchedulerEvent) :=
  match s.threads[t]? with
  | some (.holds (.cb cb)) =>
      some ((s.addFiber ⟨.running, .start cb⟩).setThread t (.runs s.fibers.length), [])
  | some (.holds (.fiber f)) =>
      match s.fibers[f]? with
      | none => none
      | some fiber =>
          let elsewhere := s.threads.contains (.runs f)
          if fiber.state_ ≠ .ready ∨ elsewhere = true then
            some ({ s with aborted := true }, [.resumed t f fiber elsewhere])
          else
            some ((s.setFiber f ⟨.running, fiber.stage.resume⟩).setThread t (.runs f),
              [.resumed t f fiber elsewhere])
  | _ => none

/-! ## Fibers -/

/-- `addConditionTimer` in `do_io`, unless the descriptor has no timeout. -/
def arm (s : Scheduler) (f : Nat) (fiber : FiberObject) (io : DoIo) (now address : UInt64) :
    Option Scheduler :=
  match io.to_ with
  | none => some (s.setFiber f { fiber with stage := .blocked { io with timer := none } })
  | some ms =>
      if s.timers.Free address then
        let cb := Callback.timeout io.tinfo io.fd io.event
        some ({ s with timers := (s.timers.addTimer ms cb false now address).1 }.setFiber f
          { fiber with stage := .blocked { io with timer := some s.timers.objects.length } })
      else none

/-- `timer->cancel()` in `do_io`. -/
def disarm (s : Scheduler) (io : DoIo) : Option Scheduler :=
  match io.timer with
  | none => some s
  | some p => (s.timers.cancel p).map fun cancelled => { s with timers := cancelled.1 }

/-- `do_io` returns. -/
def returnIo (s : Scheduler) (f : Nat) (fiber : FiberObject) (io : DoIo) : Scheduler :=
  { s with tinfos := s.tinfos.modify io.tinfo fun info => { info with alive := false } }.setFiber f
    { fiber with stage := .user }

/-- The next step of the fiber `f` that thread `t` runs. -/
def fiberStep (s : Scheduler) (t f : Nat) (fiber : FiberObject) (call : FiberCall) :
    Option Scheduler :=
  match fiber.stage, call with
  | .user, .sleep ms now address =>
      if s.timers.Free address then
        some ({ s with timers := (s.timers.addTimer ms (.wake f) false now address).1 }.setFiber f
          { fiber with stage := .registered none })
      else none
  | .user, .doIo fd event to_ now address =>
      let io := { fd := fd, event := event, to_ := to_, tinfo := s.tinfos.length, timer := none }
      ({ s with tinfos := s.tinfos ++ [TimerInfo.mk false true] } : Scheduler).arm f fiber io now
        address
  | .user, .close fd ok =>
      let cancelled := s.io.cancelAll fd ok
      some ({ s with io := cancelled.1 }.push (ioTasks cancelled.2))
  | .user, .return => some (s.setFiber f { fiber with stage := .returned })
  | .calling (.wake g), .callback =>
      some ((s.push [⟨.fiber g, none⟩]).setFiber f { fiber with stage := .returned })
  | .calling (.timeout tinfo fd event), .callback =>
      match s.tinfos[tinfo]? with
      | some ⟨false, true⟩ =>
          some ({ s with tinfos := s.tinfos.set tinfo ⟨true, true⟩ }.setFiber f
            { fiber with stage := .cancelling fd event })
      | _ => some (s.setFiber f { fiber with stage := .returned })
  | .cancelling fd event, .cancelEvent ok =>
      let cancelled := s.io.cancelEvent fd event ok
      some (({ s with io := cancelled.1 }.push (ioTasks cancelled.2)).setFiber f
        { fiber with stage := .returned })
  | .blocked io, .addEvent ok =>
      let caller : Caller := ⟨some 0, f, decide (fiber.state_ = .running)⟩
      let added := s.io.addEvent caller io.fd io.event none ok
      let stage :=
        match added.2 with
        | [.registered _ _ _] => Stage.registered (some io)
        | _ => .refused io
      some ({ s with io := added.1 }.setFiber f { fiber with stage := stage })
  | .refused io, .cancelTimer => (s.disarm io).map fun s => s.returnIo f fiber io
  | .registered call, .yield =>
      if fiber.state_ = .running then some (s.setFiber f ⟨.ready, .yielding call⟩)
      else some { s with aborted := true }
  | .yielding call, .swapcontext =>
      some ((s.setFiber f { fiber with stage := .suspended call }).setThread t .looking)
  | .woken io, .cancelTimer =>
      (s.disarm io).map fun s =>
        match s.tinfos[io.tinfo]? with
        | some ⟨true, _⟩ => s.returnIo f fiber io
        | _ => s.setFiber f { fiber with stage := .retrying io }
  | .retrying io, .again now address => s.arm f fiber io now address
  | .retrying io, .done => some (s.returnIo f fiber io)
  | .returned, .finish => some (s.setFiber f ⟨.term, .ended⟩)
  | .ended, .swapcontext =>
      some ((s.setFiber f { fiber with stage := .gone }).setThread t .looking)
  | _, _ => none

/-! ## Idle threads -/

/-- The next step of thread `t` in `idle`. -/
def idleStep (s : Scheduler) (t : Nat) (cbs : List Callback) : IdleCall → Option Scheduler
  | .listExpiredCb now address =>
      (s.timers.listExpiredCb now address).map fun expired =>
        { s with timers := expired.1 }.setThread t (.idling (cbs ++ expired.2.filterMap Prod.snd))
  | .scheduler =>
      match cbs with
      | [] => none
      | cb :: rest => some ((s.push [⟨.cb cb, none⟩]).setThread t (.idling rest))
  | .epollWait report =>
      (s.io.perform (.epollWait report)).map fun polled => { s with io := polled.1 }
  | .dispatch i ok =>
      (s.io.perform (.dispatch i ok)).map fun acted =>
        { s with io := acted.1 }.push (ioTasks acted.2)
  | .yield => if cbs = [] then some (s.setThread t .looking) else none

/-! ## Steps -/

/-- One step of a live process. -/
def perform (s : Scheduler) : SchedulerCall → Option (Scheduler × List SchedulerEvent)
  | .schedule thread_ => some (s.push [⟨.cb .function, thread_⟩], [])
  | .scheduleFiber thread_ =>
      some ((s.addFiber ⟨.ready, .fresh⟩).push [⟨.fiber s.fibers.length, thread_⟩], [])
  | .take t => s.take t
  | .resume t => s.resume t
  | .fiber t call =>
      match s.threads[t]? with
      | some (.runs f) =>
          match s.fibers[f]? with
          | none => none
          | some fiber => (s.fiberStep t f fiber call).map fun stepped => (stepped, [])
      | _ => none
  | .idle t call =>
      match s.threads[t]? with
      | some (.idling cbs) => (s.idleStep t cbs call).map fun stepped => (stepped, [])
      | _ => none

/-- One step, or none after the end of the process. -/
def step (s : Scheduler) (call : SchedulerCall) : Option (Scheduler × List SchedulerEvent) :=
  if s.aborted ∨ s.io.aborted then none else s.perform call

end Scheduler

end CppRaft.Fiber
