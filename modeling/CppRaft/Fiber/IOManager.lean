import CppRaft.Transition.Run
import Mathlib.Logic.Function.Basic

/-!
# The events of an IO manager

A call finds the context of its descriptor, changes the registration in the
kernel, and then the context and the counter.  `epoll_ctl` may fail at any call.
An idle loop takes its reports from the kernel in one step and acts on each of
them in a later one.
-/

namespace CppRaft.Fiber

open CppRaft.Transition

universe u

variable {κ : Type u}

/-! ## Contexts -/

/-- The two bits of the `Event` masks. -/
inductive Event
  | read
  | write
deriving DecidableEq

instance decidableForallEvent (p : Event → Prop) [∀ event, Decidable (p event)] :
    Decidable (∀ event, p event) :=
  decidable_of_iff (p .read ∧ p .write)
    ⟨fun both event => Event.casesOn event both.1 both.2, fun all => ⟨all .read, all .write⟩⟩

/-- A mask of events; `fun _ => false` is `NONE`. -/
abbrev Events :=
  Event → Bool

/-- The mask is not `NONE`. -/
def Events.any (events : Events) : Bool :=
  events .read || events .write

/-- The events of a mask, `READ` first. -/
def Events.toList (events : Events) : List Event :=
  [Event.read, .write].filter events

/-- `EventContext`, with callbacks in `κ`.  Schedulers and fibers are named by
numbers, and `none` is a null pointer. -/
structure EventContext (κ : Type u) where
  scheduler : Option Nat := none
  fiber : Option Nat := none
  cb : Option κ := none

/-- What a scheduler is given to run. -/
inductive Continuation (κ : Type u)
  | cb (callback : κ)
  | fiber (fiber : Nat)

/-- The continuation of a context. -/
def EventContext.task (ctx : EventContext κ) : Option (Continuation κ) :=
  match ctx.cb with
  | some callback => some (.cb callback)
  | none => ctx.fiber.map .fiber

/-- The context has a scheduler, and one of a callback and a fiber. -/
def EventContext.Filled (ctx : EventContext κ) : Prop :=
  ctx.scheduler.isSome ∧ ctx.cb.isSome ≠ ctx.fiber.isSome

/-- `FdContext`; `getEveContext` is `context`. -/
structure FdContext (κ : Type u) where
  context : Event → EventContext κ := fun _ => {}
  events : Events := fun _ => false

/-- Write the bit and the context of an event. -/
def FdContext.put (ctx : FdContext κ) (event : Event) (bit : Bool) (context : EventContext κ) :
    FdContext κ where
  context := Function.update ctx.context event context
  events := Function.update ctx.events event bit

/-- Clear an event and reset its context (`resetEveContext`). -/
def FdContext.reset (ctx : FdContext κ) (event : Event) : FdContext κ :=
  ctx.put event false {}

/-- The conditions that `CondPanic` tests, and a null pointer. -/
inductive Panic
  /-- "event hasn't been registed". -/
  | notRegisted
  | nullScheduler
  /-- "addevent error". -/
  | registed
  /-- "event_ctx is nullptr". -/
  | contextInUse
  /-- "state=". -/
  | notRunning
  /-- "fd not totally clear". -/
  | notClear
deriving DecidableEq

/-- `triggerEvent`, with the scheduler that it calls and the task that this one
gets. -/
def FdContext.triggerEvent (ctx : FdContext κ) (event : Event) :
    Except Panic (FdContext κ × Nat × Option (Continuation κ)) :=
  if ctx.events event then
    match (ctx.context event).scheduler with
    | none => .error .nullScheduler
    | some scheduler => .ok (ctx.reset event, scheduler, (ctx.context event).task)
  else .error .notRegisted

/-! ## The kernel -/

/-- `EPOLL_CTL_ADD`, `EPOLL_CTL_MOD` and `EPOLL_CTL_DEL`. -/
inductive CtlOp
  | add
  | mod
  | del

/-- `epoll_ctl` on the registrations of `epfd_`; it fails if the operation does
not fit, or if `ok` is false. -/
def epollCtl (epoll : Nat → Option Events) (op : CtlOp) (fd : Nat) (events : Events) (ok : Bool) :
    Option (Nat → Option Events) :=
  match ok, op, epoll fd with
  | true, .add, none => some (Function.update epoll fd (some events))
  | true, .mod, some _ => some (Function.update epoll fd (some events))
  | true, .del, some _ => some (Function.update epoll fd none)
  | _, _, _ => none

/-- A readiness report: `EPOLLIN` and `EPOLLOUT` by `events`, and whether
`EPOLLERR` or `EPOLLHUP` is set. -/
structure Report where
  fd : Nat
  events : Events
  error : Bool

/-- `real_events`, for the mask of the descriptor: after an error or a hang-up all
registered events have happened. -/
def Report.real_events (report : Report) (registered : Events) : Events :=
  fun event => report.events event || report.error && registered event

/-- The kernel can report it. -/
def Report.Ready (report : Report) (epoll : Nat → Option Events) : Prop :=
  ∃ interest ∈ epoll report.fd, ∀ event, report.events event = true → interest event = true

instance (report : Report) (epoll : Nat → Option Events) : Decidable (report.Ready epoll) :=
  match found : epoll report.fd with
  | none => isFalse (by simp [Report.Ready, found])
  | some interest =>
      decidable_of_iff (∀ event, report.events event = true → interest event = true)
        (by simp [Report.Ready, found])

/-! ## The manager -/

/-- The members of `IOManager` for its events, the registrations in the kernel
and the reports that idle loops have taken. -/
structure IOManager (κ : Type u) where
  fdContexts_ : List (FdContext κ)
  pendingEventCnt_ : Int
  epoll : Nat → Option Events
  reports : List Report
  /-- A `CondPanic` has ended the process. -/
  aborted : Bool

/-- An epoll report that was acted on: the mask of the descriptor, the
`real_events`, and whether the kernel would take a call of `epoll_ctl`. -/
structure Dispatch where
  registered : Events
  real_events : Events
  ok : Bool

/-- What a call has done: the answer that it gives, or a call on its way. -/
inductive IoEvent (κ : Type u)
  /-- `addEvent` has answered 0. -/
  | registered (fd : Nat) (event : Event) (continuation : Continuation κ)
  /-- `delEvent` has answered true. -/
  | deleted (fd : Nat) (event : Event)
  /-- `triggerEvent` has called the scheduler. -/
  | scheduled (fd : Nat) (event : Event) (scheduler : Nat) (task : Option (Continuation κ))
  /-- A call has answered -1 or false, or has skipped its report after an error. -/
  | failed
  | dispatched (dispatch : Dispatch)
  | panicked (panic : Panic)

/-- The thread that calls `addEvent`: `Scheduler::GetThis()`, `Fiber::GetThis()`
and whether this fiber is `RUNNING`. -/
structure Caller where
  scheduler : Option Nat
  fiber : Nat
  running : Bool

/-- The continuation of a registration. -/
def Caller.continuation (caller : Caller) : Option κ → Continuation κ
  | some callback => .cb callback
  | none => .fiber caller.fiber

/-- What `addEvent` writes to the context of the event. -/
def Caller.eventContext (caller : Caller) : Option κ → EventContext κ
  | some callback => { scheduler := caller.scheduler, cb := some callback }
  | none => { scheduler := caller.scheduler, fiber := some caller.fiber }

namespace IOManager

/-- The constructor. -/
def new : IOManager κ where
  fdContexts_ := List.replicate 32 {}
  pendingEventCnt_ := 0
  epoll := fun _ => none
  reports := []
  aborted := false

/-- The context of a descriptor. -/
def fdCtx (io : IOManager κ) (fd : Nat) : FdContext κ :=
  io.fdContexts_.getD fd {}

/-- Write to the context of a descriptor. -/
def setCtx (io : IOManager κ) (fd : Nat) (ctx : FdContext κ) : IOManager κ :=
  { io with fdContexts_ := io.fdContexts_.set fd ctx }

/-- `contextResize`. -/
def contextResize (io : IOManager κ) (size : Nat) : IOManager κ :=
  { io with
    fdContexts_ := io.fdContexts_.take size ++
      List.replicate (size - io.fdContexts_.length) {} }

/-- A `CondPanic` whose condition fails ends the process. -/
def panic (io : IOManager κ) (panic : Panic) : IOManager κ × List (IoEvent κ) :=
  ({ io with aborted := true }, [.panicked panic])

/-- `addEvent`. -/
def addEvent (io : IOManager κ) (caller : Caller) (fd : Nat) (event : Event) (cb : Option κ)
    (ok : Bool) : IOManager κ × List (IoEvent κ) :=
  let io := if fd < io.fdContexts_.length then io else io.contextResize (fd * 3 / 2)
  let ctx := io.fdCtx fd
  if ctx.events event then io.panic .registed
  else
    let op := if ctx.events.any then CtlOp.mod else CtlOp.add
    match epollCtl io.epoll op fd (Function.update ctx.events event true) ok with
    | none => (io, [.failed])
    | some epoll =>
        let io := { io with epoll := epoll, pendingEventCnt_ := io.pendingEventCnt_ + 1 }
        let context := ctx.context event
        let ctx := ctx.put event true (caller.eventContext cb)
        if context.scheduler.isSome ∨ context.fiber.isSome ∨ context.cb.isSome then
          io.panic .contextInUse
        else if cb.isNone ∧ caller.running = false then io.panic .notRunning
        else (io.setCtx fd ctx, [.registered fd event (caller.continuation cb)])

/-- `delEvent`. -/
def delEvent (io : IOManager κ) (fd : Nat) (event : Event) (ok : Bool) :
    IOManager κ × List (IoEvent κ) :=
  let ctx := io.fdCtx fd
  if io.fdContexts_.length ≤ fd then (io, [.failed])
  else if ctx.events event = false then (io, [.failed])
  else
    let new_events := Function.update ctx.events event false
    let op := if Events.any new_events then CtlOp.mod else CtlOp.del
    match epollCtl io.epoll op fd new_events ok with
    | none => (io, [.failed])
    | some epoll =>
        ({ io with epoll := epoll, pendingEventCnt_ := io.pendingEventCnt_ - 1 }.setCtx fd
          (ctx.reset event), [.deleted fd event])

/-- Trigger events of one descriptor, in turn, and count each of them. -/
def trigger (fd : Nat) : List Event → IOManager κ → IOManager κ × List (IoEvent κ)
  | [], io => (io, [])
  | event :: rest, io =>
      match (io.fdCtx fd).triggerEvent event with
      | .error panic => io.panic panic
      | .ok (ctx, scheduler, task) =>
          let triggered := trigger fd rest
            ({ io with pendingEventCnt_ := io.pendingEventCnt_ - 1 }.setCtx fd ctx)
          (triggered.1, .scheduled fd event scheduler task :: triggered.2)

/-- `cancelEvent`. -/
def cancelEvent (io : IOManager κ) (fd : Nat) (event : Event) (ok : Bool) :
    IOManager κ × List (IoEvent κ) :=
  let ctx := io.fdCtx fd
  if io.fdContexts_.length ≤ fd then (io, [.failed])
  else if ctx.events event = false then (io, [.failed])
  else
    let new_events := Function.update ctx.events event false
    let op := if Events.any new_events then CtlOp.mod else CtlOp.del
    match epollCtl io.epoll op fd new_events ok with
    | none => (io, [.failed])
    | some epoll => trigger fd [event] { io with epoll := epoll }

/-- `cancelAll`.  Triggering one event does not change the bit of the other. -/
def cancelAll (io : IOManager κ) (fd : Nat) (ok : Bool) : IOManager κ × List (IoEvent κ) :=
  let ctx := io.fdCtx fd
  if io.fdContexts_.length ≤ fd then (io, [.failed])
  else if ctx.events.any = false then (io, [.failed])
  else
    match epollCtl io.epoll .del fd (fun _ => false) ok with
    | none => (io, [.failed])
    | some epoll =>
        let cleared := trigger fd ctx.events.toList { io with epoll := epoll }
        if cleared.1.aborted = false ∧ (cleared.1.fdCtx fd).events.any = true then
          ({ cleared.1 with aborted := true }, cleared.2 ++ [.panicked .notClear])
        else cleared

/-- The part of `idle` that acts on one report. -/
def dispatch (io : IOManager κ) (report : Report) (ok : Bool) : IOManager κ × List (IoEvent κ) :=
  let ctx := io.fdCtx report.fd
  let real_events := report.real_events ctx.events
  let dispatched := IoEvent.dispatched ⟨ctx.events, real_events, ok⟩
  if Events.any (fun event => ctx.events event && real_events event) then
    let left_events : Events := fun event => ctx.events event && !real_events event
    let op := if left_events.any then CtlOp.mod else CtlOp.del
    match epollCtl io.epoll op report.fd left_events ok with
    | none => (io, [dispatched, .failed])
    | some epoll =>
        let triggered := trigger report.fd real_events.toList { io with epoll := epoll }
        (triggered.1, dispatched :: triggered.2)
  else (io, [dispatched])

end IOManager

/-! ## Steps -/

/-- The calls of the threads and of the idle loops; `ok` is whether the kernel
takes a fitting `epoll_ctl`. -/
inductive IoCall (κ : Type u)
  | addEvent (caller : Caller) (fd : Nat) (event : Event) (cb : Option κ) (ok : Bool)
  | delEvent (fd : Nat) (event : Event) (ok : Bool)
  | cancelEvent (fd : Nat) (event : Event) (ok : Bool)
  | cancelAll (fd : Nat) (ok : Bool)
  /-- An idle loop takes a report from `epoll_wait`. -/
  | epollWait (report : Report)
  /-- An idle loop acts on a report that it has taken. -/
  | dispatch (i : Nat) (ok : Bool)

namespace IOManager

/-- One call of a live process. -/
def perform (io : IOManager κ) : IoCall κ → Option (IOManager κ × List (IoEvent κ))
  | .addEvent caller fd event cb ok => some (io.addEvent caller fd event cb ok)
  | .delEvent fd event ok => some (io.delEvent fd event ok)
  | .cancelEvent fd event ok => some (io.cancelEvent fd event ok)
  | .cancelAll fd ok => some (io.cancelAll fd ok)
  | .epollWait report =>
      if report.Ready io.epoll then some ({ io with reports := io.reports ++ [report] }, [])
      else none
  | .dispatch i ok =>
      io.reports[i]?.map fun report =>
        { io with reports := io.reports.eraseIdx i }.dispatch report ok

/-- One call, or none after the end of the process. -/
def step (io : IOManager κ) (call : IoCall κ) : Option (IOManager κ × List (IoEvent κ)) :=
  if io.aborted then none else io.perform call

/-- `addEvent` is called by a fiber of a scheduler thread for an event that is not
registered. -/
def Admissible (io : IOManager κ) : IoCall κ → Prop
  | .addEvent caller fd event _ _ =>
      caller.scheduler.isSome ∧ caller.running = true ∧ (io.fdCtx fd).events event = false
  | .delEvent _ _ _ | .cancelEvent _ _ _ | .cancelAll _ _ | .epollWait _ | .dispatch _ _ => True

instance (io : IOManager κ) : (call : IoCall κ) → Decidable (io.Admissible call)
  | .addEvent _ _ _ _ _ => inferInstanceAs (Decidable (_ ∧ _ ∧ _))
  | .delEvent _ _ _ | .cancelEvent _ _ _ | .cancelAll _ _ | .epollWait _ | .dispatch _ _ =>
      isTrue trivial

end IOManager

end CppRaft.Fiber
