import CppRaft.Container.Total
import CppRaft.Fiber.IOManager

/-!
# Registered events

The counter agrees with the masks of the contexts, and so do the contexts with
their masks.  Registering an event and resetting it keep this, whatever the
kernel is told.
-/

namespace CppRaft.Fiber

open CppRaft.Container
open CppRaft.Transition

universe u

variable {κ : Type u}

/-- How many events of a descriptor are registered. -/
def FdContext.registeredCnt (ctx : FdContext κ) : Nat :=
  (ctx.events .read).toNat + (ctx.events .write).toNat

/-- The continuation that waits for an event. -/
def FdContext.pending (ctx : FdContext κ) (event : Event) : Option (Continuation κ) :=
  if ctx.events event then (ctx.context event).task else none

/-- What the kernel should be told about a descriptor. -/
def FdContext.interest (ctx : FdContext κ) : Option Events :=
  if ctx.events.any then some ctx.events else none

/-- The contexts of the registered events are filled, and those of the others are empty. -/
structure FdContext.Sound (ctx : FdContext κ) : Prop where
  filled : ∀ event, ctx.events event = true → (ctx.context event).Filled
  empty : ∀ event, ctx.events event = false → ctx.context event = {}

theorem FdContext.sound_default : ({} : FdContext κ).Sound where
  filled := by
    intro event set
    cases set
  empty := fun _ _ => rfl

/-! ## Masks -/

@[simp]
theorem Events.mem_toList {events : Events} {event : Event} :
    event ∈ events.toList ↔ events event = true := by
  cases event with
  | read => simp [toList, List.mem_filter]
  | write => simp [toList, List.mem_filter]

theorem Events.nodup_toList (events : Events) : events.toList.Nodup := by
  have pair : [Event.read, .write].Nodup := by decide
  exact pair.sublist List.filter_sublist

/-! ## The kernel -/

/-- What an operation leaves of a registration. -/
def CtlOp.interest (op : CtlOp) (events : Events) : Option Events :=
  match op with
  | .add | .mod => some events
  | .del => none

theorem epollCtl_eq_some {epoll epoll' : Nat → Option Events} {op : CtlOp} {fd : Nat}
    {events : Events} {ok : Bool} (told : epollCtl epoll op fd events ok = some epoll') :
    ok = true ∧ epoll' = Function.update epoll fd (op.interest events) := by
  unfold epollCtl at told
  split at told
  · cases told
    exact ⟨rfl, rfl⟩
  · cases told
    exact ⟨rfl, rfl⟩
  · cases told
    exact ⟨rfl, rfl⟩
  · cases told

/-- The operation on a registered descriptor that a mask asks for. -/
theorem interest_ite (events : Events) :
    (if events.any then CtlOp.mod else CtlOp.del).interest events =
      if events.any then some events else none := by
  cases events.any with
  | true => rfl
  | false => rfl

/-- A change or removal of a registration fails only if the kernel lets it fail. -/
theorem epollCtl_eq_none {epoll : Nat → Option Events} {fd : Nat} {events : Events} {ok : Bool}
    {old : Events} (there : epoll fd = some old)
    (refused : epollCtl epoll (if events.any then CtlOp.mod else CtlOp.del) fd events ok = none) :
    ok = false := by
  cases ok with
  | false => rfl
  | true =>
      cases set : events.any with
      | true => simp [epollCtl, set, there] at refused
      | false => simp [epollCtl, set, there] at refused

/-! ## One context -/

namespace FdContext

variable {ctx : FdContext κ} {event event' : Event} {bit : Bool} {context : EventContext κ}

@[simp]
theorem put_events_self : (ctx.put event bit context).events event = bit :=
  Function.update_self _ _ _

@[simp]
theorem put_context_self : (ctx.put event bit context).context event = context :=
  Function.update_self _ _ _

theorem put_events_of_ne (other : event' ≠ event) :
    (ctx.put event bit context).events event' = ctx.events event' :=
  Function.update_of_ne other _ _

theorem put_context_of_ne (other : event' ≠ event) :
    (ctx.put event bit context).context event' = ctx.context event' :=
  Function.update_of_ne other _ _

theorem registeredCnt_put (ctx : FdContext κ) (event : Event) (bit : Bool)
    (context : EventContext κ) : (ctx.put event bit context).registeredCnt +
      (ctx.events event).toNat = ctx.registeredCnt + bit.toNat := by
  cases event with
  | read =>
      rw [registeredCnt, put_events_self, put_events_of_ne (by decide), registeredCnt]
      omega
  | write =>
      rw [registeredCnt, put_events_self, put_events_of_ne (by decide), registeredCnt]
      omega

theorem interest_put_true :
    (ctx.put event true context).interest = some (Function.update ctx.events event true) := by
  have set : Events.any (Function.update ctx.events event true) = true := by
    cases event with
    | read => simp [Events.any]
    | write => simp [Events.any]
  rw [interest, put, if_pos set]

theorem Sound.put (sound : ctx.Sound) (filled : bit = true → context.Filled)
    (empty : bit = false → context = {}) : (ctx.put event bit context).Sound where
  filled := by
    intro event' set
    by_cases same : event' = event
    · subst same
      rw [put_events_self] at set
      rw [put_context_self]
      exact filled set
    · rw [put_events_of_ne same] at set
      rw [put_context_of_ne same]
      exact sound.filled event' set
  empty := by
    intro event' clear
    by_cases same : event' = event
    · subst same
      rw [put_events_self] at clear
      rw [put_context_self]
      exact empty clear
    · rw [put_events_of_ne same] at clear
      rw [put_context_of_ne same]
      exact sound.empty event' clear

end FdContext

theorem EventContext.Filled.task_isSome {context : EventContext κ} (filled : context.Filled) :
    context.task.isSome := by
  obtain ⟨_, one⟩ := filled
  rw [task]
  cases cb : context.cb with
  | some callback => rfl
  | none =>
      rw [cb] at one
      rw [Option.isSome_map]
      cases fiber : context.fiber with
      | none =>
          rw [fiber] at one
          exact absurd rfl one
      | some f => rfl

/-- A registered event is triggered without a panic. -/
theorem FdContext.Sound.triggerEvent {ctx : FdContext κ} {event : Event} (sound : ctx.Sound)
    (set : ctx.events event = true) : ∃ scheduler continuation,
      (ctx.context event).task = some continuation ∧
        ctx.triggerEvent event = .ok (ctx.reset event, scheduler, some continuation) := by
  have filled := sound.filled event set
  obtain ⟨scheduler, found⟩ := Option.isSome_iff_exists.mp filled.1
  obtain ⟨continuation, waiting⟩ := Option.isSome_iff_exists.mp filled.task_isSome
  refine ⟨scheduler, continuation, waiting, ?_⟩
  rw [FdContext.triggerEvent, if_pos set, found, waiting]

/-- What `addEvent` writes is filled when it runs in a scheduler thread. -/
theorem Caller.filled {caller : Caller} (scheduler : caller.scheduler.isSome) (cb : Option κ) :
    (caller.eventContext cb).Filled := by
  cases cb with
  | none => exact ⟨scheduler, by simp [eventContext]⟩
  | some callback => exact ⟨scheduler, by simp [eventContext]⟩

theorem Caller.task_eventContext (caller : Caller) (cb : Option κ) :
    (caller.eventContext cb).task = some (caller.continuation cb) := by
  cases cb with
  | none => rfl
  | some callback => rfl

theorem FdContext.triggerEvent_ok {ctx ctx' : FdContext κ} {event : Event} {scheduler : Nat}
    {task : Option (Continuation κ)}
    (triggered : ctx.triggerEvent event = .ok (ctx', scheduler, task)) :
    ctx.events event = true ∧ ctx' = ctx.reset event := by
  rw [triggerEvent] at triggered
  split at triggered
  · rename_i set
    split at triggered
    · cases triggered
    · cases triggered
      exact ⟨set, rfl⟩
  · cases triggered

theorem registeredCnt_replicate (k : Nat) :
    total FdContext.registeredCnt (List.replicate k ({} : FdContext κ)) = 0 := by
  apply total_eq_zero
  intro ctx member
  rw [List.eq_of_mem_replicate member]
  rfl

namespace IOManager

variable {io io' : IOManager κ} {fd fd' : Nat} {ctx : FdContext κ} {event : Event}

/-- How many pairs of a descriptor and an event are registered. -/
def registeredCnt (io : IOManager κ) : Nat :=
  total FdContext.registeredCnt io.fdContexts_

/-- A pair is registered only in a context that exists. -/
theorem lt_length (set : (io.fdCtx fd).events event = true) : fd < io.fdContexts_.length := by
  by_contra outside
  rw [fdCtx, List.getD_eq_getElem?_getD,
    List.getElem?_eq_none (Nat.le_of_not_lt outside)] at set
  cases set

/-! ## The table -/

theorem fdCtx_setCtx_self (inside : fd < io.fdContexts_.length) :
    (io.setCtx fd ctx).fdCtx fd = ctx := by
  simp [fdCtx, setCtx, List.getD_eq_getElem?_getD, inside]

theorem fdCtx_setCtx_of_ne (other : fd' ≠ fd) : (io.setCtx fd ctx).fdCtx fd' = io.fdCtx fd' := by
  simp [fdCtx, setCtx, List.getD_eq_getElem?_getD, other.symm]

theorem getElem?_of_lt (inside : fd < io.fdContexts_.length) :
    io.fdContexts_[fd]? = some (io.fdCtx fd) := by
  rw [fdCtx, List.getD_eq_getElem?_getD, List.getElem?_eq_getElem inside]
  rfl

theorem registeredCnt_setCtx (inside : fd < io.fdContexts_.length) :
    (io.setCtx fd ctx).registeredCnt + (io.fdCtx fd).registeredCnt =
      io.registeredCnt + ctx.registeredCnt :=
  total_set FdContext.registeredCnt (getElem?_of_lt inside) ctx

/-! ## The invariant -/

/-- The table has its first contexts, the counter is the number of registered
pairs, and the contexts agree with their masks. -/
structure Sound (io : IOManager κ) : Prop where
  size : 32 ≤ io.fdContexts_.length
  counted : io.pendingEventCnt_ = io.registeredCnt
  contexts : ∀ fd, (io.fdCtx fd).Sound

theorem fdCtx_new : (new : IOManager κ).fdCtx fd = {} := by
  rw [fdCtx, new, List.getD_eq_getElem?_getD, List.getElem?_replicate]
  split <;> rfl

theorem sound_new : (new : IOManager κ).Sound where
  size := by simp [new]
  counted := by
    have none : (new : IOManager κ).registeredCnt = 0 := registeredCnt_replicate 32
    rw [none]
    rfl
  contexts := by
    intro fd
    rw [fdCtx_new]
    exact FdContext.sound_default

/-- The manager with another context and another count. -/
theorem Sound.setCtx (sound : io.Sound) (inside : fd < io.fdContexts_.length) (kept : ctx.Sound)
    {count : Int} (counted : count + (io.fdCtx fd).registeredCnt = io.pendingEventCnt_ +
      ctx.registeredCnt) :
    ({ io with pendingEventCnt_ := count }.setCtx fd ctx).Sound where
  size := by
    rw [IOManager.setCtx, List.length_set]
    exact sound.size
  counted := by
    have changed : ({ io with pendingEventCnt_ := count }.setCtx fd ctx).registeredCnt +
        (io.fdCtx fd).registeredCnt = io.registeredCnt + ctx.registeredCnt :=
      registeredCnt_setCtx inside
    have before := sound.counted
    change count = _
    omega
  contexts := by
    intro fd'
    by_cases same : fd' = fd
    · subst same
      have here : ({ io with pendingEventCnt_ := count }.setCtx fd' ctx).fdCtx fd' = ctx :=
        fdCtx_setCtx_self inside
      rw [here]
      exact kept
    · rw [fdCtx_setCtx_of_ne same]
      exact sound.contexts fd'

/-- A new registration. -/
theorem Sound.register (sound : io.Sound) (inside : fd < io.fdContexts_.length)
    (free : (io.fdCtx fd).events event = false) {context : EventContext κ}
    (filled : context.Filled) :
    ({ io with pendingEventCnt_ := io.pendingEventCnt_ + 1 }.setCtx fd
      ((io.fdCtx fd).put event true context)).Sound := by
  apply sound.setCtx inside
  · exact (sound.contexts fd).put (fun _ => filled) (fun clear => by cases clear)
  · have changed := (io.fdCtx fd).registeredCnt_put event true context
    rw [free, Bool.toNat_false, Bool.toNat_true] at changed
    omega

/-- The manager after a registration has ended. -/
def clear (io : IOManager κ) (fd : Nat) (event : Event) : IOManager κ :=
  { io with pendingEventCnt_ := io.pendingEventCnt_ - 1 }.setCtx fd ((io.fdCtx fd).reset event)

theorem fdCtx_clear_self (set : (io.fdCtx fd).events event = true) :
    (io.clear fd event).fdCtx fd = (io.fdCtx fd).reset event :=
  fdCtx_setCtx_self (lt_length set)

theorem fdCtx_clear_of_ne (other : fd' ≠ fd) : (io.clear fd event).fdCtx fd' = io.fdCtx fd' :=
  fdCtx_setCtx_of_ne other

theorem Sound.clear (sound : io.Sound) (set : (io.fdCtx fd).events event = true) :
    (io.clear fd event).Sound := by
  apply sound.setCtx (lt_length set)
  · exact (sound.contexts fd).put (fun set => by cases set) (fun _ => rfl)
  · have changed := (io.fdCtx fd).registeredCnt_put event false {}
    rw [set, Bool.toNat_false, Bool.toNat_true] at changed
    rw [FdContext.reset]
    omega

/-- What the kernel and the idle loops have is no part of it. -/
theorem Sound.told (sound : io.Sound) (epoll : Nat → Option Events) (reports : List Report) :
    ({ io with epoll := epoll, reports := reports } : IOManager κ).Sound :=
  ⟨sound.size, sound.counted, sound.contexts⟩

/-! ## A longer table -/

theorem fdCtx_contextResize {size : Nat} (longer : io.fdContexts_.length ≤ size) :
    (io.contextResize size).fdCtx fd = io.fdCtx fd := by
  rw [fdCtx, fdCtx, contextResize, List.take_of_length_le longer, List.getD_eq_getElem?_getD,
    List.getD_eq_getElem?_getD]
  by_cases inside : fd < io.fdContexts_.length
  · rw [List.getElem?_append_left inside]
  · rw [List.getElem?_append_right (Nat.le_of_not_lt inside), List.getElem?_replicate,
      List.getElem?_eq_none (Nat.le_of_not_lt inside)]
    split <;> rfl

theorem Sound.contextResize (sound : io.Sound) {size : Nat}
    (longer : io.fdContexts_.length ≤ size) : (io.contextResize size).Sound where
  size := by
    have := sound.size
    rw [IOManager.contextResize, List.take_of_length_le longer, List.length_append]
    omega
  counted := by
    rw [IOManager.contextResize, registeredCnt, List.take_of_length_le longer, total_append,
      registeredCnt_replicate, Nat.add_zero]
    exact sound.counted
  contexts := by
    intro fd
    rw [fdCtx_contextResize longer]
    exact sound.contexts fd

/-- The context of the descriptor of `addEvent` exists when it is looked up. -/
theorem Sound.grow (sound : io.Sound) (fd : Nat) :
    ∃ table, (if fd < io.fdContexts_.length then io else io.contextResize (fd * 3 / 2)) =
        { io with fdContexts_ := table } ∧ ({ io with fdContexts_ := table } : IOManager κ).Sound ∧
      fd < table.length ∧
      ∀ fd', ({ io with fdContexts_ := table } : IOManager κ).fdCtx fd' = io.fdCtx fd' := by
  have size := sound.size
  by_cases inside : fd < io.fdContexts_.length
  · rw [if_pos inside]
    exact ⟨io.fdContexts_, rfl, sound, inside, fun _ => rfl⟩
  · rw [if_neg inside]
    have longer : io.fdContexts_.length ≤ fd * 3 / 2 := by omega
    refine ⟨_, rfl, sound.contextResize longer, ?_, fun fd' => fdCtx_contextResize longer⟩
    rw [List.length_append, List.length_take, List.length_replicate]
    omega

end IOManager

end CppRaft.Fiber
