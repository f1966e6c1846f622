import CppRaft.Fiber.Custody

/-!
# Handing over fibers

A run loop finds a fiber suspended exactly if its wake-up does not overtake the
call that has registered it: a hooked function registers first and yields later.
-/

namespace CppRaft.Fiber

open CppRaft.Container
open CppRaft.Transition

variable {f g t : Nat}

/-- The fiber is `READY` when it is taken from `tasks_`, and nobody runs it when it
is resumed. -/
def SchedulerEvent.Suspended : SchedulerEvent → Prop
  | .took _ _ found => found.state_ = .ready
  | .resumed _ _ found elsewhere => found.state_ = .ready ∧ elsewhere = false

/-- The fiber is not between its registration and the write of `state_` in `yield`
when it is taken, and not between this and `swapcontext` when it is resumed. -/
def SchedulerEvent.Outside : SchedulerEvent → Prop
  | .took _ _ found => ∀ call, found.stage ≠ .registered call
  | .resumed _ _ found _ => ∀ call, found.stage ≠ .yielding call

instance : (e : SchedulerEvent) → Decidable e.Suspended
  | .took _ _ found => inferInstanceAs (Decidable (found.state_ = .ready))
  | .resumed _ _ found elsewhere =>
      inferInstanceAs (Decidable (found.state_ = .ready ∧ elsewhere = false))

namespace Scheduler

variable {s s' : Scheduler} {fiber fiber' : FiberObject}

/-! ## Queues -/

@[simp]
theorem pending_setFiber (s : Scheduler) (f : Nat) (fiber : FiberObject) (g : Nat) :
    (s.setFiber f fiber).pending g = s.pending g :=
  rfl

@[simp]
theorem pending_setThread (s : Scheduler) (t : Nat) (stage : ThreadStage) (g : Nat) :
    (s.setThread t stage).pending g = s.pending g :=
  rfl

theorem pending_push (s : Scheduler) (tasks : List SchedulerTask) (g : Nat) :
    (s.push tasks).pending g = s.pending g + taskWakes g tasks := by
  have appended : taskWakes g (s.tasks_ ++ tasks) = taskWakes g s.tasks_ + taskWakes g tasks :=
    total_append _ _ _
  change taskWakes g (s.tasks_ ++ tasks) + s.timers.wakes g + s.io.wakes g =
    taskWakes g s.tasks_ + s.timers.wakes g + s.io.wakes g + taskWakes g tasks
  omega

theorem pending_timers (s : Scheduler) (tm : TimerManager Callback) (g : Nat) :
    ({ s with timers := tm } : Scheduler).pending g + s.timers.wakes g =
      s.pending g + tm.wakes g := by
  change taskWakes g s.tasks_ + tm.wakes g + s.io.wakes g + s.timers.wakes g =
    taskWakes g s.tasks_ + s.timers.wakes g + s.io.wakes g + tm.wakes g
  omega

theorem pending_timers_le {tm : TimerManager Callback} (fewer : tm.wakes g ≤ s.timers.wakes g) :
    ({ s with timers := tm } : Scheduler).pending g ≤ s.pending g := by
  have changed := s.pending_timers tm g
  omega

theorem pending_io (s : Scheduler) (io : IOManager Empty) (g : Nat) :
    ({ s with io := io } : Scheduler).pending g + s.io.wakes g = s.pending g + io.wakes g := by
  change taskWakes g s.tasks_ + s.timers.wakes g + io.wakes g + s.io.wakes g =
    taskWakes g s.tasks_ + s.timers.wakes g + s.io.wakes g + io.wakes g
  omega

/-- What the events give to the scheduler was on its way. -/
theorem pending_ioTasks {result : IOManager Empty × List (IoEvent Empty)}
    (moves : s.io.Moves g result) :
    (({ s with io := result.1 } : Scheduler).push (ioTasks result.2)).pending g ≤ s.pending g := by
  have moved : result.1.wakes g + taskWakes g (ioTasks result.2) ≤ s.io.wakes g := moves
  have changed := s.pending_io result.1 g
  rw [pending_push]
  omega

/-! ## Timers of a call -/

theorem arm_spec {io : DoIo} {now address : UInt64}
    (armed : s.arm f fiber io now address = some s') (once : s.timers.Once) :
    ∃ tm timer, s' = ({ s with timers := tm } : Scheduler).setFiber f
        { fiber with stage := .blocked { io with timer := timer } } ∧
      tm.Once ∧ ∀ g, tm.wakes g = s.timers.wakes g := by
  unfold arm at armed
  split at armed
  · cases armed
    exact ⟨s.timers, none, rfl, once, fun _ => rfl⟩
  · split at armed
    · cases armed
      exact ⟨_, _, rfl, once.addTimer _ _ _ _, fun g => TimerManager.wakes_addTimer _ _ _ _⟩
    · cases armed

theorem disarm_spec {io : DoIo} (disarmed : s.disarm io = some s') (once : s.timers.Once) :
    ∃ tm, s' = { s with timers := tm } ∧ tm.Once ∧ ∀ g, tm.wakes g ≤ s.timers.wakes g := by
  unfold disarm at disarmed
  split at disarmed
  · cases disarmed
    exact ⟨s.timers, rfl, once, fun _ => Nat.le_refl _⟩
  · rw [Option.map_eq_some_iff] at disarmed
    obtain ⟨⟨tm, done⟩, cancelled, same⟩ := disarmed
    exact ⟨tm, same.symm, (TimerManager.cancel_spec (g := 0) once cancelled).1,
      fun g => (TimerManager.cancel_spec once cancelled).2⟩

/-! ## Fibers -/

/-- The timer of a `sleep` has the wake-up. -/
theorem Custody.sleep (custody : s.Custody) (thread : s.threads[t]? = some (.runs f))
    (found : s.fibers[f]? = some fiber) (user : fiber.stage = .user) (ms now address : UInt64) :
    (({ s with timers := (s.timers.addTimer ms (.wake f) false now address).1 } :
      Scheduler).setFiber f { fiber with stage := .registered none }).Custody := by
  have state := custody.state_of_found found
  rw [user] at state
  refine custody.goesOn thread found rfl rfl ?_ ?_ ?_ state (custody.once.addTimer _ _ _ _)
  · intro g
    have added : (s.timers.addTimer ms (.wake f) false now address).1.wakes g =
        s.timers.wakes g + mark f g := TimerManager.wakes_addTimer _ _ _ _
    have changed := s.pending_timers (s.timers.addTimer ms (.wake f) false now address).1 g
    rw [FiberObject.wakes, FiberObject.wakes, user, pending_setFiber]
    change _ + 0 + mark f g * 0 ≤ _ + 0 + mark f g * 1
    omega
  · rw [user]
    exact Nat.le_refl _
  · rw [user]
    rfl

/-- The wake-up goes from the callback to the queue. -/
theorem Custody.wake (custody : s.Custody) (thread : s.threads[t]? = some (.runs f))
    (found : s.fibers[f]? = some fiber) {h : Nat} (calling : fiber.stage = .calling (.wake h)) :
    ((s.push [⟨.fiber h, none⟩]).setFiber f { fiber with stage := .returned }).Custody := by
  have state := custody.state_of_found found
  rw [calling] at state
  refine custody.goesOn thread found rfl rfl ?_ ?_ ?_ state custody.once
  · intro g
    rw [FiberObject.wakes, FiberObject.wakes, calling, pending_setFiber, pending_push]
    change _ + mark h g + 0 + mark f g * 0 ≤ _ + mark h g + mark f g * 0
    omega
  · rw [calling]
    exact Nat.le_refl _
  · rw [calling]
    rfl

/-- `addEvent` in `do_io`. -/
theorem Custody.addEvent (custody : s.Custody) (thread : s.threads[t]? = some (.runs f))
    (found : s.fibers[f]? = some fiber) {io : DoIo} (blocked : fiber.stage = .blocked io)
    {added : IOManager Empty} {stage : Stage}
    (wakes : stage = .refused io ∧ (∀ g, added.wakes g ≤ s.io.wakes g) ∨
      stage = .registered (some io) ∧ ∀ g, added.wakes g ≤ s.io.wakes g + mark f g) :
    (({ s with io := added } : Scheduler).setFiber f { fiber with stage := stage }).Custody := by
  have state := custody.state_of_found found
  rw [blocked] at state
  rcases wakes with ⟨rfl, without⟩ | ⟨rfl, made⟩
  · refine custody.quiet thread found blocked (Stage.quiet_blocked io) (Stage.quiet_refused io)
      rfl rfl ?_ state custody.once
    intro g
    have changed := s.pending_io added g
    have fewer := without g
    rw [pending_setFiber]
    omega
  · -- The event has the wake-up.
    refine custody.goesOn thread found rfl rfl ?_ ?_ ?_ state custody.once
    · intro g
      have changed := s.pending_io added g
      have more := made g
      rw [FiberObject.wakes, FiberObject.wakes, blocked, pending_setFiber]
      change _ + 0 + mark f g * 0 ≤ _ + 0 + mark f g * 1
      omega
    · rw [blocked]
      exact Nat.le_refl _
    · rw [blocked]
      rfl

/-- A fiber goes on between two stages of which no wake-up is expected. -/
theorem Custody.setStage (custody : s.Custody) (thread : s.threads[t]? = some (.runs f))
    (found : s.fibers[f]? = some fiber) {stage stage' : Stage} (here : fiber.stage = stage)
    (quiet : stage.Quiet) (quiet' : stage'.Quiet) (same : stage.state = stage'.state) :
    (s.setFiber f { fiber with stage := stage' }).Custody := by
  have state := custody.state_of_found found
  rw [here] at state
  exact custody.quiet thread found here quiet quiet' rfl rfl (fun _ => Nat.le_refl _)
    (state.trans same) custody.once

theorem Custody.setTinfos (custody : s.Custody) (tinfos : List TimerInfo) :
    ({ s with tinfos := tinfos } : Scheduler).Custody :=
  ⟨custody.wakes, custody.held, custody.run, custody.state, custody.once⟩

/-- The timer of a call of `do_io` is set; it does not wake the fiber. -/
theorem Custody.arm (custody : s.Custody) (thread : s.threads[t]? = some (.runs f))
    (found : s.fibers[f]? = some fiber) {stage : Stage} (here : fiber.stage = stage)
    (quiet : stage.Quiet) (running : stage.state = .running) {io : DoIo} {now address : UInt64}
    (armed : s.arm f fiber io now address = some s') : s'.Custody := by
  obtain ⟨tm, timer, rfl, once, same⟩ := arm_spec armed custody.once
  have kept : ({ s with timers := tm } : Scheduler).Custody :=
    custody.moves rfl rfl (fun g => pending_timers_le (Nat.le_of_eq (same g))) once
  exact kept.setStage thread found here quiet (Stage.quiet_blocked _) running

/-- The timer of a call of `do_io` is cancelled. -/
theorem Custody.disarm (custody : s.Custody) {io : DoIo} (done : s.disarm io = some s') :
    s'.Custody ∧ s'.threads = s.threads ∧ s'.fibers = s.fibers := by
  obtain ⟨tm, rfl, once, fewer⟩ := disarm_spec done custody.once
  exact ⟨custody.moves rfl rfl (fun g => pending_timers_le (fewer g)) once, rfl, rfl⟩

theorem Custody.returnIo (custody : s.Custody) (thread : s.threads[t]? = some (.runs f))
    (found : s.fibers[f]? = some fiber) {stage : Stage} (here : fiber.stage = stage)
    (quiet : stage.Quiet) (running : stage.state = .running) (io : DoIo) :
    (s.returnIo f fiber io).Custody :=
  (custody.setTinfos (s.tinfos.modify io.tinfo fun info => { info with alive := false })).setStage
    thread found here quiet Stage.quiet_user running

/-- `cancelEvent` in `timeout`. -/
theorem Custody.cancelEvent (custody : s.Custody) (thread : s.threads[t]? = some (.runs f))
    (found : s.fibers[f]? = some fiber) {fd : Nat} {event : Event}
    (cancelling : fiber.stage = .cancelling fd event) (ok : Bool) :
    ((({ s with io := (s.io.cancelEvent fd event ok).1 } : Scheduler).push
      (ioTasks (s.io.cancelEvent fd event ok).2)).setFiber f
        { fiber with stage := .returned }).Custody := by
  have moved : (({ s with io := (s.io.cancelEvent fd event ok).1 } : Scheduler).push
      (ioTasks (s.io.cancelEvent fd event ok).2)).Custody :=
    custody.moves rfl rfl (fun g => pending_ioTasks IOManager.cancelEvent_moves) custody.once
  exact moved.setStage thread found cancelling (Stage.quiet_cancelling fd event)
    Stage.quiet_returned rfl

/-- `yield` sets the state of a fiber whose wake-up is registered. -/
theorem Custody.yields (custody : s.Custody) (thread : s.threads[t]? = some (.runs f))
    (found : s.fibers[f]? = some fiber) {call : Option DoIo}
    (registered : fiber.stage = .registered call) :
    (s.setFiber f ⟨.ready, .yielding call⟩).Custody := by
  refine custody.goesOn thread found rfl rfl ?_ ?_ ?_ rfl custody.once
  · intro g
    rw [FiberObject.wakes, FiberObject.wakes, registered]
    exact Nat.le_refl _
  · rw [registered]
    exact Nat.zero_le _
  · rw [registered]
    rfl

theorem Custody.fiberStep {call : FiberCall} (custody : s.Custody)
    (thread : s.threads[t]? = some (.runs f)) (found : s.fibers[f]? = some fiber)
    (stepped : s.fiberStep t f fiber call = some s') : s'.Custody := by
  unfold Scheduler.fiberStep at stepped
  split at stepped
  · rename_i ms now address user
    split at stepped
    · cases stepped
      exact custody.sleep thread found user ms now address
    · cases stepped
  · rename_i user
    exact (custody.setTinfos (s.tinfos ++ [⟨false, true⟩])).arm thread found user Stage.quiet_user
      rfl stepped
  · cases stepped
    exact custody.moves rfl rfl (fun g => pending_ioTasks IOManager.cancelAll_moves) custody.once
  · rename_i user
    cases stepped
    exact custody.setStage thread found user Stage.quiet_user Stage.quiet_returned rfl
  · rename_i h calling
    cases stepped
    exact custody.wake thread found calling
  · rename_i tinfo fd event calling
    split at stepped
    · cases stepped
      exact (custody.setTinfos (s.tinfos.set tinfo ⟨true, true⟩)).setStage thread found calling
        (Stage.quiet_timeout tinfo fd event) (Stage.quiet_cancelling fd event) rfl
    · cases stepped
      exact custody.setStage thread found calling (Stage.quiet_timeout tinfo fd event)
        Stage.quiet_returned rfl
  · rename_i fd event ok cancelling
    cases stepped
    exact custody.cancelEvent thread found cancelling ok
  · rename_i io ok blocked
    cases stepped
    apply custody.addEvent thread found blocked
    have cases := s.io.addEvent_wakes ⟨some 0, f, decide (fiber.state_ = .running)⟩ io.fd io.event
      ok
    generalize s.io.addEvent ⟨some 0, f, decide (fiber.state_ = .running)⟩ io.fd io.event none ok =
      added at cases ⊢
    split
    · right
      refine ⟨rfl, ?_⟩
      rcases cases with without | ⟨_, made⟩
      · exact fun g => Nat.le_trans (without g) (Nat.le_add_right _ _)
      · exact made
    · rename_i other
      left
      refine ⟨rfl, ?_⟩
      rcases cases with without | ⟨⟨fd', event', continuation, registered⟩, _⟩
      · exact without
      · exact absurd registered (other fd' event' continuation)
  · rename_i io refused
    rw [Option.map_eq_some_iff] at stepped
    obtain ⟨disarmed, done, rfl⟩ := stepped
    obtain ⟨kept, threads, fibers⟩ := custody.disarm done
    exact kept.returnIo (threads ▸ thread) (fibers ▸ found) refused (Stage.quiet_refused io) rfl io
  · rename_i call registered
    split at stepped
    · cases stepped
      exact custody.yields thread found registered
    · rename_i other
      have state := custody.state_of_found found
      rw [registered] at state
      exact absurd state other
  · rename_i call yielding
    cases stepped
    exact custody.leaves thread found yielding (fun g => rfl) rfl rfl rfl rfl rfl
  · rename_i io woken
    rw [Option.map_eq_some_iff] at stepped
    obtain ⟨disarmed, done, same⟩ := stepped
    obtain ⟨kept, threads, fibers⟩ := custody.disarm done
    split at same
    · subst same
      exact kept.returnIo (threads ▸ thread) (fibers ▸ found) woken (Stage.quiet_woken io) rfl io
    · subst same
      exact kept.setStage (threads ▸ thread) (fibers ▸ found) woken (Stage.quiet_woken io)
        (Stage.quiet_retrying io) rfl
  · rename_i io now address retrying
    exact custody.arm thread found retrying (Stage.quiet_retrying io) rfl stepped
  · rename_i io retrying
    cases stepped
    exact custody.returnIo thread found retrying (Stage.quiet_retrying io) rfl io
  · rename_i returned
    cases stepped
    exact custody.quiet thread found returned Stage.quiet_returned ⟨fun _ => rfl, rfl, rfl, rfl⟩
      rfl rfl (fun g => Nat.le_refl _) rfl custody.once
  · rename_i ended
    cases stepped
    exact custody.leaves thread found ended (fun g => rfl) rfl rfl rfl rfl rfl
  · cases stepped

/-! ## Idle threads -/

theorem Custody.idleStep {cbs : List Callback} {call : IdleCall} (custody : s.Custody)
    (thread : s.threads[t]? = some (.idling cbs)) (stepped : s.idleStep t cbs call = some s') :
    s'.Custody := by
  have once := custody.once
  cases call with
  | listExpiredCb now address =>
      rw [Scheduler.idleStep, Option.map_eq_some_iff] at stepped
      obtain ⟨⟨tm, expired⟩, listed, rfl⟩ := stepped
      have spec := fun g => TimerManager.listExpiredCb_spec (g := g) once listed
      refine custody.thread thread rfl rfl ?_ ?_ (fun g => rfl) (spec 0).1
      · intro g
        have moved := (spec g).2
        have changed := s.pending_timers tm g
        have together : total (Callback.wakes g) (cbs ++ expired.filterMap Prod.snd) =
            total (Callback.wakes g) cbs + TimerManager.listedWakes g expired :=
          total_append _ _ _
        rw [pending_setThread]
        change ({ s with timers := tm } : Scheduler).pending g +
          total (Callback.wakes g) (cbs ++ expired.filterMap Prod.snd) ≤
            _ + total (Callback.wakes g) cbs
        omega
      · exact fun g => Nat.add_le_add_left (custody.held g) _
  | scheduler =>
      cases cbs with
      | nil => cases stepped
      | cons cb rest =>
          rw [Scheduler.idleStep] at stepped
          cases stepped
          refine custody.thread thread rfl rfl ?_ ?_ (fun g => rfl) once
          · intro g
            rw [pending_setThread, pending_push]
            change _ + (cb.wakes g + 0) + total (Callback.wakes g) rest ≤
              _ + (cb.wakes g + total (Callback.wakes g) rest)
            omega
          · exact fun g => Nat.add_le_add_left (custody.held g) _
  | epollWait report =>
      rw [Scheduler.idleStep, Option.map_eq_some_iff] at stepped
      obtain ⟨polled, taken, rfl⟩ := stepped
      rw [IOManager.perform] at taken
      split at taken
      · cases taken
        exact custody.moves rfl rfl (fun g => Nat.le_refl _) once
      · cases taken
  | dispatch i ok =>
      rw [Scheduler.idleStep, Option.map_eq_some_iff] at stepped
      obtain ⟨acted, taken, rfl⟩ := stepped
      rw [IOManager.perform, Option.map_eq_some_iff] at taken
      obtain ⟨report, found, rfl⟩ := taken
      exact custody.moves rfl rfl (fun g => pending_ioTasks (IOManager.dispatch_moves report)) once
  | yield =>
      rw [Scheduler.idleStep] at stepped
      split at stepped
      · cases stepped
        exact custody.thread thread rfl rfl (fun g => Nat.add_le_add_left (Nat.zero_le _) _)
          (fun g => Nat.add_le_add_left (custody.held g) _) (fun g => rfl) once
      · cases stepped

/-! ## Run loops -/

/-- A fiber whose task is taken waits for it, and no run loop holds it. -/
theorem Custody.awaits_of_task (custody : s.Custody) {task : SchedulerTask}
    {rest : List SchedulerTask} (taken : takeTask t s.tasks_ = some (task, rest))
    (job : task.job = .fiber f) :
    1 + total (ThreadStage.holders f) s.threads ≤ s.count f Stage.awaits := by
  have moved : taskWakes f s.tasks_ = _ := takeTask_total (SchedulerTask.wakes f) taken
  rw [SchedulerTask.wakes, job, Job.wakes, mark_self] at moved
  have bound := custody.wakes f
  have held := total_mono (ThreadStage.holders_le_wakes f) s.threads
  rw [Scheduler.wakes, pending] at bound
  omega

theorem count_le_one (s : Scheduler) (f : Nat) : s.count f Stage.awaits ≤ 1 := by
  rw [count]
  cases s.fibers[f]? with
  | none => exact Nat.zero_le _
  | some fiber => exact fiber.stage.awaits_le_one

/-- The invariant holds unless a fiber was not suspended when it was handed over,
which happens exactly in its call. -/
def Handed (result : Scheduler × List SchedulerEvent) : Prop :=
  ((∀ e ∈ result.2, e.Suspended) ↔ ∀ e ∈ result.2, e.Outside) ∧
    ((∀ e ∈ result.2, e.Suspended) → result.1.Custody)

theorem Custody.handed (custody : s.Custody) : Handed (s, []) := by
  constructor
  · simp
  · exact fun _ => custody

theorem handed_singleton {e : SchedulerEvent} (suspended_iff : e.Suspended ↔ e.Outside)
    (kept : e.Suspended → s.Custody) : Handed (s, [e]) := by
  constructor
  · rw [List.forall_mem_singleton, List.forall_mem_singleton]
    exact suspended_iff
  · intro suspended
    exact kept (suspended e List.mem_cons_self)

/-- A thread gets a task. -/
theorem Custody.takes (custody : s.Custody) {task : SchedulerTask} {rest : List SchedulerTask}
    (thread : s.threads[t]? = some .looking) (taken : takeTask t s.tasks_ = some (task, rest))
    (held : ∀ f, task.job = .fiber f → s.count f Stage.rests = 1) :
    (({ s with tasks_ := rest } : Scheduler).setThread t (.holds task.job)).Custody := by
  refine custody.thread thread rfl rfl ?_ ?_ ?_ custody.once
  · intro g
    have moved : taskWakes g s.tasks_ = task.wakes g + taskWakes g rest :=
      takeTask_total (SchedulerTask.wakes g) taken
    change taskWakes g rest + s.timers.wakes g + s.io.wakes g + task.wakes g ≤
      taskWakes g s.tasks_ + s.timers.wakes g + s.io.wakes g + 0
    omega
  · intro g
    have before := custody.held g
    cases job : task.job with
    | cb callback => exact Nat.add_le_add_left before _
    | fiber f =>
        by_cases here : f = g
        · subst here
          have alone := custody.awaits_of_task taken job
          have ready := held f job
          have bound := s.count_le_one f
          rw [ThreadStage.holders, mark_self, ready]
          change _ ≤ 0 + 1
          omega
        · rw [ThreadStage.holders, mark_of_ne here]
          exact Nat.add_le_add_left before _
  · intro g
    cases task.job with
    | fiber f => rfl
    | cb callback => rfl

theorem Custody.take {result : Scheduler × List SchedulerEvent} (custody : s.Custody)
    (stepped : s.take t = some result) : Handed result := by
  unfold Scheduler.take at stepped
  split at stepped
  · rename_i looking
    split at stepped
    · cases stepped
      apply Custody.handed
      exact custody.thread looking rfl rfl (fun g => Nat.le_refl _)
        (fun g => Nat.add_le_add_left (custody.held g) _) (fun g => rfl) custody.once
    · rename_i task rest taken
      dsimp only at stepped
      split at stepped
      · rename_i callback job
        cases stepped
        apply Custody.handed
        apply custody.takes looking taken
        intro f other
        rw [job] at other
        cases other
      · rename_i f job
        have waits := custody.awaits_of_task taken job
        split at stepped
        · cases stepped
        · rename_i fiber found
          have state := custody.state_of_found found
          rw [count_of_found found] at waits
          have suspended_iff : (SchedulerEvent.took t f fiber).Suspended ↔
              (SchedulerEvent.took t f fiber).Outside := by
            rw [SchedulerEvent.Suspended, state]
            exact Stage.ready_iff (by omega)
          split at stepped
          · rename_i ready
            cases stepped
            apply handed_singleton suspended_iff
            intro _
            apply custody.takes looking taken
            intro f' same
            rw [job] at same
            cases same
            rw [count_of_found found]
            exact Stage.rests_eq_one (state ▸ ready)
          · rename_i other
            cases stepped
            apply handed_singleton suspended_iff
            intro ready
            exact absurd ready other
  · cases stepped

/-- A fiber that a run loop holds rests. -/
theorem Custody.rests_of_holds (custody : s.Custody)
    (holds : s.threads[t]? = some (.holds (.fiber f))) (found : s.fibers[f]? = some fiber) :
    1 ≤ fiber.stage.rests := by
  have held := custody.held f
  have holder := weight_le_total (ThreadStage.holders f) holds
  rw [ThreadStage.holders, mark_self] at holder
  rw [count_of_found found] at held
  exact Nat.le_trans holder held

/-- Exactly the stages in which a thread runs the fiber count one. -/
theorem Custody.contains_runs (custody : s.Custody) (found : s.fibers[f]? = some fiber) :
    s.threads.contains (.runs f) = false ↔ fiber.stage.runs = 0 := by
  rw [← runners_eq_zero_iff, custody.run f, count_of_found found]

/-- A run loop resumes the fiber that it holds. -/
theorem Custody.resumes (custody : s.Custody)
    (holds : s.threads[t]? = some (.holds (.fiber f))) (found : s.fibers[f]? = some fiber)
    (off : fiber.stage.runs = 0) :
    ((s.setFiber f ⟨.running, fiber.stage.resume⟩).setThread t (.runs f)).Custody := by
  obtain ⟨quiet, running, awaits, rests, wakes⟩ :=
    Stage.quiet_resume (custody.rests_of_holds holds found) off
  refine custody.update holds found rfl rfl ?_ ?_ ?_ running.symm custody.once
  · intro g
    rw [FiberObject.wakes, FiberObject.wakes, wakes, quiet.wakes, awaits, quiet.awaits]
    change s.pending g + 0 + 0 + mark f g * 1 ≤ s.pending g + 0 + mark f g + mark f g * 0
    omega
  · intro g
    rw [rests, quiet.rests]
    change 0 + mark f g * 1 ≤ mark f g + mark f g * 0
    omega
  · intro g
    rw [off, quiet.runs]
    change mark f g + mark f g * 0 = 0 + mark f g * 1
    omega

theorem Custody.resume {result : Scheduler × List SchedulerEvent} (custody : s.Custody)
    (stepped : s.resume t = some result) : Handed result := by
  unfold Scheduler.resume at stepped
  split at stepped
  · rename_i callback holds
    cases stepped
    apply Custody.handed
    refine custody.adds rfl ?_ ?_ ?_ (Stage.state_start callback).symm custody.once
    · intro g
      have moved := total_set (ThreadStage.wakes g) holds (.runs s.fibers.length)
      change _ + callback.wakes g = _ + 0 at moved
      rw [pending_setThread, FiberObject.wakes, Stage.wakes_start]
      change s.pending g + _ + total _ (s.threads.set t (.runs s.fibers.length)) ≤ _
      omega
    · intro g
      have moved := total_set (ThreadStage.holders g) holds (.runs s.fibers.length)
      exact Nat.le_of_eq moved
    · intro g
      have moved := total_set (ThreadStage.runners g) holds (.runs s.fibers.length)
      rw [Stage.runs_start, Nat.mul_one]
      exact moved
  · rename_i f holds
    split at stepped
    · cases stepped
    · rename_i fiber found
      dsimp only at stepped
      have ready := custody.rests_of_holds holds found
      have state : fiber.state_ = .ready :=
        (custody.state_of_found found).trans (Stage.state_of_rests ready)
      have suspended_iff :
          (SchedulerEvent.resumed t f fiber (s.threads.contains (.runs f))).Suspended ↔
            (SchedulerEvent.resumed t f fiber (s.threads.contains (.runs f))).Outside := by
        rw [SchedulerEvent.Outside, ← Stage.runs_eq_zero_iff ready, ← custody.contains_runs found]
        exact and_iff_right state
      split at stepped
      · rename_i broken
        cases stepped
        apply handed_singleton suspended_iff
        intro suspended
        rcases broken with other | elsewhere
        · exact absurd state other
        · rw [suspended.2] at elsewhere
          cases elsewhere
      · cases stepped
        apply handed_singleton suspended_iff
        intro suspended
        exact custody.resumes holds found ((custody.contains_runs found).mp suspended.2)
  · cases stepped

/-! ## Runs -/

theorem Custody.step {call : SchedulerCall} {result : Scheduler × List SchedulerEvent}
    (custody : s.Custody) (stepped : s.step call = some result) : Handed result := by
  rw [Scheduler.step] at stepped
  split at stepped
  · cases stepped
  · cases call with
    | schedule thread_ =>
        cases stepped
        apply Custody.handed
        refine custody.moves rfl rfl ?_ custody.once
        intro g
        rw [pending_push]
        exact Nat.le_refl _
    | scheduleFiber thread_ =>
        cases stepped
        apply Custody.handed
        refine custody.adds rfl ?_ (fun g => Nat.le_refl _) (fun g => rfl) rfl custody.once
        intro g
        rw [pending_push]
        change s.pending g + mark s.fibers.length g + 0 + _ ≤
          _ + _ + mark s.fibers.length g * 1
        change _ + total (ThreadStage.wakes g) s.threads ≤ _
        omega
    | take t => exact custody.take stepped
    | resume t => exact custody.resume stepped
    | fiber t call =>
        rw [perform] at stepped
        split at stepped
        · rename_i f thread
          split at stepped
          · cases stepped
          · rename_i fiber found
            rw [Option.map_eq_some_iff] at stepped
            obtain ⟨target, taken, rfl⟩ := stepped
            exact (custody.fiberStep thread found taken).handed
        · cases stepped
    | idle t call =>
        rw [perform] at stepped
        split at stepped
        · rename_i cbs thread
          rw [Option.map_eq_some_iff] at stepped
          obtain ⟨target, taken, rfl⟩ := stepped
          exact (custody.idleStep thread taken).handed
        · cases stepped

theorem handed_of_run {threads : Nat} {now : UInt64} {events : List SchedulerEvent}
    (run : Run Scheduler.step anyStep (new threads now) events s) : Handed (s, events) := by
  induction run with
  | nil => exact (custody_new threads now).handed
  | snoc earlier accepted stepped before =>
      rename_i events state call target emitted
      rw [Handed, List.forall_mem_append, List.forall_mem_append]
      by_cases suspended : ∀ e ∈ events, e.Suspended
      · have ⟨later, kept⟩ := (before.2 suspended).step stepped
        have outside := before.1.mp suspended
        constructor
        · constructor
          · exact fun both => ⟨outside, later.mp both.2⟩
          · exact fun both => ⟨suspended, later.mpr both.2⟩
        · exact fun both => kept both.2
      · constructor
        · constructor
          · exact fun both => absurd both.1 suspended
          · exact fun both => absurd (before.1.mpr both.1) suspended
        · exact fun both => absurd both.1 suspended

end Scheduler

/-! ## The handover -/

theorem handovers_suspended_iff {threads : Nat} {now : UInt64} {events : List SchedulerEvent}
    {s : Scheduler} (run : Run Scheduler.step anyStep (.new threads now) events s) :
    (∀ e ∈ events, e.Suspended) ↔ ∀ e ∈ events, e.Outside :=
  (Scheduler.handed_of_run run).1

/-- One fiber sleeps and another one waits for a descriptor.  A second thread finds
both wake-ups when both fibers have yielded. -/
def bothYielded : List SchedulerCall :=
  [.schedule none, .take 0, .resume 0, .fiber 0 (.sleep 10 0 1), .fiber 0 .yield,
    .fiber 0 .swapcontext, .schedule none, .take 0, .resume 0,
    .fiber 0 (.doIo 5 .read (some 20) 0 2), .fiber 0 (.addEvent true), .fiber 0 .yield,
    .fiber 0 .swapcontext, .take 1, .idle 1 (.epollWait ⟨5, fun event => event == .read, false⟩),
    .idle 1 (.listExpiredCb 10 3), .idle 1 .scheduler, .idle 1 (.dispatch 0 true), .idle 1 .yield,
    .take 1, .resume 1, .take 0, .resume 0, .fiber 1 .callback, .fiber 1 .finish,
    .fiber 1 .swapcontext, .take 1, .resume 1]

theorem handovers_suspended_iff_bothYielded :
    ∃ (events : List SchedulerEvent) (s : Scheduler),
      Run Scheduler.step anyStep (.new 2 0) events s ∧ events.length = 4 ∧
        (∀ e ∈ events, e.Suspended) ∧ ∀ e ∈ events, e.Outside := by
  obtain ⟨events, s, run, checked⟩ := exists_run_of_exec
    Scheduler.step anyStep (.new 2 0) bothYielded
    (fun result => decide (result.2.length = 4 ∧ ∀ e ∈ result.2, e.Suspended))
    (by decide +kernel)
  rw [decide_eq_true_eq] at checked
  exact ⟨events, s, run, checked.1, checked.2, (handovers_suspended_iff run).mp checked.2⟩

/-- A fiber has set the timer of its `sleep`.  Before it yields, a second thread lets
the timer expire, runs its callback and takes the task of the fiber. -/
def sleepOvertaken : List SchedulerCall :=
  [.schedule none, .take 0, .resume 0, .fiber 0 (.sleep 0 0 1), .take 1,
    .idle 1 (.listExpiredCb 1 2), .idle 1 .scheduler, .idle 1 .yield, .take 1, .resume 1,
    .fiber 1 .callback, .fiber 1 .finish, .fiber 1 .swapcontext, .take 1]

theorem not_handovers_suspended :
    ∃ (events : List SchedulerEvent) (s : Scheduler),
      Run Scheduler.step anyStep (.new 2 0) events s ∧ ¬ ∀ e ∈ events, e.Suspended := by
  obtain ⟨events, s, run, checked⟩ := exists_run_of_exec
    Scheduler.step anyStep (.new 2 0) sleepOvertaken
    (fun result => decide (¬ ∀ e ∈ result.2, e.Suspended))
    (by decide +kernel)
  rw [decide_eq_true_eq] at checked
  exact ⟨events, s, run, checked⟩

end CppRaft.Fiber
