import CppRaft.Fiber.WakeUps

/-!
# Custody of fibers

While a fiber is suspended, at most one wake-up of it is on its way, and there
is none while it runs.  A run loop that is about to resume a fiber has taken its
only wake-up.
-/

namespace CppRaft.Fiber

open CppRaft.Container
open CppRaft.Transition

variable {f g t : Nat}

/-! ## Stages -/

namespace Stage

/-- How many wake-ups of the fiber may be on their way. -/
def awaits : Stage → Nat
  | .fresh | .registered _ | .yielding _ | .suspended _ => 1
  | _ => 0

/-- How many run loops may be about to resume it. -/
def rests : Stage → Nat
  | .fresh | .yielding _ | .suspended _ => 1
  | _ => 0

/-- How many threads run it. -/
def runs : Stage → Nat
  | .fresh | .suspended _ | .gone => 0
  | _ => 1

/-- The value of `state_`. -/
def state : Stage → FiberState
  | .fresh | .yielding _ | .suspended _ => .ready
  | .ended | .gone => .term
  | _ => .running

/-- A thread runs the fiber, and no wake-up of it is on its way. -/
structure Quiet (stage : Stage) : Prop where
  wakes : ∀ g, stage.wakes g = 0
  awaits : stage.awaits = 0
  rests : stage.rests = 0
  runs : stage.runs = 1

theorem quiet_user : Quiet .user :=
  ⟨fun _ => rfl, rfl, rfl, rfl⟩

theorem quiet_returned : Quiet .returned :=
  ⟨fun _ => rfl, rfl, rfl, rfl⟩

theorem quiet_timeout (tinfo fd : Nat) (event : Event) :
    Quiet (.calling (.timeout tinfo fd event)) :=
  ⟨fun _ => rfl, rfl, rfl, rfl⟩

theorem quiet_cancelling (fd : Nat) (event : Event) : Quiet (.cancelling fd event) :=
  ⟨fun _ => rfl, rfl, rfl, rfl⟩

theorem quiet_blocked (io : DoIo) : Quiet (.blocked io) :=
  ⟨fun _ => rfl, rfl, rfl, rfl⟩

theorem quiet_refused (io : DoIo) : Quiet (.refused io) :=
  ⟨fun _ => rfl, rfl, rfl, rfl⟩

theorem quiet_woken (io : DoIo) : Quiet (.woken io) :=
  ⟨fun _ => rfl, rfl, rfl, rfl⟩

theorem quiet_retrying (io : DoIo) : Quiet (.retrying io) :=
  ⟨fun _ => rfl, rfl, rfl, rfl⟩

theorem rests_eq_one {stage : Stage} (ready : stage.state = .ready) : stage.rests = 1 := by
  cases stage with
  | fresh | yielding | suspended => rfl
  | _ => cases ready

theorem awaits_le_one (stage : Stage) : stage.awaits ≤ 1 := by
  cases stage with
  | fresh | registered | yielding | suspended => exact Nat.le_refl _
  | _ => exact Nat.zero_le _

/-- Only a fiber that has not yielded yet waits without being `READY`. -/
theorem ready_iff {stage : Stage} (waits : 1 ≤ stage.awaits) :
    stage.state = .ready ↔ ∀ call, stage ≠ .registered call := by
  cases stage with
  | fresh | yielding | suspended => simp [state]
  | registered call => simp [state]
  | _ => exact absurd waits (Nat.not_succ_le_zero 0)

/-- Only a fiber that has not switched yet is `READY` on a thread. -/
theorem runs_eq_zero_iff {stage : Stage} (ready : 1 ≤ stage.rests) :
    stage.runs = 0 ↔ ∀ call, stage ≠ .yielding call := by
  cases stage with
  | fresh | suspended => simp [runs]
  | yielding call => simp [runs]
  | _ => exact absurd ready (Nat.not_succ_le_zero 0)

theorem state_of_rests {stage : Stage} (ready : 1 ≤ stage.rests) : stage.state = .ready := by
  cases stage with
  | fresh | yielding | suspended => rfl
  | _ => exact absurd ready (Nat.not_succ_le_zero 0)

/-- The fiber of a stage that is resumed goes on without a wake-up. -/
theorem quiet_resume {stage : Stage} (ready : 1 ≤ stage.rests) (off : stage.runs = 0) :
    stage.resume.Quiet ∧ stage.resume.state = .running ∧ stage.awaits = 1 ∧
      stage.rests = 1 ∧ ∀ g, stage.wakes g = 0 := by
  cases stage with
  | fresh => exact ⟨⟨fun _ => rfl, rfl, rfl, rfl⟩, rfl, rfl, rfl, fun _ => rfl⟩
  | suspended call =>
      cases call with
      | none => exact ⟨⟨fun _ => rfl, rfl, rfl, rfl⟩, rfl, rfl, rfl, fun _ => rfl⟩
      | some io => exact ⟨⟨fun _ => rfl, rfl, rfl, rfl⟩, rfl, rfl, rfl, fun _ => rfl⟩
  | yielding => cases off
  | _ => exact absurd ready (Nat.not_succ_le_zero 0)

theorem wakes_start (g : Nat) (cb : Callback) : (start cb).wakes g = cb.wakes g := by
  cases cb with
  | function => rfl
  | wake f => rfl
  | timeout tinfo fd event => rfl

theorem state_start (cb : Callback) : (start cb).state = .running := by
  cases cb with
  | function => rfl
  | wake f => rfl
  | timeout tinfo fd event => rfl

theorem runs_start (cb : Callback) : (start cb).runs = 1 := by
  cases cb with
  | function => rfl
  | wake f => rfl
  | timeout tinfo fd event => rfl

end Stage

/-- 1 for a run loop that is about to resume the fiber. -/
def ThreadStage.holders (g : Nat) : ThreadStage → Nat
  | .holds (.fiber f) => mark f g
  | _ => 0

/-- 1 for a thread that runs the fiber. -/
def ThreadStage.runners (g : Nat) : ThreadStage → Nat
  | .runs f => mark f g
  | _ => 0

theorem ThreadStage.holders_le_wakes (g : Nat) (stage : ThreadStage) :
    stage.holders g ≤ stage.wakes g := by
  cases stage with
  | holds job =>
      cases job with
      | fiber f => exact Nat.le_refl _
      | cb callback => exact Nat.zero_le _
  | _ => exact Nat.zero_le _

/-- No thread runs the fiber. -/
theorem runners_eq_zero_iff {threads : List ThreadStage} :
    total (ThreadStage.runners f) threads = 0 ↔ threads.contains (.runs f) = false := by
  induction threads with
  | nil => simp [total]
  | cons stage threads ih =>
      rw [total, Nat.add_eq_zero_iff, ih, List.contains_cons, Bool.or_eq_false_iff]
      refine and_congr_left ?_
      intro _
      cases stage with
      | runs f' =>
          by_cases same : f' = f
          · simp [ThreadStage.runners, same]
          · simp [ThreadStage.runners, mark_of_ne same, Ne.symm same]
      | _ => simp [ThreadStage.runners]

namespace Scheduler

variable {s s' : Scheduler} {fiber fiber' : FiberObject} {weight : Stage → Nat}

/-! ## Counts -/

/-- What the stage of a fiber counts; a fiber that was not made counts 0. -/
def count (s : Scheduler) (g : Nat) (weight : Stage → Nat) : Nat :=
  s.fibers[g]?.elim 0 fun fiber => weight fiber.stage

/-- The wake-ups that no fiber and no thread has. -/
def pending (g : Nat) (s : Scheduler) : Nat :=
  taskWakes g s.tasks_ + s.timers.wakes g + s.io.wakes g

/-- All wake-ups of a fiber. -/
def wakes (g : Nat) (s : Scheduler) : Nat :=
  total (FiberObject.wakes g) s.fibers + total (ThreadStage.wakes g) s.threads + s.pending g

theorem count_of_found (found : s.fibers[f]? = some fiber) (weight : Stage → Nat) :
    s.count f weight = weight fiber.stage := by
  rw [count, found]
  rfl

theorem count_setFiber (found : s.fibers[f]? = some fiber)
    (fibers : s'.fibers = s.fibers.set f fiber') (g : Nat) (weight : Stage → Nat) :
    s'.count g weight + mark f g * weight fiber.stage =
      s.count g weight + mark f g * weight fiber'.stage := by
  have inside := (List.getElem?_eq_some_iff.mp found).1
  by_cases here : f = g
  · subst here
    rw [count, count, fibers, List.getElem?_set_self inside, found, mark_self]
    simp only [Option.elim_some, Nat.one_mul]
    omega
  · rw [count, count, fibers, List.getElem?_set_ne here, mark_of_ne here, Nat.zero_mul,
      Nat.zero_mul]

theorem count_addFiber (fibers : s'.fibers = s.fibers ++ [fiber]) (g : Nat)
    (weight : Stage → Nat) :
    s'.count g weight = s.count g weight + mark s.fibers.length g * weight fiber.stage := by
  rw [count, count, fibers]
  rcases Nat.lt_trichotomy g s.fibers.length with before | here | behind
  · rw [List.getElem?_append_left before, mark_of_ne (by omega), Nat.zero_mul, Nat.add_zero]
  · subst here
    rw [List.getElem?_append_right (Nat.le_refl _), Nat.sub_self, mark_self,
      List.getElem?_eq_none (Nat.le_refl _)]
    simp
  · rw [List.getElem?_append_right (Nat.le_of_lt behind), mark_of_ne (by omega),
      List.getElem?_eq_none (Nat.le_of_lt behind), List.getElem?_eq_none, Nat.zero_mul]
    · rfl
    · rw [List.length_singleton]
      omega

/-! ## The invariant -/

/-- The counts of wake-ups, of run loops that hold a fiber and of threads that run
it agree with its stage. -/
structure Custody (s : Scheduler) : Prop where
  wakes : ∀ g, s.wakes g ≤ s.count g Stage.awaits
  held : ∀ g, total (ThreadStage.holders g) s.threads ≤ s.count g Stage.rests
  run : ∀ g, total (ThreadStage.runners g) s.threads = s.count g Stage.runs
  state : ∀ fiber ∈ s.fibers, fiber.state_ = fiber.stage.state
  once : s.timers.Once

theorem Custody.state_of_found (custody : s.Custody) (found : s.fibers[f]? = some fiber) :
    fiber.state_ = fiber.stage.state :=
  custody.state fiber (List.mem_of_getElem? found)

theorem custody_new (threads : Nat) (now : UInt64) : (new threads now).Custody where
  wakes := by
    intro g
    have idle : total (ThreadStage.wakes g) (List.replicate threads .looking) = 0 := by
      apply total_eq_zero
      intro stage member
      rw [List.eq_of_mem_replicate member]
      rfl
    have quiet : IOManager.wakes g .new = 0 := by
      apply total_eq_zero
      intro ctx member
      rw [List.eq_of_mem_replicate member]
      rfl
    rw [Scheduler.wakes, pending]
    change 0 + total (ThreadStage.wakes g) (List.replicate threads .looking) +
      (0 + 0 + IOManager.wakes g .new) ≤ _
    rw [idle, quiet]
    exact Nat.zero_le _
  held := by
    intro g
    have none : total (ThreadStage.holders g) (List.replicate threads .looking) = 0 := by
      apply total_eq_zero
      intro stage member
      rw [List.eq_of_mem_replicate member]
      rfl
    change total (ThreadStage.holders g) (List.replicate threads .looking) ≤ _
    rw [none]
    exact Nat.zero_le _
  run := by
    intro g
    apply total_eq_zero
    intro stage member
    rw [List.eq_of_mem_replicate member]
    rfl
  state := by
    intro fiber member
    cases member
  once := by
    intro timer member
    cases member

/-! ## Updates -/

/-- A thread and the fiber `f` go on. -/
theorem Custody.update (custody : s.Custody) {stage stage' : ThreadStage}
    (thread : s.threads[t]? = some stage) (found : s.fibers[f]? = some fiber)
    (threads : s'.threads = s.threads.set t stage')
    (fibers : s'.fibers = s.fibers.set f fiber')
    (wakes : ∀ g, s'.pending g + fiber'.wakes g + stage'.wakes g + mark f g * fiber.stage.awaits ≤
      s.pending g + fiber.wakes g + stage.wakes g + mark f g * fiber'.stage.awaits)
    (held : ∀ g, stage'.holders g + mark f g * fiber.stage.rests ≤
      stage.holders g + mark f g * fiber'.stage.rests)
    (run : ∀ g, stage'.runners g + mark f g * fiber.stage.runs =
      stage.runners g + mark f g * fiber'.stage.runs)
    (state : fiber'.state_ = fiber'.stage.state) (once : s'.timers.Once) : s'.Custody where
  wakes := by
    intro g
    have before := custody.wakes g
    have counted := count_setFiber found fibers g Stage.awaits
    have ofThreads := total_set (ThreadStage.wakes g) thread stage'
    have ofFibers := total_set (FiberObject.wakes g) found fiber'
    have balance := wakes g
    rw [← threads] at ofThreads
    rw [← fibers] at ofFibers
    rw [Scheduler.wakes] at before ⊢
    omega
  held := by
    intro g
    have before := custody.held g
    have counted := count_setFiber found fibers g Stage.rests
    have ofThreads := total_set (ThreadStage.holders g) thread stage'
    have balance := held g
    rw [← threads] at ofThreads
    omega
  run := by
    intro g
    have before := custody.run g
    have counted := count_setFiber found fibers g Stage.runs
    have ofThreads := total_set (ThreadStage.runners g) thread stage'
    have balance := run g
    rw [← threads] at ofThreads
    omega
  state := by
    intro fiber member
    rw [fibers] at member
    rcases List.mem_or_eq_of_mem_set member with old | rfl
    · exact custody.state fiber old
    · exact state
  once := once

/-- A running fiber goes on. -/
theorem Custody.goesOn (custody : s.Custody) (thread : s.threads[t]? = some (.runs f))
    (found : s.fibers[f]? = some fiber) (threads : s'.threads = s.threads)
    (fibers : s'.fibers = s.fibers.set f fiber')
    (wakes : ∀ g, s'.pending g + fiber'.wakes g + mark f g * fiber.stage.awaits ≤
      s.pending g + fiber.wakes g + mark f g * fiber'.stage.awaits)
    (rests : fiber.stage.rests ≤ fiber'.stage.rests)
    (run : fiber.stage.runs = fiber'.stage.runs)
    (state : fiber'.state_ = fiber'.stage.state) (once : s'.timers.Once) : s'.Custody := by
  have inside := (List.getElem?_eq_some_iff.mp thread).1
  have same : s.threads.set t (.runs f) = s.threads := by
    rw [List.getElem?_eq_some_iff] at thread
    rw [← thread.2, List.set_getElem_self]
  refine custody.update thread found (threads.trans same.symm) fibers ?_ ?_ ?_ state once
  · intro g
    exact wakes g
  · intro g
    exact Nat.add_le_add_left (Nat.mul_le_mul_left _ rests) _
  · intro g
    rw [run]

/-- A fiber between two stages of which no wake-up is expected. -/
theorem Custody.quiet (custody : s.Custody) (thread : s.threads[t]? = some (.runs f))
    (found : s.fibers[f]? = some fiber) {stage : Stage} (here : fiber.stage = stage)
    (quiet : stage.Quiet) (quiet' : fiber'.stage.Quiet) (threads : s'.threads = s.threads)
    (fibers : s'.fibers = s.fibers.set f fiber') (wakes : ∀ g, s'.pending g ≤ s.pending g)
    (state : fiber'.state_ = fiber'.stage.state) (once : s'.timers.Once) : s'.Custody := by
  refine custody.goesOn thread found threads fibers ?_ ?_ ?_ state once
  · intro g
    rw [FiberObject.wakes, FiberObject.wakes, here, quiet.wakes, quiet'.wakes, quiet.awaits,
      quiet'.awaits]
    exact wakes g
  · rw [here, quiet.rests]
    exact Nat.zero_le _
  · rw [here, quiet.runs, quiet'.runs]

/-- `swapcontext` leaves a fiber with the wake-ups that it had. -/
theorem Custody.leaves (custody : s.Custody) (thread : s.threads[t]? = some (.runs f))
    (found : s.fibers[f]? = some fiber) {stage stage' : Stage} (here : fiber.stage = stage)
    (wakes : ∀ g, stage'.wakes g = stage.wakes g) (awaits : stage'.awaits = stage.awaits)
    (rests : stage'.rests = stage.rests) (runs : stage.runs = 1) (off : stage'.runs = 0)
    (state : stage'.state = stage.state) :
    ((s.setFiber f { fiber with stage := stage' }).setThread t .looking).Custody := by
  have before := custody.state_of_found found
  rw [here] at before
  refine custody.update thread found rfl rfl ?_ ?_ ?_ (before.trans state.symm) custody.once
  · intro g
    rw [FiberObject.wakes, FiberObject.wakes, here, wakes, awaits]
    exact Nat.le_refl _
  · intro g
    rw [here, rests]
    exact Nat.le_refl _
  · intro g
    rw [here, runs, off]
    change 0 + mark f g * 1 = mark f g + mark f g * 0
    omega

/-- A thread goes on without its fibers. -/
theorem Custody.thread (custody : s.Custody) {stage stage' : ThreadStage}
    (thread : s.threads[t]? = some stage) (threads : s'.threads = s.threads.set t stage')
    (fibers : s'.fibers = s.fibers)
    (wakes : ∀ g, s'.pending g + stage'.wakes g ≤ s.pending g + stage.wakes g)
    (held : ∀ g, stage'.holders g + total (ThreadStage.holders g) s.threads ≤
      stage.holders g + s.count g Stage.rests)
    (run : ∀ g, stage'.runners g = stage.runners g) (once : s'.timers.Once) : s'.Custody where
  wakes := by
    intro g
    have before := custody.wakes g
    have ofThreads := total_set (ThreadStage.wakes g) thread stage'
    have balance := wakes g
    rw [← threads] at ofThreads
    rw [Scheduler.wakes] at before ⊢
    rw [count, fibers]
    change _ ≤ s.count g Stage.awaits
    omega
  held := by
    intro g
    have ofThreads := total_set (ThreadStage.holders g) thread stage'
    have balance := held g
    rw [← threads] at ofThreads
    rw [count, fibers]
    change _ ≤ s.count g Stage.rests
    omega
  run := by
    intro g
    have before := custody.run g
    have ofThreads := total_set (ThreadStage.runners g) thread stage'
    have balance := run g
    rw [← threads] at ofThreads
    rw [count, fibers]
    change _ = s.count g Stage.runs
    omega
  state := by
    rw [fibers]
    exact custody.state
  once := once

/-- Wake-ups move between the queue, the timers and the events. -/
theorem Custody.moves (custody : s.Custody) (threads : s'.threads = s.threads)
    (fibers : s'.fibers = s.fibers) (wakes : ∀ g, s'.pending g ≤ s.pending g)
    (once : s'.timers.Once) : s'.Custody where
  wakes := by
    intro g
    have before := custody.wakes g
    have balance := wakes g
    rw [Scheduler.wakes] at before ⊢
    rw [count, fibers, threads]
    change _ ≤ s.count g Stage.awaits
    omega
  held := by
    intro g
    rw [count, fibers, threads]
    exact custody.held g
  run := by
    intro g
    rw [count, fibers, threads]
    exact custody.run g
  state := by
    rw [fibers]
    exact custody.state
  once := once

/-- There is a new fiber, which a thread may run. -/
theorem Custody.adds (custody : s.Custody) (fibers : s'.fibers = s.fibers ++ [fiber])
    (wakes : ∀ g, s'.pending g + fiber.wakes g + total (ThreadStage.wakes g) s'.threads ≤
      s.pending g + total (ThreadStage.wakes g) s.threads +
        mark s.fibers.length g * fiber.stage.awaits)
    (held : ∀ g, total (ThreadStage.holders g) s'.threads ≤
      total (ThreadStage.holders g) s.threads)
    (run : ∀ g, total (ThreadStage.runners g) s'.threads =
      total (ThreadStage.runners g) s.threads + mark s.fibers.length g * fiber.stage.runs)
    (state : fiber.state_ = fiber.stage.state) (once : s'.timers.Once) : s'.Custody where
  wakes := by
    intro g
    have before := custody.wakes g
    have counted := count_addFiber fibers g Stage.awaits
    have ofFibers := total_append (FiberObject.wakes g) s.fibers [fiber]
    have balance := wakes g
    rw [← fibers, total_singleton] at ofFibers
    rw [Scheduler.wakes] at before ⊢
    omega
  held := by
    intro g
    rw [count_addFiber fibers]
    exact Nat.le_trans (held g) (Nat.le_trans (custody.held g) (Nat.le_add_right _ _))
  run := by
    intro g
    rw [run g, custody.run g, count_addFiber fibers]
  state := by
    intro fiber member
    rw [fibers] at member
    rcases List.mem_append.mp member with old | new
    · exact custody.state fiber old
    · rw [List.mem_singleton.mp new]
      exact state
  once := once

end Scheduler

end CppRaft.Fiber
