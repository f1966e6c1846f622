import CppRaft.Fiber.Ledger

/-!
# Accounting for IO events

Every call keeps the ledger and the agreement with the kernel.  A report that is
out of date breaks this only when it names an event that is no longer registered
together with one that is.
-/

namespace CppRaft.Fiber

open CppRaft.Transition

universe u

variable {κ : Type u} {events : List (IoEvent κ)} {fd : Nat} {event : Event}

namespace IOManager

variable {io io' : IOManager κ}

/-! ## The calls -/

/-- The ledger of a manager that agrees with the kernel. -/
structure Accounts (events : List (IoEvent κ)) (io : IOManager κ) : Prop where
  ledger : io.Ledger events
  kernel : ∀ fd, io.epoll fd = (io.fdCtx fd).interest

theorem accounts_new : (new : IOManager κ).Accounts [] where
  ledger := ledger_new
  kernel := by
    intro fd
    rw [fdCtx_new]
    rfl

/-- A call that fails. -/
theorem Accounts.failed (accounts : io.Accounts events) (sound : io'.Sound)
    (same : ∀ fd, io'.fdCtx fd = io.fdCtx fd) (running : io'.aborted = false)
    (kernel : io'.epoll = io.epoll) : io'.Accounts (events ++ [.failed]) where
  ledger := accounts.ledger.off sound same running (fun _ _ => id) (by simp) (by simp)
  kernel := by
    intro fd
    rw [kernel, same]
    exact accounts.kernel fd

/-- The kernel is told about one descriptor, and only its context changes. -/
theorem Accounts.told (accounts : io.Accounts events) {interest : Option Events}
    (epoll : io'.epoll = Function.update io.epoll fd interest)
    (here : interest = (io'.fdCtx fd).interest)
    (others : ∀ fd', fd' ≠ fd → io'.fdCtx fd' = io.fdCtx fd') (fd' : Nat) :
    io'.epoll fd' = (io'.fdCtx fd').interest := by
  rw [epoll]
  by_cases same : fd' = fd
  · subst same
    rw [Function.update_self]
    exact here
  · rw [Function.update_of_ne same, others fd' same]
    exact accounts.kernel fd'

theorem Accounts.addEvent (accounts : io.Accounts events) {caller : Caller} {cb : Option κ}
    {ok : Bool} (scheduler : caller.scheduler.isSome) (running : caller.running = true)
    (free : (io.fdCtx fd).events event = false) :
    (io.addEvent caller fd event cb ok).1.Accounts
      (events ++ (io.addEvent caller fd event cb ok).2) := by
  obtain ⟨table, grown, sound, inside, same⟩ := accounts.ledger.sound.grow fd
  rw [IOManager.addEvent]
  dsimp only
  rw [grown, same fd, free, if_neg Bool.false_ne_true]
  cases told : epollCtl io.epoll (if (io.fdCtx fd).events.any then .mod else .add) fd
      (Function.update (io.fdCtx fd).events event true) ok with
  | none => exact accounts.failed sound same accounts.ledger.running rfl
  | some epoll =>
      have kept := accounts.ledger.sound.contexts fd
      dsimp only
      rw [kept.empty event free, running, if_neg (by simp), if_neg (by simp)]
      have free' : (({ io with fdContexts_ := table } : IOManager κ).fdCtx fd).events event =
          false := by
        rw [same]
        exact free
      have registered := sound.register inside free' (caller.filled scheduler cb)
      rw [same] at registered
      have here : ∀ {count : Int} {ctx : FdContext κ},
          ({ io with fdContexts_ := table, pendingEventCnt_ := count, epoll := epoll }.setCtx fd
            ctx).fdCtx fd = ctx := fdCtx_setCtx_self inside
      have others : ∀ {count : Int} {ctx : FdContext κ} (fd' : Nat), fd' ≠ fd →
          ({ io with fdContexts_ := table, pendingEventCnt_ := count, epoll := epoll }.setCtx fd
            ctx).fdCtx fd' = io.fdCtx fd' :=
        fun fd' other => (fdCtx_setCtx_of_ne other).trans (same fd')
      constructor
      · refine accounts.ledger.put (registered.told epoll io.reports) accounts.ledger.running here
          others ?_ ?_ ?_ (by simp) (by simp)
        · rintro fd' event' ⟨rfl, rfl⟩
          exact ⟨rfl, rfl⟩
        · intro _ continuation task
          rw [caller.task_eventContext, Option.some.injEq] at task
          subst task
          exact open_registered events fd event _
        · rintro fd' event' scheduler' task ⟨⟩
      · refine accounts.told (epollCtl_eq_some told).2 ?_ others
        rw [here, FdContext.interest_put_true]
        cases (io.fdCtx fd).events.any with
        | true => rfl
        | false => rfl

theorem Accounts.delEvent (accounts : io.Accounts events) (fd : Nat) (event : Event) (ok : Bool) :
    (io.delEvent fd event ok).1.Accounts (events ++ (io.delEvent fd event ok).2) := by
  have failed := accounts.failed accounts.ledger.sound (fun _ => rfl) accounts.ledger.running rfl
  rw [IOManager.delEvent]
  split_ifs with outside free
  · exact failed
  · exact failed
  · have set : (io.fdCtx fd).events event = true := by simpa using free
    dsimp only
    generalize told : epollCtl io.epoll _ fd _ ok = result
    cases result with
    | none => exact failed
    | some epoll =>
        constructor
        · exact (accounts.ledger.deleted set).told epoll io.reports
        · refine accounts.told (epollCtl_eq_some told).2 ?_ (fun _ => fdCtx_clear_of_ne)
          rw [interest_ite]
          exact congrArg FdContext.interest (fdCtx_clear_self set).symm

/-- The kernel is told what is left, and the other events are triggered. -/
theorem Accounts.triggered (accounts : io.Accounts events) {which : List Event}
    (nodup : which.Nodup) (covered : ∀ event ∈ which, (io.fdCtx fd).events event = true)
    {left : Events}
    (leaves : ∀ event, left event = ((io.fdCtx fd).events event && decide (event ∉ which)))
    {op : CtlOp} {ok : Bool} {epoll : Nat → Option Events}
    (told : epollCtl io.epoll op fd left ok = some epoll)
    (fits : op.interest left = if left.any then some left else none) :
    (trigger fd which { io with epoll := epoll }).1.Accounts
        (events ++ (trigger fd which { io with epoll := epoll }).2) ∧
      ∀ event, ((trigger fd which { io with epoll := epoll }).1.fdCtx fd).events event =
        left event := by
  have triggered := (accounts.ledger.told epoll io.reports).trigger nodup covered
  have remains : ((trigger fd which { io with epoll := epoll }).1.fdCtx fd).events = left := by
    funext event
    exact (triggered.events event).trans (leaves event).symm
  refine ⟨⟨triggered.ledger, ?_⟩, fun event => congrFun remains event⟩
  refine accounts.told (triggered.epoll.trans (epollCtl_eq_some told).2) ?_ triggered.others
  rw [FdContext.interest, remains]
  exact fits

theorem Accounts.cancelEvent (accounts : io.Accounts events) (fd : Nat) (event : Event)
    (ok : Bool) :
    (io.cancelEvent fd event ok).1.Accounts (events ++ (io.cancelEvent fd event ok).2) := by
  have failed := accounts.failed accounts.ledger.sound (fun _ => rfl) accounts.ledger.running rfl
  rw [IOManager.cancelEvent]
  split_ifs with outside free
  · exact failed
  · exact failed
  · have set : (io.fdCtx fd).events event = true := by simpa using free
    dsimp only
    generalize told : epollCtl io.epoll _ fd _ ok = result
    cases result with
    | none => exact failed
    | some epoll =>
        refine (accounts.triggered (List.pairwise_singleton _ event) ?_ ?_ told
          (interest_ite _)).1
        · intro event' member
          rw [List.mem_singleton.mp member]
          exact set
        · intro event'
          by_cases same : event' = event
          · subst same
            simp
          · simp [same]

theorem Accounts.cancelAll (accounts : io.Accounts events) (fd : Nat) (ok : Bool) :
    (io.cancelAll fd ok).1.Accounts (events ++ (io.cancelAll fd ok).2) := by
  have failed := accounts.failed accounts.ledger.sound (fun _ => rfl) accounts.ledger.running rfl
  rw [IOManager.cancelAll]
  split_ifs with outside free
  · exact failed
  · exact failed
  · dsimp only
    generalize told : epollCtl io.epoll _ fd _ ok = result
    cases result with
    | none => exact failed
    | some epoll =>
        obtain ⟨kept, clear⟩ := accounts.triggered (Events.nodup_toList (io.fdCtx fd).events)
          (fun _ member => Events.mem_toList.mp member) (by simp) told rfl
        dsimp only
        rw [if_neg]
        · exact kept
        · simp [Events.any, clear]

/-- A report that is covered is acted on as it should be, and another one ends
the process. -/
theorem Accounts.dispatch (accounts : io.Accounts events) (report : Report) (ok : Bool) :
    (io.dispatch report ok).1.Accounts (events ++ (io.dispatch report ok).2) ∨
      (∃ dispatch, .dispatched dispatch ∈ (io.dispatch report ok).2 ∧ ¬ dispatch.Covered) ∧
        ∃ panic, .panicked panic ∈ (io.dispatch report ok).2 := by
  have kernel := accounts.kernel report.fd
  rw [IOManager.dispatch]
  dsimp only
  by_cases covered : Dispatch.Covered
      ⟨(io.fdCtx report.fd).events, report.real_events (io.fdCtx report.fd).events, ok⟩
  · left
    have dispatched : io.Accounts (events ++ [.dispatched
        ⟨(io.fdCtx report.fd).events, report.real_events (io.fdCtx report.fd).events, ok⟩]) := by
      refine ⟨accounts.ledger.off accounts.ledger.sound (fun _ => rfl) accounts.ledger.running
        (fun _ _ => id) ?_ (by simp), accounts.kernel⟩
      rintro dispatch ⟨⟩
      exact covered
    by_cases meets : Events.any (fun event => (io.fdCtx report.fd).events event &&
        report.real_events (io.fdCtx report.fd).events event) = true
    · rw [if_pos meets]
      generalize told : epollCtl io.epoll _ report.fd _ ok = result
      cases result with
      | none =>
          have failed := dispatched.failed accounts.ledger.sound (fun _ => rfl)
            accounts.ledger.running rfl
          rwa [List.append_assoc] at failed
      | some epoll =>
          have triggered := (dispatched.triggered
            (Events.nodup_toList (report.real_events (io.fdCtx report.fd).events))
            (fun event member => covered (epollCtl_eq_some told).1 meets event
              (Events.mem_toList.mp member)) (by simp) told (interest_ite _)).1
          rwa [List.append_assoc] at triggered
    · rw [if_neg meets]
      exact dispatched
  · right
    have uncovered := covered
    simp only [Dispatch.Covered, not_forall] at uncovered
    obtain ⟨answers, meets, event, happened, gone⟩ := uncovered
    rw [if_pos meets]
    have set : (io.fdCtx report.fd).events.any = true := by
      simp only [Events.any, Bool.or_eq_true, Bool.and_eq_true] at meets ⊢
      exact meets.imp And.left And.left
    rw [FdContext.interest, if_pos set] at kernel
    generalize told : epollCtl io.epoll _ report.fd _ ok = result
    cases result with
    | none =>
        have refused := epollCtl_eq_none kernel told
        rw [refused] at answers
        cases answers
    | some epoll =>
        have clear : (({ io with epoll := epoll } : IOManager κ).fdCtx report.fd).events event =
            false := eq_false_of_ne_true gone
        obtain ⟨panic, panicked⟩ := trigger_panics (Events.mem_toList.mpr happened) clear
        exact ⟨⟨_, List.mem_cons_self, covered⟩, panic, List.mem_cons_of_mem _ panicked⟩

theorem perform_of_step {call : IoCall κ} {result : IOManager κ × List (IoEvent κ)}
    (taken : io.step call = some result) : io.perform call = some result := by
  rw [IOManager.step] at taken
  split at taken
  · cases taken
  · exact taken

/-- One call: the accounts are kept, or a report that is not covered ends the process. -/
theorem Accounts.step {call : IoCall κ} {emitted : List (IoEvent κ)}
    (accounts : io.Accounts events) (admissible : io.Admissible call)
    (taken : io.step call = some (io', emitted)) :
    io'.Accounts (events ++ emitted) ∨
      (∃ dispatch, .dispatched dispatch ∈ emitted ∧ ¬ dispatch.Covered) ∧
        ∃ panic, .panicked panic ∈ emitted := by
  have performed := perform_of_step taken
  cases call with
  | addEvent caller fd event cb ok =>
      obtain ⟨scheduler, running, free⟩ := admissible
      have result : (io.addEvent caller fd event cb ok).1.Accounts
          (events ++ (io.addEvent caller fd event cb ok).2) :=
        accounts.addEvent scheduler running free
      rw [Option.some.inj performed] at result
      exact Or.inl result
  | delEvent fd event ok =>
      have result := accounts.delEvent fd event ok
      rw [Option.some.inj performed] at result
      exact Or.inl result
  | cancelEvent fd event ok =>
      have result := accounts.cancelEvent fd event ok
      rw [Option.some.inj performed] at result
      exact Or.inl result
  | cancelAll fd ok =>
      have result := accounts.cancelAll fd ok
      rw [Option.some.inj performed] at result
      exact Or.inl result
  | epollWait report =>
      simp only [perform, Option.ite_none_right_eq_some, Option.some.injEq, Prod.mk.injEq]
        at performed
      obtain ⟨_, rfl, rfl⟩ := performed
      rw [List.append_nil]
      exact Or.inl ⟨accounts.ledger.told io.epoll _, accounts.kernel⟩
  | dispatch i ok =>
      simp only [perform, Option.map_eq_some_iff] at performed
      obtain ⟨report, _, acted⟩ := performed
      have shorter : Accounts events { io with reports := io.reports.eraseIdx i } :=
        ⟨accounts.ledger.told io.epoll _, accounts.kernel⟩
      have result := shorter.dispatch report ok
      rwa [acted] at result

/-! ## Failed calls -/

/-- The contexts, the counter and the kernel are as before, and nothing was
scheduled. -/
structure Unchanged (io : IOManager κ) (result : IOManager κ × List (IoEvent κ)) : Prop where
  contexts : ∀ fd, result.1.fdCtx fd = io.fdCtx fd
  counter : result.1.pendingEventCnt_ = io.pendingEventCnt_
  kernel : result.1.epoll = io.epoll
  silent : ∀ more ∈ result.2, ∀ fd event, ¬ more.On fd event

theorem unchanged_failed (io : IOManager κ) : io.Unchanged (io, [.failed]) := by
  refine ⟨fun _ => rfl, rfl, rfl, ?_⟩
  intro more member
  rw [List.mem_singleton.mp member]
  exact fun _ _ => id

theorem failed_not_mem_panic {why : Panic} : .failed ∉ (io.panic why).2 := by
  simp [panic]

theorem failed_not_mem_trigger {which : List Event} : .failed ∉ (trigger fd which io).2 := by
  induction which generalizing io with
  | nil => exact List.not_mem_nil
  | cons event rest ih =>
      rw [trigger]
      split
      · exact failed_not_mem_panic
      · simpa using ih

theorem Sound.addEvent_unchanged (sound : io.Sound) {caller : Caller} {cb : Option κ} {ok : Bool}
    (failed : .failed ∈ (io.addEvent caller fd event cb ok).2) :
    io.Unchanged (io.addEvent caller fd event cb ok) := by
  obtain ⟨table, grown, _, _, same⟩ := sound.grow fd
  rw [IOManager.addEvent] at failed ⊢
  dsimp only at failed ⊢
  rw [grown] at failed ⊢
  generalize epollCtl _ _ fd _ ok = result at failed ⊢
  cases result with
  | none =>
      dsimp only at failed ⊢
      split_ifs at failed ⊢
      · exact absurd failed failed_not_mem_panic
      · exact ⟨same, rfl, rfl, (unchanged_failed io).silent⟩
  | some epoll =>
      dsimp only at failed
      split_ifs at failed
      · exact absurd failed failed_not_mem_panic
      · exact absurd failed failed_not_mem_panic
      · exact absurd failed failed_not_mem_panic
      · simp at failed

theorem delEvent_unchanged {ok : Bool} (failed : .failed ∈ (io.delEvent fd event ok).2) :
    io.Unchanged (io.delEvent fd event ok) := by
  rw [delEvent] at failed ⊢
  dsimp only at failed ⊢
  generalize epollCtl _ _ fd _ ok = result at failed ⊢
  cases result with
  | none =>
      split_ifs
      · exact unchanged_failed io
      · exact unchanged_failed io
      · exact unchanged_failed io
  | some epoll =>
      split_ifs at failed ⊢
      · exact unchanged_failed io
      · exact unchanged_failed io
      · simp at failed

theorem cancelEvent_unchanged {ok : Bool} (failed : .failed ∈ (io.cancelEvent fd event ok).2) :
    io.Unchanged (io.cancelEvent fd event ok) := by
  rw [cancelEvent] at failed ⊢
  dsimp only at failed ⊢
  generalize epollCtl _ _ fd _ ok = result at failed ⊢
  cases result with
  | none =>
      split_ifs
      · exact unchanged_failed io
      · exact unchanged_failed io
      · exact unchanged_failed io
  | some epoll =>
      split_ifs at failed ⊢
      · exact unchanged_failed io
      · exact unchanged_failed io
      · exact absurd failed failed_not_mem_trigger

theorem cancelAll_unchanged {ok : Bool} (failed : .failed ∈ (io.cancelAll fd ok).2) :
    io.Unchanged (io.cancelAll fd ok) := by
  rw [cancelAll] at failed ⊢
  dsimp only at failed ⊢
  generalize epollCtl _ _ fd _ ok = result at failed ⊢
  cases result with
  | none =>
      split_ifs
      · exact unchanged_failed io
      · exact unchanged_failed io
      · exact unchanged_failed io
  | some epoll =>
      dsimp only at failed ⊢
      split_ifs at failed ⊢
      · exact unchanged_failed io
      · exact unchanged_failed io
      · rcases List.mem_append.mp failed with triggered | last
        · exact absurd triggered failed_not_mem_trigger
        · cases List.mem_singleton.mp last
      · exact absurd failed failed_not_mem_trigger

theorem dispatch_unchanged {report : Report} {ok : Bool}
    (failed : .failed ∈ (io.dispatch report ok).2) : io.Unchanged (io.dispatch report ok) := by
  rw [dispatch] at failed ⊢
  dsimp only at failed ⊢
  generalize epollCtl _ _ _ _ ok = result at failed ⊢
  cases result with
  | none =>
      dsimp only at failed ⊢
      split_ifs at failed ⊢
      · refine ⟨fun _ => rfl, rfl, rfl, ?_⟩
        intro more member
        rcases List.mem_cons.mp member with rfl | member
        · exact fun _ _ => id
        · exact (unchanged_failed io).silent more member
      · simp at failed
  | some epoll =>
      split_ifs at failed ⊢
      · simp [failed_not_mem_trigger] at failed
      · simp at failed

theorem Sound.unchanged {call : IoCall κ} {result : IOManager κ × List (IoEvent κ)}
    (sound : io.Sound) (taken : io.step call = some result) (failed : .failed ∈ result.2) :
    io.Unchanged result := by
  have performed := perform_of_step taken
  cases call with
  | addEvent caller fd event cb ok =>
      obtain rfl := Option.some.inj performed
      exact sound.addEvent_unchanged failed
  | delEvent fd event ok =>
      obtain rfl := Option.some.inj performed
      exact delEvent_unchanged failed
  | cancelEvent fd event ok =>
      obtain rfl := Option.some.inj performed
      exact cancelEvent_unchanged failed
  | cancelAll fd ok =>
      obtain rfl := Option.some.inj performed
      exact cancelAll_unchanged failed
  | epollWait report =>
      simp only [perform, Option.ite_none_right_eq_some, Option.some.injEq] at performed
      obtain ⟨_, rfl⟩ := performed
      cases failed
  | dispatch i ok =>
      simp only [perform, Option.map_eq_some_iff] at performed
      obtain ⟨report, _, rfl⟩ := performed
      obtain ⟨contexts, counter, kernel, silent⟩ := dispatch_unchanged failed
      exact ⟨contexts, counter, kernel, silent⟩

/-! ## Runs -/

/-- In every run the accounts are kept, or a report was not covered and the
process has ended. -/
theorem accounts_of_run (run : Run step Admissible new events io) :
    io.Accounts events ∨ (∃ dispatch, .dispatched dispatch ∈ events ∧ ¬ dispatch.Covered) ∧
      ∃ panic, .panicked panic ∈ events := by
  induction run with
  | nil => exact Or.inl accounts_new
  | snoc _ admissible taken ih =>
      rcases ih with accounts | ⟨⟨dispatch, acted, uncovered⟩, panic, panicked⟩
      · rcases accounts.step admissible taken with kept |
          ⟨⟨dispatch, acted, uncovered⟩, panic, panicked⟩
        · exact Or.inl kept
        · exact Or.inr ⟨⟨dispatch, List.mem_append_right _ acted, uncovered⟩, panic,
            List.mem_append_right _ panicked⟩
      · exact Or.inr ⟨⟨dispatch, List.mem_append_left _ acted, uncovered⟩, panic,
          List.mem_append_left _ panicked⟩

end IOManager

/-- A report that was acted on was covered. -/
def IoEvent.Covered : IoEvent κ → Prop
  | .dispatched dispatch => dispatch.Covered
  | .registered _ _ _ | .deleted _ _ | .scheduled _ _ _ _ | .failed | .panicked _ => True

instance : (event : IoEvent κ) → Decidable event.Covered
  | .dispatched dispatch => inferInstanceAs (Decidable dispatch.Covered)
  | .registered _ _ _ | .deleted _ _ | .scheduled _ _ _ _ | .failed | .panicked _ => isTrue trivial

/-- The events of a manager are accounted for. -/
structure EventsAccounted (events : List (IoEvent κ)) (io : IOManager κ) : Prop where
  /-- The counter is the number of registered pairs. -/
  counted : io.pendingEventCnt_ = io.registeredCnt
  /-- A registered pair has a scheduler and one of a callback and a fiber, and
  another pair has none of them. -/
  filled : ∀ fd event, (io.fdCtx fd).events event = true → ((io.fdCtx fd).context event).Filled
  empty : ∀ fd event, (io.fdCtx fd).events event = false → (io.fdCtx fd).context event = {}
  /-- What is scheduled was registered, and neither scheduled nor deleted since. -/
  owed : Owed events
  /-- A failed call changes nothing. -/
  unchanged : ∀ call result, io.step call = some result → .failed ∈ result.2 → io.Unchanged result
  /-- No event is triggered that is not registered. -/
  alive : ∀ panic, .panicked panic ∉ events

theorem IOManager.Accounts.eventsAccounted {events : List (IoEvent κ)} {io : IOManager κ}
    (accounts : io.Accounts events) : EventsAccounted events io where
  counted := accounts.ledger.sound.counted
  filled := fun fd => (accounts.ledger.sound.contexts fd).filled
  empty := fun fd => (accounts.ledger.sound.contexts fd).empty
  owed := accounts.ledger.owed
  unchanged := fun _ _ taken failed => accounts.ledger.sound.unchanged taken failed
  alive := accounts.ledger.alive

/-- In every run the events are accounted for exactly when all reports that were
acted on were covered. -/
theorem events_accounted_iff {events : List (IoEvent κ)} {io : IOManager κ}
    (run : Run IOManager.step IOManager.Admissible IOManager.new events io) :
    EventsAccounted events io ↔ ∀ event ∈ events, event.Covered := by
  rcases IOManager.accounts_of_run run with accounts | ⟨⟨dispatch, acted, uncovered⟩, panic, dead⟩
  · constructor
    · intro _ event member
      cases event with
      | dispatched dispatch => exact accounts.ledger.covered dispatch member
      | registered fd event continuation => trivial
      | deleted fd event => trivial
      | scheduled fd event scheduler task => trivial
      | failed => trivial
      | panicked panic => trivial
    · intro _
      exact accounts.eventsAccounted
  · constructor
    · intro accounted
      exact absurd dead (accounted.alive panic)
    · intro covered
      exact absurd (covered _ acted) uncovered

/-- A thread of scheduler 0 that runs fiber 1, and one that runs fiber 2. -/
def reader : Caller where
  scheduler := some 0
  fiber := 1
  running := true

/-- Another thread of scheduler 0, which runs fiber 2. -/
def writer : Caller where
  scheduler := some 0
  fiber := 2
  running := true

/-- A descriptor beyond the first table is waited on for both events.  The write
is cancelled while an idle loop has a report of the read, and the next
registration fails. -/
def cancelledWrite : List (IoCall Unit) :=
  [.addEvent reader 40 .read none true, .addEvent writer 40 .write (some ()) true,
    .epollWait ⟨40, fun event => event == .read, false⟩, .cancelEvent 40 .write true,
    .dispatch 0 true, .addEvent reader 40 .read none false, .addEvent reader 3 .read none true]

theorem events_accounted_iff_cancelledWrite :
    ∃ (events : List (IoEvent Unit)) (io : IOManager Unit),
      Run IOManager.step IOManager.Admissible IOManager.new events io ∧
      events.length = 7 ∧ io.pendingEventCnt_ = 1 ∧ EventsAccounted events io := by
  obtain ⟨events, io, run, checked⟩ := exists_run_of_exec
    IOManager.step IOManager.Admissible IOManager.new cancelledWrite
    (fun result => decide (result.2.length = 7 ∧ result.1.pendingEventCnt_ = 1 ∧
      ∀ event ∈ result.2, event.Covered))
    (by decide +kernel)
  rw [decide_eq_true_eq] at checked
  exact ⟨events, io, run, checked.1, checked.2.1, (events_accounted_iff run).mpr checked.2.2⟩

/-- An idle loop has a report of both events when the write is deleted. -/
def deletedWrite : List (IoCall Unit) :=
  [.addEvent reader 5 .read none true, .addEvent writer 5 .write none true,
    .epollWait ⟨5, fun _ => true, false⟩, .delEvent 5 .write true, .dispatch 0 true]

theorem not_events_accounted :
    ∃ (events : List (IoEvent Unit)) (io : IOManager Unit),
      Run IOManager.step IOManager.Admissible IOManager.new events io ∧
      ¬ EventsAccounted events io := by
  obtain ⟨events, io, run, checked⟩ := exists_run_of_exec
    IOManager.step IOManager.Admissible IOManager.new deletedWrite
    (fun result => result.2.any fun event =>
      match event with
      | .panicked panic => panic == .notRegisted
      | _ => false)
    (by decide +kernel)
  rw [List.any_eq_true] at checked
  obtain ⟨event, member, aborts⟩ := checked
  refine ⟨events, io, run, ?_⟩
  intro accounted
  cases event with
  | panicked panic => exact accounted.alive panic member
  | _ => cases aborts

end CppRaft.Fiber
