import CppRaft.Fiber.Accounting

/-!
# Reports that are up to date

An idle loop takes a report from the kernel and acts on it later.  If the events
of a descriptor stay registered while a report of it waits, the report is
covered when an idle loop acts on it, so the events are accounted for.
-/

namespace CppRaft.Fiber

open CppRaft.Transition

universe u

variable {κ : Type u} {events : List (IoEvent κ)} {fd : Nat}

namespace IOManager

variable {io io' : IOManager κ} {report : Report}

/-! ## Current reports -/

/-- The events that the report names are registered. -/
def Current (io : IOManager κ) (report : Report) : Prop :=
  ∀ event, report.events event = true → (io.fdCtx report.fd).events event = true

/-- What the kernel reports is registered. -/
theorem Accounts.current_of_ready (accounts : io.Accounts events)
    (ready : report.Ready io.epoll) : io.Current report := by
  obtain ⟨interest, told, reported⟩ := ready
  have agreed := accounts.kernel report.fd
  rw [Option.mem_def.mp told, FdContext.interest] at agreed
  split_ifs at agreed
  rw [Option.some.inj agreed] at reported
  exact reported

theorem Current.covered (current : io.Current report) (ok : Bool) :
    Dispatch.Covered ⟨(io.fdCtx report.fd).events,
      report.real_events (io.fdCtx report.fd).events, ok⟩ := by
  intro _ _ event happened
  rcases Bool.or_eq_true_iff.mp happened with named | broken
  · exact current event named
  · exact (Bool.and_eq_true_iff.mp broken).2

theorem Current.of_events (current : io.Current report)
    (kept : ∀ event, (io.fdCtx report.fd).events event = true →
      (io'.fdCtx report.fd).events event = true) : io'.Current report :=
  fun event named => kept event (current event named)

/-! ## What a call touches -/

/-- The contexts of other descriptors and the waiting reports are as before. -/
structure Touches (io : IOManager κ) (fd : Nat) (io' : IOManager κ) : Prop where
  reports : io'.reports = io.reports
  others : ∀ fd', fd' ≠ fd → io'.fdCtx fd' = io.fdCtx fd'

theorem touches_refl (io : IOManager κ) (fd : Nat) : io.Touches fd io :=
  ⟨rfl, fun _ _ => rfl⟩

theorem trigger_touches (fd : Nat) (which : List Event) (io : IOManager κ) :
    io.Touches fd (trigger fd which io).1 := by
  induction which generalizing io with
  | nil => exact touches_refl io fd
  | cons event rest ih =>
      rw [trigger]
      cases (io.fdCtx fd).triggerEvent event with
      | error panic => exact ⟨rfl, fun _ _ => rfl⟩
      | ok triggered =>
          obtain ⟨ctx, scheduler, task⟩ := triggered
          have later := ih ({ io with pendingEventCnt_ := io.pendingEventCnt_ - 1 }.setCtx fd ctx)
          exact ⟨later.reports, fun fd' other =>
            (later.others fd' other).trans (fdCtx_setCtx_of_ne other)⟩

/-- The kernel is told before the events are triggered. -/
theorem told_touches (io : IOManager κ) (fd : Nat) (which : List Event)
    (epoll : Nat → Option Events) :
    io.Touches fd (trigger fd which { io with epoll := epoll }).1 :=
  have triggered := trigger_touches fd which { io with epoll := epoll }
  ⟨triggered.reports, triggered.others⟩

theorem delEvent_touches (io : IOManager κ) (fd : Nat) (event : Event) (ok : Bool) :
    io.Touches fd (io.delEvent fd event ok).1 := by
  rw [delEvent]
  split_ifs
  · exact touches_refl io fd
  · exact touches_refl io fd
  · dsimp only
    split
    · exact touches_refl io fd
    · exact ⟨rfl, fun _ other => fdCtx_setCtx_of_ne other⟩

theorem cancelEvent_touches (io : IOManager κ) (fd : Nat) (event : Event) (ok : Bool) :
    io.Touches fd (io.cancelEvent fd event ok).1 := by
  rw [cancelEvent]
  split_ifs
  · exact touches_refl io fd
  · exact touches_refl io fd
  · dsimp only
    split
    · exact touches_refl io fd
    · exact io.told_touches fd _ _

theorem cancelAll_touches (io : IOManager κ) (fd : Nat) (ok : Bool) :
    io.Touches fd (io.cancelAll fd ok).1 := by
  rw [cancelAll]
  split_ifs
  · exact touches_refl io fd
  · exact touches_refl io fd
  · dsimp only
    split
    · exact touches_refl io fd
    · have cleared := io.told_touches fd (io.fdCtx fd).events.toList ‹_›
      split_ifs
      · exact ⟨cleared.reports, cleared.others⟩
      · exact cleared

theorem dispatch_touches (io : IOManager κ) (report : Report) (ok : Bool) :
    io.Touches report.fd (io.dispatch report ok).1 := by
  rw [dispatch]
  dsimp only
  split
  · split
    · exact touches_refl io report.fd
    · exact io.told_touches report.fd _ _
  · exact touches_refl io report.fd

theorem dispatched_not_mem_trigger (fd : Nat) (which : List Event) (io : IOManager κ)
    (acted : Dispatch) : .dispatched acted ∉ (trigger fd which io).2 := by
  induction which generalizing io with
  | nil => exact List.not_mem_nil
  | cons event rest ih =>
      rw [trigger]
      cases (io.fdCtx fd).triggerEvent event with
      | error panic => simp [IOManager.panic]
      | ok triggered => simpa using ih _

/-- An idle loop acts on one report at a time. -/
theorem eq_of_dispatched {ok : Bool} {acted : Dispatch}
    (member : .dispatched acted ∈ (io.dispatch report ok).2) :
    acted = ⟨(io.fdCtx report.fd).events, report.real_events (io.fdCtx report.fd).events, ok⟩ := by
  rw [dispatch] at member
  dsimp only at member
  split at member
  · split at member
    · simpa using member
    · rcases List.mem_cons.mp member with same | triggered
      · exact IoEvent.dispatched.inj same
      · exact absurd triggered (dispatched_not_mem_trigger _ _ _ _)
  · simpa using member

/-- A registration clears no event. -/
theorem Accounts.addEvent_keeps (accounts : io.Accounts events) (caller : Caller) (fd : Nat)
    (event : Event) (cb : Option κ) (ok : Bool) :
    (io.addEvent caller fd event cb ok).1.reports = io.reports ∧
      ∀ fd' event', (io.fdCtx fd').events event' = true →
        ((io.addEvent caller fd event cb ok).1.fdCtx fd').events event' = true := by
  obtain ⟨table, grown, _, inside, same⟩ := accounts.ledger.sound.grow fd
  rw [IOManager.addEvent]
  dsimp only
  rw [grown]
  have before : ∀ fd' event', (io.fdCtx fd').events event' = true →
      (({ io with fdContexts_ := table } : IOManager κ).fdCtx fd').events event' = true := by
    intro fd' event' set
    rw [same]
    exact set
  split
  · exact ⟨rfl, before⟩
  · generalize epollCtl io.epoll _ fd _ ok = result
    cases result with
    | none => exact ⟨rfl, before⟩
    | some epoll =>
        dsimp only
        split
        · exact ⟨rfl, before⟩
        · split
          · exact ⟨rfl, before⟩
          · refine ⟨rfl, fun fd' event' set => ?_⟩
            by_cases here : fd' = fd
            · subst here
              rw [fdCtx_setCtx_self inside]
              by_cases equal : event' = event
              · rw [equal, FdContext.put_events_self]
              · rw [FdContext.put_events_of_ne equal]
                exact before fd' event' set
            · rw [fdCtx_setCtx_of_ne here]
              exact before fd' event' set

/-! ## Runs -/

/-- No event of a descriptor is deleted, cancelled or triggered while another
report of it waits. -/
def Undisturbed (io : IOManager κ) : IoCall κ → Prop
  | .delEvent fd _ _ | .cancelEvent fd _ _ | .cancelAll fd _ =>
      ∀ report ∈ io.reports, report.fd ≠ fd
  | .dispatch i _ =>
      ∀ acted ∈ io.reports[i]?, ∀ report ∈ io.reports.eraseIdx i, report.fd ≠ acted.fd
  | .addEvent _ _ _ _ _ | .epollWait _ => True

theorem Touches.current (touches : io.Touches fd io') (current : ∀ report ∈ io.reports,
    io.Current report) (apart : ∀ report ∈ io.reports, report.fd ≠ fd) :
    ∀ report ∈ io'.reports, io'.Current report := by
  intro report member
  rw [touches.reports] at member
  apply (current report member).of_events
  rw [touches.others report.fd (apart report member)]
  exact fun _ => id

/-- An undisturbed call keeps the accounts and leaves the waiting reports
current. -/
theorem Accounts.undisturbed {call : IoCall κ} {emitted : List (IoEvent κ)}
    (accounts : io.Accounts events) (current : ∀ report ∈ io.reports, io.Current report)
    (admissible : io.Admissible call) (undisturbed : io.Undisturbed call)
    (taken : io.step call = some (io', emitted)) :
    io'.Accounts (events ++ emitted) ∧ ∀ report ∈ io'.reports, io'.Current report := by
  have performed := perform_of_step taken
  cases call with
  | addEvent caller fd event cb ok =>
      obtain ⟨scheduler, running, free⟩ := admissible
      have kept : (io.addEvent caller fd event cb ok).1.Accounts
          (events ++ (io.addEvent caller fd event cb ok).2) :=
        accounts.addEvent scheduler running free
      have keeps := accounts.addEvent_keeps caller fd event cb ok
      rw [Option.some.inj performed] at kept keeps
      refine ⟨kept, fun report member => ?_⟩
      rw [keeps.1] at member
      exact (current report member).of_events (keeps.2 report.fd)
  | delEvent fd event ok =>
      have kept := accounts.delEvent fd event ok
      have touches := io.delEvent_touches fd event ok
      rw [Option.some.inj performed] at kept touches
      exact ⟨kept, touches.current current undisturbed⟩
  | cancelEvent fd event ok =>
      have kept := accounts.cancelEvent fd event ok
      have touches := io.cancelEvent_touches fd event ok
      rw [Option.some.inj performed] at kept touches
      exact ⟨kept, touches.current current undisturbed⟩
  | cancelAll fd ok =>
      have kept := accounts.cancelAll fd ok
      have touches := io.cancelAll_touches fd ok
      rw [Option.some.inj performed] at kept touches
      exact ⟨kept, touches.current current undisturbed⟩
  | epollWait report =>
      simp only [perform, Option.ite_none_right_eq_some, Option.some.injEq, Prod.mk.injEq]
        at performed
      obtain ⟨ready, rfl, rfl⟩ := performed
      rw [List.append_nil]
      refine ⟨⟨accounts.ledger.told io.epoll _, accounts.kernel⟩, fun waiting member => ?_⟩
      rcases List.mem_append.mp member with before | new
      · exact current waiting before
      · rw [List.mem_singleton.mp new]
        exact accounts.current_of_ready ready
  | dispatch i ok =>
      simp only [perform, Option.map_eq_some_iff] at performed
      obtain ⟨report, found, acted⟩ := performed
      have shorter : Accounts events { io with reports := io.reports.eraseIdx i } :=
        ⟨accounts.ledger.told io.epoll _, accounts.kernel⟩
      have touches := dispatch_touches { io with reports := io.reports.eraseIdx i } report ok
      have covered := Current.covered (current report (List.mem_of_getElem? found)) ok
      rcases shorter.dispatch report ok with kept | ⟨⟨dispatch, member, uncovered⟩, _⟩
      · rw [acted] at kept touches
        exact ⟨kept, touches.current
          (fun waiting member => current waiting (List.mem_of_mem_eraseIdx member))
          (undisturbed report found)⟩
      · rw [eq_of_dispatched member] at uncovered
        exact absurd covered uncovered

theorem accounts_of_undisturbed (run : Run step (fun io call =>
    io.Admissible call ∧ io.Undisturbed call) new events io) :
    io.Accounts events ∧ ∀ report ∈ io.reports, io.Current report := by
  induction run with
  | nil => exact ⟨accounts_new, fun _ member => absurd member List.not_mem_nil⟩
  | snoc _ accepted taken ih => exact ih.1.undisturbed ih.2 accepted.1 accepted.2 taken

end IOManager

/-- In every run in which no event of a descriptor is deleted, cancelled or
triggered while another report of it waits, the events are accounted for. -/
theorem eventsAccounted_of_undisturbed {io : IOManager κ}
    (run : Run IOManager.step (fun io call => io.Admissible call ∧ io.Undisturbed call)
      IOManager.new events io) : EventsAccounted events io :=
  (IOManager.accounts_of_undisturbed run).1.eventsAccounted

end CppRaft.Fiber
