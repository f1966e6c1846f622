import CppRaft.Fiber.Registration

/-!
# The ledger of IO events

Every scheduling answers the last registration of its pair, which was neither
scheduled nor deleted before.  The contexts of the manager hold the continuations
that are still owed.
-/

namespace CppRaft.Fiber

open CppRaft.Transition

universe u

variable {κ : Type u}

/-! ## The history of a pair -/

/-- The event is about the registration of the pair. -/
def IoEvent.On (fd : Nat) (event : Event) : IoEvent κ → Prop
  | .registered fd' event' _ | .deleted fd' event' | .scheduled fd' event' _ _ =>
      fd' = fd ∧ event' = event
  | .failed | .dispatched _ | .panicked _ => False

/-- The continuation was registered for the pair, and nothing has happened to
the pair since. -/
def Open (events : List (IoEvent κ)) (fd : Nat) (event : Event) (continuation : Continuation κ) :
    Prop :=
  ∃ older newer, events = older ++ .registered fd event continuation :: newer ∧
    ∀ later ∈ newer, ¬ later.On fd event

/-- Whatever is scheduled for a pair is the continuation that was open for it. -/
def Owed (events : List (IoEvent κ)) : Prop :=
  ∀ before fd event scheduler task after,
    events = before ++ .scheduled fd event scheduler task :: after →
      ∃ continuation, task = some continuation ∧ Open before fd event continuation

variable {events : List (IoEvent κ)} {more : IoEvent κ} {fd : Nat} {event : Event}
  {continuation : Continuation κ}

theorem Open.snoc (opened : Open events fd event continuation) (off : ¬ more.On fd event) :
    Open (events ++ [more]) fd event continuation := by
  obtain ⟨older, newer, rfl, untouched⟩ := opened
  refine ⟨older, newer ++ [more], by simp, ?_⟩
  intro later member
  rcases List.mem_append.mp member with old | new
  · exact untouched later old
  · rw [List.mem_singleton.mp new]
    exact off

theorem open_registered (events : List (IoEvent κ)) (fd : Nat) (event : Event)
    (continuation : Continuation κ) :
    Open (events ++ [.registered fd event continuation]) fd event continuation :=
  ⟨events, [], rfl, by simp⟩

theorem owed_nil : Owed ([] : List (IoEvent κ)) := by
  intro before fd event scheduler task after split
  simp at split

theorem Owed.snoc (owed : Owed events)
    (answers : ∀ fd event scheduler task, more = .scheduled fd event scheduler task →
      ∃ continuation, task = some continuation ∧ Open events fd event continuation) :
    Owed (events ++ [more]) := by
  intro before fd event scheduler task after split
  rcases List.eq_nil_or_concat after with rfl | ⟨rest, last, rfl⟩
  · obtain ⟨rfl, same⟩ := List.append_inj' split rfl
    exact answers fd event scheduler task (List.singleton_inj.mp same)
  · rw [List.concat_eq_append, ← List.cons_append, ← List.append_assoc] at split
    obtain ⟨same, _⟩ := List.append_inj' split rfl
    exact owed before fd event scheduler task rest same

theorem FdContext.pending_put {ctx : FdContext κ} {bit : Bool} {context : EventContext κ}
    {event' : Event} : (ctx.put event bit context).pending event' =
      if event' = event then (if bit then context.task else none) else ctx.pending event' := by
  by_cases same : event' = event
  · subst same
    rw [if_pos rfl, pending, put_events_self, put_context_self]
  · rw [if_neg same, pending, put_events_of_ne same, put_context_of_ne same, pending]

/-- If the kernel lets the report through and one of its events is registered,
all of them are. -/
def Dispatch.Covered (dispatch : Dispatch) : Prop :=
  dispatch.ok = true →
    Events.any (fun event => dispatch.registered event && dispatch.real_events event) = true →
      ∀ event, dispatch.real_events event = true → dispatch.registered event = true

instance (dispatch : Dispatch) : Decidable dispatch.Covered :=
  inferInstanceAs (Decidable (_ → _ → ∀ _, _ → _))

/-! ## The ledger -/

namespace IOManager

variable {io io' : IOManager κ} {ctx : FdContext κ}

/-- The history and the contexts of a live manager. -/
structure Ledger (events : List (IoEvent κ)) (io : IOManager κ) : Prop where
  sound : io.Sound
  opened : ∀ fd event continuation, (io.fdCtx fd).pending event = some continuation →
    Open events fd event continuation
  owed : Owed events
  covered : ∀ dispatch, .dispatched dispatch ∈ events → dispatch.Covered
  alive : ∀ panic, .panicked panic ∉ events
  running : io.aborted = false

theorem ledger_new : (new : IOManager κ).Ledger [] where
  sound := sound_new
  opened := by
    intro fd event continuation waiting
    rw [fdCtx_new] at waiting
    cases waiting
  owed := owed_nil
  covered := by simp
  alive := by simp
  running := rfl

/-- The kernel and the reports have no part in the ledger. -/
theorem Ledger.told (ledger : io.Ledger events) (epoll : Nat → Option Events)
    (reports : List Report) :
    ({ io with epoll := epoll, reports := reports } : IOManager κ).Ledger events :=
  ⟨ledger.sound.told epoll reports, ledger.opened, ledger.owed, ledger.covered, ledger.alive,
    ledger.running⟩

/-- An event that is about no pair. -/
theorem Ledger.off (ledger : io.Ledger events) (sound : io'.Sound)
    (same : ∀ fd, io'.fdCtx fd = io.fdCtx fd) (running : io'.aborted = false)
    (off : ∀ fd event, ¬ more.On fd event)
    (covered : ∀ dispatch, more = .dispatched dispatch → dispatch.Covered)
    (alive : ∀ panic, more ≠ .panicked panic) : io'.Ledger (events ++ [more]) where
  sound := sound
  opened := by
    intro fd event continuation waiting
    rw [same] at waiting
    exact (ledger.opened fd event continuation waiting).snoc (off fd event)
  owed := by
    apply ledger.owed.snoc
    rintro fd event scheduler task rfl
    exact absurd ⟨rfl, rfl⟩ (off fd event)
  covered := by
    intro dispatch member
    rcases List.mem_append.mp member with old | new
    · exact ledger.covered dispatch old
    · exact covered dispatch (List.mem_singleton.mp new).symm
  alive := by
    intro panic member
    rcases List.mem_append.mp member with old | new
    · exact ledger.alive panic old
    · exact alive panic (List.mem_singleton.mp new).symm
  running := running

/-- An event that is about one pair, whose context is written to. -/
theorem Ledger.put (ledger : io.Ledger events) (sound : io'.Sound) (running : io'.aborted = false)
    {bit : Bool} {context : EventContext κ}
    (here : io'.fdCtx fd = (io.fdCtx fd).put event bit context)
    (others : ∀ fd', fd' ≠ fd → io'.fdCtx fd' = io.fdCtx fd')
    (on : ∀ fd' event', more.On fd' event' → fd' = fd ∧ event' = event)
    (opened : bit = true → ∀ continuation, context.task = some continuation →
      Open (events ++ [more]) fd event continuation)
    (answers : ∀ fd event scheduler task, more = .scheduled fd event scheduler task →
      ∃ continuation, task = some continuation ∧ Open events fd event continuation)
    (covered : ∀ dispatch, more ≠ .dispatched dispatch)
    (alive : ∀ panic, more ≠ .panicked panic) : io'.Ledger (events ++ [more]) where
  sound := sound
  opened := by
    intro fd' event' continuation waiting
    by_cases pair : fd' = fd ∧ event' = event
    · obtain ⟨rfl, rfl⟩ := pair
      rw [here, FdContext.pending_put, if_pos rfl] at waiting
      cases bit with
      | true => exact opened rfl continuation waiting
      | false => cases waiting
    · have off : ¬ more.On fd' event' := fun about => pair (on fd' event' about)
      refine (ledger.opened fd' event' continuation ?_).snoc off
      by_cases same : fd' = fd
      · subst same
        rw [here, FdContext.pending_put, if_neg fun equal => pair ⟨rfl, equal⟩] at waiting
        exact waiting
      · rw [others fd' same] at waiting
        exact waiting
  owed := ledger.owed.snoc answers
  covered := by
    intro dispatch member
    rcases List.mem_append.mp member with old | new
    · exact ledger.covered dispatch old
    · exact absurd (List.mem_singleton.mp new).symm (covered dispatch)
  alive := by
    intro panic member
    rcases List.mem_append.mp member with old | new
    · exact ledger.alive panic old
    · exact alive panic (List.mem_singleton.mp new).symm
  running := running

/-- The continuation of a registered event is scheduled. -/
theorem Ledger.scheduled (ledger : io.Ledger events) (set : (io.fdCtx fd).events event = true)
    (waiting : ((io.fdCtx fd).context event).task = some continuation) (scheduler : Nat) :
    (io.clear fd event).Ledger
      (events ++ [.scheduled fd event scheduler (some continuation)]) := by
  refine ledger.put (ledger.sound.clear set) ledger.running (fdCtx_clear_self set)
    (fun _ other => fdCtx_clear_of_ne other) ?_ (fun bit => by cases bit) ?_ (by simp)
    (by simp)
  · rintro fd' event' ⟨rfl, rfl⟩
    exact ⟨rfl, rfl⟩
  · rintro fd' event' scheduler' task ⟨⟩
    refine ⟨continuation, rfl, ledger.opened fd event continuation ?_⟩
    rw [FdContext.pending, if_pos set, waiting]

/-- The registration of an event is deleted. -/
theorem Ledger.deleted (ledger : io.Ledger events) (set : (io.fdCtx fd).events event = true) :
    (io.clear fd event).Ledger (events ++ [.deleted fd event]) := by
  refine ledger.put (ledger.sound.clear set) ledger.running (fdCtx_clear_self set)
    (fun _ other => fdCtx_clear_of_ne other) ?_ (fun bit => by cases bit) ?_ (by simp)
    (by simp)
  · rintro fd' event' ⟨rfl, rfl⟩
    exact ⟨rfl, rfl⟩
  · rintro fd' event' scheduler' task ⟨⟩

/-! ## Triggering -/

/-- Triggering registered events leaves the contexts of other descriptors, the
kernel and the other events alone. -/
structure Triggered (io : IOManager κ) (events : List (IoEvent κ)) (fd : Nat)
    (which : List Event) (result : IOManager κ × List (IoEvent κ)) : Prop where
  ledger : result.1.Ledger (events ++ result.2)
  epoll : result.1.epoll = io.epoll
  others : ∀ fd', fd' ≠ fd → result.1.fdCtx fd' = io.fdCtx fd'
  events : ∀ event, (result.1.fdCtx fd).events event =
    ((io.fdCtx fd).events event && decide (event ∉ which))

theorem Ledger.trigger {which : List Event} (ledger : io.Ledger events) (nodup : which.Nodup)
    (covered : ∀ event ∈ which, (io.fdCtx fd).events event = true) :
    io.Triggered events fd which (trigger fd which io) := by
  induction which generalizing io events with
  | nil =>
      refine ⟨?_, rfl, fun _ _ => rfl, by simp [IOManager.trigger]⟩
      rwa [IOManager.trigger, List.append_nil]
  | cons event rest ih =>
      obtain ⟨fresh, nodup⟩ := List.nodup_cons.mp nodup
      have set := covered event List.mem_cons_self
      obtain ⟨scheduler, continuation, waiting, triggered⟩ :=
        (ledger.sound.contexts fd).triggerEvent set
      have others : ∀ {event'}, event' ≠ event →
          ((io.clear fd event).fdCtx fd).events event' = (io.fdCtx fd).events event' := by
        intro event' other
        rw [fdCtx_clear_self set]
        exact FdContext.put_events_of_ne other
      have later := ih (ledger.scheduled set waiting scheduler) nodup (by
        intro event' member
        rw [others (fun same => fresh (same ▸ member))]
        exact covered event' (List.mem_cons_of_mem event member))
      have unfolded : IOManager.trigger fd (event :: rest) io =
          ((IOManager.trigger fd rest (io.clear fd event)).1,
            .scheduled fd event scheduler (some continuation) ::
              (IOManager.trigger fd rest (io.clear fd event)).2) := by
        rw [IOManager.trigger, triggered]
        rfl
      rw [unfolded]
      exact
        { ledger := by
            have next := later.ledger
            rwa [List.append_assoc] at next
          epoll := later.epoll
          others := fun fd' other => (later.others fd' other).trans (fdCtx_clear_of_ne other)
          events := by
            intro event'
            rw [later.events event']
            by_cases same : event' = event
            · subst same
              rw [fdCtx_clear_self set, FdContext.reset, FdContext.put_events_self]
              simp
            · rw [others same]
              simp [same] }

/-- Triggering an event that is not registered ends the process. -/
theorem trigger_panics {which : List Event} (member : event ∈ which)
    (clear : (io.fdCtx fd).events event = false) :
    ∃ panic, .panicked panic ∈ (trigger fd which io).2 := by
  induction which generalizing io with
  | nil => cases member
  | cons first rest ih =>
      rw [IOManager.trigger]
      cases result : (io.fdCtx fd).triggerEvent first with
      | error panic => exact ⟨panic, List.mem_singleton_self _⟩
      | ok triggered =>
          obtain ⟨ctx, scheduler, task⟩ := triggered
          obtain ⟨set, rfl⟩ := FdContext.triggerEvent_ok result
          have other : event ≠ first := by
            rintro rfl
            rw [clear] at set
            cases set
          have inside := (List.mem_cons.mp member).resolve_left other
          have still : ((io.clear fd first).fdCtx fd).events event = false := by
            rw [fdCtx_clear_self set, FdContext.reset, FdContext.put_events_of_ne other]
            exact clear
          obtain ⟨panic, later⟩ := ih inside still
          exact ⟨panic, List.mem_cons_of_mem _ later⟩

end IOManager

end CppRaft.Fiber
