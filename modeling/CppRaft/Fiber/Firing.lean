import CppRaft.Fiber.Expiry

/-!
# Timers fire when they are due

In a sequence of calls the timers stay tidy, a one-shot timer is returned at
most once, and a cancelled one never again.  A timer is returned early only when
the clock goes back by less than an hour in its first hour.
-/

namespace CppRaft.Fiber

open CppRaft.Container
open CppRaft.Transition

universe u

variable {α : Type u}

namespace Listing

/-- The timers whose callbacks are returned. -/
def returned (l : Listing α) : List Nat :=
  l.cbs.map Prod.fst

/-- The callbacks are those of the timers, and none is null. -/
def Callbacks (l : Listing α) : Prop :=
  ∀ entry ∈ l.cbs, entry.2 ≠ none ∧
    ∃ timer, l.manager.objects[entry.1]? = some timer ∧ timer.cb_ = entry.2

/-- A timer is returned only if it is due, or the clock is more than an hour
behind the previous reading. -/
def OnlyDue (l : Listing α) : Prop :=
  ∀ p ∈ l.returned, ∀ timer ∈ l.manager.objects[p]?, timer.next_ ≤ l.now_ms ∨
    l.now_ms.toNat + 60 * 60 * 1000 < l.manager.previouseTime_.toNat

/-- Every timer of the set that is due is returned. -/
def AllDue (l : Listing α) : Prop :=
  ∀ p ∈ l.manager.timers_, ∀ timer ∈ l.manager.objects[p]?, timer.next_ ≤ l.now_ms →
    p ∈ l.returned

/-- The clock has not gone back since a reading of its first hour, unless every
timer is due. -/
def Steady (l : Listing α) : Prop :=
  l.now_ms < l.manager.previouseTime_ → l.manager.previouseTime_.toNat < 60 * 60 * 1000 →
    ∀ p ∈ l.manager.timers_, ∀ timer ∈ l.manager.objects[p]?, timer.next_ ≤ l.now_ms

/-- What a call returns, as a set. -/
def Exact (l : Listing α) : Prop :=
  ∀ p, p ∈ l.returned ↔ p ∈ l.manager.timers_ ∧
    ((l.manager.detectClockRolllover l.now_ms).2 = true ∨ l.manager.Due l.now_ms p)

instance (l : Listing α) : Decidable l.Steady :=
  inferInstanceAs (Decidable (_ → _ → ∀ p ∈ _, ∀ timer ∈ _, _ ≤ _))

theorem Exact.allDue {l : Listing α} (exactly : l.Exact) : l.AllDue := by
  intro p member timer found due
  exact (exactly p).mpr ⟨member, Or.inr ⟨timer, found, due⟩⟩

/-- Only due timers are returned exactly when the clock is steady. -/
theorem Exact.onlyDue_iff {l : Listing α} (exactly : l.Exact) : l.OnlyDue ↔ l.Steady := by
  constructor
  · intro only back first p member timer found
    have seen := (exactly p).mpr ⟨member, Or.inl
      (TimerManager.detectClockRolllover_iff.mpr ⟨back, Or.inl first⟩)⟩
    rcases only p seen timer found with due | hour
    · exact due
    · omega
  · intro steady p seen timer found
    obtain ⟨member, rollover | due⟩ := (exactly p).mp seen
    · obtain ⟨back, first | hour⟩ := TimerManager.detectClockRolllover_iff.mp rollover
      · exact Or.inl (steady back first p member timer found)
      · exact Or.inr hour
    · exact Or.inl ((TimerManager.Due.iff found).mp due)

end Listing

/-- The timers whose callbacks an event returns. -/
def TimerEvent.returned : TimerEvent α → List Nat
  | .cancelled _ => []
  | .listed l => l.returned

/-- The clock is steady at the event. -/
def TimerEvent.Steady : TimerEvent α → Prop
  | .cancelled _ => True
  | .listed l => l.Steady

instance : (event : TimerEvent α) → Decidable event.Steady
  | .cancelled _ => isTrue trivial
  | .listed l => inferInstanceAs (Decidable l.Steady)

/-- All returned timers of a history. -/
def returned (events : List (TimerEvent α)) : List Nat :=
  events.flatMap TimerEvent.returned

namespace TimerManager

variable {tm tm' : TimerManager α} {events emitted : List (TimerEvent α)} {call : TimerCall α}

/-! ## One call -/

/-- What a call that leads from `tm` to `tm'` can emit. -/
inductive Emits (tm tm' : TimerManager α) : List (TimerEvent α) → Prop
  | silent : Emits tm tm' []
  | cancelled {p : Nat} : tm'.Spent p → Emits tm tm' [.cancelled p]
  | listed {now_ms : UInt64} {cbs : List (Nat × Option α)} :
      Swept (cbs.map Prod.fst) tm tm' cbs → (cbs.map Prod.fst).Nodup →
      Listing.Exact ⟨tm, now_ms, cbs⟩ → Emits tm tm' [.listed ⟨tm, now_ms, cbs⟩]

theorem Tidy.step (tidy : tm.Tidy []) (taken : tm.step call = some (tm', emitted)) :
    tm.Called tm' ∧ tm.Emits tm' emitted := by
  cases call with
  | addTimer ms cb recurring now address =>
      simp only [TimerManager.step, Option.ite_none_right_eq_some, Option.some.injEq,
        Prod.mk.injEq] at taken
      obtain ⟨free, rfl, rfl⟩ := taken
      exact ⟨tidy.addTimer free ms cb recurring now, Emits.silent⟩
  | cancel p =>
      cases found : tm.objects[p]? with
      | none => simp [TimerManager.step, TimerManager.cancel, found] at taken
      | some timer =>
          obtain ⟨_, answer, result, called, spent⟩ := tidy.cancel found
          simp only [TimerManager.step, result, Option.map_some, Option.some.injEq,
            Prod.mk.injEq] at taken
          obtain ⟨rfl, rfl⟩ := taken
          refine ⟨called, ?_⟩
          split_ifs with yes
          · exact Emits.cancelled (spent yes)
          · exact Emits.silent
  | refresh p now =>
      cases found : tm.objects[p]? with
      | none => simp [TimerManager.step, TimerManager.refresh, found] at taken
      | some timer =>
          obtain ⟨_, answer, result, called⟩ := tidy.refresh found now
          simp only [TimerManager.step, result, Option.map_some, Option.some.injEq,
            Prod.mk.injEq] at taken
          obtain ⟨rfl, rfl⟩ := taken
          exact ⟨called, Emits.silent⟩
  | reset p ms from_now now =>
      cases found : tm.objects[p]? with
      | none => simp [TimerManager.step, TimerManager.reset, found] at taken
      | some timer =>
          obtain ⟨_, answer, result, called⟩ := tidy.reset found ms from_now now
          simp only [TimerManager.step, result, Option.map_some, Option.some.injEq,
            Prod.mk.injEq] at taken
          obtain ⟨rfl, rfl⟩ := taken
          exact ⟨called, Emits.silent⟩
  | getNextTimer now =>
      obtain ⟨_, wait, result, called⟩ := tidy.getNextTimer now
      simp only [TimerManager.step, result, Option.map_some, Option.some.injEq,
        Prod.mk.injEq] at taken
      obtain ⟨rfl, rfl⟩ := taken
      exact ⟨called, Emits.silent⟩
  | listExpiredCb now_ms address =>
      obtain ⟨expired, _, cbs, result, swept, nodup, exactly⟩ := tidy.listExpiredCb now_ms address
      simp only [TimerManager.step, result, Option.map_some, Option.some.injEq,
        Prod.mk.injEq] at taken
      obtain ⟨rfl, rfl⟩ := taken
      obtain rfl := swept.listed
      exact ⟨swept.called, Emits.listed swept nodup exactly⟩

/-- A call on an existing timer, and a new timer at a free address. -/
def Meets (tm : TimerManager α) : TimerCall α → Prop
  | .addTimer _ _ _ _ address => tm.Free address
  | .cancel p | .refresh p _ | .reset p _ _ _ => p < tm.objects.length
  | .getNextTimer _ | .listExpiredCb _ _ => True

/-- No such call is undefined. -/
theorem Tidy.answers (tidy : tm.Tidy []) (meets : tm.Meets call) : (tm.step call).isSome := by
  cases call with
  | addTimer ms cb recurring now address =>
      have free : tm.Free address := meets
      simp [TimerManager.step, free]
  | cancel p =>
      obtain ⟨_, _, result, _⟩ := tidy.cancel (List.getElem?_eq_getElem meets)
      simp [TimerManager.step, result]
  | refresh p now =>
      obtain ⟨_, _, result, _⟩ := tidy.refresh (List.getElem?_eq_getElem meets) now
      simp [TimerManager.step, result]
  | reset p ms from_now now =>
      obtain ⟨_, _, result, _⟩ := tidy.reset (List.getElem?_eq_getElem meets) ms from_now now
      simp [TimerManager.step, result]
  | getNextTimer now =>
      obtain ⟨_, _, result, _⟩ := tidy.getNextTimer now
      simp [TimerManager.step, result]
  | listExpiredCb now_ms address =>
      obtain ⟨_, _, _, result, _⟩ := tidy.listExpiredCb now_ms address
      simp [TimerManager.step, result]

/-! ## The history -/

/-- What the history of a manager has to do with its timers. -/
structure Fired (events : List (TimerEvent α)) (tm : TimerManager α) : Prop where
  tidy : tm.Tidy []
  listed : ∀ l, .listed l ∈ events → l.Callbacks ∧ l.Exact
  /-- A one-shot timer that was returned has no callback left. -/
  ended : ∀ p ∈ returned events, ∃ timer, tm.objects[p]? = some timer ∧
    (timer.recurring_ = false → timer.cb_ = none)
  cancelled : ∀ p, .cancelled p ∈ events → tm.Spent p
  once : ∀ p timer, tm.objects[p]? = some timer → timer.recurring_ = false →
    (returned events).count p ≤ 1
  silent : events.Pairwise fun event event' => ∀ p, event = .cancelled p → p ∉ event'.returned

theorem fired_new (now : UInt64) : (new now : TimerManager α).Fired [] where
  tidy := tidy_new now
  listed := by simp
  ended := by simp [returned]
  cancelled := by simp
  once := by simp [returned]
  silent := List.Pairwise.nil

/-- A one-shot timer that was returned before a call is spent. -/
theorem Fired.spent (fired : tm.Fired events) (later : tm.Later tm') {p : Nat} {timer : Timer α}
    (found : tm'.objects[p]? = some timer) (kind : timer.recurring_ = false)
    (seen : p ∈ returned events) : tm.Spent p := by
  obtain ⟨old, there, null⟩ := fired.ended p seen
  obtain ⟨timer', found', kind', _⟩ := later p old there
  rw [found, Option.some.injEq] at found'
  subst found'
  exact ⟨old, there, null (kind'.symm.trans kind)⟩

/-- A one-shot timer was returned at most once before a call. -/
theorem Fired.count_le_one (fired : tm.Fired events) (later : tm.Later tm') {p : Nat}
    {timer : Timer α} (found : tm'.objects[p]? = some timer) (kind : timer.recurring_ = false) :
    (returned events).count p ≤ 1 := by
  by_cases seen : p ∈ returned events
  · obtain ⟨old, there, _⟩ := fired.ended p seen
    obtain ⟨timer', found', kind', _⟩ := later p old there
    rw [found, Option.some.injEq] at found'
    subst found'
    exact fired.once p old there (kind'.symm.trans kind)
  · rw [List.count_eq_zero_of_not_mem seen]
    exact Nat.zero_le 1

/-- What was returned before a call still holds after it. -/
theorem Fired.ended_later (fired : tm.Fired events) (later : tm.Later tm') {p : Nat}
    (seen : p ∈ returned events) : ∃ timer, tm'.objects[p]? = some timer ∧
      (timer.recurring_ = false → timer.cb_ = none) := by
  obtain ⟨old, there, null⟩ := fired.ended p seen
  obtain ⟨timer, found, kind, null'⟩ := later p old there
  exact ⟨timer, found, fun oneShot => null' (null (kind.symm.trans oneShot))⟩

theorem returned_append (events more : List (TimerEvent α)) :
    returned (events ++ more) = returned events ++ returned more :=
  List.flatMap_append

theorem Swept.armed {expired : List Nat} {cbs : List (Nat × Option α)}
    (swept : Swept expired tm tm' cbs) {p : Nat} (member : p ∈ expired) : tm.Armed p := by
  rw [← swept.listed] at member
  obtain ⟨entry, listed, rfl⟩ := List.mem_map.mp member
  obtain ⟨filled, timer, found, cb⟩ := swept.callbacks entry listed
  exact ⟨timer, found, cb ▸ filled⟩

theorem Fired.step (fired : tm.Fired events) (taken : tm.step call = some (tm', emitted)) :
    tm'.Fired (events ++ emitted) := by
  obtain ⟨called, emits⟩ := fired.tidy.step taken
  have later := called.later
  cases emits with
  | silent =>
      rw [List.append_nil]
      exact
        { tidy := called.tidy
          listed := fired.listed
          ended := fun p seen => fired.ended_later later seen
          cancelled := fun p gone => later.spent (fired.cancelled p gone)
          once := fun p timer found kind => fired.count_le_one later found kind
          silent := fired.silent }
  | @cancelled p spent =>
      have same : returned (events ++ [.cancelled p]) = returned events := by
        rw [returned_append]
        exact List.append_nil _
      exact
        { tidy := called.tidy
          listed := fun l member => fired.listed l (by simpa using member)
          ended := fun q seen => fired.ended_later later (same ▸ seen)
          cancelled := by
            intro q gone
            rcases List.mem_append.mp gone with before | now
            · exact later.spent (fired.cancelled q before)
            · cases List.mem_singleton.mp now
              exact spent
          once := by
            intro q timer found kind
            rw [same]
            exact fired.count_le_one later found kind
          silent := by
            refine List.pairwise_append.mpr ⟨fired.silent, List.pairwise_singleton _ _, ?_⟩
            intro event _ event' now q _
            cases List.mem_singleton.mp now
            exact List.not_mem_nil }
  | @listed now_ms cbs swept nodup exactly =>
      have more : returned (events ++ [.listed ⟨tm, now_ms, cbs⟩]) =
          returned events ++ cbs.map Prod.fst := by
        rw [returned_append]
        exact congrArg (returned events ++ ·) (List.append_nil _)
      exact
        { tidy := called.tidy
          listed := by
            intro l member
            rcases List.mem_append.mp member with before | now
            · exact fired.listed l before
            · cases List.mem_singleton.mp now
              exact ⟨swept.callbacks, exactly⟩
          ended := by
            intro q seen
            rw [more] at seen
            rcases List.mem_append.mp seen with before | now
            · exact fired.ended_later later before
            · obtain ⟨old, there, _⟩ := swept.armed now
              obtain ⟨timer, found, kind, _⟩ := later q old there
              refine ⟨timer, found, ?_⟩
              intro oneShot
              obtain ⟨timer', found', null⟩ :=
                swept.oneShot q now old there (kind.symm.trans oneShot)
              rw [found, Option.some.injEq] at found'
              subst found'
              exact null
          cancelled := by
            intro q gone
            rcases List.mem_append.mp gone with before | now
            · exact later.spent (fired.cancelled q before)
            · cases List.mem_singleton.mp now
          once := by
            intro q timer found kind
            rw [more, List.count_append]
            by_cases seen : q ∈ returned events
            · -- It was returned before, so it has no callback to return.
              have spent := fired.spent later found kind seen
              have fresh : q ∉ cbs.map Prod.fst := fun now => spent.not_armed (swept.armed now)
              rw [List.count_eq_zero_of_not_mem fresh]
              exact fired.count_le_one later found kind
            · rw [List.count_eq_zero_of_not_mem seen, Nat.zero_add]
              exact List.nodup_iff_count.mp nodup q
          silent := by
            refine List.pairwise_append.mpr ⟨fired.silent, List.pairwise_singleton _ _, ?_⟩
            rintro event before event' now q rfl seen
            cases List.mem_singleton.mp now
            exact (fired.cancelled q before).not_armed (swept.armed seen) }

theorem fired_of_run {now : UInt64} (run : Run TimerManager.step anyStep (new now) events tm) :
    tm.Fired events := by
  apply run.invariant (fired_new now)
  intro events state action target emitted fired _ taken
  exact fired.step taken

end TimerManager

/-- What the callbacks of a manager's timers have to do with its clock. -/
structure TimersFire (events : List (TimerEvent α)) (tm : TimerManager α) : Prop where
  onlyDue : ∀ l, .listed l ∈ events → l.OnlyDue
  allDue : ∀ l, .listed l ∈ events → l.AllDue
  callbacks : ∀ l, .listed l ∈ events → l.Callbacks
  /-- A one-shot timer is returned at most once. -/
  once : ∀ p timer, tm.objects[p]? = some timer → timer.recurring_ = false →
    (returned events).count p ≤ 1
  /-- A timer is not returned after a `cancel` that has answered true. -/
  silent : events.Pairwise fun event event' => ∀ p, event = .cancelled p → p ∉ event'.returned
  /-- The set holds exactly the timers with a callback. -/
  registered : ∀ p, p ∈ tm.timers_ ↔ ∃ timer, tm.objects[p]? = some timer ∧ timer.cb_ ≠ none
  /-- No call on an existing timer is undefined. -/
  answers : ∀ call, tm.Meets call → (tm.step call).isSome

/-- The history of a manager is as it should be up to the steadiness of the
clock. -/
theorem TimerManager.Fired.timersFire_iff {events : List (TimerEvent α)} {tm : TimerManager α}
    (fired : tm.Fired events) : TimersFire events tm ↔ ∀ event ∈ events, event.Steady := by
  constructor
  · intro fire event member
    cases event with
    | cancelled p => trivial
    | listed l => exact (fired.listed l member).2.onlyDue_iff.mp (fire.onlyDue l member)
  · intro steady
    exact
      { onlyDue := fun l member => (fired.listed l member).2.onlyDue_iff.mpr (steady _ member)
        allDue := fun l member => (fired.listed l member).2.allDue
        callbacks := fun l member => (fired.listed l member).1
        once := fired.once
        silent := fired.silent
        registered := by
          intro p
          rw [fired.tidy.mem_timers_]
          exact and_iff_left List.not_mem_nil
        answers := fun call meets => fired.tidy.answers meets }

/-- Three timers, of which the second one is recurring and the third one is
cancelled.  The clock goes back by a moment, and later by more than an hour. -/
def threeTimers : List (TimerCall Unit) :=
  [.addTimer 5 () false 8000000 1, .addTimer 10 () true 8000000 2,
    .addTimer 50 () false 8000000 3, .reset 2 20 false 8000001, .listExpiredCb 8000010 4,
    .listExpiredCb 8000009 4, .cancel 2, .listExpiredCb 4000000 4]

/-- A timer of five seconds is added shortly after boot.  Of two calls that
overlap, the one with the smaller reading comes second. -/
def earlyTimer : List (TimerCall Unit) :=
  [.addTimer 5000 () false 950 1, .listExpiredCb 1000 2, .listExpiredCb 999 2]

end CppRaft.Fiber
