import CppRaft.Fiber.Armed

/-!
# Expired timers

A call of `listExpiredCb` takes the timers that are due from the front of the
set.  When it sees a rollback of the clock it takes all of them.
-/

namespace CppRaft.Fiber

open CppRaft.Container
open CppRaft.Transition

universe u

variable {α : Type u}

namespace TimerManager

variable {tm tm' : TimerManager α} {p : Nat} {now_ms address : UInt64} {rollover : Bool}

/-- The timer is due. -/
def Due (tm : TimerManager α) (now_ms : UInt64) (p : Nat) : Prop :=
  ∃ timer, tm.objects[p]? = some timer ∧ timer.next_ ≤ now_ms

/-! ## The rollback of the clock -/

/-- In the first hour every step back of the clock counts as a rollback, since
the difference is taken modulo 2 ^ 64. -/
theorem detectClockRolllover_iff : (tm.detectClockRolllover now_ms).2 = true ↔
    now_ms < tm.previouseTime_ ∧ (tm.previouseTime_.toNat < 60 * 60 * 1000 ∨
      now_ms.toNat + 60 * 60 * 1000 < tm.previouseTime_.toNat) := by
  have wrapped : (tm.previouseTime_ - 60 * 60 * 1000).toNat =
      (2 ^ 64 - 60 * 60 * 1000 + tm.previouseTime_.toNat) % 2 ^ 64 := UInt64.toNat_sub _ _
  have bound := tm.previouseTime_.toNat_lt
  simp only [detectClockRolllover, decide_eq_true_eq, UInt64.lt_iff_toNat_lt, wrapped]
  omega

/-! ## The front of the set -/

/-- What is in front of a due timer is due. -/
theorem due_of_before {q : Nat} (first : tm.before p q = true) (due : tm.Due now_ms q)
    (armed : tm.Armed p) : tm.Due now_ms p := by
  obtain ⟨timer', found', due⟩ := due
  obtain ⟨timer, found, _⟩ := armed
  refine ⟨timer, found, ?_⟩
  rw [before, found, found', Timer.comparator_some] at first
  simp only [UInt64.lt_iff_toNat_lt, UInt64.le_iff_toNat_le, ← UInt64.toNat_inj] at *
  omega

/-- The timers in front of the iterator are taken out. -/
theorem Tidy.splitExpired (tidy : tm.Tidy []) (rollover : Bool) (now_ms address : UInt64) :
    ({ tm with timers_ := (tm.splitExpired rollover now_ms address).2 } : TimerManager α).Tidy
      (tm.splitExpired rollover now_ms address).1 := by
  have parts : (tm.splitExpired rollover now_ms address).1 ++
      (tm.splitExpired rollover now_ms address).2 = tm.timers_ := by
    cases rollover with
    | true => simp [TimerManager.splitExpired]
    | false => simp [TimerManager.splitExpired, lowerBound, List.append_assoc]
  exact tidy.takeOut (.of_eq parts.symm) (List.IsSuffix.sublist ⟨_, parts⟩)

theorem beforeNow_of_before {q : Nat} (first : tm.before p q = true)
    (second : tm.beforeNow now_ms address q = true) : tm.beforeNow now_ms address p = true :=
  Timer.comparator_strictWeak.trans first second

theorem beforeNow_iff {timer : Timer α} (found : tm.objects[p]? = some timer) :
    tm.beforeNow now_ms address p = true ↔
      timer.next_ < now_ms ∨ timer.next_ = now_ms ∧ timer.address < address := by
  rw [beforeNow, found, Timer.comparator_some]

theorem atNow_iff {timer : Timer α} (found : tm.objects[p]? = some timer) :
    tm.atNow now_ms p = true ↔ timer.next_ = now_ms := by
  rw [atNow, found, Option.any_some, beq_iff_eq]

theorem Due.iff {timer : Timer α} (found : tm.objects[p]? = some timer) :
    tm.Due now_ms p ↔ timer.next_ ≤ now_ms := by
  simp [Due, found]

/-- Behind the timers before `now_timer`, the next ones up to the reading are
those that are due at it. -/
theorem Tidy.mem_takeWhile_atNow (tidy : tm.Tidy []) :
    p ∈ (tm.timers_.dropWhile (tm.beforeNow now_ms address)).takeWhile (tm.atNow now_ms) ↔
      (p ∈ tm.timers_ ∧ tm.beforeNow now_ms address p = false) ∧ tm.atNow now_ms p = true := by
  have behind : ∀ q, q ∈ tm.timers_.dropWhile (tm.beforeNow now_ms address) ↔
      q ∈ tm.timers_ ∧ tm.beforeNow now_ms address q = false := fun q =>
    tidy.sorted.mem_dropWhile tm.before_strictWeak fun _ _ _ _ => beforeNow_of_before
  have rest := tidy.sorted.sublist (List.dropWhile_sublist (tm.beforeNow now_ms address))
  rw [rest.mem_takeWhile, behind]
  intro q here r there first second
  obtain ⟨member, notBefore⟩ := (behind q).mp here
  obtain ⟨timer, found, _⟩ := (tidy.mem_timers_.mp member).1
  obtain ⟨timer', found', _⟩ := (tidy.mem_timers_.mp ((behind r).mp there).1).1
  rw [← Bool.not_eq_true, beforeNow_iff found] at notBefore
  rw [atNow_iff found'] at second
  rw [atNow_iff found]
  rw [before, found, found', Timer.comparator_some] at first
  simp only [UInt64.lt_iff_toNat_lt, ← UInt64.toNat_inj] at *
  omega

/-- The iterator stands behind the timers that are due. -/
theorem Tidy.mem_splitExpired (tidy : tm.Tidy []) :
    p ∈ (tm.splitExpired rollover now_ms address).1 ↔
      p ∈ tm.timers_ ∧ (rollover = true ∨ tm.Due now_ms p) := by
  cases rollover with
  | true => simp [TimerManager.splitExpired]
  | false =>
      simp only [TimerManager.splitExpired, lowerBound, Bool.false_eq_true, if_false,
        List.mem_append, false_or]
      rw [tidy.mem_takeWhile_atNow,
        tidy.sorted.mem_takeWhile fun _ _ _ _ => beforeNow_of_before, ← Bool.not_eq_true]
      by_cases member : p ∈ tm.timers_
      · obtain ⟨timer, found, _⟩ := (tidy.mem_timers_.mp member).1
        rw [beforeNow_iff found, atNow_iff found, Due.iff found]
        simp only [member, true_and, UInt64.lt_iff_toNat_lt, UInt64.le_iff_toNat_le,
          ← UInt64.toNat_inj]
        omega
      · simp [member]

/-! ## The sweep -/

theorem Tidy.sweepOne {expired : List Nat} (tidy : tm.Tidy (p :: expired)) {timer : Timer α}
    (found : tm.objects[p]? = some timer) (now_ms : UInt64) :
    (tm.sweepOne now_ms p timer).Tidy expired ∧ tm.Later (tm.sweepOne now_ms p timer) ∧
      (timer.recurring_ = false → (tm.sweepOne now_ms p timer).Spent p) := by
  rw [TimerManager.sweepOne]
  split_ifs with kind
  · have later : tm.Later (tm.put p { timer with next_ := now_ms + timer.ms_ }) :=
      Later.put found rfl id
    have out : (tm.put p { timer with next_ := now_ms + timer.ms_ }).Tidy (p :: expired) :=
      tidy.put found rfl rfl
    refine ⟨out.insert, later, ?_⟩
    intro oneShot
    rw [oneShot] at kind
    cases kind
  · exact ⟨tidy.disarm found, Later.put found rfl fun _ => rfl,
      fun _ => ⟨_, objects_put_self found, rfl⟩⟩

theorem sweepOne_objects_of_ne {q : Nat} (other : q ≠ p) (timer : Timer α) :
    (tm.sweepOne now_ms p timer).objects[q]? = tm.objects[q]? := by
  rw [sweepOne]
  split_ifs
  · exact objects_put_of_ne other
  · exact objects_put_of_ne other

/-- A sweep lists the callbacks that the expired timers have had, and leaves the
one-shot ones without any. -/
structure Swept (expired : List Nat) (tm tm' : TimerManager α) (cbs : List (Nat × Option α)) :
    Prop where
  called : tm.Called tm'
  listed : cbs.map Prod.fst = expired
  callbacks : ∀ entry ∈ cbs, entry.2 ≠ none ∧
    ∃ timer, tm.objects[entry.1]? = some timer ∧ timer.cb_ = entry.2
  oneShot : ∀ p ∈ expired, ∀ timer, tm.objects[p]? = some timer → timer.recurring_ = false →
    tm'.Spent p

theorem Tidy.sweep {expired : List Nat} (tidy : tm.Tidy expired) (now_ms : UInt64) :
    ∃ tm' cbs, sweep now_ms expired tm = some (tm', cbs) ∧ Swept expired tm tm' cbs := by
  induction expired generalizing tm with
  | nil => exact ⟨tm, [], rfl, ⟨tidy, Later.refl tm⟩, rfl, by simp, by simp⟩
  | cons p expired ih =>
      obtain ⟨timer, found, filled⟩ := tidy.armed List.mem_cons_self
      obtain ⟨fresh, _⟩ := List.nodup_cons.mp tidy.nodup
      obtain ⟨tidy', later, spent⟩ := tidy.sweepOne found now_ms
      obtain ⟨tm', cbs, swept, rest⟩ := ih tidy'
      have other : ∀ {q}, q ∈ expired → q ≠ p := by
        rintro q member rfl
        exact fresh member
      refine ⟨tm', (p, timer.cb_) :: cbs, by simp [TimerManager.sweep, found, swept], ?_⟩
      exact
        { called := ⟨rest.called.tidy, later.trans rest.called.later⟩
          listed := congrArg (p :: ·) rest.listed
          callbacks := by
            intro entry member
            rcases List.mem_cons.mp member with rfl | member
            · exact ⟨filled, timer, found, rfl⟩
            · obtain ⟨some, old, found', cb⟩ := rest.callbacks entry member
              have inside : entry.1 ∈ expired := rest.listed ▸ List.mem_map_of_mem member
              rw [sweepOne_objects_of_ne (other inside)] at found'
              exact ⟨some, old, found', cb⟩
          oneShot := by
            intro q member old found' kind
            rcases List.mem_cons.mp member with rfl | member
            · rw [found, Option.some.injEq] at found'
              subst found'
              exact rest.called.later.spent (spent kind)
            · rw [← sweepOne_objects_of_ne (other member) timer] at found'
              exact rest.oneShot q member old found' kind }

/-- What `listExpiredCb` does. -/
theorem Tidy.listExpiredCb (tidy : tm.Tidy []) (now_ms address : UInt64) :
    ∃ expired tm' cbs, tm.listExpiredCb now_ms address = some (tm', cbs) ∧
      Swept expired tm tm' cbs ∧ expired.Nodup ∧ ∀ p, p ∈ expired ↔
        p ∈ tm.timers_ ∧ ((tm.detectClockRolllover now_ms).2 = true ∨ tm.Due now_ms p) := by
  have tidy' : (tm.detectClockRolllover now_ms).1.Tidy [] :=
    ⟨tidy.sorted, tidy.mem_timers_, tidy.armed, tidy.nodup, tidy.apart⟩
  rw [TimerManager.listExpiredCb]
  cases set : tm.timers_ with
  | nil =>
      refine ⟨[], tm, [], rfl, ⟨⟨tidy, Later.refl tm⟩, rfl, by simp, by simp⟩, List.nodup_nil, ?_⟩
      simp
  | cons first others =>
      obtain ⟨⟨timer, found, filled⟩, _⟩ := tidy.mem_timers_.mp
        (set ▸ List.mem_cons_self : first ∈ tm.timers_)
      have found' : (tm.detectClockRolllover now_ms).1.objects[first]? = some timer := found
      dsimp only
      rw [found']
      dsimp only
      split_ifs with early
      · -- The first timer is not due, so no timer is.
        refine ⟨[], _, [], rfl, ⟨⟨tidy', Later.refl tm⟩, rfl, by simp, by simp⟩, List.nodup_nil, ?_⟩
        have sorted := tidy.sorted
        rw [set, Sorted, List.pairwise_cons] at sorted
        have waits : ¬ tm.Due now_ms first := by
          rw [Due.iff found]
          exact UInt64.not_le.mpr early.2
        intro p
        simp only [List.not_mem_nil, early.1, Bool.false_eq_true, false_or, false_iff, not_and]
        intro member due
        rcases List.mem_cons.mp member with rfl | member
        · exact waits due
        · exact waits (due_of_before (sorted.1 p member) due ⟨timer, found, filled⟩)
      · have taken := tidy'.splitExpired (tm.detectClockRolllover now_ms).2 now_ms address
        obtain ⟨tm', cbs, listed, swept⟩ := taken.sweep now_ms
        refine ⟨_, tm', cbs, listed, ⟨⟨swept.called.tidy, swept.called.later⟩, swept.listed,
          swept.callbacks, swept.oneShot⟩, taken.nodup, ?_⟩
        intro p
        rw [tidy'.mem_splitExpired, ← set]
        rfl

end TimerManager

end CppRaft.Fiber
