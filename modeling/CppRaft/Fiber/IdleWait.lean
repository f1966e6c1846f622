import CppRaft.Fiber.Firing
import CppRaft.Fiber.IOManager
import Mathlib.Algebra.Group.Int.Defs
import Mathlib.Algebra.Group.Nat.Defs

/-!
# The wait of an idle loop

An idle loop waits in `epoll_wait` until the earliest timer is due, but for five
seconds at most.  The time goes from 64 bits to an `int` and back before it
gets there.
-/

namespace CppRaft.Fiber

open CppRaft.Container
open CppRaft.Transition

universe u v

variable {α : Type u} {κ : Type v}

/-! ## The timeouts -/

/-- The static constant of `idle`, in milliseconds. -/
def MAX_TIMEOUT : Int32 :=
  5000

/-- The cast from `uint64_t` to `int`. -/
def castInt (x : UInt64) : Int32 :=
  x.toUInt32.toInt32

/-- What an iteration of the loop leaves in `next_timeout`. -/
def limitTimeout (next_timeout : UInt64) : UInt64 :=
  if next_timeout ≠ ~~~0 then (min (castInt next_timeout) MAX_TIMEOUT).toInt64.toUInt64
  else MAX_TIMEOUT.toInt64.toUInt64

/-- The timeouts of `epoll_wait`, of which the first calls are interrupted by a
signal. -/
def epollTimeouts : Nat → UInt64 → List Int32
  | 0, next_timeout => [castInt (limitTimeout next_timeout)]
  | interrupts + 1, next_timeout =>
      castInt (limitTimeout next_timeout) :: epollTimeouts interrupts (limitTimeout next_timeout)

namespace IOManager

/-- `stopping(timeout)`, where the scheduler answers `stopped`. -/
def stopping (io : IOManager κ) (tm : TimerManager α) (stopped : Bool) (now : UInt64) :
    Option (TimerManager α × UInt64 × Bool) :=
  (tm.getNextTimer now).map fun next =>
    (next.1, next.2, next.2 == ~~~0 && io.pendingEventCnt_ == 0 && stopped)

/-- The part of `idle` up to the return of `epoll_wait`, with the timeouts that it
passes. -/
def idleWait (io : IOManager κ) (tm : TimerManager α) (stopped : Bool) (now : UInt64)
    (interrupts : Nat) : Option (TimerManager α × List Int32) :=
  (io.stopping tm stopped now).map fun asked =>
    (asked.1, if asked.2.2 then [] else epollTimeouts interrupts asked.2.1)

end IOManager

/-! ## Casts -/

theorem toInt_castInt (x : UInt64) : (castInt x).toInt = (x.toNat : Int).bmod (2 ^ 32) := by
  rw [castInt, ← Int32.toInt_toBitVec, UInt32.toBitVec_toInt32, BitVec.toInt_eq_toNat_bmod,
    UInt32.toNat_toBitVec, UInt64.toNat_toUInt32, Int.natCast_emod]
  exact Int.emod_bmod _ (2 ^ 32)

/-- An `int` comes back from `uint64_t`. -/
theorem castInt_toUInt64 (x : Int32) : castInt x.toInt64.toUInt64 = x := by
  have narrowed : BitVec.setWidth 32 (BitVec.signExtend 64 x.toBitVec) = x.toBitVec := by
    have back := congrArg Int32.toBitVec (Int32.toInt32_toInt64 x)
    rw [Int64.toBitVec_toInt32, Int32.toBitVec_toInt64,
      BitVec.signExtend_eq_setWidth_of_le _ (by decide)] at back
    exact back
  apply Int32.toBitVec_inj.mp
  rw [castInt, UInt32.toBitVec_toInt32, UInt64.toBitVec_toUInt32, Int64.toBitVec_toUInt64,
    Int32.toBitVec_toInt64]
  exact narrowed

theorem toInt_min (a b : Int32) : (min a b).toInt = min a.toInt b.toInt := by
  change (if a ≤ b then a else b).toInt = _
  rw [Int.min_def]
  by_cases le : a ≤ b
  · rw [if_pos le, if_pos (Int32.le_iff_toInt_le.mp le)]
  · rw [if_neg le, if_neg (fun le' => le (Int32.le_iff_toInt_le.mpr le'))]

/-! ## The attempts -/

/-- The timeout of an attempt. -/
theorem toInt_attempt (next_timeout : UInt64) : (castInt (limitTimeout next_timeout)).toInt =
    if next_timeout = ~~~0 then 5000 else min ((next_timeout.toNat : Int).bmod (2 ^ 32)) 5000 := by
  rw [limitTimeout]
  by_cases none : next_timeout = ~~~0
  · rw [if_neg (fun other => other none), if_pos none, castInt_toUInt64]
    rfl
  · rw [if_pos none, if_neg none, castInt_toUInt64, toInt_min, toInt_castInt]
    rfl

/-- A timeout that is not negative stays as it is. -/
theorem limitTimeout_idem {next_timeout : UInt64}
    (within : 0 ≤ (castInt (limitTimeout next_timeout)).toInt) :
    limitTimeout (limitTimeout next_timeout) = limitTimeout next_timeout := by
  have widened : ∃ c : Int32, limitTimeout next_timeout = c.toInt64.toUInt64 ∧
      c ≤ MAX_TIMEOUT := by
    rw [limitTimeout]
    split
    · refine ⟨_, rfl, ?_⟩
      rw [Int32.le_iff_toInt_le, toInt_min]
      exact Int.min_le_right _ _
    · exact ⟨MAX_TIMEOUT, rfl, Int32.le_refl _⟩
  obtain ⟨c, same, bound⟩ := widened
  rw [same, castInt_toUInt64] at within
  have shown : c.toInt64.toUInt64 ≠ ~~~0 := by
    intro all
    have negative := congrArg castInt all
    rw [castInt_toUInt64] at negative
    rw [negative] at within
    exact absurd within (by decide)
  rw [same, limitTimeout, if_pos shown, castInt_toUInt64]
  change (if c ≤ MAX_TIMEOUT then c else MAX_TIMEOUT).toInt64.toUInt64 = _
  rw [if_pos bound]

theorem mem_epollTimeouts {interrupts : Nat} {next_timeout : UInt64} {timeout : Int32}
    (within : 0 ≤ (castInt (limitTimeout next_timeout)).toInt)
    (member : timeout ∈ epollTimeouts interrupts next_timeout) :
    timeout = castInt (limitTimeout next_timeout) := by
  induction interrupts generalizing next_timeout with
  | zero => exact List.mem_singleton.mp member
  | succ interrupts ih =>
      rcases List.mem_cons.mp member with rfl | later
      · rfl
      · have same := limitTimeout_idem within
        rw [← same] at within ⊢
        exact ih within later

theorem head?_epollTimeouts (interrupts : Nat) (next_timeout : UInt64) :
    (epollTimeouts interrupts next_timeout).head? = some (castInt (limitTimeout next_timeout)) := by
  cases interrupts with
  | zero => rfl
  | succ interrupts => rfl

/-! ## The earliest timer -/

namespace TimerManager

/-- The time to a timer, which is 0 when it is due. -/
def left (timer : Timer α) (now : UInt64) : Nat :=
  timer.next_.toNat - now.toNat

theorem getNextTimer_of_head {tm : TimerManager α} {p : Nat} {rest : List Nat} {timer : Timer α}
    (now : UInt64) (first : tm.timers_ = p :: rest) (found : tm.objects[p]? = some timer) :
    ∃ tm' next, tm.getNextTimer now = some (tm', next) ∧ next.toNat = left timer now := by
  unfold getNextTimer
  rw [first]
  change ∃ tm' next, tm.objects[p]?.map _ = _ ∧ _
  rw [found]
  refine ⟨_, _, rfl, ?_⟩
  rw [left]
  split
  · rename_i due
    rw [ge_iff_le, UInt64.le_iff_toNat_le] at due
    rw [Nat.sub_eq_zero_of_le due]
    rfl
  · rename_i ahead
    rw [ge_iff_le, UInt64.le_iff_toNat_le] at ahead
    exact UInt64.toNat_sub_of_le _ _ (UInt64.le_iff_toNat_le.mpr (by omega))

theorem getNextTimer_of_nil {tm : TimerManager α} (now : UInt64) (none : tm.timers_ = []) :
    ∃ tm', tm.getNextTimer now = some (tm', ~~~0) := by
  unfold getNextTimer
  rw [none]
  exact ⟨_, rfl⟩

/-- The set of a reachable manager holds no null pointer. -/
theorem Tidy.valid {tm : TimerManager α} (tidy : tm.Tidy []) :
    ∀ p ∈ tm.timers_, p < tm.objects.length := by
  intro p member
  obtain ⟨⟨timer, found, _⟩, _⟩ := tidy.mem_timers_.mp member
  exact (List.getElem?_eq_some_iff.mp found).1

/-- In a reachable manager no armed timer is due earlier. -/
theorem Tidy.getNextTimer_least {tm tm' : TimerManager α} {now next : UInt64} {q : Nat}
    {timer : Timer α} (tidy : tm.Tidy []) (asked : tm.getNextTimer now = some (tm', next))
    (found : tm.objects[q]? = some timer) (armed : timer.cb_ ≠ none) :
    next.toNat ≤ left timer now := by
  have listed : q ∈ tm.timers_ := tidy.mem_timers_.mpr ⟨⟨timer, found, armed⟩, List.not_mem_nil⟩
  have sorted := tidy.sorted
  cases first : tm.timers_ with
  | nil =>
      rw [first] at listed
      cases listed
  | cons p rest =>
      have head : p ∈ tm.timers_ := by
        rw [first]
        exact List.mem_cons_self
      obtain ⟨⟨least, there, _⟩, _⟩ := tidy.mem_timers_.mp head
      obtain ⟨_, _, same, reported⟩ := getNextTimer_of_head now first there
      rw [asked, Option.some.injEq, Prod.mk.injEq] at same
      rw [same.2, reported]
      rw [first] at listed
      rcases List.mem_cons.mp listed with rfl | later
      · rw [there, Option.some.injEq] at found
        rw [found]
      · rw [first] at sorted
        have before := (List.pairwise_cons.mp sorted).1 q later
        rw [TimerManager.before, there, found, Timer.comparator_some] at before
        simp only [UInt64.lt_iff_toNat_lt, ← UInt64.toNat_inj] at before
        rw [left, left]
        omega

/-- The time to the earliest timer is below 2 ^ 31, or its lower half is at least
the limit as an `int`, or it is taken for the answer without a timer. -/
def FitsInt (tm : TimerManager α) (now : UInt64) : Prop :=
  ∀ p ∈ tm.timers_.head?, ∀ timer ∈ tm.objects[p]?,
    left timer now < 2 ^ 31 ∨
      5000 ≤ left timer now % 2 ^ 32 ∧ left timer now % 2 ^ 32 < 2 ^ 31 ∨
        left timer now = 2 ^ 64 - 1

instance (tm : TimerManager α) (now : UInt64) : Decidable (tm.FitsInt now) :=
  inferInstanceAs (Decidable (∀ p ∈ tm.timers_.head?, ∀ timer ∈ tm.objects[p]?, _ ∨ _ ∧ _ ∨ _))

end TimerManager

/-! ## The wait -/

/-- All timeouts are in the limits, and the first one is what `getNextTimer` reports
up to the maximum. -/
structure WaitBounded (tm : TimerManager α) (now : UInt64) (timeouts : List Int32) : Prop where
  range : ∀ timeout ∈ timeouts, 0 ≤ timeout.toInt ∧ timeout.toInt ≤ 5000
  first : ∀ timeout ∈ timeouts.head?, ∀ asked ∈ tm.getNextTimer now,
    timeout.toInt = min 5000 (asked.2.toNat : Int)

/-- The first attempt decides for all. -/
theorem waitBounded_epollTimeouts {tm tm' : TimerManager α} {now next : UInt64}
    (asked : tm.getNextTimer now = some (tm', next)) (interrupts : Nat) :
    WaitBounded tm now (epollTimeouts interrupts next) ↔
      (castInt (limitTimeout next)).toInt = min 5000 (next.toNat : Int) := by
  constructor
  · intro bounded
    exact bounded.first _ (head?_epollTimeouts interrupts next) _ asked
  · intro first
    have within : 0 ≤ (castInt (limitTimeout next)).toInt := by
      rw [first]
      omega
    constructor
    · intro timeout member
      rw [mem_epollTimeouts within member]
      exact ⟨within, by rw [first]; exact Int.min_le_left _ _⟩
    · intro timeout head asked' same
      rw [head?_epollTimeouts, Option.mem_some_iff] at head
      rw [asked, Option.mem_some_iff] at same
      rw [← head, ← same]
      exact first

theorem attempt_eq_min_iff (next : UInt64) :
    (castInt (limitTimeout next)).toInt = min 5000 (next.toNat : Int) ↔
      next.toNat < 2 ^ 31 ∨ 5000 ≤ next.toNat % 2 ^ 32 ∧ next.toNat % 2 ^ 32 < 2 ^ 31 ∨
        next.toNat = 2 ^ 64 - 1 := by
  have all : next = ~~~0 ↔ next.toNat = 2 ^ 64 - 1 := by
    rw [← UInt64.toNat_inj]
    rfl
  rw [toInt_attempt, Int.bmod_def]
  by_cases none : next = ~~~0
  · rw [if_pos none]
    have value := all.mp none
    constructor
    · exact fun _ => .inr (.inr value)
    · intro _
      rw [value]
      rfl
  · rw [if_neg none]
    have value : next.toNat ≠ 2 ^ 64 - 1 := fun same => none (all.mpr same)
    have size := next.toNat_lt
    split
    · omega
    · omega

theorem TimerManager.fitsInt_of_head {tm : TimerManager α} {now : UInt64} {p : Nat}
    {rest : List Nat} {timer : Timer α} (first : tm.timers_ = p :: rest)
    (found : tm.objects[p]? = some timer) : tm.FitsInt now ↔
      left timer now < 2 ^ 31 ∨
        5000 ≤ left timer now % 2 ^ 32 ∧ left timer now % 2 ^ 32 < 2 ^ 31 ∨
          left timer now = 2 ^ 64 - 1 := by
  simp [FitsInt, first, found]

/-- The answer of `getNextTimer` decides for the wait. -/
theorem TimerManager.fitsInt_iff {tm : TimerManager α} (now : UInt64)
    (valid : ∀ p ∈ tm.timers_, p < tm.objects.length) :
    ∃ tm' next, tm.getNextTimer now = some (tm', next) ∧
      (tm.FitsInt now ↔ (castInt (limitTimeout next)).toInt = min 5000 (next.toNat : Int)) := by
  cases first : tm.timers_ with
  | nil =>
      obtain ⟨tm', asked⟩ := getNextTimer_of_nil now first
      refine ⟨tm', ~~~0, asked, ?_⟩
      rw [attempt_eq_min_iff]
      have fits : tm.FitsInt now := by
        intro p head
        rw [first] at head
        cases head
      exact ⟨fun _ => .inr (.inr rfl), fun _ => fits⟩
  | cons p rest =>
      have inside : p < tm.objects.length := by
        apply valid
        rw [first]
        exact List.mem_cons_self
      have found := List.getElem?_eq_getElem inside
      obtain ⟨tm', next, asked, reported⟩ := getNextTimer_of_head now first found
      refine ⟨tm', next, asked, ?_⟩
      rw [attempt_eq_min_iff, fitsInt_of_head first found, reported]

/-- The wait of an idle loop is decided by its first attempt. -/
theorem IOManager.idleWait_of_asked {tm tm' : TimerManager α} {now next : UInt64}
    (asked : tm.getNextTimer now = some (tm', next)) (io : IOManager κ) (stopped : Bool)
    (interrupts : Nat) :
    ∃ timeouts, io.idleWait tm stopped now interrupts = some (tm', timeouts) ∧
      (timeouts = [] ∧ next = ~~~0 ∨ timeouts = epollTimeouts interrupts next) := by
  rw [idleWait, stopping, asked]
  refine ⟨_, rfl, ?_⟩
  dsimp only
  split
  · rename_i stops
    rw [Bool.and_eq_true, Bool.and_eq_true, beq_iff_eq] at stops
    exact .inl ⟨rfl, stops.1.1⟩
  · exact .inr rfl

theorem waitBounded_nil (tm : TimerManager α) (now : UInt64) : WaitBounded tm now [] where
  range := by simp
  first := by simp

/-- An idle loop that does not stop waits as it should for the timers that fit in an
`int`. -/
theorem idleWait_bounded_iff {tm : TimerManager α}
    (valid : ∀ p ∈ tm.timers_, p < tm.objects.length) (io : IOManager κ) (stopped : Bool)
    (now : UInt64) (interrupts : Nat) :
    ∃ tm' timeouts, io.idleWait tm stopped now interrupts = some (tm', timeouts) ∧
      (WaitBounded tm now timeouts ↔ tm.FitsInt now) := by
  obtain ⟨tm', next, asked, fits_iff⟩ := TimerManager.fitsInt_iff now valid
  obtain ⟨timeouts, waits, ⟨rfl, none⟩ | rfl⟩ := io.idleWait_of_asked asked stopped interrupts
  · refine ⟨tm', [], waits, ?_⟩
    have fits : tm.FitsInt now := by
      rw [fits_iff, attempt_eq_min_iff, none]
      exact .inr (.inr rfl)
    exact ⟨fun _ => fits, fun _ => waitBounded_nil tm now⟩
  · refine ⟨tm', _, waits, ?_⟩
    rw [waitBounded_epollTimeouts asked, fits_iff]

/-- A manager with one timer, which was added when the clock was 0. -/
def oneTimer (ms : UInt64) : TimerManager Unit :=
  ((TimerManager.new 0).addTimer ms () false 0 1).1

theorem idleWait_bounded_iff_oneTimer :
    ((IOManager.new : IOManager Unit).idleWait (oneTimer 3) false 0 2).map Prod.snd =
        some [3, 3, 3] ∧ WaitBounded (oneTimer 3) 0 [3, 3, 3] := by
  have valid : ∀ p ∈ (oneTimer 3).timers_, p < (oneTimer 3).objects.length := by decide
  obtain ⟨tm', timeouts, waits, bounded_iff⟩ :=
    idleWait_bounded_iff valid (IOManager.new : IOManager Unit) false 0 2
  have shown : ((IOManager.new : IOManager Unit).idleWait (oneTimer 3) false 0 2).map Prod.snd =
      some [3, 3, 3] := by decide +kernel
  refine ⟨shown, ?_⟩
  rw [waits, Option.map_some, Option.some.injEq] at shown
  rw [← shown]
  exact bounded_iff.mpr (by decide +kernel)

/-- The timer of `sleep(2147484)`, which is almost 25 days. -/
theorem not_idleWait_bounded :
    ∃ tm' timeouts,
      (IOManager.new : IOManager Unit).idleWait (oneTimer 2147484000) false 0 0 =
        some (tm', timeouts) ∧ ¬ WaitBounded (oneTimer 2147484000) 0 timeouts := by
  refine ⟨_, [-2147483296], rfl, ?_⟩
  intro bounded
  exact absurd (bounded.range _ List.mem_cons_self).1 (by decide)

/-! ## Reachable managers -/

/-- Whatever calls a timer manager has served, an idle loop that asks it does
not wait longer than five seconds, nor past the time of an armed timer, as long
as the time to the earliest one fits in an `int`. -/
theorem idleWait_of_run {start : UInt64} {events : List (TimerEvent α)} {tm : TimerManager α}
    (run : Run TimerManager.step anyStep (TimerManager.new start) events tm) {now : UInt64}
    (fits : tm.FitsInt now) (io : IOManager κ) (stopped : Bool) (interrupts : Nat) :
    ∃ tm' timeouts, io.idleWait tm stopped now interrupts = some (tm', timeouts) ∧
      ∀ timeout ∈ timeouts, 0 ≤ timeout.toInt ∧ timeout.toInt ≤ 5000 ∧
        ∀ timer ∈ tm.objects, timer.cb_ ≠ none →
          timeout.toInt ≤ (TimerManager.left timer now : Int) := by
  have tidy := (TimerManager.fired_of_run run).tidy
  obtain ⟨tm', next, asked, fits_iff⟩ := TimerManager.fitsInt_iff now tidy.valid
  have first := fits_iff.mp fits
  obtain ⟨timeouts, waits, ⟨rfl, _⟩ | rfl⟩ := io.idleWait_of_asked asked stopped interrupts
  · exact ⟨tm', [], waits, by simp⟩
  · refine ⟨tm', _, waits, ?_⟩
    intro timeout member
    have same := mem_epollTimeouts (by omega) member
    rw [same]
    refine ⟨by omega, by omega, ?_⟩
    intro timer made armed
    obtain ⟨q, found⟩ := List.mem_iff_getElem?.mp made
    have least := tidy.getNextTimer_least asked found armed
    omega

end CppRaft.Fiber
