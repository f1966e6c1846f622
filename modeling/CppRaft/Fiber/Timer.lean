import CppRaft.Container.OrderedSet
import CppRaft.Transition.Run
import Mathlib.Tactic.Cases

/-!
# Timers

A manager keeps its armed timers in a set that is ordered by their `next_` and,
for equal ones, by their address.  The timers are mutable objects, so that the
order of the set depends on the present state of the manager.  `none` stands
for a call that the source does not define: a null pointer that is read, or the
end of the set that is erased.
-/

namespace CppRaft.Fiber

open CppRaft.Container
open CppRaft.Transition

universe u

variable {α : Type u}

/-! ## The state -/

/-- A `Timer` object with callbacks in `α`. -/
structure Timer (α : Type u) where
  recurring_ : Bool
  ms_ : UInt64
  next_ : UInt64
  /-- `none` is the null callback. -/
  cb_ : Option α
  /-- Where the object is in memory. -/
  address : UInt64

/-- `Timer::Comparator`; `none` is a null pointer. -/
def Timer.comparator : Option (Timer α) → Option (Timer α) → Bool
  | none, none => false
  | none, some _ => true
  | some _, none => false
  | some lhs, some rhs =>
      if lhs.next_ < rhs.next_ then true
      else if rhs.next_ < lhs.next_ then false
      else decide (lhs.address < rhs.address)

/-- `TimerManager` with the `Timer` objects that it has made.  A timer is named
by its number in this list. -/
structure TimerManager (α : Type u) where
  objects : List (Timer α)
  timers_ : List Nat
  tickled_ : Bool
  previouseTime_ : UInt64

namespace TimerManager

/-- The constructor, with the reading of `GetElapsedMS`. -/
def new (now : UInt64) : TimerManager α where
  objects := []
  timers_ := []
  tickled_ := false
  previouseTime_ := now

/-- The order of `timers_`. -/
def before (tm : TimerManager α) (lhs rhs : Nat) : Bool :=
  Timer.comparator tm.objects[lhs]? tm.objects[rhs]?

/-- Write to a timer. -/
def put (tm : TimerManager α) (p : Nat) (timer : Timer α) : TimerManager α :=
  { tm with objects := tm.objects.set p timer }

/-- `timers_.insert`. -/
def insert (tm : TimerManager α) (p : Nat) : TimerManager α :=
  { tm with timers_ := Container.insert tm.before p tm.timers_ }

/-- `timers_.find`. -/
def find (tm : TimerManager α) (p : Nat) : Option Nat :=
  Container.find tm.before p tm.timers_

/-- `timers_.erase`. -/
def erase (tm : TimerManager α) (it : Nat) : TimerManager α :=
  { tm with timers_ := tm.timers_.erase it }

/-! ## The calls -/

/-- `addTimer(val, lock)`, with the test for calling `OnTimerInsertedAtFront`. -/
def addTimerLocked (tm : TimerManager α) (val : Nat) : TimerManager α × Bool :=
  let tm := tm.insert val
  let at_front := tm.find val == tm.timers_.head? && !tm.tickled_
  ({ tm with tickled_ := tm.tickled_ || at_front }, at_front)

/-- `addTimer(ms, cb, recurring)`: the clock reads `now`, and the object is made
at `address`. -/
def addTimer (tm : TimerManager α) (ms : UInt64) (cb : α) (recurring : Bool)
    (now address : UInt64) : TimerManager α × Bool :=
  let timer : Timer α :=
    { recurring_ := recurring, ms_ := ms, next_ := now + ms, cb_ := some cb, address := address }
  { tm with objects := tm.objects ++ [timer] }.addTimerLocked tm.objects.length

/-- `Timer::cancel`. -/
def cancel (tm : TimerManager α) (p : Nat) : Option (TimerManager α × Bool) :=
  match tm.objects[p]? with
  | none => none
  | some timer =>
      if timer.cb_.isSome then
        let tm := tm.put p { timer with cb_ := none }
        match tm.find p with
        | none => none
        | some it => some (tm.erase it, true)
      else some (tm, false)

/-- `Timer::refresh`. -/
def refresh (tm : TimerManager α) (p : Nat) (now : UInt64) : Option (TimerManager α × Bool) :=
  match tm.objects[p]? with
  | none => none
  | some timer =>
      if timer.cb_.isNone then some (tm, false)
      else
        match tm.find p with
        | none => some (tm, false)
        | some it =>
            some (((tm.erase it).put p { timer with next_ := now + timer.ms_ }).insert p, true)

/-- `Timer::reset`; `now` is read if `from_now` is set. -/
def reset (tm : TimerManager α) (p : Nat) (ms : UInt64) (from_now : Bool) (now : UInt64) :
    Option (TimerManager α × Bool) :=
  match tm.objects[p]? with
  | none => none
  | some timer =>
      if ms = timer.ms_ ∧ from_now = false then some (tm, true)
      else if timer.cb_.isNone then some (tm, true)
      else
        match tm.find p with
        | none => some (tm, false)
        | some it =>
            let start := if from_now then now else timer.next_ - timer.ms_
            let timer := { timer with ms_ := ms, next_ := start + ms }
            some ((((tm.erase it).put p timer).addTimerLocked p).1, true)

/-- `getNextTimer`. -/
def getNextTimer (tm : TimerManager α) (now : UInt64) : Option (TimerManager α × UInt64) :=
  let tm := { tm with tickled_ := false }
  match tm.timers_ with
  | [] => some (tm, ~~~0)
  | p :: _ =>
      tm.objects[p]?.map fun next =>
        (tm, if now ≥ next.next_ then 0 else next.next_ - now)

/-- `detectClockRolllover`. -/
def detectClockRolllover (tm : TimerManager α) (now_ms : UInt64) : TimerManager α × Bool :=
  ({ tm with previouseTime_ := now_ms },
    decide (now_ms < tm.previouseTime_ ∧ now_ms < tm.previouseTime_ - 60 * 60 * 1000))

/-- The timer comes before `now_timer`, which is made at `address`. -/
def beforeNow (tm : TimerManager α) (now_ms address : UInt64) (p : Nat) : Bool :=
  Timer.comparator tm.objects[p]? (some
    { recurring_ := false, ms_ := 0, next_ := now_ms, cb_ := none, address := address })

/-- The timer has the `next_` of `now_timer`. -/
def atNow (tm : TimerManager α) (now_ms : UInt64) (p : Nat) : Bool :=
  tm.objects[p]?.any fun timer => timer.next_ == now_ms

/-- The timers in front of the iterator `it` of `listExpiredCb`, and the others. -/
def splitExpired (tm : TimerManager α) (rollover : Bool) (now_ms address : UInt64) :
    List Nat × List Nat :=
  let it :=
    if rollover then (tm.timers_, [])
    else lowerBound (tm.beforeNow now_ms address) tm.timers_
  (it.1 ++ it.2.takeWhile (tm.atNow now_ms), it.2.dropWhile (tm.atNow now_ms))

/-- What the loop over `expired` does to one timer. -/
def sweepOne (tm : TimerManager α) (now_ms : UInt64) (p : Nat) (timer : Timer α) :
    TimerManager α :=
  if timer.recurring_ then (tm.put p { timer with next_ := now_ms + timer.ms_ }).insert p
  else tm.put p { timer with cb_ := none }

/-- The loop over `expired`.  Each callback is listed with its timer. -/
def sweep (now_ms : UInt64) : List Nat → TimerManager α →
    Option (TimerManager α × List (Nat × Option α))
  | [], tm => some (tm, [])
  | p :: expired, tm =>
      match tm.objects[p]? with
      | none => none
      | some timer =>
          (sweep now_ms expired (tm.sweepOne now_ms p timer)).map fun rest =>
            (rest.1, (p, timer.cb_) :: rest.2)

/-- `listExpiredCb`: the clock reads `now_ms`, and `now_timer` is made at
`address`. -/
def listExpiredCb (tm : TimerManager α) (now_ms address : UInt64) :
    Option (TimerManager α × List (Nat × Option α)) :=
  match tm.timers_ with
  | [] => some (tm, [])
  | p :: _ =>
      let (tm, rollover) := tm.detectClockRolllover now_ms
      match tm.objects[p]? with
      | none => none
      | some first =>
          if rollover = false ∧ first.next_ > now_ms then some (tm, [])
          else
            let (expired, others) := tm.splitExpired rollover now_ms address
            sweep now_ms expired { tm with timers_ := others }

end TimerManager

/-! ## Sequences of calls -/

/-- A call, with the readings of the clock and the addresses that it meets. -/
inductive TimerCall (α : Type u)
  | addTimer (ms : UInt64) (cb : α) (recurring : Bool) (now address : UInt64)
  | cancel (p : Nat)
  | refresh (p : Nat) (now : UInt64)
  | reset (p : Nat) (ms : UInt64) (from_now : Bool) (now : UInt64)
  | getNextTimer (now : UInt64)
  | listExpiredCb (now_ms address : UInt64)

/-- A finished call of `listExpiredCb`: the manager that it has found, the
reading and the callbacks. -/
structure Listing (α : Type u) where
  manager : TimerManager α
  now_ms : UInt64
  cbs : List (Nat × Option α)

/-- The answers of a manager that say something about callbacks. -/
inductive TimerEvent (α : Type u)
  /-- `Timer::cancel` has answered true. -/
  | cancelled (p : Nat)
  | listed (listing : Listing α)

namespace TimerManager

/-- No timer of the set is at the address. -/
def Free (tm : TimerManager α) (address : UInt64) : Prop :=
  ∀ p ∈ tm.timers_, tm.objects[p]?.map Timer.address ≠ some address

instance (tm : TimerManager α) (address : UInt64) : Decidable (tm.Free address) :=
  inferInstanceAs (Decidable (∀ p ∈ tm.timers_, tm.objects[p]?.map Timer.address ≠ some address))

/-- One call, in the critical section of `mutex_`. -/
def step (tm : TimerManager α) : TimerCall α → Option (TimerManager α × List (TimerEvent α))
  | .addTimer ms cb recurring now address =>
      if tm.Free address then some ((tm.addTimer ms cb recurring now address).1, []) else none
  | .cancel p =>
      (tm.cancel p).map fun result =>
        (result.1, if result.2 then [TimerEvent.cancelled p] else [])
  | .refresh p now => (tm.refresh p now).map fun result => (result.1, [])
  | .reset p ms from_now now => (tm.reset p ms from_now now).map fun result => (result.1, [])
  | .getNextTimer now => (tm.getNextTimer now).map fun result => (result.1, [])
  | .listExpiredCb now_ms address =>
      (tm.listExpiredCb now_ms address).map fun result =>
        (result.1, [TimerEvent.listed ⟨tm, now_ms, result.2⟩])

end TimerManager

end CppRaft.Fiber
