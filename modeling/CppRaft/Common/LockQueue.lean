import CppRaft.Session.Atomic
import CppRaft.Transition.Run
import Mathlib.Data.Finset.Insert
import Mathlib.Logic.Function.Basic

/-!
# The locked queue

`LockQueue` is a queue behind a mutex with a condition variable.  A call is a
thread inside `Push`, `Pop` or `timeOutPop`, and a step is a statement of one
call: to take the mutex, to look at the queue, to wait, to notify.  A waiting
call may wake up without a notification, and the deadline of a `timeOutPop` may
have passed whenever it wakes up.
-/

namespace CppRaft.Common

open CppRaft.Session CppRaft.Transition

universe u v

variable {ι : Type u} {T : Type v}

/-! ## States -/

/-- A function of the queue, with its argument. -/
inductive Operation (T : Type v)
  | Push (data : T)
  | Pop
  | timeOutPop
deriving DecidableEq, Repr

/-- What a function returns. -/
inductive Result (T : Type v)
  | pushed
  | data (data : T)
  /-- `timeOutPop` returns `false`. -/
  | timedOut
deriving DecidableEq, Repr

/-- Where a call is. -/
inductive Place (T : Type v)
  | outside
  | locking
  /-- With the mutex, in front of the `while` or of the push. -/
  | running
  /-- With the mutex, behind the `while`. -/
  | taking
  /-- With the mutex, in front of `notify_one`. -/
  | notifying
  | waiting
  /-- Awake, and without the mutex. -/
  | woken
  | unlocking (result : Result T)
  | unlocked (result : Result T)
  | returned (result : Result T)
deriving DecidableEq, Repr

/-- The call holds the mutex. -/
def Place.Inside : Place T → Prop
  | .running | .taking | .notifying | .unlocking _ => True
  | .outside | .locking | .waiting | .woken | .unlocked _ | .returned _ => False

/-- The members of the class, with the calls that were made. -/
structure LockQueue (ι : Type u) (T : Type v) where
  m_mutex : Option ι
  m_queue : List T
  /-- The waiting calls. -/
  m_condvariable : List ι
  calls : Finset ι
  place : ι → Place T

namespace LockQueue

/-- An empty queue without callers. -/
def start : LockQueue ι T where
  m_mutex := none
  m_queue := []
  m_condvariable := []
  calls := ∅
  place := fun _ => .outside

variable [DecidableEq ι]

/-- A call goes to another place. -/
def move (s : LockQueue ι T) (call : ι) (place : Place T) : LockQueue ι T :=
  { s with place := Function.update s.place call place }

/-! ## Steps -/

/-- The next statement of a call. -/
inductive Action (ι : Type u)
  | begin (call : ι)
  | lock (call : ι)
  /-- A statement of the body, with the mutex. -/
  | run (call : ι)
  /-- `notify_one` wakes one of the waiting calls if there is one. -/
  | notify (call : ι) (waiter : Option ι)
  /-- A call wakes up on its own. -/
  | wake (call : ι)
  | relock (call : ι) (timeout : Bool)
  | unlock (call : ι)
  | return (call : ι)
deriving DecidableEq, Repr

/-- One step; `none` when it is not enabled. -/
def step (operation : ι → Operation T) (s : LockQueue ι T) :
    Action ι → Option (LockQueue ι T × List (CallEvent ι (Result T)))
  | .begin call =>
      match s.place call with
      | .outside =>
          some ({ s with calls := insert call s.calls }.move call .locking, [.begun call])
      | _ => none
  | .lock call =>
      match s.place call, s.m_mutex with
      | .locking, none => some ({ s with m_mutex := some call }.move call .running, [])
      | _, _ => none
  | .run call =>
      match s.place call, operation call with
      | .running, .Push data =>
          some ({ s with m_queue := s.m_queue ++ [data] }.move call .notifying, [])
      | .running, _ =>
          match s.m_queue with
          | [] =>
              -- `wait` lets go of the mutex.
              some ({ s with m_mutex := none,
                             m_condvariable := s.m_condvariable ++ [call] }.move call .waiting, [])
          | _ :: _ => some (s.move call .taking, [])
      | .taking, _ =>
          match s.m_queue with
          | [] => none
          | data :: rest =>
              some ({ s with m_queue := rest }.move call (.unlocking (.data data)), [])
      | _, _ => none
  | .notify call waiter =>
      match s.place call, waiter with
      | .notifying, none =>
          match s.m_condvariable with
          | [] => some (s.move call (.unlocking .pushed), [])
          | _ :: _ => none
      | .notifying, some waiter =>
          if waiter ∈ s.m_condvariable then
            some (({ s with m_condvariable := s.m_condvariable.erase waiter }.move waiter
              .woken).move call (.unlocking .pushed), [])
          else none
      | _, _ => none
  | .wake call =>
      if call ∈ s.m_condvariable then
        some ({ s with m_condvariable := s.m_condvariable.erase call }.move call .woken, [])
      else none
  | .relock call timeout =>
      match s.place call, s.m_mutex, operation call, timeout with
      | .woken, none, _, false => some ({ s with m_mutex := some call }.move call .running, [])
      | .woken, none, .timeOutPop, true =>
          some ({ s with m_mutex := some call }.move call (.unlocking .timedOut), [])
      | _, _, _, _ => none
  | .unlock call =>
      match s.place call with
      | .unlocking result => some ({ s with m_mutex := none }.move call (.unlocked result), [])
      | _ => none
  | .return call =>
      match s.place call with
      | .unlocked result => some (s.move call (.returned result), [.returned call result])
      | _ => none

/-- What a step does. -/
inductive Moves (operation : ι → Operation T) (s : LockQueue ι T) :
    Action ι → LockQueue ι T → List (CallEvent ι (Result T)) → Prop
  | begin {call : ι} (here : s.place call = .outside) :
      Moves operation s (.begin call)
        ({ s with calls := insert call s.calls }.move call .locking) [.begun call]
  | lock {call : ι} (here : s.place call = .locking) (free : s.m_mutex = none) :
      Moves operation s (.lock call) ({ s with m_mutex := some call }.move call .running) []
  | push {call : ι} {data : T} (here : s.place call = .running)
      (pushes : operation call = .Push data) :
      Moves operation s (.run call)
        ({ s with m_queue := s.m_queue ++ [data] }.move call .notifying) []
  | wait {call : ι} (here : s.place call = .running) (pops : ∀ data, operation call ≠ .Push data)
      (empty : s.m_queue = []) :
      Moves operation s (.run call)
        ({ s with m_mutex := none,
                  m_condvariable := s.m_condvariable ++ [call] }.move call .waiting) []
  | look {call : ι} (here : s.place call = .running) (pops : ∀ data, operation call ≠ .Push data)
      (filled : s.m_queue ≠ []) :
      Moves operation s (.run call) (s.move call .taking) []
  | take {call : ι} {data : T} {rest : List T} (here : s.place call = .taking)
      (filled : s.m_queue = data :: rest) :
      Moves operation s (.run call)
        ({ s with m_queue := rest }.move call (.unlocking (.data data))) []
  | notifyNone {call : ι} (here : s.place call = .notifying) (idle : s.m_condvariable = []) :
      Moves operation s (.notify call none) (s.move call (.unlocking .pushed)) []
  | notify {call waiter : ι} (here : s.place call = .notifying)
      (waits : waiter ∈ s.m_condvariable) :
      Moves operation s (.notify call (some waiter))
        (({ s with m_condvariable := s.m_condvariable.erase waiter }.move waiter .woken).move call
          (.unlocking .pushed)) []
  | wake {call : ι} (waits : call ∈ s.m_condvariable) :
      Moves operation s (.wake call)
        ({ s with m_condvariable := s.m_condvariable.erase call }.move call .woken) []
  | relock {call : ι} (here : s.place call = .woken) (free : s.m_mutex = none) :
      Moves operation s (.relock call false)
        ({ s with m_mutex := some call }.move call .running) []
  | timeout {call : ι} (here : s.place call = .woken) (free : s.m_mutex = none)
      (timed : operation call = .timeOutPop) :
      Moves operation s (.relock call true)
        ({ s with m_mutex := some call }.move call (.unlocking .timedOut)) []
  | unlock {call : ι} {result : Result T} (here : s.place call = .unlocking result) :
      Moves operation s (.unlock call)
        ({ s with m_mutex := none }.move call (.unlocked result)) []
  | return {call : ι} {result : Result T} (here : s.place call = .unlocked result) :
      Moves operation s (.return call) (s.move call (.returned result)) [.returned call result]

variable {operation : ι → Operation T} {s t : LockQueue ι T} {action : Action ι}
  {emitted : List (CallEvent ι (Result T))}

theorem step_eq_some :
    s.step operation action = some (t, emitted) ↔ Moves operation s action t emitted := by
  constructor
  · intro taken
    cases action with
    | «begin» call =>
        simp only [step] at taken
        split at taken
        · cases taken
          exact Moves.begin ‹_›
        · cases taken
    | lock call =>
        simp only [step] at taken
        split at taken
        · cases taken
          exact Moves.lock ‹_› ‹_›
        · cases taken
    | run call =>
        simp only [step] at taken
        split at taken
        · cases taken
          exact Moves.push ‹_› ‹_›
        · split at taken
          · cases taken
            exact Moves.wait ‹_› (by grind) ‹_›
          · cases taken
            exact Moves.look ‹_› (by grind) (by grind)
        · split at taken
          · cases taken
          · cases taken
            exact Moves.take ‹_› ‹_›
        · cases taken
    | notify call waiter =>
        simp only [step] at taken
        split at taken
        · split at taken
          · cases taken
            exact Moves.notifyNone ‹_› ‹_›
          · cases taken
        · split at taken
          · cases taken
            exact Moves.notify ‹_› ‹_›
          · cases taken
        · cases taken
    | wake call =>
        simp only [step, Option.ite_none_right_eq_some] at taken
        obtain ⟨waits, same⟩ := taken
        cases same
        exact Moves.wake waits
    | relock call timeout =>
        simp only [step] at taken
        split at taken
        · cases taken
          exact Moves.relock ‹_› ‹_›
        · cases taken
          exact Moves.timeout ‹_› ‹_› ‹_›
        · cases taken
    | unlock call =>
        simp only [step] at taken
        split at taken
        · cases taken
          exact Moves.unlock ‹_›
        · cases taken
    | «return» call =>
        simp only [step] at taken
        split at taken
        · cases taken
          exact Moves.return ‹_›
        · cases taken
  · intro moves
    cases moves with
    | wait here pops empty =>
        simp only [step, here, empty]
    | look here pops filled =>
        obtain ⟨data, rest, same⟩ := List.exists_cons_of_ne_nil filled
        simp only [step, here, same]
    | _ => simp_all [step]

/-- The runs of any number of calls of a queue. -/
abbrev QueueRun (operation : ι → Operation T) (history : List (CallEvent ι (Result T)))
    (s : LockQueue ι T) : Prop :=
  Run (step operation) anyStep start history s

/-- Two pops and two pushes. -/
def twoPairs : Fin 4 → Operation Nat
  | 0 => .Pop
  | 1 => .timeOutPop
  | 2 => .Push 5
  | 3 => .Push 6

/-! ## The mutex and the condition variable -/

section Move

variable (call : ι) (place : Place T)

@[simp, grind =]
theorem place_move (other : ι) :
    (s.move call place).place other = if other = call then place else s.place other :=
  Function.update_apply ..

@[simp, grind =]
theorem m_mutex_move : (s.move call place).m_mutex = s.m_mutex :=
  rfl

@[simp, grind =]
theorem m_queue_move : (s.move call place).m_queue = s.m_queue :=
  rfl

@[simp, grind =]
theorem m_condvariable_move : (s.move call place).m_condvariable = s.m_condvariable :=
  rfl

@[simp, grind =]
theorem calls_move : (s.move call place).calls = s.calls :=
  rfl

end Move

/-- What holds between the steps. -/
structure Sound (operation : ι → Operation T) (s : LockQueue ι T) : Prop where
  mutex : ∀ call, (s.place call).Inside ↔ s.m_mutex = some call
  waiters : ∀ call, call ∈ s.m_condvariable ↔ s.place call = .waiting
  distinct : s.m_condvariable.Nodup
  calls : ∀ call, call ∈ s.calls ↔ s.place call ≠ .outside
  /-- Nobody takes from the queue between the look at it and the take. -/
  filled : ∀ call, s.place call = .taking → s.m_queue ≠ []
  pops : ∀ call, s.place call = .taking ∨ s.place call = .waiting ∨ s.place call = .woken →
    ∀ data, operation call ≠ .Push data

omit [DecidableEq ι] in
theorem sound_start (operation : ι → Operation T) : Sound operation (start : LockQueue ι T) where
  mutex := by simp [start, Place.Inside]
  waiters := by simp [start]
  distinct := List.nodup_nil
  calls := by simp [start]
  filled := by simp [start]
  pops := by simp [start]

namespace Sound

omit [DecidableEq ι] in
theorem not_inside_of_free (sound : Sound operation s) (free : s.m_mutex = none) (call : ι) :
    ¬ (s.place call).Inside := by
  rw [sound.mutex, free]
  exact Option.some_ne_none call ∘ Eq.symm

omit [DecidableEq ι] in
/-- The mutex keeps every other call out. -/
theorem eq_of_inside (sound : Sound operation s) {call other : ι}
    (inside : (s.place call).Inside) (inside' : (s.place other).Inside) : other = call := by
  have here := (sound.mutex call).mp inside
  have there := (sound.mutex other).mp inside'
  exact Option.some.inj (there.symm.trans here)

/-- A call that takes from the queue has the mutex, and nobody else empties it. -/
theorem filled_step (sound : Sound operation s) (moves : Moves operation s action t emitted)
    {call : ι} (taking : t.place call = .taking) : t.m_queue ≠ [] := by
  have alone : ∀ {other}, (s.place other).Inside → call ≠ other → s.place call ≠ .taking := by
    intro other inside apart here
    have inside' : (s.place call).Inside := by
      rw [here]
      exact trivial
    exact apart (sound.eq_of_inside inside inside')
  cases moves with
  | push => simp
  | look _ _ filled => exact filled
  | @wait other here | @take other _ _ here =>
      rw [place_move] at taking
      split at taking
      · cases taking
      · rename_i apart
        exact absurd taking (alone (by simp [here, Place.Inside]) apart)
  | notify =>
      rw [place_move, place_move] at taking
      split at taking
      · cases taking
      · split at taking
        · cases taking
        · exact sound.filled call taking
  | «begin» | lock | notifyNone | wake | relock | timeout | unlock | «return» =>
      rw [place_move] at taking
      split at taking
      · cases taking
      · exact sound.filled call taking

theorem step (sound : Sound operation s) (moves : Moves operation s action t emitted) :
    Sound operation t := by
  have filled : ∀ call, t.place call = .taking → t.m_queue ≠ [] :=
    fun _ => sound.filled_step moves
  obtain ⟨mutex, waiters, distinct, calls, _, pops⟩ := sound
  -- What is left is about one call at a time.
  cases moves with
  | «begin» | lock | push | wait | look | take | notifyNone | notify | wake | relock | timeout
  | unlock | «return» =>
      constructor <;> grind [Place.Inside]

end Sound

end LockQueue

end CppRaft.Common
