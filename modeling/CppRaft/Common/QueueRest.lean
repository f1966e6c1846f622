import CppRaft.Common.LockQueue
import Mathlib.Algebra.BigOperators.Group.Finset.Basic
import Mathlib.Algebra.Order.BigOperators.Group.Finset

/-!
# No lost notification

While a call waits, there is someone on the way to every piece of data in the
queue: a call that will look at the queue, or a `Push` that has not notified
yet.  The calls that are under way come to rest, and then a `Pop` waits only if
the queue is empty.

A `timeOutPop` that gives up may have been notified, and the notification is
lost with it.  The runs here have no call that gives up; a queue with `Push`
and `Pop` alone has no other runs.
-/

namespace CppRaft.Common.LockQueue

open CppRaft.Session CppRaft.Transition

universe u v

variable {ι : Type u} {T : Type v}

/-! ## Steps of the calls under way -/

/-- No call gives up. -/
def Patient : LockQueue ι T → Action ι → Prop
  | _, .relock _ true => False
  | _, _ => True

/-- A call that is under way goes on. -/
def Onward : LockQueue ι T → Action ι → Prop
  | _, .begin _ | _, .wake _ | _, .relock _ true => False
  | _, _ => True

instance (s : LockQueue ι T) (action : Action ι) : Decidable (Patient s action) :=
  match action with
  | .relock _ true => isFalse id
  | .relock _ false | .begin _ | .lock _ | .run _ | .notify _ _ | .wake _ | .unlock _
  | .return _ => isTrue trivial

instance (s : LockQueue ι T) (action : Action ι) : Decidable (Onward s action) :=
  match action with
  | .begin _ | .wake _ | .relock _ true => isFalse id
  | .relock _ false | .lock _ | .run _ | .notify _ _ | .unlock _ | .return _ => isTrue trivial

theorem Onward.patient {s : LockQueue ι T} {action : Action ι} (onward : Onward s action) :
    Patient s action := by
  cases action with
  | relock call timeout =>
      cases timeout with
      | false => trivial
      | true => exact onward
  | _ => trivial

/-! ## What the calls will do -/

/-- The steps that a call may still take before it waits or has returned.  A
notification counts for the steps of the call that it wakes. -/
def remaining : Operation T → Place T → Nat
  | .Push _, .locking => 10
  | .Push _, .running => 9
  | _, .notifying => 8
  | _, .locking | _, .woken => 5
  | _, .running => 4
  | _, .taking => 3
  | _, .unlocking _ => 2
  | _, .unlocked _ => 1
  | _, .outside | _, .waiting | _, .returned _ => 0

/-- The call will look at the queue, or notify one that will. -/
def coming : Operation T → Place T → Nat
  | _, .notifying => 1
  | .Pop, .locking | .Pop, .running | .Pop, .taking | .Pop, .woken => 1
  | .timeOutPop, .locking | .timeOutPop, .running | .timeOutPop, .taking
  | .timeOutPop, .woken => 1
  | _, _ => 0

/-- A number for each call, over all calls. -/
def total (weight : Operation T → Place T → Nat) (operation : ι → Operation T)
    (s : LockQueue ι T) : Nat :=
  ∑ call ∈ s.calls, weight (operation call) (s.place call)

variable [DecidableEq ι] {operation : ι → Operation T} {s t : LockQueue ι T} {action : Action ι}
  {history emitted : List (CallEvent ι (Result T))}

/-- One call goes to another place. -/
theorem total_move (operation : ι → Operation T) (weight : Operation T → Place T → Nat)
    {call : ι} (place : Place T) (calls : t.calls = s.calls) (same : t.place = s.place)
    (member : call ∈ s.calls) :
    (t.move call place).total weight operation + weight (operation call) (s.place call) =
      s.total weight operation + weight (operation call) place := by
  have others : ∑ other ∈ s.calls.erase call,
        weight (operation other) ((t.move call place).place other) =
      ∑ other ∈ s.calls.erase call, weight (operation other) (s.place other) := by
    refine Finset.sum_congr rfl fun other inside => ?_
    rw [place_move, if_neg (Finset.ne_of_mem_erase inside), same]
  have before := Finset.add_sum_erase s.calls
    (fun other => weight (operation other) (s.place other)) member
  have after := Finset.add_sum_erase s.calls
    (fun other => weight (operation other) ((t.move call place).place other)) member
  have here : (t.move call place).place call = place := by rw [place_move, if_pos rfl]
  unfold total
  rw [calls_move, calls]
  rw [others, here] at after
  omega

theorem total_begin (operation : ι → Operation T) (weight : Operation T → Place T → Nat)
    {call : ι} (absent : call ∉ s.calls) :
    ({ s with calls := insert call s.calls }.move call .locking).total weight operation =
      weight (operation call) .locking + s.total weight operation := by
  unfold total
  rw [calls_move, Finset.sum_insert absent, place_move, if_pos rfl]
  congr 1
  refine Finset.sum_congr rfl fun other inside => ?_
  rw [place_move, if_neg (ne_of_mem_of_not_mem inside absent)]

/-- A waiting call wakes up and a `Push` lets go of the mutex. -/
theorem total_notify (weight : Operation T → Place T → Nat) (sound : Sound operation s)
    {call waiter : ι} (here : s.place call = .notifying) (there : s.place waiter = .waiting) :
    (({ s with m_condvariable := s.m_condvariable.erase waiter }.move waiter .woken).move call
        (.unlocking .pushed)).total weight operation +
        weight (operation call) .notifying + weight (operation waiter) .waiting =
      s.total weight operation + weight (operation call) (.unlocking .pushed) +
        weight (operation waiter) .woken := by
  have caller : call ∈ s.calls := (sound.calls call).mpr (by simp [here])
  have other : waiter ∈ s.calls := (sound.calls waiter).mpr (by simp [there])
  have apart : call ≠ waiter := by
    rintro rfl
    rw [here] at there
    cases there
  let woken := { s with m_condvariable := s.m_condvariable.erase waiter }.move waiter .woken
  have first : woken.total weight operation + weight (operation waiter) (s.place waiter) =
      s.total weight operation + weight (operation waiter) .woken :=
    total_move operation weight .woken rfl rfl other
  have second : (woken.move call (.unlocking .pushed)).total weight operation +
      weight (operation call) (woken.place call) =
        woken.total weight operation + weight (operation call) (.unlocking .pushed) :=
    total_move operation weight _ rfl rfl caller
  have still : woken.place call = .notifying := by
    rw [place_move, if_neg apart]
    exact here
  rw [there] at first
  rw [still] at second
  change (woken.move call (.unlocking .pushed)).total weight operation + _ + _ = _
  omega

/-! ## Coming to rest -/

/-- A call comes closer to its rest. -/
theorem remaining_move {call : ι} {place : Place T} (calls : t.calls = s.calls)
    (same : t.place = s.place) (member : call ∈ s.calls)
    (less : remaining (operation call) place < remaining (operation call) (s.place call)) :
    (t.move call place).total remaining operation < s.total remaining operation := by
  have changed := total_move operation remaining place calls same member
  omega

/-- The calls under way take finitely many steps. -/
theorem remaining_lt (sound : Sound operation s) (onward : Onward s action)
    (moves : Moves operation s action t emitted) :
    t.total remaining operation < s.total remaining operation := by
  have member : ∀ {call place}, s.place call = place → place ≠ .outside → call ∈ s.calls :=
    fun here inside => (sound.calls _).mpr (here ▸ inside)
  cases moves with
  | «begin» here => exact absurd onward id
  | wake waits => exact absurd onward id
  | timeout here free timed => exact absurd onward id
  | @notify call waiter here waits =>
      have there := (sound.waiters waiter).mp waits
      have changed := total_notify remaining sound here there
      simp only [remaining] at changed
      omega
  | @relock call here free =>
      refine remaining_move rfl rfl (member here (by simp)) ?_
      rw [here]
      cases same : operation call with
      | Push data => exact absurd same (sound.pops call (Or.inr (Or.inr here)) data)
      | Pop => simp [remaining]
      | timeOutPop => simp [remaining]
  | @push call data here pushes =>
      refine remaining_move rfl rfl (member here (by simp)) ?_
      simp [here, pushes, remaining]
  | @lock call here free | @wait call here | @look call here
  | @take call _ _ here | @notifyNone call here | @unlock call _ here | @«return» call _ here =>
      refine remaining_move rfl rfl (member here (by simp)) ?_
      rw [here]
      cases operation call <;> simp [remaining]

theorem coming_of_pops {operation : Operation T} {place : Place T}
    (pops : ∀ data, operation ≠ .Push data) (looks : place = .taking ∨ place = .woken) :
    coming operation place = 1 := by
  cases operation with
  | Push data => exact absurd rfl (pops data)
  | Pop => rcases looks with rfl | rfl <;> rfl
  | timeOutPop => rcases looks with rfl | rfl <;> rfl

/-- Someone is on the way to every piece of data while a call waits. -/
def Served (operation : ι → Operation T) (s : LockQueue ι T) : Prop :=
  s.m_condvariable ≠ [] → s.m_queue.length ≤ s.total coming operation

/-- A call that neither notifies nor looks at the queue. -/
theorem Served.of_move {call : ι} {place : Place T} (served : Served operation s)
    (calls : t.calls = s.calls) (same : t.place = s.place) (queue : t.m_queue = s.m_queue)
    (condvariable : t.m_condvariable = s.m_condvariable) (member : call ∈ s.calls)
    (equal : coming (operation call) place = coming (operation call) (s.place call)) :
    Served operation (t.move call place) := by
  have changed := total_move operation coming place calls same member
  intro waits
  rw [m_condvariable_move, condvariable] at waits
  have bound := served waits
  rw [m_queue_move, queue]
  omega

theorem Served.step (served : Served operation s) (sound : Sound operation s)
    (patient : Patient s action) (moves : Moves operation s action t emitted) :
    Served operation t := by
  have member : ∀ {call place}, s.place call = place → place ≠ .outside → call ∈ s.calls :=
    fun here inside => (sound.calls _).mpr (here ▸ inside)
  cases moves with
  | @«begin» call here =>
      have absent : call ∉ s.calls := by simp [sound.calls, here]
      have changed := total_begin operation coming absent
      intro waits
      have bound := served waits
      change s.m_queue.length ≤ _
      omega
  | @push call data here pushes =>
      have changed := total_move operation coming .notifying
        (s := s) (t := { s with m_queue := s.m_queue ++ [data] }) rfl rfl (member here (by simp))
      simp only [here, pushes, coming] at changed
      intro waits
      have bound := served waits
      rw [m_queue_move, List.length_append, List.length_singleton]
      omega
  | @wait call here pops empty =>
      intro _
      simp [empty]
  | @take call data rest here filled =>
      have changed := total_move operation coming (.unlocking (.data data))
        (s := s) (t := { s with m_queue := rest }) rfl rfl (member here (by simp))
      rw [here, coming_of_pops (sound.pops call (Or.inl here)) (Or.inl rfl)] at changed
      simp only [coming] at changed
      intro waits
      have bound := served waits
      rw [filled, List.length_cons] at bound
      dsimp only [m_queue_move]
      omega
  | @notifyNone call here idle =>
      intro waits
      exact absurd idle waits
  | @notify call waiter here waits =>
      have there := (sound.waiters waiter).mp waits
      have changed := total_notify coming sound here there
      rw [coming_of_pops (sound.pops waiter (Or.inr (Or.inl there))) (Or.inr rfl)] at changed
      simp only [coming] at changed
      intro _
      have bound := served (List.ne_nil_of_mem waits)
      dsimp only [m_queue_move]
      omega
  | @wake call waits =>
      have there := (sound.waiters call).mp waits
      have changed := total_move operation coming .woken
        (s := s) (t := { s with m_condvariable := s.m_condvariable.erase call }) rfl rfl
        (member there (by simp))
      rw [there, coming_of_pops (sound.pops call (Or.inr (Or.inl there))) (Or.inr rfl)] at changed
      simp only [coming] at changed
      intro _
      have bound := served (List.ne_nil_of_mem waits)
      dsimp only [m_queue_move]
      omega
  | @relock call here free =>
      refine served.of_move rfl rfl rfl rfl (member here (by simp)) ?_
      rw [here]
      cases operation call <;> simp [coming]
  | timeout here free timed => exact absurd patient id
  | @lock call here | @look call here
  | @unlock call _ here | @«return» call _ here =>
      refine served.of_move rfl rfl rfl rfl (member here (by simp)) ?_
      rw [here]
      cases operation call <;> simp [coming]

/-! ## At rest -/

/-- No call under way can go on. -/
def AtRest (operation : ι → Operation T) (s : LockQueue ι T) : Prop :=
  ∀ action, Onward s action → step operation s action = none

/-- With the mutex a call can always go on. -/
theorem exists_onward_of_inside (sound : Sound operation s) {call : ι}
    (inside : (s.place call).Inside) :
    ∃ action t emitted, Onward s action ∧ Moves operation s action t emitted := by
  cases here : s.place call with
  | running =>
      by_cases pushes : ∃ data, operation call = .Push data
      · obtain ⟨data, pushes⟩ := pushes
        exact ⟨.run call, _, _, trivial, Moves.push here pushes⟩
      · rw [not_exists] at pushes
        by_cases empty : s.m_queue = []
        · exact ⟨.run call, _, _, trivial, Moves.wait here pushes empty⟩
        · exact ⟨.run call, _, _, trivial, Moves.look here pushes empty⟩
  | taking =>
      obtain ⟨data, rest, filled⟩ := List.exists_cons_of_ne_nil (sound.filled call here)
      exact ⟨.run call, _, _, trivial, Moves.take here filled⟩
  | notifying =>
      cases idle : s.m_condvariable with
      | nil => exact ⟨.notify call none, _, _, trivial, Moves.notifyNone here idle⟩
      | cons waiter rest =>
          have waits : waiter ∈ s.m_condvariable := idle ▸ List.mem_cons_self
          exact ⟨.notify call (some waiter), _, _, trivial, Moves.notify here waits⟩
  | unlocking result => exact ⟨.unlock call, _, _, trivial, Moves.unlock here⟩
  | outside | locking | waiting | woken | unlocked | returned =>
      rw [here] at inside
      exact absurd inside id

theorem AtRest.not_moves (rest : AtRest operation s) (onward : Onward s action) :
    ¬ Moves operation s action t emitted := by
  intro moves
  have taken := step_eq_some.mpr moves
  rw [rest action onward] at taken
  cases taken

theorem AtRest.free (rest : AtRest operation s) (sound : Sound operation s) :
    s.m_mutex = none := by
  by_contra taken
  obtain ⟨call, owner⟩ := Option.ne_none_iff_exists'.mp taken
  obtain ⟨action, t, emitted, onward, moves⟩ :=
    exists_onward_of_inside sound ((sound.mutex call).mpr owner)
  exact rest.not_moves onward moves

/-- A call at rest has returned or waits. -/
theorem AtRest.place (rest : AtRest operation s) (sound : Sound operation s) {call : ι}
    (member : call ∈ s.calls) :
    s.place call = .waiting ∨ ∃ result, s.place call = .returned result := by
  have free := rest.free sound
  have out := sound.not_inside_of_free free call
  have begun := (sound.calls call).mp member
  cases here : s.place call with
  | outside => exact absurd here begun
  | locking => exact absurd (Moves.lock here free) (rest.not_moves trivial)
  | woken => exact absurd (Moves.relock here free) (rest.not_moves trivial)
  | unlocked result => exact absurd (Moves.return here) (rest.not_moves trivial)
  | waiting => exact Or.inl rfl
  | returned result => exact Or.inr ⟨result, rfl⟩
  | running | taking | notifying | unlocking =>
      rw [here] at out
      exact absurd trivial out

/-- At rest nobody is on the way to the queue. -/
theorem AtRest.coming_eq_zero (rest : AtRest operation s) (sound : Sound operation s) :
    s.total coming operation = 0 := by
  refine Finset.sum_eq_zero fun call member => ?_
  rcases rest.place sound member with waits | ⟨result, back⟩
  · rw [waits]
    cases operation call <;> rfl
  · rw [back]
    cases operation call <;> rfl

/-! ## Runs -/

/-- The runs in which no call gives up. -/
abbrev PatientRun (operation : ι → Operation T) (history : List (CallEvent ι (Result T)))
    (s : LockQueue ι T) : Prop :=
  Run (step operation) Patient start history s

theorem sound_and_served_of_run (run : PatientRun operation history s) :
    Sound operation s ∧ Served operation s := by
  apply run.invariant
  · exact ⟨sound_start operation, fun waits => absurd rfl waits⟩
  · rintro events state action target emitted ⟨sound, served⟩ patient taken
    have moves := step_eq_some.mp taken
    exact ⟨sound.step moves, served.step sound patient moves⟩

/-- `Push` and `Pop` do not give up. -/
theorem patientRun_of_untimed (untimed : ∀ call, operation call ≠ .timeOutPop)
    (run : Run (step operation) anyStep start history s) : PatientRun operation history s := by
  induction run with
  | nil => exact Run.nil
  | @snoc events state action target emitted _ _ taken ih =>
      refine Run.snoc ih ?_ taken
      cases step_eq_some.mp taken with
      | timeout here free timed => exact absurd timed (untimed _)
      | _ => trivial

theorem remaining_of_exec {actions : List (Action ι)} (sound : Sound operation s)
    (onward : exec (step operation) Onward s actions = some (t, emitted)) :
    actions.length + t.total remaining operation ≤ s.total remaining operation := by
  induction actions generalizing s emitted with
  | nil =>
      cases onward
      simp
  | cons action rest ih =>
      by_cases accepted : Onward s action
      · cases taken : step operation s action with
        | none => simp [exec, accepted, taken] at onward
        | some result =>
            obtain ⟨middle, first⟩ := result
            have moves := step_eq_some.mp taken
            simp only [exec, accepted, taken, if_true, Option.map_eq_some_iff,
              Prod.mk.injEq] at onward
            obtain ⟨⟨final, later⟩, executed, rfl, _⟩ := onward
            have further := ih (sound.step moves) executed
            have less := remaining_lt sound accepted moves
            rw [List.length_cons]
            omega
      · simp [exec, accepted] at onward

/-- In whatever order the calls under way go on, they come to rest after a
number of steps that is known beforehand.  Then each of them has returned or
waits, and a call waits only at an empty queue. -/
theorem comes_to_rest {actions : List (Action ι)} (run : PatientRun operation history s)
    (onward : exec (step operation) Onward s actions = some (t, emitted)) :
    actions.length + t.total remaining operation ≤ s.total remaining operation ∧
      (t.m_condvariable ≠ [] → t.m_queue.length ≤ t.total coming operation) ∧
      (AtRest operation t →
        (∀ call ∈ t.calls, t.place call = .waiting ∨ ∃ result, t.place call = .returned result) ∧
          (t.m_queue = [] ∨ ∀ call, t.place call ≠ .waiting)) := by
  have begun := sound_and_served_of_run run
  have later : Run (step operation) Patient s emitted t :=
    (run_of_exec Run.nil onward).mono fun _ _ => Onward.patient
  obtain ⟨sound, served⟩ := sound_and_served_of_run (run.append later)
  refine ⟨remaining_of_exec begun.1 onward, served, fun rest => ?_⟩
  refine ⟨fun call member => rest.place sound member, ?_⟩
  by_cases idle : t.m_condvariable = []
  · refine Or.inr fun call waits => ?_
    have member := (sound.waiters call).mpr waits
    rw [idle] at member
    cases member
  · refine Or.inl (List.eq_nil_of_length_eq_zero (Nat.le_zero.mp ?_))
    rw [← rest.coming_eq_zero sound]
    exact served idle

theorem comes_to_rest_twoPairs :
    ∃ history s t emitted, PatientRun twoPairs history s ∧
      exec (step twoPairs) Onward s [.notify 2 (some 1), .unlock 2, .lock 3, .run 3] =
        some (t, emitted) ∧
      4 + t.total remaining twoPairs ≤ s.total remaining twoPairs ∧
      t.m_queue = [5, 6] ∧ t.m_condvariable = [0] ∧ 2 ≤ t.total coming twoPairs := by
  obtain ⟨history, s, run, checked⟩ := exists_run_of_exec (step twoPairs) Patient start
    [.begin 0, .lock 0, .run 0, .begin 1, .lock 1, .run 1, .begin 2, .lock 2, .run 2, .begin 3]
    (fun result =>
      (exec (step twoPairs) Onward result.1 [.notify 2 (some 1), .unlock 2, .lock 3, .run 3]).any
        fun reached => reached.1.m_queue = [5, 6] ∧ reached.1.m_condvariable = [0])
    (by decide +kernel)
  obtain ⟨⟨t, emitted⟩, onward, left⟩ := (Option.any_eq_true ..).mp checked
  obtain ⟨queue, waits⟩ := of_decide_eq_true left
  dsimp only at queue waits
  obtain ⟨bounded, served, _⟩ := comes_to_rest run onward
  have idle : t.m_condvariable ≠ [] := by simp [waits]
  have onTheWay := served idle
  rw [queue] at onTheWay
  exact ⟨history, s, t, emitted, run, onward, bounded, queue, waits, onTheWay⟩

end CppRaft.Common.LockQueue
