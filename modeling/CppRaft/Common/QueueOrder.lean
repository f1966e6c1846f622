import CppRaft.Common.LockQueue

/-!
# First in, first out

Whatever the order of the steps is, the calls of a `LockQueue` can be explained
by a queue that is used by one caller at a time: `Push` takes effect when the
data goes in and a pop when it goes out.  A `timeOutPop` that gives up has seen
an empty queue before it began to wait, and its answer stands at that moment
even if data has come since.
-/

namespace CppRaft.Common.LockQueue

open CppRaft.Session CppRaft.Transition

universe u v

variable {ι : Type u} {T : Type v}

/-- A queue that is used by one caller at a time. -/
inductive Fifo (operation : ι → Operation T) : Specification (List T) ι (Result T)
  | push {queue : List T} {call : ι} {data : T} (pushes : operation call = .Push data) :
      Fifo operation queue call .pushed (queue ++ [data])
  | pop {call : ι} {data : T} {rest : List T} (pops : ∀ data, operation call ≠ .Push data) :
      Fifo operation (data :: rest) call (.data data) rest
  | timeout {call : ι} (timed : operation call = .timeOutPop) :
      Fifo operation [] call .timedOut []

/-- The data that a call puts in. -/
def pushedData (operation : ι → Operation T) (entry : ι × Result T) : Option T :=
  match operation entry.1 with
  | .Push data => some data
  | .Pop | .timeOutPop => none

/-- The data that a call takes out. -/
def poppedData (entry : ι × Result T) : Option T :=
  match entry.2 with
  | .data data => some data
  | .pushed | .timedOut => none

theorem pushedData_of_pops {operation : ι → Operation T} {call : ι} (result : Result T)
    (pops : ∀ data, operation call ≠ .Push data) : pushedData operation (call, result) = none := by
  unfold pushedData
  cases same : operation call with
  | Push data => exact absurd same (pops data)
  | Pop => rfl
  | timeOutPop => rfl

/-- What goes in comes out in the same order, once. -/
theorem pushed_eq_popped_append {operation : ι → Operation T} {order : List (ι × Result T)}
    {queue : List T} (sequence : (Fifo operation).Sequence [] order queue) :
    order.filterMap (pushedData operation) = order.filterMap poppedData ++ queue := by
  induction sequence with
  | nil => rfl
  | snoc _ answers ih =>
      rw [List.filterMap_append, List.filterMap_append, ih]
      cases answers with
      | push pushes => simp [pushedData, poppedData, pushes]
      | pop pops => simp [pushedData_of_pops _ pops, poppedData]
      | timeout timed => simp [pushedData, poppedData, timed]

/-! ## The answer of each call -/

/-- The entry of a call in the order, given where the call is. -/
def Standing (operation : Operation T) (entry : Result T → Prop) : Place T → Prop
  | .outside | .locking => ∀ result, ¬ entry result
  | .running | .taking => ∀ result, entry result → operation = .timeOutPop ∧ result = .timedOut
  | .waiting | .woken =>
      (∀ result, entry result → operation = .timeOutPop ∧ result = .timedOut) ∧
        (operation = .timeOutPop → entry .timedOut)
  | .notifying => entry .pushed
  | .unlocking result | .unlocked result | .returned result => entry result

variable [DecidableEq ι] {operation : ι → Operation T} {s t : LockQueue ι T} {action : Action ι}
  {history emitted : List (CallEvent ι (Result T))} {order : List (ι × Result T)}

/-- The order explains the history so far. -/
structure Tracks (operation : ι → Operation T) (history : List (CallEvent ι (Result T)))
    (s : LockQueue ι T) (order : List (ι × Result T)) : Prop where
  linear : (Fifo operation).Linearization [] history order s.m_queue
  standing : ∀ call, Standing (operation call) (fun result => (call, result) ∈ order)
    (s.place call)
  begun : ∀ call, s.place call ≠ .outside → .begun call ∈ history
  returned : ∀ call result, .returned call result ∈ history → s.place call = .returned result

omit [DecidableEq ι] in
theorem tracks_start (operation : ι → Operation T) :
    Tracks operation [] (start : LockQueue ι T) [] where
  linear := Specification.Linearization.nil _ _
  standing := by simp [start, Standing]
  begun := by simp [start]
  returned := by simp

namespace Tracks

/-- A call goes on, and the order changes for it alone. -/
theorem move {call : ι} {place : Place T} {order' : List (ι × Result T)}
    (tracks : Tracks operation history s order) {t : LockQueue ι T} (same : t.place = s.place)
    (linear : (Fifo operation).Linearization [] history order' t.m_queue)
    (others : ∀ other, other ≠ call → ∀ result, (other, result) ∈ order' ↔ (other, result) ∈ order)
    (standing : Standing (operation call) (fun result => (call, result) ∈ order') place)
    (inside : s.place call ≠ .outside) (pending : ∀ result, s.place call ≠ .returned result) :
    Tracks operation history (t.move call place) order' where
  linear := linear
  standing := by
    intro other
    rw [place_move, same]
    split
    · rename_i here
      rw [here]
      exact standing
    · rename_i apart
      have entries := funext fun result => propext (others other apart result)
      rw [entries]
      exact tracks.standing other
  begun := by
    intro other elsewhere
    rw [place_move, same] at elsewhere
    by_cases here : other = call
    · exact here ▸ tracks.begun call inside
    · rw [if_neg here] at elsewhere
      exact tracks.begun other elsewhere
  returned := by
    intro other result found
    have there := tracks.returned other result found
    rw [place_move, same]
    by_cases here : other = call
    · exact absurd (here ▸ there) (pending result)
    · rw [if_neg here]
      exact there

omit [DecidableEq ι] in
/-- The entry of a call at a known place. -/
theorem standing_of {call : ι} {place : Place T} (tracks : Tracks operation history s order)
    (here : s.place call = place) :
    Standing (operation call) (fun result => (call, result) ∈ order) place :=
  here ▸ tracks.standing call

/-- A call goes on without effect. -/
theorem stay {call : ι} {source place : Place T} (tracks : Tracks operation history s order)
    (here : s.place call = source) {t : LockQueue ι T} (same : t.place = s.place)
    (queue : t.m_queue = s.m_queue)
    (standing : Standing (operation call) (fun result => (call, result) ∈ order) place)
    (inside : source ≠ .outside) (pending : ∀ result, source ≠ .returned result) :
    Tracks operation history (t.move call place) order := by
  subst here
  exact tracks.move same (queue ▸ tracks.linear) (fun _ _ _ => Iff.rfl) standing inside pending

theorem begin {call : ι} (tracks : Tracks operation history s order)
    (here : s.place call = .outside) :
    Tracks operation (history ++ [.begun call])
      ({ s with calls := insert call s.calls }.move call .locking) order := by
  have absent : ∀ result, (call, result) ∉ order := tracks.standing_of here
  refine ⟨tracks.linear.begin absent, ?_, ?_, ?_⟩
  · intro other
    rw [place_move]
    split
    · rename_i same
      exact same ▸ absent
    · exact tracks.standing other
  · intro other elsewhere
    by_cases same : other = call
    · exact same ▸ List.mem_append_right _ (List.mem_singleton_self _)
    · rw [place_move, if_neg same] at elsewhere
      exact List.mem_append_left _ (tracks.begun other elsewhere)
  · intro other result found
    have there := tracks.returned other result (by simpa using found)
    rw [place_move, if_neg]
    · exact there
    · rintro rfl
      rw [here] at there
      cases there

/-- The call takes effect and goes on. -/
theorem takeEffect {call : ι} {place : Place T} {result : Result T}
    (tracks : Tracks operation history s order) {t : LockQueue ι T} (same : t.place = s.place)
    (absent : ∀ result, (call, result) ∉ order)
    (answers : Fifo operation s.m_queue call result t.m_queue)
    (standing : Standing (operation call) (fun result' => result' = result) place)
    (inside : s.place call ≠ .outside) (pending : ∀ result, s.place call ≠ .returned result) :
    Tracks operation history (t.move call place) (order ++ [(call, result)]) := by
  refine tracks.move same (tracks.linear.takeEffect (tracks.begun call inside) absent answers)
    ?_ ?_ inside pending
  · intro other apart result'
    simp [apart]
  · have entries : (fun result' => (call, result') ∈ order ++ [(call, result)]) =
        fun result' => result' = result := by
      funext result'
      simp [absent]
    rw [entries]
    exact standing

/-- A call that has found something takes back the answer that it would have
given at the deadline. -/
theorem withdraw {call : ι} (tracks : Tracks operation history s order)
    (here : s.place call = .taking) :
    Tracks operation history s (order.filter fun entry => entry.1 ≠ call) := by
  have standing := tracks.standing_of here
  have others : ∀ other, other ≠ call → ∀ result,
      (other, result) ∈ order.filter (fun entry => entry.1 ≠ call) ↔ (other, result) ∈ order := by
    intro other apart result
    simp [apart]
  refine ⟨tracks.linear.withdraw ?_ ?_, ?_, tracks.begun, tracks.returned⟩
  · intro result found
    have there := tracks.returned call result found
    rw [here] at there
    cases there
  · rintro result member state target answers
    obtain ⟨_, rfl⟩ := standing result member
    cases answers with
    | timeout _ => rfl
  · intro other
    by_cases same : other = call
    · rw [same, here]
      intro result member
      simp at member
    · have entries := funext fun result => propext (others other same result)
      rw [entries]
      exact tracks.standing other

theorem «return» {call : ι} {result : Result T} (tracks : Tracks operation history s order)
    (here : s.place call = .unlocked result) :
    Tracks operation (history ++ [.returned call result]) (s.move call (.returned result))
      order := by
  have found : (call, result) ∈ order := tracks.standing_of here
  have moved : Tracks operation history (s.move call (.returned result)) order :=
    tracks.stay here rfl rfl found (by simp) (by simp)
  refine ⟨moved.linear.return found, moved.standing, ?_, ?_⟩
  · intro other elsewhere
    exact List.mem_append_left _ (moved.begun other elsewhere)
  · intro other result' returned
    rcases List.mem_append.mp returned with old | new
    · exact moved.returned other result' old
    · cases List.mem_singleton.mp new
      rw [place_move, if_pos rfl]

theorem step (tracks : Tracks operation history s order) (sound : Sound operation s)
    (moves : Moves operation s action t emitted) :
    ∃ order', Tracks operation (history ++ emitted) t order' := by
  cases moves with
  | «begin» here => exact ⟨order, tracks.begin here⟩
  | «return» here => exact ⟨order, tracks.return here⟩
  | @push call data here pushes =>
      have absent : ∀ result, (call, result) ∉ order := by
        intro result found
        have timed := (tracks.standing_of here result found).1
        rw [pushes] at timed
        cases timed
      rw [List.append_nil]
      exact ⟨_, tracks.takeEffect rfl absent (Fifo.push pushes) rfl (by simp [here])
        (by simp [here])⟩
  | @wait call here pops empty =>
      have gives := tracks.standing_of here
      rw [List.append_nil]
      by_cases tentative : operation call = .timeOutPop ∧ (call, .timedOut) ∉ order
      · -- The answer in case that the deadline passes is the one of this moment.
        obtain ⟨timed, missing⟩ := tentative
        have absent : ∀ result, (call, result) ∉ order := by
          intro result found
          obtain ⟨_, rfl⟩ := gives result found
          exact missing found
        have answers : Fifo operation s.m_queue call .timedOut s.m_queue := by
          rw [empty]
          exact Fifo.timeout timed
        exact ⟨_, tracks.takeEffect rfl absent answers
          ⟨fun result same => ⟨timed, same⟩, fun _ => rfl⟩ (by simp [here]) (by simp [here])⟩
      · rw [not_and, not_not] at tentative
        exact ⟨order, tracks.stay here rfl rfl ⟨gives, tentative⟩ (by simp) (by simp)⟩
  | @take call data rest here filled =>
      have answers : Fifo operation s.m_queue call (.data data) rest := by
        rw [filled]
        exact Fifo.pop (sound.pops call (Or.inl here))
      rw [List.append_nil]
      refine ⟨_, (tracks.withdraw here).takeEffect rfl ?_ answers rfl (by simp [here])
        (by simp [here])⟩
      simp
  | @notify call waiter here waits =>
      have there := (sound.waiters waiter).mp waits
      have gives := tracks.standing_of there
      have apart : call ≠ waiter := by
        rintro rfl
        rw [here] at there
        cases there
      have woken : Tracks operation history
          ({ s with m_condvariable := s.m_condvariable.erase waiter }.move waiter .woken) order :=
        tracks.stay there rfl rfl gives (by simp) (by simp)
      have still : ({ s with m_condvariable := s.m_condvariable.erase waiter }.move waiter
          .woken).place call = .notifying := by
        rw [place_move, if_neg apart]
        exact here
      have found := woken.standing_of still
      rw [List.append_nil]
      exact ⟨order, woken.stay still rfl rfl found (by simp) (by simp)⟩
  | @wake call waits =>
      have there := (sound.waiters call).mp waits
      have gives := tracks.standing_of there
      rw [List.append_nil]
      exact ⟨order, tracks.stay there rfl rfl gives (by simp) (by simp)⟩
  | lock here =>
      have absent := tracks.standing_of here
      rw [List.append_nil]
      exact ⟨order, tracks.stay here rfl rfl (fun result found => absurd found (absent result))
        (by simp) (by simp)⟩
  | relock here =>
      rw [List.append_nil]
      exact ⟨order, tracks.stay here rfl rfl (tracks.standing_of here).1 (by simp) (by simp)⟩
  | timeout here _ timed =>
      rw [List.append_nil]
      exact ⟨order, tracks.stay here rfl rfl ((tracks.standing_of here).2 timed) (by simp)
        (by simp)⟩
  | look here | notifyNone here | unlock here =>
      have gives := tracks.standing_of here
      rw [List.append_nil]
      exact ⟨order, tracks.stay here rfl rfl gives (by simp) (by simp)⟩

end Tracks

theorem tracks_of_run (run : QueueRun operation history s) :
    ∃ order, Tracks operation history s order := by
  have both : Sound operation s ∧ ∃ order, Tracks operation history s order := by
    apply run.invariant
    · exact ⟨sound_start operation, [], tracks_start operation⟩
    · rintro events state action target emitted ⟨sound, order, tracks⟩ _ taken
      have moves := step_eq_some.mp taken
      exact ⟨sound.step moves, tracks.step sound moves⟩
  exact both.2

/-- Whatever the order of the steps is, the calls are explained by a queue that
is used by one caller at a time; each piece of data comes out once, in the order
in which it went in, or is still in the queue. -/
theorem first_in_first_out (run : QueueRun operation history s) :
    ∃ order, (Fifo operation).Linearization [] history order s.m_queue ∧
      order.filterMap (pushedData operation) = order.filterMap poppedData ++ s.m_queue := by
  obtain ⟨order, tracks⟩ := tracks_of_run run
  exact ⟨order, tracks.linear, pushed_eq_popped_append tracks.linear.sequence⟩

/-- The call to `timeOutPop` gives up although its data is there. -/
theorem first_in_first_out_twoPairs :
    ∃ history s order, QueueRun twoPairs history s ∧
      history = [.begun 1, .begun 0, .begun 2, .returned 1 .timedOut, .begun 3,
        .returned 0 (.data 5)] ∧
      (Fifo twoPairs).Linearization [] history order s.m_queue ∧ s.m_queue = [6] ∧
      order.filterMap (pushedData twoPairs) = order.filterMap poppedData ++ [6] := by
  obtain ⟨history, s, run, checked⟩ := exists_run_of_exec (step twoPairs) anyStep start
    [.begin 1, .lock 1, .run 1, .begin 0, .begin 2, .lock 2, .run 2, .notify 2 (some 1), .unlock 2,
      .relock 1 true, .unlock 1, .return 1, .begin 3, .lock 3, .run 3, .notify 3 none, .unlock 3,
      .lock 0, .run 0, .run 0, .unlock 0, .return 0]
    (fun result => result.1.m_queue = [6] ∧ result.2 = [.begun 1, .begun 0, .begun 2,
      .returned 1 .timedOut, .begun 3, .returned 0 (.data 5)])
    (by decide +kernel)
  obtain ⟨queue, same⟩ := of_decide_eq_true checked
  obtain ⟨order, linear, fifo⟩ := first_in_first_out run
  exact ⟨history, s, order, run, same, linear, queue, queue ▸ fifo⟩

end CppRaft.Common.LockQueue
