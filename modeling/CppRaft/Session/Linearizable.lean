import CppRaft.Transition.Growing
import CppRaft.Transition.Run
import Mathlib.Data.List.Infix
import Mathlib.Data.List.Nodup
import Mathlib.Logic.Function.Basic

/-!
# Linearizability from a log of updates

Callers of a shared object see when a call begins and when it returns.  The
history is linearizable when the calls can be put into one order that the
sequential object explains and that keeps every call behind those that had
returned before it began.

An object is often kept as a log of its updates: an update takes effect where
it enters the log, and a read answers from some prefix of the log.  Such reads
may lag behind the log.  What they need is a prefix that is not shorter than
the log was when they began.
-/

namespace CppRaft.Session

open CppRaft.Transition

universe u v w

variable {σ : Type u} {ι : Type v} {ρ : Type w}

/-! ## Sequential objects -/

/-- An object with the calls `ι`.  A read does not change the state, and the
response to an update tells nothing of it. -/
structure SeqObject (σ : Type u) (ι : Type v) (ρ : Type w) where
  start : σ
  update : σ → ι → σ
  response : σ → ι → ρ
  Reads : ι → Prop
  update_of_reads : ∀ state call, Reads call → update state call = state
  response_of_updates : ∀ state state' call, ¬ Reads call →
    response state call = response state' call

namespace SeqObject

variable {object : SeqObject σ ι ρ}

/-- The state after some calls. -/
def run (object : SeqObject σ ι ρ) (state : σ) (calls : List ι) : σ :=
  calls.foldl object.update state

theorem run_append (state : σ) (calls more : List ι) :
    object.run state (calls ++ more) = object.run (object.run state calls) more :=
  List.foldl_append

/-- The calls, each with its response, one after another. -/
def Legal (object : SeqObject σ ι ρ) (state : σ) : List (ι × ρ) → Prop
  | [] => True
  | (call, response) :: rest =>
      response = object.response state call ∧ object.Legal (object.update state call) rest

theorem legal_append {state : σ} {order more : List (ι × ρ)} :
    object.Legal state (order ++ more) ↔
      object.Legal state order ∧ object.Legal (object.run state (order.map Prod.fst)) more := by
  induction order generalizing state with
  | nil => simp [Legal, run]
  | cons entry rest ih =>
      obtain ⟨call, response⟩ := entry
      simp only [List.cons_append, Legal, ih, and_assoc, List.map_cons, run, List.foldl_cons]

/-- Reads of one state leave it as it is. -/
theorem legal_reads {state : σ} {reads : List (ι × ρ)}
    (correct : ∀ read ∈ reads, object.Reads read.1 ∧ read.2 = object.response state read.1) :
    object.Legal state reads ∧ object.run state (reads.map Prod.fst) = state := by
  induction reads with
  | nil => exact ⟨trivial, rfl⟩
  | cons read rest ih =>
      obtain ⟨call, response⟩ := read
      have head := correct _ List.mem_cons_self
      have same := object.update_of_reads state call head.1
      obtain ⟨legal, unchanged⟩ :=
        ih fun read member => correct read (List.mem_cons_of_mem _ member)
      refine ⟨⟨head.2, ?_⟩, ?_⟩
      · rw [same]
        exact legal
      · simp only [run, List.map_cons, List.foldl_cons, same]
        exact unchanged

end SeqObject

/-! ## Histories -/

/-- What the callers see. -/
inductive CallEvent (ι : Type v) (ρ : Type w)
  | begun (call : ι)
  | returned (call : ι) (response : ρ)
deriving DecidableEq

/-- A call returns before another one begins. -/
def Precedes (history : List (CallEvent ι ρ)) (first second : ι) : Prop :=
  ∃ earlier later response, history = earlier ++ later ∧
    .returned first response ∈ earlier ∧ .begun second ∈ later

/-- Only the begin of a call puts others before it. -/
theorem precedes_concat {history : List (CallEvent ι ρ)} {event : CallEvent ι ρ}
    {first second : ι} :
    Precedes (history ++ [event]) first second ↔
      Precedes history first second ∨
        event = .begun second ∧ ∃ response, .returned first response ∈ history := by
  constructor
  · rintro ⟨earlier, later, response, split, returned, begun⟩
    rcases List.eq_nil_or_concat later with rfl | ⟨later, last, rfl⟩
    · cases begun
    · rw [List.concat_eq_append, ← List.append_assoc] at split
      obtain ⟨rfl, same⟩ := List.append_inj' split rfl
      obtain rfl : event = last := by simpa using same
      rw [List.concat_eq_append] at begun
      rcases List.mem_append.mp begun with old | new
      · exact Or.inl ⟨earlier, later, response, rfl, returned, old⟩
      · exact Or.inr ⟨(List.mem_singleton.mp new).symm, response,
          List.mem_append_left _ returned⟩
  · rintro (⟨earlier, later, response, rfl, returned, begun⟩ | ⟨rfl, response, returned⟩)
    · exact ⟨earlier, later ++ [event], response, List.append_assoc .., returned,
        List.mem_append_left _ begun⟩
    · exact ⟨history, [.begun second], response, rfl, returned, List.mem_singleton_self _⟩

/-- An order of the calls with their responses that explains a history: calls
that have not returned may be in it as well. -/
structure Linearization (object : SeqObject σ ι ρ) (history : List (CallEvent ι ρ))
    (order : List (ι × ρ)) : Prop where
  legal : object.Legal object.start order
  once : (order.map Prod.fst).Nodup
  begun : ∀ entry ∈ order, .begun entry.1 ∈ history
  complete : ∀ call response, .returned call response ∈ history → (call, response) ∈ order
  realTime : order.Pairwise fun entry later => ¬ Precedes history later.1 entry.1

/-- Some order explains the history. -/
def Linearizable (object : SeqObject σ ι ρ) (history : List (CallEvent ι ρ)) : Prop :=
  ∃ order, Linearization object history order

/-! ## A log of updates -/

/-- A read that has returned, with the length of the prefix that it read. -/
structure LogRead (ι : Type v) (ρ : Type w) where
  call : ι
  response : ρ
  position : Nat

/-- The updates in effect and the reads that have returned, both in order, with
the length that the log had when a call began. -/
structure LogObject (ι : Type v) (ρ : Type w) where
  since : ι → Option Nat
  log : List ι
  reads : List (LogRead ι ρ)

/-- A choice of the object. -/
inductive LogAction (ι : Type v)
  | begin (call : ι)
  | takeEffect (call : ι)
  | returnUpdate (call : ι)
  /-- The read answers from a prefix of the log. -/
  | returnRead (call : ι) (position : Nat)

namespace LogObject

/-- No call has begun. -/
def start : LogObject ι ρ where
  since := fun _ => none
  log := []
  reads := []

/-- The state after a prefix of the log. -/
def state (object : SeqObject σ ι ρ) (s : LogObject ι ρ) (position : Nat) : σ :=
  object.run object.start (s.log.take position)

variable [DecidableEq ι]

/-- One step; `none` when the action is not enabled. -/
def step (object : SeqObject σ ι ρ) [DecidablePred object.Reads] (s : LogObject ι ρ) :
    LogAction ι → Option (LogObject ι ρ × List (CallEvent ι ρ))
  | .begin call =>
      if s.since call = none then
        some ({ s with since := Function.update s.since call (some s.log.length) }, [.begun call])
      else none
  | .takeEffect call =>
      if s.since call ≠ none ∧ ¬ object.Reads call ∧ call ∉ s.log then
        some ({ s with log := s.log ++ [call] }, [])
      else none
  | .returnUpdate call =>
      if call ∈ s.log then some (s, [.returned call (object.response object.start call)])
      else none
  | .returnRead call position =>
      match s.since call with
      | none => none
      | some since =>
          if object.Reads call ∧ call ∉ s.reads.map LogRead.call ∧ since ≤ position ∧
              position ≤ s.log.length then
            let response := object.response (s.state object position) call
            some ({ s with reads := s.reads ++ [⟨call, response, position⟩] },
              [.returned call response])
          else none

variable {object : SeqObject σ ι ρ} [DecidablePred object.Reads] {s : LogObject ι ρ} {call : ι}

theorem step_begin (fresh : s.since call = none) :
    s.step object (.begin call) =
      some ({ s with since := Function.update s.since call (some s.log.length) },
        [.begun call]) :=
  if_pos fresh

theorem step_takeEffect (began : s.since call ≠ none) (updates : ¬ object.Reads call)
    (absent : call ∉ s.log) :
    s.step object (.takeEffect call) = some ({ s with log := s.log ++ [call] }, []) :=
  if_pos ⟨began, updates, absent⟩

theorem step_returnUpdate (member : call ∈ s.log) :
    s.step object (.returnUpdate call) =
      some (s, [.returned call (object.response object.start call)]) :=
  if_pos member

theorem step_returnRead {since position : Nat} (began : s.since call = some since)
    (reads : object.Reads call) (pending : call ∉ s.reads.map LogRead.call)
    (fresh : since ≤ position) (bound : position ≤ s.log.length) :
    s.step object (.returnRead call position) =
      some ({ s with
          reads := s.reads ++
            [⟨call, object.response (s.state object position) call, position⟩] },
        [.returned call (object.response (s.state object position) call)]) := by
  simp only [step, began]
  exact if_pos ⟨reads, pending, fresh, bound⟩

end LogObject

/-- The runs of a log object. -/
abbrev LogRun [DecidableEq ι] (object : SeqObject σ ι ρ) [DecidablePred object.Reads]
    (history : List (CallEvent ι ρ)) (s : LogObject ι ρ) : Prop :=
  Run (LogObject.step object) anyStep LogObject.start history s

namespace LogObject

variable {object : SeqObject σ ι ρ} {s : LogObject ι ρ} {history : List (CallEvent ι ρ)}

/-- The call took effect within a prefix of the log. -/
def Within (s : LogObject ι ρ) (call : ι) (position : Nat) : Prop :=
  (∃ k, k < position ∧ s.log[k]? = some call) ∨
    ∃ read ∈ s.reads, read.call = call ∧ read.position ≤ position

theorem Within.mono {call : ι} {position position' : Nat} (within : s.Within call position)
    (le : position ≤ position') : s.Within call position' := by
  rcases within with ⟨k, less, found⟩ | ⟨read, member, same, bound⟩
  · exact Or.inl ⟨k, less.trans_le le, found⟩
  · exact Or.inr ⟨read, member, same, bound.trans le⟩

/-- What holds along a run. -/
structure Faithful (object : SeqObject σ ι ρ) (history : List (CallEvent ι ρ))
    (s : LogObject ι ρ) : Prop where
  begun : ∀ call since, s.since call = some since →
    .begun call ∈ history ∧ since ≤ s.log.length
  updates : ∀ call ∈ s.log, ¬ object.Reads call
  distinct : s.log.Nodup
  appended : ∀ k call, s.log[k]? = some call → ∃ since, s.since call = some since ∧ since ≤ k
  correct : ∀ read ∈ s.reads, object.Reads read.call ∧
    read.response = object.response (s.state object read.position) read.call
  window : ∀ read ∈ s.reads, read.position ≤ s.log.length ∧
    ∃ since, s.since read.call = some since ∧ since ≤ read.position
  distinctReads : (s.reads.map LogRead.call).Nodup
  answered : ∀ call response, .returned call response ∈ history →
    call ∈ s.log ∧ response = object.response object.start call ∨
      ∃ read ∈ s.reads, read.call = call ∧ read.response = response
  realTime : ∀ first second since, Precedes history first second →
    s.since second = some since → s.Within first since
  ordered : s.reads.Pairwise fun read later => ¬ Precedes history later.call read.call

theorem faithful_start : Faithful object [] (start : LogObject ι ρ) where
  begun := by simp [start]
  updates := by simp [start]
  distinct := List.nodup_nil
  appended := by simp [start]
  correct := by simp [start]
  window := by simp [start]
  distinctReads := List.nodup_nil
  answered := by simp
  realTime := by simp [start]
  ordered := List.Pairwise.nil

namespace Faithful

/-- A call that has returned took effect. -/
theorem within (faithful : Faithful object history s) {call : ι} {response : ρ}
    (returned : .returned call response ∈ history) : s.Within call s.log.length := by
  rcases faithful.answered call response returned with ⟨member, _⟩ | ⟨read, member, same, _⟩
  · obtain ⟨k, found⟩ := List.mem_iff_getElem?.mp member
    exact Or.inl ⟨k, (List.getElem?_eq_some_iff.mp found).1, found⟩
  · exact Or.inr ⟨read, member, same, (faithful.window read member).1⟩

/-- A read that has not returned precedes nothing. -/
theorem not_precedes (faithful : Faithful object history s) {call other : ι}
    (reads : object.Reads call) (pending : call ∉ s.reads.map LogRead.call) :
    ¬ Precedes history call other := by
  rintro ⟨earlier, later, response, rfl, returned, _⟩
  rcases faithful.answered call response (List.mem_append_left _ returned) with
    ⟨member, _⟩ | ⟨read, member, same, _⟩
  · exact faithful.updates call member reads
  · exact pending (same ▸ List.mem_map_of_mem member)

theorem begin [DecidableEq ι] (faithful : Faithful object history s) {call : ι}
    (fresh : s.since call = none) :
    Faithful object (history ++ [.begun call])
      { s with since := Function.update s.since call (some s.log.length) } where
  begun := by
    intro other since found
    dsimp only at found
    by_cases same : other = call
    · subst same
      rw [Function.update_self, Option.some.injEq] at found
      exact ⟨by simp, found.ge⟩
    · rw [Function.update_of_ne same] at found
      obtain ⟨begun, le⟩ := faithful.begun other since found
      exact ⟨List.mem_append_left _ begun, le⟩
  updates := faithful.updates
  distinct := faithful.distinct
  appended := by
    intro k other found
    obtain ⟨since, began, le⟩ := faithful.appended k other found
    have old : other ≠ call := by
      rintro rfl
      rw [fresh] at began
      cases began
    exact ⟨since, (Function.update_of_ne old _ _).trans began, le⟩
  correct := faithful.correct
  window := by
    intro read member
    obtain ⟨bound, since, began, le⟩ := faithful.window read member
    have old : read.call ≠ call := by
      intro same
      rw [same, fresh] at began
      cases began
    exact ⟨bound, since, (Function.update_of_ne old _ _).trans began, le⟩
  distinctReads := faithful.distinctReads
  answered := by
    intro other response returned
    exact faithful.answered other response (by simpa using returned)
  realTime := by
    intro first second since precedes found
    dsimp only at found
    rcases precedes_concat.mp precedes with before | ⟨same, response, returned⟩
    · by_cases new : second = call
      · subst new
        obtain ⟨earlier, later, response, rfl, returned, _⟩ := before
        rw [Function.update_self, Option.some.injEq] at found
        exact found ▸ faithful.within (List.mem_append_left _ returned)
      · rw [Function.update_of_ne new] at found
        exact faithful.realTime first second since before found
    · cases same
      rw [Function.update_self, Option.some.injEq] at found
      exact found ▸ faithful.within returned
  ordered := by
    refine faithful.ordered.imp_of_mem fun {read later} member _ apart precedes => ?_
    rcases precedes_concat.mp precedes with before | ⟨same, _⟩
    · exact apart before
    · obtain ⟨_, since, began, _⟩ := faithful.window read member
      cases same
      rw [fresh] at began
      cases began

theorem takeEffect (faithful : Faithful object history s) {call : ι} (began : s.since call ≠ none)
    (updates : ¬ object.Reads call) (absent : call ∉ s.log) :
    Faithful object history { s with log := s.log ++ [call] } where
  begun := by
    intro other since found
    obtain ⟨begun, le⟩ := faithful.begun other since found
    exact ⟨begun, le.trans (by simp)⟩
  updates := by
    intro other member
    rcases List.mem_append.mp member with old | new
    · exact faithful.updates other old
    · exact List.mem_singleton.mp new ▸ updates
  distinct := by
    rw [List.nodup_append]
    refine ⟨faithful.distinct, List.nodup_singleton _, ?_⟩
    intro other old new member same
    exact absent (List.mem_singleton.mp member ▸ same ▸ old)
  appended := by
    intro k other found
    rcases getElem?_concat_eq_some.mp found with old | ⟨rfl, rfl⟩
    · exact faithful.appended k other old
    · obtain ⟨since, began⟩ := Option.ne_none_iff_exists'.mp began
      exact ⟨since, began, (faithful.begun _ since began).2⟩
  correct := by
    intro read member
    obtain ⟨reads, response⟩ := faithful.correct read member
    have bound := (faithful.window read member).1
    refine ⟨reads, response.trans ?_⟩
    unfold state
    rw [List.take_append_of_le_length bound]
  window := by
    intro read member
    obtain ⟨bound, since⟩ := faithful.window read member
    exact ⟨bound.trans (by simp), since⟩
  distinctReads := faithful.distinctReads
  answered := by
    intro other response returned
    rcases faithful.answered other response returned with ⟨member, same⟩ | read
    · exact Or.inl ⟨List.mem_append_left _ member, same⟩
    · exact Or.inr read
  realTime := by
    intro first second since precedes found
    rcases faithful.realTime first second since precedes found with ⟨k, less, found⟩ | read
    · exact Or.inl ⟨k, less, getElem?_append_of_eq_some found⟩
    · exact Or.inr read
  ordered := faithful.ordered

theorem returnUpdate (faithful : Faithful object history s) {call : ι} (member : call ∈ s.log) :
    Faithful object (history ++ [.returned call (object.response object.start call)]) s where
  begun := by
    intro other since found
    obtain ⟨begun, le⟩ := faithful.begun other since found
    exact ⟨List.mem_append_left _ begun, le⟩
  updates := faithful.updates
  distinct := faithful.distinct
  appended := faithful.appended
  correct := faithful.correct
  window := faithful.window
  distinctReads := faithful.distinctReads
  answered := by
    intro other response returned
    rcases List.mem_append.mp returned with old | new
    · exact faithful.answered other response old
    · cases List.mem_singleton.mp new
      exact Or.inl ⟨member, rfl⟩
  realTime := by
    intro first second since precedes found
    rcases precedes_concat.mp precedes with before | ⟨same, _⟩
    · exact faithful.realTime first second since before found
    · cases same
  ordered := by
    refine faithful.ordered.imp fun {read later} apart precedes => ?_
    rcases precedes_concat.mp precedes with before | ⟨same, _⟩
    · exact apart before
    · cases same

theorem returnRead (faithful : Faithful object history s) {call : ι} {since position : Nat}
    (began : s.since call = some since) (reads : object.Reads call)
    (pending : call ∉ s.reads.map LogRead.call) (fresh : since ≤ position)
    (bound : position ≤ s.log.length) :
    Faithful object
      (history ++ [.returned call (object.response (s.state object position) call)])
      { s with
        reads := s.reads ++
          [⟨call, object.response (s.state object position) call, position⟩] } where
  begun := by
    intro other since found
    obtain ⟨begun, le⟩ := faithful.begun other since found
    exact ⟨List.mem_append_left _ begun, le⟩
  updates := faithful.updates
  distinct := faithful.distinct
  appended := faithful.appended
  correct := by
    intro read member
    rcases List.mem_append.mp member with old | new
    · exact faithful.correct read old
    · rw [List.mem_singleton.mp new]
      exact ⟨reads, rfl⟩
  window := by
    intro read member
    rcases List.mem_append.mp member with old | new
    · exact faithful.window read old
    · rw [List.mem_singleton.mp new]
      exact ⟨bound, since, began, fresh⟩
  distinctReads := by
    rw [List.map_append, List.nodup_append]
    refine ⟨faithful.distinctReads, List.nodup_singleton _, ?_⟩
    rintro other old new member rfl
    rw [List.mem_singleton.mp member] at old
    exact pending old
  answered := by
    intro other response returned
    rcases List.mem_append.mp returned with old | new
    · rcases faithful.answered other response old with update | ⟨read, member, same⟩
      · exact Or.inl update
      · exact Or.inr ⟨read, List.mem_append_left _ member, same⟩
    · cases List.mem_singleton.mp new
      exact Or.inr ⟨_, List.mem_append_right _ (List.mem_singleton_self _), rfl, rfl⟩
  realTime := by
    intro first second since precedes found
    rcases precedes_concat.mp precedes with before | ⟨same, _⟩
    · rcases faithful.realTime first second since before found with update | ⟨read, member, same⟩
      · exact Or.inl update
      · exact Or.inr ⟨read, List.mem_append_left _ member, same⟩
    · cases same
  ordered := by
    rw [List.pairwise_append]
    refine ⟨?_, List.pairwise_singleton _ _, ?_⟩
    · refine faithful.ordered.imp fun {read later} apart precedes => ?_
      rcases precedes_concat.mp precedes with before | ⟨same, _⟩
      · exact apart before
      · cases same
    · intro read _ last member precedes
      rw [List.mem_singleton.mp member] at precedes
      rcases precedes_concat.mp precedes with before | ⟨same, _⟩
      · exact faithful.not_precedes reads pending before
      · cases same

theorem step [DecidableEq ι] [DecidablePred object.Reads] (faithful : Faithful object history s)
    {action : LogAction ι} {t : LogObject ι ρ} {emitted : List (CallEvent ι ρ)}
    (taken : s.step object action = some (t, emitted)) :
    Faithful object (history ++ emitted) t := by
  cases action with
  | «begin» call =>
      simp only [LogObject.step, Option.ite_none_right_eq_some] at taken
      obtain ⟨fresh, same⟩ := taken
      cases same
      exact faithful.begin fresh
  | takeEffect call =>
      simp only [LogObject.step, Option.ite_none_right_eq_some] at taken
      obtain ⟨⟨began, updates, absent⟩, same⟩ := taken
      cases same
      rw [List.append_nil]
      exact faithful.takeEffect began updates absent
  | returnUpdate call =>
      simp only [LogObject.step, Option.ite_none_right_eq_some] at taken
      obtain ⟨member, same⟩ := taken
      cases same
      exact faithful.returnUpdate member
  | returnRead call position =>
      simp only [LogObject.step] at taken
      split at taken
      · cases taken
      · rename_i since began
        rw [Option.ite_none_right_eq_some] at taken
        obtain ⟨⟨reads, pending, fresh, bound⟩, same⟩ := taken
        cases same
        exact faithful.returnRead began reads pending fresh bound

end Faithful

theorem faithful_of_run [DecidableEq ι] [DecidablePred object.Reads]
    (run : LogRun object history s) : Faithful object history s :=
  run.invariant faithful_start fun _ _ _ _ _ faithful _ taken => faithful.step taken

/-! ## The order -/

/-- The reads of one prefix. -/
def readsAt (s : LogObject ι ρ) (position : Nat) : List (ι × ρ) :=
  (s.reads.filter fun read => read.position = position).map fun read =>
    (read.call, read.response)

/-- The update at one place of the log. -/
def updateAt (object : SeqObject σ ι ρ) (s : LogObject ι ρ) (k : Nat) : List (ι × ρ) :=
  s.log[k]?.toList.map fun call => (call, object.response object.start call)

/-- The updates of a prefix, with the reads of each shorter prefix in front of
the next update. -/
def order (object : SeqObject σ ι ρ) (s : LogObject ι ρ) : Nat → List (ι × ρ)
  | 0 => s.readsAt 0
  | position + 1 =>
      s.order object position ++ (s.updateAt object position ++ s.readsAt (position + 1))

theorem mem_readsAt {position : Nat} {entry : ι × ρ} :
    entry ∈ s.readsAt position ↔
      ∃ read ∈ s.reads, read.position = position ∧ (read.call, read.response) = entry := by
  simp only [readsAt, List.mem_map, List.mem_filter, decide_eq_true_eq, and_assoc]

theorem mem_updateAt {k : Nat} {entry : ι × ρ} :
    entry ∈ s.updateAt object k ↔
      s.log[k]? = some entry.1 ∧ entry.2 = object.response object.start entry.1 := by
  obtain ⟨call, response⟩ := entry
  simp only [updateAt, List.mem_map, Option.mem_toList, Prod.mk.injEq]
  constructor
  · rintro ⟨_, found, rfl, rfl⟩
    exact ⟨found, rfl⟩
  · rintro ⟨found, rfl⟩
    exact ⟨call, found, rfl, rfl⟩

theorem mem_order {position : Nat} {entry : ι × ρ} :
    entry ∈ s.order object position ↔
      (∃ k < position, entry ∈ s.updateAt object k) ∨
        ∃ k ≤ position, entry ∈ s.readsAt k := by
  induction position with
  | zero => simp [order]
  | succ position ih =>
      simp only [order, List.mem_append, ih, Nat.lt_succ_iff_lt_or_eq, Nat.le_succ_iff]
      grind

theorem Within.of_mem_order {position : Nat} {entry : ι × ρ}
    (member : entry ∈ s.order object position) : s.Within entry.1 position := by
  rcases mem_order.mp member with ⟨k, less, update⟩ | ⟨k, le, block⟩
  · exact Or.inl ⟨k, less, (mem_updateAt.mp update).1⟩
  · obtain ⟨read, inside, rfl, rfl⟩ := mem_readsAt.mp block
    exact Or.inr ⟨read, inside, rfl, le⟩

namespace Faithful

variable (faithful : Faithful object history s)
include faithful

/-- A call has begun before it takes effect. -/
theorem since_of_within {call : ι} {position : Nat} (within : s.Within call position) :
    ∃ since, s.since call = some since ∧ since ≤ position := by
  rcases within with ⟨k, less, found⟩ | ⟨read, member, rfl, le⟩
  · obtain ⟨since, began, bound⟩ := faithful.appended k call found
    exact ⟨since, began, by omega⟩
  · obtain ⟨_, since, began, bound⟩ := faithful.window read member
    exact ⟨since, began, bound.trans le⟩

/-- An update takes effect at one place. -/
theorem lt_of_within {k position : Nat} {call : ι} (found : s.log[k]? = some call)
    (within : s.Within call position) : k < position := by
  rcases within with ⟨k', less, found'⟩ | ⟨read, member, rfl, _⟩
  · obtain ⟨inside, here⟩ := List.getElem?_eq_some_iff.mp found
    obtain ⟨inside', here'⟩ := List.getElem?_eq_some_iff.mp found'
    have same := (faithful.distinct.getElem_inj_iff).mp (here.trans here'.symm)
    omega
  · exact absurd (faithful.correct read member).1
      (faithful.updates _ (List.mem_of_getElem? found))

/-- A read takes effect after one prefix. -/
theorem le_of_within {read : LogRead ι ρ} {position : Nat} (member : read ∈ s.reads)
    (within : s.Within read.call position) : read.position ≤ position := by
  rcases within with ⟨k, _, found⟩ | ⟨read', member', same, le⟩
  · exact absurd (faithful.correct read member).1
      (faithful.updates _ (List.mem_of_getElem? found))
  · rwa [List.inj_on_of_nodup_map faithful.distinctReads member member' same.symm]

/-- The reads of one prefix are in the order of their returns. -/
theorem pairwise_readsAt (position : Nat) :
    (s.readsAt position).Pairwise fun entry later =>
      entry.1 ≠ later.1 ∧ ¬ Precedes history later.1 entry.1 := by
  have distinct : s.reads.Pairwise fun read later => read.call ≠ later.call :=
    List.pairwise_map.mp faithful.distinctReads
  exact List.pairwise_map.mpr ((distinct.and faithful.ordered).filter _)

theorem pairwise_order (position : Nat) :
    (s.order object position).Pairwise fun entry later =>
      entry.1 ≠ later.1 ∧ ¬ Precedes history later.1 entry.1 := by
  induction position with
  | zero => exact faithful.pairwise_readsAt 0
  | succ position ih =>
      -- Whatever is in front of a call has begun before the call took effect.
      have behind : ∀ {entry later : ι × ρ}, s.Within entry.1 position →
          (∀ k, s.Within later.1 k → position < k) →
          entry.1 ≠ later.1 ∧ ¬ Precedes history later.1 entry.1 := by
        intro entry later within after
        refine ⟨fun same => lt_irrefl _ (after position (same ▸ within)), fun precedes => ?_⟩
        obtain ⟨since, began, le⟩ := faithful.since_of_within within
        have := after since (faithful.realTime _ _ since precedes began)
        omega
      have updateAfter : ∀ {later : ι × ρ}, later ∈ s.updateAt object position →
          ∀ k, s.Within later.1 k → position < k :=
        fun update k within => faithful.lt_of_within (mem_updateAt.mp update).1 within
      have readAfter : ∀ {later : ι × ρ}, later ∈ s.readsAt (position + 1) →
          ∀ k, s.Within later.1 k → position < k := by
        intro later block k within
        obtain ⟨read, inside, exact, rfl⟩ := mem_readsAt.mp block
        have := faithful.le_of_within inside within
        omega
      rw [order, List.pairwise_append, List.pairwise_append]
      refine ⟨ih, ⟨?_, faithful.pairwise_readsAt _, ?_⟩, ?_⟩
      · unfold updateAt
        cases s.log[position]? <;> simp
      · intro entry update later block
        obtain ⟨since, began, le⟩ :=
          faithful.appended position entry.1 (mem_updateAt.mp update).1
        obtain ⟨read, inside, exact, rfl⟩ := mem_readsAt.mp block
        refine ⟨fun same => ?_, fun precedes => ?_⟩
        · refine faithful.updates entry.1 (List.mem_of_getElem? (mem_updateAt.mp update).1) ?_
          rw [same]
          exact (faithful.correct read inside).1
        · have := faithful.le_of_within inside (faithful.realTime _ _ since precedes began)
          omega
      · intro entry earlier later here
        have within := Within.of_mem_order earlier
        rcases List.mem_append.mp here with update | read
        · exact behind within (updateAfter update)
        · exact behind within (readAfter read)

/-- The order is a run of the object that ends after the prefix. -/
theorem legal_order {position : Nat} (bound : position ≤ s.log.length) :
    object.Legal object.start (s.order object position) ∧
      object.run object.start ((s.order object position).map Prod.fst) =
        s.state object position := by
  have reads : ∀ k, ∀ entry ∈ s.readsAt k, object.Reads entry.1 ∧
      entry.2 = object.response (s.state object k) entry.1 := by
    intro k entry block
    obtain ⟨read, inside, rfl, rfl⟩ := mem_readsAt.mp block
    exact faithful.correct read inside
  induction position with
  | zero => exact SeqObject.legal_reads (reads 0)
  | succ position ih =>
      obtain ⟨legal, reached⟩ := ih (by omega)
      have found := List.getElem?_eq_getElem (show position < s.log.length by omega)
      generalize s.log[position] = call at found
      have updates := faithful.updates call (List.mem_of_getElem? found)
      have next : object.update (s.state object position) call =
          s.state object (position + 1) := by
        unfold state
        rw [List.take_add_one, found, SeqObject.run_append]
        rfl
      have block : s.updateAt object position = [(call, object.response object.start call)] := by
        rw [updateAt, found]
        rfl
      obtain ⟨legalReads, unchanged⟩ := SeqObject.legal_reads (reads (position + 1))
      rw [order, block, List.singleton_append, SeqObject.legal_append, List.map_append,
        SeqObject.run_append, reached]
      simp only [SeqObject.Legal, List.map_cons, SeqObject.run, List.foldl_cons, next]
      exact ⟨⟨legal, object.response_of_updates _ _ _ updates, legalReads⟩, unchanged⟩

theorem linearization : Linearization object history (s.order object s.log.length) where
  legal := (faithful.legal_order le_rfl).1
  once := List.pairwise_map.mpr ((faithful.pairwise_order _).imp And.left)
  begun := by
    intro entry member
    obtain ⟨since, began, _⟩ := faithful.since_of_within (Within.of_mem_order member)
    exact (faithful.begun _ since began).1
  complete := by
    intro call response returned
    rw [mem_order]
    rcases faithful.answered call response returned with ⟨member, same⟩ | ⟨read, member, rfl, rfl⟩
    · obtain ⟨k, found⟩ := List.mem_iff_getElem?.mp member
      exact Or.inl ⟨k, (List.getElem?_eq_some_iff.mp found).1, mem_updateAt.mpr ⟨found, same⟩⟩
    · exact Or.inr ⟨read.position, (faithful.window read member).1,
        mem_readsAt.mpr ⟨read, member, rfl, rfl⟩⟩
  realTime := (faithful.pairwise_order _).imp And.right

end Faithful

/-- Every history of a log object is linearizable. -/
theorem linearizable_of_run [DecidableEq ι] [DecidablePred object.Reads]
    (run : LogRun object history s) : Linearizable object history :=
  ⟨_, (faithful_of_run run).linearization⟩

end LogObject

end CppRaft.Session
