import CppRaft.Kv.SystemRuns

/-!
# One order of the writes

All servers of the program execute the same Puts and Appends in the same order,
each of them once.  A server may lag behind, but it never goes back, and no
write is lost once its call has returned.
-/

namespace CppRaft.Kv

open CppRaft.Protocol
open CppRaft.Session
open CppRaft.Store
open CppRaft.Transition

variable {κ : Type} {n : Nat} {archives : Archives}

/-- The order in which the Puts and Appends of a history take effect, with the
number of those that each server has executed. -/
structure WriteOrder (history : List (CallEvent (Command κ) Bytes)) (s : System κ n)
    (writes : List (Command κ)) (executed : Fin n → Nat) : Prop where
  once : writes.Nodup
  begun : ∀ command ∈ writes, command.op.Writes ∧ .begun command ∈ history
  complete : ∀ command response, .returned command response ∈ history → command.op.Writes →
    command ∈ writes
  realTime : ∀ first second k, Precedes history first second → first.op.Writes →
    writes[k]? = some second → first ∈ writes.take k
  bound : ∀ i, executed i ≤ writes.length
  values : ∀ i, (s.hosts i).kv.data.values =
    (sharedMap κ).run (sharedMap κ).start (writes.take (executed i))

variable [DecidableEq κ]

/-- The number of writes that a server of the service has executed. -/
def Service.executed (v : Service κ n) (i : Fin n) : Nat :=
  (effective (v.log.take (v.servers i).position)).length

theorem Service.take_executed (v : Service κ n) (i : Fin n) :
    (effective v.log).take (v.executed i) = effective (v.log.take (v.servers i).position) :=
  (List.prefix_iff_eq_take.mp (effective_take_isPrefix _ _)).symm

theorem effective_mono {log log' : List (Command κ)} (grown : log <+: log') :
    effective log <+: effective log' := by
  rw [List.prefix_iff_eq_take.mp grown]
  exact effective_take_isPrefix _ _

/-- Servers and log only move forward. -/
theorem executed_mono {v v' : Service κ n} {history : List (CallEvent (Command κ) Bytes)}
    {guard : Service κ n → ServiceAction κ n → Prop}
    (run : Run (Service.callStep archives) guard v history v') :
    effective v.log <+: effective v'.log ∧ ∀ i, v.executed i ≤ v'.executed i := by
  obtain ⟨events, served⟩ := exists_serviceRun run
  clear run
  refine ⟨effective_mono (log_of_run served), fun i => ?_⟩
  have grown : v.log.take (v.servers i).position <+: v'.log.take (v'.servers i).position := by
    induction served with
    | nil => exact List.prefix_rfl
    | snoc _ _ taken ih =>
        have effect := Service.step_effect taken
        exact ih.trans (effect.take_prefix i)
  exact (effective_mono grown).length_le

/-- A program that follows a service takes over the order of its log. -/
theorem Follows.writeOrder {s : System κ n} {events : List (Event n)} {v : Service κ n}
    (follows : Follows archives s events v) {clientId : κ → Bytes} {maxRaftState : Int}
    (distinct : Function.Injective clientId) {history : List (CallEvent (Command κ) Bytes)}
    (calls : CallRun archives clientId maxRaftState ReadsForward history v) :
    WriteOrder history s (effective v.log) v.executed := by
  have inv := consistent_of_callRun distinct calls
  obtain ⟨a, served, impl⟩ := exists_logRun distinct calls
  have faithful := LogObject.faithful_of_run served
  have log := impl.log
  -- A write that has taken effect within a prefix is in the prefix.
  have within : ∀ {command : Command κ} {position : Nat}, command.op.Writes →
      a.Within command position → command ∈ a.log.take position := by
    rintro command position writes (⟨k, less, found⟩ | ⟨read, member, same, -⟩)
    · rw [List.mem_iff_getElem?]
      exact ⟨k, by rw [List.getElem?_take_of_lt less, found]⟩
    · exact absurd (same ▸ (faithful.correct read member).1) writes
  rw [← log]
  constructor
  · exact faithful.distinct
  · intro command member
    obtain ⟨k, found⟩ := List.mem_iff_getElem?.mp member
    obtain ⟨since, began, _⟩ := faithful.appended k command found
    exact ⟨faithful.updates command member, (faithful.begun command since began).1⟩
  · intro command response returned writes
    have member := within writes (faithful.within returned)
    rwa [List.take_length] at member
  · intro first second k precedes writes found
    obtain ⟨since, began, le⟩ := faithful.appended k second found
    exact within writes ((faithful.realTime first second since precedes began).mono le)
  · intro i
    rw [log]
    exact (effective_take_isPrefix _ _).length_le
  · intro i
    rw [log, v.take_executed, ← values_replay (inv.inOrder.take _), ← (follows.seat i).kv]
    unfold KvData.values
    rw [(inv.server i).replica.kvDB]

end CppRaft.Kv
