import CppRaft.Kv.ApplyOrder
import CppRaft.Kv.AtMostOnce

/-!
# Agreement of replicas over two runs

In runs in which reads do not move marks back, the database of a server is the
replay of the commands that it has consumed, one by one or within snapshots.
Two servers that have consumed the same commands then hold the same database,
however their handlers were scheduled.
-/

namespace CppRaft.Kv

open CppRaft.Session
open CppRaft.Store
open CppRaft.Transition

variable {κ : Type} {m : Nat} {archives : Archives}

/-- The commands that a server has consumed. -/
def Service.consumed (s : Service κ m) (i : Fin m) : List Op :=
  (s.log.take (s.servers i).position).map Command.op

/-- The database of a server is a function of the consumed commands. -/
theorem kvDB_of_run [DecidableEq κ] {clientId : κ → Bytes} {maxRaftState : Int}
    (distinct : Function.Injective clientId) {events : List (ServiceEvent κ m)} {s : Service κ m}
    (run : ServiceRun archives clientId maxRaftState ReadsForward events s) (i : Fin m) :
    (s.servers i).kv.data.kvDB = (KvData.replay (s.consumed i)).kvDB := by
  have guarded := ownId_of_run distinct run
  have inv := (consistent_start clientId maxRaftState).run (fun _ _ both => both.2)
    (fun _ _ both => both.1) guarded
  exact (inv.server i).replica.kvDB

/-- Two servers, of two runs or of one, agree after the same commands. -/
theorem replicas_agree {κ κ' : Type} [DecidableEq κ] [DecidableEq κ'] {m m' : Nat}
    {archives : Archives} {clientId : κ → Bytes} {clientId' : κ' → Bytes}
    {maxRaftState maxRaftState' : Int} (distinct : Function.Injective clientId)
    (distinct' : Function.Injective clientId')
    {events : List (ServiceEvent κ m)} {s : Service κ m}
    (run : ServiceRun archives clientId maxRaftState ReadsForward events s)
    {events' : List (ServiceEvent κ' m')} {s' : Service κ' m'}
    (run' : ServiceRun archives clientId' maxRaftState' ReadsForward events' s')
    (i : Fin m) (i' : Fin m') (same : s.consumed i = s'.consumed i') :
    (s.servers i).kv.data.kvDB = (s'.servers i').kv.data.kvDB := by
  rw [kvDB_of_run distinct run, kvDB_of_run distinct' run', same]

/-- Server 0 executes both Puts, server 1 installs its snapshot of the first one
and executes the second. -/
theorem replicas_agree_snapshot :
    ∃ (events : List (ServiceEvent Unit 2)) (s : Service Unit 2),
      ServiceRun twoPutsArchives (fun _ : Unit => text "c") 500 ReadsForward events s ∧
      (s.consumed 0).length = 2 ∧ s.consumed 0 = s.consumed 1 ∧
      (s.servers 0).kv.data.kvDB = (s.servers 1).kv.data.kvDB := by
  obtain ⟨events, s, run, checked⟩ := exists_run_of_exec (Service.step twoPutsArchives)
    ReadsForward (Service.start (fun _ : Unit => text "c") 500 : Service Unit 2)
    (List.flatten
      [[.request () .put (text "a") (text "1"), .call () 0, .startConses 0 (some 1),
          .createWaitCh 0, .commit 0, .pop 0, .checkDuplicate 0, .execute 0,
          .makeSnapShot 0 (text ("22 serialization::archive 19 0 0 0 0 1 13 0 0 0 1 a 1 1 " ++
            "0 0 1 13 0 0 0 1 c 1")),
          .sendMessage 0, .getSnapShotFromRaft 1 0, .timeOutPop 0 false, .deleteWaitCh 0,
          .takeReply 0, .request () .put (text "b") (text "2"), .call () 0,
          .startConses 1 (some 2), .commit 1],
        consume 0, consume 1])
    (fun result => decide ((result.1.consumed 0).length = 2 ∧
      result.1.consumed 0 = result.1.consumed 1))
    (by decide +kernel)
  obtain ⟨length, same⟩ := of_decide_eq_true checked
  exact ⟨events, s, run, length, same,
    replicas_agree (fun _ _ _ => rfl) (fun _ _ _ => rfl) run run 0 1 same⟩

/-- After the late read on server 0 the two servers hold different values. -/
theorem not_replicas_agree :
    ¬ ∀ (events events' : List (ServiceEvent Unit 2)) (s s' : Service Unit 2),
      ServiceRun noArchives (fun _ : Unit => text "c") (-1) anyStep events s →
      ServiceRun noArchives (fun _ : Unit => text "c") (-1) anyStep events' s' →
      ∀ i i' : Fin 2, s.consumed i = s'.consumed i' →
        (s.servers i).kv.data.kvDB = (s'.servers i').kv.data.kvDB := by
  obtain ⟨events, s, run, checked⟩ := exists_run_of_exec (Service.step noArchives) anyStep
    (Service.start (fun _ : Unit => text "c") (-1)) lateRead
    (fun result => decide (result.1.consumed 0 = result.1.consumed 1 ∧
      (result.1.servers 0).kv.data.kvDB ≠ (result.1.servers 1).kv.data.kvDB))
    (by decide +kernel)
  obtain ⟨same, apart⟩ := of_decide_eq_true checked
  intro claim
  exact apart (claim events events s s run run 0 1 same)

end CppRaft.Kv
