import CppRaft.Kv.Sections
import CppRaft.Kv.Tracked

/-!
# What one step does to a server and shows to an observer

A step leaves the maps of a server as they are, reads on behalf of a handler,
consumes the next command, or installs a snapshot.  It shows the execution of
a Put or Append when the apply loop consumes it, and the return of a call.
-/

namespace CppRaft.Kv

open CppRaft.Session
open CppRaft.Store
open CppRaft.Transition

variable {κ : Type} {m : Nat} {archives : Archives} {s t : Service κ m}
  {events : List (ServiceEvent κ m)} {action : ServiceAction κ m} {i : Fin m}

/-- How server `i` may look after a step that shows `events`. -/
inductive ServerEffect (archives : Archives) (s : Service κ m) (i : Fin m) (server : Server)
    (events : List (ServiceEvent κ m)) : ServiceAction κ m → Prop
  | keeps {action : ServiceAction κ m} (position : server.position = (s.servers i).position)
      (data : server.kv.data = (s.servers i).kv.data) :
      ServerEffect archives s i server events action
  | reads {h : Nat} {handler : Handler κ m} (found : s.handlers[h]? = some handler)
      (own : handler.server = i) (position : server.position = (s.servers i).position)
      (data : server.kv.data =
        ((s.servers i).kv.data.executeGetOpOnKVDB handler.command.op).1) :
      ServerEffect archives s i server events (.executeGet h)
  | skips (position : server.position = (s.servers i).position + 1)
      (data : server.kv.data = (s.servers i).kv.data)
      (covered : ((s.servers i).position : Int) + 1 ≤ (s.servers i).kv.lastSnapShotRaftLogIndex) :
      ServerEffect archives s i server events (.pop i)
  | consumes {op : Op} {commandIndex : Int} {duplicate : Bool} {command : Command κ}
      (checked : (s.servers i).applyLoop = .checked op commandIndex duplicate)
      (next : s.log[(s.servers i).position]? = some command)
      (position : server.position = (s.servers i).position + 1)
      (data : server.kv.data =
        if duplicate then (s.servers i).kv.data else (s.servers i).kv.data.executeCommand op)
      (shown : duplicate = false → op.Writes → .executed i command ∈ events) :
      ServerEffect archives s i server events (.execute i)
  | installs {snapshot index : Nat} {bytes : Bytes}
      (made : s.snapshots[snapshot]? = some (index, bytes))
      (position : server.position = index) (later : (s.servers i).position ≤ index)
      (data : bytes ≠ [] → archives.readKvData bytes = some server.kv.data) :
      ServerEffect archives s i server events (.getSnapShotFromRaft i snapshot)

/-- What a step may show. -/
inductive Emits (s t : Service κ m) : ServiceAction κ m → List (ServiceEvent κ m) → Prop
  | nothing {action : ServiceAction κ m} : Emits s t action []
  | execution {i : Fin m} {op : Op} {commandIndex : Int} {command : Command κ}
      (checked : (s.servers i).applyLoop = .checked op commandIndex false) (writes : op.Writes)
      (next : s.log[(s.servers i).position]? = some command)
      (position : (t.servers i).position = (s.servers i).position + 1) :
      Emits s t (.execute i) [.executed i command]
  | answer {h : Nat} {handler : Handler κ m} {reply : Reply}
      (found : s.handlers[h]? = some handler) (replied : handler.stage = .replied reply)
      (accepted : reply.err ≠ .errWrongLeader) :
      Emits s t (.takeReply h) [.returned handler.command]

/-- What a step does. -/
structure StepEffect (archives : Archives) (s : Service κ m) (action : ServiceAction κ m)
    (t : Service κ m) (events : List (ServiceEvent κ m)) : Prop where
  emits : Emits s t action events
  clientId : ∀ c, (t.clerks c).clientId = (s.clerks c).clientId
  log : s.log <+: t.log
  server : ∀ i, ServerEffect archives s i (t.servers i) events action

namespace ServerEffect

theorem refl : ServerEffect archives s i (s.servers i) events action :=
  .keeps rfl rfl

/-- A change of one server affects no other. -/
theorem setServer {j : Fin m} {server : Server}
    (effect : ServerEffect archives s j server events action) :
    ServerEffect archives s i ((s.setServer j server).servers i) events action := by
  by_cases same : i = j
  · subst same
    simpa only [Service.setServer, Function.update_self] using effect
  · simpa only [Service.setServer, Function.update_of_ne same] using refl

theorem position_le {server : Server} (effect : ServerEffect archives s i server events action) :
    (s.servers i).position ≤ server.position := by
  cases effect with
  | keeps position _ => exact position.ge
  | reads _ _ position _ => exact position.ge
  | skips position _ _ => omega
  | consumes _ _ position _ _ => omega
  | installs _ position later _ => exact later.trans_eq position.symm

end ServerEffect

/-- A step that only concerns clerks, handlers and the log. -/
theorem StepEffect.ofServers (emits : Emits s t action events)
    (clientId : ∀ c, (t.clerks c).clientId = (s.clerks c).clientId) (log : s.log <+: t.log)
    (servers : t.servers = s.servers) : StepEffect archives s action t events where
  emits := emits
  clientId := clientId
  log := log
  server := fun _ => servers ▸ .refl

/-- A step that changes server `j`. -/
theorem StepEffect.ofServer {j : Fin m} {server : Server}
    (servers : t.servers = (s.setServer j server).servers) (clerks : t.clerks = s.clerks)
    (log : t.log = s.log) (emits : Emits s t action events)
    (effect : ServerEffect archives s j server events action) :
    StepEffect archives s action t events where
  emits := emits
  clientId := by simp [clerks]
  log := log ▸ List.prefix_rfl
  server := by
    rw [servers]
    exact fun i => effect.setServer

/-! ## Sections -/

/-- A handler shows nothing, and changes the maps of its server only when it
reads. -/
theorem HandlerSection.effect {h : Nat} {handler : Handler κ m}
    (ran : HandlerSection s h handler action t) (found : s.handlers[h]? = some handler) :
    StepEffect archives s action t [] := by
  cases ran with
  | refuse | propose | timeOut | getState | acknowledge | retry =>
      exact .ofServers .nothing (fun _ => rfl) List.prefix_rfl rfl
  | createWaitCh =>
      exact .ofServer rfl rfl rfl .nothing (.keeps rfl (KvServer.createWaitCh_data _ _))
  | pop | deleteWaitCh => exact .ofServer rfl rfl rfl .nothing (.keeps rfl rfl)
  | executeGet => exact .ofServer rfl rfl rfl .nothing (.reads found rfl rfl rfl)

theorem LoopSection.effect {j : Fin m} (ran : LoopSection archives s j action t events) :
    StepEffect archives s action t events := by
  cases ran with
  | skip popping next covered => exact .ofServer rfl rfl rfl .nothing (.skips rfl rfl covered)
  | pop | checkDuplicate | makeSnapShot => exact .ofServer rfl rfl rfl .nothing (.keeps rfl rfl)
  | @execute op commandIndex duplicate command checked next =>
      refine .ofServer rfl rfl rfl ?_ (.consumes checked next rfl rfl fun distinct writes => by
        simp [distinct, writes])
      by_cases executes : (!duplicate && decide op.Writes) = true
      · rw [if_pos executes]
        simp only [Bool.and_eq_true, Bool.not_eq_true', decide_eq_true_eq] at executes
        obtain ⟨rfl, writes⟩ := executes
        apply Emits.execution checked writes next
        simp [Service.setServer]
      · rw [if_neg executes]
        exact .nothing
  | sendMessage =>
      exact .ofServer rfl rfl rfl .nothing (.keeps rfl (KvServer.sendMessageToWaitChan_data _ _ _))
  | install popping made later installed =>
      refine .ofServer rfl rfl rfl .nothing (.installs made rfl later fun nonempty => ?_)
      rw [KvServer.readSnapShotToInstall, if_neg nonempty, Option.map_eq_some_iff] at installed
      obtain ⟨data, read, rfl⟩ := installed
      exact read

/-- The apply loop leaves clerks and handlers alone. -/
theorem LoopSection.handlers (ran : LoopSection archives s i action t events) :
    t.clerks = s.clerks ∧ t.handlers = s.handlers := by
  cases ran <;> exact ⟨rfl, rfl⟩

/-- What a step does. -/
theorem Service.step_effect [DecidableEq κ] (taken : s.step archives action = some (t, events)) :
    StepEffect archives s action t events := by
  cases step_section taken with
  | @request c operation key value idle =>
      refine .ofServers .nothing (fun c' => ?_) List.prefix_rfl rfl
      by_cases same : c' = c
      · subst same
        simp [Clerk.begin]
      · simp [Function.update_of_ne same]
  | call sent => exact .ofServers .nothing (fun _ => rfl) List.prefix_rfl rfl
  | @takeReply h handler reply found replied accepted sent =>
      refine .ofServers (.answer found replied accepted) (fun c => ?_) List.prefix_rfl rfl
      by_cases same : c = handler.command.clerk
      · subst same
        simp
      · simp [Function.update_of_ne same]
  | commit proposed => exact .ofServers .nothing (fun _ => rfl) (List.prefix_append _ _) rfl
  | handler found ran => exact ran.effect found
  | server ran => exact ran.effect

/-! ## Runs -/

variable [DecidableEq κ] {guard : Service κ m → ServiceAction κ m → Prop}

theorem clientId_of_run (run : Run (Service.step archives) guard s events t) (c : κ) :
    (t.clerks c).clientId = (s.clerks c).clientId := by
  induction run with
  | nil => rfl
  | snoc _ _ taken ih => exact ((Service.step_effect taken).clientId c).trans ih

theorem log_of_run (run : Run (Service.step archives) guard s events t) : s.log <+: t.log := by
  induction run with
  | nil => exact List.prefix_rfl
  | snoc _ _ taken ih => exact ih.trans (Service.step_effect taken).log

/-- Clerks with distinct ids keep their ids apart in every run. -/
theorem ownId_of_run (distinct : Function.Injective fun c => (s.clerks c).clientId)
    (run : Run (Service.step archives) guard s events t) :
    Run (Service.step archives) (fun s action => guard s action ∧ OwnId s action) s events t := by
  induction run with
  | nil => exact .nil
  | @snoc _ state action _ _ before accepted taken ih =>
      apply ih.snoc _ taken
      constructor
      · exact accepted
      · intro c _ c' ids other
        rw [clientId_of_run before, clientId_of_run before] at ids
        exact absurd (distinct ids) other

end CppRaft.Kv
