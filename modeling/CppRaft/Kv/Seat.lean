import CppRaft.Kv.Consistent
import CppRaft.Kv.InLine

/-!
# Where the program stands in the service

`Follows` relates a state of the program to a state of the service: the threads
of every server are handlers of the service, every loop stands at its position
in the log, and whatever is on its way to a server was proposed or made into a
snapshot before.
-/

namespace CppRaft.Kv

open CppRaft.Protocol
open CppRaft.RaftCore
open CppRaft.Store
open CppRaft.Transition

variable {κ : Type} {n : Nat} {archives : Archives}

/-! ## Handlers -/

/-- The stage of a handler as the service names it. -/
def HandlerStage.stage : HandlerStage → Stage
  | .starting => .starting
  | .refused => .replied { err := .errWrongLeader }
  | .creating raftIndex => .creating raftIndex
  | .serving raftIndex ch .waiting => .waiting raftIndex ch
  | .serving raftIndex _ .timedOut => .timedOut raftIndex
  | .serving raftIndex _ (.knowsState isLeader) => .knowsState raftIndex isLeader
  | .serving raftIndex _ .reading => .reading raftIndex
  | .serving raftIndex _ (.deleting reply) => .deleting raftIndex reply
  | .returned _ _ reply => .replied reply

theorem HandlerStage.stage_of_reply {stage : HandlerStage} {reply : Reply}
    (answers : stage.reply = some reply) : stage.stage = .replied reply := by
  cases stage with
  | refused | returned raftIndex ch reply' =>
      cases answers
      rfl
  | starting | creating raftIndex | serving raftIndex ch phase => cases answers

/-- A handler thread of server `i` that serves clerk `c`. -/
def HandlerThread.handler (thread : HandlerThread) (c : κ) (i : Fin n) : Handler κ n where
  command := { clerk := c, op := thread.op }
  server := i
  stage := thread.stage.stage

/-- The threads of the servers are the handlers, in the order in which they were
started. -/
structure Hosted (threads : Fin n → List HandlerThread) (started : List (Start κ n))
    (handlers : List (Handler κ n)) : Prop where
  length : handlers.length = started.length
  runs : ∀ {p : Nat} {start : Start κ n}, started[p]? = some start →
    ∃ thread : HandlerThread, (threads start.server)[start.handler]? = some thread ∧
      handlers[p]? = some (thread.handler start.clerk start.server)
  served : ∀ {i : Fin n} {h : Nat} {thread : HandlerThread}, (threads i)[h]? = some thread →
    ∃ (p : Nat) (c : κ), started[p]? = some ⟨i, h, c⟩
  once : ∀ {p p' : Nat} {start start' : Start κ n}, started[p]? = some start →
    started[p']? = some start' → start.server = start'.server → start.handler = start'.handler →
    p = p'

theorem hosted_start : Hosted (fun _ : Fin n => []) ([] : List (Start κ n)) [] where
  length := rfl
  runs := by simp
  served := by simp
  once := by simp

namespace Hosted

variable {threads : Fin n → List HandlerThread} {started : List (Start κ n)}
  {handlers : List (Handler κ n)}

/-- A clerk starts a handler of server `i`. -/
theorem call (hosted : Hosted threads started handlers) (i : Fin n) (c : κ)
    (thread : HandlerThread) :
    Hosted (Function.update threads i (threads i ++ [thread]))
      (started ++ [⟨i, (threads i).length, c⟩]) (handlers ++ [thread.handler c i]) where
  length := by rw [List.length_append, List.length_append, hosted.length]; rfl
  runs := by
    intro p start found
    rcases getElem?_concat_eq_some.mp found with old | ⟨rfl, rfl⟩
    · obtain ⟨before, running, same⟩ := hosted.runs old
      refine ⟨before, ?_, getElem?_append_of_eq_some same⟩
      by_cases own : start.server = i
      · rw [own] at running ⊢
        rw [Function.update_self]
        exact getElem?_append_of_eq_some running
      · rw [Function.update_of_ne own]
        exact running
    · refine ⟨thread, ?_, ?_⟩
      · rw [Function.update_self, List.getElem?_concat_length]
      · rw [← hosted.length, List.getElem?_concat_length]
  served := by
    intro j h thread' running
    by_cases own : j = i
    · subst own
      rw [Function.update_self] at running
      rcases getElem?_concat_eq_some.mp running with old | ⟨rfl, rfl⟩
      · obtain ⟨p, c', found⟩ := hosted.served old
        exact ⟨p, c', getElem?_append_of_eq_some found⟩
      · exact ⟨started.length, c, List.getElem?_concat_length⟩
    · rw [Function.update_of_ne own] at running
      obtain ⟨p, c', found⟩ := hosted.served running
      exact ⟨p, c', getElem?_append_of_eq_some found⟩
  once := by
    have fresh : ∀ {p : Nat} {start : Start κ n}, started[p]? = some start →
        start.server = i → start.handler ≠ (threads i).length := by
      intro p start found server same
      obtain ⟨old, running, _⟩ := hosted.runs found
      rw [server, same, List.getElem?_eq_none le_rfl] at running
      cases running
    intro p p' start start' found found' server handler
    rcases getElem?_concat_eq_some.mp found with old | ⟨rfl, rfl⟩
    · rcases getElem?_concat_eq_some.mp found' with old' | ⟨rfl, rfl⟩
      · exact hosted.once old old' server handler
      · exact absurd handler (fresh old server)
    · rcases getElem?_concat_eq_some.mp found' with old' | ⟨rfl, rfl⟩
      · exact absurd handler.symm (fresh old' server.symm)
      · rfl

/-- A handler of server `i` moves to a stage. -/
theorem set (hosted : Hosted threads started handlers) {i : Fin n} {h p : Nat} {c : κ}
    {thread : HandlerThread} (running : (threads i)[h]? = some thread)
    (found : started[p]? = some ⟨i, h, c⟩) (stage : HandlerStage) :
    Hosted (Function.update threads i ((threads i).set h { thread with stage := stage }))
      started (handlers.set p { thread.handler c i with stage := stage.stage }) where
  length := by rw [List.length_set, hosted.length]
  runs := by
    intro p' start found'
    by_cases here : p = p'
    · subst here
      rw [found, Option.some.injEq] at found'
      subst found'
      refine ⟨{ thread with stage := stage }, ?_, ?_⟩
      · rw [Function.update_self,
          List.getElem?_set_self (List.getElem?_eq_some_iff.mp running).1]
      · have inside := (List.getElem?_eq_some_iff.mp found).1
        rw [← hosted.length] at inside
        rw [List.getElem?_set_self inside]
        rfl
    · obtain ⟨old, running', same⟩ := hosted.runs found'
      refine ⟨old, ?_, by rw [List.getElem?_set_ne here, same]⟩
      by_cases own : start.server = i
      · have other : h ≠ start.handler := fun same =>
          here (hosted.once found found' own.symm same)
        rw [own] at running' ⊢
        rw [Function.update_self, List.getElem?_set_ne other, running']
      · rw [Function.update_of_ne own]
        exact running'
  served := by
    intro j h' thread' running'
    by_cases own : j = i
    · subst own
      rw [Function.update_self] at running'
      have inside := (List.getElem?_eq_some_iff.mp running').1
      rw [List.length_set] at inside
      exact hosted.served (List.getElem?_eq_getElem inside)
    · rw [Function.update_of_ne own] at running'
      exact hosted.served running'
  once := hosted.once

end Hosted

/-! ## Messages -/

/-- A command that a handler has proposed. -/
def Proposed (archives : Archives) (proposals : List (Command κ)) (bytes : Bytes) : Prop :=
  ∃ command ∈ proposals, archives.readOp bytes = some command.op

/-- A snapshot that a server has made. -/
def Made (snapshots : List (Nat × Bytes)) (index : Int) (data : Bytes) : Prop :=
  0 ≤ index ∧ (index.toNat, data) ∈ snapshots

/-- A message carries a proposed command that was committed at its index, or a
snapshot that a server has made. -/
inductive Carried (archives : Archives) (v : Service κ n) (events : List (Event n))
    (message : ApplyMsg) : Prop
  | command {i : Fin n} : message.commandValid = true → .emitted i message ∈ events →
      Proposed archives v.proposals message.command → Carried archives v events message
  | snapshot : message.commandValid = false →
      Made v.snapshots message.snapshotIndex message.snapshot → Carried archives v events message

/-- Every command of the log was committed at its index. -/
def LogFrom (archives : Archives) (events : List (Event n)) (log : List (Command κ)) : Prop :=
  ∀ (k : Nat) (command : Command κ), log[k]? = some command →
    ∃ (i : Fin n) (msg : ApplyMsg), .emitted i msg ∈ events ∧ msg.commandIndex = (k : Int) + 1 ∧
      archives.readOp msg.command = some command.op

/-- What the service has proposed and made stays. -/
structure Grows (v v' : Service κ n) : Prop where
  proposals : v.proposals ⊆ v'.proposals
  snapshots : v.snapshots ⊆ v'.snapshots

theorem Grows.refl (v : Service κ n) : Grows v v :=
  ⟨fun _ => id, fun _ => id⟩

section Mono

variable {v v' : Service κ n} {events more : List (Event n)}

theorem Proposed.mono (grows : Grows v v') {bytes : Bytes}
    (proposed : Proposed archives v.proposals bytes) :
    Proposed archives v'.proposals bytes := by
  obtain ⟨command, member, read⟩ := proposed
  exact ⟨command, grows.proposals member, read⟩

theorem Made.mono (grows : Grows v v') {index : Int} {data : Bytes}
    (made : Made v.snapshots index data) : Made v'.snapshots index data :=
  ⟨made.1, grows.snapshots made.2⟩

theorem Carried.mono (grows : Grows v v') (more : List (Event n)) {message : ApplyMsg}
    (carried : Carried archives v events message) :
    Carried archives v' (events ++ more) message := by
  cases carried with
  | command valid emitted proposed =>
      exact .command valid (List.mem_append_left _ emitted) (proposed.mono grows)
  | snapshot invalid made => exact .snapshot invalid (made.mono grows)

theorem LogFrom.mono {log : List (Command κ)} (committed : LogFrom archives events log)
    (more : List (Event n)) : LogFrom archives (events ++ more) log := by
  intro k command found
  obtain ⟨i, msg, emitted, rest⟩ := committed k command found
  exact ⟨i, msg, List.mem_append_left _ emitted, rest⟩

end Mono

/-! ## Loops -/

/-- The message that a turn handles. -/
def Turn.message : Turn → Option ApplyMsg
  | .reading => none
  | .popped message _ | .checked message _ _ | .executed message _ | .oversized message _
  | .compacting message _ _ | .sending message _ | .commanded message => some message

/-- The service has consumed all commands up to a position but the last `ahead`
ones. -/
structure Level (pos : Position) (server : Server) (ahead : Int) : Prop where
  reached : (server.position : Int) + ahead = pos.reached
  snapshot : server.kv.lastSnapShotRaftLogIndex = pos.snapshot

/-- The loop of a server stands where its turn says. -/
inductive LoopAt (snapshots : List (Nat × Bytes)) (pos : Position) (server : Server) : Turn → Prop
  | reading : server.applyLoop = .popping → Level pos server 0 →
      LoopAt snapshots pos server .reading
  | command {message : ApplyMsg} : message.snapshotValid = false → server.applyLoop = .popping →
      Level pos server 0 → LoopAt snapshots pos server (.commanded message)
  | snapshot {message : ApplyMsg} : message.snapshotValid = true →
      server.applyLoop = .popping → (server.position : Int) ≤ message.snapshotIndex →
      Made snapshots message.snapshotIndex message.snapshot →
      pos = ⟨message.snapshotIndex, message.snapshotIndex⟩ →
      LoopAt snapshots pos server (.commanded message)
  | popped {message : ApplyMsg} {op : Op} : message.snapshotValid = false →
      server.applyLoop = .popped op message.commandIndex → Level pos server 1 →
      LoopAt snapshots pos server (.popped message op)
  | checked {message : ApplyMsg} {op : Op} {duplicate : Bool} : message.snapshotValid = false →
      server.applyLoop = .checked op message.commandIndex duplicate → Level pos server 1 →
      LoopAt snapshots pos server (.checked message op duplicate)
  | executed {message : ApplyMsg} {op : Op} : message.snapshotValid = false →
      server.applyLoop = .executed op message.commandIndex → Level pos server 0 →
      LoopAt snapshots pos server (.executed message op)
  | oversized {message : ApplyMsg} {op : Op} : message.snapshotValid = false →
      server.applyLoop = .executed op message.commandIndex → Level pos server 0 →
      server.kv.maxRaftState ≠ -1 → LoopAt snapshots pos server (.oversized message op)
  | compacting {message : ApplyMsg} {op : Op} {data : Bytes} : message.snapshotValid = false →
      server.applyLoop = .snapshotted op message.commandIndex → Level pos server 0 →
      Made snapshots message.commandIndex data →
      LoopAt snapshots pos server (.compacting message op data)
  | sending {message : ApplyMsg} {op : Op} : message.snapshotValid = false →
      server.applyLoop = .executed op message.commandIndex ∨
        server.applyLoop = .snapshotted op message.commandIndex → Level pos server 0 →
      LoopAt snapshots pos server (.sending message op)

theorem LoopAt.mono {snapshots snapshots' : List (Nat × Bytes)} (more : snapshots ⊆ snapshots')
    {pos : Position} {server : Server} {turn : Turn} (stands : LoopAt snapshots pos server turn) :
    LoopAt snapshots' pos server turn := by
  cases stands with
  | reading popping level => exact .reading popping level
  | command plain popping level => exact .command plain popping level
  | snapshot valid popping later made here =>
      exact .snapshot valid popping later ⟨made.1, more made.2⟩ here
  | popped plain loop level => exact .popped plain loop level
  | checked plain loop level => exact .checked plain loop level
  | executed plain loop level => exact .executed plain loop level
  | oversized plain loop level limited => exact .oversized plain loop level limited
  | compacting plain loop level made => exact .compacting plain loop level ⟨made.1, more made.2⟩
  | sending plain loop level => exact .sending plain loop level

/-! ## Servers -/

/-- The messages that are on their way to the service or have arrived. -/
def Pipeline.messages (p : Pipeline n) : List ApplyMsg :=
  p.applyMsgs ++ p.pushThreads ++ p.applyChan

/-- A server of the program follows a server of the service. -/
structure Seat (archives : Archives) (v : Service κ n) (events : List (Event n))
    (host : Host n) (rf : Raft n) (server : Server) : Prop where
  kv : server.kv = host.kv
  loop : ∃ pos, InLine host rf pos ∧ LoopAt v.snapshots pos server host.turn
  carried : ∀ message ∈ host.pipeline.messages, Carried archives v events message
  held : ∀ message ∈ host.turn.message, message ∈ host.pipeline.applyChan

theorem Seat.mono {v v' : Service κ n} {events : List (Event n)} {host : Host n} {rf : Raft n}
    {server : Server} (seat : Seat archives v events host rf server) (grows : Grows v v')
    (more : List (Event n)) : Seat archives v' (events ++ more) host rf server where
  kv := seat.kv
  loop := by
    obtain ⟨pos, inLine, stands⟩ := seat.loop
    exact ⟨pos, inLine, stands.mono grows.snapshots⟩
  carried := fun message member => (seat.carried message member).mono grows more
  held := seat.held

/-! ## The relation -/

/-- The program follows the service. -/
structure Follows (archives : Archives) (s : System κ n) (events : List (Event n))
    (v : Service κ n) : Prop where
  clerks : v.clerks = s.clerks
  plain : ∀ c op, (s.clerks c).outstanding = some op → op.operation = .get → op.value = []
  hosted : Hosted (fun i => (s.hosts i).handlers) s.started v.handlers
  commands : s.cluster.CommandsFrom (Proposed archives v.proposals)
  snapshots : s.cluster.SnapshotsFrom (Made v.snapshots)
  log : LogFrom archives events v.log
  seat : ∀ i, Seat archives v events (s.hosts i) (s.cluster.nodes i) (v.servers i)

theorem follows_start (clientId : κ → Bytes) (maxRaftState : Int) :
    Follows archives (System.start n clientId maxRaftState) [] (.start clientId maxRaftState) where
  clerks := rfl
  plain := by simp [System.start]
  hosted := hosted_start
  commands := Cluster.commandsFrom_start n _
  snapshots := Cluster.snapshotsFrom_start n _
  log := by simp [LogFrom, Service.start]
  seat := fun i =>
    { kv := rfl
      loop := ⟨⟨0, 0⟩, inLine_start i maxRaftState, .reading rfl ⟨rfl, rfl⟩⟩
      carried := by simp [System.start, Host.start, Pipeline.start, Pipeline.messages]
      held := by simp [System.start, Host.start, Turn.message] }

/-- One server takes a step. -/
theorem Follows.setHost {s : System κ n} {events : List (Event n)} {v v' : Service κ n}
    (follows : Follows archives s events v) {i : Fin n} {host : Host n} {server : Server}
    (grows : Grows v v') (clerks : v'.clerks = v.clerks)
    (hosted : Hosted (Function.update (fun j => (s.hosts j).handlers) i host.handlers) s.started
      v'.handlers)
    (commands : (s.cluster.setNode i host.rf).CommandsFrom (Proposed archives v'.proposals))
    (snapshots : (s.cluster.setNode i host.rf).SnapshotsFrom (Made v'.snapshots))
    (log : LogFrom archives events v'.log)
    (servers : v'.servers = Function.update v.servers i server)
    (seat : Seat archives v' events host host.rf server) :
    Follows archives (s.setHost i host) events v' where
  clerks := clerks.trans follows.clerks
  plain := follows.plain
  hosted := by
    have threads : (fun j => ((s.setHost i host).hosts j).handlers) =
        Function.update (fun j => (s.hosts j).handlers) i host.handlers := by
      funext j
      by_cases here : j = i
      · subst here
        simp only [System.setHost, Function.update_self]
      · simp only [System.setHost, Function.update_of_ne here]
    rw [threads]
    exact hosted
  commands := commands
  snapshots := snapshots
  log := log
  seat := by
    intro j
    rw [servers]
    by_cases here : j = i
    · subst here
      simp only [System.setHost, Cluster.setNode_nodes_self, Function.update_self]
      exact seat
    · simp only [System.setHost, s.cluster.setNode_nodes_ne host.rf here,
        Function.update_of_ne here]
      have kept := (follows.seat j).mono grows []
      rwa [List.append_nil] at kept

/-- Clerks begin and end their requests. -/
theorem Follows.setClerks {s : System κ n} {events : List (Event n)} {v : Service κ n}
    (follows : Follows archives s events v) (clerks : κ → Clerk)
    (plain : ∀ c op, (clerks c).outstanding = some op → op.operation = .get → op.value = []) :
    Follows archives { s with clerks := clerks } events { v with clerks := clerks } where
  clerks := rfl
  plain := plain
  hosted := follows.hosted
  commands := follows.commands
  snapshots := follows.snapshots
  log := follows.log
  seat := by
    intro i
    have grows : Grows v { v with clerks := clerks } := ⟨fun _ => id, fun _ => id⟩
    have kept := (follows.seat i).mono grows []
    rwa [List.append_nil] at kept

end CppRaft.Kv
