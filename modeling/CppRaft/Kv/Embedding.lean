import CppRaft.Kv.HandlerSteps
import CppRaft.Protocol.Safety

/-!
# Every step of the program is one of the service

The service takes no step where the nodes work among themselves, and one step
for every section of a clerk, a handler or a loop.  A command is committed in
the service when the first loop pops it.
-/

namespace CppRaft.Kv

open CppRaft.Protocol
open CppRaft.RaftCore
open CppRaft.Session
open CppRaft.Store
open CppRaft.Transition

variable {κ : Type} {n : Nat} {archives : Archives}

theorem setNode_self (s : Cluster n) (i : Fin n) : s.setNode i (s.nodes i) = s := by
  simp [Cluster.setNode]

theorem LoopAt.congr {snapshots : List (Nat × Bytes)} {pos : Position} {server server' : Server}
    {turn : Turn} (stands : LoopAt snapshots pos server turn)
    (loop : server'.applyLoop = server.applyLoop) (position : server'.position = server.position)
    (lastSnapShot : server'.kv.lastSnapShotRaftLogIndex = server.kv.lastSnapShotRaftLogIndex)
    (limit : server'.kv.maxRaftState = server.kv.maxRaftState) :
    LoopAt snapshots pos server' turn := by
  have level : ∀ {ahead}, Level pos server ahead → Level pos server' ahead := by
    rintro ahead ⟨reached, snapshot⟩
    exact ⟨position ▸ reached, lastSnapShot.trans snapshot⟩
  cases stands with
  | reading popping here => exact .reading (loop.trans popping) (level here)
  | command plain popping here => exact .command plain (loop.trans popping) (level here)
  | snapshot valid popping later made here =>
      exact .snapshot valid (loop.trans popping) (position ▸ later) made here
  | popped plain same here => exact .popped plain (loop.trans same) (level here)
  | checked plain same here => exact .checked plain (loop.trans same) (level here)
  | executed plain same here => exact .executed plain (loop.trans same) (level here)
  | oversized plain same here limited =>
      exact .oversized plain (loop.trans same) (level here) (limit ▸ limited)
  | compacting plain same here made => exact .compacting plain (loop.trans same) (level here) made
  | sending plain same here =>
      exact .sending plain (same.imp loop.trans loop.trans) (level here)

variable {s s' : System κ n} {events : List (Event n)} {v v' : Service κ n}

/-- A section of the loop of server `i` that leaves the node alone. -/
theorem Follows.setLoop (follows : Follows archives s events v) {i : Fin n} {host : Host n}
    (server : Server) (same : host.rf = s.cluster.nodes i)
    (threads : host.handlers = (s.hosts i).handlers) (clerks : v'.clerks = v.clerks)
    (handlers : v'.handlers = v.handlers) (proposals : v'.proposals = v.proposals)
    (snapshots : v.snapshots ⊆ v'.snapshots) (log : LogFrom archives events v'.log)
    (servers : v'.servers = Function.update v.servers i server)
    (seat : Seat archives v' events host (s.cluster.nodes i) server) :
    Follows archives (s.setHost i host) events v' := by
  have grows : Grows v v' := ⟨proposals ▸ fun _ => id, snapshots⟩
  have hosted : Hosted (Function.update (fun j => (s.hosts j).handlers) i host.handlers)
      s.started v'.handlers := by
    rw [threads, handlers, Function.update_eq_self]
    exact follows.hosted
  rw [← same] at seat
  exact follows.setHost grows clerks hosted
    (by rw [same, setNode_self]; exact follows.commands.mono fun _ => Proposed.mono grows)
    (by rw [same, setNode_self]; exact follows.snapshots.mono fun _ _ => Made.mono grows)
    log servers seat

/-- A section that leaves the messages alone. -/
theorem Seat.turn {i : Fin n} {rf : Raft n} (seat : Seat archives v events (s.hosts i) rf
      (v.servers i)) (grows : Grows v v') {host : Host n} {server : Server} {pos : Position}
    (same : ∀ rf pos, host.outline rf pos = (s.hosts i).outline rf pos)
    (kv : server.kv = host.kv) (inLine : InLine (s.hosts i) rf pos)
    (stands : LoopAt v'.snapshots pos server host.turn)
    (held : ∀ message ∈ host.turn.message, (s.hosts i).turn.message = some message) :
    Seat archives v' events host rf server := by
  have pipeline := same rf pos
  have kept := seat.mono grows []
  rw [List.append_nil] at kept
  have messages : host.pipeline.messages = (s.hosts i).pipeline.messages := by
    change (host.outline rf pos).messages = ((s.hosts i).outline rf pos).messages
    rw [pipeline]
  have applyChan : host.pipeline.applyChan = (s.hosts i).pipeline.applyChan := by
    change (host.outline rf pos).applyChan = ((s.hosts i).outline rf pos).applyChan
    rw [pipeline]
  exact
    { kv := kv
      loop := ⟨pos, inLine.congr same, stands⟩
      carried := by
        rw [messages]
        exact kept.carried
      held := by
        intro message member
        rw [applyChan]
        exact seat.held message (held message member) }

variable [DecidableEq κ]

/-- The service follows a step of the program that shows `seen`. -/
def Embeds (archives : Archives) (s s' : System κ n) (events : List (Event n)) (v : Service κ n)
    (seen : List (CallEvent (Command κ) Bytes)) : Prop :=
  ∃ (v' : Service κ n) (more : List (Event n)),
    Run (Service.callStep archives) ReadsForward v seen v' ∧
      Run Cluster.step CutsConflicts s.cluster more s'.cluster ∧
      Follows archives s' (events ++ more) v'

/-- One step of the service. -/
theorem run_step {action : ServiceAction κ n} {shown : List (ServiceEvent κ n)}
    (forward : ReadsForward v action) (taken : v.step archives action = some (v', shown)) :
    Run (Service.callStep archives) ReadsForward v (v.observe action) v' := by
  have called : v.callStep archives action = some (v', v.observe action) := by
    unfold Service.callStep
    rw [taken]
    rfl
  exact Run.nil.snoc forward called

/-- The service takes a step and the nodes take none. -/
theorem embeds_quiet {i : Fin n} {host : Host n} (same : host.rf = s.cluster.nodes i)
    (run : Run (Service.callStep archives) ReadsForward v [] v')
    (follows : Follows archives (s.setHost i host) events v') :
    Embeds archives s (s.setHost i host) events v [] := by
  refine ⟨v', [], run, ?_, ?_⟩
  · have cluster : (s.setHost i host).cluster = s.cluster := by
      simp only [System.setHost, same, setNode_self]
    rw [cluster]
    exact .nil
  · rw [List.append_nil]
    exact follows

/-! ## Handlers -/

omit [DecidableEq κ] in
theorem HandlerMoves.grows {host host' : Host n} {h p : Nat} {thread : HandlerThread} {c : κ}
    {i : Fin n} {stage : HandlerStage} {more : List (Command κ)}
    (moves : HandlerMoves archives host host' h thread v v' p c i stage more) : Grows v v' := by
  constructor
  · rw [moves.proposals]
    exact List.subset_append_left _ _
  · rw [moves.snapshots]
    exact fun _ => id

omit [DecidableEq κ] in
/-- The loop stays where it is while a handler runs. -/
theorem HandlerMoves.seat {i : Fin n} {host : Host n} {h p : Nat} {thread : HandlerThread}
    {c : κ} {stage : HandlerStage} {more : List (Command κ)}
    (moves : HandlerMoves archives (s.host i) host h thread v v' p c i stage more)
    (seat : Seat archives v events (s.hosts i) (s.cluster.nodes i) (v.servers i))
    (applied : host.rf.lastApplied = (s.cluster.nodes i).lastApplied) :
    Seat archives v' events host host.rf { v.servers i with kv := host.kv } := by
  have kv : (v.servers i).kv = (s.host i).kv := seat.kv
  obtain ⟨pos, inLine, stands⟩ := seat.loop
  have kept := seat.mono moves.grows []
  rw [List.append_nil] at kept
  constructor
  · rfl
  · refine ⟨pos, (inLine.raft applied).congr ?_, ?_⟩
    · intro rf pos
      unfold Host.outline
      rw [moves.pipeline]
      rfl
    · rw [moves.turn, moves.snapshots]
      refine stands.congr rfl rfl ?_ ?_
      · rw [moves.lastSnapShot, kv]
      · rw [moves.limit, kv]
  · intro message member
    unfold Pipeline.messages at member
    rw [moves.pipeline] at member
    exact kept.carried message member
  · intro message member
    rw [moves.turn] at member
    rw [moves.pipeline]
    exact seat.held message member

/-- A section of a handler. -/
theorem Follows.handler (follows : Follows archives s events v)
    (run : ClusterRun CutsConflicts events s.cluster) {i : Fin n}
    (alive : s.cluster.exited i = none) {h : Nat} {thread : HandlerThread}
    (running : (s.hosts i).handlers[h]? = some thread) {action : HostAction n}
    (own : Host.handlerOf action = some h)
    (forward : action = .executeGet h → (s.hosts i).ReadsForward h) {host : Host n}
    {emitted : List HostEvent}
    (taken : (s.host i).handlerStep archives h thread action = some (host, emitted)) :
    Embeds archives s (s.setHost i host) events v [] := by
  obtain ⟨p, c, found⟩ := follows.hosted.served running
  obtain ⟨thread', running', handler⟩ := follows.hosted.runs found
  rw [running, Option.some.injEq] at running'
  subst running'
  have seat := follows.seat i
  have kv : (v.servers i).kv = (s.host i).kv := seat.kv
  obtain ⟨action', v', stage, more, forward', step, silent, moves⟩ :=
    handlerStep_moves own kv handler
      (fun reads last marked => forward reads thread running last marked) taken
  have steps := run_step forward' step
  rw [silent] at steps
  have grows := moves.grows
  have hosted : Hosted (Function.update (fun j => (s.hosts j).handlers) i host.handlers)
      s.started v'.handlers := by
    rw [moves.threads, moves.handlers]
    exact follows.hosted.set running found stage
  have log : LogFrom archives events v'.log := by
    rw [moves.log]
    exact follows.log
  rcases moves.node with ⟨same, rfl⟩ | ⟨command, given, read, rfl⟩
  · have same : host.rf = s.cluster.nodes i := same
    have follows' := follows.setHost grows moves.clerks hosted
      (by rw [same, setNode_self]; exact follows.commands.mono fun _ => Proposed.mono grows)
      (by rw [same, setNode_self]; exact follows.snapshots.mono fun _ _ => Made.mono grows)
      log moves.servers (moves.seat seat (congrArg Raft.lastApplied same))
    exact embeds_quiet same steps follows'
  · have given : host.rf = ((s.cluster.nodes i).startConses command).1 := given
    have started : s.cluster.step (.startConses i command) =
        some (s.cluster.setNode i host.rf, []) := by
      rw [given]
      simp only [Cluster.step, alive, if_true]
    have effect := Cluster.step_effect started
    have follows' := follows.setHost grows moves.clerks hosted
      ((follows.commands.mono fun _ => Proposed.mono grows).step (Cluster.bounded_of_run run)
        effect (by
          intro j command' same _
          cases same
          exact ⟨{ clerk := c, op := thread.op }, by rw [moves.proposals]; simp, read⟩))
      ((follows.snapshots.mono fun _ _ => Made.mono grows).step effect trivial
        (by
          intro j index data same
          cases same))
      log moves.servers (moves.seat seat (by
        rw [given]
        exact Raft.startConses_lastApplied _ _))
    have cuts : CutsConflicts s.cluster (.startConses i command) := trivial
    refine ⟨v', [], steps, Run.nil.snoc cuts started, ?_⟩
    rw [List.append_nil]
    exact follows'

/-! ## Loops -/

/-- The command that a loop pops next is in the log of the service, or one
commit away. -/
theorem Follows.exists_next (follows : Follows archives s events v) (inv : Consistent archives v)
    (agree : AppliesAgree events) {i j : Fin n} {message : ApplyMsg} {op : Op}
    (emitted : .emitted j message ∈ events)
    (proposed : Proposed archives v.proposals message.command)
    (read : archives.readOp message.command = some op)
    (next : message.commandIndex = ((v.servers i).position : Int) + 1) :
    ∃ (log : List (Command κ)) (command : Command κ),
      Run (Service.callStep archives) ReadsForward v [] { v with log := log } ∧
      log[(v.servers i).position]? = some command ∧ command.op = op ∧
      LogFrom archives events log := by
  have bound := (inv.server i).bound
  rcases Nat.lt_or_ge (v.servers i).position v.log.length with inside | atEnd
  · obtain ⟨k, msg, emitted', index, read'⟩ :=
      follows.log _ _ (List.getElem?_eq_getElem inside)
    have same := agree k j msg message emitted' emitted (index.trans next.symm)
    rw [same, read, Option.some.injEq] at read'
    exact ⟨v.log, _, .nil, List.getElem?_eq_getElem inside, read'.symm, follows.log⟩
  · have here : (v.servers i).position = v.log.length := by omega
    obtain ⟨command, member, read'⟩ := proposed
    obtain ⟨q, found⟩ := List.getElem?_of_mem member
    have same : command.op = op := by
      rw [read, Option.some.injEq] at read'
      exact read'.symm
    have step : v.step archives (.commit q) = some ({ v with log := v.log ++ [command] }, []) := by
      simp only [Service.step, found]
    have committed : ReadsForward v (.commit q) := trivial
    refine ⟨v.log ++ [command], command, run_step committed step, ?_, same, ?_⟩
    · rw [here, List.getElem?_concat_length]
    · intro k command' found'
      rcases getElem?_concat_eq_some.mp found' with old | ⟨rfl, rfl⟩
      · exact follows.log k command' old
      · exact ⟨j, message, emitted, by rw [next, here], read'⟩

/-- The host after a message has been popped, at turn `turn`. -/
def Host.afterPop (host : Host n) (turn : Turn) : Host n :=
  { host with
    pipeline := { host.pipeline with popped := host.pipeline.popped + 1 }
    turn := turn }

omit [DecidableEq κ] in
/-- The message that a loop pops leads from where the loop stands to another
position, at which it is seated again. -/
theorem Follows.exists_popped (follows : Follows archives s events v) {i : Fin n}
    (reading : (s.hosts i).turn = .reading) {message : ApplyMsg}
    (found : (s.hosts i).pipeline.applyChan[(s.hosts i).pipeline.popped]? = some message) :
    ∃ pos pos', pos.next message = some pos' ∧ (v.servers i).applyLoop = .popping ∧
      Level pos (v.servers i) 0 ∧
      ∀ {w : Service κ n} {server : Server} {turn : Turn}, Grows v w →
        server.kv = (s.hosts i).kv → LoopAt w.snapshots pos' server turn →
        (∀ other ∈ turn.message, other = message) →
        Seat archives w events ((s.host i).afterPop turn) (s.cluster.nodes i) server := by
  have seat := follows.seat i
  obtain ⟨pos, inLine, stands⟩ := seat.loop
  rw [reading] at stands
  cases stands with
  | reading popping level => ?_
  obtain ⟨pos', next, inLine'⟩ := inLine.pop found
  refine ⟨pos, pos', next, popping, level, ?_⟩
  intro w server turn grows kv stands held
  have kept := seat.mono grows []
  rw [List.append_nil] at kept
  exact
    { kv := kv
      loop := ⟨pos', inLine'.congr fun _ _ => rfl, stands⟩
      carried := kept.carried
      held := by
        intro other own
        rw [held other own]
        exact List.mem_of_getElem? found }

/-- The snapshot that is installed covers the command, which the loop skips. -/
theorem Follows.popCovered (follows : Follows archives s events v) {i : Fin n}
    (reading : (s.hosts i).turn = .reading) {message : ApplyMsg}
    (found : (s.hosts i).pipeline.applyChan[(s.hosts i).pipeline.popped]? = some message)
    (valid : message.commandValid = true) (plain : message.snapshotValid = false)
    (below : message.commandIndex ≤ (s.hosts i).kv.lastSnapShotRaftLogIndex) :
    Embeds archives s (s.setHost i ((s.host i).afterPop (.commanded message))) events v [] := by
  have kv := (follows.seat i).kv
  obtain ⟨pos, pos', next, popping, level, seated⟩ := follows.exists_popped reading found
  have covered : message.commandIndex ≤ pos.snapshot := by
    rw [← level.snapshot, kv]
    exact below
  simp only [Position.next, valid, if_true] at next
  rw [if_pos covered] at next
  cases next
  refine embeds_quiet rfl .nil (follows.setLoop (v.servers i) rfl rfl rfl rfl rfl
    (fun _ => id) follows.log (Function.update_eq_self _ _).symm ?_)
  refine seated (Grows.refl v) kv (.command plain popping level) ?_
  intro other own
  exact (Option.some.inj own).symm

/-- The loop pops the next command, which the service has committed by then. -/
theorem Follows.popCommand (follows : Follows archives s events v) (inv : Consistent archives v)
    (agree : AppliesAgree events) {i : Fin n} (reading : (s.hosts i).turn = .reading)
    {message : ApplyMsg}
    (found : (s.hosts i).pipeline.applyChan[(s.hosts i).pipeline.popped]? = some message)
    (valid : message.commandValid = true) (plain : message.snapshotValid = false) {op : Op}
    (read : archives.readOp message.command = some op)
    (above : ¬ message.commandIndex ≤ (s.hosts i).kv.lastSnapShotRaftLogIndex) :
    Embeds archives s (s.setHost i ((s.host i).afterPop (.popped message op))) events v [] := by
  have seat := follows.seat i
  obtain ⟨pos, pos', next, popping, level, seated⟩ := follows.exists_popped reading found
  have uncovered : ¬ message.commandIndex ≤ (v.servers i).kv.lastSnapShotRaftLogIndex := by
    rw [seat.kv]
    exact above
  simp only [Position.next, valid, if_true] at next
  rw [if_neg (level.snapshot ▸ uncovered)] at next
  split at next
  · rename_i following
    cases next
    have reached := level.reached
    have index : message.commandIndex = ((v.servers i).position : Int) + 1 := by omega
    cases seat.carried message (List.mem_append_right _ (List.mem_of_getElem? found)) with
    | snapshot invalid _ =>
        rw [invalid] at valid
        cases valid
    | @command j _ handed proposed =>
        obtain ⟨log, command, commits, here, same, logFrom⟩ :=
          follows.exists_next inv agree handed proposed read index
        subst same
        rw [index] at uncovered
        have step : ({ v with log := log } : Service κ n).step archives (.pop i) =
            some (({ v with log := log } : Service κ n).setServer i { v.servers i with
              applyLoop := .popped command.op message.commandIndex }, []) := by
          simp only [Service.step, Service.serverStep, popping, here, uncovered, if_false, index]
        have forward : ReadsForward ({ v with log := log } : Service κ n) (.pop i) := trivial
        refine embeds_quiet rfl (commits.append (run_step forward step)) (follows.setLoop
          { v.servers i with applyLoop := .popped command.op message.commandIndex }
          rfl rfl rfl rfl rfl (fun _ => id) logFrom rfl ?_)
        refine seated ⟨fun _ => id, fun _ => id⟩ seat.kv
          (.popped plain rfl ⟨index.symm, level.snapshot⟩) ?_
        intro other own
        exact (Option.some.inj own).symm
  · cases next

/-- The loop pops a snapshot, which it installs at the end of the turn. -/
theorem Follows.popSnapshot (follows : Follows archives s events v) {i : Fin n}
    (reading : (s.hosts i).turn = .reading) {message : ApplyMsg}
    (found : (s.hosts i).pipeline.applyChan[(s.hosts i).pipeline.popped]? = some message)
    (invalid : message.commandValid = false) (snapshotValid : message.snapshotValid = true) :
    Embeds archives s (s.setHost i ((s.host i).afterPop (.commanded message))) events v [] := by
  have seat := follows.seat i
  obtain ⟨pos, pos', next, popping, level, seated⟩ := follows.exists_popped reading found
  have reached := level.reached
  simp only [Position.next, invalid, Bool.false_eq_true, if_false] at next
  split at next
  · rename_i later
    cases next
    cases seat.carried message (List.mem_append_right _ (List.mem_of_getElem? found)) with
    | command valid =>
        rw [invalid] at valid
        cases valid
    | snapshot _ made =>
        refine embeds_quiet rfl .nil (follows.setLoop (v.servers i) rfl rfl rfl rfl rfl
          (fun _ => id) follows.log (Function.update_eq_self _ _).symm ?_)
        refine seated (Grows.refl v) seat.kv
          (.snapshot snapshotValid popping (by omega) made rfl) ?_
        intro other own
        exact (Option.some.inj own).symm
  · cases next

/-- The loop pops a message. -/
theorem Follows.pop (follows : Follows archives s events v) (inv : Consistent archives v)
    (agree : AppliesAgree events) {i : Fin n} (reading : (s.hosts i).turn = .reading)
    {message : ApplyMsg}
    (found : (s.hosts i).pipeline.applyChan[(s.hosts i).pipeline.popped]? = some message)
    {host : Host n} {emitted : List HostEvent}
    (taken : (s.host i).readMessage archives message = some (host, emitted)) :
    Embeds archives s (s.setHost i host) events v [] := by
  obtain ⟨pos, inLine, _⟩ := (follows.seat i).loop
  unfold Host.readMessage at taken
  dsimp only at taken
  rcases inLine.pushed (List.mem_of_getElem? found) with
    ⟨valid, plain, _⟩ | ⟨invalid, snapshotValid⟩
  · rw [if_pos valid] at taken
    split at taken
    · cases taken
    · rename_i op read
      split at taken
      · rename_i below
        cases taken
        exact follows.popCovered reading found valid plain below
      · rename_i above
        cases taken
        exact follows.popCommand inv agree reading found valid plain read above
  · rw [if_neg (by simp [invalid])] at taken
    cases taken
    exact follows.popSnapshot reading found invalid snapshotValid

/-- Installing a snapshot reads its bytes and index only. -/
theorem getSnapShotFromRaft_congr (kv : KvServer) {message message' : ApplyMsg}
    (data : message'.snapshot = message.snapshot)
    (index : message'.snapshotIndex = message.snapshotIndex) :
    kv.getSnapShotFromRaft archives message' = kv.getSnapShotFromRaft archives message := by
  simp only [KvServer.getSnapShotFromRaft, KvServer.condInstallSnapshot, if_true, data, index]

/-- The loop hands the snapshot of its message to the service. -/
theorem Follows.getSnapShot (follows : Follows archives s events v) {i : Fin n}
    {message : ApplyMsg} (commanded : (s.hosts i).turn = .commanded message)
    (valid : message.snapshotValid = true) {kv : KvServer}
    (installed : (s.hosts i).kv.getSnapShotFromRaft archives message = some kv) :
    Embeds archives s (s.setHost i { (s.host i).setKv kv with turn := .reading }) events v [] := by
  have seat := follows.seat i
  obtain ⟨pos, inLine, stands⟩ := seat.loop
  rw [commanded] at stands
  cases stands with
  | command plain =>
      rw [valid] at plain
      cases plain
  | snapshot _ popping later made here =>
      obtain ⟨nonneg, member⟩ := made
      obtain ⟨k, found⟩ := List.getElem?_of_mem member
      have below : (v.servers i).position ≤ message.snapshotIndex.toNat := by omega
      have same : (v.servers i).kv.getSnapShotFromRaft archives
          { snapshotValid := true
            snapshot := message.snapshot
            snapshotIndex := (message.snapshotIndex.toNat : Int) } = some kv := by
        rw [seat.kv, ← installed]
        exact getSnapShotFromRaft_congr _ rfl (Int.toNat_of_nonneg nonneg)
      let server : Server :=
        { kv := kv, position := message.snapshotIndex.toNat, applyLoop := .popping }
      have step : v.step archives (.getSnapShotFromRaft i k) =
          some (v.setServer i server, []) := by
        simp only [Service.step, Service.serverStep, popping, found, below, if_true, same,
          Option.map_some, server]
      have forward : ReadsForward v (.getSnapShotFromRaft i k) := trivial
      have lastSnapShot : kv.lastSnapShotRaftLogIndex = message.snapshotIndex := by
        simp only [KvServer.getSnapShotFromRaft, KvServer.condInstallSnapshot, if_true,
          Option.map_eq_some_iff] at installed
        obtain ⟨_, _, rfl⟩ := installed
        rfl
      have level : Level pos server 0 := by
        subst here
        refine ⟨?_, lastSnapShot⟩
        rw [Int.add_zero]
        exact Int.toNat_of_nonneg nonneg
      have stands : LoopAt v.snapshots pos server .reading := .reading rfl level
      refine embeds_quiet rfl (run_step forward step) (follows.setLoop server rfl rfl rfl rfl rfl
        (fun _ => id) follows.log rfl ?_)
      have grows : Grows v (v.setServer i server) := ⟨fun _ => id, fun _ => id⟩
      refine seat.turn grows ?_ ?_ inLine ?_ ?_
      · exact fun _ _ => rfl
      · rfl
      · exact stands
      · simp [Turn.message]

/-- `Snapshot` compacts the log of the node. -/
theorem Follows.snapshot (follows : Follows archives s events v)
    (run : ClusterRun CutsConflicts events s.cluster) {i : Fin n}
    (alive : s.cluster.exited i = none) {message : ApplyMsg} {op : Op} {data : Bytes}
    (compacting : (s.hosts i).turn = .compacting message op data) {rf : Raft n}
    (done : (s.cluster.nodes i).snapshot message.commandIndex data = .ok rf) :
    Embeds archives s (s.setHost i { (s.host i).setRaft rf with turn := .sending message op })
      events v [] := by
  have seat := follows.seat i
  obtain ⟨pos, inLine, stands⟩ := seat.loop
  have held := seat.held message (by rw [compacting]; rfl)
  rw [compacting] at stands
  cases stands with
  | compacting plain loop level made => ?_
  have applied : message.commandIndex ≤ (s.cluster.nodes i).lastApplied := by
    rcases inLine.pushed held with ⟨_, _, applied⟩ | ⟨_, valid⟩
    · exact applied
    · rw [plain] at valid
      cases valid
  have taken : s.cluster.step (.snapshot i message.commandIndex data) =
      some (s.cluster.setNode i rf, []) := by
    simp only [Cluster.step, alive, if_true, Cluster.snapshot, done]
  have effect := Cluster.step_effect taken
  have cuts : CutsConflicts s.cluster (.snapshot i message.commandIndex data) := trivial
  have hosted : Hosted (Function.update (fun j => (s.hosts j).handlers) i (s.hosts i).handlers)
      s.started v.handlers := by
    rw [Function.update_eq_self]
    exact follows.hosted
  have follows' : Follows archives
      (s.setHost i { (s.host i).setRaft rf with turn := .sending message op }) events v := by
    refine follows.setHost (Grows.refl v) rfl hosted
      (follows.commands.step (Cluster.bounded_of_run run) effect ?_)
      (follows.snapshots.step effect trivial ?_) follows.log
      (Function.update_eq_self i v.servers).symm ?_
    · intro j command same
      cases same
    · intro j index data' same
      cases same
      exact made
    · exact
        { kv := seat.kv
          loop := ⟨pos, (inLine.raft (Raft.snapshot_lastApplied done applied)).congr
            fun _ _ => rfl, .sending plain (Or.inr loop) level⟩
          carried := seat.carried
          held := by
            intro other own
            rw [(Option.some.inj own).symm]
            exact held }
  refine ⟨v, [], .nil, Run.nil.snoc cuts taken, ?_⟩
  rw [List.append_nil]
  exact follows'

/-- The loop goes on to another turn, which the service does not see. -/
theorem Follows.setTurn (follows : Follows archives s events v) {i : Fin n} {turn : Turn}
    (goesOn : ∀ pos, LoopAt v.snapshots pos (v.servers i) (s.hosts i).turn →
      LoopAt v.snapshots pos (v.servers i) turn)
    (held : ∀ message ∈ turn.message, (s.hosts i).turn.message = some message) :
    Embeds archives s (s.setHost i { (s.host i) with turn := turn }) events v [] := by
  have seat := follows.seat i
  obtain ⟨pos, inLine, stands⟩ := seat.loop
  refine embeds_quiet rfl .nil (follows.setLoop (v.servers i) rfl rfl rfl rfl rfl
    (fun _ => id) follows.log (Function.update_eq_self _ _).symm ?_)
  exact seat.turn (Grows.refl v) (fun _ _ => rfl) seat.kv inLine (goesOn pos stands) held

theorem Follows.checkDuplicate (follows : Follows archives s events v) {i : Fin n}
    {message : ApplyMsg} {op : Op} (popped : (s.hosts i).turn = .popped message op) :
    Embeds archives s (s.setHost i { (s.host i) with
      turn := .checked message op
        ((s.host i).kv.data.ifRequestDuplicate op.clientId op.requestId) }) events v [] := by
  have seat := follows.seat i
  obtain ⟨pos, inLine, stands⟩ := seat.loop
  rw [popped] at stands
  cases stands with
  | popped plain loop level => ?_
  let server : Server := { v.servers i with
    applyLoop := .checked op message.commandIndex
      ((v.servers i).kv.data.ifRequestDuplicate op.clientId op.requestId) }
  have step : v.step archives (.checkDuplicate i) = some (v.setServer i server, []) := by
    simp only [Service.step, Service.serverStep, loop]
    rfl
  have forward : ReadsForward v (.checkDuplicate i) := trivial
  have level : Level pos server 1 := ⟨level.reached, level.snapshot⟩
  have grows : Grows v (v.setServer i server) := ⟨fun _ => id, fun _ => id⟩
  refine embeds_quiet rfl (run_step forward step) (follows.setLoop server rfl rfl rfl rfl rfl
    (fun _ => id) follows.log rfl ?_)
  refine seat.turn grows ?_ seat.kv inLine (.checked plain ?_ level) ?_
  · exact fun _ _ => rfl
  · simp only [server, seat.kv]
    rfl
  · rw [popped]
    exact fun _ => id

theorem Follows.execute (follows : Follows archives s events v) (inv : Consistent archives v)
    {i : Fin n} {message : ApplyMsg} {op : Op} {duplicate : Bool}
    (checked : (s.hosts i).turn = .checked message op duplicate) :
    Embeds archives s (s.setHost i { (s.host i).setKv { (s.host i).kv with
        data := if duplicate then (s.host i).kv.data else (s.host i).kv.data.executeCommand op }
      with turn := .executed message op }) events v [] := by
  have seat := follows.seat i
  obtain ⟨pos, inLine, stands⟩ := seat.loop
  rw [checked] at stands
  cases stands with
  | checked plain loop level => ?_
  have known := (inv.server i).loop
  rw [loop] at known
  obtain ⟨index, command, next, _⟩ := known
  let server : Server :=
    { kv := { (v.servers i).kv with
        data := if duplicate then (v.servers i).kv.data
          else (v.servers i).kv.data.executeCommand op }
      position := (v.servers i).position + 1
      applyLoop := .executed op message.commandIndex }
  have step : v.step archives (.execute i) = some (v.setServer i server,
      if !duplicate && decide op.Writes then [.executed i command] else []) := by
    simp only [Service.step, Service.serverStep, loop, next]
    rfl
  have forward : ReadsForward v (.execute i) := trivial
  have level : Level pos server 0 := by
    refine ⟨?_, level.snapshot⟩
    have reached := level.reached
    simp only [server]
    push_cast
    omega
  have grows : Grows v (v.setServer i server) := ⟨fun _ => id, fun _ => id⟩
  refine embeds_quiet rfl (run_step forward step) (follows.setLoop server rfl rfl rfl rfl rfl
    (fun _ => id) follows.log rfl ?_)
  refine seat.turn grows ?_ ?_ inLine (.executed plain rfl level) ?_
  · exact fun _ _ => rfl
  · simp only [server, seat.kv]
    rfl
  · rw [checked]
    exact fun _ => id

theorem Follows.makeSnapShot (follows : Follows archives s events v) (inv : Consistent archives v)
    {i : Fin n} {message : ApplyMsg} {op : Op} {data : Bytes}
    (oversized : (s.hosts i).turn = .oversized message op)
    (made : (s.host i).kv.MakeSnapShot archives data) :
    Embeds archives s (s.setHost i { (s.host i) with turn := .compacting message op data })
      events v [] := by
  have seat := follows.seat i
  obtain ⟨pos, inLine, stands⟩ := seat.loop
  rw [oversized] at stands
  cases stands with
  | oversized plain loop level limited => ?_
  have known := (inv.server i).loop
  rw [loop] at known
  let server : Server :=
    { v.servers i with applyLoop := .snapshotted op message.commandIndex }
  have made' : (v.servers i).kv.MakeSnapShot archives data := by
    rw [seat.kv]
    exact made
  have step : v.step archives (.makeSnapShot i data) = some ({ v.setServer i server with
      snapshots := v.snapshots ++ [(message.commandIndex.toNat, data)] }, []) := by
    simp only [Service.step, Service.serverStep, loop, limited, made', ne_eq,
      not_false_eq_true, and_self, if_true]
    rfl
  have forward : ReadsForward v (.makeSnapShot i data) := trivial
  have level : Level pos server 0 := ⟨level.reached, level.snapshot⟩
  have more : v.snapshots ⊆ v.snapshots ++ [(message.commandIndex.toNat, data)] :=
    List.subset_append_left _ _
  have nonneg : 0 ≤ message.commandIndex := by
    rw [known.1]
    exact Int.natCast_nonneg _
  have grows : Grows v { v.setServer i server with
      snapshots := v.snapshots ++ [(message.commandIndex.toNat, data)] } :=
    ⟨fun _ => id, more⟩
  refine embeds_quiet rfl (run_step forward step) (follows.setLoop server rfl rfl rfl rfl rfl
    more follows.log rfl ?_)
  refine seat.turn grows ?_ seat.kv inLine (.compacting plain rfl level ⟨nonneg, ?_⟩) ?_
  · exact fun _ _ => rfl
  · exact List.mem_append_right _ (List.mem_singleton_self _)
  · rw [oversized]
    exact fun _ => id

theorem Follows.sendMessage (follows : Follows archives s events v) {i : Fin n}
    {message : ApplyMsg} {op : Op} (sending : (s.hosts i).turn = .sending message op) :
    Embeds archives s
      (s.setHost i { (s.host i).setKv
          ((s.host i).kv.sendMessageToWaitChan op message.commandIndex) with
        turn := .commanded message }) events v [] := by
  have seat := follows.seat i
  obtain ⟨pos, inLine, stands⟩ := seat.loop
  rw [sending] at stands
  cases stands with
  | sending plain loop level => ?_
  let server : Server := { v.servers i with
    kv := (v.servers i).kv.sendMessageToWaitChan op message.commandIndex
    applyLoop := .popping }
  have step : v.step archives (.sendMessage i) = some (v.setServer i server, []) := by
    rcases loop with loop | loop
    · simp only [Service.step, Service.serverStep, loop]
      rfl
    · simp only [Service.step, Service.serverStep, loop]
      rfl
  have forward : ReadsForward v (.sendMessage i) := trivial
  have level : Level pos server 0 :=
    ⟨level.reached, (KvServer.sendMessageToWaitChan_lastSnapShotRaftLogIndex ..).trans
      level.snapshot⟩
  have grows : Grows v (v.setServer i server) := ⟨fun _ => id, fun _ => id⟩
  refine embeds_quiet rfl (run_step forward step) (follows.setLoop server rfl rfl rfl rfl rfl
    (fun _ => id) follows.log rfl ?_)
  refine seat.turn grows ?_ ?_ inLine (.command plain rfl level) ?_
  · exact fun _ _ => rfl
  · simp only [server, seat.kv]
    rfl
  · rw [sending]
    exact fun _ => id

/-- `GetRaftStateSize` decides whether a snapshot is made. -/
theorem Follows.getRaftStateSize (follows : Follows archives s events v) {i : Fin n}
    {message : ApplyMsg} {op : Op} (executed : (s.hosts i).turn = .executed message op)
    {host : Host n} {emitted : List HostEvent}
    (taken : (s.host i).loopStep archives .getRaftStateSize (.executed message op) =
      some (host, emitted)) :
    Embeds archives s (s.setHost i host) events v [] := by
  have kv := (follows.seat i).kv
  simp only [Host.loopStep] at taken
  split at taken
  · rename_i limited
    cases taken
    apply follows.setTurn
    · intro pos stands
      rw [executed] at stands
      cases stands with
      | executed plain loop level => exact .oversized plain loop level (kv ▸ limited.1)
    · rw [executed]
      exact fun _ => id
  · cases taken
    apply follows.setTurn
    · intro pos stands
      rw [executed] at stands
      cases stands with
      | executed plain loop level => exact .sending plain (Or.inl loop) level
    · rw [executed]
      exact fun _ => id

/-- A section of the loop. -/
theorem Follows.loop (follows : Follows archives s events v) (inv : Consistent archives v)
    (run : ClusterRun CutsConflicts events s.cluster) {i : Fin n}
    (alive : s.cluster.exited i = none) {action : HostAction n} {host : Host n}
    {emitted : List HostEvent}
    (taken : (s.host i).loopStep archives action (s.hosts i).turn = some (host, emitted)) :
    Embeds archives s (s.setHost i host) events v [] := by
  unfold Host.loopStep at taken
  split at taken
  · -- `pop`
    rename_i reading
    split at taken
    · cases taken
    · rename_i message found
      obtain ⟨h, counted, sim⟩ := simulates_of_run run
      exact follows.pop inv sim.appliesAgree reading found taken
  · -- `checkDuplicate`
    rename_i popped
    cases taken
    exact follows.checkDuplicate popped
  · -- `execute`
    rename_i checked
    cases taken
    exact follows.execute inv checked
  · -- `getRaftStateSize`
    rename_i executed
    exact follows.getRaftStateSize executed taken
  · -- `makeSnapShot`
    rename_i oversized
    split at taken
    · rename_i made
      cases taken
      exact follows.makeSnapShot inv oversized made
    · cases taken
  · -- `snapshot`
    rename_i compacting
    split at taken
    · cases taken
    · rename_i done
      cases taken
      exact follows.snapshot run alive compacting done
  · -- `sendMessage`
    rename_i sending
    cases taken
    exact follows.sendMessage sending
  · -- `getSnapShotFromRaft`
    rename_i message commanded
    split at taken
    · rename_i valid
      split at taken
      · cases taken
      · rename_i installed
        cases taken
        exact follows.getSnapShot commanded valid installed
    · rename_i invalid
      cases taken
      apply follows.setTurn
      · intro pos stands
        rw [commanded] at stands
        cases stands with
        | snapshot valid => exact absurd valid invalid
        | command plain popping level => exact .reading popping level
      · simp [Turn.message]
  · cases taken

end CppRaft.Kv
