import CppRaft.Kv.Embedding

/-!
# The program is linearizable

Every run of the program whose steps are regular is a run of the service with
the same calls, and so it is linearizable: Raft, the threads between a node and
its service, and the clerks together behave as one map.
-/

namespace CppRaft.Kv

open CppRaft.Protocol
open CppRaft.RaftCore
open CppRaft.Session
open CppRaft.Store
open CppRaft.Transition

variable {κ : Type} {n : Nat} {archives : Archives}

/-! ## Threads between a node and its service -/

/-- Pushing moves a message into the channel. -/
theorem Pipeline.next_push {p p' : Pipeline n} {action : PipelineAction n}
    (service : HostAction.OfService (.pipeline action)) (moved : p.next archives action = some p') :
    p'.rf = p.rf ∧ p'.server = p.server ∧ p.applyChan ⊆ p'.applyChan ∧
      ∀ message ∈ p'.messages, message ∈ p.messages := by
  cases action with
  | applierPush =>
      simp only [Pipeline.next] at moved
      split at moved
      · cases moved
      · rename_i message rest waiting
        cases moved
        refine ⟨rfl, rfl, List.subset_append_left _ _, ?_⟩
        intro other member
        simp only [messages, waiting, List.mem_append, List.mem_cons] at member ⊢
        tauto
  | pushMsgToKvServer thread =>
      simp only [Pipeline.next] at moved
      split at moved
      · cases moved
      · rename_i message waiting
        cases moved
        refine ⟨rfl, rfl, List.subset_append_left _ _, ?_⟩
        intro other member
        simp only [messages, List.mem_append, List.mem_singleton] at member ⊢
        rcases member with (collected | pending) | (arrived | rfl)
        · exact Or.inl (Or.inl collected)
        · exact Or.inl (Or.inr (List.mem_of_mem_eraseIdx pending))
        · exact Or.inr arrived
        · exact Or.inl (Or.inr (List.mem_of_getElem? waiting))
  | raft | installSnapshot | getApplyLogs | readRaftApplyCommand | snapshot => cases service

variable {s s' : System κ n} {events : List (Event n)} {v : Service κ n}

/-- What a step of the cluster hands to server `i`. -/
theorem Follows.receive (follows : Follows archives s events v) (inv : Consistent archives v)
    (bounded : s.cluster.Bounded) {action : Action n} (ready : s.Ready action) {cluster : Cluster n}
    {emitted : List (Event n)} (taken : s.cluster.step action = some (cluster, emitted))
    (i : Fin n) :
    Seat archives v (events ++ emitted)
      ((s.hosts i).receive (collected i emitted) (s.cluster.installed i action))
      (cluster.nodes i) (v.servers i) := by
  have noSnapshot : ∀ j index data, action ≠ .snapshot j index data := by
    rintro j index data rfl
    cases ready
  have seat := (follows.seat i).mono (Grows.refl v) emitted
  obtain ⟨pos, inLine, stands⟩ := seat.loop
  have seated : InLine ((s.hosts i).receive (collected i emitted) (s.cluster.installed i action))
        (cluster.nodes i) pos →
      (∀ message ∈ collected i emitted ++ (s.cluster.installed i action).toList,
        Carried archives v (events ++ emitted) message) →
      Seat archives v (events ++ emitted)
        ((s.hosts i).receive (collected i emitted) (s.cluster.installed i action))
        (cluster.nodes i) (v.servers i) := by
    intro inLine carried
    refine ⟨seat.kv, ⟨pos, inLine, stands⟩, ?_, seat.held⟩
    intro message member
    simp only [Pipeline.messages, Host.receive, List.mem_append] at member
    rcases member with ((old | new) | (old | new)) | old
    · exact seat.carried message (by simp [Pipeline.messages, old])
    · exact carried message (List.mem_append_left _ new)
    · exact seat.carried message (by simp [Pipeline.messages, old])
    · exact carried message (List.mem_append_right _ new)
    · exact seat.carried message (by simp [Pipeline.messages, old])
  cases Cluster.step_delivers taken noSnapshot i with
  | nothing same silent none =>
      rw [silent, none] at seated ⊢
      refine seated ((inLine.raft same).congr ?_) (by simp)
      intro rf pos
      simp [Host.outline, Host.receive]
  | @commands applyMsgs collects given shown none =>
      have empty : (s.hosts i).pipeline.applyMsgs = [] := by
        rw [collects] at ready
        exact ready
      have handed : ∀ message ∈ applyMsgs, Carried archives v (events ++ emitted) message := by
        intro message member
        obtain ⟨k, found⟩ := List.mem_iff_getElem?.mp member
        have valid : message.commandValid = true := by
          obtain ⟨_, entry, _, rfl⟩ := (Raft.getApplyLogs_emits given).2 k message found
          rfl
        rw [← shown] at member
        refine .command valid (List.mem_append_right _ (mem_collected member)) ?_
        rw [shown] at member
        exact follows.commands.handed given member
      rw [shown, none] at seated ⊢
      refine seated (inLine.collect (bounded.placed i) empty given) ?_
      intro message member
      rw [Option.toList_none, List.append_nil] at member
      exact handed message member
  | @snapshot call args response member request handled silent given =>
      have made := follows.snapshots.shipped call member args request
      have nonempty := (inv.snapshot _ _ made.2).2.1
      rw [silent, given] at seated ⊢
      refine seated (inLine.install handled nonempty made.1) ?_
      intro message member
      rw [List.nil_append, Option.toList_some, List.mem_singleton] at member
      subst member
      exact .snapshot rfl made

variable [DecidableEq κ]

theorem Follows.push (follows : Follows archives s events v) {i : Fin n}
    {action : PipelineAction n} (service : HostAction.OfService (.pipeline action))
    (inOrder : PushesInOrder (s.host i).pipeline action) {host : Host n}
    {emitted : List HostEvent}
    (taken : (s.host i).pipelineStep archives action = some (host, emitted)) :
    Embeds archives s (s.setHost i host) events v [] := by
  have seat := follows.seat i
  obtain ⟨pos, inLine, stands⟩ := seat.loop
  have inLine : InLine (s.host i) (s.cluster.nodes i) pos := inLine.congr fun _ _ => rfl
  have moved : ∃ p, (s.host i).pipeline.next archives action = some p ∧
      host = { s.host i with pipeline := p } := by
    unfold Host.pipelineStep at taken
    split at taken
    · cases taken
    · cases taken
    · cases taken
    · obtain ⟨p, moved, same⟩ := Option.map_eq_some_iff.mp taken
      cases same
      exact ⟨p, moved, rfl⟩
  obtain ⟨p, moved, rfl⟩ := moved
  obtain ⟨rf, server, grown, messages⟩ := Pipeline.next_push service moved
  refine embeds_quiet rf .nil (follows.setLoop (v.servers i) rf rfl rfl rfl rfl (fun _ => id)
    follows.log (Function.update_eq_self _ _).symm ?_)
  exact
    { kv := seat.kv.trans server.symm
      loop := ⟨pos, inLine.push service inOrder moved, stands⟩
      carried := fun message member => seat.carried message (messages message member)
      held := fun message own => grown (seat.held message own) }

/-- A step of the cluster. -/
theorem Follows.raft (follows : Follows archives s events v) (inv : Consistent archives v)
    (run : ClusterRun CutsConflicts events s.cluster) {action : Action n} (ready : s.Ready action)
    (cuts : CutsConflicts s.cluster action) (sends : SendsSaved s.cluster action)
    {cluster : Cluster n} {emitted : List (Event n)}
    (taken : s.cluster.step action = some (cluster, emitted)) :
    Embeds archives s (s.deliver action cluster emitted) events v [] := by
  have bounded := Cluster.bounded_of_run run
  have effect := Cluster.step_effect taken
  refine ⟨v, emitted, .nil, Run.nil.snoc cuts taken, ?_⟩
  exact
    { clerks := follows.clerks
      plain := follows.plain
      hosted := follows.hosted
      commands := by
        apply follows.commands.step bounded effect
        rintro j command rfl
        cases ready
      snapshots := by
        apply follows.snapshots.step effect sends
        rintro j index data rfl
        cases ready
      log := follows.log.mono emitted
      seat := follows.receive inv bounded ready taken }

/-! ## Clerks -/

/-- A clerk starts a handler of a server. -/
theorem Follows.call (follows : Follows archives s events v) {c : κ} {op : Op}
    (sent : (s.clerks c).outstanding = some op) (i : Fin n) {host : Host n}
    {emitted : List HostEvent}
    (taken : (s.host i).step archives (.call op) = some (host, emitted)) :
    Embeds archives s
      { s.setHost i host with
        started := s.started ++ [⟨i, (s.hosts i).handlers.length, c⟩] } events v [] := by
  have plain : ({ op with value := if op.operation = .get then [] else op.value } : Op) = op := by
    split
    · rename_i get
      rw [← follows.plain c op sent get]
    · rfl
  simp only [Host.step, plain, Option.some.injEq, Prod.mk.injEq] at taken
  obtain ⟨rfl, -⟩ := taken
  have step : v.step archives (.call c i) = some ({ v with
      handlers := v.handlers ++ [(⟨op, .starting⟩ : HandlerThread).handler c i] }, []) := by
    simp only [Service.step, follows.clerks, sent]
    rfl
  have forward : ReadsForward v (.call c i) := trivial
  have cluster : s.cluster.setNode i (s.cluster.nodes i) = s.cluster := setNode_self _ i
  refine ⟨_, [], run_step forward step, ?_, ?_⟩
  · change Run _ _ s.cluster [] (s.cluster.setNode i (s.cluster.nodes i))
    rw [cluster]
    exact .nil
  · rw [List.append_nil]
    have grows : Grows v { v with
        handlers := v.handlers ++ [(⟨op, .starting⟩ : HandlerThread).handler c i] } :=
      ⟨fun _ => id, fun _ => id⟩
    have kept : ∀ j, Seat archives { v with
        handlers := v.handlers ++ [(⟨op, .starting⟩ : HandlerThread).handler c i] } events
        (s.hosts j) (s.cluster.nodes j) (v.servers j) := by
      intro j
      have kept := (follows.seat j).mono grows []
      rwa [List.append_nil] at kept
    have threads : (fun j => (Function.update s.hosts i { (s.host i) with
          handlers := (s.host i).handlers ++ [⟨op, .starting⟩] } j).handlers) =
        Function.update (fun j => (s.hosts j).handlers) i
          ((s.hosts i).handlers ++ [⟨op, .starting⟩]) := by
      funext j
      by_cases here : j = i
      · subst here
        simp only [Function.update_self]
        rfl
      · simp only [Function.update_of_ne here]
    exact
      { clerks := follows.clerks
        plain := follows.plain
        hosted := by
          have hosted := follows.hosted.call i c ⟨op, .starting⟩
          rw [← threads] at hosted
          exact hosted
        commands := by
          change (s.cluster.setNode i (s.cluster.nodes i)).CommandsFrom _
          rw [cluster]
          exact follows.commands
        snapshots := by
          change (s.cluster.setNode i (s.cluster.nodes i)).SnapshotsFrom _
          rw [cluster]
          exact follows.snapshots
        log := follows.log
        seat := by
          intro j
          change Seat archives _ events (Function.update s.hosts i _ j)
            ((s.cluster.setNode i (s.cluster.nodes i)).nodes j) (v.servers j)
          rw [cluster]
          by_cases here : j = i
          · subst here
            rw [Function.update_self]
            obtain ⟨pos, inLine, stands⟩ := (kept j).loop
            exact
              { kv := (kept j).kv
                loop := ⟨pos, inLine.congr fun _ _ => rfl, stands⟩
                carried := (kept j).carried
                held := (kept j).held }
          · rw [Function.update_of_ne here]
            exact kept j }

/-- A clerk takes the answer of a handler. -/
theorem Follows.takeReply (follows : Follows archives s events v) {p : Nat} {i : Fin n} {h : Nat}
    {c : κ} (found : s.started[p]? = some ⟨i, h, c⟩) {thread : HandlerThread}
    (running : (s.hosts i).handlers[h]? = some thread) {reply : Reply}
    (answers : thread.stage.reply = some reply)
    (accepted : reply.err ≠ .errWrongLeader ∧ (s.clerks c).outstanding = some thread.op) :
    Embeds archives s
      { s with
        clerks := Function.update s.clerks c { s.clerks c with outstanding := none } } events v
      [.returned { clerk := c, op := thread.op }
        (if thread.op.operation = .get then reply.result else [])] := by
  obtain ⟨thread', running', handler⟩ := follows.hosted.runs found
  rw [running, Option.some.injEq] at running'
  subst running'
  have replied : (thread.handler c i).stage = .replied reply :=
    HandlerStage.stage_of_reply answers
  have step : v.step archives (.takeReply p) = some ({ v with
      clerks := Function.update s.clerks c { s.clerks c with outstanding := none } },
      [.returned (thread.handler c i).command]) := by
    simp only [Service.step, handler, replied, follows.clerks]
    exact if_pos accepted
  have shown : v.observe (.takeReply p) = [.returned { clerk := c, op := thread.op }
      (if thread.op.operation = .get then reply.result else [])] := by
    simp only [Service.observe, handler, replied]
    rfl
  have forward : ReadsForward v (.takeReply p) := trivial
  have steps := run_step forward step
  rw [shown] at steps
  refine ⟨_, [], steps, .nil, ?_⟩
  rw [List.append_nil]
  refine follows.setClerks _ ?_
  intro c' op sent get
  by_cases own : c' = c
  · subst own
    rw [Function.update_self] at sent
    cases sent
  · rw [Function.update_of_ne own] at sent
    exact follows.plain c' op sent get

/-! ## Runs -/

/-- Every regular step of the program is one of the service. -/
theorem Follows.step (follows : Follows archives s events v) (inv : Consistent archives v)
    (run : ClusterRun CutsConflicts events s.cluster) {action : SystemAction κ n}
    {seen : List (CallEvent (Command κ) Bytes)} (regular : Regular s action)
    (taken : s.step archives action = some (s', seen)) :
    Embeds archives s s' events v seen := by
  cases action with
  | request c operation key value =>
      simp only [System.step, Option.ite_none_right_eq_some, Option.some.injEq,
        Prod.mk.injEq] at taken
      obtain ⟨idle, rfl, rfl⟩ := taken
      have step : v.step archives (.request c operation key value) = some ({ v with
          clerks := Function.update v.clerks c ((v.clerks c).begin operation key value) }, []) := by
        simp only [Service.step, follows.clerks, idle, if_true]
      have forward : ReadsForward v (.request c operation key value) := trivial
      have steps := run_step forward step
      have shown : v.observe (.request c operation key value) =
          [.begun { clerk := c, op := (s.clerks c).nextOp operation key value }] := by
        rw [Service.observe, follows.clerks]
      rw [shown] at steps
      refine ⟨_, [], steps, .nil, ?_⟩
      rw [List.append_nil, follows.clerks]
      refine follows.setClerks _ ?_
      intro c' op sent get
      by_cases own : c' = c
      · subst own
        rw [Function.update_self] at sent
        cases sent
        simp only [Clerk.nextOp] at get ⊢
        rw [if_pos get]
      · rw [Function.update_of_ne own] at sent
        exact follows.plain c' op sent get
  | call c i =>
      simp only [System.step] at taken
      split at taken
      · cases taken
      · rename_i op sent
        split at taken
        · obtain ⟨⟨host, emitted⟩, called, same⟩ := Option.map_eq_some_iff.mp taken
          cases same
          exact follows.call sent i called
        · cases taken
  | takeReply p =>
      simp only [System.step] at taken
      split at taken
      · cases taken
      · rename_i i h c found
        split at taken
        · cases taken
        · rename_i thread running
          split at taken
          · cases taken
          · rename_i reply answers
            split at taken
            · rename_i accepted
              cases taken
              exact follows.takeReply found running answers accepted
            · cases taken
  | raft action =>
      simp only [System.step, Option.ite_none_right_eq_some] at taken
      obtain ⟨ready, taken⟩ := taken
      obtain ⟨⟨cluster, emitted⟩, moved, same⟩ := Option.map_eq_some_iff.mp taken
      cases same
      exact follows.raft inv run ready regular.1 regular.2 moved
  | host i action =>
      simp only [System.step, Option.ite_none_right_eq_some] at taken
      obtain ⟨⟨alive, service⟩, taken⟩ := taken
      obtain ⟨⟨host, emitted⟩, moved, same⟩ := Option.map_eq_some_iff.mp taken
      cases same
      unfold Host.step at moved
      split at moved
      · exact follows.push service regular moved
      · cases service
      · rename_i action noPipeline noCall
        split at moved
        · exact follows.loop inv run alive moved
        · rename_i h own
          split at moved
          · cases moved
          · rename_i thread running
            refine follows.handler run alive running own ?_ moved
            rintro rfl
            exact regular

/-- The service follows a run of the program. -/
theorem Follows.run {clientId : κ → Bytes} {maxRaftState : Int}
    (distinct : Function.Injective clientId) (follows : Follows archives s events v)
    {history more : List (CallEvent (Command κ) Bytes)}
    (calls : CallRun archives clientId maxRaftState ReadsForward history v)
    (nodes : ClusterRun CutsConflicts events s.cluster)
    (later : Run (System.step archives) Regular s more s') :
    ∃ (v' : Service κ n) (events' : List (Event n)),
      Run (Service.callStep archives) ReadsForward v more v' ∧
        ClusterRun CutsConflicts events' s'.cluster ∧ Follows archives s' events' v' := by
  induction later with
  | nil => exact ⟨v, events, .nil, nodes, follows⟩
  | snoc _ regular taken ih =>
      obtain ⟨v', events', calls', nodes', follows'⟩ := ih
      obtain ⟨v'', emitted, calls'', nodes'', follows''⟩ :=
        follows'.step (consistent_of_callRun distinct (calls.append calls')) nodes' regular taken
      exact ⟨v'', events' ++ emitted, calls'.append calls'', nodes'.append nodes'', follows''⟩

/-- A regular run is a run of the service with the same calls and one of the
nodes. -/
theorem follows_of_run {clientId : κ → Bytes} {maxRaftState : Int}
    (distinct : Function.Injective clientId)
    {history : List (CallEvent (Command κ) Bytes)}
    (run : SystemRun archives clientId maxRaftState Regular history s) :
    ∃ (v : Service κ n) (events : List (Event n)),
      CallRun archives clientId maxRaftState ReadsForward history v ∧
        ClusterRun CutsConflicts events s.cluster ∧ Follows archives s events v :=
  (follows_start clientId maxRaftState).run distinct .nil .nil run

/-- The bytes `[1]` and `[2]` are the requests of two clerks. -/
def putOrGet : Archives where
  readOp := fun data =>
    if data = [1] then
      some
        { operation := .put
          key := text "k"
          value := text "v"
          clientId := text "false"
          requestId := 1 }
    else if data = [2] then
      some
        { operation := .get
          key := text "k"
          value := []
          clientId := text "true"
          requestId := 1 }
    else none
  readKvData := fun _ => none

/-- The service of server `i` takes one command that its node has applied. -/
def consumeApplied (i : Fin n) : List (SystemAction κ n) :=
  [.host i (.pipeline .applierPush), .host i .pop, .host i .checkDuplicate, .host i .execute,
    .host i .getRaftStateSize, .host i .sendMessage, .host i .getSnapShotFromRaft]

end CppRaft.Kv
