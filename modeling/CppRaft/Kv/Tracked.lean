import CppRaft.Kv.Replica

/-!
# Clerks, handlers and servers in every run

Every handler that answers its clerk does so for a command that its server has
consumed, and a clerk goes on only when its request is committed, so that the
log holds the requests of every client in order.  What the maps of a server
tell about the consumed commands is a parameter: a relation that shows every
marked request to be consumed and that the apply loop preserves.
-/

namespace CppRaft.Kv

open CppRaft.Session
open CppRaft.Store
open CppRaft.Transition

variable {κ : Type} {m : Nat} {archives : Archives}

/-! ## Conditions on the steps -/

/-- The clerk that begins a request. -/
def ServiceAction.requester : ServiceAction κ m → Option κ
  | .request c _ _ _ => some c
  | _ => none

/-- A clerk begins a request only while no other clerk with its id has begun
one. -/
def OwnId (s : Service κ m) (action : ServiceAction κ m) : Prop :=
  ∀ c ∈ action.requester, ∀ c', (s.clerks c').clientId = (s.clerks c).clientId → c' ≠ c →
    (s.clerks c').requestId = 0

/-! ## The invariant -/

/-- The stages in which a handler answers its clerk, or is about to. -/
def Stage.Answers : Stage → Prop
  | .reading _ => True
  | .deleting _ reply => reply.err ≠ .errWrongLeader
  | .replied reply => reply.err ≠ .errWrongLeader
  | _ => False

/-- A command that was sent for a request of its clerk. -/
structure Issued (s : Service κ m) (command : Command κ) : Prop where
  client : command.op.clientId = (s.clerks command.clerk).clientId
  positive : 1 ≤ command.op.requestId
  begun : command.op.requestId ≤ (s.clerks command.clerk).requestId
  current : ∀ op, (s.clerks command.clerk).outstanding = some op →
    op.requestId = command.op.requestId → command.op = op

/-- The commands of all handlers. -/
def Service.commands (s : Service κ m) : List (Command κ) :=
  s.handlers.map Handler.command

theorem Service.mem_commands {s : Service κ m} {h : Nat} {handler : Handler κ m}
    (found : s.handlers[h]? = some handler) : handler.command ∈ s.commands :=
  List.mem_map_of_mem (List.mem_of_getElem? found)

/-- A relation between the consumed commands and the maps of a server that the
apply loop preserves.  The flag of a Put or Append was computed from maps that
were in the relation, too. -/
structure Tracks (rel : List (Command κ) → KvData → Prop) : Prop where
  start : rel [] .start
  marked : ∀ {log data}, rel log data → ∀ clientId last, data.marks clientId = some last →
    Occurs log clientId last
  consume : ∀ {log command data duplicate}, rel log data → InOrder (log ++ [command]) →
    (command.op.Writes → ∃ checked : KvData, rel log checked ∧
      duplicate = checked.ifRequestDuplicate command.op.clientId command.op.requestId) →
    rel (log ++ [command]) (if duplicate then data else data.executeCommand command.op)

variable {rel : List (Command κ) → KvData → Prop}

/-- `ExecuteGetOpOnKVDB` for a consumed command keeps the maps in the relation. -/
def ReadsTracked (rel : List (Command κ) → KvData → Prop) (s : Service κ m) :
    ServiceAction κ m → Prop
  | .executeGet h =>
      ∀ handler ∈ s.handlers[h]?,
        Occurs (s.log.take (s.servers handler.server).position) handler.command.op.clientId
          handler.command.op.requestId →
        rel (s.log.take (s.servers handler.server).position)
          ((s.servers handler.server).kv.data.executeGetOpOnKVDB handler.command.op).1
  | _ => True

/-- What the apply loop of a server knows. -/
def LoopTracked (rel : List (Command κ) → KvData → Prop) (log : List (Command κ))
    (position : Nat) : ApplyLoop → Prop
  | .popping => True
  | .popped op commandIndex =>
      commandIndex = position + 1 ∧ ∃ command, log[position]? = some command ∧ command.op = op
  | .checked op commandIndex duplicate =>
      commandIndex = position + 1 ∧ ∃ command, log[position]? = some command ∧ command.op = op ∧
        (op.Writes → ∃ data : KvData, rel (log.take position) data ∧
          duplicate = data.ifRequestDuplicate op.clientId op.requestId)
  | .executed op commandIndex | .snapshotted op commandIndex =>
      commandIndex = position ∧ Occurs (log.take position) op.clientId op.requestId

/-- A server has consumed the log up to its position. -/
structure ServerTracked (rel : List (Command κ) → KvData → Prop) (log : List (Command κ))
    (server : Server) : Prop where
  bound : server.position ≤ log.length
  tracked : rel (log.take server.position) server.kv.data
  lastSnapShot : server.kv.lastSnapShotRaftLogIndex ≤ server.position
  queued : ∀ queue ∈ server.kv.lockQueues, ∀ op ∈ queue,
    Occurs (log.take server.position) op.clientId op.requestId
  loop : LoopTracked rel log server.position server.applyLoop

/-- The invariant of the service with servers in `rel`. -/
structure Tracked (rel : List (Command κ) → KvData → Prop) (archives : Archives)
    (s : Service κ m) : Prop where
  outstanding : ∀ c op, (s.clerks c).outstanding = some op →
    op.clientId = (s.clerks c).clientId ∧ op.requestId = (s.clerks c).requestId ∧
      1 ≤ (s.clerks c).requestId
  nonneg : ∀ c, 0 ≤ (s.clerks c).requestId
  distinct : ∀ c c', (s.clerks c).clientId = (s.clerks c').clientId →
    (s.clerks c).requestId ≠ 0 → (s.clerks c').requestId ≠ 0 → c = c'
  returned : ∀ c r, 1 ≤ r → r ≤ (s.clerks c).requestId →
    (r = (s.clerks c).requestId → (s.clerks c).outstanding = none) →
    Occurs s.log (s.clerks c).clientId r
  issued : ∀ command ∈ s.commands, Issued s command
  unique : ∀ a ∈ s.commands, ∀ b ∈ s.commands, a.op.clientId = b.op.clientId →
    a.op.requestId = b.op.requestId → a = b
  proposed : ∀ command ∈ s.proposals, command ∈ s.commands
  committed : ∀ command ∈ s.log, command ∈ s.commands
  inOrder : InOrder s.log
  consumed : ∀ handler ∈ s.handlers, handler.stage.Answers →
    Occurs (s.log.take (s.servers handler.server).position) handler.command.op.clientId
      handler.command.op.requestId
  server : ∀ i, ServerTracked rel s.log (s.servers i)
  snapshot : ∀ index data, (index, data) ∈ s.snapshots → index ≤ s.log.length ∧ data ≠ [] ∧
    ∃ kvData, archives.readKvData data = some kvData ∧ rel (s.log.take index) kvData

theorem tracked_start (tracks : Tracks rel) (clientId : κ → Bytes) (maxRaftState : Int) :
    Tracked rel archives (Service.start clientId maxRaftState : Service κ m) where
  outstanding := by simp [Service.start]
  nonneg := by simp [Service.start]
  distinct := by simp [Service.start]
  returned := by
    intro c r positive begun
    simp only [Service.start] at begun
    omega
  issued := by simp [Service.start, Service.commands]
  unique := by simp [Service.start, Service.commands]
  proposed := by simp [Service.start]
  committed := by simp [Service.start]
  inOrder := .nil
  consumed := by simp [Service.start]
  server := fun i =>
    { bound := le_rfl
      tracked := tracks.start
      lastSnapShot := le_rfl
      queued := by simp [Service.start, KvServer.start]
      loop := trivial }
  snapshot := by simp [Service.start]

/-! ## Growth of the log -/

theorem LoopTracked.append {log : List (Command κ)} {position : Nat} {loop : ApplyLoop}
    (tracked : LoopTracked rel log position loop) (command : Command κ)
    (bound : position ≤ log.length) :
    LoopTracked rel (log ++ [command]) position loop := by
  have take : (log ++ [command]).take position = log.take position :=
    List.take_append_of_le_length bound
  have keep : ∀ {next}, log[position]? = some next → (log ++ [command])[position]? = some next := by
    intro next found
    rw [List.getElem?_append_left (List.getElem?_eq_some_iff.mp found).1, found]
  cases loop with
  | popping => trivial
  | popped op commandIndex =>
      obtain ⟨index, next, found, same⟩ := tracked
      exact ⟨index, next, keep found, same⟩
  | checked op commandIndex duplicate =>
      obtain ⟨index, next, found, same, flag⟩ := tracked
      refine ⟨index, next, keep found, same, ?_⟩
      rw [take]
      exact flag
  | executed op commandIndex =>
      unfold LoopTracked at tracked ⊢
      rwa [take]
  | snapshotted op commandIndex =>
      unfold LoopTracked at tracked ⊢
      rwa [take]

theorem ServerTracked.append {log : List (Command κ)} {server : Server}
    (tracked : ServerTracked rel log server) (command : Command κ) :
    ServerTracked rel (log ++ [command]) server := by
  have take : (log ++ [command]).take server.position = log.take server.position :=
    List.take_append_of_le_length tracked.bound
  exact
    { bound := tracked.bound.trans (by simp)
      tracked := take ▸ tracked.tracked
      lastSnapShot := tracked.lastSnapShot
      queued := by
        rw [take]
        exact tracked.queued
      loop := tracked.loop.append command tracked.bound }

/-- The apply loop moves on. -/
theorem ServerTracked.setLoop {log : List (Command κ)} {server : Server}
    (tracked : ServerTracked rel log server) {loop : ApplyLoop}
    (loopTracked : LoopTracked rel log server.position loop) :
    ServerTracked rel log { server with applyLoop := loop } :=
  { tracked with loop := loopTracked }

/-! ## Changes of one handler, one server, one clerk -/

namespace Tracked

variable {s : Service κ m}

/-- A handler moves to a stage that it may be in. -/
theorem setStage (inv : Tracked rel archives s) {h : Nat} {handler : Handler κ m}
    (found : s.handlers[h]? = some handler) {stage : Stage}
    (answers : stage.Answers → Occurs (s.log.take (s.servers handler.server).position)
      handler.command.op.clientId handler.command.op.requestId) :
    Tracked rel archives (s.setStage h handler stage) := by
  have commands : (s.setStage h handler stage).commands = s.commands := by
    apply List.ext_getElem?
    intro k
    simp only [Service.commands, Service.setStage, List.getElem?_map]
    by_cases same : h = k
    · subst same
      rw [List.getElem?_set_self (List.getElem?_eq_some_iff.mp found).1, found]
      rfl
    · rw [List.getElem?_set_ne same]
  exact
    { inv with
      issued := by
        rw [commands]
        exact fun command member => { inv.issued command member with }
      unique := commands ▸ inv.unique
      proposed := commands ▸ inv.proposed
      committed := commands ▸ inv.committed
      consumed := by
        intro other member
        rcases List.mem_or_eq_of_mem_set member with old | rfl
        · exact inv.consumed other old
        · exact answers }

/-- A server consumes more of the log. -/
theorem setServer (inv : Tracked rel archives s) {i : Fin m} {server : Server}
    (tracked : ServerTracked rel s.log server) (later : (s.servers i).position ≤ server.position) :
    Tracked rel archives (s.setServer i server) :=
  { inv with
    issued := fun command member => { inv.issued command member with }
    consumed := by
      intro handler member answers
      have occurs := inv.consumed handler member answers
      by_cases same : handler.server = i
      · simp only [Service.setServer, same, Function.update_self]
        rw [same] at occurs
        exact occurs.mono (List.take_prefix_take_left later)
      · simp only [Service.setServer, Function.update_of_ne same]
        exact occurs
    server := by
      intro j
      by_cases same : j = i
      · subst same
        simp only [Service.setServer, Function.update_self]
        exact tracked
      · simp only [Service.setServer, Function.update_of_ne same]
        exact inv.server j }

/-- A server changes in what is not replicated. -/
theorem setKv (inv : Tracked rel archives s) {i : Fin m} {kv : KvServer}
    (tracked : rel (s.log.take (s.servers i).position) kv.data)
    (lastSnapShot : kv.lastSnapShotRaftLogIndex = (s.servers i).kv.lastSnapShotRaftLogIndex)
    (queued : ∀ queue ∈ kv.lockQueues, ∀ op ∈ queue,
      Occurs (s.log.take (s.servers i).position) op.clientId op.requestId) :
    Tracked rel archives (s.setKv i kv) := by
  have server : ServerTracked rel s.log { s.servers i with kv := kv } :=
    { bound := (inv.server i).bound
      tracked := tracked
      lastSnapShot := lastSnapShot.le.trans (inv.server i).lastSnapShot
      queued := queued
      loop := (inv.server i).loop }
  exact inv.setServer server le_rfl

/-- A clerk begins a request. -/
theorem request [DecidableEq κ] (inv : Tracked rel archives s) {c : κ} {operation : Operation}
    {key value : Bytes} (ownId : OwnId s (.request c operation key value : ServiceAction κ m))
    (idle : (s.clerks c).outstanding = none) :
    Tracked rel archives { s with
      clerks := Function.update s.clerks c ((s.clerks c).begin operation key value) } where
  outstanding := by
    intro c' op sent
    by_cases same : c' = c
    · subst same
      simp only [Function.update_self, Clerk.begin, Option.some.injEq] at sent ⊢
      subst sent
      have nonneg := inv.nonneg c'
      exact ⟨rfl, rfl, by omega⟩
    · simp only [Function.update_of_ne same] at sent ⊢
      exact inv.outstanding c' op sent
  nonneg := by
    intro c'
    by_cases same : c' = c
    · subst same
      simp only [Function.update_self, Clerk.begin]
      have nonneg := inv.nonneg c'
      omega
    · simp only [Function.update_of_ne same]
      exact inv.nonneg c'
  distinct := by
    intro a b ids began began'
    by_cases left : a = c
    · by_cases right : b = c
      · rw [left, right]
      · subst left
        simp only [Function.update_self, Function.update_of_ne right] at ids began'
        exact absurd (ownId a rfl b ids.symm right) began'
    · by_cases right : b = c
      · subst right
        simp only [Function.update_self, Function.update_of_ne left] at ids began
        exact absurd (ownId b rfl a ids left) began
      · simp only [Function.update_of_ne left, Function.update_of_ne right] at ids began began'
        exact inv.distinct a b ids began began'
  returned := by
    intro c' r positive begun finished
    by_cases same : c' = c
    · subst same
      simp only [Function.update_self, Clerk.begin, reduceCtorEq, imp_false] at begun finished ⊢
      exact inv.returned c' r positive (by omega) fun _ => idle
    · simp only [Function.update_of_ne same] at begun finished ⊢
      exact inv.returned c' r positive begun finished
  issued := by
    intro command member
    have issued := inv.issued command member
    by_cases same : command.clerk = c
    · have begun := issued.begun
      have client := issued.client
      rw [same] at begun client
      constructor
      · simpa [same, Clerk.begin] using client
      · exact issued.positive
      · simp only [same, Function.update_self, Clerk.begin]
        omega
      · intro op sent number
        simp only [same, Function.update_self, Clerk.begin, Option.some.injEq] at sent
        rw [← sent] at number
        simp only [Clerk.nextOp] at number
        omega
    · constructor
      · simpa only [Function.update_of_ne same] using issued.client
      · exact issued.positive
      · simpa only [Function.update_of_ne same] using issued.begun
      · simpa only [Function.update_of_ne same] using issued.current
  unique := inv.unique
  proposed := inv.proposed
  committed := inv.committed
  inOrder := inv.inOrder
  consumed := inv.consumed
  server := inv.server
  snapshot := inv.snapshot

/-- The command of a call is the only one of its client and number. -/
theorem eq_of_outstanding (inv : Tracked rel archives s) {c : κ} {op : Op}
    (sent : (s.clerks c).outstanding = some op) {command : Command κ}
    (member : command ∈ s.commands) (client : command.op.clientId = op.clientId)
    (number : command.op.requestId = op.requestId) :
    command = { clerk := c, op := op } := by
  obtain ⟨ownClient, ownNumber, positive⟩ := inv.outstanding c op sent
  have issued := inv.issued command member
  have sameClerk : command.clerk = c := by
    apply inv.distinct
    · rw [← issued.client, client, ownClient]
    · have := issued.positive.trans issued.begun
      omega
    · omega
  have sameOp : command.op = op := by
    apply issued.current
    · rw [sameClerk]
      exact sent
    · exact number.symm
  cases command
  simp_all

/-- A clerk calls a server. -/
theorem call (inv : Tracked rel archives s) {c : κ} {op : Op}
    (sent : (s.clerks c).outstanding = some op) (i : Fin m) :
    Tracked rel archives { s with
      handlers := s.handlers ++
        [{ command := { clerk := c, op := op }, server := i, stage := .starting }] } := by
  have commands : Service.commands { s with
      handlers := s.handlers ++
        [{ command := { clerk := c, op := op }, server := i, stage := .starting }] } =
      s.commands ++ [{ clerk := c, op := op }] := by
    simp [Service.commands]
  have cases : ∀ {command}, command ∈ s.commands ++ [{ clerk := c, op := op }] →
      command ∈ s.commands ∨ command = { clerk := c, op := op } := by
    intro command member
    simpa using member
  exact
    { inv with
      issued := by
        rw [commands]
        intro command member
        rcases cases member with old | rfl
        · exact { inv.issued command old with }
        · obtain ⟨client, number, positive⟩ := inv.outstanding c op sent
          constructor
          · exact client
          · exact positive.trans_eq number.symm
          · exact number.le
          · intro op' sent' _
            exact Option.some.inj (sent.symm.trans sent')
      unique := by
        rw [commands]
        intro a left b right client number
        rcases cases left with oldLeft | rfl
        · rcases cases right with oldRight | rfl
          · exact inv.unique a oldLeft b oldRight client number
          · exact inv.eq_of_outstanding sent oldLeft client number
        · rcases cases right with oldRight | rfl
          · exact (inv.eq_of_outstanding sent oldRight client.symm number.symm).symm
          · rfl
      proposed := by
        rw [commands]
        exact fun command member => List.mem_append_left _ (inv.proposed command member)
      committed := by
        rw [commands]
        exact fun command member => List.mem_append_left _ (inv.committed command member)
      consumed := by
        intro handler member answers
        rcases List.mem_append.mp member with old | new
        · exact inv.consumed handler old answers
        · rw [List.mem_singleton.mp new] at answers
          exact answers.elim }

/-- A clerk takes the answer to its request. -/
theorem takeReply [DecidableEq κ] (inv : Tracked rel archives s) {handler : Handler κ m}
    (member : handler ∈ s.handlers) (answers : handler.stage.Answers)
    (sent : (s.clerks handler.command.clerk).outstanding = some handler.command.op) :
    Tracked rel archives { s with
      clerks := Function.update s.clerks handler.command.clerk
        { s.clerks handler.command.clerk with outstanding := none } } := by
  have same : ∀ c, (Function.update s.clerks handler.command.clerk
        { s.clerks handler.command.clerk with outstanding := none } c).clientId =
          (s.clerks c).clientId ∧
      (Function.update s.clerks handler.command.clerk
        { s.clerks handler.command.clerk with outstanding := none } c).requestId =
          (s.clerks c).requestId := by
    intro c
    by_cases own : c = handler.command.clerk
    · subst own
      simp
    · simp [Function.update_of_ne own]
  have left : ∀ c op, (Function.update s.clerks handler.command.clerk
        { s.clerks handler.command.clerk with outstanding := none } c).outstanding = some op →
      (s.clerks c).outstanding = some op := by
    intro c op found
    by_cases own : c = handler.command.clerk
    · subst own
      simp at found
    · simpa only [Function.update_of_ne own] using found
  exact
    { inv with
      outstanding := by
        intro c op found
        rw [(same c).1, (same c).2]
        exact inv.outstanding c op (left c op found)
      nonneg := by
        intro c
        rw [(same c).2]
        exact inv.nonneg c
      distinct := by
        intro a b
        rw [(same a).1, (same a).2, (same b).1, (same b).2]
        exact inv.distinct a b
      returned := by
        intro c r positive begun finished
        rw [(same c).2] at begun finished
        rw [(same c).1]
        by_cases own : c = handler.command.clerk
        · subst own
          rcases begun.eq_or_lt with rfl | earlier
          · obtain ⟨client, number, _⟩ := inv.outstanding _ _ sent
            rw [← client, ← number]
            exact (inv.consumed handler member answers).mono (List.take_prefix _ _)
          · exact inv.returned _ r positive begun fun equal => absurd equal earlier.ne
        · simp only [Function.update_of_ne own] at finished
          exact inv.returned c r positive begun finished
      issued := by
        intro command sentBefore
        have issued := inv.issued command sentBefore
        constructor
        · exact issued.client.trans (same _).1.symm
        · exact issued.positive
        · exact issued.begun.trans_eq (same _).2.symm
        · intro op found
          exact issued.current op (left _ op found) }

/-- A proposed command is committed. -/
theorem commit (inv : Tracked rel archives s) {command : Command κ}
    (proposed : command ∈ s.proposals) :
    Tracked rel archives { s with log := s.log ++ [command] } := by
  have member := inv.proposed command proposed
  have issued := inv.issued command member
  exact
    { inv with
      returned := fun c r positive begun finished =>
        (inv.returned c r positive begun finished).mono (List.prefix_append _ _)
      issued := fun other otherMember => { inv.issued other otherMember with }
      committed := by
        intro other otherMember
        rcases List.mem_append.mp otherMember with old | new
        · exact inv.committed other old
        · rw [List.mem_singleton.mp new]
          exact member
      inOrder := by
        apply inv.inOrder.concat issued.positive
        · intro other old client number
          exact inv.unique other (inv.committed other old) command member client number
        · intro r positive less
          rw [clientOf_eq, issued.client]
          rw [numberOf_eq] at less
          exact inv.returned _ r positive (less.le.trans issued.begun) fun equal =>
            absurd (less.trans_le issued.begun) equal.not_lt
      consumed := by
        intro handler handlerMember answers
        exact (inv.consumed handler handlerMember answers).mono
          ((List.prefix_append _ _).take _)
      server := fun i => (inv.server i).append command
      snapshot := by
        intro index data made
        obtain ⟨bound, nonempty, kvData, read, tracked⟩ := inv.snapshot index data made
        refine ⟨bound.trans (by simp), nonempty, kvData, read, ?_⟩
        rwa [List.take_append_of_le_length bound] }

end Tracked

end CppRaft.Kv
