import CppRaft.Kv.FreshReads
import CppRaft.Session.Linearizable

/-!
# The service is linearizable

The clerks share one map from keys to values.  A Put or Append takes effect
where it first enters the log, and a Get answers from the prefix that its
server has consumed, which is never shorter than the log was when the Get
began.  So the service implements a log of updates, as long as no late read
moves a mark back.
-/

namespace CppRaft.Kv

open CppRaft.RaftCore
open CppRaft.Session
open CppRaft.Store
open CppRaft.Transition

variable {κ : Type} {m : Nat} {archives : Archives}

/-! ## The map -/

/-- The value of every key; a key that is absent has the empty value, as
`Clerk::Get` returns it. -/
abbrev Values : Type :=
  Bytes → Bytes

/-- The value of every key in `m_kvDB`. -/
def KvData.values (data : KvData) : Values :=
  fun key => (data.kvDB.lookup key).getD []

/-- What Put and Append do to the values. -/
def Op.write (op : Op) (values : Values) : Values :=
  match op.operation with
  | .get => values
  | .put => Function.update values op.key op.value
  | .append => Function.update values op.key (values op.key ++ op.value)

/-- The map as its clerks use it: `PutAppend` returns nothing. -/
def sharedMap (κ : Type) : SeqObject Values (Command κ) Bytes where
  start := fun _ => []
  update := fun values command => command.op.write values
  response := fun values command =>
    if command.op.operation = .get then values command.op.key else []
  Reads := fun command => command.op.operation = .get
  update_of_reads := by
    intro values command get
    rw [Op.write, get]
  response_of_updates := by
    intro values values' command writes
    rw [if_neg writes, if_neg writes]

instance : DecidablePred (sharedMap κ).Reads := fun command =>
  inferInstanceAs (Decidable (command.op.operation = .get))

theorem values_insert (kvDB : StringMap Bytes) (key value : Bytes) :
    (fun other => ((kvDB.insert key value).lookup other).getD []) =
      Function.update (fun other => (kvDB.lookup other).getD []) key value := by
  funext other
  by_cases same : other = key
  · subst same
    rw [Finmap.lookup_insert, Function.update_self, Option.getD_some]
  · rw [Finmap.lookup_insert_of_ne _ same, Function.update_of_ne same]

/-- A command that is executed on `m_kvDB`. -/
theorem KvData.values_executeCommand (data : KvData) (op : Op) :
    (data.executeCommand op).values = op.write data.values := by
  unfold KvData.executeCommand Op.write
  cases op.operation with
  | get => rfl
  | put => exact values_insert _ _ _
  | append =>
      unfold KvData.executeAppendOpOnKVDB KvData.values
      cases found : data.kvDB.lookup op.key with
      | none => simpa [found] using values_insert data.kvDB op.key op.value
      | some value => simpa [found] using values_insert data.kvDB op.key (value ++ op.value)

/-! ## Effective commands -/

variable [DecidableEq κ]

/-- The Puts and Appends of a log, each where it first occurs. -/
def effective (log : List (Command κ)) : List (Command κ) :=
  log.foldl (fun kept command =>
    if command.op.Writes ∧ command ∉ kept then kept ++ [command] else kept) []

theorem effective_concat (log : List (Command κ)) (command : Command κ) :
    effective (log ++ [command]) =
      if command.op.Writes ∧ command ∉ effective log then effective log ++ [command]
      else effective log :=
  List.foldl_concat ..

theorem mem_effective {log : List (Command κ)} {command : Command κ} :
    command ∈ effective log ↔ command ∈ log ∧ command.op.Writes := by
  induction log using List.reverseRecOn with
  | nil => simp [effective]
  | append_singleton log last ih =>
      rw [effective_concat, List.mem_append, List.mem_singleton, or_and_right, ← ih]
      split
      · rename_i taken
        rw [List.mem_append, List.mem_singleton]
        constructor
        · rintro (old | rfl)
          · exact Or.inl old
          · exact Or.inr ⟨rfl, taken.1⟩
        · rintro (old | ⟨rfl, _⟩)
          · exact Or.inl old
          · exact Or.inr rfl
      · rename_i left
        constructor
        · exact Or.inl
        · rintro (old | ⟨rfl, writes⟩)
          · exact old
          · exact not_not.mp fun absent => left ⟨writes, absent⟩

theorem effective_prefix_concat (log : List (Command κ)) (command : Command κ) :
    effective log <+: effective (log ++ [command]) := by
  rw [effective_concat]
  split
  · exact List.prefix_append _ _
  · exact List.prefix_rfl

theorem effective_take_isPrefix (log : List (Command κ)) (k : Nat) :
    effective (log.take k) <+: effective log := by
  induction log using List.reverseRecOn with
  | nil => simp
  | append_singleton log last ih =>
      rcases Nat.lt_or_ge log.length k with beyond | inside
      · rw [List.take_of_length_le (by rw [List.length_append]; exact beyond)]
      · rw [List.take_append_of_le_length inside]
        exact ih.trans (effective_prefix_concat log last)

/-- The deduplicated execution of a log is the execution of its effective
commands. -/
theorem values_replay {log : List (Command κ)} (inOrder : InOrder log) :
    (KvData.replay (log.map Command.op)).values =
      (sharedMap κ).run (sharedMap κ).start (effective log) := by
  induction inOrder with
  | nil => rfl
  | @concat log command before positive same earlier ih =>
      have inOrder := before.concat positive same earlier
      rw [List.map_append, List.map_singleton, KvData.replay_concat, effective_concat]
      by_cases writes : command.op.Writes
      · have occurs : Occurs log command.op.clientId command.op.requestId ↔
            command ∈ effective log := by
          rw [mem_effective]
          constructor
          · rintro ⟨other, member, client, number⟩
            exact ⟨same other member client number ▸ member, writes⟩
          · rintro ⟨member, _⟩
            exact ⟨command, member, rfl, rfl⟩
        rw [← replay_duplicate_iff inOrder writes] at occurs
        unfold KvData.applyCommand
        split
        · rename_i duplicate
          rw [if_neg fun taken => taken.2 (occurs.mp duplicate)]
          exact ih
        · rename_i fresh
          rw [if_pos ⟨writes, fun member => fresh (occurs.mpr member)⟩, SeqObject.run_append,
            ← ih, KvData.values_executeCommand]
          rfl
      · rw [KvData.applyCommand_of_not_writes _ writes, if_neg fun taken => writes taken.1]
        exact ih

/-! ## What the clerks see -/

/-- The begins and returns of calls. -/
def Service.observe (s : Service κ m) : ServiceAction κ m → List (CallEvent (Command κ) Bytes)
  | .request c operation key value =>
      [.begun { clerk := c, op := (s.clerks c).nextOp operation key value }]
  | .takeReply h =>
      match s.handlers[h]? with
      | none => []
      | some handler =>
          match handler.stage with
          | .replied reply =>
              [.returned handler.command
                (if handler.command.op.operation = .get then reply.result else [])]
          | _ => []
  | _ => []

/-- A step, as the clerks see it. -/
def Service.callStep (archives : Archives) (s : Service κ m) (action : ServiceAction κ m) :
    Option (Service κ m × List (CallEvent (Command κ) Bytes)) :=
  (s.step archives action).map fun result => (result.1, s.observe action)

/-- The runs of a new service, as the clerks see them. -/
abbrev CallRun (archives : Archives) (clientId : κ → Bytes) (maxRaftState : Int)
    (guard : Service κ m → ServiceAction κ m → Prop)
    (history : List (CallEvent (Command κ) Bytes)) (s : Service κ m) : Prop :=
  Run (Service.callStep archives) guard (Service.start clientId maxRaftState) history s

variable {s t : Service κ m} {action : ServiceAction κ m}
  {history seen : List (CallEvent (Command κ) Bytes)}

theorem Service.callStep_eq_some (taken : s.callStep archives action = some (t, seen)) :
    seen = s.observe action ∧ ∃ events, s.step archives action = some (t, events) := by
  unfold Service.callStep at taken
  rw [Option.map_eq_some_iff] at taken
  obtain ⟨⟨target, events⟩, taken, same⟩ := taken
  cases same
  exact ⟨rfl, events, taken⟩

theorem exists_serviceRun {guard : Service κ m → ServiceAction κ m → Prop}
    (run : Run (Service.callStep archives) guard s history t) :
    ∃ events, Run (Service.step archives) guard s events t := by
  induction run with
  | nil => exact ⟨[], .nil⟩
  | snoc _ accepted taken ih =>
      obtain ⟨events, run⟩ := ih
      obtain ⟨_, emitted, taken⟩ := Service.callStep_eq_some taken
      exact ⟨_, run.snoc accepted taken⟩

/-! ## The service and its log object -/

/-- The log object that a service implements. -/
structure Implements (s : Service κ m) (a : LogObject (Command κ) Bytes) : Prop where
  log : a.log = effective s.log
  begun : ∀ command since, a.since command = some since →
    command.op.requestId ≤ (s.clerks command.clerk).requestId
  sent : ∀ command ∈ s.commands, a.since command ≠ none
  outstanding : ∀ c op, (s.clerks c).outstanding = some op →
    a.since ⟨c, op⟩ ≠ none ∧ (⟨c, op⟩ : Command κ) ∉ a.reads.map LogRead.call
  entered : ∀ k, ∀ command ∈ s.log.take k, ∀ since, a.since command = some since →
    since ≤ (effective (s.log.take k)).length
  answers : ∀ handler ∈ s.handlers, handler.command.op.operation = .get →
    ∀ reply, handler.stage.answer = some reply → reply.err ≠ .errWrongLeader →
    ∃ since position, a.since handler.command = some since ∧ since ≤ position ∧
      position ≤ a.log.length ∧
      reply.result = a.state (sharedMap κ) position handler.command.op.key

theorem implements_start (clientId : κ → Bytes) (maxRaftState : Int) :
    Implements (Service.start clientId maxRaftState : Service κ m) LogObject.start where
  log := rfl
  begun := by simp [LogObject.start]
  sent := by simp [Service.start, Service.commands]
  outstanding := by simp [Service.start]
  entered := by simp [Service.start]
  answers := by simp [Service.start]

namespace Implements

variable {a : LogObject (Command κ) Bytes}

/-- The state of the map after the prefix that a server has consumed. -/
theorem state_take (impl : Implements s a) (inv : Consistent archives s) (k : Nat) :
    a.state (sharedMap κ) (effective (s.log.take k)).length =
      (KvData.replay ((s.log.take k).map Command.op)).values := by
  unfold LogObject.state
  rw [impl.log, ← List.prefix_iff_eq_take.mp (effective_take_isPrefix s.log k),
    values_replay (inv.inOrder.take k)]

/-- What a handler may read now. -/
theorem reads (impl : Implements s a) (inv : Consistent archives s) {handler : Handler κ m}
    (member : handler ∈ s.handlers) (answers : handler.stage.Answers) :
    ∃ since position, a.since handler.command = some since ∧ since ≤ position ∧
      position ≤ a.log.length ∧ s.value handler.server handler.command.op.key =
        a.state (sharedMap κ) position handler.command.op.key := by
  have sent : handler.command ∈ s.commands := List.mem_map_of_mem member
  obtain ⟨since, began⟩ := Option.ne_none_iff_exists'.mp (impl.sent _ sent)
  obtain ⟨other, consumed, client, number⟩ := inv.consumed handler member answers
  obtain rfl : other = handler.command := inv.unique other
    (inv.committed other (List.mem_of_mem_take consumed)) _ sent client number
  refine ⟨since, _, began, impl.entered _ _ consumed since began, ?_, ?_⟩
  · rw [impl.log]
    exact (effective_take_isPrefix _ _).length_le
  · rw [impl.state_take inv]
    unfold Service.value KvData.values
    rw [(inv.server handler.server).replica.kvDB]

theorem request (impl : Implements s a) (faithful : LogObject.Faithful (sharedMap κ) history a)
    (inv : Consistent archives s) (c : κ) (operation : Operation) (key value : Bytes) :
    let command : Command κ := { clerk := c, op := (s.clerks c).nextOp operation key value }
    a.since command = none ∧
      Implements { s with
          clerks := Function.update s.clerks c ((s.clerks c).begin operation key value) }
        { a with since := Function.update a.since command (some a.log.length) } := by
  intro command
  have fresh : a.since command = none := by
    cases began : a.since command with
    | none => rfl
    | some since =>
        have le := impl.begun command since began
        simp only [command, Clerk.nextOp] at le
        omega
  have old : ∀ {other : Command κ}, a.since other ≠ none →
      Function.update a.since command (some a.log.length) other = a.since other := by
    intro other began
    apply Function.update_of_ne
    rintro rfl
    exact began fresh
  refine ⟨fresh, ?_⟩
  constructor
  · exact impl.log
  · intro other since began
    dsimp only at began ⊢
    by_cases own : other.clerk = c
    · rw [own, Function.update_self]
      by_cases new : other = command
      · subst new
        exact le_rfl
      · rw [Function.update_of_ne new] at began
        have le := impl.begun other since began
        rw [own] at le
        simp only [Clerk.begin]
        omega
    · have new : other ≠ command := fun same => own (congrArg Command.clerk same)
      rw [Function.update_of_ne new] at began
      rw [Function.update_of_ne own]
      exact impl.begun other since began
  · intro other member
    dsimp only
    have began := impl.sent other member
    rwa [old began]
  · intro c' op sent
    dsimp only at sent ⊢
    by_cases own : c' = c
    · subst own
      rw [Function.update_self] at sent
      cases sent
      refine ⟨by simp [command], fun member => ?_⟩
      obtain ⟨read, inside, same⟩ := List.mem_map.mp member
      obtain ⟨_, since, began, _⟩ := faithful.window read inside
      rw [same, fresh] at began
      cases began
    · rw [Function.update_of_ne own] at sent
      obtain ⟨began, pending⟩ := impl.outstanding c' op sent
      exact ⟨by rwa [old began], pending⟩
  · intro k other member since began
    dsimp only at member began ⊢
    have sent := impl.sent other (inv.committed other (List.mem_of_mem_take member))
    rw [old sent] at began
    exact impl.entered k other member since began
  · intro handler member get reply answer accepted
    obtain ⟨since, position, began, rest⟩ := impl.answers handler member get reply answer accepted
    refine ⟨since, position, ?_, rest⟩
    dsimp only
    rwa [old (by rw [began]; exact Option.some_ne_none _)]

theorem call (impl : Implements s a) {c : κ} {op : Op}
    (sent : (s.clerks c).outstanding = some op) (i : Fin m) :
    Implements { s with
      handlers := s.handlers ++
        [{ command := { clerk := c, op := op }, server := i, stage := .starting }] } a where
  log := impl.log
  begun := impl.begun
  sent := by
    intro command member
    simp only [Service.commands, List.map_append, List.map_singleton, List.mem_append,
      List.mem_singleton] at member
    rcases member with old | rfl
    · exact impl.sent command old
    · exact (impl.outstanding c op sent).1
  outstanding := impl.outstanding
  entered := impl.entered
  answers := by
    intro handler member get reply answer accepted
    rcases List.mem_append.mp member with old | new
    · exact impl.answers handler old get reply answer accepted
    · rw [List.mem_singleton.mp new] at answer
      cases answer

/-- A clerk goes on, and the object has recorded the return of its call. -/
theorem goOn (impl : Implements s a) {command : Command κ}
    {reads : List (LogRead (Command κ) Bytes)}
    (recorded : ∀ other ∈ reads.map LogRead.call,
      other ∈ a.reads.map LogRead.call ∨ other = command) :
    Implements { s with
        clerks := Function.update s.clerks command.clerk
          { s.clerks command.clerk with outstanding := none } }
      { a with reads := reads } where
  log := impl.log
  begun := by
    intro other since began
    dsimp only
    by_cases own : other.clerk = command.clerk
    · rw [own, Function.update_self, ← own]
      exact impl.begun other since began
    · rw [Function.update_of_ne own]
      exact impl.begun other since began
  sent := impl.sent
  outstanding := by
    intro c op running
    dsimp only at running ⊢
    by_cases own : c = command.clerk
    · subst own
      rw [Function.update_self] at running
      cases running
    · rw [Function.update_of_ne own] at running
      obtain ⟨began, pending⟩ := impl.outstanding c op running
      refine ⟨began, fun member => ?_⟩
      rcases recorded _ member with old | same
      · exact pending old
      · exact own (congrArg Command.clerk same)
  entered := impl.entered
  answers := impl.answers

theorem commit (impl : Implements s a) (faithful : LogObject.Faithful (sharedMap κ) history a)
    (command : Command κ) :
    Implements { s with log := s.log ++ [command] }
      { a with log := effective (s.log ++ [command]) } := by
  have grows : a.log <+: effective (s.log ++ [command]) :=
    impl.log ▸ effective_prefix_concat _ _
  constructor
  · rfl
  · exact impl.begun
  · exact impl.sent
  · exact impl.outstanding
  · intro k other member since began
    dsimp only at member began ⊢
    rcases Nat.lt_or_ge s.log.length k with beyond | inside
    · rw [List.take_of_length_le (by rw [List.length_append]; exact beyond)]
      exact (faithful.begun other since began).2.trans grows.length_le
    · rw [List.take_append_of_le_length inside] at member ⊢
      exact impl.entered k other member since began
  · intro handler member get reply answer accepted
    obtain ⟨since, position, began, fresh, bound, result⟩ :=
      impl.answers handler member get reply answer accepted
    refine ⟨since, position, began, fresh, bound.trans grows.length_le, result.trans ?_⟩
    obtain ⟨more, grown⟩ := grows
    simp only [LogObject.state, ← grown, List.take_append_of_le_length bound]

/-- A section of a handler or of an apply loop changes neither the clerks nor
the log. -/
theorem quiet (impl : Implements s a) (inv : Consistent archives s)
    {events : List (ServiceEvent κ m)} (taken : s.step archives action = some (t, events))
    (clerks : t.clerks = s.clerks) (log : t.log = s.log) (commands : t.commands = s.commands) :
    Implements t a where
  log := log ▸ impl.log
  begun := clerks ▸ impl.begun
  sent := commands ▸ impl.sent
  outstanding := clerks ▸ impl.outstanding
  entered := log ▸ impl.entered
  answers := by
    intro handler member get reply answer accepted
    obtain ⟨before, old, sameCommand, sameServer, yields⟩ :=
      Service.step_answer taken member get answer accepted
    rw [← sameCommand] at get ⊢
    rcases yields with had | ⟨reads, result⟩
    · exact impl.answers before old get reply had accepted
    · obtain ⟨since, position, began, fresh, bound, value⟩ := impl.reads inv old reads
      exact ⟨since, position, began, fresh, bound, result.trans value⟩

end Implements

omit [DecidableEq κ] in
/-- A section of a handler changes neither the clerks nor the log, and no
command. -/
theorem HandlerSection.frame {h : Nat} {handler : Handler κ m}
    (ran : HandlerSection s h handler action t) (found : s.handlers[h]? = some handler) :
    t.clerks = s.clerks ∧ t.log = s.log ∧ t.commands = s.commands := by
  obtain ⟨stage, handlers, _⟩ := ran.answer
  have commands : t.commands = s.commands := by
    unfold Service.commands
    rw [handlers]
    apply List.ext_getElem?
    intro k
    by_cases same : h = k
    · subst same
      rw [List.getElem?_map, List.getElem?_map,
        List.getElem?_set_self (List.getElem?_eq_some_iff.mp found).1, found]
      rfl
    · rw [List.getElem?_map, List.getElem?_map, List.getElem?_set_ne same]
  cases ran <;> exact ⟨rfl, rfl, commands⟩

omit [DecidableEq κ] in
theorem LoopSection.log {i : Fin m} {events : List (ServiceEvent κ m)}
    (ran : LoopSection archives s i action t events) : t.log = s.log := by
  cases ran <;> rfl

/-- Every step of the service is one of the log object, or none. -/
theorem Implements.step {a : LogObject (Command κ) Bytes} (impl : Implements s a)
    (run : LogRun (sharedMap κ) history a) (inv : Consistent archives s)
    (taken : s.callStep archives action = some (t, seen)) :
    ∃ a', LogRun (sharedMap κ) (history ++ seen) a' ∧ Implements t a' := by
  have faithful := LogObject.faithful_of_run run
  obtain ⟨rfl, events, taken⟩ := Service.callStep_eq_some taken
  have stutter : s.observe action = [] → Implements t a →
      ∃ a', LogRun (sharedMap κ) (history ++ s.observe action) a' ∧ Implements t a' := by
    intro nothing impl'
    rw [nothing, List.append_nil]
    exact ⟨a, run, impl'⟩
  cases Service.step_section taken with
  | @request c operation key value idle =>
      obtain ⟨fresh, impl'⟩ := impl.request faithful inv c operation key value
      exact ⟨_, run.snoc trivial (LogObject.step_begin fresh), impl'⟩
  | call sent => exact stutter rfl (impl.call sent _)
  | @takeReply h handler reply found replied accepted sent =>
      have member := List.mem_of_getElem? found
      have answer : handler.stage.answer = some reply := by rw [replied]; rfl
      have shown : s.observe (.takeReply h) = [.returned handler.command
          (if handler.command.op.operation = .get then reply.result else [])] := by
        simp only [Service.observe, found, replied]
      rw [shown]
      by_cases get : handler.command.op.operation = .get
      · obtain ⟨since, position, began, fresh, bound, result⟩ :=
          impl.answers handler member get reply answer accepted
        have pending := (impl.outstanding _ _ sent).2
        have response : (sharedMap κ).response (a.state (sharedMap κ) position) handler.command =
            reply.result := (if_pos get).trans result.symm
        rw [if_pos get, ← response]
        refine ⟨_, run.snoc trivial (LogObject.step_returnRead began get pending fresh bound),
          impl.goOn fun other recorded => ?_⟩
        rw [List.map_append] at recorded
        rcases List.mem_append.mp recorded with old | new
        · exact Or.inl old
        · exact Or.inr (List.mem_singleton.mp new)
      · have answers : handler.stage.Answers := by
          rw [replied]
          exact accepted
        obtain ⟨other, consumed, client, number⟩ := inv.consumed handler member answers
        obtain rfl : other = handler.command := inv.unique other
          (inv.committed other (List.mem_of_mem_take consumed)) _
          (List.mem_map_of_mem member) client number
        have effect : handler.command ∈ a.log := by
          rw [impl.log, mem_effective]
          exact ⟨List.mem_of_mem_take consumed, get⟩
        have response : (sharedMap κ).response (sharedMap κ).start handler.command = [] :=
          if_neg get
        rw [if_neg get, ← response]
        exact ⟨_, run.snoc trivial (LogObject.step_returnUpdate effect),
          impl.goOn fun _ => Or.inl⟩
  | @commit proposal command proposed =>
      have sent := inv.proposed command (List.mem_of_getElem? proposed)
      have impl' := impl.commit faithful command
      change ∃ a', LogRun (sharedMap κ) (history ++ []) a' ∧ _
      by_cases new : command.op.Writes ∧ command ∉ effective s.log
      · rw [effective_concat, if_pos new, ← impl.log] at impl'
        rw [← impl.log] at new
        exact ⟨_, run.snoc trivial
          (LogObject.step_takeEffect (impl.sent command sent) new.1 new.2), impl'⟩
      · rw [effective_concat, if_neg new, ← impl.log] at impl'
        rw [List.append_nil]
        exact ⟨a, run, impl'⟩
  | handler found ran =>
      obtain ⟨clerks, log, commands⟩ := ran.frame found
      refine stutter ?_ (impl.quiet inv taken clerks log commands)
      cases ran <;> rfl
  | server ran =>
      obtain ⟨clerks, handlers⟩ := ran.handlers
      refine stutter ?_ (impl.quiet inv taken clerks ran.log (congrArg (List.map _) handlers))
      cases ran <;> rfl

/-! ## Runs -/

theorem consistent_of_callRun {clientId : κ → Bytes} {maxRaftState : Int}
    (distinct : Function.Injective clientId)
    (run : CallRun archives clientId maxRaftState ReadsForward history s) :
    Consistent archives s := by
  obtain ⟨events, run⟩ := exists_serviceRun run
  exact (consistent_start clientId maxRaftState).run (fun _ _ both => both.2)
    (fun _ _ both => both.1) (ownId_of_run distinct run)

/-- A run of the service is one of a log object. -/
theorem exists_logRun {clientId : κ → Bytes} {maxRaftState : Int}
    (distinct : Function.Injective clientId)
    (run : CallRun archives clientId maxRaftState ReadsForward history s) :
    ∃ a, LogRun (sharedMap κ) history a ∧ Implements s a := by
  induction run with
  | nil => exact ⟨.start, .nil, implements_start clientId maxRaftState⟩
  | snoc before _ taken ih =>
      obtain ⟨a, run, impl⟩ := ih
      exact impl.step run (consistent_of_callRun distinct before) taken

/-- Every run of clerks with distinct ids in which commands and snapshots reach
each server in the order of their indexes and no late read moves a mark back,
with any number of lost and repeated calls, stale leaders and installed
snapshots. -/
theorem linearizable {κ : Type} [DecidableEq κ] {m : Nat} {archives : Archives}
    {clientId : κ → Bytes} {maxRaftState : Int} (distinct : Function.Injective clientId)
    {history : List (CallEvent (Command κ) Bytes)} {s : Service κ m}
    (run : CallRun archives clientId maxRaftState ReadsForward history s) :
    Linearizable (sharedMap κ) history := by
  obtain ⟨a, run, _⟩ := exists_logRun distinct run
  exact LogObject.linearizable_of_run run

/-- A Put of one clerk and an overlapping Get of another one, sent to a stale
leader first. -/
theorem linearizable_retriedGet :
    ∃ (history : List (CallEvent (Command Bool) Bytes)) (s : Service Bool 2) (get : Command Bool),
      CallRun noArchives (fun clerk => text (toString clerk)) (-1) ReadsForward history s ∧
      (.returned get (text "v") ∈ history ∧ get.op.operation = .get) ∧
      Linearizable (sharedMap Bool) history := by
  obtain ⟨history, s, run, checked⟩ := exists_run_of_exec (Service.callStep noArchives) ReadsForward
    (Service.start (fun clerk => text (toString clerk)) (-1) : Service Bool 2)
    (List.flatten
      [[.request false .put (text "k") (text "v"), .call false 0, .startConses 0 (some 1),
          .createWaitCh 0, .request true .get (text "k") [], .commit 0],
        consume 0, [.timeOutPop 0 false, .deleteWaitCh 0, .takeReply 0], retriedGet true 1 0,
        [.takeReply 3]])
    (fun result : Service Bool 2 × List (CallEvent (Command Bool) Bytes) =>
      result.2.any fun event : CallEvent (Command Bool) Bytes =>
        match event with
        | .begun _ => false
        | .returned command value =>
            decide (value = text "v" ∧ command.op.operation = .get))
    (by decide +kernel)
  obtain ⟨event, member, shown⟩ := List.any_eq_true.mp checked
  have distinct : Function.Injective fun clerk : Bool => text (toString clerk) :=
    Bool.injective_iff.mpr (by decide)
  cases event with
  | begun command => cases shown
  | returned command value =>
      obtain ⟨rfl, get⟩ := of_decide_eq_true shown
      exact ⟨history, s, command, run, ⟨member, get⟩, linearizable distinct run⟩

end CppRaft.Kv
