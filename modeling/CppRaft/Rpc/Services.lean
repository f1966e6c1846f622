import CppRaft.Kv.Core
import CppRaft.Rpc.Request
import CppRaft.Wire.Message

/-!
# The services of a server

A server publishes `kvServerRpc` for the clerks and `raftRpc` for the other
nodes.  The fields of their request messages are numbers, byte strings and, in
`AppendEntriesArgs`, the entries of a log.
-/

namespace CppRaft.Rpc

open CppRaft.Kv
open CppRaft.RaftCore
open CppRaft.Store
open CppRaft.Wire

/-! ## The messages -/

/-- The message `GetArgs`. -/
structure GetArgs where
  key : Bytes
  clientId : Bytes
  requestId : Int
deriving DecidableEq

/-- The message `PutAppendArgs`. -/
structure PutAppendArgs where
  key : Bytes
  value : Bytes
  op : Bytes
  clientId : Bytes
  requestId : Int
deriving DecidableEq

/-- `LogEntry` of `raftRPC.proto`. -/
def logEntry : Schema LogEntry where
  blank := [.bytes [], .number 0, .number 0]
  fields := fun entry => [.bytes entry.command, .ofInt entry.logTerm, .ofInt entry.logIndex]
  ofFields
    | [.bytes command, .number logTerm, .number logIndex] =>
        some { command, logTerm := int32 logTerm, logIndex := int32 logIndex }
    | _ => none
  Valid := fun entry => IsInt32 entry.logTerm ∧ IsInt32 entry.logIndex
  few := by decide
  blank_fields := fun _ => rfl
  ofFields_fields := by
    rintro entry ⟨logTerm, logIndex⟩ -
    simp only [int32_signExtend, logTerm, logIndex]

/-- `AppendEntriesArgs`, whose entries are messages of their own. -/
def appendEntriesArgs (unknown : UnknownFields) : Schema AppendEntriesArgs where
  blank := [.number 0, .number 0, .number 0, .number 0, .messages [], .number 0]
  fields := fun args =>
    [.ofInt args.term, .ofInt args.leaderId, .ofInt args.prevLogIndex, .ofInt args.prevLogTerm,
      .messages (args.entries.map logEntry.write), .ofInt args.leaderCommit]
  ofFields
    | [.number term, .number leaderId, .number prevLogIndex, .number prevLogTerm,
        .messages entries, .number leaderCommit] =>
        (entries.mapM (logEntry.read unknown)).map fun entries =>
          { term := int32 term
            leaderId := int32 leaderId
            prevLogIndex := int32 prevLogIndex
            prevLogTerm := int32 prevLogTerm
            entries := entries
            leaderCommit := int32 leaderCommit }
    | _ => none
  Valid := fun args => IsInt32 args.term ∧ IsInt32 args.leaderId ∧ IsInt32 args.prevLogIndex ∧
    IsInt32 args.prevLogTerm ∧ (∀ entry ∈ args.entries, logEntry.Valid entry) ∧
    IsInt32 args.leaderCommit
  few := by decide
  blank_fields := fun _ => rfl
  ofFields_fields := by
    rintro args ⟨term, leaderId, prevLogIndex, prevLogTerm, entries, leaderCommit⟩ fits
    have blocks : Field.Fits (.messages (args.entries.map logEntry.write)) := fits _ (by simp)
    have read := Schema.mapM_read_write unknown entries
      fun entry member => blocks _ (List.mem_map_of_mem member)
    simp only [read, Option.map_some, int32_signExtend, term, leaderId, prevLogIndex, prevLogTerm,
      leaderCommit]

/-- `InstallSnapshotRequest`. -/
def installSnapshotRequest : Schema InstallSnapshotRequest where
  blank := [.number 0, .number 0, .number 0, .number 0, .bytes []]
  fields := fun args =>
    [.ofInt args.leaderId, .ofInt args.term, .ofInt args.lastSnapShotIncludeIndex,
      .ofInt args.lastSnapShotIncludeTerm, .bytes args.data]
  ofFields
    | [.number leaderId, .number term, .number lastSnapShotIncludeIndex,
        .number lastSnapShotIncludeTerm, .bytes data] =>
        some
          { leaderId := int32 leaderId
            term := int32 term
            lastSnapShotIncludeIndex := int32 lastSnapShotIncludeIndex
            lastSnapShotIncludeTerm := int32 lastSnapShotIncludeTerm
            data := data }
    | _ => none
  Valid := fun args => IsInt32 args.leaderId ∧ IsInt32 args.term ∧
    IsInt32 args.lastSnapShotIncludeIndex ∧ IsInt32 args.lastSnapShotIncludeTerm
  few := by decide
  blank_fields := fun _ => rfl
  ofFields_fields := by
    rintro args ⟨leaderId, term, lastSnapShotIncludeIndex, lastSnapShotIncludeTerm⟩ -
    simp only [int32_signExtend, leaderId, term, lastSnapShotIncludeIndex,
      lastSnapShotIncludeTerm]

/-- `RequestVoteArgs`. -/
def requestVoteArgs : Schema RequestVoteArgs where
  blank := [.number 0, .number 0, .number 0, .number 0]
  fields := fun args =>
    [.ofInt args.term, .ofInt args.candidateId, .ofInt args.lastLogIndex, .ofInt args.lastLogTerm]
  ofFields
    | [.number term, .number candidateId, .number lastLogIndex, .number lastLogTerm] =>
        some
          { term := int32 term
            candidateId := int32 candidateId
            lastLogIndex := int32 lastLogIndex
            lastLogTerm := int32 lastLogTerm }
    | _ => none
  Valid := fun args => IsInt32 args.term ∧ IsInt32 args.candidateId ∧
    IsInt32 args.lastLogIndex ∧ IsInt32 args.lastLogTerm
  few := by decide
  blank_fields := fun _ => rfl
  ofFields_fields := by
    rintro args ⟨term, candidateId, lastLogIndex, lastLogTerm⟩ -
    simp only [int32_signExtend, term, candidateId, lastLogIndex, lastLogTerm]

/-- `PutAppendArgs` of `kvServerRPC.proto`. -/
def putAppendArgs : Schema PutAppendArgs where
  blank := [.bytes [], .bytes [], .bytes [], .bytes [], .number 0]
  fields := fun args =>
    [.bytes args.key, .bytes args.value, .bytes args.op, .bytes args.clientId,
      .ofInt args.requestId]
  ofFields
    | [.bytes key, .bytes value, .bytes op, .bytes clientId, .number requestId] =>
        some { key, value, op, clientId, requestId := int32 requestId }
    | _ => none
  Valid := fun args => IsInt32 args.requestId
  few := by decide
  blank_fields := fun _ => rfl
  ofFields_fields := by
    intro args requestId _
    simp only [int32_signExtend requestId]

/-- `GetArgs`. -/
def getArgs : Schema GetArgs where
  blank := [.bytes [], .bytes [], .number 0]
  fields := fun args => [.bytes args.key, .bytes args.clientId, .ofInt args.requestId]
  ofFields
    | [.bytes key, .bytes clientId, .number requestId] =>
        some { key, clientId, requestId := int32 requestId }
    | _ => none
  Valid := fun args => IsInt32 args.requestId
  few := by decide
  blank_fields := fun _ => rfl
  ofFields_fields := by
    intro args requestId _
    simp only [int32_signExtend requestId]

/-! ## Messages without negative numbers -/

theorem least_logEntry {entry : LogEntry} (logTerm : 0 ≤ entry.logTerm)
    (logIndex : 0 ≤ entry.logIndex) : logEntry.Least entry := by
  intro fields built
  simp only [logEntry] at built
  split at built
  · obtain rfl := Option.some.inj built
    dsimp only at logTerm logIndex
    simp only [logEntry, List.forall₂_cons, List.Forall₂.nil, and_true]
    exact ⟨.refl _, Field.shorter_int32 logTerm, Field.shorter_int32 logIndex⟩
  · cases built

theorem least_appendEntriesArgs {unknown : UnknownFields} {args : AppendEntriesArgs}
    (term : 0 ≤ args.term) (leaderId : 0 ≤ args.leaderId) (prevLogIndex : 0 ≤ args.prevLogIndex)
    (prevLogTerm : 0 ≤ args.prevLogTerm)
    (entries : ∀ entry ∈ args.entries, 0 ≤ entry.logTerm ∧ 0 ≤ entry.logIndex)
    (leaderCommit : 0 ≤ args.leaderCommit) : (appendEntriesArgs unknown).Least args := by
  intro fields built
  simp only [appendEntriesArgs] at built
  split at built
  · obtain ⟨read, parsed, same⟩ := Option.map_eq_some_iff.mp built
    subst same
    have blocks := Schema.forall₂_write_length_le
      (fun entry member => least_logEntry (entries entry member).1 (entries entry member).2) parsed
    dsimp only at term leaderId prevLogIndex prevLogTerm leaderCommit
    simp only [appendEntriesArgs, List.forall₂_cons, List.Forall₂.nil, and_true]
    exact ⟨Field.shorter_int32 term, Field.shorter_int32 leaderId, Field.shorter_int32 prevLogIndex,
      Field.shorter_int32 prevLogTerm, Field.shorter_messages blocks,
      Field.shorter_int32 leaderCommit⟩
  · cases built

theorem least_installSnapshotRequest {args : InstallSnapshotRequest} (leaderId : 0 ≤ args.leaderId)
    (term : 0 ≤ args.term) (index : 0 ≤ args.lastSnapShotIncludeIndex)
    (snapshotTerm : 0 ≤ args.lastSnapShotIncludeTerm) : installSnapshotRequest.Least args := by
  intro fields built
  simp only [installSnapshotRequest] at built
  split at built
  · obtain rfl := Option.some.inj built
    dsimp only at leaderId term index snapshotTerm
    simp only [installSnapshotRequest, List.forall₂_cons, List.Forall₂.nil, and_true]
    exact ⟨Field.shorter_int32 leaderId, Field.shorter_int32 term, Field.shorter_int32 index,
      Field.shorter_int32 snapshotTerm, .refl _⟩
  · cases built

theorem least_requestVoteArgs {args : RequestVoteArgs} (term : 0 ≤ args.term)
    (candidateId : 0 ≤ args.candidateId) (lastLogIndex : 0 ≤ args.lastLogIndex)
    (lastLogTerm : 0 ≤ args.lastLogTerm) : requestVoteArgs.Least args := by
  intro fields built
  simp only [requestVoteArgs] at built
  split at built
  · obtain rfl := Option.some.inj built
    dsimp only at term candidateId lastLogIndex lastLogTerm
    simp only [requestVoteArgs, List.forall₂_cons, List.Forall₂.nil, and_true]
    exact ⟨Field.shorter_int32 term, Field.shorter_int32 candidateId,
      Field.shorter_int32 lastLogIndex, Field.shorter_int32 lastLogTerm⟩
  · cases built

theorem least_putAppendArgs {args : PutAppendArgs} (requestId : 0 ≤ args.requestId) :
    putAppendArgs.Least args := by
  intro fields built
  simp only [putAppendArgs] at built
  split at built
  · obtain rfl := Option.some.inj built
    dsimp only at requestId
    simp only [putAppendArgs, List.forall₂_cons, List.Forall₂.nil, and_true]
    exact ⟨.refl _, .refl _, .refl _, .refl _, Field.shorter_int32 requestId⟩
  · cases built

theorem least_getArgs {args : GetArgs} (requestId : 0 ≤ args.requestId) : getArgs.Least args := by
  intro fields built
  simp only [getArgs] at built
  split at built
  · obtain rfl := Option.some.inj built
    dsimp only at requestId
    simp only [getArgs, List.forall₂_cons, List.Forall₂.nil, and_true]
    exact ⟨.refl _, .refl _, Field.shorter_int32 requestId⟩
  · cases built

/-! ## The methods -/

/-- The methods of both services. -/
inductive Method
  | appendEntries
  | installSnapshot
  | requestVote
  | putAppend
  | get
deriving DecidableEq

namespace Method

/-- The request of a method. -/
abbrev Args : Method → Type
  | .appendEntries => AppendEntriesArgs
  | .installSnapshot => InstallSnapshotRequest
  | .requestVote => RequestVoteArgs
  | .putAppend => PutAppendArgs
  | .get => GetArgs

/-- The name of the service that a method belongs to. -/
def service : Method → Bytes
  | .appendEntries | .installSnapshot | .requestVote => text "raftRpc"
  | .putAppend | .get => text "kvServerRpc"

/-- The name of a method. -/
def name : Method → Bytes
  | .appendEntries => text "AppendEntries"
  | .installSnapshot => text "InstallSnapshot"
  | .requestVote => text "RequestVote"
  | .putAppend => text "PutAppend"
  | .get => text "Get"

/-- How the requests of a method are messages. -/
def schema (unknown : UnknownFields) : (method : Method) → Schema method.Args
  | .appendEntries => appendEntriesArgs unknown
  | .installSnapshot => installSnapshotRequest
  | .requestVote => requestVoteArgs
  | .putAppend => putAppendArgs
  | .get => getArgs

/-- No number of the arguments is negative. -/
def NonNeg : (method : Method) → method.Args → Prop
  | .appendEntries, args => 0 ≤ args.term ∧ 0 ≤ args.leaderId ∧ 0 ≤ args.prevLogIndex ∧
      0 ≤ args.prevLogTerm ∧ (∀ entry ∈ args.entries, 0 ≤ entry.logTerm ∧ 0 ≤ entry.logIndex) ∧
      0 ≤ args.leaderCommit
  | .installSnapshot, args => 0 ≤ args.leaderId ∧ 0 ≤ args.term ∧
      0 ≤ args.lastSnapShotIncludeIndex ∧ 0 ≤ args.lastSnapShotIncludeTerm
  | .requestVote, args => 0 ≤ args.term ∧ 0 ≤ args.candidateId ∧ 0 ≤ args.lastLogIndex ∧
      0 ≤ args.lastLogTerm
  | .putAppend, args => 0 ≤ args.requestId
  | .get, args => 0 ≤ args.requestId

theorem least {unknown : UnknownFields} {method : Method} {args : method.Args}
    (nonneg : method.NonNeg args) : (method.schema unknown).Least args := by
  cases method with
  | appendEntries =>
      obtain ⟨term, leaderId, prevLogIndex, prevLogTerm, entries, leaderCommit⟩ := nonneg
      exact least_appendEntriesArgs term leaderId prevLogIndex prevLogTerm entries leaderCommit
  | installSnapshot =>
      obtain ⟨leaderId, term, index, snapshotTerm⟩ := nonneg
      exact least_installSnapshotRequest leaderId term index snapshotTerm
  | requestVote =>
      obtain ⟨term, candidateId, lastLogIndex, lastLogTerm⟩ := nonneg
      exact least_requestVoteArgs term candidateId lastLogIndex lastLogTerm
  | putAppend => exact least_putAppendArgs nonneg
  | get => exact least_getArgs nonneg

/-- The search for the descriptor of a method. -/
def find (service name : Bytes) : Option Method :=
  [.appendEntries, .installSnapshot, .requestVote, .putAppend, .get].find? fun method : Method =>
    method.service = service ∧ method.name = name

theorem find_eq_some {service name : Bytes} {method : Method} :
    find service name = some method ↔ method.service = service ∧ method.name = name := by
  constructor
  · intro found
    unfold find at found
    have matched := List.find?_some found
    exact of_decide_eq_true matched
  · rintro ⟨rfl, rfl⟩
    cases method <;> decide

end Method

/-! ## Requests -/

/-- A method with its arguments. -/
abbrev Request : Type :=
  Sigma Method.Args

namespace Request

/-- The call of a stub. -/
def call (request : Request) : Call Request where
  service := request.1.service
  method := request.1.name
  request := request

/-- The numbers of the arguments are of type `int32`. -/
def Valid (unknown : UnknownFields) (request : Request) : Prop :=
  (request.1.schema unknown).Valid request.2

end Request

/-- What a reader does with the fields that it does not know. -/
def UnknownFieldParse.fields (unknown : UnknownFieldParse) : UnknownFields where
  skip := unknown.skip
  consumes := unknown.consumes

/-- The messages of both services. -/
def serviceMessages (unknown : UnknownFieldParse) : Messages Request where
  serialize := fun request => (request.1.schema unknown.fields).write request.2
  parse := fun service name input =>
    (Method.find service name).bind fun method =>
      ((method.schema unknown.fields).read unknown.fields input).map fun args => ⟨method, args⟩
  unknown := unknown

/-- `NotifyService`: a service that is there already stays as it is. -/
def RpcProvider.notifyService (provider : RpcProvider) (service : Bytes) (methods : List Bytes)
    (named : service ≠ []) : RpcProvider where
  serviceMap :=
    if (provider.serviceMap.lookup service).isSome then provider.serviceMap
    else provider.serviceMap ++ [(service, methods)]
  named := by
    intro entry member
    split at member
    · exact provider.named entry member
    · rcases List.mem_append.mp member with old | new
      · exact provider.named entry old
      · rw [List.mem_singleton.mp new]
        exact named

/-- The provider that the constructor of `KvServer` starts. -/
def kvServerProvider : RpcProvider :=
  let provider : RpcProvider := { serviceMap := [], named := List.forall_mem_nil _ }
  (provider.notifyService (text "kvServerRpc") [text "PutAppend", text "Get"]
    (by decide)).notifyService (text "raftRpc")
      [text "AppendEntries", text "InstallSnapshot", text "RequestVote"] (by decide)

theorem kvServerProvider_provides (method : Method) :
    kvServerProvider.provides method.service method.name = true := by
  cases method <;> decide

variable {unknown : UnknownFieldParse}

/-- A request that is written is read back. -/
theorem parse_serialize {request : Request} (valid : request.Valid unknown.fields)
    (short : ((serviceMessages unknown).serialize request).length < 2 ^ 31) :
    (serviceMessages unknown).parse request.1.service request.1.name
      ((serviceMessages unknown).serialize request) = some request := by
  have found : Method.find request.1.service request.1.name = some request.1 :=
    Method.find_eq_some.mpr ⟨rfl, rfl⟩
  have read := Schema.read_write unknown.fields valid short
  simp only [serviceMessages, found, Option.bind_some] at read ⊢
  rw [read]
  rfl

theorem shortest {request : Request} (nonneg : request.1.NonNeg request.2) :
    (serviceMessages unknown).Shortest request.call := by
  obtain ⟨method, args⟩ := request
  intro input parsed
  have found : Method.find method.service method.name = some method :=
    Method.find_eq_some.mpr ⟨rfl, rfl⟩
  simp only [serviceMessages, Request.call, found, Option.bind_some,
    Option.map_eq_some_iff] at parsed
  obtain ⟨args', read, same⟩ := parsed
  cases same
  exact Schema.write_length_le (Method.least nonneg) read

/-- A call that is dispatched is the call of its request. -/
theorem eq_call_of_onMessage {provider : RpcProvider} {buffer : Bytes} {call : Call Request}
    (dispatched : provider.onMessage (serviceMessages unknown) buffer = some call) :
    call = call.request.call := by
  obtain ⟨_, _, _, _, _, _, argsStr, _, _, _, _, _, _, _, _, parsed⟩ :=
    onMessage_eq_some dispatched
  obtain ⟨method, found, read⟩ := Option.bind_eq_some_iff.mp parsed
  obtain ⟨args, _, same⟩ := Option.map_eq_some_iff.mp read
  obtain ⟨service, name⟩ := Method.find_eq_some.mp found
  obtain ⟨service', method', request⟩ := call
  dsimp only at same service name
  rw [← same, ← service, ← name]
  rfl

/-! ## Requests on a connection -/

/-- Buffers that give all items hold the bytes of one item each, when every item
needs as many bytes as were sent for it. -/
theorem wholeCalls_of_filterMap {γ : Type} {read : Bytes → Option γ} {items : List γ}
    {sent buffers : List Bytes} (idle : read [] = none)
    (needs : List.Forall₂ (fun item bytes => bytes ≠ [] ∧
      ∀ buffer, read buffer = some item → bytes.length ≤ (arrayInput buffer).length) items sent)
    (delivered : buffers.flatten = sent.flatten) (got : buffers.filterMap read = items) :
    WholeCalls sent buffers := by
  have room : List.Forall₂ (fun item bytes => bytes ≠ [] ∧
      ∀ buffer, read buffer = some item → bytes.length ≤ buffer.length) items sent :=
    needs.imp fun item bytes need =>
      ⟨need.1, fun buffer taken => (need.2 buffer taken).trans (arrayInput_length_le buffer)⟩
  have one := filled_of_filterMap_eq delivered room got
  rw [← filterMap_filled idle, one] at got
  have reads := forall₂_of_filterMap_eq got needs.length_eq.symm
  refine ⟨one, ?_⟩
  clear got room one delivered
  induction needs with
  | nil => exact List.forall_mem_nil _
  | cons need _ ih =>
      cases reads with
      | cons taken reads =>
          rw [List.forall_mem_cons]
          exact ⟨Nat.lt_of_le_of_lt (need.2 _ taken) (arrayInput_length_lt _), ih reads⟩

section Connection

variable {requests : List Request} {sent buffers : List Bytes}

/-- The bytes of a request are dispatched as its call. -/
theorem reads_requests
    (written : requests.map (fun request => sendRpcStr (serviceMessages unknown) request.call) =
      sent.map some) (valid : ∀ request ∈ requests, request.Valid unknown.fields)
    (short : ∀ bytes ∈ sent, bytes.length < 2 ^ 31) :
    List.Forall₂ (fun request bytes =>
      kvServerProvider.onMessage (serviceMessages unknown) bytes = some request.call)
      requests sent := by
  rw [← List.forall₂_eq_eq_eq, List.forall₂_map_left_iff, List.forall₂_map_right_iff] at written
  induction written with
  | nil => exact List.Forall₂.nil
  | @cons request bytes _ _ first _ ih =>
      rw [List.forall_mem_cons] at valid short
      have args := (sendRpcStr_eq_some first).1
      exact List.Forall₂.cons
        (onMessage_of_sendRpcStr first short.1 (kvServerProvider_provides request.1)
          (parse_serialize valid.1 args))
        (ih valid.2 short.2)

/-- A buffer that gives the call of a request has room for its bytes. -/
theorem needs_requests
    (written : requests.map (fun request => sendRpcStr (serviceMessages unknown) request.call) =
      sent.map some) (nonneg : ∀ request ∈ requests, request.1.NonNeg request.2) :
    List.Forall₂ (fun (request : Request) bytes => bytes ≠ [] ∧ ∀ buffer,
      kvServerProvider.onMessage (serviceMessages unknown) buffer = some request.call →
        bytes.length ≤ (arrayInput buffer).length) requests sent := by
  rw [← List.forall₂_eq_eq_eq, List.forall₂_map_left_iff, List.forall₂_map_right_iff] at written
  induction written with
  | nil => exact List.Forall₂.nil
  | cons first _ ih =>
      rw [List.forall_mem_cons] at nonneg
      refine List.Forall₂.cons ⟨sendRpcStr_ne_nil first, ?_⟩ (ih nonneg.2)
      intro buffer dispatched
      exact length_le_of_onMessage first (shortest nonneg.1) dispatched

/-- The provider of a server dispatches the requests of a connection when every
buffer holds one of them, and, as long as no number is negative, only then. -/
theorem requests_served
    (written : requests.map (fun request => sendRpcStr (serviceMessages unknown) request.call) =
      sent.map some) (delivered : buffers.flatten = sent.flatten)
    (valid : ∀ request ∈ requests, request.Valid unknown.fields) :
    (WholeCalls sent buffers →
      buffers.filterMap (kvServerProvider.onMessage (serviceMessages unknown)) =
        requests.map Request.call) ∧
    ((∀ request ∈ requests, request.1.NonNeg request.2) →
      buffers.filterMap (kvServerProvider.onMessage (serviceMessages unknown)) =
        requests.map Request.call → WholeCalls sent buffers) := by
  constructor
  · intro whole
    have reads := reads_requests written valid whole.short
    exact filterMap_eq_of_filled onMessage_nil (List.forall₂_map_left_iff.mpr reads) whole.filled
  · intro nonneg got
    have needs := needs_requests written nonneg
    exact wholeCalls_of_filterMap onMessage_nil (List.forall₂_map_left_iff.mpr needs) delivered got

end Connection

/-- The bytes of a request for a server that knows all its fields. -/
def requestBytes (request : Request) : Bytes :=
  (sendRpcStr (serviceMessages noUnknown) request.call).getD []

/-- A vote is asked for and a log entry sent, in a buffer each. -/
theorem requests_served_oneEntry :
    let vote : Request := ⟨.requestVote, ⟨1, 0, 0, 0⟩⟩
    let append : Request := ⟨.appendEntries, ⟨1, 0, 0, 0, [⟨[7], 1, 1⟩], 0⟩⟩
    [requestBytes vote, [], requestBytes append].filterMap
        (kvServerProvider.onMessage (serviceMessages noUnknown)) = [vote.call, append.call] := by
  intro vote append
  have written : [vote, append].map
      (fun request => sendRpcStr (serviceMessages noUnknown) request.call) =
      [requestBytes vote, requestBytes append].map some := by decide +kernel
  have whole : WholeCalls [requestBytes vote, requestBytes append]
      [requestBytes vote, [], requestBytes append] := ⟨by decide +kernel, by decide +kernel⟩
  have valid : ∀ request ∈ [vote, append], request.Valid noUnknown.fields := by
    have vote' : requestVoteArgs.Valid vote.2 := by
      refine ⟨?_, ?_, ?_, ?_⟩ <;> decide
    have append' : (appendEntriesArgs noUnknown.fields).Valid append.2 := by
      refine ⟨?_, ?_, ?_, ?_, List.forall_mem_singleton.mpr ⟨?_, ?_⟩, ?_⟩ <;> decide
    exact List.forall_mem_cons.mpr ⟨vote', List.forall_mem_singleton.mpr append'⟩
  exact (requests_served written (by decide +kernel) valid).1 whole

/-! ## Commands of clerks -/

/-- The request that `Clerk::Get` or `Clerk::PutAppend` sends. -/
def request (op : Op) : Request :=
  match op.operation with
  | .get => ⟨.get, { key := op.key, clientId := op.clientId, requestId := op.requestId }⟩
  | .put => ⟨.putAppend,
      { key := op.key
        value := op.value
        op := text "Put"
        clientId := op.clientId
        requestId := op.requestId }⟩
  | .append => ⟨.putAppend,
      { key := op.key
        value := op.value
        op := text "Append"
        clientId := op.clientId
        requestId := op.requestId }⟩

/-- The `Op` that the handler of a request makes.  Clerks send no other
operation of `PutAppend` than these two. -/
def Request.op : Request → Option Op
  | ⟨.get, args⟩ =>
      some
        { operation := .get
          key := args.key
          value := []
          clientId := args.clientId
          requestId := args.requestId }
  | ⟨.putAppend, args⟩ =>
      (if args.op = text "Put" then some Operation.put
        else if args.op = text "Append" then some Operation.append else none).map fun operation =>
        { operation
          key := args.key
          value := args.value
          clientId := args.clientId
          requestId := args.requestId }
  | ⟨.appendEntries, _⟩ | ⟨.installSnapshot, _⟩ | ⟨.requestVote, _⟩ => none

theorem op_request {op : Op} (plain : op.operation = .get → op.value = []) :
    (request op).op = some op := by
  obtain ⟨operation, key, value, clientId, requestId⟩ := op
  cases operation with
  | get =>
      obtain rfl : value = [] := plain rfl
      rfl
  | put => rfl
  | append =>
      have other : text "Append" ≠ text "Put" := by decide
      simp only [request, Request.op, other, if_false, if_true, Option.map_some]

theorem eq_request_of_op {request' : Request} {op : Op} (made : request'.op = some op) :
    request' = request op := by
  obtain ⟨method, args⟩ := request'
  cases method with
  | appendEntries | installSnapshot | requestVote => cases made
  | get =>
      cases made
      rfl
  | putAppend =>
      obtain ⟨operation, read, same⟩ := Option.map_eq_some_iff.mp made
      obtain ⟨key, value, name, clientId, requestId⟩ := args
      dsimp only at read same
      split at read
      · rename_i put
        cases read
        subst same put
        rfl
      · rw [Option.ite_none_right_eq_some] at read
        obtain ⟨append, read⟩ := read
        cases read
        subst same append
        rfl

/-- What the handler of a call makes of the bytes in a buffer. -/
def servedOp (unknown : UnknownFieldParse) (buffer : Bytes) : Option Op :=
  (kvServerProvider.onMessage (serviceMessages unknown) buffer).bind fun call => call.request.op

/-- The handlers of a server serve the commands that clerks send over a
connection exactly when every buffer holds one of them. -/
theorem ops_served_iff {ops : List Op} {sent buffers : List Bytes}
    (written : ops.map (fun op => sendRpcStr (serviceMessages unknown) (request op).call) =
      sent.map some) (delivered : buffers.flatten = sent.flatten)
    (plain : ∀ op ∈ ops, op.operation = .get → op.value = [])
    (numbers : ∀ op ∈ ops, 0 ≤ op.requestId ∧ op.requestId < 2 ^ 31) :
    buffers.filterMap (servedOp unknown) = ops ↔ WholeCalls sent buffers := by
  have idle : servedOp unknown [] = none := by
    rw [servedOp, onMessage_nil]
    rfl
  have written' : (ops.map request).map
      (fun request => sendRpcStr (serviceMessages unknown) request.call) = sent.map some := by
    rw [List.map_map]
    exact written
  have valid : ∀ request' ∈ ops.map request, request'.Valid unknown.fields := by
    intro request' member
    obtain ⟨op, inside, rfl⟩ := List.mem_map.mp member
    have bounds := numbers op inside
    have within : IsInt32 op.requestId := ⟨by omega, bounds.2⟩
    unfold request
    cases op.operation <;> exact within
  have nonneg : ∀ request' ∈ ops.map request, request'.1.NonNeg request'.2 := by
    intro request' member
    obtain ⟨op, inside, rfl⟩ := List.mem_map.mp member
    have bounds := numbers op inside
    unfold request
    cases op.operation <;> exact bounds.1
  constructor
  · intro got
    have needs := List.forall₂_map_left_iff.mp (needs_requests written' nonneg)
    refine wholeCalls_of_filterMap idle (needs.imp ?_) delivered got
    intro op bytes need
    refine ⟨need.1, fun buffer served => need.2 buffer ?_⟩
    obtain ⟨call, dispatched, made⟩ := Option.bind_eq_some_iff.mp served
    rw [dispatched, eq_call_of_onMessage dispatched, eq_request_of_op made]
  · intro whole
    have reads := List.forall₂_map_left_iff.mp (reads_requests written' valid whole.short)
    refine filterMap_eq_of_filled idle ?_ whole.filled
    clear written written' valid nonneg numbers delivered whole idle
    induction reads with
    | nil => exact List.Forall₂.nil
    | cons first _ ih =>
        rw [List.forall_mem_cons] at plain
        refine List.Forall₂.cons ?_ (ih plain.2)
        rw [servedOp, first]
        exact op_request plain.1

/-- A Put and a Get arrive in a buffer each. -/
theorem ops_served_putGet :
    let put : Op := ⟨.put, text "k", text "v", text "c", 1⟩
    let get : Op := ⟨.get, text "k", [], text "c", 2⟩
    [requestBytes (request put), requestBytes (request get)].filterMap (servedOp noUnknown) =
      [put, get] := by
  intro put get
  have written : [put, get].map
      (fun op => sendRpcStr (serviceMessages noUnknown) (request op).call) =
      [requestBytes (request put), requestBytes (request get)].map some := by decide +kernel
  have whole : WholeCalls [requestBytes (request put), requestBytes (request get)]
      [requestBytes (request put), requestBytes (request get)] :=
    ⟨by decide +kernel, by decide +kernel⟩
  exact (ops_served_iff written rfl (by decide) (by decide)).mpr whole

end CppRaft.Rpc
