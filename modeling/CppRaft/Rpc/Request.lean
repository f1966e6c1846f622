import CppRaft.Rpc.Header
import CppRaft.Wire.Framing

/-!
# Requests on a connection

`MprpcChannel::CallMethod` sends the length of a header, the header and the
arguments.  `RpcProvider::OnMessage` takes everything that it finds in its
buffer, reads one call from it and forgets the rest.
-/

namespace CppRaft.Rpc

open CppRaft.Store
open CppRaft.Wire

universe u

variable {μ : Type u}

/-- The request messages of all methods.  `parse` reads a message of the request
type of a service and a method. -/
structure Messages (μ : Type u) where
  serialize : μ → Bytes
  parse : (service method : Bytes) → Bytes → Option μ
  unknown : UnknownFieldParse

/-- What `CallMethod` is called with. -/
structure Call (μ : Type u) where
  service : Bytes
  method : Bytes
  request : μ
  deriving DecidableEq

/-- No shorter byte string parses to the request of the call. -/
def Messages.Shortest (messages : Messages μ) (call : Call μ) : Prop :=
  ∀ args, messages.parse call.service call.method args = some call.request →
    (messages.serialize call.request).length ≤ args.length

/-- `m_serviceMap`: the services with their methods.  The name of a service is
an identifier. -/
structure RpcProvider where
  serviceMap : List (Bytes × List Bytes)
  named : ∀ entry ∈ serviceMap, entry.1 ≠ []

variable {messages : Messages μ} {provider : RpcProvider}

/-! ## Sending -/

/-- `SerializeToString` fails for a message of more than `INT_MAX` bytes. -/
def serializeToString (message : Bytes) : Option Bytes :=
  if message.length < 2 ^ 31 then some message else none

theorem serializeToString_eq_some {message bytes : Bytes} :
    serializeToString message = some bytes ↔ message.length < 2 ^ 31 ∧ message = bytes := by
  rw [serializeToString, Option.ite_none_right_eq_some, Option.some.injEq]

/-- The string `send_rpc_str` of `CallMethod`. -/
def sendRpcStr (messages : Messages μ) (call : Call μ) : Option Bytes :=
  match serializeToString (messages.serialize call.request) with
  | none => none
  | some argsStr =>
      let rpcHeader : RpcHeader :=
        { serviceName := call.service, methodName := call.method,
          argsSize := argsStr.length % 2 ^ 32 }
      match serializeToString rpcHeader.serialize with
      | none => none
      | some rpcHeaderStr =>
          some (writeVarint 4 (rpcHeaderStr.length % 2 ^ 32) ++ rpcHeaderStr ++ argsStr)

/-! ## Receiving -/

/-- A number of 32 bits as an `int`. -/
def toInt (n : Nat) : Int :=
  if n < 2 ^ 31 then n else (n : Int) - 2 ^ 32

/-- `ArrayInputStream`: the size of the buffer is converted to `int`, and with a
negative size there is nothing to read. -/
def arrayInput (buffer : Bytes) : Bytes :=
  buffer.take (toInt (buffer.length % 2 ^ 32)).toNat

/-- `ReadVarint32`: the number and what follows it.  A failure leaves
`UINT32_MAX` behind; it reads the whole input unless the number is too long. -/
def readVarint32 (input : Bytes) : Nat × Bytes :=
  match readVarint 10 input with
  | none => (2 ^ 32 - 1, if 10 ≤ input.length then input else [])
  | some (value, rest) => (value % 2 ^ 32, rest)

/-- `ReadString`: whether it succeeded, the string and what follows it.  When
the input is too short the string is all of it. -/
def readString (size : Int) (input : Bytes) : Bool × Bytes × Bytes :=
  if size < 0 then (false, [], input)
  else if size ≤ input.length then (true, input.take size.toNat, input.drop size.toNat)
  else (false, input, [])

/-- The search for a service and a method. -/
def RpcProvider.provides (provider : RpcProvider) (service method : Bytes) : Bool :=
  match provider.serviceMap.lookup service with
  | none => false
  | some methodMap => methodMap.contains method

/-- `OnMessage` on what `retrieveAllAsString` returns: the call that it
dispatches, if any.  The limit that is pushed is the size of the header, which
is what `ReadString` reads at most; neither result is looked at. -/
def RpcProvider.onMessage (provider : RpcProvider) (messages : Messages μ) (buffer : Bytes) :
    Option (Call μ) :=
  let (headerSize, afterSize) := readVarint32 (arrayInput buffer)
  let (_, rpcHeaderStr, afterHeader) := readString (toInt headerSize) afterSize
  match RpcHeader.parse messages.unknown rpcHeaderStr with
  | none => none
  | some rpcHeader =>
      let (readArgsSuccess, argsStr, _) := readString (toInt rpcHeader.argsSize) afterHeader
      if readArgsSuccess then
        if provider.provides rpcHeader.serviceName rpcHeader.methodName then
          (messages.parse rpcHeader.serviceName rpcHeader.methodName argsStr).map fun request =>
            { service := rpcHeader.serviceName, method := rpcHeader.methodName, request }
        else none
      else none

/-! ## What the readers take -/

theorem toInt_of_lt {n : Nat} (small : n < 2 ^ 31) : toInt n = n :=
  if_pos small

theorem toInt_le (n : Nat) : toInt n ≤ n := by
  unfold toInt
  split <;> omega

theorem arrayInput_of_lt {buffer : Bytes} (short : buffer.length < 2 ^ 31) :
    arrayInput buffer = buffer := by
  rw [arrayInput, Nat.mod_eq_of_lt (by omega), toInt_of_lt short, Int.toNat_natCast,
    List.take_length]

theorem arrayInput_length_le (buffer : Bytes) : (arrayInput buffer).length ≤ buffer.length :=
  List.length_take_le' _ _

theorem arrayInput_length_lt (buffer : Bytes) : (arrayInput buffer).length < 2 ^ 31 := by
  have taken := List.length_take_le (toInt (buffer.length % 2 ^ 32)).toNat buffer
  have bound : (toInt (buffer.length % 2 ^ 32)).toNat < 2 ^ 31 := by
    unfold toInt
    split <;> omega
  exact Nat.lt_of_le_of_lt taken bound

theorem readString_append {content : Bytes} (rest : Bytes) (short : content.length < 2 ^ 31) :
    readString (toInt content.length) (content ++ rest) = (true, content, rest) := by
  have nonneg : ¬ ((content.length : Int) < 0) := by omega
  have enough : (content.length : Int) ≤ (content ++ rest).length := by
    rw [List.length_append]
    omega
  rw [toInt_of_lt short, readString, if_neg nonneg, if_pos enough, Int.toNat_natCast,
    List.take_left, List.drop_left]

/-- What is read and what follows were in the input. -/
theorem readString_length {size : Int} {input content rest : Bytes} {success : Bool}
    (read : readString size input = (success, content, rest)) :
    content.length + rest.length ≤ input.length := by
  unfold readString at read
  split at read
  · cases read
    rw [List.length_nil, Nat.zero_add]
  · split at read
    · cases read
      rw [List.length_take, List.length_drop]
      omega
    · cases read
      rw [List.length_nil, Nat.add_zero]

theorem readString_size {size : Int} {input content rest : Bytes}
    (read : readString size input = (true, content, rest)) : (content.length : Int) = size := by
  unfold readString at read
  split at read
  · cases read
  · split at read
    · cases read
      rw [List.length_take]
      omega
    · cases read

/-- No more is read than was asked for. -/
theorem readString_length_le {size : Int} {input content rest : Bytes} {success : Bool}
    (read : readString size input = (success, content, rest)) : content.length ≤ size.toNat := by
  unfold readString at read
  split at read
  · cases read
    exact Nat.zero_le _
  · split at read
    · cases read
      rw [List.length_take]
      omega
    · cases read
      omega

theorem provides_nil (method : Bytes) : provider.provides [] method = false := by
  have missing : provider.serviceMap.lookup [] = none := by
    rw [List.lookup_eq_none_iff]
    intro entry member
    rw [bne_iff_ne]
    exact (provider.named entry member).symm
  rw [RpcProvider.provides, missing]

/-! ## One call in one buffer -/

/-- The header of a call. -/
def header (messages : Messages μ) (call : Call μ) : RpcHeader :=
  { serviceName := call.service, methodName := call.method,
    argsSize := (messages.serialize call.request).length }

/-- A call is written with its header, and neither part exceeds `INT_MAX`. -/
theorem sendRpcStr_eq_some {call : Call μ} {bytes : Bytes}
    (sent : sendRpcStr messages call = some bytes) :
    (messages.serialize call.request).length < 2 ^ 31 ∧
      (header messages call).serialize.length < 2 ^ 31 ∧
      bytes = writeVarint 4 (header messages call).serialize.length ++
        (header messages call).serialize ++ messages.serialize call.request := by
  by_cases args : (messages.serialize call.request).length < 2 ^ 31
  · have whole : (messages.serialize call.request).length % 2 ^ 32 =
        (messages.serialize call.request).length := Nat.mod_eq_of_lt (by omega)
    by_cases small : (header messages call).serialize.length < 2 ^ 31
    · have whole' : (header messages call).serialize.length % 2 ^ 32 =
          (header messages call).serialize.length := Nat.mod_eq_of_lt (by omega)
      simp only [header] at small whole' ⊢
      simp only [sendRpcStr, serializeToString, args, if_true, whole, small, whole',
        Option.some.injEq] at sent
      exact ⟨args, small, sent.symm⟩
    · simp only [header] at small
      simp only [sendRpcStr, serializeToString, args, if_true, whole, small, if_false,
        reduceCtorEq] at sent
  · simp only [sendRpcStr, serializeToString, args, if_false, reduceCtorEq] at sent

theorem sendRpcStr_ne_nil {call : Call μ} {bytes : Bytes}
    (sent : sendRpcStr messages call = some bytes) : bytes ≠ [] := by
  obtain ⟨_, _, rfl⟩ := sendRpcStr_eq_some sent
  have size := writeVarint_length_pos 4 (header messages call).serialize.length
  rw [← List.length_pos_iff, List.length_append, List.length_append]
  omega

theorem parse_header {call : Call μ}
    (args : (messages.serialize call.request).length < 2 ^ 31)
    (small : (header messages call).serialize.length < 2 ^ 31) :
    RpcHeader.parse messages.unknown (header messages call).serialize =
      some (header messages call) := by
  obtain ⟨service, method⟩ := RpcHeader.name_length_le (header messages call)
  exact RpcHeader.parse_serialize (by omega) (by omega)
    (Nat.lt_trans args (by decide))

/-- A buffer that holds the bytes of one call gives that call. -/
theorem onMessage_of_sendRpcStr {call : Call μ} {bytes : Bytes}
    (sent : sendRpcStr messages call = some bytes) (short : bytes.length < 2 ^ 31)
    (provided : provider.provides call.service call.method = true)
    (inverts : messages.parse call.service call.method (messages.serialize call.request) =
      some call.request) : provider.onMessage messages bytes = some call := by
  obtain ⟨args, small, rfl⟩ := sendRpcStr_eq_some sent
  rw [List.append_assoc] at short ⊢
  have size := readVarint_writeVarint (k := 4) (n := (header messages call).serialize.length)
    (by omega) (show 4 < 10 by decide)
    ((header messages call).serialize ++ messages.serialize call.request)
  have whole : (header messages call).serialize.length % 2 ^ 32 =
    (header messages call).serialize.length := Nat.mod_eq_of_lt (by omega)
  have readHeader := readString_append (messages.serialize call.request) small
  have readArgs := readString_append [] args
  rw [List.append_nil] at readArgs
  have argsSize : (header messages call).argsSize = (messages.serialize call.request).length := rfl
  have service : (header messages call).serviceName = call.service := rfl
  have method : (header messages call).methodName = call.method := rfl
  simp only [RpcProvider.onMessage, arrayInput_of_lt short, readVarint32, size, whole, readHeader,
    parse_header args small, argsSize, readArgs, service, method, provided, if_true, inverts,
    Option.map_some]

/-- How a buffer gives a call. -/
theorem onMessage_eq_some {call : Call μ} {buffer : Bytes}
    (dispatched : provider.onMessage messages buffer = some call) :
    ∃ (headerSize : Nat) (afterSize : Bytes) (success : Bool) (rpcHeaderStr afterHeader : Bytes)
      (rpcHeader : RpcHeader) (argsStr rest : Bytes),
      readVarint32 (arrayInput buffer) = (headerSize, afterSize) ∧
      readString (toInt headerSize) afterSize = (success, rpcHeaderStr, afterHeader) ∧
      RpcHeader.parse messages.unknown rpcHeaderStr = some rpcHeader ∧
      readString (toInt rpcHeader.argsSize) afterHeader = (true, argsStr, rest) ∧
      provider.provides call.service call.method = true ∧
      rpcHeader.serviceName = call.service ∧ rpcHeader.methodName = call.method ∧
      messages.parse call.service call.method argsStr = some call.request := by
  rcases size : readVarint32 (arrayInput buffer) with ⟨headerSize, afterSize⟩
  rcases readHeader : readString (toInt headerSize) afterSize with
    ⟨success, rpcHeaderStr, afterHeader⟩
  simp only [RpcProvider.onMessage, size, readHeader] at dispatched
  cases parsed : RpcHeader.parse messages.unknown rpcHeaderStr with
  | none => simp only [parsed, reduceCtorEq] at dispatched
  | some rpcHeader =>
      rcases readArgs : readString (toInt rpcHeader.argsSize) afterHeader with
        ⟨readArgsSuccess, argsStr, rest⟩
      simp only [parsed, readArgs, Option.ite_none_right_eq_some] at dispatched
      obtain ⟨rfl, provided, dispatched⟩ := dispatched
      obtain ⟨request, parsedArgs, rfl⟩ := Option.map_eq_some_iff.mp dispatched
      exact ⟨headerSize, afterSize, success, rpcHeaderStr, afterHeader, rpcHeader, argsStr, rest,
        rfl, readHeader, parsed, readArgs, provided, rfl, rfl, parsedArgs⟩

/-- A service has a name, so that the number before its header was read. -/
theorem readVarint_of_onMessage {headerSize : Nat}
    {input afterSize rpcHeaderStr afterHeader : Bytes} {success : Bool} {rpcHeader : RpcHeader}
    {method : Bytes}
    (size : readVarint32 input = (headerSize, afterSize))
    (read : readString (toInt headerSize) afterSize = (success, rpcHeaderStr, afterHeader))
    (parsed : RpcHeader.parse messages.unknown rpcHeaderStr = some rpcHeader)
    (provided : provider.provides rpcHeader.serviceName method = true) :
    ∃ value, readVarint 10 input = some (value, afterSize) ∧ headerSize = value % 2 ^ 32 := by
  cases number : readVarint 10 input with
  | some result =>
      simp only [readVarint32, number, Prod.mk.injEq] at size
      exact ⟨result.1, by rw [← size.2], size.1.symm⟩
  | none =>
      simp only [readVarint32, number, Prod.mk.injEq] at size
      obtain ⟨rfl, rfl⟩ := size
      have negative : toInt (2 ^ 32 - 1) < 0 := by decide
      rw [readString, if_pos negative] at read
      cases read
      cases parsed
      rw [provides_nil] at provided
      cases provided

/-- A buffer that gives a call has room for the bytes of the call, when its
request has no shorter form. -/
theorem length_le_of_onMessage {call : Call μ} {bytes buffer : Bytes}
    (sent : sendRpcStr messages call = some bytes)
    (shortest : messages.Shortest call)
    (dispatched : provider.onMessage messages buffer = some call) :
    bytes.length ≤ (arrayInput buffer).length := by
  obtain ⟨_, _, rfl⟩ := sendRpcStr_eq_some sent
  obtain ⟨headerSize, afterSize, success, rpcHeaderStr, afterHeader, rpcHeader, argsStr, rest,
    size, readHeader, parsed, readArgs, provided, service, method, parsedArgs⟩ :=
    onMessage_eq_some dispatched
  rw [← service] at provided
  obtain ⟨value, number, rfl⟩ := readVarint_of_onMessage size readHeader parsed provided
  have args := shortest argsStr parsedArgs
  have argsSize : argsStr.length ≤ rpcHeader.argsSize := by
    have exactly := readString_size readArgs
    have least := toInt_le rpcHeader.argsSize
    omega
  have written : (header messages call).serialize.length ≤ rpcHeader.serialize.length :=
    RpcHeader.serialize_length_mono service.symm method.symm (Nat.le_trans args argsSize)
  have headerRoom := RpcHeader.serialize_length_le parsed
  have headerSize : rpcHeaderStr.length ≤ value := by
    have most := readString_length_le readHeader
    have least := toInt_le (value % 2 ^ 32)
    have whole := Nat.mod_le value (2 ^ 32)
    omega
  have sizeRoom := writeVarint_length_le number 4
  have sizeLonger : (writeVarint 4 (header messages call).serialize.length).length ≤
      (writeVarint 4 value).length := writeVarint_length_mono 4 (by omega)
  have headerTaken := readString_length readHeader
  have argsTaken := readString_length readArgs
  rw [List.length_append, List.length_append]
  omega

/-! ## The stream of requests -/

/-- Every buffer that is not empty holds the bytes of one call, and these are
few enough for an `int`. -/
structure WholeCalls (sent buffers : List Bytes) : Prop where
  filled : filled buffers = sent
  short : ∀ bytes ∈ sent, bytes.length < 2 ^ 31

theorem onMessage_nil : provider.onMessage messages [] = none := by
  cases dispatched : provider.onMessage messages [] with
  | none => rfl
  | some call =>
      obtain ⟨_, _, _, _, _, rpcHeader, _, _, size, readHeader, parsed, _, provided, service, _⟩ :=
        onMessage_eq_some dispatched
      rw [← service] at provided
      obtain ⟨_, number, _⟩ := readVarint_of_onMessage size readHeader parsed provided
      cases number

/-- The bytes of a call give the call. -/
theorem reads_of_written {calls : List (Call μ)} {sent : List Bytes}
    (written : List.Forall₂ (fun call bytes => sendRpcStr messages call = some bytes) calls sent)
    (provided : ∀ call ∈ calls, provider.provides call.service call.method = true)
    (inverts : ∀ call ∈ calls, messages.parse call.service call.method
      (messages.serialize call.request) = some call.request)
    (short : ∀ bytes ∈ sent, bytes.length < 2 ^ 31) :
    List.Forall₂ (fun call bytes => provider.onMessage messages bytes = some call) calls sent := by
  induction written with
  | nil => exact List.Forall₂.nil
  | cons first _ ih =>
      rw [List.forall_mem_cons] at provided inverts short
      exact List.Forall₂.cons (onMessage_of_sendRpcStr first short.1 provided.1 inverts.1)
        (ih provided.2 inverts.2 short.2)

/-- What a buffer needs to give a call. -/
theorem needs_of_written {calls : List (Call μ)} {sent : List Bytes}
    (written : List.Forall₂ (fun call bytes => sendRpcStr messages call = some bytes) calls sent)
    (shortest : ∀ call ∈ calls, messages.Shortest call) :
    List.Forall₂ (fun call bytes => bytes ≠ [] ∧
      ∀ buffer, provider.onMessage messages buffer = some call →
        bytes.length ≤ (arrayInput buffer).length) calls sent := by
  induction written with
  | nil => exact List.Forall₂.nil
  | cons first _ ih =>
      rw [List.forall_mem_cons] at shortest
      refine List.Forall₂.cons ⟨?_, ?_⟩ (ih shortest.2)
      · exact sendRpcStr_ne_nil first
      · intro buffer dispatched
        exact length_le_of_onMessage first shortest.1 dispatched

/-- A call whose bytes are dispatched as they are is within an `int`. -/
theorem short_of_reads {calls : List (Call μ)} {sent : List Bytes}
    (needs : List.Forall₂ (fun call bytes => bytes ≠ [] ∧
      ∀ buffer, provider.onMessage messages buffer = some call →
        bytes.length ≤ (arrayInput buffer).length) calls sent)
    (reads : List.Forall₂ (fun call bytes => provider.onMessage messages bytes = some call)
      calls sent) : ∀ bytes ∈ sent, bytes.length < 2 ^ 31 := by
  induction needs with
  | nil => exact List.forall_mem_nil _
  | cons need _ ih =>
      cases reads with
      | cons read reads =>
          rw [List.forall_mem_cons]
          exact ⟨Nat.lt_of_le_of_lt (need.2 _ read) (arrayInput_length_lt _), ih reads⟩

/-- `OnMessage` dispatches the calls of a connection when each buffer holds one
of them.  It is the only way when no shorter byte string parses to one of the
requests. -/
theorem requests_dispatched {calls : List (Call μ)} {sent buffers : List Bytes}
    (written : calls.map (sendRpcStr messages) = sent.map some)
    (delivered : buffers.flatten = sent.flatten)
    (provided : ∀ call ∈ calls, provider.provides call.service call.method = true)
    (inverts : ∀ call ∈ calls, messages.parse call.service call.method
      (messages.serialize call.request) = some call.request) :
    (WholeCalls sent buffers → buffers.filterMap (provider.onMessage messages) = calls) ∧
      ((∀ call ∈ calls, messages.Shortest call) →
        buffers.filterMap (provider.onMessage messages) = calls → WholeCalls sent buffers) := by
  rw [← List.forall₂_eq_eq_eq, List.forall₂_map_left_iff, List.forall₂_map_right_iff] at written
  constructor
  · intro whole
    have reads := reads_of_written written provided inverts whole.short
    exact filterMap_eq_of_filled onMessage_nil reads whole.filled
  · intro shortest got
    have needs : List.Forall₂ (fun call bytes => bytes ≠ [] ∧
        ∀ buffer, provider.onMessage messages buffer = some call →
          bytes.length ≤ (arrayInput buffer).length) calls sent :=
      needs_of_written written shortest
    have room : List.Forall₂ (fun call bytes => bytes ≠ [] ∧
        ∀ buffer, provider.onMessage messages buffer = some call →
          bytes.length ≤ buffer.length) calls sent :=
      needs.imp fun call bytes need =>
        ⟨need.1, fun buffer dispatched =>
          (need.2 buffer dispatched).trans (arrayInput_length_le buffer)⟩
    have one := filled_of_filterMap_eq delivered room got
    rw [← filterMap_filled onMessage_nil, one] at got
    have reads := forall₂_of_filterMap_eq got written.length_eq.symm
    exact ⟨one, short_of_reads needs reads⟩

/-- Nothing is known about fields that a message does not have. -/
def noUnknown : UnknownFieldParse where
  skip := fun _ _ => none
  consumes := fun skipped => nomatch skipped

/-- The messages `GetArgs`, whose fields are two byte strings and a number, as
those of `RpcHeader`. -/
def getMessages : Messages RpcHeader where
  serialize := RpcHeader.serialize
  parse := fun _ _ => RpcHeader.parse noUnknown
  unknown := noUnknown

/-- A service `k` with a method `G`. -/
def kvProvider : RpcProvider where
  serviceMap := [([107], [[71]])]
  named := by decide

/-- A `Get` with a key, a client id and a request id. -/
def getCall (key : UInt8) (requestId : Nat) : Call RpcHeader :=
  { service := [107], method := [71],
    request := { serviceName := [key], methodName := [99], argsSize := requestId } }

/-- The bytes that `getCall` is sent as. -/
def getBytes (key : UInt8) (requestId : Nat) : Bytes :=
  (sendRpcStr getMessages (getCall key requestId)).getD []

/-- Two calls arrive in a buffer each, with an empty one between them. -/
theorem requests_dispatched_whole :
    [getBytes 97 1, [], getBytes 98 2].filterMap (kvProvider.onMessage getMessages) =
      [getCall 97 1, getCall 98 2] := by
  have written : [getCall 97 1, getCall 98 2].map (sendRpcStr getMessages) =
      [getBytes 97 1, getBytes 98 2].map some := by decide +kernel
  have whole : WholeCalls [getBytes 97 1, getBytes 98 2] [getBytes 97 1, [], getBytes 98 2] :=
    ⟨by decide +kernel, by decide +kernel⟩
  have provided : ∀ call ∈ [getCall 97 1, getCall 98 2],
      kvProvider.provides call.service call.method = true := by decide
  have inverts : ∀ call ∈ [getCall 97 1, getCall 98 2],
      getMessages.parse call.service call.method (getMessages.serialize call.request) =
        some call.request := by decide +kernel
  exact (requests_dispatched written (by decide +kernel) provided inverts).1 whole

/-- Two calls in one buffer: the second one is lost.  One call in two buffers:
it is lost. -/
theorem not_requests_dispatched :
    [getCall 97 1, getCall 98 2].map (sendRpcStr getMessages) =
        [getBytes 97 1, getBytes 98 2].map some ∧
      [getBytes 97 1 ++ getBytes 98 2].filterMap (kvProvider.onMessage getMessages) =
        [getCall 97 1] ∧
      [(getBytes 97 1).take 5, (getBytes 97 1).drop 5].filterMap
        (kvProvider.onMessage getMessages) = [] := by
  decide +kernel

end CppRaft.Rpc
