import CppRaft.Rpc.Replies
import CppRaft.Transition.Run
import Mathlib.Data.Sigma.Basic

/-!
# Responses on a channel

One `MprpcChannel` whose calls are made one at a time.  A response carries
neither its length nor the call that it answers: `CallMethod` takes what one
`recv` returns for the response.
-/

namespace CppRaft.Rpc

open CppRaft.Store
open CppRaft.Transition

universe u v

variable {κ : Type u} {Response : κ → Type v}

/-- Where `CallMethod` is: before the request is serialized, before `send`,
before `recv`. -/
inductive Phase (κ : Type u)
  | idle
  | starting (id : Nat) (method : κ)
  | sending (id : Nat) (method : κ)
  | receiving (id : Nat) (method : κ)

/-- A channel and its connection.  `requests` are those that the peer has not
yet handled, `answered` the calls whose responses it has sent, and `inFlight`
the bytes that it has sent and that were not received. -/
structure Channel (κ : Type u) where
  phase : Phase κ := .idle
  nextId : Nat := 0
  connected : Bool := false
  closed : Bool := false
  requests : List (Nat × κ) := []
  answered : List Nat := []
  inFlight : Bytes := []

/-- A step of the caller, of the peer or of the network. -/
inductive ChannelAction (κ : Type u) (Response : κ → Type v)
  | callMethod (method : κ)
  /-- `newConnect` returns. -/
  | newConnect (connected : Bool)
  /-- `SerializeToString` of the request or of the header returns. -/
  | serialize (serialized : Bool)
  /-- `send` returns, with or without an error. -/
  | send (sent : Bool)
  /-- The peer handles the next request: the service produces a response. -/
  | serve (method : κ) (response : Response method)
  /-- `OnMessage` of the peer returns without a response. -/
  | ignore
  /-- The peer closes the connection. -/
  | close
  | recv (size : Nat)
  | recvError

/-- What happens to a call, which is named by its number. -/
inductive ChannelEvent (κ : Type u) (Response : κ → Type v)
  /-- The service has produced the response to a call. -/
  | produced (id : Nat) (method : κ) (response : Response method)
  /-- `CallMethod` has returned with this response. -/
  | returned (id : Nat) (method : κ) (response : Response method)
  /-- `CallMethod` has returned after `SetFailed`. -/
  | failed (id : Nat)

/-- The kind of an event, its call and its response. -/
def ChannelEvent.view : ChannelEvent κ Response → Bool × Nat × Option (Sigma Response)
  | .produced id method response => (false, id, some ⟨method, response⟩)
  | .returned id method response => (true, id, some ⟨method, response⟩)
  | .failed id => (true, id, none)

theorem ChannelEvent.view_injective :
    Function.Injective (view : ChannelEvent κ Response → _) := by
  intro event event' same
  cases event <;> cases event' <;> cases same <;> rfl

instance [DecidableEq κ] [∀ method, DecidableEq (Response method)] :
    DecidableEq (ChannelEvent κ Response) :=
  ChannelEvent.view_injective.decidableEq

/-- The service has produced no response to a call. -/
def Unproduced (events : List (ChannelEvent κ Response)) (id : Nat) : Prop :=
  ∀ method response, .produced id method response ∉ events

/-- No response is among these events. -/
def Silent (emitted : List (ChannelEvent κ Response)) : Prop :=
  ∀ id, Unproduced emitted id

theorem silent_nil : Silent ([] : List (ChannelEvent κ Response)) :=
  fun _ _ _ => List.not_mem_nil

theorem silent_failed (id : Nat) : Silent ([.failed id] : List (ChannelEvent κ Response)) := by
  intro other method response member
  cases List.mem_singleton.mp member

theorem silent_returned (id : Nat) (method : κ) (response : Response method) :
    Silent [.returned id method response] := by
  intro other method response member
  cases List.mem_singleton.mp member

theorem unproduced_of_ne {id other : Nat} {method : κ} {response : Response method}
    (different : other ≠ id) : Unproduced [.produced id method response] other := by
  intro method' response' member
  cases List.mem_singleton.mp member
  exact different rfl

theorem Unproduced.append {events emitted : List (ChannelEvent κ Response)} {id : Nat}
    (before : Unproduced events id) (now : Unproduced emitted id) :
    Unproduced (events ++ emitted) id := by
  intro method response member
  rcases List.mem_append.mp member with old | new
  · exact before method response old
  · exact now method response new

/-- Every call has at most one response. -/
def AnsweredOnce (events : List (ChannelEvent κ Response)) : Prop :=
  ∀ ⦃id : Nat⦄ ⦃method method' : κ⦄ ⦃response : Response method⦄ ⦃response' : Response method'⦄,
    .produced id method response ∈ events → .produced id method' response' ∈ events →
    (⟨method', response'⟩ : Sigma Response) = ⟨method, response⟩

/-- What is returned is the response to the call. -/
def ReturnsProduced (events : List (ChannelEvent κ Response)) : Prop :=
  ∀ ⦃id : Nat⦄ ⦃method : κ⦄ ⦃response : Response method⦄,
    .returned id method response ∈ events → .produced id method response ∈ events

theorem AnsweredOnce.silent {events emitted : List (ChannelEvent κ Response)}
    (once : AnsweredOnce events) (silent : Silent emitted) : AnsweredOnce (events ++ emitted) := by
  intro id method method' response response' member member'
  rcases List.mem_append.mp member with old | new
  · rcases List.mem_append.mp member' with old' | new'
    · exact once old old'
    · exact absurd new' (silent id _ _)
  · exact absurd new (silent id _ _)

theorem AnsweredOnce.produce {events : List (ChannelEvent κ Response)} {id : Nat} {method : κ}
    {response : Response method} (once : AnsweredOnce events) (first : Unproduced events id) :
    AnsweredOnce (events ++ [.produced id method response]) := by
  intro other method' method'' response' response'' member member'
  rcases List.mem_append.mp member with old | new
  · rcases List.mem_append.mp member' with old' | new'
    · exact once old old'
    · cases List.mem_singleton.mp new'
      exact absurd old (first _ _)
  · cases List.mem_singleton.mp new
    rcases List.mem_append.mp member' with old' | new'
    · exact absurd old' (first _ _)
    · cases List.mem_singleton.mp new'
      rfl

theorem ReturnsProduced.append {events emitted : List (ChannelEvent κ Response)}
    (received : ReturnsProduced events)
    (returned : ∀ id method response, .returned id method response ∈ emitted →
      .produced id method response ∈ events) : ReturnsProduced (events ++ emitted) := by
  intro id method response member
  rcases List.mem_append.mp member with old | new
  · exact List.mem_append_left _ (received old)
  · exact List.mem_append_left _ (returned _ _ _ new)

namespace Channel

/-- A connection that has just been established. -/
def connect (s : Channel κ) : Channel κ :=
  { s with connected := true, closed := false, requests := [], inFlight := [] }

/-- `close(m_clientFd)`: what is in flight is lost. -/
def disconnect (s : Channel κ) : Channel κ :=
  { s with connected := false, requests := [], inFlight := [] }

/-- `recv` with a buffer of 1024 bytes may return this many: some of those that
are in flight, or none after an orderly close. -/
def Receives (s : Channel κ) (size : Nat) : Prop :=
  1 ≤ size ∧ size ≤ 1024 ∧ size ≤ s.inFlight.length ∨
    size = 0 ∧ s.inFlight = [] ∧ s.closed = true

instance (s : Channel κ) (size : Nat) : Decidable (s.Receives size) :=
  inferInstanceAs (Decidable (_ ∨ _))

/-- `SendRpcResponse`. -/
def sendRpcResponse (s : Channel κ) (id : Nat) (response : Bytes) : Channel κ :=
  match serializeToString response with
  | none => s
  | some responseStr =>
      { s with answered := id :: s.answered, inFlight := s.inFlight ++ responseStr }

/-- One step of the channel, of the connection or of the peer. -/
def step [DecidableEq κ] (responses : Responses κ Response) (s : Channel κ) :
    ChannelAction κ Response → Option (Channel κ × List (ChannelEvent κ Response))
  | .callMethod method =>
      match s.phase with
      | .idle =>
          some ({ s with phase := .starting s.nextId method, nextId := s.nextId + 1 }, [])
      | _ => none
  | .newConnect connected =>
      if s.connected then none
      else
        match s.phase with
        | .starting id _ | .sending id _ =>
            if connected then some (s.connect, [])
            else some ({ s with phase := .idle }, [.failed id])
        | _ => none
  | .serialize serialized =>
      match s.phase with
      | .starting id method =>
          if s.connected then
            if serialized then some ({ s with phase := .sending id method }, [])
            else some ({ s with phase := .idle }, [.failed id])
          else none
      | _ => none
  | .send sent =>
      match s.phase with
      | .sending id method =>
          if s.connected then
            if sent then
              some ({ s with phase := .receiving id method,
                             requests := s.requests ++ [(id, method)] }, [])
            else some (s.disconnect, [])
          else none
      | _ => none
  | .serve method response =>
      match s.requests with
      | (id, asked) :: rest =>
          if s.closed = false ∧ asked = method then
            some ({ s with requests := rest }.sendRpcResponse id
              (responses.serialize method response), [.produced id method response])
          else none
      | [] => none
  | .ignore =>
      match s.requests with
      | _ :: rest => some ({ s with requests := rest }, [])
      | [] => none
  | .close => if s.connected then some ({ s with closed := true }, []) else none
  | .recv size =>
      match s.phase with
      | .receiving id method =>
          if s.Receives size then
            let received := { s with phase := .idle, inFlight := s.inFlight.drop size }
            match responses.parse method (s.inFlight.take size) with
            | none => some (received, [.failed id])
            | some response => some (received, [.returned id method response])
          else none
      | _ => none
  | .recvError =>
      match s.phase with
      | .receiving id _ => some ({ s.disconnect with phase := .idle }, [.failed id])
      | _ => none

end Channel

/-- The response to the call that waits is among those that were sent. -/
def Phase.AnsweredBy (answered : List Nat) : Phase κ → Prop
  | .receiving id _ => id ∈ answered
  | _ => True

instance (answered : List Nat) : (phase : Phase κ) → Decidable (phase.AnsweredBy answered)
  | .receiving id _ => inferInstanceAs (Decidable (id ∈ answered))
  | .idle | .starting _ _ | .sending _ _ => isTrue trivial

/-- `recv` returns when the response has been sent, and it returns all of it. -/
def WholeResponse (s : Channel κ) : ChannelAction κ Response → Prop
  | .recv size => s.phase.AnsweredBy s.answered ∧ size = s.inFlight.length
  | _ => True

instance (s : Channel κ) :
    (action : ChannelAction κ Response) → Decidable (WholeResponse s action)
  | .recv _ => inferInstanceAs (Decidable (_ ∧ _))
  | .callMethod _ | .newConnect _ | .serialize _ | .send _ | .serve _ _ | .ignore | .close
  | .recvError => isTrue trivial

namespace Channel

variable {responses : Responses κ Response} {events emitted : List (ChannelEvent κ Response)}
  {s s' : Channel κ} {action : ChannelAction κ Response}

/-- What a step does. -/
inductive Effect (responses : Responses κ Response) (s : Channel κ) :
    ChannelAction κ Response → Channel κ → List (ChannelEvent κ Response) → Prop
  | callMethod {method : κ} : s.phase = .idle →
      Effect responses s (.callMethod method)
        { s with phase := .starting s.nextId method, nextId := s.nextId + 1 } []
  | connect {id : Nat} {method : κ} :
      s.phase = .starting id method ∨ s.phase = .sending id method →
      Effect responses s (.newConnect true) s.connect []
  | connectFail {id : Nat} {method : κ} :
      s.phase = .starting id method ∨ s.phase = .sending id method →
      Effect responses s (.newConnect false) { s with phase := .idle } [.failed id]
  | serialize {id : Nat} {method : κ} : s.phase = .starting id method →
      Effect responses s (.serialize true) { s with phase := .sending id method } []
  | serializeFail {id : Nat} {method : κ} : s.phase = .starting id method →
      Effect responses s (.serialize false) { s with phase := .idle } [.failed id]
  | send {id : Nat} {method : κ} : s.phase = .sending id method →
      Effect responses s (.send true)
        { s with phase := .receiving id method, requests := s.requests ++ [(id, method)] } []
  | sendFail {id : Nat} {method : κ} : s.phase = .sending id method →
      Effect responses s (.send false) s.disconnect []
  | serve {id : Nat} {method : κ} {rest : List (Nat × κ)} {response : Response method} :
      s.requests = (id, method) :: rest →
      Effect responses s (.serve method response)
        ({ s with requests := rest }.sendRpcResponse id (responses.serialize method response))
        [.produced id method response]
  | ignore {request : Nat × κ} {rest : List (Nat × κ)} : s.requests = request :: rest →
      Effect responses s .ignore { s with requests := rest } []
  | close : Effect responses s .close { s with closed := true } []
  | recv {id : Nat} {method : κ} {size : Nat} {response : Response method} :
      s.phase = .receiving id method → s.Receives size →
      responses.parse method (s.inFlight.take size) = some response →
      Effect responses s (.recv size)
        { s with phase := .idle, inFlight := s.inFlight.drop size } [.returned id method response]
  | recvFail {id : Nat} {method : κ} {size : Nat} :
      s.phase = .receiving id method → s.Receives size →
      responses.parse method (s.inFlight.take size) = none →
      Effect responses s (.recv size)
        { s with phase := .idle, inFlight := s.inFlight.drop size } [.failed id]
  | recvError {id : Nat} {method : κ} : s.phase = .receiving id method →
      Effect responses s .recvError { s.disconnect with phase := .idle } [.failed id]

theorem step_effect [DecidableEq κ] (taken : s.step responses action = some (s', emitted)) :
    s.Effect responses action s' emitted := by
  cases action with
  | callMethod method =>
      simp only [step] at taken
      split at taken
      · rename_i idle
        cases taken
        exact Effect.callMethod idle
      · cases taken
  | newConnect connected =>
      simp only [step] at taken
      split at taken
      · cases taken
      · split at taken
        · rename_i id method phase
          cases connected with
          | true =>
              cases taken
              exact Effect.connect (Or.inl phase)
          | false =>
              cases taken
              exact Effect.connectFail (Or.inl phase)
        · rename_i id method phase
          cases connected with
          | true =>
              cases taken
              exact Effect.connect (Or.inr phase)
          | false =>
              cases taken
              exact Effect.connectFail (Or.inr phase)
        · cases taken
  | serialize serialized =>
      simp only [step] at taken
      split at taken
      · rename_i id method phase
        split at taken
        · cases serialized with
          | true =>
              cases taken
              exact Effect.serialize phase
          | false =>
              cases taken
              exact Effect.serializeFail phase
        · cases taken
      · cases taken
  | send sent =>
      simp only [step] at taken
      split at taken
      · rename_i id method phase
        split at taken
        · cases sent with
          | true =>
              cases taken
              exact Effect.send phase
          | false =>
              cases taken
              exact Effect.sendFail phase
        · cases taken
      · cases taken
  | serve method response =>
      simp only [step] at taken
      split at taken
      · rename_i id asked rest requests
        split at taken
        · rename_i accepted
          obtain ⟨_, rfl⟩ := accepted
          cases taken
          exact Effect.serve requests
        · cases taken
      · cases taken
  | ignore =>
      simp only [step] at taken
      split at taken
      · rename_i request rest requests
        cases taken
        exact Effect.ignore requests
      · cases taken
  | close =>
      simp only [step] at taken
      split at taken
      · cases taken
        exact Effect.close
      · cases taken
  | recv size =>
      simp only [step] at taken
      split at taken
      · rename_i id method phase
        split at taken
        · rename_i receives
          split at taken
          · rename_i parsed
            cases taken
            exact Effect.recvFail phase receives parsed
          · rename_i response parsed
            cases taken
            exact Effect.recv phase receives parsed
        · cases taken
      · cases taken
  | recvError =>
      simp only [step] at taken
      split at taken
      · rename_i id method phase
        cases taken
        exact Effect.recvError phase
      · cases taken

/-- Nothing is known of a call: no response was produced or sent. -/
def Untouched (events : List (ChannelEvent κ Response)) (s : Channel κ) (id : Nat) : Prop :=
  Unproduced events id ∧ id ∉ s.answered

/-- What the connection holds for the call that waits. -/
structure Waiting (responses : Responses κ Response) (events : List (ChannelEvent κ Response))
    (s : Channel κ) (id : Nat) (method : κ) : Prop where
  requests : s.requests = [] ∨ s.requests = [(id, method)] ∧ Untouched events s id
  unanswered : id ∉ s.answered → s.inFlight = []
  answered : id ∈ s.answered → ∃ response, .produced id method response ∈ events ∧
    serializeToString (responses.serialize method response) = some s.inFlight

/-- Nothing is on the connection. -/
def Quiet (s : Channel κ) : Prop :=
  s.requests = [] ∧ s.inFlight = []

/-- What the connection holds while `CallMethod` is at a place. -/
def Expects (responses : Responses κ Response) (events : List (ChannelEvent κ Response))
    (s : Channel κ) : Phase κ → Prop
  | .idle => s.Quiet
  | .starting id _ => id < s.nextId ∧ Untouched events s id ∧ s.Quiet
  | .sending id _ => id < s.nextId ∧ Untouched events s id ∧ s.Quiet
  | .receiving id method => id < s.nextId ∧ Waiting responses events s id method

/-- What holds along a run whose receives are whole. -/
structure Sound (responses : Responses κ Response) (events : List (ChannelEvent κ Response))
    (s : Channel κ) : Prop where
  fresh : ∀ id, s.nextId ≤ id → Untouched events s id
  expects : Expects responses events s s.phase
  once : AnsweredOnce events
  received : ReturnsProduced events

theorem sound_start (connected : Bool) : Sound responses [] ({ connected } : Channel κ) where
  fresh := fun _ _ => ⟨fun _ _ => List.not_mem_nil, List.not_mem_nil⟩
  expects := ⟨rfl, rfl⟩
  once := fun _ _ _ _ _ member => nomatch member
  received := fun _ _ _ member => nomatch member

/-! ## Steps that produce no response -/

theorem Untouched.mono {id : Nat} (untouched : Untouched events s id)
    (answered : s'.answered = s.answered) (silent : Silent emitted) :
    Untouched (events ++ emitted) s' id :=
  ⟨untouched.1.append (silent id), answered ▸ untouched.2⟩

/-- A connection that holds the same holds the same for the call that waits. -/
theorem Waiting.mono {id : Nat} {method : κ} (waiting : Waiting responses events s id method)
    (answered : s'.answered = s.answered) (silent : Silent emitted)
    (requests : s'.requests = s.requests ∨ s'.requests = []) (inFlight : s'.inFlight = s.inFlight) :
    Waiting responses (events ++ emitted) s' id method where
  requests := by
    rcases requests with same | nothing
    · rw [same]
      exact waiting.requests.imp_right fun one => ⟨one.1, one.2.mono answered silent⟩
    · exact Or.inl nothing
  unanswered := by
    rw [answered, inFlight]
    exact waiting.unanswered
  answered := by
    rw [answered, inFlight]
    intro member
    obtain ⟨response, produced, sent⟩ := waiting.answered member
    exact ⟨response, List.mem_append_left _ produced, sent⟩

theorem Expects.mono {phase : Phase κ} (expects : Expects responses events s phase)
    (answered : s'.answered = s.answered) (silent : Silent emitted) (next : s'.nextId = s.nextId)
    (requests : s'.requests = s.requests ∨ s'.requests = []) (inFlight : s'.inFlight = s.inFlight) :
    Expects responses (events ++ emitted) s' phase := by
  have quiet : s.Quiet → s'.Quiet := by
    rintro ⟨noRequests, nothing⟩
    refine ⟨?_, inFlight.trans nothing⟩
    rcases requests with same | none
    · exact same.trans noRequests
    · exact none
  cases phase with
  | idle => exact quiet expects
  | starting id method =>
      exact ⟨next ▸ expects.1, expects.2.1.mono answered silent, quiet expects.2.2⟩
  | sending id method =>
      exact ⟨next ▸ expects.1, expects.2.1.mono answered silent, quiet expects.2.2⟩
  | receiving id method =>
      exact ⟨next ▸ expects.1, expects.2.mono answered silent requests inFlight⟩

theorem Sound.of_silent (sound : Sound responses events s) (answered : s'.answered = s.answered)
    (silent : Silent emitted) (next : s.nextId ≤ s'.nextId)
    (returned : ∀ id method response, .returned id method response ∈ emitted →
      .produced id method response ∈ events)
    (expects : Expects responses (events ++ emitted) s' s'.phase) :
    Sound responses (events ++ emitted) s' where
  fresh := fun id later => (sound.fresh id (next.trans later)).mono answered silent
  expects := expects
  once := sound.once.silent silent
  received := sound.received.append returned

/-- A call before `recv` expects nothing but to be untouched. -/
theorem Sound.unsent (sound : Sound responses events s) {id : Nat} {method : κ}
    (phase : s.phase = .starting id method ∨ s.phase = .sending id method) :
    id < s.nextId ∧ Untouched events s id ∧ s.Quiet := by
  have expects := sound.expects
  rcases phase with phase | phase
  · rw [phase] at expects
    exact expects
  · rw [phase] at expects
    exact expects

/-- A request that the peer holds is that of the call that waits. -/
theorem Sound.requested (sound : Sound responses events s) {request : Nat × κ}
    {rest : List (Nat × κ)} (requests : s.requests = request :: rest) :
    rest = [] ∧ s.phase = .receiving request.1 request.2 ∧ Untouched events s request.1 := by
  have expects := sound.expects
  cases phase : s.phase with
  | idle =>
      rw [phase] at expects
      rw [expects.1] at requests
      cases requests
  | starting id method =>
      rw [phase] at expects
      rw [expects.2.2.1] at requests
      cases requests
  | sending id method =>
      rw [phase] at expects
      rw [expects.2.2.1] at requests
      cases requests
  | receiving id method =>
      rw [phase] at expects
      rcases expects.2.requests with none | ⟨one, untouched⟩
      · rw [none] at requests
        cases requests
      · rw [one] at requests
        cases requests
        exact ⟨rfl, rfl, untouched⟩

theorem sendRpcResponse_fields (s : Channel κ) (id : Nat) (response : Bytes) :
    (s.sendRpcResponse id response).phase = s.phase ∧
      (s.sendRpcResponse id response).nextId = s.nextId ∧
      ∀ other ∈ (s.sendRpcResponse id response).answered, other = id ∨ other ∈ s.answered := by
  unfold sendRpcResponse
  split
  · exact ⟨rfl, rfl, fun _ member => Or.inr member⟩
  · exact ⟨rfl, rfl, fun _ member => List.mem_cons.mp member⟩

/-- What the connection holds after a response has been produced. -/
theorem Sound.waiting_serve (sound : Sound responses events s) {id : Nat} {method : κ}
    {rest : List (Nat × κ)} (response : Response method)
    (requests : s.requests = (id, method) :: rest) :
    Waiting responses (events ++ [.produced id method response])
      ({ s with requests := rest }.sendRpcResponse id (responses.serialize method response)) id
      method := by
  obtain ⟨rfl, phase, _, unanswered⟩ := sound.requested requests
  have expects := sound.expects
  rw [phase] at expects
  have nothing : s.inFlight = [] := expects.2.unanswered unanswered
  cases sent : serializeToString (responses.serialize method response) with
  | none =>
      simp only [sendRpcResponse, sent]
      exact ⟨Or.inl rfl, fun _ => nothing, fun member => absurd member unanswered⟩
  | some responseStr =>
      simp only [sendRpcResponse, sent]
      refine ⟨Or.inl rfl, fun missing => absurd List.mem_cons_self missing, fun _ => ?_⟩
      refine ⟨response, List.mem_append_right _ (List.mem_singleton_self _), ?_⟩
      rw [nothing, List.nil_append]
      exact sent

theorem Sound.serve (sound : Sound responses events s) {id : Nat} {method : κ}
    {rest : List (Nat × κ)} {response : Response method}
    (requests : s.requests = (id, method) :: rest) :
    Sound responses (events ++ [.produced id method response])
      ({ s with requests := rest }.sendRpcResponse id (responses.serialize method response)) := by
  obtain ⟨_, phase, untouched⟩ := sound.requested requests
  have waiting := sound.waiting_serve response requests
  obtain ⟨samePhase, sameNext, answered⟩ :=
    sendRpcResponse_fields { s with requests := rest } id (responses.serialize method response)
  have old : id < s.nextId := by
    have expects := sound.expects
    rw [phase] at expects
    exact expects.1
  constructor
  · intro other later
    rw [sameNext] at later
    have different : other ≠ id := by
      change s.nextId ≤ other at later
      omega
    refine ⟨(sound.fresh other later).1.append (unproduced_of_ne different), ?_⟩
    intro member
    rcases answered other member with same | before
    · exact different same
    · exact (sound.fresh other later).2 before
  · rw [samePhase.trans phase]
    refine ⟨?_, waiting⟩
    rw [sameNext]
    exact old
  · exact sound.once.produce untouched.1
  · apply sound.received.append
    intro other method' response' member
    cases List.mem_singleton.mp member

/-- A whole receive takes the response that was produced, and nothing is left. -/
theorem Sound.whole (sound : Sound responses events s) {id : Nat} {method : κ} {size : Nat}
    (phase : s.phase = .receiving id method)
    (whole : WholeResponse s (.recv size : ChannelAction κ Response)) :
    (∃ response, responses.parse method (s.inFlight.take size) = some response ∧
      .produced id method response ∈ events) ∧ s.requests = [] ∧ s.inFlight.drop size = [] := by
  obtain ⟨answered, rfl⟩ := whole
  have expects := sound.expects
  rw [phase] at answered expects
  obtain ⟨_, waiting⟩ := expects
  obtain ⟨response, produced, sent⟩ := waiting.answered answered
  refine ⟨⟨response, ?_, produced⟩, ?_, List.drop_length⟩
  · rw [List.take_length]
    exact responses.inverts sent
  · rcases waiting.requests with none | ⟨_, untouched⟩
    · exact none
    · exact absurd answered untouched.2

theorem Sound.step (sound : Sound responses events s) (whole : WholeResponse s action)
    (effect : s.Effect responses action s' emitted) : Sound responses (events ++ emitted) s' := by
  have expects := sound.expects
  cases effect with
  | callMethod idle =>
      rw [idle] at expects
      refine sound.of_silent rfl silent_nil (Nat.le_succ _) (fun _ _ _ => nofun) ?_
      exact ⟨Nat.lt_succ_self _, (sound.fresh _ (Nat.le_refl _)).mono rfl silent_nil, expects⟩
  | connect phase =>
      obtain ⟨_, _, quiet⟩ := sound.unsent phase
      refine sound.of_silent rfl silent_nil (Nat.le_refl _) (fun _ _ _ => nofun) ?_
      exact expects.mono rfl silent_nil rfl (Or.inr rfl) quiet.2.symm
  | connectFail phase =>
      obtain ⟨_, _, quiet⟩ := sound.unsent phase
      exact sound.of_silent rfl (silent_failed _) (Nat.le_refl _) (by simp) quiet
  | serialize phase =>
      obtain ⟨old, untouched, quiet⟩ := sound.unsent (Or.inl phase)
      refine sound.of_silent rfl silent_nil (Nat.le_refl _) (fun _ _ _ => nofun) ?_
      exact ⟨old, untouched.mono rfl silent_nil, quiet⟩
  | serializeFail phase =>
      obtain ⟨_, _, quiet⟩ := sound.unsent (Or.inl phase)
      exact sound.of_silent rfl (silent_failed _) (Nat.le_refl _) (by simp) quiet
  | @send id method phase =>
      obtain ⟨old, untouched, requests, inFlight⟩ := sound.unsent (Or.inr phase)
      refine sound.of_silent rfl silent_nil (Nat.le_refl _) (fun _ _ _ => nofun) ?_
      refine ⟨old, Or.inr ⟨?_, untouched.mono rfl silent_nil⟩, fun _ => inFlight,
        fun member => absurd member untouched.2⟩
      change s.requests ++ [(id, method)] = [(id, method)]
      rw [requests, List.nil_append]
  | sendFail phase =>
      obtain ⟨_, _, quiet⟩ := sound.unsent (Or.inr phase)
      refine sound.of_silent rfl silent_nil (Nat.le_refl _) (fun _ _ _ => nofun) ?_
      exact expects.mono rfl silent_nil rfl (Or.inr rfl) quiet.2.symm
  | serve requests => exact sound.serve requests
  | ignore requests =>
      refine sound.of_silent rfl silent_nil (Nat.le_refl _) (fun _ _ _ => nofun) ?_
      exact expects.mono rfl silent_nil rfl (Or.inr (sound.requested requests).1) rfl
  | close =>
      refine sound.of_silent rfl silent_nil (Nat.le_refl _) (fun _ _ _ => nofun) ?_
      exact expects.mono rfl silent_nil rfl (Or.inl rfl) rfl
  | recv phase _ parsed =>
      obtain ⟨⟨response, parsed', produced⟩, requests, nothing⟩ := sound.whole phase whole
      rw [parsed, Option.some.injEq] at parsed'
      subst parsed'
      refine sound.of_silent rfl (silent_returned _ _ _) (Nat.le_refl _) ?_ ⟨requests, nothing⟩
      intro id method response member
      cases List.mem_singleton.mp member
      exact produced
  | recvFail phase _ parsed =>
      obtain ⟨⟨response, parsed', _⟩, _⟩ := sound.whole phase whole
      rw [parsed] at parsed'
      cases parsed'
  | recvError phase =>
      exact sound.of_silent rfl (silent_failed _) (Nat.le_refl _) (by simp) ⟨rfl, rfl⟩

end Channel

/-- The runs of a channel. -/
abbrev ChannelRun [DecidableEq κ] (responses : Responses κ Response)
    (guard : Channel κ → ChannelAction κ Response → Prop) (connected : Bool)
    (events : List (ChannelEvent κ Response)) (s : Channel κ) : Prop :=
  Run (Channel.step responses) guard { connected } events s

/-- In every run whose receives are whole, `CallMethod` returns the response
that the service has produced for the call. -/
theorem responses_received [DecidableEq κ] {responses : Responses κ Response} {connected : Bool}
    {events : List (ChannelEvent κ Response)} {s : Channel κ}
    (run : ChannelRun responses WholeResponse connected events s) {id : Nat} {method : κ}
    {response : Response method} (returned : .returned id method response ∈ events) :
    .produced id method response ∈ events ∧
      ∀ method' response', .produced id method' response' ∈ events →
        (⟨method', response'⟩ : Sigma Response) = ⟨method, response⟩ := by
  have sound : Channel.Sound responses events s := by
    apply Run.invariant (Channel.sound_start connected) _ run
    intro events s action s' emitted sound whole taken
    exact sound.step whole (Channel.step_effect taken)
  have produced := sound.received returned
  exact ⟨produced, fun _ _ other => sound.once produced other⟩

/-- Two calls: the response to the first one is received whole, that to the
second one is empty and the peer then closes the connection. -/
theorem responses_received_twoCalls :
    ∃ (events : List (ChannelEvent RaftMethod RaftResponse)) (s : Channel RaftMethod),
      ChannelRun (raftResponses noUnknown) WholeResponse false events s ∧
      .returned 1 .installSnapshot ⟨0⟩ ∈ events ∧ .produced 1 .installSnapshot ⟨0⟩ ∈ events := by
  obtain ⟨events, s, run, checked⟩ := exists_run_of_exec (Channel.step (raftResponses noUnknown))
    WholeResponse ({ connected := false } : Channel RaftMethod)
    [.callMethod .requestVote, .newConnect true, .serialize true, .send true,
      .serve .requestVote ⟨3, true, 0⟩, .recv 4,
      .callMethod .installSnapshot, .serialize true, .send true,
      .serve .installSnapshot ⟨0⟩, .close, .recv 0]
    (fun (result : Channel RaftMethod × List (ChannelEvent RaftMethod RaftResponse)) =>
      decide (.returned 1 .installSnapshot ⟨0⟩ ∈ result.2))
    (by decide +kernel)
  have returned := of_decide_eq_true checked
  exact ⟨events, s, run, returned, (responses_received run returned).1⟩

/-- The peer closes the connection before it has answered, and `CallMethod`
returns a response of term 0.  A part of a response arrives, and `CallMethod`
returns another response.  No service has produced them. -/
theorem not_responses_received :
    (∃ (events : List (ChannelEvent RaftMethod RaftResponse)) (s : Channel RaftMethod),
      ChannelRun (raftResponses noUnknown) anyStep false events s ∧
      .returned 0 .installSnapshot ⟨0⟩ ∈ events ∧ .produced 0 .installSnapshot ⟨0⟩ ∉ events) ∧
    ∃ (events : List (ChannelEvent RaftMethod RaftResponse)) (s : Channel RaftMethod),
      ChannelRun (raftResponses noUnknown) anyStep false events s ∧
      .returned 0 .appendEntries ⟨3, true, 0, 0⟩ ∈ events ∧
      .produced 0 .appendEntries ⟨3, true, 0, 0⟩ ∉ events := by
  constructor
  · obtain ⟨events, s, run, checked⟩ := exists_run_of_exec
      (Channel.step (raftResponses noUnknown)) anyStep
      ({ connected := false } : Channel RaftMethod)
      [.callMethod .installSnapshot, .newConnect true, .serialize true, .send true, .close, .recv 0]
      (fun (result : Channel RaftMethod × List (ChannelEvent RaftMethod RaftResponse)) =>
        decide (.returned 0 .installSnapshot ⟨0⟩ ∈ result.2 ∧
          .produced 0 .installSnapshot ⟨0⟩ ∉ result.2))
      (by decide +kernel)
    exact ⟨events, s, run, of_decide_eq_true checked⟩
  · obtain ⟨events, s, run, checked⟩ := exists_run_of_exec
      (Channel.step (raftResponses noUnknown)) anyStep
      ({ connected := false } : Channel RaftMethod)
      [.callMethod .appendEntries, .newConnect true, .serialize true, .send true,
        .serve .appendEntries ⟨3, true, -100, 1⟩, .recv 4]
      (fun (result : Channel RaftMethod × List (ChannelEvent RaftMethod RaftResponse)) =>
        decide (.returned 0 .appendEntries ⟨3, true, 0, 0⟩ ∈ result.2 ∧
          .produced 0 .appendEntries ⟨3, true, 0, 0⟩ ∉ result.2))
      (by decide +kernel)
    exact ⟨events, s, run, of_decide_eq_true checked⟩

end CppRaft.Rpc
