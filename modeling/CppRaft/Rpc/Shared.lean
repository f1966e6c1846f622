import CppRaft.Rpc.Channel
import Mathlib.Data.List.Nodup

/-!
# Callers that share a channel

The detached threads of one peer call `CallMethod` on the same `MprpcChannel`,
so that their requests and responses share one socket.  Messages arrive whole
and the peer answers in order; what a caller receives is the next message.
-/

namespace CppRaft.Rpc

open CppRaft.Store
open CppRaft.Transition

universe u v

variable {κ : Type u} {Response : κ → Type v}

/-- Where a call of `CallMethod` is: before it connects, before `send`, before it
looks at `m_clientFd` for `recv`, and in `recv` on a socket. -/
inductive Stage (κ : Type u)
  | idle
  | connecting (method : κ)
  | sending (method : κ)
  | sent (method : κ)
  | receiving (method : κ) (fd : Nat)

/-- The request is not sent yet. -/
def Stage.Unsent : Stage κ → Prop
  | .connecting _ => True
  | .sending _ => True
  | _ => False

/-- The method of the response that is awaited. -/
def Stage.awaits : Stage κ → Option κ
  | .sent method => some method
  | .receiving method _ => some method
  | _ => none

/-- A socket.  `waiting` are the calls that have sent on it and whose responses
were not received, in the order of their requests; `requests` are those that the
peer has not yet handled, and `inFlight` its responses with the calls that they
answer. -/
structure Connection (κ : Type u) where
  waiting : List Nat := []
  requests : List (Nat × κ) := []
  inFlight : List (Nat × Bytes) := []

/-- A channel with the calls of its threads and all the sockets that it has
opened; a thread may still receive on a socket that is no longer `m_clientFd`. -/
structure SharedChannel (κ : Type u) where
  stages : Nat → Stage κ := fun _ => .idle
  nextId : Nat := 0
  clientFd : Option Nat := none
  nextFd : Nat := 0
  connections : Nat → Connection κ := fun _ => {}

/-- A step of a calling thread, of the peer or of the network. -/
inductive SharedAction (κ : Type u) (Response : κ → Type v)
  /-- A thread enters `CallMethod` and looks at `m_clientFd`. -/
  | callMethod (method : κ)
  | newConnect (id : Nat) (connected : Bool)
  | serializeError (id : Nat)
  | send (id : Nat) (sent : Bool)
  /-- The peer answers the next request of a connection. -/
  | serve (fd : Nat) (method : κ) (response : Response method)
  /-- A thread looks at `m_clientFd` and calls `recv`. -/
  | enterRecv (id : Nat)
  | recv (id : Nat)
  | recvError (id : Nat)

/-- `SendRpcResponse`; an empty message puts nothing on the stream. -/
def Connection.sendRpcResponse (connection : Connection κ) (id : Nat) (response : Bytes) :
    Connection κ :=
  match serializeToString response with
  | none => connection
  | some [] => connection
  | some (first :: rest) =>
      { connection with inFlight := connection.inFlight ++ [(id, first :: rest)] }

namespace SharedChannel

/-- Move a call. -/
def setStage (s : SharedChannel κ) (id : Nat) (stage : Stage κ) : SharedChannel κ :=
  { s with stages := Function.update s.stages id stage }

/-- Write to a connection. -/
def setConnection (s : SharedChannel κ) (fd : Nat) (connection : Connection κ) :
    SharedChannel κ :=
  { s with connections := Function.update s.connections fd connection }

/-- The socket of the channel is another one, or none. -/
def setClientFd (s : SharedChannel κ) (clientFd : Option Nat) : SharedChannel κ :=
  { s with clientFd }

/-- One step of a caller or of the peer. -/
def step [DecidableEq κ] (responses : Responses κ Response) (s : SharedChannel κ) :
    SharedAction κ Response → Option (SharedChannel κ × List (ChannelEvent κ Response))
  | .callMethod method =>
      let entered := { s with nextId := s.nextId + 1 }
      match s.clientFd with
      | none => some (entered.setStage s.nextId (.connecting method), [])
      | some _ => some (entered.setStage s.nextId (.sending method), [])
  | .newConnect id connected =>
      match s.stages id with
      | .connecting method =>
          if connected then
            let opened := { s with nextFd := s.nextFd + 1 }
            some ((opened.setClientFd (some s.nextFd)).setStage id (.sending method), [])
          else some ((s.setClientFd none).setStage id .idle, [.failed id])
      | _ => none
  | .serializeError id =>
      match s.stages id with
      | .sending _ => some (s.setStage id .idle, [.failed id])
      | _ => none
  | .send id sent =>
      match s.stages id with
      | .sending method =>
          if sent then
            match s.clientFd with
            | none => none
            | some fd =>
                let connection := s.connections fd
                some ((s.setConnection fd
                    { connection with waiting := connection.waiting ++ [id],
                                      requests := connection.requests ++ [(id, method)] }).setStage
                  id (.sent method), [])
          else some ((s.setClientFd none).setStage id (.connecting method), [])
      | _ => none
  | .serve fd method response =>
      let connection := s.connections fd
      match connection.requests with
      | (id, asked) :: rest =>
          if asked = method then
            some (s.setConnection fd ({ connection with requests := rest }.sendRpcResponse id
              (responses.serialize method response)), [.produced id method response])
          else none
      | [] => none
  | .enterRecv id =>
      match s.stages id, s.clientFd with
      | .sent method, some fd => some (s.setStage id (.receiving method fd), [])
      | _, _ => none
  | .recv id =>
      match s.stages id with
      | .receiving method fd =>
          let connection := s.connections fd
          match connection.inFlight with
          | (_, recvBuf) :: rest =>
              let received := (s.setConnection fd
                { connection with waiting := connection.waiting.tail,
                                  inFlight := rest }).setStage id .idle
              match responses.parse method recvBuf with
              | none => some (received, [.failed id])
              | some response => some (received, [.returned id method response])
          | [] => none
      | _ => none
  | .recvError id =>
      match s.stages id with
      | .sent _ | .receiving _ _ => some ((s.setClientFd none).setStage id .idle, [.failed id])
      | _ => none

end SharedChannel

/-- A response is sent as at least one byte. -/
def Responses.Sends (responses : Responses κ Response) (method : κ) (response : Response method) :
    Prop :=
  serializeToString (responses.serialize method response) ≠ none ∧
    serializeToString (responses.serialize method response) ≠ some []

instance (responses : Responses κ Response) (method : κ) (response : Response method) :
    Decidable (responses.Sends method response) :=
  inferInstanceAs (Decidable (_ ∧ _))

/-- A call that receives on a socket is the first of those that have sent on it
and whose responses were not received. -/
def Stage.First (connections : Nat → Connection κ) (id : Nat) : Stage κ → Prop
  | .receiving _ fd => (connections fd).waiting.head? = some id
  | _ => True

instance (connections : Nat → Connection κ) (id : Nat) :
    (stage : Stage κ) → Decidable (stage.First connections id)
  | .receiving _ fd => inferInstanceAs (Decidable ((connections fd).waiting.head? = some id))
  | .idle | .connecting _ | .sending _ | .sent _ => isTrue trivial

/-- The callers receive in the order in which they have sent, and no response is
empty. -/
def InTurn (responses : Responses κ Response) (s : SharedChannel κ) :
    SharedAction κ Response → Prop
  | .recv id => (s.stages id).First s.connections id
  | .serve _ method response => responses.Sends method response
  | _ => True

instance (responses : Responses κ Response) (s : SharedChannel κ) :
    (action : SharedAction κ Response) → Decidable (InTurn responses s action)
  | .recv id => inferInstanceAs (Decidable ((s.stages id).First s.connections id))
  | .serve _ method response => inferInstanceAs (Decidable (responses.Sends method response))
  | .callMethod _ | .newConnect _ _ | .serializeError _ | .send _ _ | .enterRecv _
  | .recvError _ => isTrue trivial

namespace SharedChannel

variable {responses : Responses κ Response} {events emitted : List (ChannelEvent κ Response)}
  {s s' : SharedChannel κ} {action : SharedAction κ Response}

/-- What a step does. -/
inductive Effect (responses : Responses κ Response) (s : SharedChannel κ) :
    SharedAction κ Response → SharedChannel κ → List (ChannelEvent κ Response) → Prop
  | callMethod {method : κ} {stage : Stage κ} :
      stage = .connecting method ∨ stage = .sending method →
      Effect responses s (.callMethod method)
        ({ s with nextId := s.nextId + 1 }.setStage s.nextId stage) []
  | connect {id : Nat} {method : κ} : s.stages id = .connecting method →
      Effect responses s (.newConnect id true)
        (({ s with nextFd := s.nextFd + 1 }.setClientFd (some s.nextFd)).setStage id
          (.sending method)) []
  | connectFail {id : Nat} {method : κ} : s.stages id = .connecting method →
      Effect responses s (.newConnect id false) ((s.setClientFd none).setStage id .idle)
        [.failed id]
  | serializeError {id : Nat} {method : κ} : s.stages id = .sending method →
      Effect responses s (.serializeError id) (s.setStage id .idle) [.failed id]
  | send {id fd : Nat} {method : κ} : s.stages id = .sending method →
      Effect responses s (.send id true)
        ((s.setConnection fd
            { s.connections fd with
              waiting := (s.connections fd).waiting ++ [id],
              requests := (s.connections fd).requests ++ [(id, method)] }).setStage id
          (.sent method)) []
  | sendFail {id : Nat} {method : κ} : s.stages id = .sending method →
      Effect responses s (.send id false) ((s.setClientFd none).setStage id (.connecting method)) []
  | serve {fd id : Nat} {method : κ} {rest : List (Nat × κ)} {response : Response method} :
      (s.connections fd).requests = (id, method) :: rest →
      Effect responses s (.serve fd method response)
        (s.setConnection fd ({ s.connections fd with requests := rest }.sendRpcResponse id
          (responses.serialize method response))) [.produced id method response]
  | enterRecv {id fd : Nat} {method : κ} : s.stages id = .sent method →
      Effect responses s (.enterRecv id) (s.setStage id (.receiving method fd)) []
  | recv {id fd : Nat} {method : κ} {answer : Nat × Bytes} {rest : List (Nat × Bytes)}
      {event : ChannelEvent κ Response} : s.stages id = .receiving method fd →
      (s.connections fd).inFlight = answer :: rest →
      (responses.parse method answer.2 = none ∧ event = .failed id ∨
        ∃ response, responses.parse method answer.2 = some response ∧
          event = .returned id method response) →
      Effect responses s (.recv id)
        ((s.setConnection fd
          { s.connections fd with
            waiting := (s.connections fd).waiting.tail, inFlight := rest }).setStage id .idle)
        [event]
  | recvError {id : Nat} :
      Effect responses s (.recvError id) ((s.setClientFd none).setStage id .idle) [.failed id]

theorem step_effect [DecidableEq κ] (taken : s.step responses action = some (s', emitted)) :
    s.Effect responses action s' emitted := by
  cases action with
  | callMethod method =>
      simp only [step] at taken
      split at taken
      · cases taken
        exact Effect.callMethod (Or.inl rfl)
      · cases taken
        exact Effect.callMethod (Or.inr rfl)
  | newConnect id connected =>
      simp only [step] at taken
      split at taken
      · rename_i method stage
        cases connected with
        | true =>
            cases taken
            exact Effect.connect stage
        | false =>
            cases taken
            exact Effect.connectFail stage
      · cases taken
  | serializeError id =>
      simp only [step] at taken
      split at taken
      · rename_i method stage
        cases taken
        exact Effect.serializeError stage
      · cases taken
  | send id sent =>
      simp only [step] at taken
      split at taken
      · rename_i method stage
        cases sent with
        | true =>
            simp only [if_true] at taken
            split at taken
            · cases taken
            · rename_i fd _
              cases taken
              exact Effect.send stage
        | false =>
            cases taken
            exact Effect.sendFail stage
      · cases taken
  | serve fd method response =>
      simp only [step] at taken
      split at taken
      · rename_i id asked rest requests
        split at taken
        · rename_i same
          subst same
          cases taken
          exact Effect.serve requests
        · cases taken
      · cases taken
  | enterRecv id =>
      simp only [step] at taken
      split at taken
      · rename_i method fd stage _
        cases taken
        exact Effect.enterRecv stage
      · cases taken
  | recv id =>
      simp only [step] at taken
      split at taken
      · rename_i method fd stage
        split at taken
        · rename_i answered recvBuf rest inFlight
          split at taken
          · rename_i parsed
            cases taken
            exact Effect.recv stage inFlight (Or.inl ⟨parsed, rfl⟩)
          · rename_i response parsed
            cases taken
            exact Effect.recv stage inFlight (Or.inr ⟨response, parsed, rfl⟩)
        · cases taken
      · cases taken
  | recvError id =>
      simp only [step] at taken
      split at taken
      · cases taken
        exact Effect.recvError
      · cases taken
        exact Effect.recvError
      · cases taken

/-! ## The order of the requests -/

/-- What a connection holds: its responses and then its requests are those of
the calls that wait, in their order. -/
structure Held (responses : Responses κ Response) (events : List (ChannelEvent κ Response))
    (s : SharedChannel κ) (connection : Connection κ) : Prop where
  order : connection.waiting =
    connection.inFlight.map Prod.fst ++ connection.requests.map Prod.fst
  nodup : connection.waiting.Nodup
  present : ∀ id ∈ connection.waiting, id < s.nextId ∧ ¬ (s.stages id).Unsent
  asked : ∀ request ∈ connection.requests,
    (∀ method ∈ (s.stages request.1).awaits, method = request.2) ∧ Unproduced events request.1
  sent : ∀ answer ∈ connection.inFlight, ∃ method response,
    .produced answer.1 method response ∈ events ∧
      serializeToString (responses.serialize method response) = some answer.2 ∧
      ∀ method' ∈ (s.stages answer.1).awaits, method' = method

/-- What holds along a run whose callers receive in turn. -/
structure Ordered (responses : Responses κ Response) (events : List (ChannelEvent κ Response))
    (s : SharedChannel κ) : Prop where
  held : ∀ fd, Held responses events s (s.connections fd)
  home : ∀ fd fd' id, id ∈ (s.connections fd).waiting → id ∈ (s.connections fd').waiting → fd = fd'
  fresh : ∀ id, s.nextId ≤ id → s.stages id = .idle
  unsent : ∀ id, s.nextId ≤ id ∨ (s.stages id).Unsent → Unproduced events id
  once : AnsweredOnce events
  received : ReturnsProduced events

theorem ordered_start : Ordered responses [] ({} : SharedChannel κ) where
  held := fun _ =>
    { order := rfl
      nodup := List.nodup_nil
      present := fun _ member => nomatch member
      asked := fun _ member => nomatch member
      sent := fun _ member => nomatch member }
  home := fun _ _ _ member => nomatch member
  fresh := fun _ _ => rfl
  unsent := fun _ _ _ _ => List.not_mem_nil
  once := fun _ _ _ _ _ member => nomatch member
  received := fun _ _ _ member => nomatch member

section Held

variable {connection : Connection κ}

theorem Held.requests_waiting (held : Held responses events s connection) {request : Nat × κ}
    (member : request ∈ connection.requests) : request.1 ∈ connection.waiting := by
  rw [held.order]
  exact List.mem_append_right _ (List.mem_map_of_mem member)

theorem Held.inFlight_waiting (held : Held responses events s connection) {answer : Nat × Bytes}
    (member : answer ∈ connection.inFlight) : answer.1 ∈ connection.waiting := by
  rw [held.order]
  exact List.mem_append_left _ (List.mem_map_of_mem member)

/-- New events without a response to one of the requests. -/
theorem Held.emit (held : Held responses events s connection)
    (silent : ∀ request ∈ connection.requests, Unproduced emitted request.1) :
    Held responses (events ++ emitted) s connection where
  order := held.order
  nodup := held.nodup
  present := held.present
  asked := fun request member =>
    ⟨(held.asked request member).1, (held.asked request member).2.append (silent request member)⟩
  sent := by
    intro answer member
    obtain ⟨method, response, produced, rest⟩ := held.sent answer member
    exact ⟨method, response, List.mem_append_left _ produced, rest⟩

/-- The calls that wait have sent their requests and await no other method. -/
theorem Held.advance (held : Held responses events s connection) (next : s.nextId ≤ s'.nextId)
    (unsent : ∀ id ∈ connection.waiting, (s'.stages id).Unsent → (s.stages id).Unsent)
    (awaits : ∀ id ∈ connection.waiting, ∀ method ∈ (s'.stages id).awaits,
      method ∈ (s.stages id).awaits) : Held responses events s' connection where
  order := held.order
  nodup := held.nodup
  present := fun id member =>
    ⟨Nat.lt_of_lt_of_le (held.present id member).1 next, fun unsent' =>
      (held.present id member).2 (unsent id member unsent')⟩
  asked := fun request member =>
    ⟨fun method awaited => (held.asked request member).1 method
      (awaits _ (held.requests_waiting member) method awaited), (held.asked request member).2⟩
  sent := by
    intro answer member
    obtain ⟨method, response, produced, sent, same⟩ := held.sent answer member
    exact ⟨method, response, produced, sent, fun method' awaited =>
      same method' (awaits _ (held.inFlight_waiting member) method' awaited)⟩

end Held

/-! ## The steps of the callers -/

/-- Events without a new response. -/
theorem Ordered.emit (ordered : Ordered responses events s) (silent : Silent emitted)
    (returned : ∀ id method response, .returned id method response ∈ emitted →
      .produced id method response ∈ events) : Ordered responses (events ++ emitted) s where
  held := fun fd => (ordered.held fd).emit fun _ _ => silent _
  home := ordered.home
  fresh := ordered.fresh
  unsent := fun id open' => (ordered.unsent id open').append (silent id)
  once := ordered.once.silent silent
  received := ordered.received.append returned

/-- The channel gets another socket, or none. -/
theorem Ordered.reconnect (ordered : Ordered responses events s) (clientFd : Option Nat)
    (nextFd : Nat) : Ordered responses events { s with clientFd, nextFd } where
  held := fun fd => (ordered.held fd).advance (Nat.le_refl _) (fun _ _ => id) (fun _ _ _ => id)
  home := ordered.home
  fresh := ordered.fresh
  unsent := ordered.unsent
  once := ordered.once
  received := ordered.received

theorem setStage_stages (s : SharedChannel κ) (id : Nat) (stage : Stage κ) (other : Nat) :
    other = id ∧ (s.setStage id stage).stages other = stage ∨
      other ≠ id ∧ (s.setStage id stage).stages other = s.stages other := by
  by_cases here : other = id
  · subst here
    exact Or.inl ⟨rfl, Function.update_self _ _ _⟩
  · exact Or.inr ⟨here, Function.update_of_ne here _ _⟩

/-- A call moves on without sending a request, and what it awaits stays. -/
theorem Ordered.setStage (ordered : Ordered responses events s) {id : Nat} {stage : Stage κ}
    (begun : stage = .idle ∨ s.stages id ≠ .idle)
    (unsent : stage.Unsent → (s.stages id).Unsent)
    (awaits : ∀ method ∈ stage.awaits, method ∈ (s.stages id).awaits) :
    Ordered responses events (s.setStage id stage) := by
  have unsent' : ∀ other, ((s.setStage id stage).stages other).Unsent →
      (s.stages other).Unsent := by
    intro other unsent'
    rcases setStage_stages s id stage other with ⟨rfl, now⟩ | ⟨_, same⟩
    · exact unsent (now ▸ unsent')
    · exact same ▸ unsent'
  have awaits' : ∀ other, ∀ method ∈ ((s.setStage id stage).stages other).awaits,
      method ∈ (s.stages other).awaits := by
    intro other method awaited
    rcases setStage_stages s id stage other with ⟨rfl, now⟩ | ⟨_, same⟩
    · exact awaits method (now ▸ awaited)
    · exact same ▸ awaited
  exact {
    held := fun fd => (ordered.held fd).advance (Nat.le_refl _) (fun other _ => unsent' other)
      (fun other _ => awaits' other)
    home := ordered.home
    fresh := by
      intro other later
      rcases setStage_stages s id stage other with ⟨rfl, now⟩ | ⟨_, same⟩
      · exact now.trans (begun.resolve_right (not_not_intro (ordered.fresh other later)))
      · exact same.trans (ordered.fresh other later)
    unsent := fun other open' => ordered.unsent other (open'.imp_right (unsent' other))
    once := ordered.once
    received := ordered.received }

/-- A call leaves `CallMethod`. -/
theorem Ordered.leave (ordered : Ordered responses events s) (id : Nat) :
    Ordered responses events (s.setStage id .idle) :=
  ordered.setStage (Or.inl rfl) (fun unsent => unsent.elim) (fun _ awaited => nomatch awaited)

theorem Ordered.callMethod (ordered : Ordered responses events s) (stage : Stage κ) :
    Ordered responses events ({ s with nextId := s.nextId + 1 }.setStage s.nextId stage) := by
  let entering : SharedChannel κ := { s with nextId := s.nextId + 1 }
  have different : ∀ fd, ∀ id ∈ (s.connections fd).waiting,
      (entering.setStage s.nextId stage).stages id = s.stages id := by
    intro fd id member
    rcases setStage_stages entering s.nextId stage id with ⟨rfl, _⟩ | ⟨_, same⟩
    · exact absurd ((ordered.held fd).present _ member).1 (Nat.lt_irrefl _)
    · exact same
  exact {
    held := fun fd => (ordered.held fd).advance (Nat.le_succ _)
      (fun id member unsent => different fd id member ▸ unsent)
      (fun id member method awaited => different fd id member ▸ awaited)
    home := ordered.home
    fresh := by
      intro id later
      rcases setStage_stages entering s.nextId stage id with ⟨rfl, _⟩ | ⟨_, same⟩
      · exact absurd later (Nat.not_succ_le_self _)
      · exact same.trans (ordered.fresh id (Nat.le_of_succ_le later))
    unsent := by
      intro id open'
      rcases setStage_stages entering s.nextId stage id with ⟨rfl, _⟩ | ⟨_, same⟩
      · exact ordered.unsent _ (Or.inl (Nat.le_refl _))
      · exact ordered.unsent id (open'.imp (fun later => Nat.le_of_succ_le later)
          (fun unsent => same ▸ unsent))
    once := ordered.once
    received := ordered.received }

/-! ## The steps on a connection -/

theorem setConnection_connections (s : SharedChannel κ) (fd : Nat) (connection : Connection κ)
    (other : Nat) :
    other = fd ∧ (s.setConnection fd connection).connections other = connection ∨
      other ≠ fd ∧ (s.setConnection fd connection).connections other = s.connections other := by
  by_cases here : other = fd
  · subst here
    exact Or.inl ⟨rfl, Function.update_self _ _ _⟩
  · exact Or.inr ⟨here, Function.update_of_ne here _ _⟩

theorem held_setConnection {fd : Nat} {connection : Connection κ}
    (here : Held responses events s connection)
    (there : ∀ other ≠ fd, Held responses events s (s.connections other)) (other : Nat) :
    Held responses events (s.setConnection fd connection)
      ((s.setConnection fd connection).connections other) := by
  rcases setConnection_connections s fd connection other with ⟨rfl, now⟩ | ⟨different, same⟩
  · rw [now]
    exact here.advance (Nat.le_refl _) (fun _ _ => id) (fun _ _ _ => id)
  · rw [same]
    exact (there other different).advance (Nat.le_refl _) (fun _ _ => id) (fun _ _ _ => id)

/-- A call that is added to a connection was on none. -/
theorem Ordered.home_setConnection (ordered : Ordered responses events s) {fd : Nat}
    {connection : Connection κ}
    (added : ∀ id ∈ connection.waiting, id ∈ (s.connections fd).waiting ∨
      ∀ other, id ∉ (s.connections other).waiting) (fd₁ fd₂ id : Nat)
    (member : id ∈ ((s.setConnection fd connection).connections fd₁).waiting)
    (member' : id ∈ ((s.setConnection fd connection).connections fd₂).waiting) : fd₁ = fd₂ := by
  rcases setConnection_connections s fd connection fd₁ with ⟨rfl, now⟩ | ⟨_, same⟩
  · rw [now] at member
    rcases setConnection_connections s fd₁ connection fd₂ with ⟨rfl, _⟩ | ⟨_, same'⟩
    · rfl
    · rw [same'] at member'
      rcases added id member with old | new
      · exact ordered.home _ _ id old member'
      · exact absurd member' (new fd₂)
  · rw [same] at member
    rcases setConnection_connections s fd connection fd₂ with ⟨rfl, now'⟩ | ⟨_, same'⟩
    · rw [now'] at member'
      rcases added id member' with old | new
      · exact ordered.home _ _ id member old
      · exact absurd member (new fd₁)
    · rw [same'] at member'
      exact ordered.home _ _ id member member'

/-- The request that is sent is the last one of its connection. -/
theorem Ordered.send (ordered : Ordered responses events s) {id : Nat} {method : κ}
    (stage : s.stages id = .sending method) (fd : Nat) :
    Ordered responses events ((s.setConnection fd
      { s.connections fd with
        waiting := (s.connections fd).waiting ++ [id],
        requests := (s.connections fd).requests ++ [(id, method)] }).setStage id
          (.sent method)) := by
  let asking := s.setStage id (.sent method)
  let connection : Connection κ :=
    { s.connections fd with
      waiting := (s.connections fd).waiting ++ [id],
      requests := (s.connections fd).requests ++ [(id, method)] }
  change Ordered responses events (asking.setConnection fd connection)
  have unsent : (s.stages id).Unsent := by
    rw [stage]
    trivial
  have absent : ∀ other, id ∉ (s.connections other).waiting :=
    fun other member => ((ordered.held other).present id member).2 unsent
  have now : asking.stages id = .sent method := Function.update_self _ _ _
  have same : ∀ other, other ≠ id → asking.stages other = s.stages other :=
    fun other different => Function.update_of_ne different _ _
  have kept : ∀ other, Held responses events asking (s.connections other) := by
    intro other
    have here : ∀ waiting ∈ (s.connections other).waiting,
        asking.stages waiting = s.stages waiting := fun waiting member =>
      same waiting fun equal => absent other (equal ▸ member)
    exact (ordered.held other).advance (Nat.le_refl _)
      (fun waiting member unsent' => here waiting member ▸ unsent')
      (fun waiting member method awaited => here waiting member ▸ awaited)
  have added : Held responses events asking connection := by
    have old := kept fd
    constructor
    · change (s.connections fd).waiting ++ [id] = _ ++ List.map Prod.fst (_ ++ [(id, method)])
      rw [old.order, List.map_append, List.append_assoc]
      rfl
    · change ((s.connections fd).waiting ++ [id]).Nodup
      rw [← List.concat_eq_append]
      exact old.nodup.concat (absent fd)
    · intro waiting member
      rcases List.mem_append.mp member with before | new
      · exact old.present waiting before
      · cases List.mem_singleton.mp new
        rw [now]
        refine ⟨?_, fun unsent' => unsent'⟩
        by_contra later
        rw [ordered.fresh id (Nat.not_lt.mp later)] at stage
        cases stage
    · intro request member
      rcases List.mem_append.mp member with before | new
      · exact old.asked request before
      · cases List.mem_singleton.mp new
        refine ⟨?_, ordered.unsent id (Or.inr unsent)⟩
        intro method' awaited
        rw [now] at awaited
        exact (Option.mem_some_iff.mp awaited).symm
    · exact old.sent
  exact {
    held := held_setConnection added fun other _ => kept other
    home := by
      apply ordered.home_setConnection
      intro waiting member
      rcases List.mem_append.mp member with before | new
      · exact Or.inl before
      · cases List.mem_singleton.mp new
        exact Or.inr absent
    fresh := by
      intro other later
      by_cases here : other = id
      · subst here
        rw [ordered.fresh other later] at stage
        cases stage
      · exact (same other here).trans (ordered.fresh other later)
    unsent := by
      intro other open'
      apply ordered.unsent
      by_cases here : other = id
      · subst here
        exact Or.inr unsent
      · exact open'.imp_right fun unsent' => same other here ▸ unsent'
    once := ordered.once
    received := ordered.received }

theorem sendRpcResponse_of_sends {method : κ} {response : Response method}
    (sends : responses.Sends method response) (connection : Connection κ) (id : Nat) :
    ∃ bytes, serializeToString (responses.serialize method response) = some bytes ∧
      connection.sendRpcResponse id (responses.serialize method response) =
        { connection with inFlight := connection.inFlight ++ [(id, bytes)] } := by
  cases serialized : serializeToString (responses.serialize method response) with
  | none => exact absurd serialized sends.1
  | some bytes =>
      cases bytes with
      | nil => exact absurd serialized sends.2
      | cons first rest =>
          refine ⟨first :: rest, rfl, ?_⟩
          simp only [Connection.sendRpcResponse, serialized]

/-- The peer answers the first request, after the responses that it has sent. -/
theorem Ordered.serve (ordered : Ordered responses events s) {fd id : Nat} {method : κ}
    {rest : List (Nat × κ)} {response : Response method} (sends : responses.Sends method response)
    (requests : (s.connections fd).requests = (id, method) :: rest) :
    Ordered responses (events ++ [.produced id method response])
      (s.setConnection fd ({ s.connections fd with requests := rest }.sendRpcResponse id
        (responses.serialize method response))) := by
  obtain ⟨bytes, serialized, sent⟩ := sendRpcResponse_of_sends sends
    { s.connections fd with requests := rest } id
  rw [sent]
  have old := ordered.held fd
  have member : (id, method) ∈ (s.connections fd).requests := requests ▸ List.mem_cons_self
  have waits := old.requests_waiting member
  obtain ⟨present, asked⟩ := old.present id waits
  have others : ∀ other, (∀ request ∈ (s.connections other).requests, request.1 ≠ id) →
      Held responses (events ++ [.produced id method response]) s (s.connections other) :=
    fun other different => (ordered.held other).emit fun request inside =>
      unproduced_of_ne (different request inside)
  have nodup := old.nodup
  rw [old.order, requests, List.map_cons] at nodup
  have later : ∀ request ∈ rest, request.1 ≠ id := by
    intro request inside equal
    have twice := (List.nodup_append.mp nodup).2.1
    have again : request.1 ∈ rest.map Prod.fst := List.mem_map_of_mem inside
    exact (List.nodup_cons.mp twice).1 (equal ▸ again)
  have answered : Held responses (events ++ [.produced id method response]) s
      { s.connections fd with
        requests := rest, inFlight := (s.connections fd).inFlight ++ [(id, bytes)] } := by
    constructor
    · change (s.connections fd).waiting = _
      rw [old.order, requests, List.map_append, List.append_assoc]
      rfl
    · exact old.nodup
    · exact old.present
    · intro request inside
      obtain ⟨awaits, unproduced⟩ := old.asked request (requests ▸ List.mem_cons_of_mem _ inside)
      exact ⟨awaits, unproduced.append (unproduced_of_ne (later request inside))⟩
    · intro answer inside
      rcases List.mem_append.mp inside with before | new
      · obtain ⟨method', response', produced, rest'⟩ := old.sent answer before
        exact ⟨method', response', List.mem_append_left _ produced, rest'⟩
      · cases List.mem_singleton.mp new
        exact ⟨method, response, List.mem_append_right _ (List.mem_singleton_self _), serialized,
          (old.asked _ member).1⟩
  exact {
    held := held_setConnection answered fun other different => by
      apply others
      intro request inside equal
      exact different (ordered.home other fd id
        (equal ▸ (ordered.held other).requests_waiting inside) waits)
    home := ordered.home_setConnection fun waiting inside => Or.inl inside
    fresh := ordered.fresh
    unsent := by
      intro other open'
      refine (ordered.unsent other open').append (unproduced_of_ne ?_)
      rintro rfl
      rcases open' with later | unsent
      · exact absurd present (Nat.not_lt.mpr later)
      · exact asked unsent
    once := ordered.once.produce (old.asked _ member).2
    received := by
      apply ordered.received.append
      intro other method' response' inside
      cases List.mem_singleton.mp inside }

/-- The first response is taken, and the first call no longer waits. -/
theorem Ordered.take (ordered : Ordered responses events s) {fd : Nat} {answer : Nat × Bytes}
    {rest : List (Nat × Bytes)} (inFlight : (s.connections fd).inFlight = answer :: rest) :
    Ordered responses events (s.setConnection fd
      { s.connections fd with
        waiting := (s.connections fd).waiting.tail, inFlight := rest }) := by
  have old := ordered.held fd
  have taken : Held responses events s
      { s.connections fd with
        waiting := (s.connections fd).waiting.tail, inFlight := rest } := by
    constructor
    · change (s.connections fd).waiting.tail = _
      rw [old.order, inFlight]
      rfl
    · exact old.nodup.tail
    · exact fun id member => old.present id (List.mem_of_mem_tail member)
    · exact old.asked
    · exact fun later member => old.sent later (inFlight ▸ List.mem_cons_of_mem _ member)
  exact {
    held := held_setConnection taken fun other _ => ordered.held other
    home := ordered.home_setConnection fun id member => Or.inl (List.mem_of_mem_tail member)
    fresh := ordered.fresh
    unsent := ordered.unsent
    once := ordered.once
    received := ordered.received }

/-- The caller that receives first takes the response to its own request. -/
theorem Ordered.recv (ordered : Ordered responses events s) {id fd : Nat} {method : κ}
    {answer : Nat × Bytes} {rest : List (Nat × Bytes)}
    (stage : s.stages id = .receiving method fd)
    (first : (s.connections fd).waiting.head? = some id)
    (inFlight : (s.connections fd).inFlight = answer :: rest) :
    ∃ response, responses.parse method answer.2 = some response ∧
      .produced id method response ∈ events := by
  have held := ordered.held fd
  have own : answer.1 = id := by
    rw [held.order, inFlight, List.map_cons, List.cons_append, List.head?_cons,
      Option.some.injEq] at first
    exact first
  obtain ⟨method', response, produced, serialized, awaits⟩ :=
    held.sent answer (inFlight ▸ List.mem_cons_self)
  rw [own] at produced awaits
  rw [stage] at awaits
  have same := awaits method rfl
  subst same
  exact ⟨response, responses.inverts serialized, produced⟩

theorem Ordered.step (ordered : Ordered responses events s) (inTurn : InTurn responses s action)
    (effect : s.Effect responses action s' emitted) :
    Ordered responses (events ++ emitted) s' := by
  cases effect with
  | callMethod _ => exact (ordered.callMethod _).emit silent_nil (fun _ _ _ => nofun)
  | connect stage =>
      have connected := ordered.reconnect (some s.nextFd) (s.nextFd + 1)
      refine (connected.setStage (Or.inr ?_) ?_ ?_).emit silent_nil (fun _ _ _ => nofun)
      · change s.stages _ ≠ _
        rw [stage]
        exact nofun
      · intro _
        change (s.stages _).Unsent
        rw [stage]
        trivial
      · exact fun _ awaited => nomatch awaited
  | connectFail _ =>
      exact ((ordered.reconnect none s.nextFd).leave _).emit (silent_failed _) (by simp)
  | serializeError _ => exact (ordered.leave _).emit (silent_failed _) (by simp)
  | send stage => exact (ordered.send stage _).emit silent_nil (fun _ _ _ => nofun)
  | sendFail stage =>
      have closed := ordered.reconnect none s.nextFd
      refine (closed.setStage (Or.inr ?_) ?_ ?_).emit silent_nil (fun _ _ _ => nofun)
      · change s.stages _ ≠ _
        rw [stage]
        exact nofun
      · intro _
        change (s.stages _).Unsent
        rw [stage]
        trivial
      · exact fun _ awaited => nomatch awaited
  | serve requests => exact ordered.serve inTurn requests
  | enterRecv stage =>
      refine (ordered.setStage (Or.inr ?_) ?_ ?_).emit silent_nil (fun _ _ _ => nofun)
      · rw [stage]
        exact nofun
      · exact fun unsent => unsent.elim
      · rw [stage]
        exact fun _ awaited => awaited
  | @recv id fd method answer rest event stage inFlight outcome =>
      have first : (s.connections fd).waiting.head? = some id := by
        change Stage.First s.connections id (s.stages id) at inTurn
        rw [stage] at inTurn
        exact inTurn
      obtain ⟨response, parsed, produced⟩ := ordered.recv stage first inFlight
      have received := (ordered.take inFlight).leave
      rcases outcome with ⟨failed, _⟩ | ⟨response', parsed', rfl⟩
      · rw [parsed] at failed
        cases failed
      · rw [parsed, Option.some.injEq] at parsed'
        subst parsed'
        refine (received _).emit (silent_returned _ _ _) ?_
        intro id method response member
        cases List.mem_singleton.mp member
        exact produced
  | recvError =>
      exact ((ordered.reconnect none s.nextFd).leave _).emit (silent_failed _) (by simp)

end SharedChannel

/-- The runs of a channel that threads share. -/
abbrev SharedRun [DecidableEq κ] (responses : Responses κ Response)
    (guard : SharedChannel κ → SharedAction κ Response → Prop)
    (events : List (ChannelEvent κ Response)) (s : SharedChannel κ) : Prop :=
  Run (SharedChannel.step responses) guard {} events s

/-- In every run whose callers receive in turn, a call returns the response to
its own request. -/
theorem own_response [DecidableEq κ] {responses : Responses κ Response}
    {events : List (ChannelEvent κ Response)} {s : SharedChannel κ}
    (run : SharedRun responses (InTurn responses) events s) {id : Nat} {method : κ}
    {response : Response method} (returned : .returned id method response ∈ events) :
    .produced id method response ∈ events ∧
      ∀ method' response', .produced id method' response' ∈ events →
        (⟨method', response'⟩ : Sigma Response) = ⟨method, response⟩ := by
  have ordered : SharedChannel.Ordered responses events s := by
    apply Run.invariant SharedChannel.ordered_start _ run
    intro events s action s' emitted ordered inTurn taken
    exact ordered.step inTurn (SharedChannel.step_effect taken)
  have produced := ordered.received returned
  exact ⟨produced, fun _ _ other => ordered.once produced other⟩

/-- A vote is asked for and entries are sent, and both callers receive in turn. -/
theorem own_response_inTurn :
    ∃ (events : List (ChannelEvent RaftMethod RaftResponse)) (s : SharedChannel RaftMethod),
      SharedRun (raftResponses noUnknown) (InTurn (raftResponses noUnknown)) events s ∧
      .returned 1 .requestVote ⟨3, false, 1⟩ ∈ events ∧
      .produced 1 .requestVote ⟨3, false, 1⟩ ∈ events := by
  obtain ⟨events, s, run, checked⟩ := exists_run_of_exec
    (SharedChannel.step (raftResponses noUnknown)) (InTurn (raftResponses noUnknown))
    ({} : SharedChannel RaftMethod)
    [.callMethod .appendEntries, .newConnect 0 true, .callMethod .requestVote, .send 0 true,
      .send 1 true, .enterRecv 1, .enterRecv 0,
      .serve 0 .appendEntries ⟨3, true, 2, 1⟩, .serve 0 .requestVote ⟨3, false, 1⟩,
      .recv 0, .recv 1]
    (fun (result : SharedChannel RaftMethod × List (ChannelEvent RaftMethod RaftResponse)) =>
      decide (.returned 1 .requestVote ⟨3, false, 1⟩ ∈ result.2))
    (by decide +kernel)
  have returned := of_decide_eq_true checked
  exact ⟨events, s, run, returned, (own_response run returned).1⟩

/-- The thread that asks for a vote receives the reply to the entries: a vote
that was refused is counted as granted. -/
theorem not_own_response :
    ∃ (events : List (ChannelEvent RaftMethod RaftResponse)) (s : SharedChannel RaftMethod),
      SharedRun (raftResponses noUnknown) anyStep events s ∧
      .returned 1 .requestVote ⟨3, true, 2⟩ ∈ events ∧
      .produced 1 .requestVote ⟨3, false, 1⟩ ∈ events := by
  obtain ⟨events, s, run, checked⟩ := exists_run_of_exec
    (SharedChannel.step (raftResponses noUnknown)) anyStep ({} : SharedChannel RaftMethod)
    [.callMethod .appendEntries, .newConnect 0 true, .callMethod .requestVote, .send 0 true,
      .send 1 true, .enterRecv 1, .enterRecv 0,
      .serve 0 .appendEntries ⟨3, true, 2, 0⟩, .serve 0 .requestVote ⟨3, false, 1⟩,
      .recv 1]
    (fun (result : SharedChannel RaftMethod × List (ChannelEvent RaftMethod RaftResponse)) =>
      decide (.returned 1 .requestVote ⟨3, true, 2⟩ ∈ result.2 ∧
        .produced 1 .requestVote ⟨3, false, 1⟩ ∈ result.2))
    (by decide +kernel)
  exact ⟨events, s, run, of_decide_eq_true checked⟩

end CppRaft.Rpc
