import CppRaft.Protocol.Election
import CppRaft.Protocol.NodeLog

/-!
# The cluster follows the abstract protocol

`Simulates` relates a cluster and its events to a reachable history: every
node, every call on its way, every reply and every event is described by the
history, and the append counters are bounded by the servers they have counted.
-/

namespace CppRaft.Protocol

open CppRaft.Consensus
open CppRaft.Consensus.History
open CppRaft.RaftCore
open CppRaft.Store

variable {n : Nat} {h h' : History (Fin n) LogEntry} {events : List (Event n)} {s : Cluster n}
  {counted : Nat → Finset (Fin n)}

/-- The calls of a heartbeat round, with the term and the last index they
offer. -/
def appendTag : Tag n (Int × Int) := fun call =>
  match call.request with
  | .appendEntries args appendNums =>
      some (appendNums, args.term, args.prevLogIndex + args.entries.length)
  | _ => none

theorem appendTag_of_request {call : RpcCall n} {args : AppendEntriesArgs} {a : Nat}
    (request : call.request = .appendEntries args a) :
    appendTag call = some (a, args.term, args.prevLogIndex + args.entries.length) := by
  simp [appendTag, request]

/-- `v` has acknowledged what a round offers. -/
def Acked (h : History (Fin n) LogEntry) (offered : Int × Int) (v : Fin n) : Prop :=
  offered.2.toNat ≤ h.acked offered.1 v

/-- What the history says of a call. -/
def CallRel (h : History (Fin n) LogEntry) (call : RpcCall n) : Prop :=
  match call.request with
  | .requestVote args _ => Candidacy h call.src args
  | .appendEntries args _ => ∃ k m, Offer h call.src args k m
  | .installSnapshot args => ∃ l, Covers h args l

/-- What the history says of an event. -/
def EventRel (h : History (Fin n) LogEntry) : Event n → Prop
  | .emitted _ msg => ∃ t l, ∃ (k : Nat) (entry : LogEntry), h.CommittedBy t l ∧
      l[k]? = some entry ∧ msg.commandIndex = (k : Int) + 1 ∧ msg.command = entry.command
  | .voted v T c => h.ballot T v = some c
  | .elected c rf => h.leader rf.currentTerm = some c ∧ LogView rf (h.electedLog rf.currentTerm)
  | .committed _ rf => ∃ full, LogView rf full ∧ rf.commitIndex ≤ full.length ∧
      h.CommittedBy rf.currentTerm (full.take rf.commitIndex.toNat)

/-- The history describes the cluster. -/
structure Simulates (events : List (Event n)) (s : Cluster n) (h : History (Fin n) LogEntry)
    (counted : Nat → Finset (Fin n)) : Prop where
  reachable : Reachable h
  node : ∀ v, NodeRel h v (s.nodes v)
  call : ∀ call ∈ s.calls, CallRel h call
  reply : ∀ {k reply}, (k, Reply.appendEntries reply) ∈ s.replies → reply.success = true →
    ∃ call args a, s.calls[k]? = some call ∧ call.request = .appendEntries args a ∧
      reply.term = args.term ∧
      Acked h (args.term, args.prevLogIndex + args.entries.length) call.dst
  event : ∀ event ∈ events, EventRel h event
  leader : ∀ {t c}, h.leader t = some c → Won events c t
  indexed : ∀ {t}, h.Elected t → Indexed (h.leaderLog t)
  tally : Tally appendTag (Acked h) s.calls s.finished s.appendNums.length counted
  counting : ∀ {call args a}, call ∈ s.calls → call.request = .appendEntries args a →
    s.appendNums.getD a 0 ≤ 1 + (counted a).card

theorem simulates_start (n : Nat) :
    Simulates [] (Cluster.start n) (History.start (Fin n) LogEntry) fun _ => ∅ where
  reachable := .start
  node := fun v =>
    { term := rfl
      view :=
        { indexed := by
            intro k entry found
            simp [History.start] at found
          snapshotNonneg := le_rfl
          snapshotBound := le_rfl
          snapshotTerm := rfl
          logs := rfl }
      free := fun _ => rfl
      given := by
        intro c voted
        simp [Cluster.start, Raft.init, Raft.readPersist] at voted
      leads := by
        intro leader
        cases leader
      compacted := le_rfl
      bound := le_rfl
      committed := Or.inl rfl }
  call := by simp [Cluster.start]
  reply := by simp [Cluster.start]
  event := by simp
  leader := by simp [History.start]
  indexed := by
    rintro t ⟨c, leads⟩
    simp [History.start] at leads
  tally := tally_start _ _
  counting := by simp [Cluster.start]

/-! ## Extensions of the history -/

theorem Acked.mono (ext : Extends h h') (offered : Int × Int) (v : Fin n)
    (acked : Acked h offered v) : Acked h' offered v :=
  Nat.le_trans acked (ext.acked _ _)

theorem CallRel.mono (ext : Extends h h') {call : RpcCall n} (rel : CallRel h call) :
    CallRel h' call := by
  unfold CallRel at rel ⊢
  cases request : call.request with
  | requestVote args a =>
      rw [request] at rel
      exact Candidacy.mono ext rel
  | appendEntries args a =>
      rw [request] at rel
      obtain ⟨k, m, offer⟩ := rel
      exact ⟨k, m, offer.mono ext⟩
  | installSnapshot args =>
      rw [request] at rel
      obtain ⟨l, covers⟩ := rel
      exact ⟨l, covers.mono ext⟩

theorem EventRel.mono (ext : Extends h h') {event : Event n} (rel : EventRel h event) :
    EventRel h' event := by
  cases event with
  | emitted i msg =>
      obtain ⟨t, l, k, entry, committed, found⟩ := rel
      exact ⟨t, l, k, entry, committed.mono ext le_rfl, found⟩
  | voted v T c => exact (ext.ballot T v c rel).1
  | elected c rf =>
      obtain ⟨leads, view⟩ := rel
      refine ⟨ext.leader _ _ leads, ?_⟩
      rw [ext.electedLog _ ⟨c, leads⟩]
      exact view
  | committed i rf =>
      obtain ⟨full, view, bound, committed⟩ := rel
      exact ⟨full, view, bound, committed.mono ext le_rfl⟩

/-- A node does not see the steps of another one. -/
theorem NodeRel.other {v w : Fin n} {rf : Raft n} (node : NodeRel h w rf) (moves : Moves v h h')
    (other : w ≠ v) : NodeRel h' w rf where
  term := (moves.sameTerm w other).trans node.term
  view := by
    rw [moves.sameLog w other]
    exact node.view
  free := by
    rw [moves.sameBallot w other]
    exact node.free
  given := by
    rw [moves.sameBallot w other]
    exact node.given
  leads := by
    intro leader
    obtain ⟨leads, current⟩ := node.leads leader
    refine ⟨moves.ext.leader _ _ leads, ?_⟩
    rw [moves.sameLeaderLog w other _ leads, moves.sameLog w other]
    exact current
  compacted := node.compacted
  bound := by
    rw [moves.sameLog w other]
    exact node.bound
  committed := by
    rw [moves.sameLog w other]
    exact node.committed.mono moves.ext le_rfl

/-- Node `v` takes abstract steps and shows some events. -/
theorem Simulates.move (sim : Simulates events s h counted) {v : Fin n} {rf : Raft n}
    (steps : Steps v h h') (node : NodeRel h' v rf) (more : List (Event n))
    (shown : ∀ event ∈ more, EventRel h' event)
    (leader : ∀ {t c}, h'.leader t = some c → Won (events ++ more) c t)
    (indexed : ∀ {t}, h'.Elected t → Indexed (h'.leaderLog t)) :
    Simulates (events ++ more) (s.setNode v rf) h' counted := by
  have moves := steps.moves sim.reachable
  exact
    { reachable := steps.reachable sim.reachable
      node := by
        intro w
        by_cases same : w = v
        · subst same
          rw [Cluster.setNode_nodes_self]
          exact node
        · rw [s.setNode_nodes_ne rf same]
          exact (sim.node w).other moves same
      call := fun call member => (sim.call call member).mono moves.ext
      reply := by
        intro k reply answered success
        obtain ⟨call, args, a, found, request, term, acked⟩ := sim.reply answered success
        exact ⟨call, args, a, found, request, term, acked.mono moves.ext⟩
      event := by
        intro event member
        rcases List.mem_append.mp member with before | added
        · exact (sim.event event before).mono moves.ext
        · exact shown event added
      leader := leader
      indexed := indexed
      tally := sim.tally.mono fun key w acked => acked.mono moves.ext
      counting := sim.counting }

theorem Won.mono {c : Fin n} {t : Int} (won : Won events c t) (more : List (Event n)) :
    Won (events ++ more) c t := by
  obtain ⟨rf, elected, term⟩ := won
  exact ⟨rf, List.mem_append_left _ elected, term⟩

/-- Node `v` takes abstract steps that leave the leaders alone. -/
theorem Simulates.follow (sim : Simulates events s h counted) {v : Fin n} {rf : Raft n}
    (follows : Follows h h' v rf) (more : List (Event n))
    (shown : ∀ event ∈ more, EventRel h' event) :
    Simulates (events ++ more) (s.setNode v rf) h' counted := by
  apply sim.move follows.steps follows.node more shown
  · intro t c leads
    rw [follows.leader] at leads
    exact (sim.leader leads).mono more
  · rintro t ⟨c, leads⟩
    rw [follows.leader] at leads
    rw [follows.leaderLog]
    exact sim.indexed ⟨c, leads⟩

theorem Simulates.follow_silent (sim : Simulates events s h counted) {v : Fin n} {rf : Raft n}
    (follows : Follows h h' v rf) : Simulates events (s.setNode v rf) h' counted := by
  have moved := sim.follow follows [] (by simp)
  rwa [List.append_nil] at moved

/-! ## Calls and replies -/

/-- Calls that belong to no heartbeat round. -/
theorem Simulates.addCalls (sim : Simulates events s h counted) {more : List (RpcCall n)}
    (described : ∀ call ∈ more, CallRel h call) (others : ∀ call ∈ more, appendTag call = none) :
    Simulates events { s with calls := s.calls ++ more } h counted :=
  { sim with
    call := by
      intro call member
      rcases List.mem_append.mp member with before | added
      · exact sim.call call before
      · exact described call added
    reply := by
      intro k reply answered success
      obtain ⟨call, args, a, found, answer⟩ := sim.reply answered success
      exact ⟨call, args, a, Transition.getElem?_append_of_eq_some found, answer⟩
    tally := sim.tally.append_untagged others
    counting := by
      intro call args a member request
      rcases List.mem_append.mp member with before | added
      · exact sim.counting before request
      · have untagged := others call added
        rw [appendTag_of_request request] at untagged
        exact absurd untagged (by simp) }

/-- A heartbeat round. -/
theorem Simulates.addRound (sim : Simulates events s h counted) {more : List (RpcCall n)}
    (src : Fin n) (offered : Int × Int) (described : ∀ call ∈ more, CallRel h call)
    (own : ∀ call ∈ more, call.src = src ∧ call.src ≠ call.dst)
    (tagged : ∀ call ∈ more, appendTag call = some (s.appendNums.length, offered))
    (servers : (more.map RpcCall.dst).Nodup) :
    Simulates events
      { s with calls := s.calls ++ more, appendNums := s.appendNums ++ [1] } h
      (Function.update counted s.appendNums.length ∅) :=
  { sim with
    call := by
      intro call member
      rcases List.mem_append.mp member with before | added
      · exact sim.call call before
      · exact described call added
    reply := by
      intro k reply answered success
      obtain ⟨call, args, a, found, answer⟩ := sim.reply answered success
      exact ⟨call, args, a, Transition.getElem?_append_of_eq_some found, answer⟩
    tally := by
      rw [List.length_append, List.length_singleton]
      exact sim.tally.append_round src offered own tagged servers
    counting := by
      intro call args a member request
      rcases List.mem_append.mp member with before | added
      · have inside := sim.tally.bound before (appendTag_of_request request)
        rw [Function.update_of_ne inside.ne]
        have same : (s.appendNums ++ [1]).getD a 0 = s.appendNums.getD a 0 := by
          simp [List.getD_eq_getElem?_getD, List.getElem?_append_left inside]
        rw [same]
        exact sim.counting before request
      · have tag := tagged call added
        rw [appendTag_of_request request] at tag
        cases tag
        rw [Function.update_self]
        simp [List.getD_eq_getElem?_getD] }

theorem Simulates.addReply (sim : Simulates events s h counted) (k : Nat) (reply : Reply)
    (answers : ∀ answer, reply = .appendEntries answer → answer.success = true →
      ∃ call args a, s.calls[k]? = some call ∧ call.request = .appendEntries args a ∧
        answer.term = args.term ∧
        Acked h (args.term, args.prevLogIndex + args.entries.length) call.dst) :
    Simulates events (s.addReply k reply) h counted :=
  { sim with
    reply := by
      intro k' answer answered success
      rcases List.mem_append.mp answered with before | added
      · exact sim.reply before success
      · rw [List.mem_singleton, Prod.mk.injEq] at added
        obtain ⟨rfl, same⟩ := added
        exact answers answer same.symm success }

theorem Simulates.finish (sim : Simulates events s h counted) (k : Nat) :
    Simulates events (s.finish k) h counted :=
  { sim with tally := sim.tally.finish k }

/-- A successful reply is counted; the counter may be reset. -/
theorem Simulates.count (sim : Simulates events s h counted) {k a : Nat} {call : RpcCall n}
    {args : AppendEntriesArgs} (found : s.calls[k]? = some call)
    (request : call.request = .appendEntries args a) (pending : k ∉ s.finished)
    (acked : Acked h (args.term, args.prevLogIndex + args.entries.length) call.dst) {value : Int}
    (raised : value ≤ s.appendNums.getD a 0 + 1 ∨ value = 0) :
    Simulates events { s.finish k with appendNums := s.appendNums.set a value } h
      (countWith counted a call.dst) := by
  have member := List.mem_of_getElem? found
  have tagged := appendTag_of_request request
  have inside := sim.tally.bound member tagged
  have card := sim.tally.card_count found tagged pending
  have tally := sim.tally.count found tagged acked
  have sameLength : s.appendNums.length = (s.appendNums.set a value).length :=
    List.length_set.symm
  rw [sameLength] at tally
  exact
    { sim with
      tally := tally
      counting := by
        intro call' args' a' member' request'
        rw [getD_set inside]
        by_cases same : a' = a
        · subst same
          have before := sim.counting member request
          rw [if_pos rfl, card]
          omega
        · rw [if_neg same, countWith_of_ne counted _ same]
          exact sim.counting member' request' }

end CppRaft.Protocol
