import CppRaft.Protocol.Effect
import CppRaft.RaftCore.Exchange

/-!
# Indexes in a cluster

In every run the nodes keep their entries in place, a request reaches no
further than the log of the node that sent it, a reply names no index beyond
the request that it answers, and the arrays of a leader stay within its log.
Since no log ever gets shorter, these bounds hold of requests and replies of
any age.
-/

namespace CppRaft.Protocol

open CppRaft.RaftCore
open CppRaft.Store
open CppRaft.Transition

variable {n : Nat}

namespace Cluster

/-! ## The arrays of a leader -/

/-- What a step does to `m_nextIndex` and `m_matchIndex` of node `v`. -/
inductive ArraysMoved (s : Cluster n) (action : Action n) (v : Fin n) (rf : Raft n) : Prop
  | same : Raft.SameArrays (s.nodes v) rf → ArraysMoved s action v rf
  | elected : (s.nodes v).status ≠ .leader → rf = (s.nodes v).becomeLeader →
      ArraysMoved s action v rf
  | refused {position k a : Nat} {call : RpcCall n} {args : AppendEntriesArgs}
      {reply : AppendEntriesReply} :
      action = .processReply position → s.Awaited position k call (.appendEntries reply) →
      call.request = .appendEntries args a → call.src = v →
      (s.nodes v).status = .leader → reply.term = (s.nodes v).currentTerm →
      reply.success = false → reply.updateNextIndex ≠ -100 →
      rf.matchIndex = (s.nodes v).matchIndex →
      rf.nextIndex =
        Function.update (s.nodes v).nextIndex call.dst reply.updateNextIndex →
      ArraysMoved s action v rf
  | accepted {position k a : Nat} {call : RpcCall n} {args : AppendEntriesArgs}
      {reply : AppendEntriesReply} :
      action = .processReply position → s.Awaited position k call (.appendEntries reply) →
      call.request = .appendEntries args a → call.src = v →
      (s.nodes v).status = .leader →
      rf.matchIndex = Function.update (s.nodes v).matchIndex call.dst
        (max ((s.nodes v).matchIndex call.dst) args.endIndex) →
      rf.nextIndex = Function.update (s.nodes v).nextIndex call.dst
        (max ((s.nodes v).matchIndex call.dst) args.endIndex + 1) →
      ArraysMoved s action v rf
  | installed {position k : Nat} {call : RpcCall n} {args : InstallSnapshotRequest}
      {reply : InstallSnapshotResponse} :
      action = .processReply position → s.Awaited position k call (.installSnapshot reply) →
      call.request = .installSnapshot args → call.src = v →
      (s.nodes v).status = .leader → (s.nodes v).currentTerm = args.term →
      reply.term ≤ (s.nodes v).currentTerm →
      rf.matchIndex = Function.update (s.nodes v).matchIndex call.dst
        args.lastSnapShotIncludeIndex →
      rf.nextIndex = Function.update (s.nodes v).nextIndex call.dst
        (args.lastSnapShotIncludeIndex + 1) →
      ArraysMoved s action v rf

theorem Moved.arrays {s : Cluster n} {action : Action n} {emitted : List (Event n)} {v : Fin n}
    {rf : Raft n} (moved : s.Moved action emitted v rf) : s.ArraysMoved action v rf := by
  cases moved with
  | same => exact ArraysMoved.same ⟨rfl, rfl⟩
  | candidacy => exact ArraysMoved.same ⟨rfl, rfl⟩
  | startConses => exact ArraysMoved.same (Raft.sameArrays_startConses _ _)
  | getApplyLogs collected => exact ArraysMoved.same (Raft.sameArrays_getApplyLogs collected)
  | snapshot compacted => exact ArraysMoved.same (Raft.sameArrays_snapshot compacted)
  | snapshotArgs => exact ArraysMoved.same ⟨rfl, rfl⟩
  | requestVote handled => exact ArraysMoved.same (Raft.sameArrays_requestVote handled)
  | appendEntries1 _ _ _ _ _ handled =>
      exact ArraysMoved.same (Raft.sameArrays_appendEntries1 handled)
  | installSnapshot _ _ _ handled =>
      exact ArraysMoved.same (Raft.sameArrays_installSnapshot handled)
  | sendRequestVote processed _ =>
      rcases Raft.sendRequestVote_cases processed with ⟨_, rfl⟩ | ⟨_, rfl⟩ | ⟨_, _, rfl⟩ |
        ⟨_, _, _, follows, rfl⟩
      · exact ArraysMoved.same ⟨rfl, rfl⟩
      · exact ArraysMoved.same ⟨rfl, rfl⟩
      · exact ArraysMoved.same ⟨rfl, rfl⟩
      · exact ArraysMoved.elected follows rfl
  | sendAppendEntries taken awaited request own processed =>
      rcases Raft.sendAppendEntries_arrays processed with ⟨next, matched⟩ |
        ⟨leads, term, refused, index, matched, next⟩ | ⟨leads, _, _, matched, next⟩
      · exact ArraysMoved.same ⟨next, matched⟩
      · exact ArraysMoved.refused taken awaited request own leads term refused index matched next
      · exact ArraysMoved.accepted taken awaited request own leads matched next
  | @leaderSendSnapShot position k call args reply taken awaited request own =>
      rcases (s.nodes v).leaderSendSnapShot_arrays call.dst args reply with ⟨next, matched⟩ |
        ⟨leads, current, notLater, matched, next⟩
      · exact ArraysMoved.same ⟨next, matched⟩
      · exact ArraysMoved.installed taken awaited request own leads current notLater matched next

/-! ## The invariant -/

/-- The bounds on the indexes of nodes, requests and replies. -/
structure Bounded (s : Cluster n) : Prop where
  placed : ∀ v, (s.nodes v).Placed
  offered : ∀ {call args a}, call ∈ s.calls → call.request = .appendEntries args a →
    args.Numbered ∧ 0 ≤ args.prevLogIndex ∧ (args.prevLogIndex = 0 → args.prevLogTerm = 0) ∧
      args.endIndex ≤ (s.nodes call.src).getLastLogIndex
  shipped : ∀ {call args}, call ∈ s.calls → call.request = .installSnapshot args →
    0 ≤ args.lastSnapShotIncludeIndex ∧
      args.lastSnapShotIncludeIndex ≤ (s.nodes call.src).getLastLogIndex
  answered : ∀ {k : Nat} {reply call args a}, (k, Reply.appendEntries reply) ∈ s.replies →
    s.calls[k]? = some call → call.request = .appendEntries args a → Raft.Answers args reply
  tracked : ∀ {v}, (s.nodes v).status = .leader → ∀ server,
    1 ≤ (s.nodes v).nextIndex server ∧
      (s.nodes v).nextIndex server ≤ (s.nodes v).getLastLogIndex + 1 ∧
      (s.nodes v).matchIndex server ≤ (s.nodes v).getLastLogIndex
  replied : ∀ {k : Nat} {reply}, (k, reply) ∈ s.replies → ∃ call, s.calls[k]? = some call

theorem bounded_start (n : Nat) : (start n).Bounded where
  placed := Raft.placed_init
  offered := by simp [start]
  shipped := by simp [start]
  answered := by simp [start]
  tracked := by
    intro v leader
    cases leader
  replied := by simp [start]

section Step

variable {s s' : Cluster n} {action : Action n} {emitted : List (Event n)}

/-- The nodes keep their entries in place and advance. -/
theorem Bounded.moved (bounded : s.Bounded) {v : Fin n} {rf : Raft n}
    (moved : s.Moved action emitted v rf) : rf.Placed ∧ Raft.Advances (s.nodes v) rf := by
  have placed := bounded.placed v
  have kept : ∀ {rf' : Raft n}, Raft.Keeps (s.nodes v) rf' →
      rf'.Placed ∧ Raft.Advances (s.nodes v) rf' :=
    fun keeps => ⟨keeps.placed placed, keeps.advances⟩
  cases moved with
  | same => exact kept (Raft.Keeps.refl _)
  | candidacy => exact kept { Raft.Keeps.refl _ with term := (Int.lt_succ _).le }
  | startConses => exact Raft.startConses_placed placed _
  | getApplyLogs collected =>
      obtain ⟨placed', advances, _⟩ := Raft.getApplyLogs_placed placed collected
      exact ⟨placed', advances⟩
  | snapshot compacted =>
      obtain ⟨placed', advances, _⟩ := Raft.snapshot_placed placed compacted
      exact ⟨placed', advances⟩
  | snapshotArgs => exact kept (Raft.snapshotArgs_keeps _)
  | requestVote handled => exact kept (Raft.requestVote_keeps handled)
  | appendEntries1 member request _ _ _ handled =>
      exact Raft.appendEntries1_placed placed (bounded.offered member request).1 handled
  | installSnapshot _ _ _ handled => exact Raft.installSnapshot_placed placed handled
  | sendRequestVote processed _ => exact kept (Raft.sendRequestVote_keeps processed)
  | sendAppendEntries _ _ _ _ processed => exact Raft.sendAppendEntries_placed placed processed
  | leaderSendSnapShot => exact kept (Raft.leaderSendSnapShot_keeps _ _ _ _)

/-- The arrays of a node that leads after a step. -/
theorem Bounded.moved_tracked (bounded : s.Bounded) {v : Fin n} {rf : Raft n}
    (moved : s.Moved action emitted v rf) (leader : rf.status = .leader) (server : Fin n) :
    1 ≤ rf.nextIndex server ∧ rf.nextIndex server ≤ rf.getLastLogIndex + 1 ∧
      rf.matchIndex server ≤ rf.getLastLogIndex := by
  obtain ⟨placed, advances⟩ := bounded.moved moved
  have longer := advances.last
  rcases moved.leads leader with ⟨leads, _⟩ | ⟨_, rfl, _⟩
  · have before := bounded.tracked leads server
    cases moved.arrays with
    | same same =>
        rw [same.nextIndex, same.matchIndex]
        omega
    | elected follows _ => exact absurd leads follows
    | @refused position k a call args reply _ awaited request own _ _ refused index matched next =>
        have answers := bounded.answered (List.mem_of_getElem? awaited.answered) awaited.found
          request
        have offered := bounded.offered (List.mem_of_getElem? awaited.found) request
        have range : 1 ≤ reply.updateNextIndex ∧ reply.updateNextIndex ≤ args.prevLogIndex := by
          cases answers with
          | accepted success _ =>
              rw [success] at refused
              cases refused
          | outdated _ same => exact absurd same index
          | refused _ positive below => exact ⟨positive, below⟩
        rw [own] at offered
        unfold AppendEntriesArgs.endIndex at offered
        rw [next, matched]
        by_cases here : server = call.dst
        · subst here
          rw [Function.update_self]
          omega
        · rw [Function.update_of_ne here]
          omega
    | @accepted position k a call args reply _ awaited request own _ matched next =>
        have offered := bounded.offered (List.mem_of_getElem? awaited.found) request
        have nonneg : 0 ≤ args.endIndex := by
          unfold AppendEntriesArgs.endIndex
          omega
        rw [own] at offered
        rw [next, matched]
        by_cases here : server = call.dst
        · subst here
          rw [Function.update_self, Function.update_self]
          omega
        · rw [Function.update_of_ne here, Function.update_of_ne here]
          omega
    | @installed position k call args reply _ awaited request own _ _ _ matched next =>
        have shipped := bounded.shipped (List.mem_of_getElem? awaited.found) request
        rw [own] at shipped
        rw [next, matched]
        by_cases here : server = call.dst
        · subst here
          rw [Function.update_self, Function.update_self]
          omega
        · rw [Function.update_of_ne here, Function.update_of_ne here]
          omega
  · have base := (bounded.placed v).base
    have length := (bounded.placed v).getLastLogIndex
    change 1 ≤ (s.nodes v).getLastLogIndex + 1 ∧
      (s.nodes v).getLastLogIndex + 1 ≤ (s.nodes v).getLastLogIndex + 1 ∧
      0 ≤ (s.nodes v).getLastLogIndex
    omega

/-- Every step keeps the bounds. -/
theorem Bounded.step (bounded : s.Bounded) (effect : s.Effect action s' emitted) :
    s'.Bounded := by
  have longer : ∀ v, (s.nodes v).getLastLogIndex ≤ (s'.nodes v).getLastLogIndex :=
    fun v => (bounded.moved (effect.moved v)).2.last
  exact
    { placed := fun v => (bounded.moved (effect.moved v)).1
      offered := by
        intro call args a member request
        rcases effect.newCall member with before | started
        · obtain ⟨numbered, nonneg, base, last⟩ := bounded.offered before request
          exact ⟨numbered, nonneg, base, last.trans (longer _)⟩
        · cases started with
          | requestVote => cases request
          | @appendEntries i server args' leads _ built =>
              cases request
              have placed := bounded.placed i
              obtain ⟨_, numbered, last, above, previous, _⟩ :=
                Raft.heartBeatTo_built placed built
              have base := placed.base
              refine ⟨numbered, base.trans above, ?_, last.le.trans (longer i)⟩
              intro zero
              obtain ⟨_, ⟨here, term⟩ | ⟨behind, _⟩⟩ := Raft.getPrevLogInfo_cases placed previous
              · rw [term]
                exact placed.baseTerm (here.symm.trans zero)
              · omega
          | installSnapshot => cases request
      shipped := by
        intro call args member request
        rcases effect.newCall member with before | started
        · obtain ⟨nonneg, last⟩ := bounded.shipped before request
          exact ⟨nonneg, last.trans (longer _)⟩
        · cases started with
          | requestVote => cases request
          | appendEntries => cases request
          | @installSnapshot thread i server waiting =>
              cases request
              have placed := bounded.placed i
              have length := placed.getLastLogIndex
              have last := longer i
              refine ⟨placed.base, ?_⟩
              change (s.nodes i).lastSnapshotIncludeIndex ≤ (s'.nodes i).getLastLogIndex
              omega
      answered := by
        intro k reply call args a member found request
        rcases effect.newReply member with before | made
        · obtain ⟨call', found'⟩ := bounded.replied before
          have same := effect.calls_getElem? found'
          rw [found, Option.some.injEq] at same
          subst same
          exact bounded.answered before found' request
        · cases made with
          | @appendEntries a' call' args' _ found' request' handled =>
              have same := effect.calls_getElem? found'
              rw [found, Option.some.injEq] at same
              subst same
              rw [request, Request.appendEntries.injEq] at request'
              obtain ⟨rfl, rfl⟩ := request'
              have offered := bounded.offered (List.mem_of_getElem? found') request
              exact Raft.appendEntries1_answers (bounded.placed _) offered.2.2.1 handled
      tracked := fun leader server => bounded.moved_tracked (effect.moved _) leader server
      replied := by
        intro k reply member
        rcases effect.newReply member with before | made
        · obtain ⟨call, found⟩ := bounded.replied before
          exact ⟨call, effect.calls_getElem? found⟩
        · have found : ∃ call, s.calls[k]? = some call := by
            cases made with
            | requestVote found => exact ⟨_, found⟩
            | appendEntries found => exact ⟨_, found⟩
            | installSnapshot found => exact ⟨_, found⟩
          obtain ⟨call, found⟩ := found
          exact ⟨call, effect.calls_getElem? found⟩ }

theorem bounded_of_run {guard : Cluster n → Action n → Prop} {events : List (Event n)}
    (run : ClusterRun guard events s) : s.Bounded := by
  induction run with
  | nil => exact bounded_start n
  | snoc _ _ taken ih => exact ih.step (step_effect taken)

end Step

end Cluster

end CppRaft.Protocol
