import CppRaft.Protocol.Identity
import CppRaft.RaftCore.Applied

/-!
# What the nodes hand to their services

`getApplyLogs` hands over committed commands and `InstallSnapshot` a snapshot;
no other step hands over anything or moves `m_lastApplied`, except `Snapshot`.
Every command comes from a call of `StartConses`, and every snapshot that is
sent or installed was given to `Snapshot` somewhere, as long as a leader sends
what it saved last.
-/

namespace CppRaft.Protocol

open CppRaft.RaftCore
open CppRaft.Store
open CppRaft.Transition

variable {n : Nat}

/-! ## Messages -/

/-- The message that an event hands to the service of node `v`. -/
def Event.message (v : Fin n) : Event n → Option ApplyMsg
  | .emitted i msg => if i = v then some msg else none
  | _ => none

/-- The messages that `getApplyLogs` hands to the service of node `v`. -/
def collected (v : Fin n) (events : List (Event n)) : List ApplyMsg :=
  events.filterMap (Event.message v)

theorem collected_map_emitted (v i : Fin n) (applyMsgs : List ApplyMsg) :
    collected v (applyMsgs.map (Event.emitted i)) = if i = v then applyMsgs else [] := by
  unfold collected
  rw [List.filterMap_map]
  by_cases here : i = v
  · simp [Event.message, here]
  · simp [Event.message, here]

theorem mem_collected {v : Fin n} {events : List (Event n)} {msg : ApplyMsg}
    (member : msg ∈ collected v events) : .emitted v msg ∈ events := by
  obtain ⟨event, inside, shown⟩ := List.mem_filterMap.mp member
  cases event with
  | emitted i msg' =>
      simp only [Event.message, Option.ite_none_right_eq_some, Option.some.injEq] at shown
      obtain ⟨rfl, rfl⟩ := shown
      exact inside
  | voted _ _ _ => cases shown
  | elected _ _ => cases shown
  | committed _ _ => cases shown

namespace Cluster

/-- The snapshot that an action hands to the service of node `v`. -/
def installed (s : Cluster n) (v : Fin n) : Action n → Option ApplyMsg
  | .handle k =>
      match s.calls[k]? with
      | none => none
      | some call =>
          match call.request with
          | .installSnapshot args =>
              if call.dst = v then
                match (s.nodes v).installSnapshot args with
                | .error _ => none
                | .ok (_, _, msg) => msg
              else none
          | _ => none
  | _ => none

/-- What a step hands to the service of node `v`, with the node after it. -/
inductive Delivers (s : Cluster n) (v : Fin n) (action : Action n) (emitted : List (Event n))
    (rf : Raft n) : Prop
  | nothing : rf.lastApplied = (s.nodes v).lastApplied → collected v emitted = [] →
      s.installed v action = none → Delivers s v action emitted rf
  | commands {applyMsgs : List ApplyMsg} :
      action = .getApplyLogs v → (s.nodes v).getApplyLogs = .ok (rf, applyMsgs) →
      collected v emitted = applyMsgs → s.installed v action = none →
      Delivers s v action emitted rf
  | snapshot {call : RpcCall n} {args : InstallSnapshotRequest}
      {response : InstallSnapshotResponse} :
      call ∈ s.calls → call.request = .installSnapshot args →
      (s.nodes v).installSnapshot args = .ok (rf, response, some (Raft.snapshotMsg args)) →
      collected v emitted = [] → s.installed v action = some (Raft.snapshotMsg args) →
      Delivers s v action emitted rf

variable {s s' : Cluster n} {action : Action n} {emitted : List (Event n)}

/-- A step that applies nothing on node `i` and leaves the other nodes alone. -/
theorem delivers_setNode {i : Fin n} {rf : Raft n}
    (same : rf.lastApplied = (s.nodes i).lastApplied) (silent : ∀ v, collected v emitted = [])
    (none : ∀ v, s.installed v action = none) (v : Fin n) :
    s.Delivers v action emitted ((s.setNode i rf).nodes v) := by
  apply Delivers.nothing _ (silent v) (none v)
  by_cases here : v = i
  · subst here
    rw [setNode_nodes_self]
    exact same
  · rw [s.setNode_nodes_ne rf here]

theorem collected_ite {condition : Prop} [Decidable condition] {event : Event n} {v : Fin n}
    (hidden : event.message v = none) : collected v (if condition then [event] else []) = [] := by
  split
  · simp [collected, hidden]
  · rfl

/-- A request is handled: a snapshot that is new is handed over. -/
theorem handle_delivers {k : Nat} {call : RpcCall n} (found : s.calls[k]? = some call)
    (v : Fin n) :
    s.Delivers v (.handle k) (s.handle k call).2 ((s.handle k call).1.nodes v) := by
  unfold handle
  cases request : call.request with
  | requestVote args a =>
      have none : ∀ v, s.installed v (.handle k) = none := by
        intro v
        simp only [installed, found, request]
      simp only
      cases handled : (s.nodes call.dst).requestVote args with
      | error fault => exact .nothing rfl rfl (none v)
      | ok result =>
          exact delivers_setNode (Raft.requestVote_lastApplied handled)
            (fun _ => collected_ite rfl) none v
  | appendEntries args a =>
      have none : ∀ v, s.installed v (.handle k) = none := by
        intro v
        simp only [installed, found, request]
      simp only
      cases handled : (s.nodes call.dst).appendEntries1 args with
      | error fault => exact .nothing rfl rfl (none v)
      | ok result =>
          exact delivers_setNode (Raft.appendEntries1_lastApplied handled) (fun _ => rfl) none v
  | installSnapshot args =>
      have elsewhere : v ≠ call.dst → s.installed v (.handle k) = none := by
        intro other
        simp only [installed, found, request, if_neg (Ne.symm other)]
      simp only
      by_cases here : v = call.dst
      · subst here
        cases handled : (s.nodes call.dst).installSnapshot args with
        | error fault =>
            exact .nothing rfl rfl (by simp only [installed, found, request, if_true, handled])
        | ok result =>
            obtain ⟨rf, response, msg⟩ := result
            have handed : s.installed call.dst (.handle k) = msg := by
              simp only [installed, found, request, if_true, handled]
            have node : ((s.setNode call.dst rf).addReply k (.installSnapshot response)).nodes
                call.dst = rf := s.setNode_nodes_self call.dst rf
            rw [node]
            rcases Raft.installSnapshot_lastApplied handled with ⟨rfl, same⟩ | ⟨rfl, _⟩
            · exact .nothing same rfl handed
            · exact .snapshot (List.mem_of_getElem? found) request handled rfl handed
      · cases handled : (s.nodes call.dst).installSnapshot args with
        | error fault => exact .nothing rfl rfl (elsewhere here)
        | ok result =>
            refine .nothing ?_ rfl (elsewhere here)
            exact congrArg Raft.lastApplied (s.setNode_nodes_ne result.1 here)

/-- Every step but `Snapshot` hands over what it applies. -/
theorem step_delivers (taken : s.step action = some (s', emitted))
    (noSnapshot : ∀ i index data, action ≠ .snapshot i index data) (v : Fin n) :
    s.Delivers v action emitted (s'.nodes v) := by
  cases action with
  | doElection i =>
      cases step_effect taken with
      | idle => exact .nothing rfl rfl rfl
      | fail => exact .nothing rfl rfl rfl
      | doElection =>
          change s.Delivers v _ _ ((s.setNode i (s.nodes i).candidacy).nodes v)
          apply delivers_setNode
          · rfl
          · exact fun _ => rfl
          · exact fun _ => rfl
  | doHeartBeat i =>
      cases step_effect taken with
      | idle => exact .nothing rfl rfl rfl
      | fail => exact .nothing rfl rfl rfl
      | doHeartBeat => exact .nothing rfl rfl rfl
      | doHeartBeatFail => exact .nothing rfl rfl rfl
  | startConses i command =>
      cases step_effect taken with
      | idle => exact .nothing rfl rfl rfl
      | fail => exact .nothing rfl rfl rfl
      | startConses =>
          exact delivers_setNode (Raft.startConses_lastApplied _ _) (fun _ => rfl)
            (fun _ => rfl) v
  | getApplyLogs i =>
      cases step_effect taken with
      | idle => exact .nothing rfl rfl rfl
      | fail => exact .nothing rfl rfl rfl
      | @getApplyLogs i rf applyMsgs given =>
          have shown := collected_map_emitted v i applyMsgs
          by_cases here : i = v
          · subst here
            rw [if_pos rfl] at shown
            rw [setNode_nodes_self]
            exact .commands rfl given shown rfl
          · rw [if_neg here] at shown
            rw [s.setNode_nodes_ne rf (Ne.symm here)]
            exact .nothing rfl shown rfl
  | snapshot i index data => exact absurd rfl (noSnapshot i index data)
  | leaderSendSnapShot thread =>
      cases step_effect taken with
      | idle => exact .nothing rfl rfl rfl
      | fail => exact .nothing rfl rfl rfl
      | sendSnapshot =>
          change s.Delivers v _ _ ((s.setNode _ (s.nodes _).snapshotArgs.1).nodes v)
          apply delivers_setNode
          · rfl
          · exact fun _ => rfl
          · exact fun _ => rfl
  | handle k =>
      simp only [step] at taken
      split at taken
      · rename_i call found
        simp only [Option.ite_none_right_eq_some, Option.some.injEq] at taken
        obtain ⟨_, same⟩ := taken
        have delivers := s.handle_delivers found v
        rwa [same] at delivers
      · cases taken
  | processReply position =>
      cases step_effect taken with
      | idle => exact .nothing rfl rfl rfl
      | fail => exact .nothing rfl rfl rfl
      | sendRequestVote _ _ processed =>
          exact delivers_setNode (Raft.sendRequestVote_lastApplied processed)
            (fun _ => collected_ite rfl) (fun _ => rfl) v
      | sendAppendEntries _ _ processed =>
          exact delivers_setNode (Raft.sendAppendEntries_lastApplied processed)
            (fun _ => collected_ite rfl) (fun _ => rfl) v
      | @leaderSendSnapShot position k call args reply =>
          refine delivers_setNode ?_ (fun _ => rfl) (fun _ => rfl) v
          rcases (s.nodes call.src).leaderSendSnapShot_cases call.dst args reply with
            ⟨_, adopted⟩ | ⟨_, _, moved⟩
          · rw [adopted]
            rfl
          · rw [moved]

/-! ## Commands -/

/-- The commands in the logs and on their way to them have a property. -/
def CommandsFrom (s : Cluster n) (P : Bytes → Prop) : Prop :=
  ∀ entry, s.Present entry → P entry.command

theorem commandsFrom_start (n : Nat) (P : Bytes → Prop) : (start n).CommandsFrom P := by
  rintro entry (⟨v, member⟩ | ⟨call, member, _⟩)
  · cases member
  · cases member

theorem CommandsFrom.mono {P Q : Bytes → Prop} (commands : s.CommandsFrom P)
    (weaker : ∀ command, P command → Q command) : s.CommandsFrom Q :=
  fun entry present => weaker _ (commands entry present)

/-- Only `StartConses` on a leader brings in a command. -/
theorem CommandsFrom.step {P : Bytes → Prop} (commands : s.CommandsFrom P)
    (bounded : s.Bounded) (effect : s.Effect action s' emitted)
    (own : ∀ v command, action = .startConses v command → (s.nodes v).status = .leader →
      P command) : s'.CommandsFrom P := by
  intro entry present
  rcases bounded.present effect present with before | ⟨v, command, taken, leads, rfl, _⟩
  · exact commands entry before
  · exact own v command taken leads

/-- A command that is handed over was in the log of the node. -/
theorem CommandsFrom.handed {P : Bytes → Prop} (commands : s.CommandsFrom P) {v : Fin n}
    {rf : Raft n} {applyMsgs : List ApplyMsg} {msg : ApplyMsg}
    (given : (s.nodes v).getApplyLogs = .ok (rf, applyMsgs)) (member : msg ∈ applyMsgs) :
    P msg.command := by
  obtain ⟨k, found⟩ := List.mem_iff_getElem?.mp member
  obtain ⟨_, entry, held, rfl⟩ := (Raft.getApplyLogs_emits given).2 k msg found
  exact commands entry (Or.inl ⟨v, List.mem_of_getElem? (Raft.logAtIndex_slice held).2⟩)

end Cluster

/-! ## Snapshots -/

/-- The snapshot that a node has saved last, with its index. -/
def savedSnapshot (rf : Raft n) : Option (Int × Bytes) :=
  (latestSnapshot rf.persister).map fun data => (rf.lastSnapshotIncludeIndex, data)

/-- A section that saves no snapshot. -/
structure KeepsSnapshot (rf rf' : Raft n) : Prop where
  index : rf'.lastSnapshotIncludeIndex = rf.lastSnapshotIncludeIndex
  latest : latestSnapshot rf'.persister = latestSnapshot rf.persister

theorem KeepsSnapshot.savedSnapshot_eq {rf rf' : Raft n} (keeps : KeepsSnapshot rf rf') :
    savedSnapshot rf' = savedSnapshot rf := by
  unfold savedSnapshot
  rw [keeps.latest, keeps.index]

theorem savedSnapshot_save (rf : Raft n) (data : Bytes) :
    savedSnapshot (rf.save data) = some (rf.lastSnapshotIncludeIndex, data) := by
  simp [savedSnapshot, latestSnapshot, Raft.save]

/-- `persist` saves the raft state only. -/
theorem keepsSnapshot_persist {rf rf' : Raft n}
    (index : rf'.lastSnapshotIncludeIndex = rf.lastSnapshotIncludeIndex)
    (persister : rf'.persister = rf.persister) : KeepsSnapshot rf rf'.persist where
  index := index
  latest := by simp [latestSnapshot, Raft.persist, persister]

theorem keepsSnapshot_meetTerm (rf : Raft n) (term : Int) :
    KeepsSnapshot rf (rf.meetTerm term) := by
  unfold Raft.meetTerm
  split <;> exact ⟨rfl, rfl⟩

theorem keepsSnapshot_snapshotTerm (rf : Raft n) (term : Int) :
    KeepsSnapshot rf (rf.snapshotTerm term) := by
  unfold Raft.snapshotTerm
  split
  · exact ⟨rfl, (keepsSnapshot_persist rfl rfl).latest⟩
  · exact ⟨rfl, rfl⟩

theorem meetTerm_persister (rf : Raft n) (term : Int) :
    (rf.meetTerm term).persister = rf.persister := by
  unfold Raft.meetTerm
  split <;> rfl

theorem keepsSnapshot_appendEntries1 {rf rf' : Raft n} {args : AppendEntriesArgs}
    {reply : AppendEntriesReply} (handled : rf.appendEntries1 args = .ok (rf', reply)) :
    KeepsSnapshot rf rf' := by
  have met := keepsSnapshot_meetTerm rf args.term
  rcases Raft.appendEntries1_cases handled with ⟨_, rfl, _⟩ | ⟨_, rfl, _⟩ |
    ⟨_, _, _, _, stored, looped, rfl⟩
  · exact ⟨rfl, rfl⟩
  · exact keepsSnapshot_persist met.index (meetTerm_persister rf args.term)
  · obtain ⟨commitIndex, raised⟩ := stored.followCommit_eq args.leaderCommit
    rw [raised, Raft.appendEntriesLoop_eq looped]
    exact keepsSnapshot_persist met.index (meetTerm_persister rf args.term)

theorem keepsSnapshot_requestVote {rf rf' : Raft n} {args : RequestVoteArgs}
    {reply : RequestVoteReply} (handled : rf.requestVote args = .ok (rf', reply)) :
    KeepsSnapshot rf rf' := by
  have met := keepsSnapshot_meetTerm rf args.term
  rcases Raft.requestVote_cases handled with ⟨_, rfl, _⟩ | ⟨_, rfl, _⟩ | ⟨_, _, _, _, _, rfl⟩
  · exact keepsSnapshot_persist rfl rfl
  · exact keepsSnapshot_persist met.index (meetTerm_persister rf args.term)
  · exact keepsSnapshot_persist met.index (meetTerm_persister rf args.term)

theorem keepsSnapshot_sendRequestVote {rf : Raft n} {reply : RequestVoteReply} {votedNum : Int}
    {outcome : Raft.VoteOutcome n} (processed : rf.sendRequestVote reply votedNum = .ok outcome) :
    KeepsSnapshot rf outcome.rf := by
  rcases Raft.sendRequestVote_cases processed with ⟨_, rfl⟩ | ⟨_, rfl⟩ | ⟨_, _, rfl⟩ |
    ⟨_, _, _, _, rfl⟩
  · exact keepsSnapshot_persist rfl rfl
  · exact ⟨rfl, rfl⟩
  · exact ⟨rfl, rfl⟩
  · exact keepsSnapshot_persist rfl rfl

theorem keepsSnapshot_sendAppendEntries {rf rf' : Raft n} {server : Fin n}
    {args : AppendEntriesArgs} {reply : AppendEntriesReply} {appendNums appendNums' : Int}
    (processed : rf.sendAppendEntries server args reply appendNums = .ok (rf', appendNums')) :
    KeepsSnapshot rf rf' := by
  rcases Raft.sendAppendEntries_cases processed with ⟨_, _, rfl, _⟩ | ⟨_, _, rfl⟩ |
    ⟨_, _, _, _, _, _, rfl, _⟩
  all_goals exact ⟨rfl, rfl⟩

theorem keepsSnapshot_leaderSendSnapShot (rf : Raft n) (server : Fin n)
    (args : InstallSnapshotRequest) (reply : InstallSnapshotResponse) :
    KeepsSnapshot rf (rf.leaderSendSnapShot server args reply) := by
  rcases rf.leaderSendSnapShot_cases server args reply with ⟨_, adopted⟩ | ⟨_, _, moved⟩
  · rw [adopted]
    exact keepsSnapshot_persist rfl rfl
  · rw [moved]
    exact ⟨rfl, rfl⟩

theorem keepsSnapshot_startConses (rf : Raft n) (command : Bytes) :
    KeepsSnapshot rf (rf.startConses command).1 := by
  rcases rf.startConses_cases command with ⟨_, refused⟩ | ⟨_, appended⟩
  · rw [refused]
    exact ⟨rfl, rfl⟩
  · rw [appended]
    exact keepsSnapshot_persist rfl rfl

theorem keepsSnapshot_snapshotArgs (rf : Raft n) : KeepsSnapshot rf rf.snapshotArgs.1 where
  index := rfl
  latest := by simp [latestSnapshot, Raft.snapshotArgs]

/-- `InstallSnapshot` saves the snapshot of the request or none. -/
theorem savedSnapshot_installSnapshot {rf rf' : Raft n} {args : InstallSnapshotRequest}
    {response : InstallSnapshotResponse} {msg : Option ApplyMsg}
    (handled : rf.installSnapshot args = .ok (rf', response, msg)) :
    savedSnapshot rf' = savedSnapshot rf ∨
      savedSnapshot rf' = some (args.lastSnapShotIncludeIndex, args.data) := by
  rcases Raft.installSnapshot_cases handled with ⟨_, rfl, _⟩ | ⟨_, _, rfl, _⟩ |
    ⟨_, _, ⟨logs, _, rfl⟩, _⟩
  · exact Or.inl rfl
  · exact Or.inl (keepsSnapshot_snapshotTerm rf args.term).savedSnapshot_eq
  · exact Or.inr (savedSnapshot_save _ _)

/-- `Snapshot` saves what it is given or nothing. -/
theorem savedSnapshot_snapshot {rf rf' : Raft n} {index : Int} {data : Bytes}
    (taken : rf.snapshot index data = .ok rf') :
    savedSnapshot rf' = savedSnapshot rf ∨ savedSnapshot rf' = some (index, data) := by
  rcases Raft.snapshot_cases taken with rfl | ⟨_, _, _, _, _, _, rfl⟩
  · exact Or.inl rfl
  · exact Or.inr (savedSnapshot_save _ _)

namespace Cluster

/-- The snapshots that nodes have saved or sent satisfy a relation. -/
structure SnapshotsFrom (s : Cluster n) (made : Int → Bytes → Prop) : Prop where
  saved : ∀ v index data, savedSnapshot (s.nodes v) = some (index, data) → made index data
  shipped : ∀ call ∈ s.calls, ∀ args, call.request = .installSnapshot args →
    made args.lastSnapShotIncludeIndex args.data

end Cluster

/-- A leader sends the snapshot that it has saved last. -/
def SendsSaved (s : Cluster n) : Action n → Prop
  | .leaderSendSnapShot thread =>
      ∀ i ∈ (s.snapshotThreads[thread]?).map Prod.fst,
        latestSnapshot (s.nodes i).persister = some (s.nodes i).snapshotArgs.2.data
  | _ => True

instance (s : Cluster n) : (action : Action n) → Decidable (SendsSaved s action)
  | .leaderSendSnapShot thread =>
      inferInstanceAs (Decidable (∀ i ∈ (s.snapshotThreads[thread]?).map Prod.fst,
        latestSnapshot (s.nodes i).persister = some (s.nodes i).snapshotArgs.2.data))
  | .doElection _ | .doHeartBeat _ | .startConses _ _ | .getApplyLogs _ | .snapshot _ _ _
  | .handle _ | .processReply _ => isTrue trivial

namespace Cluster

variable {s s' : Cluster n} {action : Action n} {emitted : List (Event n)}
  {made : Int → Bytes → Prop}

theorem snapshotsFrom_start (n : Nat) (made : Int → Bytes → Prop) :
    (start n).SnapshotsFrom made where
  saved := by
    intro v index data saved
    simp [start, savedSnapshot, latestSnapshot, Raft.init, Raft.readPersist] at saved
  shipped := by simp [start]

theorem SnapshotsFrom.mono {made' : Int → Bytes → Prop} (snapshots : s.SnapshotsFrom made)
    (weaker : ∀ index data, made index data → made' index data) : s.SnapshotsFrom made' where
  saved := fun v index data saved => weaker _ _ (snapshots.saved v index data saved)
  shipped := fun call member args request =>
    weaker _ _ (snapshots.shipped call member args request)

/-- What a step makes of the saved snapshot of a node. -/
theorem Effect.savedSnapshot (effect : s.Effect action s' emitted) (v : Fin n) :
    Protocol.savedSnapshot (s'.nodes v) = Protocol.savedSnapshot (s.nodes v) ∨
    (∃ index data, action = .snapshot v index data ∧
      Protocol.savedSnapshot (s'.nodes v) = some (index, data)) ∨
    ∃ call ∈ s.calls, ∃ args, call.request = .installSnapshot args ∧
      Protocol.savedSnapshot (s'.nodes v) =
        some (args.lastSnapShotIncludeIndex, args.data) := by
  have kept : ∀ {i : Fin n} {rf : Raft n}, KeepsSnapshot (s.nodes i) rf →
      Protocol.savedSnapshot ((s.setNode i rf).nodes v) = Protocol.savedSnapshot (s.nodes v) := by
    intro i rf keeps
    by_cases here : v = i
    · subst here
      rw [setNode_nodes_self, keeps.savedSnapshot_eq]
    · rw [s.setNode_nodes_ne rf here]
  cases effect with
  | idle => exact Or.inl rfl
  | fail => exact Or.inl rfl
  | doElection => exact Or.inl (kept (keepsSnapshot_persist rfl rfl))
  | doHeartBeat => exact Or.inl rfl
  | doHeartBeatFail => exact Or.inl rfl
  | startConses => exact Or.inl (kept (keepsSnapshot_startConses _ _))
  | getApplyLogs given =>
      rw [Raft.getApplyLogs_eq given]
      exact Or.inl (kept ⟨rfl, rfl⟩)
  | @snapshot i index data rf compacted =>
      by_cases here : v = i
      · subst here
        rw [setNode_nodes_self]
        exact (savedSnapshot_snapshot compacted).imp_right fun saved =>
          Or.inl ⟨index, data, rfl, saved⟩
      · rw [s.setNode_nodes_ne rf here]
        exact Or.inl rfl
  | sendSnapshot => exact Or.inl (kept (keepsSnapshot_snapshotArgs _))
  | requestVote _ _ handled => exact Or.inl (kept (keepsSnapshot_requestVote handled))
  | appendEntries1 _ _ handled => exact Or.inl (kept (keepsSnapshot_appendEntries1 handled))
  | @installSnapshot k call args rf reply msg found request handled =>
      change Protocol.savedSnapshot ((s.setNode call.dst rf).nodes v) = _ ∨ _ ∨
        ∃ call ∈ s.calls, ∃ args, call.request = .installSnapshot args ∧
          Protocol.savedSnapshot ((s.setNode _ rf).nodes v) = _
      by_cases here : v = call.dst
      · subst here
        rw [setNode_nodes_self]
        exact (savedSnapshot_installSnapshot handled).imp_right fun saved =>
          Or.inr ⟨call, List.mem_of_getElem? found, args, request, saved⟩
      · rw [s.setNode_nodes_ne rf here]
        exact Or.inl rfl
  | sendRequestVote _ _ processed => exact Or.inl (kept (keepsSnapshot_sendRequestVote processed))
  | sendAppendEntries _ _ processed =>
      exact Or.inl (kept (keepsSnapshot_sendAppendEntries processed))
  | leaderSendSnapShot => exact Or.inl (kept (keepsSnapshot_leaderSendSnapShot _ _ _ _))

/-- Only `Snapshot` brings in a snapshot, as long as leaders send what they
saved. -/
theorem SnapshotsFrom.step (snapshots : s.SnapshotsFrom made)
    (effect : s.Effect action s' emitted) (sends : SendsSaved s action)
    (own : ∀ v index data, action = .snapshot v index data → made index data) :
    s'.SnapshotsFrom made where
  saved := by
    intro v index data saved
    rcases effect.savedSnapshot v with same | ⟨index', data', taken, new⟩ |
      ⟨call, member, args, request, new⟩
    · exact snapshots.saved v index data (same ▸ saved)
    · rw [saved] at new
      cases new
      exact own v index data taken
    · rw [saved] at new
      cases new
      exact snapshots.shipped call member args request
  shipped := by
    intro call member args request
    rcases effect.newCall member with before | started
    · exact snapshots.shipped call before args request
    · cases started with
      | requestVote => cases request
      | appendEntries => cases request
      | @installSnapshot thread i server waiting =>
          cases request
          have latest := sends i (by rw [waiting]; rfl)
          apply snapshots.saved i
          rw [Protocol.savedSnapshot, latest]
          rfl

end Cluster

end CppRaft.Protocol
