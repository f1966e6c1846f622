import CppRaft.Kv.HostEffect

/-!
# The owner of a wait channel

`StartConses` of one node never gives an index twice, because the last log
index never decreases.  So no two handlers share an index, and each has a queue
of its own in `waitApplyCh`.
-/

namespace CppRaft.Kv

open CppRaft.Store

variable {n : Nat}

namespace Host

variable {s s' : Host n} {emitted : List HostEvent}

/-- Two stages that say the same about the channel of their handler. -/
structure SameChannel (st st' : HandlerStage) : Prop where
  raftIndex : st'.raftIndex = st.raftIndex
  ch : st'.ch = st.ch
  serves : st'.serves = st.serves

theorem SameChannel.refl (st : HandlerStage) : SameChannel st st :=
  ⟨rfl, rfl, rfl⟩

theorem sameChannel_update {h : Nat} {st : HandlerStage}
    (stages : s'.stage = Function.update s.stage h st) (same : SameChannel (s.stage h) st)
    (h' : Nat) : SameChannel (s.stage h') (s'.stage h') := by
  rw [stages]
  by_cases here : h' = h
  · subst here
    rw [Function.update_self]
    exact same
  · rw [Function.update_of_ne here]
    exact SameChannel.refl _

/-- No two handlers share an index or a queue, and `waitApplyCh` holds the
queues of the handlers that have not deleted theirs. -/
structure Owned (s : Host n) : Prop where
  index : ∀ {h raftIndex}, (s.stage h).raftIndex = some raftIndex →
    raftIndex ≤ s.rf.getLastLogIndex
  apart : ∀ {h h' raftIndex}, (s.stage h).raftIndex = some raftIndex →
    (s.stage h').raftIndex = some raftIndex → h = h'
  inside : ∀ {h ch}, (s.stage h).ch = some ch → ch < s.kv.lockQueues.length
  own : ∀ {h h' ch}, (s.stage h).ch = some ch → (s.stage h').ch = some ch → h = h'
  mapped : ∀ {raftIndex ch}, s.kv.waitApplyCh.lookup raftIndex = some ch ↔
    ∃ h, (s.stage h).raftIndex = some raftIndex ∧ (s.stage h).ch = some ch ∧
      (s.stage h).serves = true

theorem owned_start (me : Fin n) (maxRaftState : Int) : (start me maxRaftState).Owned where
  index := by simp [start, stage, HandlerStage.raftIndex]
  apart := by simp [start, stage, HandlerStage.raftIndex]
  inside := by simp [start, stage, HandlerStage.ch]
  own := by simp [start, stage, HandlerStage.ch]
  mapped := by simp [start, stage, HandlerStage.ch, Pipeline.start, KvServer.start]

/-- A step that changes no handler's channel. -/
theorem Owned.keep (owned : s.Owned) (last : s.rf.getLastLogIndex ≤ s'.rf.getLastLogIndex)
    (same : ∀ h, SameChannel (s.stage h) (s'.stage h))
    (waitApplyCh : s'.kv.waitApplyCh = s.kv.waitApplyCh)
    (length : s'.kv.lockQueues.length = s.kv.lockQueues.length) : s'.Owned where
  index := by
    intro h raftIndex given
    rw [(same h).raftIndex] at given
    exact (owned.index given).trans last
  apart := by
    intro h h' raftIndex given given'
    rw [(same h).raftIndex] at given
    rw [(same h').raftIndex] at given'
    exact owned.apart given given'
  inside := by
    intro h ch taken
    rw [(same h).ch] at taken
    rw [length]
    exact owned.inside taken
  own := by
    intro h h' ch taken taken'
    rw [(same h).ch] at taken
    rw [(same h').ch] at taken'
    exact owned.own taken taken'
  mapped := by
    intro raftIndex ch
    simp only [waitApplyCh, (same _).raftIndex, (same _).ch, (same _).serves]
    exact owned.mapped

theorem stage_self {h : Nat} {st : HandlerStage}
    (stages : s'.stage = Function.update s.stage h st) : s'.stage h = st := by
  rw [stages, Function.update_self]

theorem stage_other {h h' : Nat} {st : HandlerStage}
    (stages : s'.stage = Function.update s.stage h st) (other : h' ≠ h) :
    s'.stage h' = s.stage h' := by
  rw [stages, Function.update_of_ne other]

/-- If `h` has a new key, no two handlers share one. -/
theorem eq_of_fresh {κ : Type} (held : Nat → Option κ) {h : Nat} {new : κ}
    (here : held h = some new) (fresh : ∀ {h'}, h' ≠ h → held h' ≠ some new)
    (apart : ∀ {h' h'' key}, h' ≠ h → h'' ≠ h → held h' = some key → held h'' = some key →
      h' = h'')
    {h' h'' : Nat} {key : κ} (has : held h' = some key) (has' : held h'' = some key) :
    h' = h'' := by
  by_cases first : h' = h
  · by_cases second : h'' = h
    · rw [first, second]
    · rw [first, here] at has
      exact absurd (has'.trans has.symm) (fresh second)
  · by_cases second : h'' = h
    · rw [second, here] at has'
      exact absurd (has.trans has'.symm) (fresh first)
    · exact apart first second has has'

/-- The index that `StartConses` gives is new. -/
theorem Owned.accept (owned : s.Owned) {h : Nat} {raftIndex : Int}
    (starting : s.stage h = .starting)
    (stages : s'.stage = Function.update s.stage h (.creating raftIndex))
    (same : SameChannels s s') (above : s.rf.getLastLogIndex < raftIndex)
    (below : raftIndex ≤ s'.rf.getLastLogIndex) : s'.Owned := by
  have here := stage_self stages
  have ch : ∀ h', (s'.stage h').ch = (s.stage h').ch := by
    intro h'
    by_cases same : h' = h
    · rw [same, here, starting]
      rfl
    · rw [stage_other stages same]
  have older : ∀ {h' given}, h' ≠ h → (s'.stage h').raftIndex = some given → given < raftIndex := by
    intro h' given other before
    rw [stage_other stages other] at before
    exact (owned.index before).trans_lt above
  exact
    { index := by
        intro h' given has
        by_cases same : h' = h
        · rw [same, here] at has
          cases has
          exact below
        · exact (older same has).le.trans below
      apart := by
        apply eq_of_fresh (fun h' => (s'.stage h').raftIndex) (congrArg HandlerStage.raftIndex here)
        · intro h' other has
          exact absurd (older other has) (lt_irrefl _)
        · intro h' h'' given first second has has'
          rw [stage_other stages first] at has
          rw [stage_other stages second] at has'
          exact owned.apart has has'
      inside := by
        intro h' queue has
        rw [ch] at has
        rw [same.lockQueues]
        exact owned.inside has
      own := by
        intro h' h'' queue has has'
        rw [ch] at has has'
        exact owned.own has has'
      mapped := by
        intro given queue
        rw [same.waitApplyCh, owned.mapped]
        constructor
        · rintro ⟨h', index, has, serves⟩
          have other : h' ≠ h := by
            rintro rfl
            rw [starting] at has
            cases has
          exact ⟨h', by rw [stage_other stages other]; exact ⟨index, has, serves⟩⟩
        · rintro ⟨h', index, has, serves⟩
          have other : h' ≠ h := by
            rintro rfl
            rw [here] at has
            cases has
          rw [stage_other stages other] at index has serves
          exact ⟨h', index, has, serves⟩ }

/-- Nobody has made a channel for the index of a handler before it does. -/
theorem Owned.unmade (owned : s.Owned) {h : Nat} {raftIndex : Int}
    (creating : s.stage h = .creating raftIndex) : s.kv.waitApplyCh.lookup raftIndex = none := by
  cases found : s.kv.waitApplyCh.lookup raftIndex with
  | none => rfl
  | some ch =>
      obtain ⟨h', index, has, _⟩ := owned.mapped.mp found
      have same := owned.apart index (show (s.stage h).raftIndex = some raftIndex by
        rw [creating]; rfl)
      rw [same, creating] at has
      cases has

theorem sendMessageToWaitChan_waitApplyCh (kv : KvServer) (op : Op) (raftIndex : Int) :
    (kv.sendMessageToWaitChan op raftIndex).waitApplyCh = kv.waitApplyCh := by
  unfold KvServer.sendMessageToWaitChan
  split
  · rfl
  · rfl

theorem length_sendMessageToWaitChan (kv : KvServer) (op : Op) (raftIndex : Int) :
    (kv.sendMessageToWaitChan op raftIndex).lockQueues.length = kv.lockQueues.length := by
  unfold KvServer.sendMessageToWaitChan
  split
  · rfl
  · exact List.length_modify ..

theorem createWaitCh_unmade {kv : KvServer} {raftIndex : Int}
    (unmade : kv.waitApplyCh.lookup raftIndex = none) :
    kv.createWaitCh raftIndex =
      ({ kv with
          waitApplyCh := kv.waitApplyCh.insert raftIndex kv.lockQueues.length
          lockQueues := kv.lockQueues ++ [[]] },
        kv.lockQueues.length) := by
  simp [KvServer.createWaitCh, unmade]

/-- A handler makes its channel. -/
theorem Owned.create (owned : s.Owned) {h : Nat} {raftIndex : Int}
    (last : s.rf.getLastLogIndex ≤ s'.rf.getLastLogIndex)
    (creating : s.stage h = .creating raftIndex)
    (stages : s'.stage = Function.update s.stage h
      (.serving raftIndex s.kv.lockQueues.length .waiting))
    (waitApplyCh : s'.kv.waitApplyCh =
      s.kv.waitApplyCh.insert raftIndex s.kv.lockQueues.length)
    (lockQueues : s'.kv.lockQueues = s.kv.lockQueues ++ [[]]) : s'.Owned := by
  have here := stage_self stages
  have index : ∀ h', (s'.stage h').raftIndex = (s.stage h').raftIndex := by
    intro h'
    by_cases same : h' = h
    · rw [same, here, creating]
      rfl
    · rw [stage_other stages same]
  have older : ∀ {h' ch}, h' ≠ h → (s'.stage h').ch = some ch → ch < s.kv.lockQueues.length := by
    intro h' ch other has
    rw [stage_other stages other] at has
    exact owned.inside has
  exact
    { index := by
        intro h' given has
        rw [index] at has
        exact (owned.index has).trans last
      apart := by
        intro h' h'' given has has'
        rw [index] at has has'
        exact owned.apart has has'
      inside := by
        intro h' ch has
        rw [lockQueues, List.length_append, List.length_singleton]
        by_cases same : h' = h
        · rw [same, here] at has
          cases has
          omega
        · have := older same has
          omega
      own := by
        apply eq_of_fresh (fun h' => (s'.stage h').ch) (congrArg HandlerStage.ch here)
        · intro h' other has
          exact absurd (older other has) (lt_irrefl _)
        · intro h' h'' ch first second has has'
          rw [stage_other stages first] at has
          rw [stage_other stages second] at has'
          exact owned.own has has'
      mapped := by
        intro given ch
        by_cases same : given = raftIndex
        · subst same
          rw [waitApplyCh, Finmap.lookup_insert, Option.some.injEq]
          constructor
          · rintro rfl
            exact ⟨h, by rw [here]; exact ⟨rfl, rfl, rfl⟩⟩
          · rintro ⟨h', has, taken, _⟩
            rw [index] at has
            have me := owned.apart has (show (s.stage h).raftIndex = some given by
              rw [creating]; rfl)
            rw [me, here] at taken
            exact Option.some.inj taken
        · rw [waitApplyCh, Finmap.lookup_insert_of_ne _ same, owned.mapped]
          constructor
          · rintro ⟨h', has, taken, serves⟩
            have other : h' ≠ h := by
              rintro rfl
              rw [creating] at taken
              cases taken
            exact ⟨h', by rw [stage_other stages other]; exact ⟨has, taken, serves⟩⟩
          · rintro ⟨h', has, taken, serves⟩
            have other : h' ≠ h := by
              rintro rfl
              rw [here] at has
              exact same (Option.some.inj has).symm
            rw [stage_other stages other] at has taken serves
            exact ⟨h', has, taken, serves⟩ }

/-- A handler deletes its channel. -/
theorem Owned.delete (owned : s.Owned) {h ch : Nat} {raftIndex : Int} {reply : Reply}
    (last : s.rf.getLastLogIndex ≤ s'.rf.getLastLogIndex)
    (serving : s.stage h = .serving raftIndex ch (.deleting reply))
    (stages : s'.stage = Function.update s.stage h (.returned raftIndex ch reply))
    (waitApplyCh : s'.kv.waitApplyCh = s.kv.waitApplyCh.erase raftIndex)
    (lockQueues : s'.kv.lockQueues = s.kv.lockQueues) : s'.Owned := by
  have here := stage_self stages
  have same : ∀ h', (s'.stage h').raftIndex = (s.stage h').raftIndex ∧
      (s'.stage h').ch = (s.stage h').ch := by
    intro h'
    by_cases same : h' = h
    · rw [same, here, serving]
      exact ⟨rfl, rfl⟩
    · rw [stage_other stages same]
      exact ⟨rfl, rfl⟩
  exact
    { index := by
        intro h' given has
        rw [(same h').1] at has
        exact (owned.index has).trans last
      apart := by
        intro h' h'' given has has'
        rw [(same h').1] at has
        rw [(same h'').1] at has'
        exact owned.apart has has'
      inside := by
        intro h' queue has
        rw [(same h').2] at has
        rw [lockQueues]
        exact owned.inside has
      own := by
        intro h' h'' queue has has'
        rw [(same h').2] at has
        rw [(same h'').2] at has'
        exact owned.own has has'
      mapped := by
        intro given queue
        have mine : (s.stage h).raftIndex = some raftIndex := by
          rw [serving]
          rfl
        by_cases erased : given = raftIndex
        · subst erased
          rw [waitApplyCh, Finmap.lookup_erase]
          simp only [reduceCtorEq, false_iff]
          rintro ⟨h', has, _, serves⟩
          rw [(same h').1] at has
          rw [owned.apart has mine, here] at serves
          cases serves
        · rw [waitApplyCh, Finmap.lookup_erase_ne erased, owned.mapped]
          constructor
          · rintro ⟨h', has, taken, serves⟩
            have other : h' ≠ h := by
              rintro rfl
              rw [mine] at has
              exact erased (Option.some.inj has).symm
            exact ⟨h', by rw [stage_other stages other]; exact ⟨has, taken, serves⟩⟩
          · rintro ⟨h', has, taken, serves⟩
            have other : h' ≠ h := by
              rintro rfl
              rw [here] at serves
              cases serves
            rw [stage_other stages other] at has taken serves
            exact ⟨h', has, taken, serves⟩ }

theorem Owned.step (owned : s.Owned) (effect : Effect s s' emitted)
    (last : s.rf.getLastLogIndex ≤ s'.rf.getLastLogIndex) : s'.Owned := by
  cases effect with
  | still stages same _ _ =>
      apply owned.keep last _ same.waitApplyCh (by rw [same.lockQueues])
      intro h
      rw [stages]
      exact SameChannel.refl _
  | sent _ _ stages kv =>
      apply owned.keep last _ (by rw [kv, sendMessageToWaitChan_waitApplyCh])
        (by rw [kv, length_sendMessageToWaitChan])
      intro h
      rw [stages]
      exact SameChannel.refl _
  | refused starting stages same _ =>
      apply owned.keep last (sameChannel_update stages _) same.waitApplyCh
        (by rw [same.lockQueues])
      rw [starting]
      exact ⟨rfl, rfl, rfl⟩
  | accepted starting stages same _ above below =>
      exact owned.accept starting stages same above below
  | created creating stages kv _ =>
      rw [createWaitCh_unmade (owned.unmade creating)] at stages kv
      exact owned.create last creating stages (by rw [kv]) (by rw [kv])
  | moved serving stages same _ _ =>
      apply owned.keep last (sameChannel_update stages _) same.waitApplyCh
        (by rw [same.lockQueues])
      rw [serving]
      exact ⟨rfl, rfl, rfl⟩
  | popped serving _ stages waitApplyCh lockQueues _ =>
      apply owned.keep last (sameChannel_update stages _) waitApplyCh
        (by rw [lockQueues, List.length_set])
      rw [serving]
      exact ⟨rfl, rfl, rfl⟩
  | deleted serving stages kv _ =>
      exact owned.delete last serving stages (by rw [kv]; rfl) (by rw [kv]; rfl)

end Host

end CppRaft.Kv
