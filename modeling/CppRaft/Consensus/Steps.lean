import CppRaft.Consensus.Preservation

/-!
# The steps of the abstract protocol

One lemma for each kind of step shows that it extends a sound history to a
sound one; `Sound.step` assembles them.
-/

namespace CppRaft.Consensus

namespace History

universe u v

variable {ν : Type u} {ε : Type v} [Termed ε] [Fintype ν] [DecidableEq ν] {h : History ν ε}

/-! ## Extensions -/

section Extends

omit [Fintype ν]

theorem extends_raise (h : History ν ε) (v : ν) (t : ℤ) : Extends h (h.raise v t) :=
  { Extends.refl h with }

theorem extends_grant {v c : ν} (unspent : h.ballot (h.term v) v = none) :
    Extends h (h.grant v c) :=
  { Extends.refl h with
    ballot := by
      intro t w d cast
      have other : ¬ (t = h.term v ∧ w = v) := by
        rintro ⟨rfl, rfl⟩
        rw [unspent] at cast
        exact absurd cast (by simp)
      simp [grant, setAt, other, cast] }

omit [DecidableEq ν] in
theorem extends_elect {c : ν} (vacant : h.leader (h.term c) = none) : Extends h (h.elect c) := by
  have otherTerm : ∀ t, h.Elected t → t ≠ h.term c := by
    rintro t ⟨d, leads⟩ rfl
    rw [vacant] at leads
    exact absurd leads (by simp)
  exact
    { Extends.refl h with
      leader := by
        intro t d leads
        simp [elect, otherTerm t ⟨d, leads⟩, leads]
      electedLog := by
        intro t elected
        simp [elect, otherTerm t elected]
      leaderLog := by
        intro t elected
        exact ⟨[], by simp [elect, otherTerm t elected], by simp⟩ }

theorem extends_propose {c : ν} {e : ε} (current : h.log c = h.leaderLog (h.term c))
    (stamp : termOf e = h.term c) : Extends h (h.propose c e) :=
  { Extends.refl h with
    leaderLog := by
      intro t _
      by_cases same : t = h.term c
      · subst same
        exact ⟨[e], by simp [propose, current], by simpa using stamp⟩
      · exact ⟨[], by simp [propose, same], by simp⟩ }

theorem extends_accept (h : History ν ε) (v : ν) (k : ℕ) (l : List ε) :
    Extends h (h.accept v k l) :=
  { Extends.refl h with
    acked := by
      intro t w
      by_cases here : t = h.term v ∧ w = v
      · obtain ⟨rfl, rfl⟩ := here
        simp [accept]
      · simp [accept, setAt, here]
    frozen := by
      intro t w before
      have other : ¬ (t = h.term v ∧ w = v) := by
        rintro ⟨rfl, rfl⟩
        exact absurd before (lt_irrefl _)
      simp [accept, setAt, other] }

theorem extends_install (h : History ν ε) (v : ν) (l : List ε) : Extends h (h.install v l) :=
  { Extends.refl h with }

end Extends

theorem Sound.extends_campaign (sound : h.Sound) {v : ν} {t : ℤ} (later : h.term v < t) :
    Extends h (h.campaign v t) :=
  { Extends.refl h with
    ballot := by
      intro s w d cast
      have other : ¬ (s = t ∧ w = v) := by
        rintro ⟨rfl, rfl⟩
        have bound := sound.ballotBound s w d cast
        omega
      simp [campaign, setAt, other, cast]
    candidateLog := by
      intro s d l stands
      have other : ¬ (s = t ∧ d = v) := by
        rintro ⟨rfl, rfl⟩
        have bound := (sound.candidates s d l stands).2.1
        omega
      simp [campaign, setAt, other, stands] }

omit [Termed ε] [Fintype ν] in
theorem term_le_update {v : ν} {t : ℤ} (later : h.term v ≤ t) (w : ν) :
    h.term w ≤ Function.update h.term v t w := by
  by_cases same : w = v
  · subst same
    simpa using later
  · simp [same]

/-! ## Terms and ballots -/

theorem Sound.raise (sound : h.Sound) {v : ν} {t : ℤ} (later : h.term v ≤ t) :
    (h.raise v t).Sound := by
  have ext := extends_raise h v t
  have termMono := term_le_update later
  apply sound.of_extends ext termMono
  · exact fun _ => Or.inl rfl
  · exact fun _ elected => Or.inl ⟨elected, rfl⟩
  · exact fun _ _ leads => Or.inl leads
  · exact fun _ _ => Or.inl rfl
  · exact fun _ _ _ cast => Or.inl cast
  · exact fun _ _ _ stands => Or.inl stands
  · exact fun w => sound.logKept_mono ext (termMono w) rfl fun _ => rfl
  · exact fun _ c _ stands current vacant =>
      sound.pending_mono ext stands (termMono c) current vacant rfl

omit [DecidableEq ν] in
/-- A vote that a step casts on the log the voter has before it, for a
candidate whose log is at least as up to date, is sound. -/
theorem Sound.soundBallot_cast (sound : h.Sound) {h' : History ν ε} (ext : Extends h h')
    {v c : ν} {candidate : List ε} {t : ℤ} (later : h.term v ≤ t)
    (stands : h'.candidateLog t c = some candidate)
    (upToDate : AsUpToDate candidate (h.log v)) (voterLog : h'.ballotLog t v = h.log v)
    (sameAcked : ∀ s, h'.acked s v = h.acked s v) : h'.SoundBallot t v c (t + 1) := by
  refine ⟨candidate, stands, ?_, ?_, ?_⟩
  · rw [voterLog]
    exact upToDate
  · rw [voterLog]
    exact (sound.logBacked v).mono ext
  · rw [voterLog]
    apply sound.kept_mono ext (fun s _ => sameAcked s)
    exact sound.kept_raise (by omega) (by omega) (sound.logKept v)

theorem Sound.grant (sound : h.Sound) {v c : ν} {candidate : List ε}
    (unspent : h.ballot (h.term v) v = none)
    (stands : h.candidateLog (h.term v) c = some candidate)
    (upToDate : AsUpToDate candidate (h.log v)) : (h.grant v c).Sound := by
  have ext : Extends h (h.grant v c) := extends_grant unspent
  apply sound.of_extends ext (fun _ => le_rfl)
  · exact fun _ => Or.inl rfl
  · exact fun _ elected => Or.inl ⟨elected, rfl⟩
  · exact fun _ _ leads => Or.inl leads
  · exact fun _ _ => Or.inl rfl
  · intro t w d cast
    by_cases here : t = h.term v ∧ w = v
    · obtain ⟨rfl, rfl⟩ := here
      obtain rfl : c = d := by simpa [History.grant] using cast
      exact Or.inr ⟨le_rfl, sound.soundBallot_cast ext le_rfl stands upToDate
        (by simp [History.grant]) fun _ => rfl⟩
    · left
      simpa [History.grant, setAt, here] using cast
  · exact fun _ _ _ before => Or.inl before
  · exact fun w => sound.logKept_mono ext le_rfl rfl fun _ => rfl
  · exact fun _ _ _ before current vacant =>
      sound.pending_mono ext before le_rfl current vacant rfl

theorem Sound.campaign (sound : h.Sound) {v : ν} {t : ℤ} (later : h.term v < t) :
    (h.campaign v t).Sound := by
  have ext := sound.extends_campaign later
  have termMono := term_le_update later.le
  have positive : 0 < t := (sound.termNonneg v).trans_lt later
  apply sound.of_extends ext termMono
  · exact fun _ => Or.inl rfl
  · exact fun _ elected => Or.inl ⟨elected, rfl⟩
  · exact fun _ _ leads => Or.inl leads
  · exact fun _ _ => Or.inl rfl
  · intro s w d cast
    by_cases here : s = t ∧ w = v
    · obtain ⟨rfl, rfl⟩ := here
      obtain rfl : w = d := by simpa [History.campaign] using cast
      refine Or.inr ⟨by simp [History.campaign], sound.soundBallot_cast ext later.le ?_
        (AsUpToDate.refl (h.log w)) (by simp [History.campaign]) fun _ => rfl⟩
      simp [History.campaign]
    · left
      simpa [History.campaign, setAt, here] using cast
  · intro s d l stands
    by_cases here : s = t ∧ d = v
    · obtain ⟨rfl, rfl⟩ := here
      obtain rfl : h.log d = l := by simpa [History.campaign] using stands
      exact Or.inr ⟨positive, by simp [History.campaign], (sound.logBacked d).mono ext,
        fun e member => (sound.logTerm d e member).trans_lt later⟩
    · left
      simpa [History.campaign, setAt, here] using stands
  · exact fun w => sound.logKept_mono ext (termMono w) rfl fun _ => rfl
  · intro s d l stands current vacant
    by_cases here : s = t ∧ d = v
    · obtain ⟨rfl, rfl⟩ := here
      left
      simpa [History.campaign] using stands
    · refine sound.pending_mono ext ?_ (termMono d) current vacant rfl
      simpa [History.campaign, setAt, here] using stands

/-! ## Leaders -/

omit [DecidableEq ν] in
theorem Sound.elect (sound : h.Sound) {c : ν} {Q : Finset ν}
    (vacant : h.leader (h.term c) = none) (majority : Majority Q)
    (votes : ∀ v ∈ Q, h.ballot (h.term c) v = some c) : (h.elect c).Sound := by
  have ext : Extends h (h.elect c) := extends_elect vacant
  have unelected : ¬ h.Elected (h.term c) := by
    rintro ⟨d, leads⟩
    rw [vacant] at leads
    exact absurd leads (by simp)
  have electedCases : ∀ t, (h.elect c).Elected t → t = h.term c ∨ t ≠ h.term c ∧ h.Elected t := by
    rintro t ⟨d, leads⟩
    by_cases same : t = h.term c
    · exact Or.inl same
    · refine Or.inr ⟨same, d, ?_⟩
      simpa [History.elect, same] using leads
  have nonempty : Q.Nonempty := by
    rw [Finset.nonempty_iff_ne_empty]
    rintro rfl
    simp [Majority] at majority
  obtain ⟨voter, inQuorum⟩ := nonempty
  obtain ⟨candidate, stands, _⟩ := sound.ballots _ voter c (votes voter inQuorum)
  have positive := (sound.candidates _ c candidate stands).1
  apply sound.of_extends ext (fun _ => le_rfl)
  · exact fun _ => Or.inl rfl
  · intro t elected
    rcases electedCases t elected with rfl | ⟨other, before⟩
    · have backed := sound.logBacked c
      refine Or.inr ⟨?_, ?_, ?_⟩
      · simpa [History.elect] using backed.mono ext
      · simpa [History.elect] using sound.logTerm c
      · simpa [History.elect] using sound.backed_sorted backed
    · exact Or.inl ⟨before, by simp [History.elect, other]⟩
  · intro t d leads
    by_cases same : t = h.term c
    · subst same
      obtain rfl : c = d := by simpa [History.elect] using leads
      refine Or.inr ⟨positive, le_rfl, candidate, Q, stands, majority, ?_, ?_, ?_⟩
      · intro v member
        refine ⟨votes v member, sound.ballot_mono ext (votes v member) ?_⟩
        obtain ⟨l, standing, upToDate, backed, kept⟩ := sound.ballots _ v c (votes v member)
        refine ⟨l, standing, upToDate, backed, ?_⟩
        -- No leader of the term itself was known to the voter.
        intro t p before stamped acked
        rcases kept t p before stamped acked with contains | ⟨t', after, below, elected, lacks⟩
        · exact Or.inl contains
        · have other : t' ≠ h.term c := by
            rintro rfl
            exact unelected elected
          exact Or.inr ⟨t', after, by omega, elected, lacks⟩
      · simp [History.elect]
      · simpa [History.elect] using (sound.pending _ c candidate stands rfl unelected).mono ext
    · left
      simpa [History.elect, same] using leads
  · exact fun _ _ => Or.inl rfl
  · exact fun _ _ _ cast => Or.inl cast
  · exact fun _ _ _ before => Or.inl before
  · exact fun w => sound.logKept_mono ext le_rfl rfl fun _ => rfl
  · exact fun _ _ _ before current vacant' =>
      sound.pending_mono ext before le_rfl current vacant' rfl

omit [Fintype ν] [DecidableEq ν] in
/-- A log that a leader of term `t` extends by an entry of its term is backed
once the leader's log is the extended one. -/
theorem Backed.concat {h h' : History ν ε} (ext : Extends h h') {t : ℤ} {l : List ε} {e : ε}
    (backed : h.Backed l) (elected : h'.Elected t) (stamp : termOf e = t)
    (leads : h'.leaderLog t = l ++ [e]) : h'.Backed (l ++ [e]) := by
  intro p below nonempty
  rcases prefix_append_cases below with inside | ⟨s, sNonempty, sBelow, rfl⟩
  · exact (backed.mono ext) p inside nonempty
  · obtain rfl : s = [e] := by
      rcases List.prefix_cons_iff.mp sBelow with rfl | ⟨r, rfl, rBelow⟩
      · exact absurd rfl sNonempty
      · rw [List.prefix_nil.mp rBelow]
    rw [lastTerm_concat, stamp, leads]
    exact ⟨elected, List.prefix_rfl⟩

theorem Sound.propose (sound : h.Sound) {c : ν} {e : ε}
    (leads : h.leader (h.term c) = some c) (current : h.log c = h.leaderLog (h.term c))
    (stamp : termOf e = h.term c) : (h.propose c e).Sound := by
  have ext : Extends h (h.propose c e) := extends_propose current stamp
  have elected : h.Elected (h.term c) := ⟨c, leads⟩
  have backed : (h.propose c e).Backed (h.log c ++ [e]) :=
    (sound.logBacked c).concat ext elected stamp (by simp [History.propose])
  have terms : ∀ f ∈ h.log c ++ [e], termOf f ≤ h.term c := by
    intro f member
    rcases List.mem_append.mp member with earlier | final
    · exact sound.logTerm c f earlier
    · rw [List.mem_singleton.mp final, stamp]
  have sorted : (h.log c ++ [e]).Pairwise fun first second => termOf first ≤ termOf second := by
    refine List.pairwise_append.mpr
      ⟨sound.backed_sorted (sound.logBacked c), List.pairwise_singleton _ _, ?_⟩
    intro f earlier g final
    rw [List.mem_singleton.mp final, stamp]
    exact sound.logTerm c f earlier
  apply sound.of_extends ext (fun _ => le_rfl)
  · intro v
    by_cases same : v = c
    · subst same
      right
      simp only [History.propose, Function.update_self]
      exact ⟨backed, terms⟩
    · left
      simp [History.propose, same]
  · intro t electedThen
    by_cases same : t = h.term c
    · subst same
      right
      simp only [History.propose, Function.update_self]
      exact ⟨backed, terms, sorted⟩
    · exact Or.inl ⟨electedThen, by simp [History.propose, same]⟩
  · exact fun _ _ before => Or.inl before
  · exact fun _ _ => Or.inl rfl
  · exact fun _ _ _ cast => Or.inl cast
  · exact fun _ _ _ stands => Or.inl stands
  · intro v
    by_cases same : v = c
    · subst same
      intro t p before stamped acked
      rcases sound.kept_mono ext (fun _ _ => rfl) (sound.logKept v) t p before stamped acked with
        contains | lacked
      · left
        simpa [History.propose] using contains.trans (List.prefix_append _ _)
      · exact Or.inr lacked
    · exact sound.logKept_mono ext le_rfl (by simp [History.propose, same]) fun _ => rfl
  · intro t d l stands now vacant
    have other : d ≠ c := by
      rintro rfl
      rw [← now] at vacant
      exact vacant (ext.elected elected)
    exact sound.pending_mono ext stands le_rfl now vacant (by simp [History.propose, other])

/-! ## Followers -/

/-- A node acknowledges the first `k` entries of its leader with a log `l` that
has them and everything that its old log shares with the leader's log. -/
theorem Sound.accept (sound : h.Sound) {v : ν} {k : ℕ} {l : List ε}
    (elected : h.Elected (h.term v)) (bounded : k ≤ (h.leaderLog (h.term v)).length)
    (backed : h.Backed l) (terms : ∀ e ∈ l, termOf e ≤ h.term v)
    (contains : (h.leaderLog (h.term v)).take k <+: l)
    (keeps : ∀ p, p <+: h.log v → p <+: h.leaderLog (h.term v) → p <+: l) :
    (h.accept v k l).Sound := by
  have ext := extends_accept h v k l
  apply sound.of_extends ext (fun _ => le_rfl)
  · intro w
    by_cases same : w = v
    · subst same
      right
      simp only [History.accept, Function.update_self]
      exact ⟨backed.mono ext, terms⟩
    · left
      simp [History.accept, same]
  · exact fun _ electedThen => Or.inl ⟨electedThen, rfl⟩
  · exact fun _ _ leads => Or.inl leads
  · intro t w
    by_cases here : t = h.term v ∧ w = v
    · obtain ⟨rfl, rfl⟩ := here
      refine Or.inr ⟨elected, le_rfl, ?_⟩
      have old : h.acked (h.term w) w ≤ (h.leaderLog (h.term w)).length := by
        rcases sound.ackedBound (h.term w) w with none | ⟨_, _, inside⟩
        · omega
        · exact inside
      simpa only [History.accept, setAt_self] using max_le old bounded
    · left
      simp [History.accept, setAt, here]
  · exact fun _ _ _ cast => Or.inl cast
  · exact fun _ _ _ stands => Or.inl stands
  · intro w
    by_cases same : w = v
    · subst same
      intro t p before stamped acked
      have stampedBefore : h.Stamped t p := ⟨stamped.elected, stamped.isPrefix,
        stamped.nonempty, stamped.lastTerm_eq⟩
      simp only [History.accept, Function.update_self] at before ⊢
      rcases (Int.lt_add_one_iff.mp before).eq_or_lt with rfl | earlier
      · left
        have either : p.length ≤ k ∨ p.length ≤ h.acked (h.term w) w := by
          simp only [History.accept, setAt_self] at acked
          omega
        rcases either with offered | held
        · have below : p <+: (h.leaderLog (h.term w)).take k :=
            prefix_of_common stamped.isPrefix (List.take_prefix _ _) (by simp; omega)
          exact below.trans contains
        · rcases sound.logKept w _ p before stampedBefore held with
            inside | ⟨t', after, below, _⟩
          · exact keeps p inside stamped.isPrefix
          · omega
      · have sameAcked : (h.accept w k l).acked t w = h.acked t w := by
          simp [History.accept, setAt_of_term_ne earlier.ne]
        rw [sameAcked] at acked
        rcases sound.logKept w t p before stampedBefore acked with inside | lacked
        · by_cases shared : p <+: h.leaderLog (h.term w)
          · exact Or.inl (keeps p inside shared)
          · exact Or.inr ⟨h.term w, earlier, by omega, elected, shared⟩
        · exact Or.inr lacked
    · exact sound.logKept_mono ext le_rfl (by simp [History.accept, same]) fun t => by
        simp [History.accept, setAt_of_node_ne same]
  · intro t d standing stands now vacant
    have other : d ≠ v := by
      rintro rfl
      rw [← now] at vacant
      exact vacant elected
    exact sound.pending_mono ext stands le_rfl now vacant (by simp [History.accept, other])

theorem Sound.acknowledge (sound : h.Sound) {v : ν} {k : ℕ}
    (elected : h.Elected (h.term v)) (bounded : k ≤ (h.leaderLog (h.term v)).length)
    (holds : (h.leaderLog (h.term v)).take k <+: h.log v) : (h.accept v k (h.log v)).Sound :=
  sound.accept elected bounded (sound.logBacked v) (sound.logTerm v) holds
    fun _ inside _ => inside

theorem Sound.follow (sound : h.Sound) {v : ν} {k : ℕ}
    (elected : h.Elected (h.term v)) (bounded : k ≤ (h.leaderLog (h.term v)).length)
    (lacks : ¬ (h.leaderLog (h.term v)).take k <+: h.log v) :
    (h.accept v k ((h.leaderLog (h.term v)).take k)).Sound := by
  have isPrefix := List.take_prefix k (h.leaderLog (h.term v))
  refine sound.accept elected bounded ((sound.leaderBacked _ elected).of_isPrefix isPrefix)
    (fun e member => sound.leaderTerm _ elected e (isPrefix.subset member)) List.prefix_rfl ?_
  -- A common prefix that is longer than `k` would hold the offered entries.
  intro p inside shared
  rcases le_total p.length ((h.leaderLog (h.term v)).take k).length with short | long
  · exact prefix_of_common shared isPrefix short
  · exact absurd ((prefix_of_common isPrefix shared long).trans inside) lacks

/-! ## Snapshots -/

/-- A committed prefix that is not shorter than what it replaces has
everything that was acknowledged there and that no later leader lacked. -/
theorem Sound.installed_keeps (sound : h.Sound) {t b : ℤ} {l p : List ε}
    (committed : h.CommittedBy b l) (stamped : h.Stamped t p) (longer : p.length ≤ l.length) :
    p <+: l ∨ ∃ t', t < t' ∧ t' < b + 1 ∧ h.Elected t' ∧ ¬ p <+: h.leaderLog t' := by
  rcases committed with rfl | ⟨s, before, q, committed, inside⟩
  · exact absurd (List.length_eq_zero_iff.mp (Nat.le_zero.mp longer)) stamped.nonempty
  · rcases le_or_gt s t with notAfter | after
    · have common := sound.committed_prefix_leaderLog committed notAfter stamped.elected
      exact Or.inl (prefix_of_common stamped.isPrefix (inside.trans common) longer)
    · by_cases shared : p <+: h.leaderLog s
      · exact Or.inl (prefix_of_common shared (inside.trans committed.stamped.isPrefix) longer)
      · exact Or.inr ⟨s, after, by omega, committed.stamped.elected, shared⟩

omit [DecidableEq ν] in
/-- A committed prefix was made by leaders of terms up to the one it was
committed in. -/
theorem Sound.backed_of_committedBy (sound : h.Sound) {t : ℤ} {l : List ε}
    (committed : h.CommittedBy t l) : h.Backed l ∧ ∀ e ∈ l, termOf e ≤ t := by
  rcases committed with rfl | ⟨s, before, q, committed, inside⟩
  · exact ⟨fun p below nonempty => absurd (List.prefix_nil.mp below) nonempty, by simp⟩
  · have isPrefix := inside.trans committed.stamped.isPrefix
    have elected := committed.stamped.elected
    exact ⟨(sound.leaderBacked s elected).of_isPrefix isPrefix, fun e member =>
      (sound.leaderTerm s elected e (isPrefix.subset member)).trans before⟩

theorem Sound.install (sound : h.Sound) {v : ν} {l : List ε}
    (committed : h.CommittedBy (h.term v) l) (longer : (h.log v).length ≤ l.length) :
    (h.install v l).Sound := by
  have ext := extends_install h v l
  obtain ⟨backed, terms⟩ := sound.backed_of_committedBy committed
  apply sound.of_extends ext (fun _ => le_rfl)
  · intro w
    by_cases same : w = v
    · subst same
      right
      simp only [History.install, Function.update_self]
      exact ⟨backed.mono ext, terms⟩
    · left
      simp [History.install, same]
  · exact fun _ elected => Or.inl ⟨elected, rfl⟩
  · exact fun _ _ leads => Or.inl leads
  · exact fun _ _ => Or.inl rfl
  · exact fun _ _ _ cast => Or.inl cast
  · exact fun _ _ _ stands => Or.inl stands
  · intro w
    by_cases same : w = v
    · subst same
      intro t p before stamped acked
      have stampedBefore : h.Stamped t p := ⟨stamped.elected, stamped.isPrefix,
        stamped.nonempty, stamped.lastTerm_eq⟩
      simp only [History.install, Function.update_self]
      rcases sound.logKept w t p before stampedBefore acked with inside | lacked
      · exact sound.installed_keeps committed stampedBefore (inside.length_le.trans longer)
      · exact Or.inr lacked
    · exact sound.logKept_mono ext le_rfl (by simp [History.install, same]) fun _ => rfl
  · intro t d candidate stands now vacant
    by_cases same : d = v
    · subst same
      have derived := sound.pending t d candidate stands now vacant
      have candidateLength : candidate.length ≤ l.length := by
        rcases derived with own | ⟨_, _, _, _, _, candidateShorter⟩
        · exact own ▸ longer
        · exact candidateShorter.trans longer
      simp only [History.install, Function.update_self]
      rcases committed with rfl | ⟨s, before, q, committed, inside⟩
      · left
        exact (List.length_eq_zero_iff.mp (Nat.le_zero.mp candidateLength)).symm
      · have other : s ≠ t := by
          rintro rfl
          exact vacant committed.stamped.elected
        have current : h.term d = t := now
        exact Or.inr ⟨s, by omega, q, committed.mono ext, inside, candidateLength⟩
    · exact sound.pending_mono ext stands le_rfl now vacant (by simp [History.install, same])

/-! ## All steps -/

/-- Every step of the abstract protocol keeps its history sound. -/
theorem Sound.step (sound : h.Sound) {v : ν} {h' : History ν ε} (step : Step h v h') :
    h'.Sound := by
  cases step with
  | raise t later => exact sound.raise later
  | campaign t later => exact sound.campaign later
  | grant c candidate unspent stands upToDate => exact sound.grant unspent stands upToDate
  | elect Q vacant majority votes => exact sound.elect vacant majority votes
  | propose e leads current stamp => exact sound.propose leads current stamp
  | acknowledge k elected bounded holds => exact sound.acknowledge elected bounded holds
  | follow k elected bounded lacks => exact sound.follow elected bounded lacks
  | install l committed longer => exact sound.install committed longer

/-- Every step extends the history. -/
theorem Sound.extends_step (sound : h.Sound) {v : ν} {h' : History ν ε} (step : Step h v h') :
    Extends h h' := by
  cases step with
  | raise t later => exact extends_raise h v t
  | campaign t later => exact sound.extends_campaign later
  | grant c candidate unspent stands upToDate => exact extends_grant unspent
  | elect Q vacant majority votes => exact extends_elect vacant
  | propose e leads current stamp => exact extends_propose current stamp
  | acknowledge k elected bounded holds => exact extends_accept h v k _
  | follow k elected bounded lacks => exact extends_accept h v k _
  | install l committed longer => exact extends_install h v l

end History

end CppRaft.Consensus
