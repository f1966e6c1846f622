import CppRaft.Consensus.Soundness

/-!
# Every step of the abstract protocol keeps its history sound

A step only extends the history: leaders and their logs stay, ballots and
candidacies stay, and a node that has moved on from a term acknowledges nothing
more in it.  The clauses of `Sound` about the past survive every such
extension, so each kind of step has to account only for what it adds.
-/

namespace CppRaft.Consensus

namespace History

universe u v

variable {ν : Type u} {ε : Type v} [Termed ε]

/-! ## Extensions -/

/-- `h'` keeps everything that `h` has recorded. -/
structure Extends (h h' : History ν ε) : Prop where
  leader : ∀ t c, h.leader t = some c → h'.leader t = some c
  electedLog : ∀ t, h.Elected t → h'.electedLog t = h.electedLog t
  leaderLog : ∀ t, h.Elected t →
    ∃ added, h'.leaderLog t = h.leaderLog t ++ added ∧ ∀ e ∈ added, termOf e = t
  ballot : ∀ t v c, h.ballot t v = some c →
    h'.ballot t v = some c ∧ h'.ballotLog t v = h.ballotLog t v
  candidateLog : ∀ t c l, h.candidateLog t c = some l → h'.candidateLog t c = some l
  acked : ∀ t v, h.acked t v ≤ h'.acked t v
  frozen : ∀ t v, t < h.term v → h'.acked t v = h.acked t v

theorem Extends.refl (h : History ν ε) : Extends h h where
  leader := fun _ _ leads => leads
  electedLog := fun _ _ => rfl
  leaderLog := fun _ _ => ⟨[], by simp⟩
  ballot := fun _ _ _ cast => ⟨cast, rfl⟩
  candidateLog := fun _ _ _ stands => stands
  acked := fun _ _ => le_rfl
  frozen := fun _ _ _ => rfl

variable {h h' : History ν ε}

theorem Extends.elected (ext : Extends h h') {t : ℤ} (elected : h.Elected t) : h'.Elected t := by
  obtain ⟨c, leads⟩ := elected
  exact ⟨c, ext.leader t c leads⟩

theorem Extends.leaderLog_prefix (ext : Extends h h') {t : ℤ} (elected : h.Elected t) :
    h.leaderLog t <+: h'.leaderLog t := by
  obtain ⟨added, extended, _⟩ := ext.leaderLog t elected
  exact ⟨added, extended.symm⟩

theorem Stamped.mono (ext : Extends h h') {t : ℤ} {p : List ε} (stamped : h.Stamped t p) :
    h'.Stamped t p where
  elected := ext.elected stamped.elected
  isPrefix := stamped.isPrefix.trans (ext.leaderLog_prefix stamped.elected)
  nonempty := stamped.nonempty
  lastTerm_eq := stamped.lastTerm_eq

theorem Backed.mono (ext : Extends h h') {l : List ε} (backed : h.Backed l) : h'.Backed l := by
  intro p below nonempty
  obtain ⟨elected, isPrefix⟩ := backed p below nonempty
  exact ⟨ext.elected elected, isPrefix.trans (ext.leaderLog_prefix elected)⟩

/-- A leader's log only grows by entries of its own term, so it cannot acquire
a prefix stamped by an earlier leader that it lacked. -/
theorem Extends.lacks (ext : Extends h h') {t t' : ℤ} {p : List ε} (elected : h.Elected t')
    (nonempty : p ≠ []) (stampTerm : lastTerm p = t) (later : t < t')
    (lacks : ¬ p <+: h.leaderLog t') : ¬ p <+: h'.leaderLog t' := by
  obtain ⟨added, extended, terms⟩ := ext.leaderLog t' elected
  intro contains
  rw [extended] at contains
  rcases prefix_append_cases contains with inside | ⟨s, sNonempty, sAdded, rfl⟩
  · exact lacks inside
  · rw [lastTerm_append sNonempty] at stampTerm
    obtain ⟨e, member, term_eq⟩ := exists_mem_lastTerm sNonempty
    have own := terms e (sAdded.subset member)
    omega

variable [Fintype ν]

theorem Committed.mono (ext : Extends h h') {t : ℤ} {p : List ε} (committed : h.Committed t p) :
    h'.Committed t p where
  stamped := committed.stamped.mono ext
  quorum := by
    obtain ⟨Q, majority, acks⟩ := committed.quorum
    exact ⟨Q, majority, fun v member => (acks v member).trans (ext.acked t v)⟩

theorem CommittedBy.mono (ext : Extends h h') {t t' : ℤ} (later : t ≤ t') {c : List ε}
    (committed : h.CommittedBy t c) : h'.CommittedBy t' c := by
  rcases committed with rfl | ⟨s, before, p, committed, inside⟩
  · exact Or.inl rfl
  · exact Or.inr ⟨s, before.trans later, p, committed.mono ext, inside⟩

theorem CommittedBy.of_isPrefix {t : ℤ} {c c' : List ε} (committed : h.CommittedBy t c)
    (inside : c' <+: c) : h.CommittedBy t c' := by
  rcases committed with rfl | ⟨s, before, p, committed, below⟩
  · exact Or.inl (List.prefix_nil.mp inside)
  · exact Or.inr ⟨s, before, p, committed, inside.trans below⟩

theorem Derived.mono (ext : Extends h h') {t : ℤ} {candidate l : List ε}
    (derived : h.Derived t candidate l) : h'.Derived t candidate l := by
  rcases derived with same | ⟨s, before, p, committed, inside, longer⟩
  · exact Or.inl same
  · exact Or.inr ⟨s, before, p, committed.mono ext, inside, longer⟩

variable (sound : h.Sound)

include sound

/-- A prefix that is stamped after an extension and was acknowledged before it
was stamped before it. -/
theorem Sound.stamped_of_acked (ext : Extends h h') {t : ℤ} {v : ν} {p : List ε}
    (stamped : h'.Stamped t p) (acked : p.length ≤ h.acked t v) : h.Stamped t p := by
  have positive : 0 < p.length := List.length_pos_of_ne_nil stamped.nonempty
  rcases sound.ackedBound t v with none | ⟨elected, _, bounded⟩
  · omega
  · exact
      { elected := elected
        isPrefix := prefix_of_common stamped.isPrefix (ext.leaderLog_prefix elected)
          (acked.trans bounded)
        nonempty := stamped.nonempty
        lastTerm_eq := stamped.lastTerm_eq }

/-- `Kept` survives an extension that adds no acknowledgement of the node in
the terms it speaks about. -/
theorem Sound.kept_mono (ext : Extends h h') {v : ν} {l : List ε} {a b : ℤ}
    (same : ∀ t < a, h'.acked t v = h.acked t v) (kept : h.Kept v l a b) :
    h'.Kept v l a b := by
  intro t p before stamped acked
  rw [same t before] at acked
  have stampedBefore := sound.stamped_of_acked ext stamped acked
  rcases kept t p before stampedBefore acked with contains | ⟨t', after, below, elected, lacks⟩
  · exact Or.inl contains
  · exact Or.inr ⟨t', after, below, ext.elected elected,
      ext.lacks elected stamped.nonempty stamped.lastTerm_eq after lacks⟩

theorem Sound.ballot_mono (ext : Extends h h') {t b : ℤ} {v c : ν}
    (cast : h.ballot t v = some c) (ballot : h.SoundBallot t v c b) :
    h'.SoundBallot t v c b := by
  obtain ⟨candidate, stands, upToDate, backed, kept⟩ := ballot
  have bound := sound.ballotBound t v c cast
  refine ⟨candidate, ext.candidateLog t c candidate stands, ?_, ?_, ?_⟩
  · rw [(ext.ballot t v c cast).2]
    exact upToDate
  · rw [(ext.ballot t v c cast).2]
    exact backed.mono ext
  · rw [(ext.ballot t v c cast).2]
    exact sound.kept_mono ext (fun s before => ext.frozen s v (before.trans_le bound)) kept

theorem Sound.election_mono (ext : Extends h h') {t : ℤ} {c : ν}
    (leads : h.leader t = some c) : h'.SoundElection t c := by
  obtain ⟨candidate, Q, stands, majority, votes, extended, derived⟩ := sound.elections t c leads
  refine ⟨candidate, Q, ext.candidateLog t c candidate stands, majority, ?_, ?_, ?_⟩
  · intro v member
    obtain ⟨cast, ballot⟩ := votes v member
    exact ⟨(ext.ballot t v c cast).1, sound.ballot_mono ext cast ballot⟩
  · rw [ext.electedLog t ⟨c, leads⟩]
    exact extended.trans (ext.leaderLog_prefix ⟨c, leads⟩)
  · rw [ext.electedLog t ⟨c, leads⟩]
    exact derived.mono ext

omit sound

/-- The fresh history is sound. -/
theorem sound_start : (start ν ε).Sound where
  termNonneg := fun _ => le_rfl
  logBacked := by
    intro v p below nonempty
    exact absurd (List.prefix_nil.mp below) nonempty
  logTerm := by simp [start]
  leaderBacked := by rintro t ⟨c, leads⟩; simp [start] at leads
  leaderSorted := by rintro t ⟨c, leads⟩; simp [start] at leads
  leaderTerm := by rintro t ⟨c, leads⟩; simp [start] at leads
  leaderBound := by simp [start]
  ackedBound := fun _ _ => Or.inl rfl
  ballotBound := by simp [start]
  logKept := by
    rintro v t p _ ⟨⟨c, leads⟩, _⟩
    simp [start] at leads
  ballots := by simp [start]
  candidates := by simp [start]
  pending := by simp [start]
  elections := by simp [start]

/-! ## What a step has to account for -/

/-- An extension of a sound history is sound when everything that it adds or
changes is accounted for. -/
theorem Sound.of_extends (sound : h.Sound) (ext : Extends h h')
    (termMono : ∀ v, h.term v ≤ h'.term v)
    (log : ∀ v, h'.log v = h.log v ∨
      h'.Backed (h'.log v) ∧ ∀ e ∈ h'.log v, termOf e ≤ h'.term v)
    (leaderLog : ∀ t, h'.Elected t → h.Elected t ∧ h'.leaderLog t = h.leaderLog t ∨
      h'.Backed (h'.leaderLog t) ∧ (∀ e ∈ h'.leaderLog t, termOf e ≤ t) ∧
        (h'.leaderLog t).Pairwise fun first second => termOf first ≤ termOf second)
    (leader : ∀ t c, h'.leader t = some c → h.leader t = some c ∨
      0 < t ∧ t ≤ h'.term c ∧ h'.SoundElection t c)
    (acked : ∀ t v, h'.acked t v = h.acked t v ∨
      h'.Elected t ∧ t ≤ h'.term v ∧ h'.acked t v ≤ (h'.leaderLog t).length)
    (ballot : ∀ t v c, h'.ballot t v = some c → h.ballot t v = some c ∨
      t ≤ h'.term v ∧ h'.SoundBallot t v c (t + 1))
    (candidate : ∀ t c l, h'.candidateLog t c = some l → h.candidateLog t c = some l ∨
      0 < t ∧ t ≤ h'.term c ∧ h'.Backed l ∧ ∀ e ∈ l, termOf e < t)
    (logKept : ∀ v, h'.Kept v (h'.log v) (h'.term v + 1) (h'.term v + 1))
    (pending : ∀ t c l, h'.candidateLog t c = some l → h'.term c = t → ¬ h'.Elected t →
      h'.Derived t l (h'.log c)) :
    h'.Sound where
  termNonneg := fun v => (sound.termNonneg v).trans (termMono v)
  logBacked := by
    intro v
    rcases log v with same | ⟨backed, _⟩
    · rw [same]
      exact (sound.logBacked v).mono ext
    · exact backed
  logTerm := by
    intro v e member
    rcases log v with same | ⟨_, terms⟩
    · rw [same] at member
      exact (sound.logTerm v e member).trans (termMono v)
    · exact terms e member
  leaderBacked := by
    intro t elected
    rcases leaderLog t elected with ⟨before, same⟩ | ⟨backed, _⟩
    · rw [same]
      exact (sound.leaderBacked t before).mono ext
    · exact backed
  leaderSorted := by
    intro t elected
    rcases leaderLog t elected with ⟨before, same⟩ | ⟨_, _, sorted⟩
    · rw [same]
      exact sound.leaderSorted t before
    · exact sorted
  leaderTerm := by
    intro t elected
    rcases leaderLog t elected with ⟨before, same⟩ | ⟨_, terms, _⟩
    · rw [same]
      exact sound.leaderTerm t before
    · exact terms
  leaderBound := by
    intro t c leads
    rcases leader t c leads with before | ⟨positive, bound, _⟩
    · obtain ⟨positive, bound⟩ := sound.leaderBound t c before
      exact ⟨positive, bound.trans (termMono c)⟩
    · exact ⟨positive, bound⟩
  ackedBound := by
    intro t v
    rcases acked t v with same | bounded
    · rw [same]
      rcases sound.ackedBound t v with none | ⟨elected, bound, inside⟩
      · exact Or.inl none
      · exact Or.inr ⟨ext.elected elected, bound.trans (termMono v),
          inside.trans (ext.leaderLog_prefix elected).length_le⟩
    · exact Or.inr bounded
  ballotBound := by
    intro t v c cast
    rcases ballot t v c cast with before | ⟨bound, _⟩
    · exact (sound.ballotBound t v c before).trans (termMono v)
    · exact bound
  logKept := logKept
  ballots := by
    intro t v c cast
    rcases ballot t v c cast with before | ⟨_, ballot⟩
    · exact sound.ballot_mono ext before (sound.ballots t v c before)
    · exact ballot
  candidates := by
    intro t c l stands
    rcases candidate t c l stands with before | added
    · obtain ⟨positive, bound, backed, terms⟩ := sound.candidates t c l before
      exact ⟨positive, bound.trans (termMono c), backed.mono ext, terms⟩
    · exact added
  pending := pending
  elections := by
    intro t c leads
    rcases leader t c leads with before | ⟨_, _, election⟩
    · exact sound.election_mono ext before
    · exact election

section Unchanged

variable (sound : h.Sound) (ext : Extends h h')

include sound

/-- What a node acknowledged it acknowledged in a term that it has reached. -/
theorem Sound.kept_raise {v : ν} {l : List ε} {a b a' b' : ℤ} (reached : h.term v < a)
    (wider : b ≤ b') (kept : h.Kept v l a b) : h.Kept v l a' b' := by
  intro t p _ stamped acked
  have positive : 0 < p.length := List.length_pos_of_ne_nil stamped.nonempty
  rcases sound.ackedBound t v with none | ⟨_, bound, _⟩
  · omega
  · rcases kept t p (by omega) stamped acked with contains | ⟨t', after, below, elected, lacks⟩
    · exact Or.inl contains
    · exact Or.inr ⟨t', after, by omega, elected, lacks⟩

include ext

/-- A node whose log and acknowledgements a step leaves alone keeps what it
acknowledged. -/
theorem Sound.logKept_mono {v : ν} (later : h.term v ≤ h'.term v) (sameLog : h'.log v = h.log v)
    (sameAcked : ∀ t, h'.acked t v = h.acked t v) :
    h'.Kept v (h'.log v) (h'.term v + 1) (h'.term v + 1) := by
  rw [sameLog]
  apply sound.kept_mono ext (fun t _ => sameAcked t)
  exact sound.kept_raise (by omega) (by omega) (sound.logKept v)

/-- A candidate whose log a step leaves alone still stands with a log derived
from its candidacy. -/
theorem Sound.pending_mono {t : ℤ} {c : ν} {l : List ε} (stands : h.candidateLog t c = some l)
    (later : h.term c ≤ h'.term c) (current : h'.term c = t) (vacant : ¬ h'.Elected t)
    (sameLog : h'.log c = h.log c) : h'.Derived t l (h'.log c) := by
  have bound := (sound.candidates t c l stands).2.1
  rw [sameLog]
  exact (sound.pending t c l stands (by omega) fun elected => vacant (ext.elected elected)).mono ext

end Unchanged

end History

end CppRaft.Consensus
