import CppRaft.Consensus.History

/-!
# Soundness of a history

`Sound` is the inductive invariant of the abstract protocol.  Its central part
is `Kept`: what a node acknowledged in a term stays in its log until the leader
of a later term lacks it, and a voter's log is judged by the same rule.  No
clause mentions what is committed, except that a candidate may have installed a
committed prefix while it stood for election; leader completeness is derived
from the clauses at a single history.
-/

namespace CppRaft.Consensus

namespace History

universe u v

variable {ν : Type u} {ε : Type v} [Termed ε] [Fintype ν]

/-- The ballot of `v` for `c` in term `t`: the candidate's log was at least as
up to date, and the voter's log had kept what the voter acknowledged. -/
def SoundBallot (h : History ν ε) (t : ℤ) (v c : ν) (b : ℤ) : Prop :=
  ∃ candidate, h.candidateLog t c = some candidate ∧
    AsUpToDate candidate (h.ballotLog t v) ∧ h.Backed (h.ballotLog t v) ∧
    h.Kept v (h.ballotLog t v) t b

/-- The election of `c` in term `t` by a majority of ballots that were cast
before any leader of `t` was known. -/
def SoundElection (h : History ν ε) (t : ℤ) (c : ν) : Prop :=
  ∃ candidate, ∃ Q : Finset ν, h.candidateLog t c = some candidate ∧ Majority Q ∧
    (∀ v ∈ Q, h.ballot t v = some c ∧ h.SoundBallot t v c t) ∧
    h.electedLog t <+: h.leaderLog t ∧ h.Derived t candidate (h.electedLog t)

/-- The inductive invariant of the abstract protocol. -/
structure Sound (h : History ν ε) : Prop where
  termNonneg : ∀ v, 0 ≤ h.term v
  logBacked : ∀ v, h.Backed (h.log v)
  logTerm : ∀ v, ∀ e ∈ h.log v, termOf e ≤ h.term v
  leaderBacked : ∀ t, h.Elected t → h.Backed (h.leaderLog t)
  leaderSorted : ∀ t, h.Elected t →
    (h.leaderLog t).Pairwise fun first second => termOf first ≤ termOf second
  leaderTerm : ∀ t, h.Elected t → ∀ e ∈ h.leaderLog t, termOf e ≤ t
  leaderBound : ∀ t c, h.leader t = some c → 0 < t ∧ t ≤ h.term c
  ackedBound : ∀ t v, h.acked t v = 0 ∨
    h.Elected t ∧ t ≤ h.term v ∧ h.acked t v ≤ (h.leaderLog t).length
  ballotBound : ∀ t v c, h.ballot t v = some c → t ≤ h.term v
  logKept : ∀ v, h.Kept v (h.log v) (h.term v + 1) (h.term v + 1)
  ballots : ∀ t v c, h.ballot t v = some c → h.SoundBallot t v c (t + 1)
  candidates : ∀ t c candidate, h.candidateLog t c = some candidate →
    0 < t ∧ t ≤ h.term c ∧ h.Backed candidate ∧ ∀ e ∈ candidate, termOf e < t
  pending : ∀ t c candidate, h.candidateLog t c = some candidate → h.term c = t →
    ¬ h.Elected t → h.Derived t candidate (h.log c)
  elections : ∀ t c, h.leader t = some c → h.SoundElection t c

/-! ## Leader completeness -/

omit [Fintype ν] in
theorem Backed.of_isPrefix {h : History ν ε} {l p : List ε} (backed : h.Backed l)
    (isPrefix : p <+: l) : h.Backed p :=
  fun q below nonempty => backed q (below.trans isPrefix) nonempty

omit [Fintype ν] in
/-- A nonempty backed log is a prefix of the log of the leader that made its
last entry. -/
theorem Backed.self {h : History ν ε} {l : List ε} (backed : h.Backed l) (nonempty : l ≠ []) :
    h.Elected (lastTerm l) ∧ l <+: h.leaderLog (lastTerm l) :=
  backed l List.prefix_rfl nonempty

omit [Fintype ν] in
/-- Two backed logs whose last entries carry the same term are prefixes of one
list. -/
theorem Backed.eq_of_lastTerm {h : History ν ε} {p q : List ε} (left : h.Backed p)
    (right : h.Backed q) (leftNonempty : p ≠ []) (rightNonempty : q ≠ [])
    (sameTerm : lastTerm p = lastTerm q) (sameLength : p.length = q.length) : p = q := by
  have leftPrefix := (left.self leftNonempty).2
  have rightPrefix := (right.self rightNonempty).2
  rw [← sameTerm] at rightPrefix
  exact eq_of_common leftPrefix rightPrefix sameLength

omit [Fintype ν] in
/-- Two backed logs that hold entries of one term at one position agree up to
that position. -/
theorem Backed.take_eq {h : History ν ε} {l l' : List ε} (left : h.Backed l) (right : h.Backed l')
    {k : ℕ} {e e' : ε} (found : l[k]? = some e) (found' : l'[k]? = some e')
    (sameTerm : termOf e = termOf e') : l.take (k + 1) = l'.take (k + 1) := by
  have inside := (List.getElem?_eq_some_iff.mp found).1
  have inside' := (List.getElem?_eq_some_iff.mp found').1
  have length : (l.take (k + 1)).length = k + 1 := by
    rw [List.length_take]
    omega
  have length' : (l'.take (k + 1)).length = k + 1 := by
    rw [List.length_take]
    omega
  refine (left.of_isPrefix (List.take_prefix _ _)).eq_of_lastTerm
    (right.of_isPrefix (List.take_prefix _ _)) ?_ ?_ ?_ (length.trans length'.symm)
  · exact List.ne_nil_of_length_eq_add_one length
  · exact List.ne_nil_of_length_eq_add_one length'
  · rw [lastTerm_take found, lastTerm_take found', sameTerm]

theorem Sound.elected_pos {h : History ν ε} (sound : h.Sound) {t : ℤ} (elected : h.Elected t) :
    0 < t := by
  obtain ⟨c, leads⟩ := elected
  exact (sound.leaderBound t c leads).1

theorem Sound.electedLog_prefix {h : History ν ε} (sound : h.Sound) {t : ℤ}
    (elected : h.Elected t) : h.electedLog t <+: h.leaderLog t := by
  obtain ⟨c, leads⟩ := elected
  obtain ⟨_, _, _, _, _, extended, _⟩ := sound.elections t c leads
  exact extended

/-- The entries of a backed log carry ordered terms. -/
theorem Sound.backed_sorted {h : History ν ε} (sound : h.Sound) {l : List ε}
    (backed : h.Backed l) :
    l.Pairwise fun first second => termOf first ≤ termOf second := by
  by_cases empty : l = []
  · subst empty
    exact List.Pairwise.nil
  · obtain ⟨elected, isPrefix⟩ := backed.self empty
    exact (sound.leaderSorted _ elected).sublist isPrefix.sublist

/-- An entry that stands in a backed log before its end carries a term no later
than the last one. -/
theorem Sound.lastTerm_le_of_prefix {h : History ν ε} (sound : h.Sound) {p l : List ε}
    (backed : h.Backed l) (isPrefix : p <+: l) (nonempty : p ≠ []) :
    lastTerm p ≤ lastTerm l := by
  obtain ⟨e, member, term_eq⟩ := exists_mem_lastTerm nonempty
  rw [← term_eq]
  exact termOf_le_lastTerm (sound.backed_sorted backed) (isPrefix.subset member)

variable [DecidableEq ν]

omit [DecidableEq ν] in
/-- What a candidate's log must contain: if the log of one of its voters
contains a stamped prefix that the leaders in between kept, so does the
candidate's. -/
theorem Sound.candidate_contains {h : History ν ε} (sound : h.Sound) {t t' : ℤ}
    {p candidate voter : List ε} (stamped : h.Stamped t p)
    (backed : h.Backed candidate) (terms : ∀ e ∈ candidate, termOf e < t')
    (voterBacked : h.Backed voter) (upToDate : AsUpToDate candidate voter)
    (voterContains : p <+: voter)
    (between : ∀ t'', t < t'' → t'' < t' → h.Elected t'' → p <+: h.leaderLog t'') :
    p <+: candidate := by
  have positive : 0 < t := sound.elected_pos stamped.elected
  have voterTerm : t ≤ lastTerm voter := by
    rw [← stamped.lastTerm_eq]
    exact sound.lastTerm_le_of_prefix voterBacked voterContains stamped.nonempty
  have candidateTerm : t ≤ lastTerm candidate := by
    rcases upToDate with later | ⟨same, _⟩ <;> omega
  have nonempty : candidate ≠ [] := by
    rintro rfl
    simp at candidateTerm
    omega
  obtain ⟨lastElected, lastPrefix⟩ := backed.self nonempty
  obtain ⟨e, member, term_eq⟩ := exists_mem_lastTerm nonempty
  rcases candidateTerm.eq_or_lt with sameTerm | laterTerm
  · -- Both logs end in the block of the leader of `t`, and the longer one wins.
    have longer : voter.length ≤ candidate.length := by
      rcases upToDate with later | ⟨_, longer⟩
      · omega
      · exact longer
    rw [← sameTerm] at lastPrefix
    exact prefix_of_common stamped.isPrefix lastPrefix (voterContains.length_le.trans longer)
  · -- The candidate's last entry was made by a later leader, which has `p`.
    have below : lastTerm candidate < t' := term_eq ▸ terms e member
    have leaderContains := between _ laterTerm below lastElected
    rcases le_total p.length candidate.length with short | long
    · exact prefix_of_common leaderContains lastPrefix short
    · have inside : candidate <+: p := prefix_of_common lastPrefix leaderContains long
      have bounded := sound.leaderTerm t stamped.elected e
        (stamped.isPrefix.subset (inside.subset member))
      omega

/-- Leader completeness: whatever the leader of a term committed is contained
in the log with which every later leader was elected. -/
theorem Sound.leader_complete {h : History ν ε} (sound : h.Sound) {t t' : ℤ} {p : List ε}
    (committed : h.Committed t p) (later : t < t') (elected : h.Elected t') :
    p <+: h.electedLog t' := by
  induction size : t'.toNat using Nat.strong_induction_on generalizing t t' p with
  | _ size_val ih =>
      have positive : 0 < t' := sound.elected_pos elected
      -- The induction hypothesis for every leader before `t'`.
      have earlier : ∀ s p, h.Committed s p → ∀ t'', s < t'' → t'' < t' → h.Elected t'' →
          p <+: h.leaderLog t'' := by
        intro s q qCommitted t'' sLater before elected'
        have positive' : 0 < t'' := sound.elected_pos elected'
        exact (ih t''.toNat (by omega) qCommitted sLater elected' rfl).trans
          (sound.electedLog_prefix elected')
      obtain ⟨c, leads⟩ := elected
      obtain ⟨candidate, voters, stands, majority, votes, _, derived⟩ :=
        sound.elections t' c leads
      obtain ⟨_, _, candidateBacked, candidateTerms⟩ := sound.candidates t' c candidate stands
      obtain ⟨acknowledgers, ackMajority, acks⟩ := committed.quorum
      obtain ⟨v, acknowledged, voted⟩ := ackMajority.exists_common majority
      obtain ⟨_, candidate', stands', upToDate, voterBacked, kept⟩ := votes v voted
      rw [stands, Option.some.injEq] at stands'
      subst stands'
      have voterContains : p <+: h.ballotLog t' v := by
        rcases kept t p later committed.stamped (acks v acknowledged) with
          contains | ⟨t'', after, before, elected', lacks⟩
        · exact contains
        · exact absurd (earlier t p committed t'' after before elected') lacks
      have contains : p <+: candidate :=
        sound.candidate_contains committed.stamped candidateBacked candidateTerms
          voterBacked upToDate voterContains (earlier t p committed)
      rcases derived with same | ⟨t₀, before, p₀, installed, inside, longer⟩
      · rw [same]
        exact contains
      · -- The candidate installed `p₀`; it and `p` lie in the log of one leader.
        have long : p.length ≤ (h.electedLog t').length := contains.length_le.trans longer
        rcases lt_trichotomy t₀ t with less | rfl | greater
        · have common := earlier t₀ p₀ installed t less later committed.stamped.elected
          exact prefix_of_common committed.stamped.isPrefix (inside.trans common) long
        · exact prefix_of_common committed.stamped.isPrefix
            (inside.trans installed.stamped.isPrefix) long
        · have common := earlier t p committed t₀ greater before installed.stamped.elected
          exact prefix_of_common common (inside.trans installed.stamped.isPrefix) long

/-- What is committed in a term is contained in the log of the leader of every
term from then on. -/
theorem Sound.committed_prefix_leaderLog {h : History ν ε} (sound : h.Sound) {t t' : ℤ}
    {p : List ε} (committed : h.Committed t p) (later : t ≤ t') (elected : h.Elected t') :
    p <+: h.leaderLog t' := by
  rcases later.eq_or_lt with rfl | strictly
  · exact committed.stamped.isPrefix
  · exact (sound.leader_complete committed strictly elected).trans
      (sound.electedLog_prefix elected)

/-- Of two committed logs one is a prefix of the other. -/
theorem Sound.committed_comparable {h : History ν ε} (sound : h.Sound) {t t' : ℤ}
    {p p' : List ε} (left : h.Committed t p) (right : h.Committed t' p') :
    p <+: p' ∨ p' <+: p := by
  rcases le_total t t' with before | after
  · exact List.prefix_or_prefix_of_prefix
      (sound.committed_prefix_leaderLog left before right.stamped.elected)
      right.stamped.isPrefix
  · exact List.prefix_or_prefix_of_prefix left.stamped.isPrefix
      (sound.committed_prefix_leaderLog right after left.stamped.elected)

/-- Of two prefixes of committed logs one is a prefix of the other. -/
theorem Sound.committedBy_comparable {h : History ν ε} (sound : h.Sound) {t t' : ℤ}
    {c c' : List ε} (left : h.CommittedBy t c) (right : h.CommittedBy t' c') :
    c <+: c' ∨ c' <+: c := by
  rcases left with rfl | ⟨_, _, p, committed, inside⟩
  · exact Or.inl List.nil_prefix
  · rcases right with rfl | ⟨_, _, p', committed', inside'⟩
    · exact Or.inr List.nil_prefix
    · rcases sound.committed_comparable committed committed' with below | above
      · exact List.prefix_or_prefix_of_prefix (inside.trans below) inside'
      · exact List.prefix_or_prefix_of_prefix inside (inside'.trans above)

/-- What was committed before the term of a leader is contained in the log with
which it was elected. -/
theorem Sound.committedBy_prefix_electedLog {h : History ν ε} (sound : h.Sound) {t t' : ℤ}
    {c : List ε} (committed : h.CommittedBy t c) (later : t < t') (elected : h.Elected t') :
    c <+: h.electedLog t' := by
  rcases committed with rfl | ⟨_, before, p, committed, inside⟩
  · exact List.nil_prefix
  · exact inside.trans (sound.leader_complete committed (before.trans_lt later) elected)

/-- What was committed in a term up to that of a leader is contained in the
leader's log. -/
theorem Sound.committedBy_prefix_leaderLog {h : History ν ε} (sound : h.Sound) {t : ℤ}
    {c : List ε} (committed : h.CommittedBy t c) (elected : h.Elected t) :
    c <+: h.leaderLog t := by
  rcases committed with rfl | ⟨_, before, p, committed, inside⟩
  · exact List.nil_prefix
  · exact inside.trans (sound.committed_prefix_leaderLog committed before elected)

end History

end CppRaft.Consensus
