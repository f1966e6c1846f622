import CppRaft.Consensus.Prefix

/-!
# Leader-based replication as an abstract machine

The abstract protocol keeps, beside the term and the log of every node, the
history that its safety argument speaks about: the ballots of every term with
the voters' logs, the logs that candidates stood for election with, the leader
of every term with the log it was elected with and the log it has now, and how
far every node has acknowledged the leader of a term.

A node that follows the leader of its term either holds the offered prefix
already, and keeps its log, or replaces its log by that prefix.
-/

namespace CppRaft.Consensus

universe u v

/-- The state of the abstract protocol together with its history. -/
structure History (ν : Type u) (ε : Type v) where
  term : ν → ℤ
  log : ν → List ε
  /-- The candidate that a node voted for in a term. -/
  ballot : ℤ → ν → Option ν
  /-- The log of the voter when it voted. -/
  ballotLog : ℤ → ν → List ε
  /-- The log with which a node stood for election in a term. -/
  candidateLog : ℤ → ν → Option (List ε)
  leader : ℤ → Option ν
  /-- The log of the leader of a term when it was elected. -/
  electedLog : ℤ → List ε
  /-- The log of the leader of a term at the end of its leadership so far. -/
  leaderLog : ℤ → List ε
  /-- The length of the leader's log that a node has acknowledged in a term. -/
  acked : ℤ → ν → ℕ

variable {ν : Type u} {ε : Type v}

/-- Change a table at one term and node. -/
def setAt [DecidableEq ν] {β : Type*} (table : ℤ → ν → β) (t : ℤ) (v : ν) (value : β) :
    ℤ → ν → β :=
  fun t' v' => if t' = t ∧ v' = v then value else table t' v'

@[simp]
theorem setAt_self [DecidableEq ν] {β : Type*} (table : ℤ → ν → β) (t : ℤ) (v : ν) (value : β) :
    setAt table t v value t v = value := by
  simp [setAt]

theorem setAt_of_term_ne [DecidableEq ν] {β : Type*} {table : ℤ → ν → β} {t t' : ℤ} {v v' : ν}
    {value : β} (other : t' ≠ t) : setAt table t v value t' v' = table t' v' := by
  simp [setAt, other]

theorem setAt_of_node_ne [DecidableEq ν] {β : Type*} {table : ℤ → ν → β} {t t' : ℤ} {v v' : ν}
    {value : β} (other : v' ≠ v) : setAt table t v value t' v' = table t' v' := by
  simp [setAt, other]

namespace History

/-- No node has done anything. -/
def start (ν : Type u) (ε : Type v) : History ν ε where
  term := fun _ => 0
  log := fun _ => []
  ballot := fun _ _ => none
  ballotLog := fun _ _ => []
  candidateLog := fun _ _ => none
  leader := fun _ => none
  electedLog := fun _ => []
  leaderLog := fun _ => []
  acked := fun _ _ => 0

/-- Some node was elected in term `t`. -/
def Elected (h : History ν ε) (t : ℤ) : Prop :=
  ∃ c, h.leader t = some c

variable [Termed ε]

/-- `p` is a prefix of the log of the leader of term `t` and ends with an entry
that this leader made itself. -/
structure Stamped (h : History ν ε) (t : ℤ) (p : List ε) : Prop where
  elected : h.Elected t
  isPrefix : p <+: h.leaderLog t
  nonempty : p ≠ []
  lastTerm_eq : lastTerm p = t

/-- The leader of term `t` has committed `p`: a majority acknowledged it in
that term. -/
structure Committed [Fintype ν] (h : History ν ε) (t : ℤ) (p : List ε) : Prop where
  stamped : h.Stamped t p
  quorum : ∃ Q : Finset ν, Majority Q ∧ ∀ v ∈ Q, p.length ≤ h.acked t v

/-- `c` is a prefix of something committed in a term up to `t`, or empty. -/
def CommittedBy [Fintype ν] (h : History ν ε) (t : ℤ) (c : List ε) : Prop :=
  c = [] ∨ ∃ t' ≤ t, ∃ p, h.Committed t' p ∧ c <+: p

/-- Every prefix of `l` is a prefix of the log of the leader that made its last
entry. -/
def Backed (h : History ν ε) (l : List ε) : Prop :=
  ∀ p, p <+: l → p ≠ [] → h.Elected (lastTerm p) ∧ p <+: h.leaderLog (lastTerm p)

/-- What node `v` acknowledged to the leader of a term before `a` is still a
prefix of `l`, unless a later leader of a term before `b` lacked it. -/
def Kept (h : History ν ε) (v : ν) (l : List ε) (a b : ℤ) : Prop :=
  ∀ t p, t < a → h.Stamped t p → p.length ≤ h.acked t v →
    p <+: l ∨ ∃ t', t < t' ∧ t' < b ∧ h.Elected t' ∧ ¬ p <+: h.leaderLog t'

/-- `l` is the log `candidate` of a node that stood for election in term `t`,
or was installed over it from what leaders of earlier terms had committed. -/
def Derived [Fintype ν] (h : History ν ε) (t : ℤ) (candidate l : List ε) : Prop :=
  l = candidate ∨
    ∃ t' < t, ∃ p, h.Committed t' p ∧ l <+: p ∧ candidate.length ≤ l.length

/-! ## Operations -/

section Operations

variable [DecidableEq ν]

/-- Node `v` moves to term `t`. -/
def raise (h : History ν ε) (v : ν) (t : ℤ) : History ν ε :=
  { h with term := Function.update h.term v t }

/-- Node `v` stands for election in term `t` and votes for itself. -/
def campaign (h : History ν ε) (v : ν) (t : ℤ) : History ν ε :=
  { h with
    term := Function.update h.term v t
    ballot := setAt h.ballot t v (some v)
    ballotLog := setAt h.ballotLog t v (h.log v)
    candidateLog := setAt h.candidateLog t v (some (h.log v)) }

/-- Node `v` votes for `c` in its term. -/
def grant (h : History ν ε) (v c : ν) : History ν ε :=
  { h with
    ballot := setAt h.ballot (h.term v) v (some c)
    ballotLog := setAt h.ballotLog (h.term v) v (h.log v) }

/-- Node `c` becomes the leader of its term. -/
def elect (h : History ν ε) (c : ν) : History ν ε :=
  { h with
    leader := Function.update h.leader (h.term c) (some c)
    electedLog := Function.update h.electedLog (h.term c) (h.log c)
    leaderLog := Function.update h.leaderLog (h.term c) (h.log c) }

/-- Leader `c` appends `e`. -/
def propose (h : History ν ε) (c : ν) (e : ε) : History ν ε :=
  { h with
    log := Function.update h.log c (h.log c ++ [e])
    leaderLog := Function.update h.leaderLog (h.term c) (h.log c ++ [e]) }

/-- Node `v` acknowledges the first `k` entries of its leader's log, with the
log `l`. -/
def accept (h : History ν ε) (v : ν) (k : ℕ) (l : List ε) : History ν ε :=
  { h with
    log := Function.update h.log v l
    acked := setAt h.acked (h.term v) v (max (h.acked (h.term v) v) k) }

/-- Node `v` replaces its log by `l`. -/
def install (h : History ν ε) (v : ν) (l : List ε) : History ν ε :=
  { h with log := Function.update h.log v l }

end Operations

variable [DecidableEq ν] [Fintype ν]

/-- The steps of the abstract protocol, each with the node that takes it. -/
inductive Step (h : History ν ε) : ν → History ν ε → Prop
  /-- A node learns of a later term. -/
  | raise (v : ν) (t : ℤ) (later : h.term v ≤ t) : Step h v (h.raise v t)
  /-- A node stands for election in a new term. -/
  | campaign (v : ν) (t : ℤ) (later : h.term v < t) : Step h v (h.campaign v t)
  /-- A node votes for a candidate of its term whose log is at least as up to
  date as its own. -/
  | grant (v c : ν) (candidate : List ε)
      (unspent : h.ballot (h.term v) v = none)
      (stands : h.candidateLog (h.term v) c = some candidate)
      (upToDate : AsUpToDate candidate (h.log v)) : Step h v (h.grant v c)
  /-- A candidate with a majority becomes the leader of its term. -/
  | elect (c : ν) (Q : Finset ν) (vacant : h.leader (h.term c) = none) (majority : Majority Q)
      (votes : ∀ v ∈ Q, h.ballot (h.term c) v = some c) : Step h c (h.elect c)
  /-- A leader appends an entry of its term. -/
  | propose (c : ν) (e : ε) (leads : h.leader (h.term c) = some c)
      (current : h.log c = h.leaderLog (h.term c)) (stamp : termOf e = h.term c) :
      Step h c (h.propose c e)
  /-- A node that already holds the first `k` entries of its leader
  acknowledges them. -/
  | acknowledge (v : ν) (k : ℕ) (elected : h.Elected (h.term v))
      (bounded : k ≤ (h.leaderLog (h.term v)).length)
      (holds : (h.leaderLog (h.term v)).take k <+: h.log v) :
      Step h v (h.accept v k (h.log v))
  /-- A node that lacks them replaces its log by them. -/
  | follow (v : ν) (k : ℕ) (elected : h.Elected (h.term v))
      (bounded : k ≤ (h.leaderLog (h.term v)).length)
      (lacks : ¬ (h.leaderLog (h.term v)).take k <+: h.log v) :
      Step h v (h.accept v k ((h.leaderLog (h.term v)).take k))
  /-- A node replaces its log by a committed prefix that is not shorter. -/
  | install (v : ν) (l : List ε) (committed : h.CommittedBy (h.term v) l)
      (longer : (h.log v).length ≤ l.length) : Step h v (h.install v l)

end History

end CppRaft.Consensus
