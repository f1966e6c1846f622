import CppRaft.Consensus.Steps

/-!
# Reachable histories

The histories that the abstract protocol reaches from the fresh one are sound.
A sequence of steps of one node extends the history and leaves the other nodes
alone.
-/

namespace CppRaft.Consensus

namespace History

universe u v

variable {ν : Type u} {ε : Type v} [Termed ε] [Fintype ν] [DecidableEq ν]

/-- The histories that sequences of steps reach. -/
inductive Reachable : History ν ε → Prop
  | start : Reachable (start ν ε)
  | step {h h' : History ν ε} {v : ν} : Reachable h → Step h v h' → Reachable h'

theorem Reachable.sound {h : History ν ε} (reachable : Reachable h) : h.Sound := by
  induction reachable with
  | start => exact sound_start
  | step _ step ih => exact ih.step step

/-- A sequence of steps of node `v`. -/
inductive Steps (v : ν) (h : History ν ε) : History ν ε → Prop
  | refl : Steps v h h
  | snoc {h' h'' : History ν ε} : Steps v h h' → Step h' v h'' → Steps v h h''

theorem Step.steps {v : ν} {h h' : History ν ε} (step : Step h v h') : Steps v h h' :=
  Steps.refl.snoc step

theorem Steps.trans {v : ν} {h h' h'' : History ν ε} (first : Steps v h h')
    (second : Steps v h' h'') : Steps v h h'' := by
  induction second with
  | refl => exact first
  | snoc _ step ih => exact ih.snoc step

theorem Steps.reachable {v : ν} {h h' : History ν ε} (steps : Steps v h h')
    (reachable : Reachable h) : Reachable h' := by
  induction steps with
  | refl => exact reachable
  | snoc _ step ih => exact ih.step step

omit [Fintype ν] [DecidableEq ν] in
theorem Extends.trans {h h' h'' : History ν ε} (termMono : ∀ v, h.term v ≤ h'.term v)
    (first : Extends h h') (second : Extends h' h'') : Extends h h'' where
  leader := fun t c leads => second.leader t c (first.leader t c leads)
  electedLog := by
    intro t elected
    rw [second.electedLog t (first.elected elected), first.electedLog t elected]
  leaderLog := by
    intro t elected
    obtain ⟨added, extended, terms⟩ := first.leaderLog t elected
    obtain ⟨added', extended', terms'⟩ := second.leaderLog t (first.elected elected)
    refine ⟨added ++ added', by rw [extended', extended, List.append_assoc], ?_⟩
    intro e member
    rcases List.mem_append.mp member with earlier | later
    · exact terms e earlier
    · exact terms' e later
  ballot := by
    intro t v c cast
    obtain ⟨kept, sameLog⟩ := first.ballot t v c cast
    obtain ⟨kept', sameLog'⟩ := second.ballot t v c kept
    exact ⟨kept', sameLog'.trans sameLog⟩
  candidateLog := fun t c l stands => second.candidateLog t c l (first.candidateLog t c l stands)
  acked := fun t v => (first.acked t v).trans (second.acked t v)
  frozen := by
    intro t v before
    rw [second.frozen t v (before.trans_le (termMono v)), first.frozen t v before]

/-- What steps of node `v` do to the history and to the other nodes. -/
structure Moves (v : ν) (h h' : History ν ε) : Prop where
  ext : Extends h h'
  termMono : ∀ w, h.term w ≤ h'.term w
  sameTerm : ∀ w, w ≠ v → h'.term w = h.term w
  sameLog : ∀ w, w ≠ v → h'.log w = h.log w
  sameBallot : ∀ w, w ≠ v → ∀ t, h'.ballot t w = h.ballot t w
  sameLeaderLog : ∀ w, w ≠ v → ∀ t, h.leader t = some w → h'.leaderLog t = h.leaderLog t

omit [Fintype ν] [DecidableEq ν] in
theorem Moves.refl (v : ν) (h : History ν ε) : Moves v h h where
  ext := Extends.refl h
  termMono := fun _ => le_rfl
  sameTerm := fun _ _ => rfl
  sameLog := fun _ _ => rfl
  sameBallot := fun _ _ _ => rfl
  sameLeaderLog := fun _ _ _ _ => rfl

omit [Fintype ν] [DecidableEq ν] in
theorem Moves.trans {v : ν} {h h' h'' : History ν ε} (first : Moves v h h')
    (second : Moves v h' h'') : Moves v h h'' where
  ext := first.ext.trans first.termMono second.ext
  termMono := fun w => (first.termMono w).trans (second.termMono w)
  sameTerm := fun w other => (second.sameTerm w other).trans (first.sameTerm w other)
  sameLog := fun w other => (second.sameLog w other).trans (first.sameLog w other)
  sameBallot := fun w other t => (second.sameBallot w other t).trans (first.sameBallot w other t)
  sameLeaderLog := fun w other t leads =>
    (second.sameLeaderLog w other t (first.ext.leader t w leads)).trans
      (first.sameLeaderLog w other t leads)

/-- One step of a node moves only this node. -/
theorem Sound.moves_step {h h' : History ν ε} (sound : h.Sound) {v : ν} (step : Step h v h') :
    Moves v h h' := by
  have ext := sound.extends_step step
  cases step with
  | raise t later =>
      exact
        { Moves.refl v h with
          ext := ext
          termMono := term_le_update later
          sameTerm := fun w other => by simp [History.raise, other] }
  | campaign t later =>
      exact
        { Moves.refl v h with
          ext := ext
          termMono := term_le_update later.le
          sameTerm := fun w other => by simp [History.campaign, other]
          sameBallot := fun w other t => setAt_of_node_ne other }
  | grant c candidate unspent stands upToDate =>
      exact
        { Moves.refl v h with
          ext := ext
          sameBallot := fun w other t => setAt_of_node_ne other }
  | elect Q vacant majority votes =>
      exact
        { Moves.refl v h with
          ext := ext
          sameLeaderLog := by
            intro w _ t leads
            have otherTerm : t ≠ h.term v := by
              rintro rfl
              rw [vacant] at leads
              exact absurd leads (by simp)
            simp [History.elect, otherTerm] }
  | propose e leads current stamp =>
      exact
        { Moves.refl v h with
          ext := ext
          sameLog := fun w other => by simp [History.propose, other]
          sameLeaderLog := by
            intro w other t leads'
            have otherTerm : t ≠ h.term v := by
              rintro rfl
              rw [leads, Option.some.injEq] at leads'
              exact other leads'.symm
            simp [History.propose, otherTerm] }
  | acknowledge k elected bounded holds =>
      exact
        { Moves.refl v h with
          ext := ext
          sameLog := fun w _ => by simp [History.accept] }
  | follow k elected bounded lacks =>
      exact
        { Moves.refl v h with
          ext := ext
          sameLog := fun w other => by simp [History.accept, other] }
  | install l committed longer =>
      exact
        { Moves.refl v h with
          ext := ext
          sameLog := fun w other => by simp [History.install, other] }

/-- The steps of a node from a reachable history move only this node. -/
theorem Steps.moves {v : ν} {h h' : History ν ε} (steps : Steps v h h')
    (reachable : Reachable h) : Moves v h h' := by
  induction steps with
  | refl => exact Moves.refl v h
  | snoc earlier step ih => exact ih.trans ((earlier.reachable reachable).sound.moves_step step)

end History

end CppRaft.Consensus
