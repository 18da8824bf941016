import PhiChain.Governance.Steps

/-!
# The registered turnout invariant

A proposal passes the registered check when its aggregates are a recount and its
turnout is within the frozen denominator (`Audited`). Every action keeps this while no
more voters are counted than the denominator allows, except the pruner: it deletes the
per-voter records of a queued proposal in one call and its aggregates in a later one,
and the check compares the two in between. `turnout_unbroken_of_run` is the result for
runs in which the pruner finds no counted ballot, and `turnout_broken_after_prune` a run
of an ordinary proposal that is reported as broken.
-/

set_option autoImplicit false

namespace PhiChain.Governance

open Foundations Sdk

/-- The aggregates of a proposal are a recount within its frozen denominator. -/
structure Audited (s : Store) (id : Nat) : Prop where
  consistent : Consistent s id
  within : s.turnout id = 0 ∨
    ∃ basis, s.eligibility.get? id = some basis ∧ s.turnout id ≤ basis.denominator

variable {id : Nat} {s : Store} {ctx : VoteCtx}

theorem Audited.checkTurnout (h : Audited s id) :
    s.checkTurnout id = none := by
  have hsum : sumCounts (s.getRunningTally id) = s.turnout id :=
    (s.sumCounts_getRunningTally id).trans h.consistent.sum
  have hturnout : (s.getRunningTally id).turnout = s.turnout id := rfl
  unfold Store.checkTurnout
  dsimp only
  rw [hsum, hturnout, h.consistent.counted]
  split
  · rename_i hnone
    rcases h.within with hzero | ⟨basis, hbasis, -⟩
    · exact if_pos ⟨hzero, hzero, hzero⟩
    · cases hnone.symm.trans hbasis
  · rename_i basis hsome
    have hle : s.turnout id ≤ basis.denominator := by
      rcases h.within with hzero | ⟨basis', hbasis, hle⟩
      · rw [hzero]
        exact Nat.zero_le _
      · obtain rfl : basis' = basis := Option.some.inj (hbasis.symm.trans hsome)
        exact hle
    rw [if_neg (Nat.not_lt.2 hle), if_neg (not_not.2 rfl), if_neg (not_not.2 rfl)]

/-- A store in which every proposal is audited passes the registered check. -/
theorem turnout_unbroken (h : ∀ id, Audited s id) :
    s.turnoutWithinFrozenBasisInvariant = none :=
  List.findSome?_eq_none_iff.2 fun id _ => (h id).checkTurnout

section Frames

variable {s' : Store} {j : Nat}

theorem SameRecords.audited (h : SameRecords s s' id) (ha : Audited s id) : Audited s' id where
  consistent := h.consistent ha.consistent
  within := by
    rw [h.turnout_eq, h.basis]
    exact ha.within

theorem Cleared.audited (h : Cleared s id) : Audited s id where
  consistent := h.consistent
  within := by
    refine Or.inl ?_
    unfold Store.turnout OrdMap.getD
    rw [h.turnout]
    rfl

/-- A proposal that gets its basis now has no turnout yet. -/
theorem freeze_audited {p : Proposal} (ha : Audited s j) :
    Audited (freezeEligibilityOnce ctx id p s).2 j := by
  by_cases hj : id = j
  · subst hj
    refine ⟨freeze_consistent ha.consistent, ?_⟩
    rcases freezeEligibilityOnce_cases ctx id p s with ⟨basis, -, heq⟩ | ⟨hnone, heq⟩
    · rw [heq]
      exact ha.within
    · rw [heq]
      rcases ha.within with hzero | ⟨basis, hbasis, -⟩
      · exact Or.inl hzero
      · cases hnone.symm.trans hbasis
  · exact (freeze_untouched hj).toSameRecords.audited ha

end Frames

/-! ## The conditions on a run -/

/-- A first ballot is counted only while the denominator leaves room for its voter. -/
def keepsElectorate (w : World) (a : VoteCtx × Action) : Bool :=
  match a.2 with
  | .vote id voter _ =>
    match w.proposals.get? id with
    | none => true
    | some p =>
      routeOf w.gov p = .routeTechnical ∨ w.gov.getCountedVote id voter ≠ none ∨
        w.gov.countedBallots id < (freezeEligibilityOnce a.1 id p w.gov).1.denominator
  | _ => true

/-- The pruner is called only while no queued proposal holds a per-voter record. -/
def prunesNoBallot (w : World) (a : VoteCtx × Action) : Bool :=
  match a.2 with
  | .pruneStep _ => w.gov.pruneQueue.entries.all fun e => (w.gov.countedVoteKeys e.1).isEmpty
  | _ => true

/-- Then no proposal of the queue has its votes deleted before its aggregates. -/
theorem not_begun {w : World} {budget : Int} {s' : Store}
    (h : prunesNoBallot w (ctx, .pruneStep budget) = true) : ¬ Begun w.gov s' id := by
  intro hbegun
  obtain ⟨v, hv⟩ := hbegun.held
  obtain ⟨m, hm⟩ := Option.ne_none_iff_exists'.1 hv
  obtain ⟨u, hu⟩ := OrdMap.has_iff.1 hbegun.queued
  have hempty := List.all_eq_true.1 h (id, u) (OrdMap.mem_entries.2 hu)
  have hmem : (⟨id, v⟩ : CountedVoteKey) ∈ w.gov.countedVoteKeys id :=
    OrdMap.mem_keysWhere.2 ⟨decide_eq_true rfl, OrdMap.has_iff.2 ⟨m, hm⟩⟩
  rw [List.isEmpty_iff.1 hempty] at hmem
  cases hmem

/-- A ballot within the electorate keeps its proposal audited. -/
theorem recordVote_audited {v : Bytes} {o : Byte} {basis : FrozenEligibility}
    (ho : o ≠ ineligibleVoteMarker) (ha : Audited s id)
    (hbasis : s.eligibility.get? id = some basis)
    (hroom : s.getCountedVote id v ≠ none ∨ s.countedBallots id < basis.denominator) :
    Audited (s.recordVote id v o true).2 id := by
  refine ⟨recordVote_consistent ho ha.consistent, ?_⟩
  rw [(recordVote_frame true).1, recordVote_turnout]
  by_cases hfirst : s.getCountedVote id v = none
  · have hlt : s.countedBallots id < basis.denominator := hroom.resolve_left (not_not.2 hfirst)
    rw [ha.consistent.counted] at hlt
    rw [if_pos hfirst]
    exact Or.inr ⟨basis, hbasis, hlt⟩
  · rw [if_neg hfirst, Nat.add_zero]
    exact ha.within

theorem apply_audited {authority : Bytes} {w w' : World} {a : Action}
    (h : apply authority ctx w a = .ok w') (hkeeps : keepsElectorate w (ctx, a) = true)
    (hprune : prunesNoBallot w (ctx, a) = true) (hw : ∀ id, Audited w.gov id) (j : Nat) :
    Audited w'.gov j := by
  cases tallyStep_of_apply h with
  | kept same _ => exact (same j).audited (hw j)
  | frozen p froze =>
    rw [froze]
    exact freeze_audited (hw j)
  | @ballot id p voter options _ hp recorded =>
    have hfrozen : Audited (freezeEligibilityOnce ctx id p w.gov).2 j := freeze_audited (hw j)
    rcases recordBallot_ok recorded with ⟨-, -, hgov⟩ | ⟨hroute, -, hgov⟩
    · rw [hgov]
      exact hfrozen
    · rw [hgov]
      by_cases hj : id = j
      · subst hj
        refine recordVote_audited (VoteOption.code_ne_marker _) hfrozen freeze_get? ?_
        unfold keepsElectorate at hkeeps
        dsimp only at hkeeps
        rw [hp] at hkeeps
        have hroom := (of_decide_eq_true hkeeps).resolve_left hroute
        rw [freeze_frame]
        exact hroom
      · exact (recordVote_other true hj).audited hfrozen
  | @pruned budget _ pruned =>
    rw [pruned]
    cases pruneStep_pruned w.gov budget j with
    | untouched hsame => exact hsame.toSameRecords.audited (hw j)
    | begun hbegun => exact absurd hbegun (not_begun hprune)
    | cleared _ hcleared => exact hcleared.audited

/-- From a store without tally state, in every run whose proposals never count more voters than
their frozen denominator and whose pruner never finds a counted ballot of a queued proposal, the
invariant is not broken in any state reached. -/
theorem turnout_unbroken_of_run (authority : Bytes) {w : World} (hw : w.gov.Empty)
    {as : List (VoteCtx × Action)}
    (hrun : Along (step authority)
      (fun w a => keepsElectorate w a = true ∧ prunesNoBallot w a = true) w as) :
    (run (step authority) w as).gov.turnoutWithinFrozenBasisInvariant = none := by
  refine turnout_unbroken ?_
  have hstep : ∀ (w : World) (a : VoteCtx × Action),
      keepsElectorate w a = true ∧ prunesNoBallot w a = true → (∀ id, Audited w.gov id) →
        ∀ id, Audited (step authority w a).gov id := by
    intro w a hok hinv
    refine commit_preserves (p := fun w : World => ∀ id, Audited w.gov id) hinv fun w' h => ?_
    exact apply_audited h hok.1 hok.2 hinv
  exact @run_preserves _ _ _ _ (fun w : World => ∀ id, Audited w.gov id) hstep _
    (fun id => (hw.cleared id).audited) _ hrun

/-! ## A small chain -/

/-- Everybody is eligible, the electorate counts three heads, and nobody is a validator. -/
def openCtx (now : Int) : VoteCtx where
  blockTime := now
  identity := ⟨fun _ _ _ _ => true, fun _ _ => 3, 3, 0⟩
  isActiveValidatorOperator _ := false
  validators := ∅

def emptyWorld : World := ⟨∅, ∅, Store.fresh⟩

theorem emptyWorld_empty : emptyWorld.gov.Empty := ⟨rfl, rfl, rfl, rfl, rfl⟩

/-- A ballot for one option with full weight. -/
def plainBallot (o : VoteOption) : List WeightedVoteOption := [⟨o, some 1000000000000000000⟩]

/-- Proposal 1, a text without messages, is opened, voter 1 votes yes, and the voting ends. -/
def votedRun : List (VoteCtx × Action) :=
  [(openCtx 100, .submit 1 (some []) false),
    (openCtx 100, .deposit 1 true),
    (openCtx 101, .vote 1 [1] (plainBallot .yes)),
    (openCtx 200, .endVoting 1 .passed)]

/-- Beside a voted proposal another one without votes is ended and pruned. -/
def unvotedRun : List (VoteCtx × Action) :=
  [(openCtx 100, .submit 1 (some []) false),
    (openCtx 100, .deposit 1 true),
    (openCtx 101, .vote 1 [1] (plainBallot .yes)),
    (openCtx 101, .submit 2 (some []) false),
    (openCtx 102, .deposit 2 true),
    (openCtx 200, .endVoting 2 .refused),
    (openCtx 200, .pruneStep pruneBudgetPerBlock)]

/-- The pruner removes a proposal without votes while another one is open. -/
theorem turnout_unbroken_of_run_unvoted :
    (run (step []) emptyWorld unvotedRun).gov.eligibility.get? 2 = none ∧
      (run (step []) emptyWorld unvotedRun).gov.turnoutWithinFrozenBasisInvariant = none := by
  refine ⟨by decide +kernel, turnout_unbroken_of_run [] emptyWorld_empty ?_⟩
  have hrun : Along (step []) (fun w a => keepsElectorate w a = true ∧ prunesNoBallot w a = true)
      emptyWorld unvotedRun :=
    ⟨by decide +kernel, by decide +kernel, by decide +kernel, by decide +kernel,
      by decide +kernel, by decide +kernel, by decide +kernel, trivial⟩
  exact hrun

/-- One counted voter of three, an ended proposal, and one call of the pruner with the budget
of a block: the vote is gone, its turnout is not, and the invariant is broken. -/
theorem turnout_broken_after_prune :
    Along (step []) (fun w a => keepsElectorate w a = true) emptyWorld
        (votedRun ++ [(openCtx 200, .pruneStep pruneBudgetPerBlock)]) ∧
      (run (step []) emptyWorld votedRun).gov.turnoutWithinFrozenBasisInvariant = none ∧
      (run (step []) emptyWorld (votedRun ++ [(openCtx 200, .pruneStep pruneBudgetPerBlock)])
        ).gov.turnoutWithinFrozenBasisInvariant =
        some "proposal 1 records 0 counted ballot(s) but turnout is 1" := by
  refine ⟨?_, by decide +kernel, by decide +kernel⟩
  have hrun : Along (step []) (fun w a => keepsElectorate w a = true) emptyWorld
      (votedRun ++ [(openCtx 200, .pruneStep pruneBudgetPerBlock)]) :=
    ⟨by decide +kernel, by decide +kernel, by decide +kernel, by decide +kernel,
      by decide +kernel, trivial⟩
  exact hrun

end PhiChain.Governance
