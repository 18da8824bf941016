import PhiChain.Governance.Hooks
import PhiChain.Governance.Prune

/-!
# Steps of the proposal lifecycle

One inversion lemma for each action, and two facts that hold in every state a run
reaches from a store without tally state: a queued proposal is a finished one and no
voter carries the marker of the turned away (`Orderly`), and the aggregates of a
proposal that is not queued are a recount of its votes (`Tallied`).
-/

set_option autoImplicit false

namespace PhiChain.Governance

open Foundations Sdk

variable {id j : Nat} {w w' : World} {ctx : VoteCtx} {options : List WeightedVoteOption}
  {p : Proposal} {s s' : Store} {authority voter : Bytes} {a : Action}

/-! ## Freezing -/

/-- A freeze keeps the basis there is, or stores the one taken now. -/
theorem freezeEligibilityOnce_cases (ctx : VoteCtx) (id : Nat) (p : Proposal) (s : Store) :
    (∃ basis, s.eligibility.get? id = some basis ∧ freezeEligibilityOnce ctx id p s = (basis, s)) ∨
      (s.eligibility.get? id = none ∧ freezeEligibilityOnce ctx id p s =
        (takeBasis ctx p, { s with eligibility := s.eligibility.put id (takeBasis ctx p) })) := by
  unfold freezeEligibilityOnce
  cases h : s.eligibility.get? id with
  | some basis => exact Or.inl ⟨basis, rfl, rfl⟩
  | none => exact Or.inr ⟨rfl, rfl⟩

theorem freeze_get? :
    (freezeEligibilityOnce ctx id p s).2.eligibility.get? id =
      some (freezeEligibilityOnce ctx id p s).1 := by
  rcases freezeEligibilityOnce_cases ctx id p s with ⟨basis, hget, heq⟩ | ⟨-, heq⟩
  · rw [heq]
    exact hget
  · rw [heq]
    exact OrdMap.get?_put_self _ _ _

/-- A freeze changes nothing but the eligibility records. -/
theorem freeze_frame :
    (freezeEligibilityOnce ctx id p s).2 =
      { s with eligibility := (freezeEligibilityOnce ctx id p s).2.eligibility } := by
  rcases freezeEligibilityOnce_cases ctx id p s with ⟨basis, -, heq⟩ | ⟨-, heq⟩
  · rw [heq]
  · rw [heq]

theorem freeze_get?_ne (h : id ≠ j) :
    (freezeEligibilityOnce ctx id p s).2.eligibility.get? j = s.eligibility.get? j := by
  rcases freezeEligibilityOnce_cases ctx id p s with ⟨basis, -, heq⟩ | ⟨-, heq⟩
  · rw [heq]
  · rw [heq]
    exact OrdMap.get?_put_ne _ _ h

theorem freeze_untouched (h : id ≠ j) :
    Untouched s (freezeEligibilityOnce ctx id p s).2 j := by
  have hbasis : (freezeEligibilityOnce ctx id p s).2.eligibility.get? j = s.eligibility.get? j :=
    freeze_get?_ne h
  rw [freeze_frame] at hbasis ⊢
  exact ⟨⟨fun _ => rfl, rfl, fun _ => rfl, hbasis⟩, rfl⟩

theorem freeze_consistent (hc : Consistent s j) :
    Consistent (freezeEligibilityOnce ctx id p s).2 j := by
  rw [freeze_frame]
  exact ⟨hc.sum, hc.counted, hc.options⟩

/-! ## Inversion -/

theorem submit_ok {msgs : Option (List Bytes)} {expedited : Bool}
    (h : submit id msgs expedited w = .ok w') :
    w.proposals.get? id = none ∧
      w' = { w with proposals := w.proposals.put id ⟨msgs, .depositPeriod, none, expedited⟩ } := by
  simp only [submit, bind_eq_ok, ensure_eq_ok, pure_eq_ok, exists_const] at h
  obtain ⟨hnew, rfl⟩ := h
  exact ⟨hnew, rfl⟩

/-- A deposit may open the voting, and freezes the basis of a proposal that is open. -/
theorem deposit_ok {activates : Bool} (h : deposit ctx id activates w = .ok w') :
    ∃ p, w.proposals.get? id = some p ∧
      (p.status = .depositPeriod ∨ p.status = .votingPeriod) ∧
      w'.proposals = w.proposals.put id (p.activate activates ctx.blockTime) ∧
      w'.votes = w.votes ∧
      (w'.gov = w.gov ∨ w'.gov =
        (freezeEligibilityOnce ctx id (p.activate activates ctx.blockTime) w.gov).2) := by
  simp only [deposit, bind_eq_ok, orFail_eq_ok, ensure_eq_ok, pure_eq_ok, exists_const] at h
  obtain ⟨p, hp, hstatus, rfl⟩ := h
  refine ⟨p, hp, hstatus, rfl, rfl, ?_⟩
  unfold afterProposalDeposit
  rw [OrdMap.get?_put_self]
  dsimp only
  split
  · exact Or.inr rfl
  · exact Or.inl rfl

/-- A ballot the hook accepts: on the technical route nothing is recorded, on the public
one the voter passed the test of the frozen basis and the ballot is folded in. -/
theorem recordBallot_ok (h : recordBallot ctx id p voter options s = .ok s') :
    (routeOf s p = .routeTechnical ∧ ctx.isActiveValidatorOperator voter = true ∧
        s' = (freezeEligibilityOnce ctx id p s).2) ∨
      (routeOf s p ≠ .routeTechnical ∧
        ctx.identity.isEligibleControllerSince (accAddressString voter)
          (freezeEligibilityOnce ctx id p s).1.cutoff 0
          (freezeEligibilityOnce ctx id p s).1.frozenAt = true ∧
        s' = ((freezeEligibilityOnce ctx id p s).2.recordVote id voter
          (dominantOption options).code true).2) := by
  have hroute : routeOf (freezeEligibilityOnce ctx id p s).2 p = routeOf s p := by
    rw [freeze_frame]
    rfl
  unfold recordBallot at h
  dsimp only at h
  rw [hroute] at h
  split at h
  · rename_i htech
    simp only [bind_eq_ok, ensure_eq_ok, pure_eq_ok, exists_const] at h
    exact Or.inl ⟨htech, h.1, h.2.symm⟩
  · rename_i htech
    simp only [bind_eq_ok, ensure_eq_ok, pure_eq_ok, exists_const] at h
    exact Or.inr ⟨htech, h.1, h.2.symm⟩

theorem vote_ok (h : vote ctx id voter options w = .ok w') :
    ∃ p, w.proposals.get? id = some p ∧ p.status = .votingPeriod ∧ w'.proposals = w.proposals ∧
      w'.votes = w.votes.put ⟨id, voter⟩ options ∧
      recordBallot ctx id p voter options w.gov = .ok w'.gov := by
  simp only [vote, bind_eq_ok, orFail_eq_ok, ensure_eq_ok, pure_eq_ok, exists_const] at h
  obtain ⟨p, hp, hstatus, gov, hgov, rfl⟩ := h
  refine ⟨p, hp, hstatus, rfl, rfl, ?_⟩
  unfold afterProposalVote at hgov
  rw [hp, OrdMap.get?_put_self] at hgov
  exact hgov

theorem updateParams_ok {signer : Bytes} {params : Params}
    (h : updateParams authority signer params w = .ok w') :
    signer = authority ∧ params.validate = .ok () ∧
      w' = { w with gov := { w.gov with params := params } } := by
  simp only [updateParams, Store.setParams, bind_eq_ok, ensure_eq_ok, pure_eq_ok,
    exists_const] at h
  obtain ⟨hsigner, gov, ⟨⟨⟩, hvalid, rfl⟩, rfl⟩ := h
  exact ⟨hsigner, hvalid, rfl⟩

theorem enqueue_enqueue (s : Store) (id : Nat) :
    (s.enqueueForPruning id).enqueueForPruning id = s.enqueueForPruning id := by
  unfold Store.enqueueForPruning
  rw [OrdMap.put_of_get? (OrdMap.get?_put_self _ _ _)]

theorem phiTally_store {r : TallyResult × Store} (h : phiTally ctx id p w = .ok r) :
    r.2 = if p.expedited then w.gov else w.gov.enqueueForPruning id := by
  simp only [phiTally, bind_eq_ok, orFail_eq_ok] at h
  obtain ⟨msgs, -, h⟩ := h
  generalize (if p.expedited = true then w.gov else w.gov.enqueueForPruning id) = s at h ⊢
  split at h
  · simp only [bind_eq_ok, pure_eq_ok] at h
    obtain ⟨t, -, rfl⟩ := h
    rfl
  · cases h
    rfl

/-- The end of a voting period queues the proposal, unless it goes on as a regular one. -/
theorem endVoting_ok {outcome : Outcome} (h : endVoting ctx id outcome w = .ok w') :
    ∃ p, w.proposals.get? id = some p ∧ p.status = .votingPeriod ∧
      w'.proposals = w.proposals.put id (p.conclude outcome) ∧ w'.votes = w.votes ∧
      ((p.conclude outcome).status = .votingPeriod ∧ w'.gov = w.gov ∨
        (p.conclude outcome).status ≠ .votingPeriod ∧ w'.gov = w.gov.enqueueForPruning id) := by
  simp only [endVoting, bind_eq_ok, orFail_eq_ok, ensure_eq_ok, pure_eq_ok, exists_const] at h
  obtain ⟨p, hp, hstatus, r, hr, rfl⟩ := h
  refine ⟨p, hp, hstatus, rfl, rfl, ?_⟩
  have hstore := phiTally_store hr
  unfold afterProposalVotingPeriodEnded
  rw [OrdMap.get?_put_self]
  dsimp only
  split
  · rename_i hended
    refine Or.inr ⟨hended, ?_⟩
    rw [hstore]
    split
    · rfl
    · exact enqueue_enqueue _ _
  · rename_i hopen
    have hvoting : (p.conclude outcome).status = .votingPeriod := not_not.1 hopen
    refine Or.inl ⟨hvoting, ?_⟩
    rw [hstore, if_pos]
    -- only a refused expedited proposal stays in its voting period
    cases outcome with
    | passed | failed => cases hvoting
    | refused =>
      by_contra hexp
      unfold Proposal.conclude at hvoting
      rw [if_neg hexp] at hvoting
      cases hvoting

/-! ## Finished proposals -/

/-- The proposal takes neither deposits nor votes any more. -/
def Proposal.Ended (p : Proposal) : Prop := p.status ≠ .depositPeriod ∧ p.status ≠ .votingPeriod

theorem Proposal.conclude_ended {outcome : Outcome}
    (h : (p.conclude outcome).status ≠ .votingPeriod) (hp : p.status = .votingPeriod) :
    (p.conclude outcome).Ended := by
  refine ⟨?_, h⟩
  cases outcome with
  | passed => exact nofun
  | failed => exact nofun
  | refused =>
    by_cases hexp : p.expedited = true
    · simp [Proposal.conclude, hexp, hp]
    · simp [Proposal.conclude, hexp]

/-- A queued proposal is a finished one, and nobody counted carries the marker of the
turned away. -/
structure Orderly (w : World) : Prop where
  queued : ∀ id, w.gov.isQueuedForPruning id = true → ∃ p, w.proposals.get? id = some p ∧ p.Ended
  markers : ∀ id v, w.gov.getCountedVote id v ≠ some ineligibleVoteMarker

theorem Orderly.not_queued (hw : Orderly w) (hp : w.proposals.get? id = some p)
    (hopen : ¬ p.Ended) :
    w.gov.isQueuedForPruning id = false := by
  rw [Bool.eq_false_iff]
  intro hq
  obtain ⟨p', hp', hended⟩ := hw.queued id hq
  obtain rfl : p' = p := Option.some.inj (hp'.symm.trans hp)
  exact hopen hended

theorem not_ended_of_voting (h : p.status = .votingPeriod) : ¬ p.Ended :=
  fun hended => hended.2 h

/-- Changing a proposal that is not queued keeps the finished ones. -/
theorem queued_put (hw : Orderly w) (p : Proposal) (hid : w.gov.isQueuedForPruning id = false)
    (hj : w.gov.isQueuedForPruning j = true) :
    ∃ q, (w.proposals.put id p).get? j = some q ∧ q.Ended := by
  have hne : id ≠ j := fun heq => by
    rw [heq, hj] at hid
    cases hid
  rw [OrdMap.get?_put_ne _ _ hne]
  exact hw.queued j hj

theorem enqueue_isQueued :
    (s.enqueueForPruning id).isQueuedForPruning j = true ↔
      id = j ∨ s.isQueuedForPruning j = true := OrdMap.has_put

theorem recordVote_markers {v : Bytes} {o : Byte} (ho : o ≠ ineligibleVoteMarker)
    (hs : ∀ j u, s.getCountedVote j u ≠ some ineligibleVoteMarker) (j : Nat) (u : Bytes) :
    (s.recordVote id v o true).2.getCountedVote j u ≠ some ineligibleVoteMarker := by
  by_cases hj : id = j
  · subst hj
    by_cases hu : v = u
    · subst hu
      rw [recordVote_getCountedVote (hs id v)]
      exact fun heq => ho (Option.some.inj heq)
    · rw [recordVote_getCountedVote_ne true hu]
      exact hs id u
  · have hsame : (s.recordVote id v o true).2.getCountedVote j u = s.getCountedVote j u :=
      (recordVote_other true hj).votes u
    rw [hsame]
    exact hs j u

theorem recordBallot_queue
    (h : recordBallot ctx id p voter options s = .ok s') : s'.pruneQueue = s.pruneQueue := by
  rcases recordBallot_ok h with ⟨-, -, rfl⟩ | ⟨-, -, rfl⟩
  · rw [freeze_frame]
  · rw [(recordVote_frame true).2.1, freeze_frame]

theorem apply_orderly (h : apply authority ctx w a = .ok w') (hw : Orderly w) : Orderly w' := by
  cases a with
  | submit id msgs expedited =>
    obtain ⟨hnew, rfl⟩ := submit_ok h
    refine ⟨fun j hj => ?_, hw.markers⟩
    have hid : w.gov.isQueuedForPruning id = false := by
      rw [Bool.eq_false_iff]
      intro hq
      obtain ⟨p, hp, -⟩ := hw.queued id hq
      cases hnew.symm.trans hp
    exact queued_put hw _ hid hj
  | deposit id activates =>
    obtain ⟨p, hp, hstatus, hproposals, -, hgov⟩ := deposit_ok h
    have hid : w.gov.isQueuedForPruning id = false :=
      hw.not_queued hp fun hended => hstatus.elim hended.1 hended.2
    have hframe : w'.gov.pruneQueue = w.gov.pruneQueue ∧
        w'.gov.countedVotes = w.gov.countedVotes := by
      rcases hgov with hgov | hgov
      · rw [hgov]
        exact ⟨rfl, rfl⟩
      · rw [hgov, freeze_frame]
        exact ⟨rfl, rfl⟩
    constructor
    · intro j hj
      unfold Store.isQueuedForPruning at hj
      rw [hframe.1] at hj
      rw [hproposals]
      exact queued_put hw _ hid hj
    · intro j u
      unfold Store.getCountedVote
      rw [hframe.2]
      exact hw.markers j u
  | vote id voter options =>
    obtain ⟨p, -, -, hproposals, -, hballot⟩ := vote_ok h
    constructor
    · intro j hj
      rw [Store.isQueuedForPruning, recordBallot_queue hballot] at hj
      rw [hproposals]
      exact hw.queued j hj
    · rcases recordBallot_ok hballot with ⟨-, -, hgov⟩ | ⟨-, -, hgov⟩
      · rw [hgov, freeze_frame]
        exact hw.markers
      · rw [hgov]
        refine recordVote_markers (VoteOption.code_ne_marker _) ?_
        rw [freeze_frame]
        exact hw.markers
  | updateParams signer params =>
    obtain ⟨-, -, rfl⟩ := updateParams_ok h
    exact ⟨hw.queued, hw.markers⟩
  | endVoting id outcome =>
    obtain ⟨p, hp, hstatus, hproposals, -, hgov⟩ := endVoting_ok h
    have hid := hw.not_queued hp (not_ended_of_voting hstatus)
    rcases hgov with ⟨-, hgov⟩ | ⟨hended, hgov⟩
    · rw [← hgov] at hid
      refine ⟨fun j hj => ?_, hgov ▸ hw.markers⟩
      rw [hgov] at hid hj
      rw [hproposals]
      exact queued_put hw _ hid hj
    · refine ⟨fun j hj => ?_, hgov ▸ hw.markers⟩
      rw [hgov, enqueue_isQueued] at hj
      rw [hproposals]
      rcases hj with rfl | hj
      · exact ⟨_, OrdMap.get?_put_self _ _ _, Proposal.conclude_ended hended hstatus⟩
      · exact queued_put hw _ hid hj
  | pruneStep budget =>
    cases h
    constructor
    · intro j hj
      refine hw.queued j ?_
      cases pruneStep_pruned w.gov budget j with
      | untouched hsame => exact hsame.queue.symm.trans hj
      | begun hbegun => exact hbegun.queued
      | cleared hq _ => exact hq
    · intro j u hmarker
      cases pruneStep_pruned w.gov budget j with
      | untouched hsame => exact hw.markers j u ((hsame.votes u).symm.trans hmarker)
      | begun hbegun => exact hw.markers j u (hbegun.votes u _ hmarker)
      | cleared _ hcleared => cases (hcleared.votes u).symm.trans hmarker

/-! ## The tally of a proposal that is not queued -/

/-- The aggregates of every proposal that is not being pruned are a recount. -/
def Tallied (w : World) : Prop :=
  ∀ id, w.gov.isQueuedForPruning id = false → Consistent w.gov id

/-- A ballot keeps the tally of every proposal a recount. -/
theorem recordBallot_consistent (h : recordBallot ctx id p voter options s = .ok s')
    (hc : Consistent s j) :
    Consistent s' j := by
  rcases recordBallot_ok h with ⟨-, -, rfl⟩ | ⟨-, -, rfl⟩
  · exact freeze_consistent hc
  · by_cases hj : id = j
    · subst hj
      exact recordVote_consistent (VoteOption.code_ne_marker _) (freeze_consistent hc)
    · exact (recordVote_other true hj).consistent (freeze_consistent hc)

/-- The step deletes no record of the proposal: the pruner reads the queue only. -/
def spares (id : Nat) (w : World) : Action → Bool
  | .pruneStep _ => !w.gov.isQueuedForPruning id
  | _ => true

theorem pruneStep_spared (h : s.isQueuedForPruning id = false)
    (budget : Int) : Untouched s (s.pruneStep budget).2 id := by
  cases pruneStep_pruned s budget id with
  | untouched hsame => exact hsame
  | begun hbegun => cases h.symm.trans hbegun.queued
  | cleared hq _ => cases h.symm.trans hq

/-- What an action does to the records of the tallies. -/
inductive TallyStep (ctx : VoteCtx) (w : World) : Action → Store → Prop where
  | kept {a : Action} {s' : Store} (same : ∀ j, SameRecords w.gov s' j)
      (queue : ∀ j, w.gov.isQueuedForPruning j = true → s'.isQueuedForPruning j = true) :
      TallyStep ctx w a s'
  | frozen {id : Nat} {activates : Bool} {s' : Store} (p : Proposal)
      (froze : s' = (freezeEligibilityOnce ctx id p w.gov).2) :
      TallyStep ctx w (.deposit id activates) s'
  | ballot {id : Nat} {p : Proposal} {voter : Bytes} {options : List WeightedVoteOption}
      {s' : Store} (found : w.proposals.get? id = some p)
      (recorded : recordBallot ctx id p voter options w.gov = .ok s') :
      TallyStep ctx w (.vote id voter options) s'
  | pruned {budget : Int} {s' : Store} (pruned : s' = (w.gov.pruneStep budget).2) :
      TallyStep ctx w (.pruneStep budget) s'

theorem tallyStep_of_apply (h : apply authority ctx w a = .ok w') : TallyStep ctx w a w'.gov := by
  cases a with
  | submit id msgs expedited =>
    obtain ⟨-, rfl⟩ := submit_ok h
    exact .kept (SameRecords.refl w.gov) fun _ hj => hj
  | deposit id activates =>
    obtain ⟨p, -, -, -, -, hgov | hgov⟩ := deposit_ok h
    · rw [hgov]
      exact .kept (SameRecords.refl w.gov) fun _ hj => hj
    · exact .frozen _ hgov
  | vote id voter options =>
    obtain ⟨p, hp, -, -, -, hballot⟩ := vote_ok h
    exact .ballot hp hballot
  | updateParams signer params =>
    obtain ⟨-, -, rfl⟩ := updateParams_ok h
    exact .kept (params_same w.gov params) fun _ hj => hj
  | endVoting id outcome =>
    obtain ⟨p, -, -, -, -, ⟨-, hgov⟩ | ⟨-, hgov⟩⟩ := endVoting_ok h
    · rw [hgov]
      exact .kept (SameRecords.refl w.gov) fun _ hj => hj
    · rw [hgov]
      exact .kept (enqueue_same w.gov id) fun _ hj => enqueue_isQueued.2 (Or.inr hj)
  | pruneStep budget =>
    cases h
    exact .pruned rfl

/-- Whatever deletes nothing of a proposal keeps its tally a recount. -/
theorem apply_consistent (h : apply authority ctx w a = .ok w') (hspares : spares j w a = true)
    (hc : Consistent w.gov j) : Consistent w'.gov j := by
  cases tallyStep_of_apply h with
  | kept same _ => exact (same j).consistent hc
  | frozen p froze =>
    rw [froze]
    exact freeze_consistent hc
  | ballot _ recorded => exact recordBallot_consistent recorded hc
  | @pruned budget _ pruned =>
    have hqueue : w.gov.isQueuedForPruning j = false := Bool.not_eq_true' _ ▸ hspares
    rw [pruned]
    exact (pruneStep_spared hqueue budget).toSameRecords.consistent hc

/-- A queued proposal stays queued until nothing is left of it. -/
theorem apply_queued (h : apply authority ctx w a = .ok w')
    (hj : w.gov.isQueuedForPruning j = true) :
    w'.gov.isQueuedForPruning j = true ∨ Cleared w'.gov j := by
  cases tallyStep_of_apply h with
  | kept _ queue => exact Or.inl (queue j hj)
  | frozen p froze =>
    rw [froze, freeze_frame]
    exact Or.inl hj
  | ballot _ recorded =>
    left
    rw [Store.isQueuedForPruning, recordBallot_queue recorded]
    exact hj
  | @pruned budget _ pruned =>
    rw [pruned]
    cases pruneStep_pruned w.gov budget j with
    | untouched hsame => exact Or.inl (hsame.queue.trans hj)
    | begun hbegun => exact Or.inl hbegun.still
    | cleared _ hcleared => exact Or.inr hcleared

theorem apply_tallied (h : apply authority ctx w a = .ok w') (hw : Tallied w) : Tallied w' := by
  intro j hj
  cases hbefore : w.gov.isQueuedForPruning j with
  | true =>
    -- it has left the queue, so everything about it is gone
    rcases apply_queued h hbefore with hstill | hcleared
    · cases hj.symm.trans hstill
    · exact hcleared.consistent
  | false =>
    refine apply_consistent h ?_ (hw j hbefore)
    cases a with
    | pruneStep budget => exact (Bool.not_eq_true' _).symm ▸ hbefore
    | _ => rfl

/-- A store without tally state. -/
structure Store.Empty (s : Store) : Prop where
  counts : s.tallyCounts = ∅
  turnout : s.tallyTurnout = ∅
  votes : s.countedVotes = ∅
  basis : s.eligibility = ∅
  queue : s.pruneQueue = ∅

theorem Store.Empty.cleared (h : s.Empty) (id : Nat) : Cleared s id where
  counts _ := by rw [h.counts]; rfl
  turnout := by rw [h.turnout]; rfl
  votes _ := by rw [h.votes]; rfl
  basis := by rw [h.basis]; rfl
  queue := by
    unfold Store.isQueuedForPruning
    rw [h.queue]
    rfl

theorem Store.Empty.orderly (h : w.gov.Empty) : Orderly w where
  queued id hq := by
    cases (h.cleared id).queue.symm.trans hq
  markers id v hv := by
    cases ((h.cleared id).votes v).symm.trans hv

end PhiChain.Governance
