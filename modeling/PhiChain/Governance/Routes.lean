import PhiChain.Governance.Steps

/-!
# The route a ballot was admitted under

The vote hook decides by the route of the moment who may vote and whether the ballot is
folded into the running tally; the tally function decides again, from the table in
force then, which ballots it reads. `Traced` remembers beside the world how each voter's
last ballot was admitted. `ballot_taken_into_account` says that the tally reads every
admitted ballot when no change of the table moves a proposal with votes to the other
route; `ballot_left_out` is a run where a change does and the ballot is not counted.
-/

set_option autoImplicit false

namespace PhiChain.Governance

open Foundations Sdk

/-- How a ballot was admitted. -/
structure Admission where
  route : VoteRoute
  options : List WeightedVoteOption

/-- The world with the last admitted ballot of every voter. -/
structure Traced where
  world : World
  admitted : OrdMap CountedVoteKey Admission

/-- A ballot is remembered with the route of the state it is cast in. -/
def admissions (w : World) (m : OrdMap CountedVoteKey Admission) : Action →
    OrdMap CountedVoteKey Admission
  | .vote id voter options =>
    match w.proposals.get? id with
    | some p => m.put ⟨id, voter⟩ ⟨routeOf w.gov p, options⟩
    | none => m
  | _ => m

def Traced.step (authority : Bytes) (t : Traced) (a : VoteCtx × Action) : Traced :=
  commit t do
    let w ← apply authority a.1 t.world a.2
    return ⟨w, admissions t.world t.admitted a.2⟩

/-- The memory does not influence the world. -/
theorem Traced.step_world (authority : Bytes) (t : Traced) (a : VoteCtx × Action) :
    (t.step authority a).world = Governance.step authority t.world a := by
  unfold Traced.step Governance.step
  cases apply authority a.1 t.world a.2 with
  | error e => rfl
  | ok w => rfl

/-- A new table leaves the route of every open proposal that has votes. -/
def keepsRoutes (w : World) (a : VoteCtx × Action) : Bool :=
  match a.2 with
  | .updateParams _ params =>
    w.votes.entries.all fun e =>
      match w.proposals.get? e.1.proposal with
      | none => true
      | some p =>
        p.status ≠ .votingPeriod ∨ routeOf { w.gov with params := params } p = routeOf w.gov p
  | _ => true

/-- The tally of the moment would read the ballot: its route is the one the ballot was
admitted under, x/gov holds it, and on the public route it is the voter's counted vote. -/
structure ReadNow (w : World) (id : Nat) (voter : Bytes) (p : Proposal) (adm : Admission) :
    Prop where
  route : adm.route = routeOf w.gov p
  vote : w.votes.get? ⟨id, voter⟩ = some adm.options
  counted : adm.route ≠ .routeTechnical →
    w.gov.getCountedVote id voter = some (dominantOption adm.options).code

/-- Every admitted ballot on an open proposal would be read now. -/
structure Honoured (t : Traced) : Prop where
  cast : ∀ id voter adm, t.admitted.get? ⟨id, voter⟩ = some adm →
    ∃ p, t.world.proposals.get? id = some p ∧ p.status ≠ .depositPeriod
  read : ∀ id voter adm p, t.admitted.get? ⟨id, voter⟩ = some adm →
    t.world.proposals.get? id = some p → p.status = .votingPeriod →
      ReadNow t.world id voter p adm

variable {p p' : Proposal} {s s' : Store} {w w' : World} {id : Nat} {t : Traced} {ctx : VoteCtx}
  {options : List WeightedVoteOption} {voter : Bytes}

theorem routeOf_congr (hs : s'.params = s.params)
    (hp : p'.msgs = p.msgs) : routeOf s' p' = routeOf s p := by
  unfold routeOf
  rw [hs, hp]

/-- What a step may do to a proposal that has left its deposit period: it stays there, and
if it is open afterwards it was open with the same messages. -/
def Continues (w w' : World) : Prop :=
  ∀ id p, w.proposals.get? id = some p → p.status ≠ .depositPeriod →
    ∃ p', w'.proposals.get? id = some p' ∧ p'.status ≠ .depositPeriod ∧
      (p'.status = .votingPeriod → p.status = .votingPeriod ∧ p'.msgs = p.msgs)

theorem Continues.refl_of_eq (h : w'.proposals = w.proposals) : Continues w w' := by
  intro id p hp hstatus
  exact ⟨p, h ▸ hp, hstatus, fun hopen => ⟨hopen, rfl⟩⟩

/-- A changed proposal continues when the change is one that may happen to it. -/
theorem Continues.of_put (hp : w.proposals.get? id = some p)
    (hput : w'.proposals = w.proposals.put id p')
    (h : p.status ≠ .depositPeriod → p'.status ≠ .depositPeriod ∧
      (p'.status = .votingPeriod → p.status = .votingPeriod ∧ p'.msgs = p.msgs)) :
    Continues w w' := by
  intro j q hq hstatus
  rw [hput]
  by_cases hj : id = j
  · subst hj
    obtain rfl : q = p := Option.some.inj (hq.symm.trans hp)
    exact ⟨p', OrdMap.get?_put_self _ _ _, h hstatus⟩
  · refine ⟨q, (OrdMap.get?_put_ne _ _ hj).trans hq, hstatus, fun hopen => ⟨hopen, rfl⟩⟩

/-- A step that admits no ballot keeps the ballots honoured when it leaves the table, the
votes and the counted votes of open proposals. -/
theorem Honoured.of_frame (ht : Honoured t) (hcontinues : Continues t.world w')
    (hvotes : w'.votes = t.world.votes) (hparams : w'.gov.params = t.world.gov.params)
    (hcounted : ∀ id p v, t.world.proposals.get? id = some p → p.status = .votingPeriod →
      w'.gov.getCountedVote id v = t.world.gov.getCountedVote id v) :
    Honoured ⟨w', t.admitted⟩ where
  cast id voter adm hadm := by
    obtain ⟨p, hp, hstatus⟩ := ht.cast id voter adm hadm
    obtain ⟨p', hp', hstatus', -⟩ := hcontinues id p hp hstatus
    exact ⟨p', hp', hstatus'⟩
  read id voter adm q hadm hq hopen := by
    obtain ⟨p, hp, hstatus⟩ := ht.cast id voter adm hadm
    obtain ⟨p', hp', -, hback⟩ := hcontinues id p hp hstatus
    obtain rfl : p' = q := Option.some.inj (hp'.symm.trans hq)
    obtain ⟨hopen', hmsgs⟩ := hback hopen
    have hread := ht.read id voter adm p hadm hp hopen'
    constructor
    · exact hread.route.trans (routeOf_congr hparams hmsgs).symm
    · exact (congrArg (fun m => m.get? ⟨id, voter⟩) hvotes).trans hread.vote
    · intro hroute
      exact (hcounted id p voter hp hopen').trans (hread.counted hroute)

theorem Proposal.activate_of_voting {activates : Bool} {now : Int}
    (h : p.status ≠ .depositPeriod) : p.activate activates now = p := by
  unfold Proposal.activate
  rw [if_neg fun hand => h hand.2]

theorem Proposal.conclude_msgs (p : Proposal) (outcome : Outcome) :
    (p.conclude outcome).msgs = p.msgs := by
  cases outcome with
  | passed => rfl
  | failed => rfl
  | refused =>
    by_cases hexp : p.expedited = true
    · simp [Proposal.conclude, hexp]
    · simp [Proposal.conclude, hexp]

theorem Proposal.conclude_status (p : Proposal) (outcome : Outcome) (h : p.status = .votingPeriod) :
    (p.conclude outcome).status ≠ .depositPeriod := by
  by_cases hopen : (p.conclude outcome).status = .votingPeriod
  · rw [hopen]
    exact nofun
  · exact (Proposal.conclude_ended hopen h).1

/-- A ballot changes no other voter's counted vote and not the table. -/
theorem recordBallot_frame (h : recordBallot ctx id p voter options s = .ok s') :
    s'.params = s.params ∧ ∀ j u, (⟨id, voter⟩ : CountedVoteKey) ≠ ⟨j, u⟩ →
      s'.getCountedVote j u = s.getCountedVote j u := by
  rcases recordBallot_ok h with ⟨-, -, rfl⟩ | ⟨-, -, rfl⟩
  · rw [freeze_frame]
    exact ⟨rfl, fun _ _ _ => rfl⟩
  · refine ⟨?_, fun j u hne => ?_⟩
    · rw [(recordVote_frame true).2.2, freeze_frame]
    · have hsame : (freezeEligibilityOnce ctx id p s).2.getCountedVote j u =
          s.getCountedVote j u := by
        rw [freeze_frame]
        rfl
      rw [← hsame]
      by_cases hj : id = j
      · subst hj
        exact recordVote_getCountedVote_ne true fun heq => hne (heq ▸ rfl)
      · exact (recordVote_other true hj).votes u

theorem recordBallot_counted (h : recordBallot ctx id p voter options s = .ok s')
    (hmarker : s.getCountedVote id voter ≠ some ineligibleVoteMarker)
    (hroute : routeOf s p ≠ .routeTechnical) :
    s'.getCountedVote id voter = some (dominantOption options).code := by
  rcases recordBallot_ok h with ⟨htech, -, -⟩ | ⟨-, -, rfl⟩
  · exact absurd htech hroute
  · refine recordVote_getCountedVote ?_
    rw [freeze_frame]
    exact hmarker

/-- The ballot just admitted would be read now, and so would the earlier ones. -/
theorem vote_honoured (ht : Honoured t) (horder : Orderly t.world)
    (h : vote ctx id voter options t.world = .ok w') :
    Honoured ⟨w', admissions t.world t.admitted (.vote id voter options)⟩ := by
  obtain ⟨p, hp, hopen, hproposals, hvotes, hballot⟩ := vote_ok h
  obtain ⟨hparams, hothers⟩ := recordBallot_frame hballot
  have hnew : admissions t.world t.admitted (.vote id voter options) =
      t.admitted.put ⟨id, voter⟩ ⟨routeOf t.world.gov p, options⟩ := by
    simp only [admissions, hp]
  rw [hnew]
  constructor
  · intro j u adm hadm
    rw [OrdMap.get?_put] at hadm
    split at hadm
    · rename_i hkey
      cases hkey
      exact ⟨p, hproposals ▸ hp, hopen ▸ nofun⟩
    · obtain ⟨q, hq, hstatus⟩ := ht.cast j u adm hadm
      exact ⟨q, hproposals ▸ hq, hstatus⟩
  · intro j u adm q hadm hq hqopen
    have hq' : t.world.proposals.get? j = some q := hproposals ▸ hq
    rw [OrdMap.get?_put] at hadm
    split at hadm
    · rename_i hkey
      cases hkey
      cases hadm
      obtain rfl : q = p := Option.some.inj (hq'.symm.trans hp)
      refine ⟨(routeOf_congr hparams rfl).symm, ?_, fun hroute => ?_⟩
      · rw [hvotes]
        exact OrdMap.get?_put_self _ _ _
      · exact recordBallot_counted hballot (horder.markers id voter) hroute
    · rename_i hkey
      have hread := ht.read j u adm q hadm hq' hqopen
      refine ⟨hread.route.trans (routeOf_congr hparams rfl).symm, ?_, fun hroute => ?_⟩
      · rw [hvotes]
        exact (OrdMap.get?_put_ne _ _ hkey).trans hread.vote
      · exact (hothers j u hkey).trans (hread.counted hroute)

/-- A new table that moves no open proposal with votes keeps the ballots honoured. -/
theorem updateParams_honoured {signer : Bytes} {params : Params} (ht : Honoured t)
    (hkeeps : keepsRoutes t.world (ctx, .updateParams signer params) = true) :
    Honoured ⟨{ t.world with gov := { t.world.gov with params := params } }, t.admitted⟩ := by
  refine ⟨ht.cast, fun id voter adm p hadm hp hopen => ?_⟩
  have hread := ht.read id voter adm p hadm hp hopen
  refine ⟨hread.route.trans ?_, hread.vote, hread.counted⟩
  have hentry := List.all_eq_true.1 hkeeps _ (OrdMap.mem_entries.2 hread.vote)
  dsimp only at hentry
  rw [hp] at hentry
  exact ((of_decide_eq_true hentry).resolve_left (not_not.2 hopen)).symm

theorem apply_honoured {authority : Bytes} {a : Action} (h : apply authority ctx t.world a = .ok w')
    (hkeeps : keepsRoutes t.world (ctx, a) = true) (horder : Orderly t.world)
    (ht : Honoured t) : Honoured ⟨w', admissions t.world t.admitted a⟩ := by
  cases a with
  | submit id msgs expedited =>
    obtain ⟨hnew, rfl⟩ := submit_ok h
    refine ht.of_frame (fun j p hp hstatus => ?_) rfl rfl fun _ _ _ _ _ => rfl
    have hne : id ≠ j := fun heq => by
      rw [heq, hp] at hnew
      cases hnew
    exact ⟨p, (OrdMap.get?_put_ne _ _ hne).trans hp, hstatus, fun hopen => ⟨hopen, rfl⟩⟩
  | deposit id activates =>
    obtain ⟨p, hp, -, hproposals, hvotes, hgov⟩ := deposit_ok h
    have hframe : w'.gov.params = t.world.gov.params ∧
        w'.gov.countedVotes = t.world.gov.countedVotes := by
      rcases hgov with hgov | hgov
      · rw [hgov]
        exact ⟨rfl, rfl⟩
      · rw [hgov, freeze_frame]
        exact ⟨rfl, rfl⟩
    refine ht.of_frame (Continues.of_put hp hproposals fun hstatus => ?_) hvotes hframe.1 ?_
    · rw [Proposal.activate_of_voting hstatus]
      exact ⟨hstatus, fun hopen => ⟨hopen, rfl⟩⟩
    · intro j _ v _ _
      unfold Store.getCountedVote
      rw [hframe.2]
  | vote id voter options => exact vote_honoured ht horder h
  | updateParams signer params =>
    obtain ⟨-, -, rfl⟩ := updateParams_ok h
    exact updateParams_honoured ht hkeeps
  | endVoting id outcome =>
    obtain ⟨p, hp, hopen, hproposals, hvotes, hgov⟩ := endVoting_ok h
    have hcontinues : Continues t.world w' := Continues.of_put hp hproposals fun _ =>
      ⟨p.conclude_status outcome hopen, fun _ => ⟨hopen, p.conclude_msgs outcome⟩⟩
    rcases hgov with ⟨-, hgov⟩ | ⟨-, hgov⟩
    · exact ht.of_frame hcontinues hvotes (hgov ▸ rfl) fun _ _ _ _ _ => hgov ▸ rfl
    · exact ht.of_frame hcontinues hvotes (hgov ▸ rfl) fun _ _ _ _ _ => hgov ▸ rfl
  | pruneStep budget =>
    cases h
    refine ht.of_frame (Continues.refl_of_eq rfl) rfl (pruneStep_params _ _) ?_
    intro j p v hp hopen
    have hqueue := horder.not_queued hp (not_ended_of_voting hopen)
    cases pruneStep_pruned t.world.gov budget j with
    | untouched hsame => exact hsame.votes v
    | begun hbegun => cases hqueue.symm.trans hbegun.queued
    | cleared hq _ => cases hqueue.symm.trans hq

/-- In every state of a run whose accepted table changes keep the routes, each admitted ballot would
be read by the tally. -/
theorem honoured_of_run (authority : Bytes) (hw : w.gov.Empty) {as : List (VoteCtx × Action)}
    (hrun : Along (Traced.step authority) (fun t a =>
      isOk (apply authority a.1 t.world a.2) = true → keepsRoutes t.world a = true) ⟨w, ∅⟩ as) :
    Orderly (run (Traced.step authority) ⟨w, ∅⟩ as).world ∧
      Tallied (run (Traced.step authority) ⟨w, ∅⟩ as).world ∧
      Honoured (run (Traced.step authority) ⟨w, ∅⟩ as) := by
  have hstep : ∀ (t : Traced) (a : VoteCtx × Action),
      (isOk (apply authority a.1 t.world a.2) = true → keepsRoutes t.world a = true) →
      (Orderly t.world ∧ Tallied t.world ∧ Honoured t) →
        Orderly (t.step authority a).world ∧ Tallied (t.step authority a).world ∧
          Honoured (t.step authority a) := by
    intro t a hok hinv
    refine commit_preserves
      (p := fun t : Traced => Orderly t.world ∧ Tallied t.world ∧ Honoured t) hinv fun t' h => ?_
    obtain ⟨w', hw', h⟩ := bind_eq_ok.1 h
    cases h
    exact ⟨apply_orderly hw' hinv.1, apply_tallied hw' hinv.2.1,
      apply_honoured hw' (hok (isOk_iff.2 ⟨w', hw'⟩)) hinv.1 hinv.2.2⟩
  have hstart : Honoured ⟨w, ∅⟩ := ⟨nofun, nofun⟩
  exact @run_preserves _ _ _ _
    (fun t : Traced => Orderly t.world ∧ Tallied t.world ∧ Honoured t) hstep _
    ⟨hw.orderly, fun id _ => (hw.cleared id).consistent, hstart⟩ _ hrun

/-! ## What the tally reads -/

/-- The tally follows the route of the moment: the validators' votes, or the running tally. -/
theorem phiTally_ok {r : TallyResult × Store} (h : phiTally ctx id p w = .ok r) :
    (routeOf w.gov p = .routeTechnical ∧ tallyTechnicalLive ctx id w = .ok r.1) ∨
      (routeOf w.gov p = .routePublic ∧ r.1 = tallyPublicLive ctx id r.2) := by
  have hstore := phiTally_store h
  simp only [phiTally, bind_eq_ok, orFail_eq_ok] at h
  obtain ⟨msgs, hmsgs, h⟩ := h
  rw [← hstore] at h
  have hparams : r.2.params = w.gov.params := by
    rw [hstore]
    split
    · rfl
    · rfl
  have hroute : routeOf w.gov p = classify msgs w.gov.params.routeTable := by
    unfold routeOf
    rw [hmsgs]
  rw [hroute]
  rw [hparams] at h
  split at h
  · rename_i htech
    simp only [bind_eq_ok, pure_eq_ok] at h
    obtain ⟨t, ht, hr⟩ := h
    exact Or.inl ⟨htech, hr ▸ ht⟩
  · rename_i htech
    have hr := congrArg Prod.fst (pure_eq_ok.1 h)
    refine Or.inr ⟨?_, hr.symm⟩
    unfold classify at htech ⊢
    split
    · rfl
    · rename_i hany
      split
      · rfl
      · rename_i hlen
        rw [if_neg hany, if_neg hlen] at htech
        exact absurd rfl htech

/-- No admitted ballot is left out. In every run from an empty store whose accepted table changes
keep the route of each open proposal with votes, the tally of an open proposal uses the
route under which a voter's last ballot was admitted. On the technical route it reads the
ballot of every validator that is still bonded; on the public route the ballot is the
voter's counted vote, and the count of its option is the number of such voters. -/
theorem ballot_taken_into_account (authority : Bytes) {w : World} (hw : w.gov.Empty)
    {as : List (VoteCtx × Action)}
    (hrun : Along (Traced.step authority) (fun t a =>
      isOk (apply authority a.1 t.world a.2) = true → keepsRoutes t.world a = true) ⟨w, ∅⟩ as)
    {id : Nat} {voter : Bytes} {adm : Admission} {p : Proposal} {ctx : VoteCtx}
    {r : TallyResult × Store}
    (hadm : (run (Traced.step authority) ⟨w, ∅⟩ as).admitted.get? ⟨id, voter⟩ = some adm)
    (hp : (run (Traced.step authority) ⟨w, ∅⟩ as).world.proposals.get? id = some p)
    (hopen : p.status = .votingPeriod)
    (htally : phiTally ctx id p (run (Traced.step authority) ⟨w, ∅⟩ as).world = .ok r) :
    (adm.route = .routeTechnical ∧
        tallyTechnicalLive ctx id (run (Traced.step authority) ⟨w, ∅⟩ as).world = .ok r.1 ∧
        ∀ operator info, ctx.validators.get? operator = some info → info.address = voter →
          ⟨info.bondedTokens, adm.options⟩ ∈
            validatorBallots ctx id (run (Traced.step authority) ⟨w, ∅⟩ as).world) ∨
      (adm.route = .routePublic ∧ r.1 = tallyPublicLive ctx id r.2 ∧
        r.2.getCountedVote id voter = some (dominantOption adm.options).code ∧
        r.2.optionCount id (dominantOption adm.options).code =
          r.2.recount id (dominantOption adm.options).code) := by
  obtain ⟨horder, htallied, hhonoured⟩ := honoured_of_run authority hw hrun
  have hread := hhonoured.read id voter adm p hadm hp hopen
  rcases phiTally_ok htally with ⟨hroute, htech⟩ | ⟨hroute, hpublic⟩
  · refine Or.inl ⟨hread.route.trans hroute, htech, fun operator info hinfo haddress => ?_⟩
    refine List.mem_filterMap.2 ⟨(operator, info), OrdMap.mem_entries.2 hinfo, ?_⟩
    dsimp only
    rw [haddress, hread.vote]
    rfl
  · have hadmitted : adm.route = .routePublic := hread.route.trans hroute
    have hcounted := hread.counted (hadmitted ▸ nofun)
    have hconsistent := htallied id (horder.not_queued hp (not_ended_of_voting hopen))
    have hoptions := hconsistent.options _ (VoteOption.code_ne_marker (dominantOption adm.options))
    refine Or.inr ⟨hadmitted, hpublic, ?_⟩
    -- queueing for deletion leaves the records as they are
    rw [phiTally_store htally]
    split
    · exact ⟨hcounted, hoptions⟩
    · exact ⟨hcounted, hoptions⟩

/-! ## A software upgrade -/

def upgradeURL : Bytes := ascii "/cosmos.upgrade.v1beta1.MsgSoftwareUpgrade"

/-- Account 1 operates the only validator, and nobody holds an identity. -/
def validatorCtx (now : Int) : VoteCtx where
  blockTime := now
  identity := ⟨fun _ _ _ _ => false, fun _ _ => 0, 0, 0⟩
  isActiveValidatorOperator a := a = [1]
  validators := (∅ : OrdMap Bytes ValidatorGovInfo).put [1] ⟨[1], 5⟩

/-- Only software upgrades are technical. -/
def upgradeWorld : World := ⟨∅, ∅, { Store.fresh with params := ⟨[⟨upgradeURL, .routeTechnical⟩]⟩ }⟩

theorem upgradeWorld_empty : upgradeWorld.gov.Empty := ⟨rfl, rfl, rfl, rfl, rfl⟩

/-- The validator's ballot on an upgrade is admitted, then the table is replaced. -/
def upgradeRun (table : List VoteRouteEntry) : List (VoteCtx × Action) :=
  [(validatorCtx 100, .submit 1 (some [upgradeURL]) false),
    (validatorCtx 100, .deposit 1 true),
    (validatorCtx 101, .vote 1 [1] [⟨.yes, some 1000000000000000000⟩]),
    (validatorCtx 102, .updateParams [] ⟨table⟩)]

/-- The power a tally reports for a proposal, when it is open and the tally succeeds. -/
def talliedPower (ctx : VoteCtx) (id : Nat) (w : World) : Option Int :=
  match w.proposals.get? id with
  | some p =>
    if p.status = .votingPeriod then
      match phiTally ctx id p w with
      | .ok r => some r.1.totalPower
      | .error _ => none
    else none
  | none => none

theorem talliedPower_some {x : Int} (h : talliedPower ctx id w = some x) :
    ∃ p r, w.proposals.get? id = some p ∧ p.status = .votingPeriod ∧
      phiTally ctx id p w = .ok r ∧ r.1.totalPower = x := by
  unfold talliedPower at h
  split at h
  · rename_i p hp
    split at h
    · rename_i hopen
      split at h
      · rename_i r hr
        exact ⟨p, r, hp, hopen, hr, Option.some.inj h⟩
      · cases h
    · cases h
  · cases h

/-- A new table that keeps upgrades technical: the tally reads the validator's ballot. -/
theorem ballot_taken_into_account_upgrade :
    let table := [⟨upgradeURL, .routeTechnical⟩, ⟨ascii "/a", .routeTechnical⟩]
    let t := run (Traced.step []) ⟨upgradeWorld, ∅⟩ (upgradeRun table)
    ∃ p r, t.world.proposals.get? 1 = some p ∧
      phiTally (validatorCtx 200) 1 p t.world = .ok r ∧
      r.1.totalPower = 5000000000000000000 ∧
      tallyTechnicalLive (validatorCtx 200) 1 t.world = .ok r.1 := by
  intro table t
  have hrun : Along (Traced.step []) (fun t a =>
      isOk (apply [] a.1 t.world a.2) = true → keepsRoutes t.world a = true) ⟨upgradeWorld, ∅⟩
      (upgradeRun table) :=
    ⟨fun _ => by decide +kernel, fun _ => by decide +kernel, fun _ => by decide +kernel,
      fun _ => by decide +kernel, trivial⟩
  have hpower : talliedPower (validatorCtx 200) 1 t.world = some 5000000000000000000 := by
    decide +kernel
  have hroute : (t.admitted.get? ⟨1, [1]⟩).map Admission.route = some .routeTechnical := by
    decide +kernel
  obtain ⟨p, r, hp, hopen, hr, hx⟩ := talliedPower_some hpower
  obtain ⟨adm, hadm, htech⟩ := Option.map_eq_some_iff.1 hroute
  refine ⟨p, r, hp, hr, hx, ?_⟩
  rcases ballot_taken_into_account [] upgradeWorld_empty hrun hadm hp hopen hr with h | h
  · exact h.2.1
  · cases htech.symm.trans h.1

/-- The table is emptied after the validator's ballot was admitted on the technical route:
the tally takes the public route and counts nothing. -/
theorem ballot_left_out :
    let t := run (Traced.step []) ⟨upgradeWorld, ∅⟩ (upgradeRun [])
    (t.admitted.get? ⟨1, [1]⟩).map Admission.route = some .routeTechnical ∧
      (t.world.proposals.get? 1).map (routeOf t.world.gov) = some .routePublic ∧
      (t.world.gov.getCountedVote 1 [1]) = none ∧
      talliedPower (validatorCtx 200) 1 t.world = some 0 ∧
      talliedPower (validatorCtx 200) 1
        (run (Traced.step []) ⟨upgradeWorld, ∅⟩ ((upgradeRun []).take 3)).world =
          some 5000000000000000000 := by
  decide +kernel

end PhiChain.Governance
