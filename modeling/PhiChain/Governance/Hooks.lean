import PhiChain.Governance.Store
import PhiChain.Sdk.Bech32
import PhiChain.Sdk.Dec

/-!
# Governance: hooks, tally and the proposal lifecycle

x/gov calls the hooks when a deposit opens the voting of a proposal, when a vote is
cast and when the voting ends, and it calls the tally function to decide a proposal.
`step` interleaves these calls with changes of the route table and with the pruner of
the block's end.

The answers of the identity and staking keepers belong to the context of a step:
nothing is assumed about how they change between steps.
-/

set_option autoImplicit false

namespace PhiChain.Governance

open Foundations Sdk

/-- Answers of the identity keeper; times and ages are in seconds. -/
structure IdentitySource where
  isEligibleControllerSince : (controller : Bytes) → (t minAge since : Int) → Bool
  countEligibleControllersAt : (t minAge : Int) → Nat
  eligibleControllerTotal : Nat
  minIdentityAge : Int

/-- A bonded validator as x/gov hands it to the tally. -/
structure ValidatorGovInfo where
  address : Bytes
  bondedTokens : Int

/-- Context of one step. -/
structure VoteCtx where
  blockTime : Int
  identity : IdentitySource
  isActiveValidatorOperator : Bytes → Bool
  validators : OrdMap Bytes ValidatorGovInfo

/-- Proposals and votes of x/gov, and the store of x/governance. -/
structure World where
  proposals : OrdMap Nat Proposal
  votes : OrdMap CountedVoteKey (List WeightedVoteOption)
  gov : Store

/-! ## Hooks -/

/-- The basis a proposal gets when it is frozen now. -/
def takeBasis (ctx : VoteCtx) (proposal : Proposal) : FrozenEligibility :=
  let cutoff :=
    match proposal.votingStart with
    | none => 0
    | some votingStart => votingStart - ctx.identity.minIdentityAge
  { denominator := ctx.identity.countEligibleControllersAt cutoff 0
    cutoff := cutoff
    frozenAt := ctx.blockTime }

/-- The frozen basis of a proposal, taken now if there is none yet. -/
def freezeEligibilityOnce (ctx : VoteCtx) (id : Nat) (proposal : Proposal) (s : Store) :
    FrozenEligibility × Store :=
  match s.eligibility.get? id with
  | some basis => (basis, s)
  | none =>
    let basis := takeBasis ctx proposal
    (basis, { s with eligibility := s.eligibility.put id basis })

/-- Route of a proposal; messages that cannot be unpacked make it public. -/
def routeOf (s : Store) (proposal : Proposal) : VoteRoute :=
  match proposal.msgs with
  | none => .routePublic
  | some msgs => classify msgs s.params.routeTable

def recordBallot (ctx : VoteCtx) (id : Nat) (proposal : Proposal) (voterAddr : Bytes)
    (options : List WeightedVoteOption) (s : Store) : Result Store := do
  let frozen := freezeEligibilityOnce ctx id proposal s
  if routeOf frozen.2 proposal = .routeTechnical then
    ensure (ctx.isActiveValidatorOperator voterAddr = true)
      ⟨.notEligibleToVote, "is not an active validator"⟩
    return frozen.2
  else
    ensure (ctx.identity.isEligibleControllerSince (accAddressString voterAddr) frozen.1.cutoff 0
      frozen.1.frozenAt = true) ⟨.notEligibleToVote, "cutoff, frozen at"⟩
    return (frozen.2.recordVote id voterAddr (dominantOption options).code true).2

def afterProposalDeposit (ctx : VoteCtx) (id : Nat) (w : World) : Store :=
  match w.proposals.get? id with
  | none => w.gov
  | some proposal =>
    if proposal.status = .votingPeriod then (freezeEligibilityOnce ctx id proposal w.gov).2
    else w.gov

def afterProposalVote (ctx : VoteCtx) (id : Nat) (voterAddr : Bytes) (w : World) :
    Result Store :=
  match w.proposals.get? id, w.votes.get? ⟨id, voterAddr⟩ with
  | some proposal, some options => recordBallot ctx id proposal voterAddr options w.gov
  | _, _ => .ok w.gov

def afterProposalVotingPeriodEnded (id : Nat) (w : World) : Store :=
  match w.proposals.get? id with
  | none => w.gov
  | some proposal =>
    if proposal.status ≠ .votingPeriod then w.gov.enqueueForPruning id else w.gov

/-! ## Tally -/

/-- Power that voted, and the power behind each option. -/
structure TallyResult where
  totalPower : Int
  results : OrdMap Byte Int

def emptyResults : OrdMap Byte Int :=
  [VoteOption.yes, .abstain, .no, .noWithVeto].foldl (fun m o => m.put o.code 0) ∅

def sumBonded (validators : OrdMap Bytes ValidatorGovInfo) : Int :=
  validators.total fun _ v => v.bondedTokens

/-- Heads scaled to stake, so that x/gov's quorum over bonded stake is one over heads. -/
def scalePublicResults (counts : List (Byte × Nat)) (turnout totalEligible : Nat)
    (totalBonded : Int) : TallyResult :=
  if turnout = 0 ∨ totalEligible = 0 ∨ totalBonded = 0 then ⟨0, emptyResults⟩
  else
    let scale := decQuo (decFromInt totalBonded) (decFromInt totalEligible)
    { totalPower := decMul (decFromInt turnout) scale
      results := counts.foldl (fun m c => m.put c.1 (decMul (decFromInt c.2) scale)) emptyResults }

def tallyPublicLive (ctx : VoteCtx) (id : Nat) (s : Store) : TallyResult :=
  let running := s.getRunningTally id
  let totalEligible :=
    match s.eligibility.get? id with
    | some basis => basis.denominator
    | none => ctx.identity.eligibleControllerTotal
  scalePublicResults running.counts running.turnout totalEligible (sumBonded ctx.validators)

/-- Ballot of a validator with its stake. -/
structure ValBallot where
  bonded : Int
  options : List WeightedVoteOption

/-- Add a ballot's options with their weights; a weight that does not parse is an error. -/
def addOptions (power : Int) : List WeightedVoteOption → OrdMap Byte Int → Result (OrdMap Byte Int)
  | [], results => .ok results
  | o :: rest, results => do
    let w ← orFail o.weight ⟨.unregistered, "failed to set decimal string"⟩
    addOptions power rest
      (results.put o.option.code (results.getD o.option.code 0 + decMul power w))

def tallyValidatorBallots : List ValBallot → TallyResult → Result TallyResult
  | [], t => .ok t
  | b :: rest, t => do
    let power := decFromInt b.bonded
    let results ← addOptions power b.options t.results
    tallyValidatorBallots rest ⟨t.totalPower + power, results⟩

/-- Ballots of the validators that voted, by operator. -/
def validatorBallots (ctx : VoteCtx) (id : Nat) (w : World) : List ValBallot :=
  ctx.validators.entries.filterMap fun e =>
    (w.votes.get? ⟨id, e.2.address⟩).map fun options => ⟨e.2.bondedTokens, options⟩

def tallyTechnicalLive (ctx : VoteCtx) (id : Nat) (w : World) : Result TallyResult :=
  tallyValidatorBallots (validatorBallots ctx id w) ⟨0, emptyResults⟩

/-- The vote-counting function x/gov calls. A proposal that is not expedited is decided by
this tally, so its records are queued for deletion. -/
def phiTally (ctx : VoteCtx) (id : Nat) (proposal : Proposal) (w : World) :
    Result (TallyResult × Store) := do
  let msgs ← orFail proposal.msgs ⟨.unregistered, "messages cannot be unpacked"⟩
  let s := if proposal.expedited then w.gov else w.gov.enqueueForPruning id
  if classify msgs s.params.routeTable = .routeTechnical then
    let t ← tallyTechnicalLive ctx id w
    return (t, s)
  else
    return (tallyPublicLive ctx id s, s)

/-! ## Lifecycle -/

/-- x/gov's decision on a tally; the messages of a passed proposal may fail. -/
inductive Outcome where
  | passed
  | failed
  | refused
  deriving DecidableEq

/-- The proposal after its voting period: an expedited one that is refused goes on as a
regular one. -/
def Proposal.conclude (p : Proposal) : Outcome → Proposal
  | .passed => { p with status := .passed }
  | .failed => { p with status := .failed }
  | .refused => if p.expedited then { p with expedited := false } else { p with status := .rejected }

/-- The proposal after a deposit: the one that reaches the minimum opens the voting. -/
def Proposal.activate (p : Proposal) (activates : Bool) (now : Int) : Proposal :=
  if activates ∧ p.status = .depositPeriod then
    { p with status := .votingPeriod, votingStart := some now }
  else p

inductive Action where
  | submit (id : Nat) (msgs : Option (List Bytes)) (expedited : Bool)
  | deposit (id : Nat) (activates : Bool)
  | vote (id : Nat) (voter : Bytes) (options : List WeightedVoteOption)
  | updateParams (signer : Bytes) (params : Params)
  | endVoting (id : Nat) (outcome : Outcome)
  | pruneStep (budget : Int)

/-- Deletions of one block's end. -/
def pruneBudgetPerBlock : Int := 100

def submit (id : Nat) (msgs : Option (List Bytes)) (expedited : Bool) (w : World) :
    Result World := do
  ensure (w.proposals.get? id = none) ⟨.unregistered, "proposal id in use"⟩
  return { w with proposals := w.proposals.put id ⟨msgs, .depositPeriod, none, expedited⟩ }

def deposit (ctx : VoteCtx) (id : Nat) (activates : Bool) (w : World) : Result World := do
  let p ← orFail (w.proposals.get? id) ⟨.unknownProposal, ""⟩
  ensure (p.status = .depositPeriod ∨ p.status = .votingPeriod) ⟨.inactiveProposal, ""⟩
  let w := { w with proposals := w.proposals.put id (p.activate activates ctx.blockTime) }
  return { w with gov := afterProposalDeposit ctx id w }

def vote (ctx : VoteCtx) (id : Nat) (voter : Bytes) (options : List WeightedVoteOption)
    (w : World) : Result World := do
  let p ← orFail (w.proposals.get? id) ⟨.unknownProposal, ""⟩
  ensure (p.status = .votingPeriod) ⟨.inactiveProposal, ""⟩
  let w := { w with votes := w.votes.put ⟨id, voter⟩ options }
  let gov ← afterProposalVote ctx id voter w
  return { w with gov := gov }

def updateParams (authority signer : Bytes) (params : Params) (w : World) : Result World := do
  ensure (signer = authority) ⟨.invalidSigner, "expected, got"⟩
  let gov ← w.gov.setParams params
  return { w with gov := gov }

/-- x/gov's end of a voting period. -/
def endVoting (ctx : VoteCtx) (id : Nat) (outcome : Outcome) (w : World) : Result World := do
  let p ← orFail (w.proposals.get? id) ⟨.unknownProposal, ""⟩
  ensure (p.status = .votingPeriod) ⟨.inactiveProposal, ""⟩
  let tallied ← phiTally ctx id p w
  let w := { w with gov := tallied.2, proposals := w.proposals.put id (p.conclude outcome) }
  return { w with gov := afterProposalVotingPeriodEnded id w }

def apply (authority : Bytes) (ctx : VoteCtx) (w : World) : Action → Result World
  | .submit id msgs expedited => submit id msgs expedited w
  | .deposit id activates => deposit ctx id activates w
  | .vote id voter options => vote ctx id voter options w
  | .updateParams signer params => updateParams authority signer params w
  | .endVoting id outcome => endVoting ctx id outcome w
  | .pruneStep budget => .ok { w with gov := (w.gov.pruneStep budget).2 }

/-- One step; a failed message leaves the state unchanged. -/
def step (authority : Bytes) (w : World) (a : VoteCtx × Action) : World :=
  commit w (apply authority a.1 w a.2)

end PhiChain.Governance
