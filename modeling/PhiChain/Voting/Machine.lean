import PhiChain.Voting.Types

/-!
# Voting: handlers and the machine

`castVote` accepts a ballot when the election is open, the block is in its window, the
nullifier is unused and the derivation proof verifies for exactly this chain, election,
nullifier and option. The creator may close an election, or cancel it while it has no vote.
-/

set_option autoImplicit false

namespace PhiChain.Voting

open Foundations Sdk
open Identity (Env)

/-- The build and the verifier: `votingSnark` is the build that checks the shape of nullifiers. -/
structure Keeper where
  authority : Bytes
  soundnessEnforced : Bool
  votingSnark : Bool
  verifyDerivationVote : (proof issuerKey chainID electionID nullifier signal : Bytes) → Bool

def voteSignal (optionIndex : UInt32) : Bytes := bigEndian 4 optionIndex.toNat

/-- The start of the voting window; zero stands for the time of the block. -/
def MsgCreateElection.effectiveStart (msg : MsgCreateElection) (now : Int) : Int :=
  if msg.votingStart = 0 then now else msg.votingStart

def createElection (env : Env) (creds : Credentials.Store) (msg : MsgCreateElection) (s : Store) :
    Result Store := do
  ensure (s.elections.has msg.id = false) ⟨.electionExists, "id"⟩
  ensure (UInt32.ofNat msg.options.length ≤ s.params.maxOptions)
    ⟨.votingInvalidRequest, s!"too many options (max {s.params.maxOptions})"⟩
  let start := msg.effectiveStart env.blockTime
  ensure (start < msg.votingEnd)
    ⟨.votingInvalidRequest, "voting_end must be after the effective voting_start"⟩
  ensure (s.params.minVotingPeriodSeconds ≤ int64 (msg.votingEnd - start))
    ⟨.votingInvalidRequest, "voting window shorter than min_voting_period_seconds"⟩
  ensure (s.params.maxVotingPeriodSeconds ≤ 0 ∨
      int64 (msg.votingEnd - start) ≤ s.params.maxVotingPeriodSeconds)
    ⟨.votingInvalidRequest, "voting window longer than max_voting_period_seconds"⟩
  let tmpl ← orFail (creds.templates.get? msg.requiredTemplateId)
    ⟨.votingInvalidRequest, "required_template_id not found"⟩
  ensure (tmpl.issuerBbsPubkey ≠ []) ⟨.templateMissingKey, "template"⟩
  ensure (msg.requiredIssuerDid = [] ∨ msg.requiredIssuerDid = tmpl.ownerDid)
    ⟨.votingInvalidRequest, "required_issuer_did does not match template owner"⟩
  let e : Election :=
    { id := msg.id
      creator := msg.creator
      title := msg.title
      options := msg.options
      requiredTemplateId := msg.requiredTemplateId
      requiredIssuerDid := tmpl.ownerDid
      votingStart := start
      votingEnd := msg.votingEnd
      status := .open
      optionTallies := List.replicate msg.options.length 0
      totalVotes := 0
      createdAt := env.blockTime }
  return { s with elections := s.elections.set e }

/-- The shape of a nullifier, which only the build with the circuit checks. -/
def checkNullifierShape (k : Keeper) (nullifier : Bytes) : Result Unit :=
  ensure (k.votingSnark = false ∨ nullifier.length = nullifierPointLen)
    ⟨.invalidNullifier, s!"nullifier must be {nullifierPointLen} bytes, got {nullifier.length}"⟩

/-- One more vote for an option. -/
def Election.tally (e : Election) (i : Nat) : Election :=
  { e with
    optionTallies := e.optionTallies.modify i (· + 1)
    totalVotes := e.totalVotes + 1 }

/-- The ballot of a message in a block. -/
def MsgCastVote.ballot (msg : MsgCastVote) (now : Int) : Ballot :=
  ⟨msg.electionId, msg.nullifier, msg.optionIndex, now⟩

def castVote (k : Keeper) (env : Env) (creds : Credentials.Store) (msg : MsgCastVote) (s : Store) :
    Result Store := do
  ensure (k.soundnessEnforced = true)
    ⟨.votingNotSound, "real tally disabled until the derivation-proof SNARK is integrated"⟩
  let e ← orFail (s.elections.get? msg.electionId) ⟨.electionNotFound, "id"⟩
  ensure (e.status = .open) ⟨.electionNotOpen, "status"⟩
  ensure (e.votingStart ≤ env.blockTime) ⟨.votingNotStarted, ""⟩
  ensure (env.blockTime ≤ e.votingEnd) ⟨.votingEnded, ""⟩
  ensure (msg.optionIndex.toNat < e.options.length ∧ msg.optionIndex.toNat < e.optionTallies.length)
    ⟨.invalidOption, s!"index {msg.optionIndex} of {e.options.length}"⟩
  -- the size is compared in 32 bits
  ensure (UInt32.ofNat msg.eligibilityProof.length ≤ s.params.maxProofSizeBytes)
    ⟨.proofTooLarge, ""⟩
  let tmpl ← orFail
    ((creds.templates.get? e.requiredTemplateId).filter fun t => t.issuerBbsPubkey ≠ [])
    ⟨.templateMissingKey, "template"⟩
  checkNullifierShape k msg.nullifier
  ensure (s.ballots.has (ballotKey msg.electionId msg.nullifier) = false) ⟨.nullifierUsed, ""⟩
  ensure (k.verifyDerivationVote msg.eligibilityProof tmpl.issuerBbsPubkey env.chainID msg.electionId
      msg.nullifier (voteSignal msg.optionIndex) = true)
    ⟨.eligibilityFailed, "derivation-proof eligibility"⟩
  ensure (e.totalVotes ≠ maxUint64 ∧ e.optionTallies[msg.optionIndex.toNat]? ≠ some maxUint64)
    ⟨.votingInvalidRequest, "vote tally overflow"⟩
  return { s with
    ballots := s.ballots.set (msg.ballot env.blockTime)
    elections := s.elections.set (e.tally msg.optionIndex.toNat) }

def closeElection (msg : MsgCloseElection) (s : Store) : Result Store := do
  let e ← orFail (s.elections.get? msg.electionId) ⟨.electionNotFound, "id"⟩
  ensure (e.creator = msg.creator)
    ⟨.votingUnauthorized, "only the creator may close the election"⟩
  ensure (e.status = .open) ⟨.electionNotOpen, "status"⟩
  return { s with elections := s.elections.set { e with status := .closed } }

def cancelElection (msg : MsgCancelElection) (s : Store) : Result Store := do
  let e ← orFail (s.elections.get? msg.electionId) ⟨.electionNotFound, "id"⟩
  ensure (e.creator = msg.creator)
    ⟨.votingUnauthorized, "only the creator may cancel the election"⟩
  ensure (e.status = .open) ⟨.electionNotOpen, "status"⟩
  ensure (e.totalVotes = 0) ⟨.electionHasVotes, ""⟩
  return { s with elections := s.elections.set { e with status := .cancelled } }

def updateParams (k : Keeper) (msg : MsgUpdateParams) (s : Store) : Result Store := do
  ensure (msg.authority = k.authority) ⟨.invalidSigner, "expected, got"⟩
  msg.params.validate
  return { s with params := msg.params }

/-! ## The machine -/

inductive Action where
  | createElection (msg : MsgCreateElection)
  | castVote (msg : MsgCastVote)
  | closeElection (msg : MsgCloseElection)
  | cancelElection (msg : MsgCancelElection)
  | updateParams (msg : MsgUpdateParams)

def Action.validateBasic : Action → Result Unit
  | .createElection msg => msg.validateBasic
  | .castVote msg => msg.validateBasic
  | .closeElection msg => msg.validateBasic
  | .cancelElection msg => msg.validateBasic
  | .updateParams msg => msg.validateBasic

/-- A message with the block it is in and the templates it meets. -/
structure Tx where
  env : Env
  creds : Credentials.Store
  action : Action

def handle (k : Keeper) (tx : Tx) (s : Store) : Action → Result Store
  | .createElection msg => createElection tx.env tx.creds msg s
  | .castVote msg => castVote k tx.env tx.creds msg s
  | .closeElection msg => closeElection msg s
  | .cancelElection msg => cancelElection msg s
  | .updateParams msg => updateParams k msg s

/-- One message: its stateless check, then its handler. -/
def apply (k : Keeper) (s : Store) (tx : Tx) : Result Store := do
  tx.action.validateBasic
  handle k tx s tx.action

/-- One transaction; a failed one leaves the store as it was. -/
def step (k : Keeper) (s : Store) (tx : Tx) : Store := commit s (apply k s tx)

end PhiChain.Voting
