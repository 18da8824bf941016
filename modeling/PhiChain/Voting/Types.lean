import PhiChain.Credentials.Types

/-!
# Voting: elections, ballots and messages

An election offers options to the holders of credentials of one template. A ballot is
filed under its election and its nullifier, the value a voter cannot vary within an
election; the key carries the length of the election id in one byte.
-/

set_option autoImplicit false

namespace PhiChain.Voting

open Foundations Sdk

def maxElectionIDLen : Nat := 255

def maxTitleLen : Nat := 256

def maxOptionLen : Nat := 128

def maxNullifierLen : Nat := 64

def nullifierPointLen : Nat := 48

def maxProofSizeBytesCeiling : UInt32 := 1048576

def maxUint64 : Nat := 2 ^ 64 - 1

inductive ElectionStatus where
  | unspecified
  | «open»
  | closed
  | cancelled
  deriving DecidableEq

structure Election where
  id : Bytes
  creator : Bytes
  title : Bytes
  options : List Bytes
  requiredTemplateId : Bytes
  requiredIssuerDid : Bytes
  votingStart : Int
  votingEnd : Int
  status : ElectionStatus
  optionTallies : List Nat
  totalVotes : Nat
  createdAt : Int
  deriving DecidableEq

structure Ballot where
  electionId : Bytes
  nullifier : Bytes
  optionIndex : UInt32
  castAt : Int
  deriving DecidableEq

/-- Key of a ballot: the length of the election id in one byte, the id and the nullifier. -/
def ballotKey (electionId nullifier : Bytes) : Bytes := bytePrefixed electionId ++ nullifier

def Ballot.key (b : Ballot) : Bytes := ballotKey b.electionId b.nullifier

/-! ## Parameters -/

structure Params where
  maxOptions : UInt32
  minVotingPeriodSeconds : Int
  maxProofSizeBytes : UInt32
  maxVotingPeriodSeconds : Int
  deriving DecidableEq

def defaultParams : Params := ⟨32, 3600, 16384, 2592000⟩

def Params.validate (p : Params) : Result Unit := do
  ensure (2 ≤ p.maxOptions) ⟨.unregistered, "max_options must be >= 2"⟩
  ensure (0 ≤ p.minVotingPeriodSeconds)
    ⟨.unregistered, "min_voting_period_seconds must be >= 0"⟩
  ensure (0 ≤ p.maxVotingPeriodSeconds)
    ⟨.unregistered, "max_voting_period_seconds must be >= 0"⟩
  ensure (p.maxVotingPeriodSeconds ≤ 0 ∨ p.minVotingPeriodSeconds ≤ p.maxVotingPeriodSeconds)
    ⟨.unregistered,
      "max_voting_period_seconds must be >= min_voting_period_seconds when set"⟩
  ensure (p.maxProofSizeBytes ≠ 0) ⟨.unregistered, "max_proof_size_bytes must be > 0"⟩
  ensure (p.maxProofSizeBytes ≤ maxProofSizeBytesCeiling)
    ⟨.unregistered, s!"max_proof_size_bytes must be <= {maxProofSizeBytesCeiling}"⟩

/-! ## Messages -/

/-- A field that must not be empty. -/
def validateNonempty (field : String) (b : Bytes) : Result Unit :=
  ensure (b ≠ []) ⟨.votingInvalidRequest, field ++ " cannot be empty"⟩

def validateMaxLen (field : String) (max : Nat) (b : Bytes) : Result Unit :=
  ensure (b.length ≤ max) ⟨.votingInvalidRequest, s!"{field} exceeds {max} bytes"⟩

structure MsgCreateElection where
  creator : Bytes
  id : Bytes
  title : Bytes
  options : List Bytes
  requiredTemplateId : Bytes
  requiredIssuerDid : Bytes
  votingStart : Int
  votingEnd : Int
  int64Fields : InInt64 votingStart ∧ InInt64 votingEnd

def validateOption (i : Nat) (option : Bytes) : Result Unit := do
  ensure (option ≠ []) ⟨.votingInvalidRequest, s!"option {i} is empty"⟩
  validateMaxLen s!"option {i}" maxOptionLen option

def MsgCreateElection.validateBasic (m : MsgCreateElection) : Result Unit := do
  validateAddress "creator" m.creator
  validateNonempty "id" m.id
  validateMaxLen "id" maxElectionIDLen m.id
  validateNonempty "title" m.title
  validateMaxLen "title" maxTitleLen m.title
  ensure (2 ≤ m.options.length) ⟨.votingInvalidRequest, "at least two options are required"⟩
  m.options.zipIdx.forM fun (option, i) => validateOption i option
  validateNonempty "required_template_id" m.requiredTemplateId
  ensure (m.votingStart < m.votingEnd)
    ⟨.votingInvalidRequest, "voting_end must be after voting_start"⟩

structure MsgCastVote where
  voter : Bytes
  electionId : Bytes
  optionIndex : UInt32
  nullifier : Bytes
  eligibilityProof : Bytes

def MsgCastVote.validateBasic (m : MsgCastVote) : Result Unit := do
  validateAddress "voter" m.voter
  validateNonempty "election_id" m.electionId
  validateNonempty "nullifier" m.nullifier
  validateMaxLen "nullifier" maxNullifierLen m.nullifier
  validateNonempty "eligibility_proof" m.eligibilityProof

structure MsgCloseElection where
  creator : Bytes
  electionId : Bytes

def MsgCloseElection.validateBasic (m : MsgCloseElection) : Result Unit := do
  validateAddress "creator" m.creator
  validateNonempty "election_id" m.electionId

structure MsgCancelElection where
  creator : Bytes
  electionId : Bytes

def MsgCancelElection.validateBasic (m : MsgCancelElection) : Result Unit := do
  validateAddress "creator" m.creator
  validateNonempty "election_id" m.electionId

structure MsgUpdateParams where
  authority : Bytes
  params : Params

def MsgUpdateParams.validateBasic (m : MsgUpdateParams) : Result Unit := do
  validateAddress "authority" m.authority
  m.params.validate

/-! ## The store -/

structure Store where
  params : Params
  elections : KeyedMap Bytes Election Election.id
  ballots : KeyedMap Bytes Ballot Ballot.key

def Store.fresh : Store := ⟨defaultParams, ∅, ∅⟩

end PhiChain.Voting
