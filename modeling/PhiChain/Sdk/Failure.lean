import PhiChain.Foundations.Run

/-!
# Errors

The registered errors of the modules, and the failure a handler returns: a code
with the fixed part of the text it is wrapped in.
-/

set_option autoImplicit false

namespace PhiChain.Sdk

/-- Registered errors of the SDK and of the modules. -/
inductive ErrCode where
  -- cosmos-sdk
  | invalidAddress
  | invalidCoins
  | insufficientFunds
  | sdkUnauthorized
  | invalidRequest
  | invalidSigner
  | unknownAddress
  | outOfRange
  | txDecode
  | sdkInvalidPubKey
  | wrongSequence
  | notSupported
  -- x/coin
  | coinInvalidAmount
  | coinInsufficientFunds
  | coinInvalidParams
  | sameAccount
  | noPayoutAddress
  -- x/institutions
  | institutionExists
  | institutionNotFound
  | institutionFrozen
  | invalidAmount
  | mintExceedsBacking
  | insufficientVault
  | unauthorized
  | mintPaused
  | vaultNotEmpty
  | invalidParams
  | nonIntegralMint
  | solvencyBroken
  | roleNotAuthorized
  | invalidRole
  | capExceeded
  | looserThanFloor
  | duplicateDeposit
  | idTooLong
  | invalidFxMetadata
  | invalidInstitutionType
  | invalidDepositProof
  | kycTierExceeded
  | redemptionThrottled
  | fxOnboarding
  | guarantorRequired
  | missingRef
  | nothingRedeemed
  | attestationStale
  | tooFewAdmins
  | attestorIsMinter
  | belowMinRedeem
  | removalInProgress
  -- x/gov
  | unknownProposal
  | inactiveProposal
  -- x/governance
  | notEligibleToVote
  -- x/identity
  | identityExists
  | uniquenessUsed
  | identityNotFound
  | invalidDID
  | invalidPubKey
  | invalidUniqueness
  | identityUnauthorized
  | identityInvalidParams
  | identityRevoked
  | invalidIssuerSig
  | issuerNotTrusted
  | invalidPoP
  | issuerNotFound
  | keyRotation
  | nonceReused
  | invalidStatusTransition
  | invalidGuardians
  | invalidRecovery
  | recoveryNotFound
  | recoveryNotPending
  | recoveryTooEarly
  | recoveryBelowQuorum
  | recoverySlotsFull
  | recoveryNonceReused
  | notAGuardian
  | guardianNotEligible
  | alreadyApproved
  | recoveryKeyCollision
  | reauthNotEnabled
  | invalidReauthAttestation
  | alreadyRejected
  | validatorNeedsDID
  | didAlreadyValidator
  | minSelfDelegation
  -- x/credentials
  | templateExists
  | templateNotFound
  | templateDeprecated
  | templateVersionMismatch
  | credentialExists
  | credentialNotFound
  | credentialRevoked
  | agreementExists
  | agreementNotFound
  | agreementClosed
  | agreementExpired
  | notRequiredSigner
  | alreadySigned
  | personalAnchorExists
  | didNotActive
  | credentialsUnauthorized
  | invalidSignature
  | credentialsInvalidRequest
  -- x/voting
  | electionExists
  | electionNotFound
  | electionNotOpen
  | votingNotStarted
  | votingEnded
  | invalidOption
  | nullifierUsed
  | eligibilityFailed
  | templateMissingKey
  | votingUnauthorized
  | electionHasVotes
  | proofTooLarge
  | votingInvalidParams
  | votingInvalidRequest
  | votingNotSound
  | invalidNullifier
  -- a plain error, with no registered code
  | unregistered
  -- a panic, which the application recovers from
  | panic
  deriving DecidableEq

/-- A registered error wrapped in a text. -/
structure Failure where
  code : ErrCode
  detail : String
  deriving DecidableEq

/-- Outcome of a handler. -/
abbrev Result (α : Type) := Except Failure α

end PhiChain.Sdk
