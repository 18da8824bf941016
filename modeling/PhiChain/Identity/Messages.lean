import PhiChain.Identity.Types

/-!
# Identity: messages

The messages of x/identity with their stateless checks.
-/

set_option autoImplicit false

namespace PhiChain.Identity

open Foundations Sdk

def maxDIDLen : Nat := 256

def maxPubKeyLen : Nat := 200

def maxUniquenessHashLen : Nat := 64

def maxIssuerSigLen : Nat := 200

def maxNonceLen : Nat := 64

def guardianCommitmentLen : Nat := 32

def guardianSaltLen : Nat := 32

def recoveryIDLen : Nat := 32

def maxRecoveryNonceLen : Nat := 64

def maxRecoverySigLen : Nat := 200

/-- A character of a method-specific identifier: a letter, a digit, or one of `-_.:`. -/
def isDIDChar (c : Byte) : Bool :=
  isLower c ∨ isUpper c ∨ (48 ≤ c.val ∧ c.val ≤ 58) ∨ c.val = 45 ∨ c.val = 95 ∨ c.val = 46

/-- Canonical syntax of a DID; the text names the field in front of what is wrong. -/
def validateDID (field : String) (did : Bytes) : Result Unit := do
  ensure (did ≠ []) ⟨.invalidDID, field ++ "did cannot be empty"⟩
  ensure (did.length ≤ maxDIDLen) ⟨.invalidDID, field ++ "did length exceeds"⟩
  ensure (didMethodPrefix.isPrefixOf did = true) ⟨.invalidDID, field ++ "did must start with"⟩
  let id := did.drop didMethodPrefix.length
  ensure (id ≠ []) ⟨.invalidDID, field ++ "did method-specific id cannot be empty"⟩
  ensure (id.all isDIDChar = true) ⟨.invalidDID, field ++ "did contains an invalid character"⟩

/-- Bounds of a byte field that must not be empty. -/
def validateLen (code : ErrCode) (field : String) (max : Nat) (b : Bytes) : Result Unit :=
  ensure (b.length ≠ 0 ∧ b.length ≤ max) ⟨code, field ++ " length"⟩

def validateRecoveryID (id : Bytes) : Result Unit :=
  ensure (id.length = recoveryIDLen) ⟨.invalidRecovery, "recovery_id length"⟩

structure MsgRegisterIdentity where
  creator : Bytes
  did : Bytes
  pubKey : Bytes
  uniquenessHash : Bytes
  issuerDid : Bytes
  issuerSig : Bytes
  nonce : Bytes
  popSig : Bytes
  keyType : KeyType

def MsgRegisterIdentity.validateBasic (m : MsgRegisterIdentity) : Result Unit := do
  validateAddress "creator" m.creator
  validateDID "" m.did
  validateLen .invalidPubKey "pub_key" maxPubKeyLen m.pubKey
  validateLen .invalidUniqueness "uniqueness_hash" maxUniquenessHashLen m.uniquenessHash
  validateDID "issuer_did: " m.issuerDid
  validateLen .invalidIssuerSig "issuer_sig" maxIssuerSigLen m.issuerSig
  validateLen .invalidIssuerSig "nonce" maxNonceLen m.nonce
  validateLen .invalidPoP "pop_sig" maxIssuerSigLen m.popSig
  ensure ((curveForKeyType m.keyType).isSome = true) ⟨.invalidPubKey, "unsupported key_type"⟩

structure MsgRevokeIdentity where
  creator : Bytes
  did : Bytes

def MsgRevokeIdentity.validateBasic (m : MsgRevokeIdentity) : Result Unit := do
  validateAddress "creator" m.creator
  ensure (m.did ≠ []) ⟨.invalidDID, "did cannot be empty"⟩

structure MsgRotateIdentityKey where
  creator : Bytes
  did : Bytes
  newPubKey : Bytes
  popSig : Bytes

def MsgRotateIdentityKey.validateBasic (m : MsgRotateIdentityKey) : Result Unit := do
  validateAddress "creator" m.creator
  validateDID "" m.did
  validateLen .invalidPubKey "new_pub_key" maxPubKeyLen m.newPubKey
  validateLen .invalidPoP "pop_sig" maxIssuerSigLen m.popSig

structure MsgRegisterTrustedIssuer where
  authority : Bytes
  issuer : TrustedIssuer

def MsgRegisterTrustedIssuer.validateBasic (m : MsgRegisterTrustedIssuer) : Result Unit := do
  validateAddress "authority" m.authority
  validateDID "issuer.did: " m.issuer.did
  validateLen .invalidPubKey "issuer.pub_key" maxPubKeyLen m.issuer.pubKey

structure MsgRevokeTrustedIssuer where
  authority : Bytes
  did : Bytes

def MsgRevokeTrustedIssuer.validateBasic (m : MsgRevokeTrustedIssuer) : Result Unit := do
  validateAddress "authority" m.authority
  validateDID "" m.did

structure MsgUpdateStatus where
  authority : Bytes
  did : Bytes
  newStatus : DIDStatus

def MsgUpdateStatus.validateBasic (m : MsgUpdateStatus) : Result Unit := do
  validateAddress "authority" m.authority
  validateDID "" m.did
  ensure (m.newStatus = .active ∨ m.newStatus = .suspended)
    ⟨.invalidStatusTransition, "new_status must be ACTIVE or SUSPENDED"⟩

/-- Commitments have the length of a digest and are pairwise distinct. -/
def validateCommitments : List Bytes → List Bytes → Result Unit
  | [], _ => .ok ()
  | c :: rest, seen => do
    ensure (c.length = guardianCommitmentLen) ⟨.invalidGuardians, "commitments: length"⟩
    ensure (c ∉ seen) ⟨.invalidGuardians, "duplicate guardian commitment"⟩
    validateCommitments rest (c :: seen)

def validateGuardianSetBasic (did : Bytes) (commitments : List Bytes) (threshold : Nat) :
    Result Unit := do
  validateDID "" did
  ensure (commitments ≠ []) ⟨.invalidGuardians, "at least one guardian commitment is required"⟩
  validateCommitments commitments []
  ensure (threshold ≠ 0) ⟨.invalidGuardians, "threshold must be >= 1"⟩
  ensure (threshold ≤ commitments.length) ⟨.invalidGuardians, "threshold exceeds guardian count"⟩

structure MsgSetGuardians where
  controller : Bytes
  did : Bytes
  commitments : List Bytes
  threshold : Nat

def MsgSetGuardians.validateBasic (m : MsgSetGuardians) : Result Unit := do
  validateAddress "controller" m.controller
  validateGuardianSetBasic m.did m.commitments m.threshold

structure MsgInitiateRecovery where
  creator : Bytes
  did : Bytes
  proposedNewPubKey : Bytes
  keyType : KeyType
  method : RecoveryMethod
  nonce : Bytes
  popSig : Bytes
  reauthAttestation : Bytes
  attestorDid : Bytes

/-- Each method carries its own authorisation and not the other's. -/
def MsgInitiateRecovery.validateMethod (m : MsgInitiateRecovery) : Result Unit :=
  match m.method with
  | .social =>
    ensure (m.reauthAttestation = [] ∧ m.attestorDid = [])
      ⟨.invalidRecovery, "SOCIAL recovery must not carry a re-auth attestation"⟩
  | .reauth => do
    validateLen .invalidReauthAttestation "reauth_attestation" maxRecoverySigLen
      m.reauthAttestation
    validateDID "attestor_did: " m.attestorDid
  | .unspecified => .error ⟨.invalidRecovery, "method must be SOCIAL or REAUTH"⟩

def MsgInitiateRecovery.validateBasic (m : MsgInitiateRecovery) : Result Unit := do
  validateAddress "creator" m.creator
  validateDID "" m.did
  validateLen .invalidPubKey "proposed_new_pub_key" maxPubKeyLen m.proposedNewPubKey
  ensure (m.keyType = .secp256r1) ⟨.invalidRecovery, "key_type must be SECP256R1"⟩
  validateLen .invalidRecovery "nonce" maxRecoveryNonceLen m.nonce
  validateLen .invalidPoP "pop_sig" maxRecoverySigLen m.popSig
  m.validateMethod

/-- A guardian opens their commitment to approve or to reject a request. -/
structure GuardianOpening where
  creator : Bytes
  recoveryId : Bytes
  guardianDid : Bytes
  salt : Bytes

def GuardianOpening.validateBasic (m : GuardianOpening) : Result Unit := do
  validateAddress "creator" m.creator
  validateRecoveryID m.recoveryId
  validateDID "guardian_did: " m.guardianDid
  ensure (m.salt.length = guardianSaltLen) ⟨.invalidGuardians, "salt length"⟩

abbrev MsgApproveRecovery := GuardianOpening

abbrev MsgRejectRecovery := GuardianOpening

/-- A message that names a request and its sender. -/
structure RequestRef where
  creator : Bytes
  recoveryId : Bytes

def RequestRef.validateBasic (m : RequestRef) : Result Unit := do
  validateAddress "creator" m.creator
  validateRecoveryID m.recoveryId

abbrev MsgExecuteRecovery := RequestRef

abbrev MsgCancelRecovery := RequestRef

structure MsgUpdateParams where
  authority : Bytes
  params : Params

def MsgUpdateParams.validateBasic (m : MsgUpdateParams) : Result Unit := do
  validateAddress "authority" m.authority
  m.params.validate

end PhiChain.Identity
