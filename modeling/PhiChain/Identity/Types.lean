import PhiChain.Coin.CoinAge

/-!
# Identity: records, parameters and derived texts

The records of x/identity, its parameters with their check, and the byte strings the
module signs and hashes: self-certifying DIDs, guardian commitments, recovery
identifiers and the canonical messages of attestations and proofs of possession.

The hash, the signature verifier and the parsing of curve points are fields of the
keeper: nothing is assumed about them.
-/

set_option autoImplicit false

namespace PhiChain.Identity

open Foundations Sdk

inductive DIDStatus where
  | unspecified
  | active
  | revoked
  | suspended
  deriving DecidableEq

/-- Curve of a key as messages name it; any other number is `unknown`. -/
inductive KeyType where
  | unspecified
  | secp256r1
  | secp256k1
  | unknown
  deriving DecidableEq

inductive RecoveryMethod where
  | unspecified
  | social
  | reauth
  deriving DecidableEq

inductive RecoveryStatus where
  | unspecified
  | pending
  | executed
  | rejected
  | expired
  | superseded
  deriving DecidableEq

/-- Curves of the signature port. -/
inductive Curve where
  | secp256r1
  | secp256k1
  deriving DecidableEq

structure DIDDocument where
  did : Bytes
  controller : Bytes
  pubKey : Bytes
  uniquenessHash : Bytes
  createdAt : Int
  status : DIDStatus
  keyType : KeyType
  deriving DecidableEq

structure TrustedIssuer where
  did : Bytes
  pubKey : Bytes
  active : Bool
  deriving DecidableEq

structure GuardianSet where
  did : Bytes
  commitments : List Bytes
  threshold : Nat
  updatedAt : Int
  deriving DecidableEq

structure RecoveryRequest where
  recoveryId : Bytes
  did : Bytes
  proposedNewPubKey : Bytes
  proposedNewController : Bytes
  keyType : KeyType
  method : RecoveryMethod
  approvals : List Bytes
  nonce : Bytes
  initiatedAt : Int
  executeAfter : Int
  expiresAt : Int
  depositUphi : Bytes
  status : RecoveryStatus
  attestorDid : Bytes
  feeUphi : Bytes
  rejections : List Bytes
  frozenAt : Int
  deriving DecidableEq

def isTerminalRecoveryStatus (s : RecoveryStatus) : Bool := s ≠ .pending

/-! ## Parameters -/

/-- Parameters of x/identity; the durations are 64-bit integers. -/
structure Params where
  minIdentityAgeSeconds : Int
  bootstrapThreshold : Nat
  bootstrapPhase : Bool
  webauthnAllowedOrigins : List Bytes
  webauthnRpId : Bytes
  maxGuardians : Nat
  uvSensitiveMsgTypeUrls : List Bytes
  uvLargeTransferUphi : Bytes
  recoveryDelaySeconds : Int
  recoveryRequestTtlSeconds : Int
  maxOpenRecoveryRequests : Nat
  recoveryDepositUphi : Bytes
  reauthRecoveryFeeUphi : Bytes
  int64Fields : InInt64 minIdentityAgeSeconds ∧ InInt64 recoveryDelaySeconds ∧
    InInt64 recoveryRequestTtlSeconds
  deriving DecidableEq

def maxOpenRecoveryRequestsCeiling : Nat := 64

def maxWebAuthnAllowedOrigins : Nat := 32

def maxUVSensitiveMsgTypeURLs : Nat := 32

def defaultUVSensitiveMsgTypeURLs : List Bytes :=
  [ascii "/phi.identity.MsgRotateIdentityKey",
    ascii "/phi.identity.MsgSetGuardians",
    ascii "/phi.identity.MsgInitiateRecovery",
    ascii "/phi.identity.MsgApproveRecovery",
    ascii "/phi.identity.MsgRejectRecovery",
    ascii "/phi.identity.MsgCancelRecovery",
    ascii "/phi.institutions.MsgInstitutionRedeem"]

def defaultParams : Params where
  minIdentityAgeSeconds := 7 * 24 * 60 * 60
  bootstrapThreshold := 10000
  bootstrapPhase := true
  webauthnAllowedOrigins := [ascii "https://portphi.com"]
  webauthnRpId := ascii "portphi.com"
  maxGuardians := 10
  uvSensitiveMsgTypeUrls := defaultUVSensitiveMsgTypeURLs
  uvLargeTransferUphi := ascii "100000000"
  recoveryDelaySeconds := 72 * 60 * 60
  recoveryRequestTtlSeconds := 14 * 24 * 60 * 60
  maxOpenRecoveryRequests := 5
  recoveryDepositUphi := ascii "1000000"
  reauthRecoveryFeeUphi := ascii "4000000"
  int64Fields := by decide

/-- A parameter that holds a non-negative amount. -/
def validateAmount (field : String) (s : Bytes) : Result Unit := do
  let v ← orFail (newIntFromString s) ⟨.unregistered, "invalid " ++ field⟩
  ensure (0 ≤ v) ⟨.unregistered, field ++ " must be >= 0"⟩

def validateOrigin (o : Bytes) : Result Unit :=
  ensure (o ≠ []) ⟨.unregistered, "webauthn_allowed_origins must not be empty"⟩

def validateTypeURL (u : Bytes) : Result Unit :=
  ensure (u ≠ [] ∧ u.head? = some 47)
    ⟨.unregistered, "uv_sensitive_msg_type_urls must be a message type URL starting with '/'"⟩

def Params.validate (p : Params) : Result Unit := do
  ensure (0 ≤ p.minIdentityAgeSeconds)
    ⟨.unregistered, "min_identity_age_seconds must be >= 0"⟩
  ensure (p.bootstrapThreshold ≠ 0) ⟨.unregistered, "bootstrap_threshold must be > 0"⟩
  ensure (p.webauthnAllowedOrigins ≠ [])
    ⟨.unregistered, "webauthn_allowed_origins must list at least one origin"⟩
  ensure (p.webauthnAllowedOrigins.length ≤ maxWebAuthnAllowedOrigins)
    ⟨.unregistered, "webauthn_allowed_origins: bounds per-signature verify work"⟩
  p.webauthnAllowedOrigins.forM validateOrigin
  ensure (p.webauthnRpId ≠ []) ⟨.unregistered, "webauthn_rp_id must not be empty"⟩
  ensure (p.maxGuardians ≠ 0) ⟨.unregistered, "max_guardians must be > 0"⟩
  ensure (p.uvSensitiveMsgTypeUrls.length ≤ maxUVSensitiveMsgTypeURLs)
    ⟨.unregistered, "uv_sensitive_msg_type_urls"⟩
  p.uvSensitiveMsgTypeUrls.forM validateTypeURL
  validateAmount "uv_large_transfer_uphi" p.uvLargeTransferUphi
  ensure (0 < p.recoveryDelaySeconds) ⟨.unregistered, "recovery_delay_seconds must be > 0"⟩
  ensure (p.recoveryDelaySeconds < p.recoveryRequestTtlSeconds)
    ⟨.unregistered, "recovery_request_ttl_seconds must exceed recovery_delay_seconds"⟩
  ensure (p.maxOpenRecoveryRequests ≠ 0)
    ⟨.unregistered, "max_open_recovery_requests must be > 0"⟩
  ensure (p.maxOpenRecoveryRequests ≤ maxOpenRecoveryRequestsCeiling)
    ⟨.unregistered, "max_open_recovery_requests: it bounds the per-DID scans"⟩
  validateAmount "recovery_deposit_uphi" p.recoveryDepositUphi
  validateAmount "reauth_recovery_fee_uphi" p.reauthRecoveryFeeUphi

def Params.recoveryDeposit (p : Params) : Int := (newIntFromString p.recoveryDepositUphi).getD 0

def Params.reauthRecoveryFee (p : Params) : Int :=
  (newIntFromString p.reauthRecoveryFeeUphi).getD 0

/-! ## Keeper, DIDs and messages to sign -/

/-- Fixed parts of the keeper and of its build. A curve point is given by its canonical
SEC1 bytes, uncompressed on secp256r1 and compressed on secp256k1. -/
structure Keeper where
  authority : Bytes
  sha256 : Bytes → Bytes
  verifySignature : Curve → (pubKey message signature : Bytes) → Bool
  unmarshalP256 : Bytes → Option Bytes
  parseK1 : Bytes → Option Bytes
  reauthRecoveryEnabled : Bool

def hexDigit (n : Nat) : Byte := Fin.ofNat 256 (if n < 10 then 48 + n else 87 + n)

def hexEncode (b : Bytes) : Bytes := b.flatMap fun c => [hexDigit (c.val / 16), hexDigit (c.val % 16)]

theorem hexDigit_inj {m n : Nat} (hm : m < 16) (hn : n < 16) (h : hexDigit m = hexDigit n) :
    m = n := by
  have hall : ∀ m, m < 16 → ∀ n, n < 16 → hexDigit m = hexDigit n → m = n := by decide
  exact hall m hm n hn h

/-- A hash is read back from its text. -/
theorem hexEncode_inj {b c : Bytes} (h : hexEncode b = hexEncode c) : b = c := by
  induction b generalizing c with
  | nil =>
    cases c with
    | nil => rfl
    | cons y ys => simp [hexEncode] at h
  | cons x xs ih =>
    cases c with
    | nil => simp [hexEncode] at h
    | cons y ys =>
      simp only [hexEncode, List.flatMap_cons, List.cons_append, List.nil_append,
        List.cons.injEq] at h
      obtain ⟨hhigh, hlow, hrest⟩ := h
      have hhigh := hexDigit_inj (by omega) (by omega) hhigh
      have hlow := hexDigit_inj (by omega) (by omega) hlow
      have hbyte : x = y := Fin.ext (by omega)
      rw [hbyte, ih hrest]

/-- No digit of a hash is a slash. -/
theorem slash_not_mem_hexEncode (b : Bytes) : (47 : Byte) ∉ hexEncode b := by
  have hdigits : ∀ n, n < 16 → (47 : Byte) ≠ hexDigit n := by decide
  intro hmem
  obtain ⟨x, -, hx⟩ := List.mem_flatMap.1 hmem
  simp only [List.mem_cons, List.not_mem_nil, or_false] at hx
  rcases hx with hx | hx
  · exact hdigits _ (by omega) hx
  · exact hdigits _ (by omega) hx

def didMethodPrefix : Bytes := ascii "did:phi:"

/-- The curve point of a P-256 key in one of the three SEC1 forms. -/
def parseP256 (k : Keeper) (b : Bytes) : Option Bytes :=
  match b.head? with
  | none => none
  | some c => if c = 4 ∨ c = 2 ∨ c = 3 then k.unmarshalP256 b else none

def deriveDID (k : Keeper) (curve : Curve) (pubKey : Bytes) : Option Bytes :=
  match curve with
  | .secp256r1 =>
    (parseP256 k pubKey).map fun point => didMethodPrefix ++ hexEncode (k.sha256 (2 :: point))
  | .secp256k1 =>
    (k.parseK1 pubKey).map fun point => didMethodPrefix ++ hexEncode (k.sha256 (1 :: point))

def curveForKeyType : KeyType → Option Curve
  | .unspecified | .secp256r1 => some .secp256r1
  | .secp256k1 => some .secp256k1
  | .unknown => none

def deriveDIDForKeyType (k : Keeper) (keyType : KeyType) (pubKey : Bytes) : Option Bytes := do
  let curve ← curveForKeyType keyType
  deriveDID k curve pubKey

/-- Fields of a message to sign, each behind its length. -/
def canonicalMessage (domain : Bytes) (fields : List Bytes) : Bytes :=
  lengthPrefixed (domain :: fields)

def attestationMessage (chainID did pubKey uniquenessHash creator nonce : Bytes) : Bytes :=
  canonicalMessage (ascii "phi-issuer-attestation-v3")
    [chainID, did, pubKey, uniquenessHash, creator, nonce]

def rotationMessage (chainID did newPubKey creator : Bytes) : Bytes :=
  canonicalMessage (ascii "phi-key-rotation-v3") [chainID, did, newPubKey, creator]

def socialRecoveryPoPMessage (chainID did proposedNewPubKey newController nonce : Bytes) : Bytes :=
  canonicalMessage (ascii "phi-social-recovery-v3")
    [chainID, did, proposedNewPubKey, newController, nonce]

def reauthAttestationMessage (chainID did proposedNewPubKey newController uniquenessHash nonce :
    Bytes) : Bytes :=
  canonicalMessage (ascii "phi-recovery-reauth-v3")
    [chainID, did, proposedNewPubKey, newController, uniquenessHash, nonce]

def guardianCommitment (k : Keeper) (guardianDID salt : Bytes) : Bytes :=
  k.sha256 (ascii "phi-guardian-commit-v1" ++ 0 :: guardianDID ++ 0 :: salt)

def deriveRecoveryID (k : Keeper) (did proposedNewPubKey nonce : Bytes) : Bytes :=
  k.sha256 (ascii "phi-recovery-id-v1" ++ 0 :: did ++ 0 :: proposedNewPubKey ++ 0 :: nonce)

def GuardianSet.hasCommitment (gs : GuardianSet) (c : Bytes) : Bool := gs.commitments.contains c

end PhiChain.Identity
