import PhiChain.Identity.Recovery

/-!
# Identity: registry messages and the machine

Registration, revocation, key rotation and suspension of identities, guardian sets,
trusted issuers and parameters. `step` runs one message; a failed message leaves the
state unchanged.
-/

set_option autoImplicit false

namespace PhiChain.Identity

open Foundations Sdk

/-! ## Registration -/

def verifyRegistration (k : Keeper) (env : Env) (msg : MsgRegisterIdentity) (s : Store) :
    Result Unit := do
  let curve ← orFail (curveForKeyType msg.keyType) ⟨.invalidPubKey, "unsupported key_type"⟩
  let derived ← orFail (deriveDIDForKeyType k msg.keyType msg.pubKey)
    ⟨.invalidPubKey, "public key is not a valid point on its curve"⟩
  ensure (msg.did = derived) ⟨.invalidDID, "did is not the canonical derivation of pub_key"⟩
  let issuer ← orFail ((s.trustedIssuers.get? msg.issuerDid).filter TrustedIssuer.active)
    ⟨.issuerNotTrusted, "issuer"⟩
  ensure (s.issuerNonces.has (nulKey msg.issuerDid msg.nonce) = false)
    ⟨.nonceReused, "issuer nonce"⟩
  let m := attestationMessage env.chainID msg.did msg.pubKey msg.uniquenessHash msg.creator msg.nonce
  -- the issuer always signs on P-256, the registrant on the curve of the key
  ensure (k.verifySignature .secp256r1 issuer.pubKey m msg.issuerSig = true)
    ⟨.invalidIssuerSig, "issuer attestation did not verify"⟩
  ensure (k.verifySignature curve msg.pubKey m msg.popSig = true)
    ⟨.invalidPoP, "proof-of-possession did not verify"⟩

/-- The document a registration creates. -/
def newDocument (env : Env) (msg : MsgRegisterIdentity) : DIDDocument where
  did := msg.did
  controller := msg.creator
  pubKey := msg.pubKey
  uniquenessHash := msg.uniquenessHash
  createdAt := env.blockTime
  status := .active
  keyType := msg.keyType

/-- The bootstrap phase ends for good when the number of identities reaches the threshold. -/
def latchBootstrap (s : Store) : Result Store :=
  if s.params.bootstrapPhase ∧ s.params.bootstrapThreshold ≤ s.identityCount then
    s.setParams { s.params with bootstrapPhase := false }
  else .ok s

/-- What a registration stores: the document, its uniqueness marker and the issuer's nonce;
the document is counted. -/
def Store.registered (s : Store) (env : Env) (msg : MsgRegisterIdentity) : Store :=
  let s := s.setIdentity env (newDocument env msg)
  { s with
    uniqueness := s.uniqueness.put msg.uniquenessHash msg.did
    issuerNonces := s.issuerNonces.put (nulKey msg.issuerDid msg.nonce) ()
    identityCount := s.identityCount + 1 }

def registerIdentity (k : Keeper) (env : Env) (msg : MsgRegisterIdentity) (s : Store) :
    Result Store := do
  ensure (s.hasIdentity msg.did = false) ⟨.identityExists, "did"⟩
  ensure (s.uniqueness.has msg.uniquenessHash = false)
    ⟨.uniquenessUsed, "this human already holds a phi identity"⟩
  verifyRegistration k env msg s
  latchBootstrap (s.registered env msg)

/-! ## Status and keys -/

def DIDDocument.withStatus (d : DIDDocument) (status : DIDStatus) : DIDDocument :=
  { d with status := status }

def DIDDocument.withKey (d : DIDDocument) (pubKey : Bytes) : DIDDocument :=
  { d with pubKey := pubKey }

/-- What a revoked identity may not keep: its guardian set and its validator. -/
def Store.releaseRevoked (s : Store) (did : Bytes) : Store :=
  let s := s.deleteGuardianSet did
  let s :=
    match s.validatorForDID did with
    | some valoper => s.unbindValidator valoper
    | none => s
  s.bumpGuardianEpoch did

def revokeIdentity (k : Keeper) (env : Env) (msg : MsgRevokeIdentity) (w : World) :
    Result World := do
  let doc ← orFail (w.store.getIdentity msg.did) ⟨.identityNotFound, "did"⟩
  ensure (msg.creator = doc.controller ∨ msg.creator = k.authority)
    ⟨.identityUnauthorized, "only controller or governance may revoke"⟩
  ensure (doc.status ≠ .revoked) ⟨.identityRevoked, ""⟩
  let w := { w with store := w.store.setIdentity env (doc.withStatus .revoked) }
  let w ← terminateRecoveryRequestsForDID env msg.did w
  return { w with store := w.store.releaseRevoked msg.did }

def rotateIdentityKey (k : Keeper) (env : Env) (msg : MsgRotateIdentityKey) (s : Store) :
    Result Store := do
  let doc ← orFail (s.getIdentity msg.did) ⟨.identityNotFound, "did"⟩
  ensure (msg.creator = doc.controller)
    ⟨.identityUnauthorized, "only the current controller may rotate the key"⟩
  ensure (doc.status = .active)
    ⟨.keyRotation, "cannot rotate the key of a non-active identity"⟩
  let curve ← orFail (curveForKeyType doc.keyType) ⟨.keyRotation, "unsupported key_type"⟩
  ensure (k.verifySignature curve msg.newPubKey
      (rotationMessage env.chainID msg.did msg.newPubKey msg.creator) msg.popSig = true)
    ⟨.invalidPoP, "new-key proof-of-possession did not verify"⟩
  let derived ← orFail (deriveDIDForKeyType k doc.keyType msg.newPubKey)
    ⟨.invalidPubKey, "new_pub_key is not a valid curve point"⟩
  ensure (derived = doc.did ∨ s.hasIdentity derived = false)
    ⟨.recoveryKeyCollision, "new key derives the registered did"⟩
  return s.setIdentity env (doc.withKey msg.newPubKey)

/-- A suspension holds the DID's live recovery requests, a reinstatement releases them. -/
def Store.holdRecoveries (s : Store) (env : Env) (did : Bytes) (old new : DIDStatus) : Store :=
  if old = .active ∧ new = .suspended then s.freezeLiveRecoveries env did
  else if old = .suspended ∧ new = .active then s.thawRecoveries env did
  else s

def updateStatus (k : Keeper) (env : Env) (msg : MsgUpdateStatus) (s : Store) :
    Result Store := do
  ensure (msg.authority = k.authority) ⟨.invalidSigner, "expected, got"⟩
  ensure (msg.newStatus = .active ∨ msg.newStatus = .suspended)
    ⟨.invalidStatusTransition, "new_status must be ACTIVE or SUSPENDED"⟩
  let doc ← orFail (s.getIdentity msg.did) ⟨.identityNotFound, "did"⟩
  ensure (doc.status ≠ .revoked)
    ⟨.identityRevoked, "a revoked identity is terminal and cannot change status"⟩
  ensure (doc.status ≠ msg.newStatus) ⟨.invalidStatusTransition, "identity is already"⟩
  let s := s.setIdentity env (doc.withStatus msg.newStatus)
  return s.holdRecoveries env msg.did doc.status msg.newStatus

/-! ## Guardians, issuers and parameters -/

def setGuardians (env : Env) (msg : MsgSetGuardians) (s : Store) : Result Store := do
  let doc ← orFail (s.getIdentity msg.did) ⟨.identityNotFound, "did"⟩
  ensure (msg.controller = doc.controller)
    ⟨.identityUnauthorized, "only the current controller may set guardians"⟩
  ensure (doc.status = .active)
    ⟨.invalidGuardians, "cannot set guardians on a non-active identity"⟩
  validateGuardianSetBasic msg.did msg.commitments msg.threshold
  ensure (msg.commitments.length ≤ s.params.maxGuardians)
    ⟨.invalidGuardians, "guardian count exceeds max_guardians"⟩
  let gs := ⟨msg.did, msg.commitments, msg.threshold, env.blockTime⟩
  return (s.setGuardianSet gs).bumpGuardianEpoch msg.did

def registerTrustedIssuer (k : Keeper) (msg : MsgRegisterTrustedIssuer) (s : Store) :
    Result Store := do
  ensure (msg.authority = k.authority) ⟨.invalidSigner, "expected, got"⟩
  return { s with trustedIssuers := s.trustedIssuers.set msg.issuer }

def revokeTrustedIssuer (k : Keeper) (msg : MsgRevokeTrustedIssuer) (s : Store) :
    Result Store := do
  ensure (msg.authority = k.authority) ⟨.invalidSigner, "expected, got"⟩
  let ti ← orFail (s.trustedIssuers.get? msg.did) ⟨.issuerNotFound, "did"⟩
  return { s with trustedIssuers := s.trustedIssuers.set { ti with active := false } }

def updateParams (k : Keeper) (msg : MsgUpdateParams) (s : Store) : Result Store := do
  ensure (msg.authority = k.authority) ⟨.invalidSigner, "expected, got"⟩
  s.setParams msg.params

/-! ## The machine -/

inductive Action where
  | registerIdentity (msg : MsgRegisterIdentity)
  | revokeIdentity (msg : MsgRevokeIdentity)
  | rotateIdentityKey (msg : MsgRotateIdentityKey)
  | updateStatus (msg : MsgUpdateStatus)
  | setGuardians (msg : MsgSetGuardians)
  | initiateRecovery (msg : MsgInitiateRecovery)
  | approveRecovery (msg : MsgApproveRecovery)
  | rejectRecovery (msg : MsgRejectRecovery)
  | executeRecovery (msg : MsgExecuteRecovery)
  | cancelRecovery (msg : MsgCancelRecovery)
  | registerTrustedIssuer (msg : MsgRegisterTrustedIssuer)
  | revokeTrustedIssuer (msg : MsgRevokeTrustedIssuer)
  | updateParams (msg : MsgUpdateParams)

/-- The stateless check of a message. -/
def Action.validateBasic : Action → Result Unit
  | .registerIdentity msg => msg.validateBasic
  | .revokeIdentity msg => msg.validateBasic
  | .rotateIdentityKey msg => msg.validateBasic
  | .updateStatus msg => msg.validateBasic
  | .setGuardians msg => msg.validateBasic
  | .initiateRecovery msg => msg.validateBasic
  | .approveRecovery msg => msg.validateBasic
  | .rejectRecovery msg => msg.validateBasic
  | .executeRecovery msg => msg.validateBasic
  | .cancelRecovery msg => msg.validateBasic
  | .registerTrustedIssuer msg => msg.validateBasic
  | .revokeTrustedIssuer msg => msg.validateBasic
  | .updateParams msg => msg.validateBasic

/-- A message that changes the module's own store only. -/
def onStore (f : Store → Result Store) (w : World) : Result World := do
  let s ← f w.store
  return { w with store := s }

def handle (k : Keeper) (env : Env) (w : World) : Action → Result World
  | .registerIdentity msg => onStore (registerIdentity k env msg) w
  | .revokeIdentity msg => revokeIdentity k env msg w
  | .rotateIdentityKey msg => onStore (rotateIdentityKey k env msg) w
  | .updateStatus msg => onStore (updateStatus k env msg) w
  | .setGuardians msg => onStore (setGuardians env msg) w
  | .initiateRecovery msg => initiateRecovery k env msg w
  | .approveRecovery msg => approveRecovery k env msg w
  | .rejectRecovery msg => rejectRecovery k env msg w
  | .executeRecovery msg => executeRecovery k env msg w
  | .cancelRecovery msg => cancelRecovery env msg w
  | .registerTrustedIssuer msg => onStore (registerTrustedIssuer k msg) w
  | .revokeTrustedIssuer msg => onStore (revokeTrustedIssuer k msg) w
  | .updateParams msg => onStore (updateParams k msg) w

/-- One message: its stateless check, then its handler. -/
def apply (k : Keeper) (env : Env) (w : World) (a : Action) : Result World := do
  a.validateBasic
  handle k env w a

/-- A message with the block it is in. -/
structure Tx where
  env : Env
  action : Action

/-- One transaction; a failed one leaves the world as it was. -/
def step (k : Keeper) (w : World) (tx : Tx) : World := commit w (apply k tx.env w tx.action)

/-! ## A small registry

Keys are pairs of bytes, a key signs by showing itself, and the digest is the text that is
hashed. One issuer attests to registrations. -/

/-- One proof behind every small block time. -/
instance smallTimeNeZero : NeZero 10000 := ⟨nofun⟩

def smallEnv (now : Fin 10000) : Env where
  blockTime := now.val
  chainID := ascii "phi"
  accounts := smallAccounts
  timeFits := by
    have := now.isLt
    unfold InInt64
    omega

def smallKeeper : Keeper where
  authority := accAddressString [5]
  sha256 := id
  verifySignature _ pubKey _ sig := sig = pubKey
  unmarshalP256 := some
  parseK1 _ := none
  reauthRecoveryEnabled := false

/-- Parameters without deposits: requests may be executed after 10 and until 20 seconds. -/
def smallParams : Params where
  minIdentityAgeSeconds := 0
  bootstrapThreshold := 10
  bootstrapPhase := true
  webauthnAllowedOrigins := [[1]]
  webauthnRpId := [1]
  maxGuardians := 2
  uvSensitiveMsgTypeUrls := []
  uvLargeTransferUphi := ascii "0"
  recoveryDelaySeconds := 10
  recoveryRequestTtlSeconds := 20
  maxOpenRecoveryRequests := 5
  recoveryDepositUphi := ascii "0"
  reauthRecoveryFeeUphi := ascii "0"
  int64Fields := by decide

def smallIssuer : TrustedIssuer := ⟨ascii "did:phi:issuer", [4, 0], true⟩

def trustIssuer : Action := .registerTrustedIssuer ⟨smallKeeper.authority, smallIssuer⟩

/-- The DID that a small key derives. -/
def smallDID (key : Byte) : Bytes := (deriveDID smallKeeper .secp256r1 [4, key]).getD []

/-- Account `creator` registers the DID of a key. -/
def smallRegister (creator : Bytes) (key : Byte) : Action :=
  .registerIdentity ⟨creator, smallDID key, [4, key], [key], smallIssuer.did, [4, 0], [key],
    [4, key], .secp256r1⟩

end PhiChain.Identity
