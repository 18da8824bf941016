import PhiChain.Identity.Store

/-!
# Identity: recovery

A recovery hands a DID to a new key and controller after the old key is lost. A request
is opened with a proof of possession of the new key, collects openings of guardian
commitments or carries an issuer's attestation, waits out the window in which the owner
may cancel it, and is executed by anyone. Expired requests are removed when they are
next touched; while their DID is suspended, requests that were live at the suspension do
not expire.

Deposits move between accounts and are never burned.
-/

set_option autoImplicit false

namespace PhiChain.Identity

open Foundations Sdk

/-- What the identity messages change. -/
structure World where
  bank : Bank
  store : Store

/-! ## Deposits -/

def escrowDeposit (env : Env) (sender : Bytes) (amount : Int) (w : World) : Result World :=
  if 0 < amount then do
    let bank ← Bank.sendCoinsFromAccountToModule env.accounts sender .identity
      (Coin.coinsOf amount) w.bank
    return { w with bank := bank }
  else .ok w

def chargeReauthFee (env : Env) (sender : Bytes) (amount : Int) (w : World) : Result World :=
  if 0 < amount then do
    let bank ← Bank.sendCoinsFromAccountToModule env.accounts sender .feeCollector
      (Coin.coinsOf amount) w.bank
    return { w with bank := bank }
  else .ok w

/-- The deposit of a request when it is a positive amount. -/
def RecoveryRequest.positiveDeposit (r : RecoveryRequest) : Option Int :=
  (newIntFromString r.depositUphi).filter fun amount => 0 < amount

def refundDeposit (env : Env) (r : RecoveryRequest) (w : World) : Result World :=
  match r.positiveDeposit with
  | none => .ok w
  | some amount => do
    let recipient ← orFail (accAddressFromBech32 r.proposedNewController) ⟨.unregistered, ""⟩
    let bank ← Bank.sendCoinsFromModuleToAccount env.accounts .identity recipient
      (Coin.coinsOf amount) w.bank
    return { w with bank := bank }

def forfeitDeposit (env : Env) (r : RecoveryRequest) (w : World) : Result World :=
  match r.positiveDeposit with
  | none => .ok w
  | some amount => do
    let bank ← Bank.sendCoinsFromModuleToModule env.accounts .identity .feeCollector
      (Coin.coinsOf amount) w.bank
    return { w with bank := bank }

/-! ## Lifetime of a request -/

def Store.recoveryFrozenBySuspension (s : Store) (did : Bytes) : Bool :=
  (s.getIdentity did).any fun d => d.status = .suspended

/-- Whether a request is closed; one that has expired is removed on the way. -/
def reapIfExpired (env : Env) (r : RecoveryRequest) (w : World) : Result (Bool × World) :=
  if isTerminalRecoveryStatus r.status then .ok (true, w)
  else if r.frozenAt ≠ 0 ∧ w.store.recoveryFrozenBySuspension r.did then .ok (false, w)
  else if env.blockTime ≤ r.expiresAt then .ok (false, w)
  else do
    let w ← forfeitDeposit env r w
    return (true, { w with store := w.store.deleteRecoveryRequest r })

/-- The request a message names, which must be open. -/
def openRequest (env : Env) (recoveryID : Bytes) (w : World) :
    Result (RecoveryRequest × World) := do
  let r ← orFail (w.store.getRecoveryRequest recoveryID) ⟨.recoveryNotFound, ""⟩
  let reaped ← reapIfExpired env r w
  ensure (reaped.1 = false) ⟨.recoveryNotPending, "status"⟩
  return (r, reaped.2)

/-- Number of open requests of a DID, the expired ones being removed. -/
def countOpenRequests (env : Env) (did : Bytes) (w : World) : Result (Nat × World) :=
  (w.store.recoveryRequestsForDID did).foldlM
    (fun acc r => do
      let reaped ← reapIfExpired env r acc.2
      return (if reaped.1 then acc.1 else acc.1 + 1, reaped.2))
    (0, w)

/-- The stamp a suspension puts on a request that is still live. -/
def RecoveryRequest.freeze (now : Int) (r : RecoveryRequest) : RecoveryRequest :=
  { r with frozenAt := now }

def Store.freezeLiveRecoveries (s : Store) (env : Env) (did : Bytes) : Store :=
  (s.recoveryRequestsForDID did).foldl
    (fun s r =>
      if isTerminalRecoveryStatus r.status ∨ r.frozenAt ≠ 0 ∨ r.expiresAt < env.blockTime then s
      else s.setRecoveryRequest (r.freeze env.blockTime))
    s

/-- A reinstated DID's request gets a new lifetime, and what was left of its window. -/
def RecoveryRequest.thaw (now ttl : Int) (r : RecoveryRequest) : RecoveryRequest :=
  { r with
    executeAfter :=
      if r.frozenAt < r.executeAfter then int64 (now + int64 (r.executeAfter - r.frozenAt))
      else r.executeAfter
    frozenAt := 0
    expiresAt := int64 (now + ttl) }

def Store.thawRecoveries (s : Store) (env : Env) (did : Bytes) : Store :=
  (s.recoveryRequestsForDID did).foldl
    (fun s' r =>
      if r.frozenAt = 0 ∨ isTerminalRecoveryStatus r.status then s'
      else s'.setRecoveryRequest (r.thaw env.blockTime s.params.recoveryRequestTtlSeconds))
    s

/-- Close the open requests of a DID, except those to be kept. -/
def closeRequests (keep : RecoveryRequest → Bool) (env : Env) (did : Bytes) (w : World) :
    Result World :=
  (w.store.recoveryRequestsForDID did).foldlM
    (fun w r =>
      if keep r ∨ isTerminalRecoveryStatus r.status then .ok w
      else do
        let w ← forfeitDeposit env r w
        return { w with store := w.store.deleteRecoveryRequest r })
    w

def supersedeSiblings (env : Env) (did executed : Bytes) (w : World) : Result World :=
  closeRequests (fun r => r.recoveryId = executed) env did w

def terminateRecoveryRequestsForDID (env : Env) (did : Bytes) (w : World) : Result World :=
  closeRequests (fun _ => false) env did w

/-! ## Checks -/

/-- A key must not already certify a registered DID. -/
def assertNoKeyCollision (k : Keeper) (keyType : KeyType) (pubKey : Bytes) (s : Store) :
    Result Unit := do
  ensure (keyType = .secp256r1) ⟨.invalidRecovery, "unsupported key_type"⟩
  let derived ← orFail (deriveDID k .secp256r1 pubKey)
    ⟨.invalidPubKey, "proposed_new_pub_key is not a valid curve point"⟩
  ensure (s.hasIdentity derived = false) ⟨.recoveryKeyCollision, "key derives the registered did"⟩

/-- The signer opens a commitment of the DID's guardian set and controls the guardian. -/
def openGuardianCommitment (k : Keeper) (protectedDID guardianDID salt signer : Bytes)
    (s : Store) : Result Unit := do
  ensure (salt.length = guardianSaltLen) ⟨.invalidGuardians, "salt length"⟩
  let gs ← orFail (s.guardians.get? protectedDID) ⟨.invalidGuardians, "did has no guardian set"⟩
  ensure (gs.hasCommitment (guardianCommitment k guardianDID salt) = true)
    ⟨.notAGuardian, "guardian"⟩
  ensure (guardianDID ≠ protectedDID) ⟨.invalidGuardians, "a DID cannot be its own guardian"⟩
  let doc ← orFail (s.getIdentity guardianDID) ⟨.guardianNotEligible, "guardian does not exist"⟩
  ensure (doc.status = .active) ⟨.guardianNotEligible, "guardian is not ACTIVE"⟩
  ensure (doc.controller = signer)
    ⟨.identityUnauthorized, "signer does not control guardian"⟩

def verifyReauthAttestation (k : Keeper) (env : Env) (msg : MsgInitiateRecovery)
    (doc : DIDDocument) (s : Store) : Result Unit := do
  let attestor ← orFail ((s.trustedIssuers.get? msg.attestorDid).filter TrustedIssuer.active)
    ⟨.issuerNotTrusted, "attestor"⟩
  ensure (k.verifySignature .secp256r1 attestor.pubKey
      (reauthAttestationMessage env.chainID msg.did msg.proposedNewPubKey msg.creator
        doc.uniquenessHash msg.nonce) msg.reauthAttestation = true)
    ⟨.invalidReauthAttestation, "re-auth attestation did not verify"⟩

/-! ## Handlers -/

/-- What stands behind a request: a guardian set, or the attestation of an issuer. -/
def authoriseInitiation (msg : MsgInitiateRecovery) (s : Store) : Result Unit :=
  if msg.method = .reauth then .ok ()
  else ensure (s.guardians.has msg.did = true) ⟨.invalidGuardians, "did has no guardian set"⟩

def reauthAttested (k : Keeper) (env : Env) (msg : MsgInitiateRecovery) (doc : DIDDocument)
    (s : Store) : Result Unit :=
  if msg.method = .reauth then verifyReauthAttestation k env msg doc s else .ok ()

/-- Take the fee of a re-authentication or the deposit of a social recovery. -/
def chargeInitiation (env : Env) (msg : MsgInitiateRecovery) (initiator : Bytes) (w : World) :
    Result World :=
  if msg.method = .reauth then chargeReauthFee env initiator w.store.params.reauthRecoveryFee w
  else escrowDeposit env initiator w.store.params.recoveryDeposit w

/-- The request an initiation opens. -/
def newRequest (env : Env) (msg : MsgInitiateRecovery) (recoveryID : Bytes) (params : Params) :
    RecoveryRequest where
  recoveryId := recoveryID
  did := msg.did
  proposedNewPubKey := msg.proposedNewPubKey
  proposedNewController := msg.creator
  keyType := msg.keyType
  method := msg.method
  approvals := []
  nonce := msg.nonce
  initiatedAt := env.blockTime
  executeAfter := int64 (env.blockTime + params.recoveryDelaySeconds)
  expiresAt := int64 (env.blockTime + params.recoveryRequestTtlSeconds)
  depositUphi := intString (if msg.method = .reauth then 0 else params.recoveryDeposit)
  status := .pending
  attestorDid := msg.attestorDid
  feeUphi := intString (if msg.method = .reauth then params.reauthRecoveryFee else 0)
  rejections := []
  frozenAt := 0

def initiateRecovery (k : Keeper) (env : Env) (msg : MsgInitiateRecovery) (w : World) :
    Result World := do
  let params := w.store.params
  ensure (msg.method = .reauth → k.reauthRecoveryEnabled = true)
    ⟨.reauthNotEnabled, "method REAUTH"⟩
  let doc ← orFail (w.store.getIdentity msg.did) ⟨.identityNotFound, "did"⟩
  ensure (doc.status = .active) ⟨.invalidRecovery, "did is not ACTIVE"⟩
  authoriseInitiation msg w.store
  ensure (msg.proposedNewPubKey ≠ doc.pubKey)
    ⟨.invalidRecovery, "proposed_new_pub_key is already this DID's key"⟩
  assertNoKeyCollision k msg.keyType msg.proposedNewPubKey w.store
  ensure (w.store.recoveryNonces.has (nulKey msg.did msg.nonce) = false)
    ⟨.recoveryNonceReused, "did"⟩
  ensure (k.verifySignature .secp256r1 msg.proposedNewPubKey
      (socialRecoveryPoPMessage env.chainID msg.did msg.proposedNewPubKey msg.creator msg.nonce)
      msg.popSig = true)
    ⟨.invalidPoP, "new-key proof-of-possession did not verify"⟩
  reauthAttested k env msg doc w.store
  let counted ← countOpenRequests env msg.did w
  ensure (counted.1 < params.maxOpenRecoveryRequests)
    ⟨.recoverySlotsFull, "did already has open requests"⟩
  let recoveryID := deriveRecoveryID k msg.did msg.proposedNewPubKey msg.nonce
  ensure (counted.2.store.getRecoveryRequest recoveryID = none)
    ⟨.invalidRecovery, "a request with this id already exists"⟩
  let initiator ← orFail (accAddressFromBech32 msg.creator) ⟨.unregistered, ""⟩
  let charged ← chargeInitiation env msg initiator counted.2
  let s := charged.store.setRecoveryRequest (newRequest env msg recoveryID params)
  return { charged with store :=
    { s with recoveryNonces := s.recoveryNonces.put (nulKey msg.did msg.nonce) () } }

def RecoveryRequest.approvedBy (r : RecoveryRequest) (guardianDID : Bytes) : RecoveryRequest :=
  { r with approvals := r.approvals ++ [guardianDID] }

def RecoveryRequest.rejectedBy (r : RecoveryRequest) (guardianDID : Bytes) : RecoveryRequest :=
  { r with rejections := r.rejections ++ [guardianDID] }

def approveRecovery (k : Keeper) (env : Env) (msg : MsgApproveRecovery) (w : World) :
    Result World := do
  let pending ← openRequest env msg.recoveryId w
  let w := pending.2
  ensure (pending.1.method ≠ .reauth)
    ⟨.invalidRecovery, "a REAUTH recovery takes no guardian approvals"⟩
  openGuardianCommitment k pending.1.did msg.guardianDid msg.salt msg.creator w.store
  let synced := w.store.syncTallyEpoch pending.1
  ensure (msg.guardianDid ∉ synced.1.approvals) ⟨.alreadyApproved, "guardian"⟩
  return { w with store := synced.2.setRecoveryRequest (synced.1.approvedBy msg.guardianDid) }

def rejectRecovery (k : Keeper) (env : Env) (msg : MsgRejectRecovery) (w : World) :
    Result World := do
  let pending ← openRequest env msg.recoveryId w
  let w := pending.2
  ensure (pending.1.method ≠ .reauth)
    ⟨.invalidRecovery, "a REAUTH recovery takes no guardian rejections"⟩
  openGuardianCommitment k pending.1.did msg.guardianDid msg.salt msg.creator w.store
  let synced := w.store.syncTallyEpoch pending.1
  ensure (msg.guardianDid ∉ synced.1.rejections) ⟨.alreadyRejected, "guardian"⟩
  let req := synced.1.rejectedBy msg.guardianDid
  let w := { w with store := synced.2 }
  let gs ← orFail (w.store.guardians.get? req.did) ⟨.invalidGuardians, "did has no guardian set"⟩
  if gs.threshold ≤ req.rejections.length then
    let w ← forfeitDeposit env req w
    return { w with store := w.store.deleteRecoveryRequest req }
  else
    return { w with store := w.store.setRecoveryRequest req }

/-- A social recovery needs the guardian threshold of approvals that still count. -/
def authoriseExecution (req : RecoveryRequest) (s : Store) : Result Unit :=
  if req.method ≠ .reauth then do
    let gs ← orFail (s.guardians.get? req.did) ⟨.invalidGuardians, "did has no guardian set"⟩
    ensure (gs.threshold ≤ (s.effectiveApprovals req).length)
      ⟨.recoveryBelowQuorum, "approvals, threshold"⟩
  else .ok ()

/-- The document an executed request leaves: key, curve and controller are new, identity,
creation time and status are kept. -/
def DIDDocument.recovered (doc : DIDDocument) (req : RecoveryRequest) : DIDDocument :=
  { doc with
    pubKey := req.proposedNewPubKey
    keyType := req.keyType
    controller := req.proposedNewController }

def executeRecovery (k : Keeper) (env : Env) (msg : MsgExecuteRecovery) (w : World) :
    Result World := do
  let pending ← openRequest env msg.recoveryId w
  let req := pending.1
  let w := pending.2
  ensure (req.executeAfter ≤ env.blockTime) ⟨.recoveryTooEarly, "execute_after, now"⟩
  authoriseExecution req w.store
  let doc ← orFail (w.store.getIdentity req.did) ⟨.identityNotFound, "did"⟩
  ensure (doc.status = .active) ⟨.invalidRecovery, "did is not ACTIVE"⟩
  assertNoKeyCollision k req.keyType req.proposedNewPubKey w.store
  let w := { w with store := w.store.setIdentity env (doc.recovered req) }
  let w ← refundDeposit env req w
  let w := { w with store := w.store.deleteRecoveryRequest req }
  supersedeSiblings env req.did req.recoveryId w

def cancelRecovery (env : Env) (msg : MsgCancelRecovery) (w : World) : Result World := do
  let pending ← openRequest env msg.recoveryId w
  let req := pending.1
  let w := pending.2
  let doc ← orFail (w.store.getIdentity req.did) ⟨.identityNotFound, "did"⟩
  ensure (msg.creator = doc.controller)
    ⟨.identityUnauthorized, "only the current controller may cancel a recovery"⟩
  let w ← forfeitDeposit env req w
  return { w with store := w.store.deleteRecoveryRequest req }

end PhiChain.Identity
