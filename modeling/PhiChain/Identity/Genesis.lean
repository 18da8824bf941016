import PhiChain.Identity.Documents
import PhiChain.Institutions.Genesis

/-!
# Identity: genesis

A genesis carries the documents, issuers, guardian sets and pending requests in structured
form and the other keyspaces entry by entry. The import validates the whole state, writes
the documents one after another, which rebuilds the derived keyspaces, and then restores
the entries; of an eligibility record only the stamp is taken over.

`started_of_initGenesis` is what the results about runs need of an accepted genesis.
-/

set_option autoImplicit false

namespace PhiChain.Identity

open Foundations Sdk
open Institutions (checkEach checkEach_ok validateStoreEntry importEntries)

structure GenesisState where
  params : Params
  identities : List DIDDocument
  identityCount : Nat
  trustedIssuers : List TrustedIssuer
  guardianSets : List GuardianSet
  recoveryRequests : List RecoveryRequest
  issuerNonces : List (Bytes × Unit)
  recoveryNonces : List (Bytes × Unit)
  didToValidator : List (Bytes × Bytes)
  validatorToDID : List (Bytes × Bytes)
  guardianEpochs : List (Bytes × Nat)
  recoveryTallyEpochs : List (Bytes × Nat)
  controllerEligibility : List (Bytes × ControllerEligibility)

/-! ## Validation -/

def validateGenesisIdentity (seenDID seenUniq : List Bytes) (d : DIDDocument) : Result Unit := do
  validateDID "genesis identity: " d.did
  ensure (d.did ∉ seenDID) ⟨.unregistered, "duplicate DID in genesis"⟩
  ensure (d.pubKey.length ≠ 0 ∧ d.pubKey.length ≤ maxPubKeyLen)
    ⟨.unregistered, "identity: pub_key length"⟩
  ensure ((accAddressFromBech32 d.controller).isSome = true)
    ⟨.unregistered, "identity: invalid controller address"⟩
  ensure (d.status = .active ∨ d.status = .suspended ∨ d.status = .revoked)
    ⟨.unregistered, "identity: unknown status (must be ACTIVE, SUSPENDED, or REVOKED)"⟩
  ensure ((curveForKeyType d.keyType).isSome = true)
    ⟨.unregistered, "identity: unsupported key_type"⟩
  ensure (d.uniquenessHash.length ≠ 0) ⟨.unregistered, "identity: empty uniqueness marker"⟩
  ensure (d.uniquenessHash.length ≤ maxUniquenessHashLen)
    ⟨.unregistered, "identity: uniqueness marker length exceeds"⟩
  ensure (d.uniquenessHash ∉ seenUniq)
    ⟨.unregistered, "duplicate uniqueness marker in genesis for DID"⟩

def validateGenesisIdentities : List Bytes → List Bytes → List DIDDocument → Result Unit
  | _, _, [] => .ok ()
  | seenDID, seenUniq, d :: rest => do
    validateGenesisIdentity seenDID seenUniq d
    validateGenesisIdentities (d.did :: seenDID) (d.uniquenessHash :: seenUniq) rest

def validateGenesisIssuer (duplicate : Bool) (ti : TrustedIssuer) : Result Unit := do
  validateDID "trusted_issuer: " ti.did
  ensure (duplicate = false) ⟨.unregistered, "duplicate trusted issuer"⟩
  ensure (ti.pubKey.length ≠ 0 ∧ ti.pubKey.length ≤ maxPubKeyLen)
    ⟨.unregistered, "trusted_issuer: pub_key length"⟩

/-- A DID that may hold state that outlives a suspension. -/
def GenesisState.notTerminated (gs : GenesisState) (did : Bytes) : Bool :=
  gs.identities.any fun d => d.did = did ∧ (d.status = .active ∨ d.status = .suspended)

/-- The value listed under a key. -/
def entryFor (key : Bytes) (entries : List (Bytes × Bytes)) : Option Bytes :=
  (entries.find? fun e => e.1 = key).map Prod.snd

def GenesisState.validateBinding (gs : GenesisState) (e : Bytes × Bytes) : Result Unit := do
  ensure (entryFor e.2 gs.validatorToDID = some e.1)
    ⟨.unregistered, "validator binding not bijective"⟩
  ensure (gs.notTerminated e.1 = true)
    ⟨.unregistered, "validator-bound did must exist and not be revoked"⟩

def GenesisState.validateReverseBinding (gs : GenesisState) (e : Bytes × Bytes) : Result Unit :=
  ensure (entryFor e.2 gs.didToValidator = some e.1)
    ⟨.unregistered, "validator binding not bijective"⟩

def GenesisState.validateGuardianSet (gs : GenesisState) (duplicate : Bool) (g : GuardianSet) :
    Result Unit := do
  validateGuardianSetBasic g.did g.commitments g.threshold
  ensure (duplicate = false) ⟨.unregistered, "duplicate guardian set for DID"⟩
  ensure (g.commitments.length ≤ gs.params.maxGuardians)
    ⟨.unregistered, "guardian_sets: guardian count exceeds max_guardians"⟩
  ensure (gs.notTerminated g.did = true)
    ⟨.unregistered, "guardian_sets: protected did must exist and not be revoked"⟩

/-- Each method carries exactly its own authorisation. -/
def validateGenesisMethod (r : RecoveryRequest) : Result Unit :=
  match r.method with
  | .social =>
    ensure (r.attestorDid = [])
      ⟨.unregistered, "recovery_requests: a SOCIAL request must not name an attestor"⟩
  | .reauth => do
    ensure (r.approvals = [])
      ⟨.unregistered, "recovery_requests: a REAUTH request takes no guardian approvals"⟩
    ensure (r.rejections = [])
      ⟨.unregistered, "recovery_requests: a REAUTH request takes no guardian rejections"⟩
    validateDID "recovery_requests: attestor_did: " r.attestorDid
  | .unspecified =>
    .error ⟨.unregistered, "recovery_requests: method must be SOCIAL or REAUTH"⟩

def GenesisState.validateRequest (k : Keeper) (gs : GenesisState) (duplicate : Bool)
    (r : RecoveryRequest) : Result Unit := do
  ensure (r.status = .pending)
    ⟨.unregistered, "recovery_requests: only PENDING requests may be exported"⟩
  validateDID "recovery_requests: " r.did
  ensure (gs.notTerminated r.did = true)
    ⟨.unregistered, "recovery_requests: did must exist and not be revoked"⟩
  ensure ((accAddressFromBech32 r.proposedNewController).isSome = true)
    ⟨.unregistered, "recovery_requests: invalid proposed_new_controller"⟩
  validateLen .invalidRecovery "nonce" maxRecoveryNonceLen r.nonce
  ensure (r.keyType = .secp256r1) ⟨.unregistered, "recovery_requests: key_type is not executable"⟩
  ensure (r.recoveryId.length = recoveryIDLen)
    ⟨.unregistered, "recovery_requests: recovery_id length"⟩
  ensure (r.recoveryId = deriveRecoveryID k r.did r.proposedNewPubKey r.nonce)
    ⟨.unregistered, "recovery_requests: recovery_id is not the canonical derivation"⟩
  ensure (duplicate = false) ⟨.unregistered, "duplicate recovery request id"⟩
  ensure (r.initiatedAt < r.executeAfter ∧ r.executeAfter < r.expiresAt)
    ⟨.unregistered, "recovery_requests: require initiated_at < execute_after < expires_at"⟩
  ensure r.approvals.Nodup ⟨.unregistered, "recovery_requests: duplicate approval"⟩
  ensure r.rejections.Nodup ⟨.unregistered, "recovery_requests: duplicate rejection"⟩
  ensure ((newIntFromString r.depositUphi).isSome = true)
    ⟨.unregistered, "recovery_requests: invalid deposit_uphi"⟩
  ensure ((newIntFromString r.feeUphi).isSome = true)
    ⟨.unregistered, "recovery_requests: invalid fee_uphi"⟩
  validateGenesisMethod r

/-- Number of requests of a DID in the genesis. -/
def GenesisState.openFor (gs : GenesisState) (did : Bytes) : Nat :=
  gs.recoveryRequests.countP fun r => r.did = did

/-- The key of an entry lies strictly under its keyspace. -/
def keyed (key : Bytes) : Bool := key ≠ []

/-- The rule of a counter, on the eight bytes that it is stored in. -/
def counterAccepted (n : Nat) : Bool := isOk (StoreEntry.uint64NoOverflow (bigEndian 8 n))

/-- The rules of the entries, one per keyspace. -/
def GenesisState.validateEntries (gs : GenesisState) : Result Unit := do
  checkEach Prod.fst (validateStoreEntry "store_entries" keyed fun _ => true) [] gs.issuerNonces
  checkEach Prod.fst (validateStoreEntry "store_entries" keyed fun _ => true) [] gs.recoveryNonces
  checkEach Prod.fst (validateStoreEntry "store_entries" keyed
    fun v => (valAddressFromBech32 v).isSome) [] gs.didToValidator
  checkEach Prod.fst (validateStoreEntry "store_entries" keyed
    fun v => isOk (validateDID "" v)) [] gs.validatorToDID
  checkEach Prod.fst (validateStoreEntry "store_entries" keyed counterAccepted) []
    gs.guardianEpochs
  checkEach Prod.fst (validateStoreEntry "store_entries" keyed counterAccepted) []
    gs.recoveryTallyEpochs
  checkEach Prod.fst (validateStoreEntry "store_entries" keyed fun _ => true) []
    gs.controllerEligibility

def GenesisState.validate (k : Keeper) (gs : GenesisState) : Result Unit := do
  gs.params.validate
  validateGenesisIdentities [] [] gs.identities
  ensure (gs.identities.length ≤ gs.identityCount)
    ⟨.unregistered, "identity_count is less than number of identities"⟩
  checkEach TrustedIssuer.did validateGenesisIssuer [] gs.trustedIssuers
  gs.validateEntries
  gs.didToValidator.forM gs.validateBinding
  gs.validatorToDID.forM gs.validateReverseBinding
  checkEach GuardianSet.did gs.validateGuardianSet [] gs.guardianSets
  checkEach RecoveryRequest.recoveryId (gs.validateRequest k) [] gs.recoveryRequests
  ensure (∀ r ∈ gs.recoveryRequests, gs.openFor r.did ≤ gs.params.maxOpenRecoveryRequests)
    ⟨.unregistered, "recovery_requests: did has more than max_open_recovery_requests"⟩

/-! ## Import -/

def importIdentity (env : Env) (s : Store) (d : DIDDocument) : Store :=
  let s := s.setIdentity env d
  { s with uniqueness := s.uniqueness.put d.uniquenessHash d.did }

/-- Give a rebuilt eligibility record the stamp that was exported with it. -/
def restoreEligibleSince (dir : Directory) (e : Bytes × ControllerEligibility) : Directory :=
  if e.2.eligibleSince = 0 then dir
  else
    match dir.eligibility.get? e.1 with
    | none => dir
    | some rebuilt =>
      { dir with eligibility := dir.eligibility.put e.1 ⟨rebuilt.oldest, e.2.eligibleSince⟩ }

/-- The structured part of a genesis, on an empty store. -/
def importRecords (env : Env) (gs : GenesisState) : Store :=
  let s := gs.identities.foldl (importIdentity env) { Store.fresh with params := gs.params }
  let s := { s with
    trustedIssuers := gs.trustedIssuers.foldl KeyedMap.set s.trustedIssuers
    guardians := gs.guardianSets.foldl KeyedMap.set s.guardians }
  gs.recoveryRequests.foldl Store.opened s

/-- The records of a genesis, with the entries restored. -/
def importStore (env : Env) (gs : GenesisState) : Store :=
  let s := importRecords env gs
  { s with
    identityCount := gs.identityCount
    issuerNonces := importEntries s.issuerNonces gs.issuerNonces
    recoveryNonces := importEntries s.recoveryNonces gs.recoveryNonces
    didToValidator := importEntries s.didToValidator gs.didToValidator
    validatorToDID := importEntries s.validatorToDID gs.validatorToDID
    guardianEpochs := importEntries s.guardianEpochs gs.guardianEpochs
    recoveryTallyEpochs := importEntries s.recoveryTallyEpochs gs.recoveryTallyEpochs
    directory := gs.controllerEligibility.foldl restoreEligibleSince s.directory }

/-- Import of a genesis next to the imported bank; a failed check panics. -/
def initGenesis (k : Keeper) (env : Env) (gs : GenesisState) (bank : Bank) : Result World := do
  gs.validate k
  return ⟨bank, importStore env gs⟩

/-! ## What an accepted genesis starts from -/

/-- What the import checked of a request. -/
structure ValidRequest (r : RecoveryRequest) : Prop where
  pending : r.status = .pending
  named : NulFree r.did
  ordered : r.initiatedAt < r.executeAfter ∧ r.executeAfter < r.expiresAt

variable {gs : GenesisState} {k : Keeper}

theorem validRequest_of_validate {d : Bool} {r : RecoveryRequest}
    (h : gs.validateRequest k d r = .ok ()) : d = false ∧ ValidRequest r := by
  simp only [GenesisState.validateRequest, bind_eq_ok, ensure_eq_ok, exists_const] at h
  obtain ⟨hpending, ⟨⟩, hdid, -, -, -, -, -, -, -, hduplicate, hordered, -⟩ := h
  exact ⟨hduplicate, hpending, nulFree_of_validateDID hdid, hordered⟩

/-- A store to start a run from. -/
structure Started (s : Store) : Prop where
  filed : Filed s
  requests : ∀ id r, s.getRecoveryRequest id = some r → ValidRequest r
  window : 0 < s.params.recoveryDelaySeconds ∧
    s.params.recoveryDelaySeconds < s.params.recoveryRequestTtlSeconds

theorem window_of_validate {p : Params} (h : p.validate = .ok ()) :
    0 < p.recoveryDelaySeconds ∧ p.recoveryDelaySeconds < p.recoveryRequestTtlSeconds := by
  simp only [Params.validate, bind_eq_ok, ensure_eq_ok, exists_const] at h
  obtain ⟨-, -, -, -, -, -, -, -, -, -, -, -, -, hdelay, httl, -⟩ := h
  exact ⟨hdelay, httl⟩

theorem foldl_importIdentity_eq (env : Env) (ds : List DIDDocument) (s : Store) :
    ∃ directory uniqueness, ds.foldl (importIdentity env) s =
      { s with
        directory := directory
        uniqueness := uniqueness } := by
  induction ds generalizing s with
  | nil => exact ⟨s.directory, s.uniqueness, rfl⟩
  | cons d rest ih =>
    obtain ⟨directory, uniqueness, heq⟩ := ih (importIdentity env s d)
    exact ⟨directory, uniqueness, heq⟩

/-- Requests written one after another are filed and are all there is. -/
theorem filed_foldl_opened {rs : List RecoveryRequest} {s : Store} (h : Filed s)
    (hnamed : ∀ r ∈ rs, NulFree r.did) (hnodup : (rs.map RecoveryRequest.recoveryId).Nodup)
    (hfresh : ∀ r ∈ rs, s.getRecoveryRequest r.recoveryId = none) :
    Filed (rs.foldl Store.opened s) ∧
      ∀ id r, (rs.foldl Store.opened s).getRecoveryRequest id = some r →
        r ∈ rs ∨ s.getRecoveryRequest id = some r := by
  induction rs generalizing s with
  | nil => exact ⟨h, fun _ _ hget => Or.inr hget⟩
  | cons r rest ih =>
    obtain ⟨hfirst, hrest⟩ := List.nodup_cons.1 hnodup
    have hset : Filed (s.setRecoveryRequest r) := by
      refine filed_set h (hnamed r List.mem_cons_self) fun prev hprev => ?_
      rw [hfresh r List.mem_cons_self] at hprev
      cases hprev
    have hopened : Filed (s.opened r) := filed_congr hset rfl rfl
    have hlookup : ∀ id, (s.opened r).getRecoveryRequest id =
        if r.recoveryId = id then some r else s.getRecoveryRequest id :=
      getRecoveryRequest_set s r
    obtain ⟨hfiled, hall⟩ := ih hopened (fun r' hr' => hnamed r' (List.mem_cons_of_mem _ hr')) hrest
      (by
        intro r' hr'
        rw [hlookup, if_neg ?_]
        · exact hfresh r' (List.mem_cons_of_mem _ hr')
        · intro hid
          exact hfirst (hid ▸ List.mem_map_of_mem hr'))
    refine ⟨hfiled, fun id r' hget => ?_⟩
    rcases hall id r' hget with hmem | hbefore
    · exact Or.inl (List.mem_cons_of_mem _ hmem)
    · rw [hlookup] at hbefore
      split at hbefore
      · cases hbefore
        exact Or.inl List.mem_cons_self
      · exact Or.inr hbefore

theorem opened_params (rs : List RecoveryRequest) (s : Store) :
    (rs.foldl Store.opened s).params = s.params := by
  induction rs generalizing s with
  | nil => rfl
  | cons r rest ih => exact ih (s.opened r)

/-- An accepted genesis starts with the parameters it carries, which are valid. -/
theorem params_of_initGenesis {env : Env} {bank : Bank} {w : World}
    (h : initGenesis k env gs bank = .ok w) :
    w.store.params.validate = .ok () ∧ w.store.params = gs.params := by
  simp only [initGenesis, GenesisState.validate, bind_eq_ok, pure_eq_ok] at h
  obtain ⟨⟨⟩, ⟨⟨⟩, hparams, -⟩, rfl⟩ := h
  obtain ⟨directory, uniqueness, hidentities⟩ := foldl_importIdentity_eq env gs.identities
    { Store.fresh with params := gs.params }
  have hsame : (importRecords env gs).params = gs.params := by
    unfold importRecords
    dsimp only
    rw [opened_params, hidentities]
  have himported : (importStore env gs).params = gs.params := hsame
  exact ⟨himported ▸ hparams, himported⟩

/-- An accepted genesis starts with filed requests in order, which are those it lists. -/
theorem started_of_initGenesis {env : Env} {bank : Bank} {w : World}
    (h : initGenesis k env gs bank = .ok w) :
    Started w.store ∧
      ∀ id r, w.store.getRecoveryRequest id = some r → r ∈ gs.recoveryRequests := by
  have hwindow := window_of_validate (params_of_initGenesis h).1
  simp only [initGenesis, bind_eq_ok, pure_eq_ok] at h
  obtain ⟨⟨⟩, hvalid, rfl⟩ := h
  simp only [GenesisState.validate, bind_eq_ok, ensure_eq_ok, exists_const] at hvalid
  obtain ⟨⟨⟩, -, -, -, -, -, -, -, -, -, -, -, -, -, -, ⟨⟩, hrequests, -⟩ := hvalid
  obtain ⟨heach, hnodup⟩ := checkEach_ok (fun d r hr => (validRequest_of_validate hr).1) hrequests
  have hvalidRequest : ∀ r ∈ gs.recoveryRequests, ValidRequest r := fun r hr =>
    (validRequest_of_validate (heach r hr).1).2
  obtain ⟨directory, uniqueness, hidentities⟩ := foldl_importIdentity_eq env gs.identities
    { Store.fresh with params := gs.params }
  have hrecords : Filed (importRecords env gs) ∧
      ∀ id r, (importRecords env gs).getRecoveryRequest id = some r → r ∈ gs.recoveryRequests := by
    unfold importRecords
    dsimp only
    rw [hidentities]
    obtain ⟨hfiled, hall⟩ := @filed_foldl_opened gs.recoveryRequests _
      (filed_of_empty (s := ⟨gs.params, 0, directory, uniqueness, ∅, ∅,
        gs.trustedIssuers.foldl KeyedMap.set ∅, ∅, gs.guardianSets.foldl KeyedMap.set ∅, ∅, ∅, ∅,
        ∅, ∅⟩) rfl rfl)
      (fun r hr => (hvalidRequest r hr).named) hnodup (fun r _ => rfl)
    refine ⟨hfiled, fun id r hget => ?_⟩
    rcases hall id r hget with hmem | hnone
    · exact hmem
    · cases hnone
  refine ⟨⟨filed_congr hrecords.1 rfl rfl, ?_, hwindow⟩, ?_⟩
  · intro id r hget
    exact hvalidRequest r (hrecords.2 id r hget)
  · intro id r hget
    exact hrecords.2 id r hget

/-! ## A small genesis

Three identities, the second of which is the guardian of the first. -/

/-- A digest of 32 bytes: the columns of the text added up. -/
def columnSums (b : Bytes) : Bytes :=
  b.foldl (fun sums c => sums.tail ++ [sums.headD 0 + c]) (List.replicate 32 0)

def recoveryKeeper : Keeper := { smallKeeper with sha256 := columnSums }

/-- The DID that a small key derives. -/
def recoveryDID (key : Byte) : Bytes := (deriveDID recoveryKeeper .secp256r1 [4, key]).getD []

def recoveryDocument (owner key : Byte) : DIDDocument where
  did := recoveryDID key
  controller := accAddressString [owner]
  pubKey := [4, key]
  uniquenessHash := [key]
  createdAt := 5
  status := .active
  keyType := .secp256r1

def guardianSalt : Bytes := List.replicate 32 9

/-- The commitment to a guardian. -/
def commitmentTo (key : Byte) : Bytes :=
  guardianCommitment recoveryKeeper (recoveryDID key) guardianSalt

def guardedGenesis (params : Params) : GenesisState where
  params := params
  identities := [recoveryDocument 21 1, recoveryDocument 22 2, recoveryDocument 23 3]
  identityCount := 3
  trustedIssuers := []
  guardianSets := [⟨recoveryDID 1, [commitmentTo 2], 1, 5⟩]
  recoveryRequests := []
  issuerNonces := []
  recoveryNonces := []
  didToValidator := []
  validatorToDID := []
  guardianEpochs := []
  recoveryTallyEpochs := []
  controllerEligibility := []

/-- Account `owner` asks for the first DID under a new key. -/
def recoverFirst (owner key : Byte) : Action :=
  .initiateRecovery ⟨accAddressString [owner], recoveryDID 1, [4, key], .secp256r1, .social, [key],
    [4, key], [], []⟩

/-- The request that is asked for with a new key. -/
def firstRequestID (key : Byte) : Bytes :=
  deriveRecoveryID recoveryKeeper (recoveryDID 1) [4, key] [key]

/-- A guardian approves the request of a new key. -/
def approveFirst (owner guardian key : Byte) : Action :=
  .approveRecovery ⟨accAddressString [owner], firstRequestID key, recoveryDID guardian, guardianSalt⟩

def executeFirst (owner key : Byte) : Action :=
  .executeRecovery ⟨accAddressString [owner], firstRequestID key⟩

/-- The authority sets the status of the first DID. -/
def restateFirst (status : DIDStatus) : Action :=
  .updateStatus ⟨accAddressString [5], recoveryDID 1, status⟩

def reparametrise (params : Params) : Action := .updateParams ⟨accAddressString [5], params⟩

theorem initGenesis_of_validate {env : Env} {bank : Bank} (h : isOk (gs.validate k) = true) :
    initGenesis k env gs bank = .ok ⟨bank, importStore env gs⟩ := by
  obtain ⟨⟨⟩, hvalid⟩ := isOk_iff.1 h
  unfold initGenesis
  rw [hvalid]
  rfl

/-- The small genesis is valid. -/
theorem validate_guardedGenesis :
    isOk ((guardedGenesis smallParams).validate recoveryKeeper) = true := by decide +kernel

end PhiChain.Identity
