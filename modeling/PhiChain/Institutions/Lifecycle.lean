import PhiChain.Institutions.Redeem
import PhiChain.Institutions.Rbac

/-!
# Institutions: registry, attestations and parameters

Registration and removal of institutions, reserve attestations, freezing, module
parameters, the emergency brake and fx onboarding. Removal is in two phases: the
single records go at once, and the id stays queued until `Sweeps` has drained its
ranged records.
-/

set_option autoImplicit false

namespace PhiChain.Institutions

open Foundations Sdk

variable {D : Type} [LinearOrder D]

/-! ## Registry -/

/-- Governance always, and the operator while the bootstrap phase lasts. -/
def canManageRegistry (k : Keeper D) (ctx : Ctx) (s : Store D) (signer : Bytes) : Prop :=
  signer = k.authority ∨
    (ctx.bootstrapPhase = true ∧ s.params.operator ≠ [] ∧ signer = s.params.operator)

instance (k : Keeper D) (ctx : Ctx) (s : Store D) (signer : Bytes) :
    Decidable (canManageRegistry k ctx s signer) :=
  inferInstanceAs (Decidable (_ ∨ _))

/-- Record of an institution at registration: empty vault, attestation clock started. -/
def newInstitution (id admin : Bytes) (instType : InstitutionType) (now : Int) : Institution where
  id := id
  admin := admin
  status := .healthy
  vaultBalance := 0
  attestedReserve := 0
  pausedMint := false
  appConfig := []
  params := InstitutionParams.unset
  institutionType := instType
  depositPubkey := []
  lastAttestedAt := now

structure MsgRegisterInstitution where
  operator : Bytes
  id : Bytes
  admin : Bytes
  institutionType : InstitutionType

def registerInstitution (k : Keeper D) (ctx : Ctx) (msg : MsgRegisterInstitution) (s : Store D) :
    Result (Store D) := do
  ensure (canManageRegistry k ctx s msg.operator)
    ⟨.unauthorized, "only operator (bootstrap) or governance may register institutions"⟩
  ensure (msg.id ≠ []) ⟨.institutionNotFound, "id cannot be empty"⟩
  ensure (msg.id.length ≤ maxInstitutionIDLen) ⟨.idTooLong, "id length"⟩
  ensure (s.institutions.has msg.id = false) ⟨.institutionExists, "id"⟩
  ensure (s.hasPendingRemoval msg.id = false) ⟨.removalInProgress, "id is mid-removal"⟩
  ensure (msg.institutionType = .financial ∨ msg.institutionType = .fx)
    ⟨.invalidInstitutionType, "institution_type"⟩
  return s.setInstitution (newInstitution msg.id msg.admin msg.institutionType ctx.blockTime)

variable {ctx : Ctx} {k : Keeper D} {s s' : Store D}

theorem registerInstitution_ok {msg : MsgRegisterInstitution}
    (h : registerInstitution k ctx msg s = .ok s') :
    msg.id.length ≤ maxInstitutionIDLen ∧ s.institutions.has msg.id = false ∧
      s.hasPendingRemoval msg.id = false ∧
      s' = s.setInstitution (newInstitution msg.id msg.admin msg.institutionType ctx.blockTime) := by
  simp only [registerInstitution, bind_eq_ok, ensure_eq_ok, pure_eq_ok, exists_const] at h
  obtain ⟨-, -, hlen, hnew, hpending, -, rfl⟩ := h
  exact ⟨hlen, hnew, hpending, rfl⟩

structure MsgRemoveInstitution where
  operator : Bytes
  id : Bytes

/-- The record, the admin epoch and the attestor go at once. -/
def removeInstitutionSingleRecords (s : Store D) (id : Bytes) : Store D :=
  { s with
    institutions := s.institutions.erase id
    adminEpochs := s.adminEpochs.erase id
    lastAttestors := s.lastAttestors.erase id }

def enqueueRemoval (s : Store D) (id : Bytes) : Store D :=
  { s with removalQueue := s.removalQueue.put (removalQueueKey id) 0x01 }

def dequeueRemoval (s : Store D) (id : Bytes) : Store D :=
  { s with removalQueue := s.removalQueue.erase (removalQueueKey id) }

def removeInstitution (k : Keeper D) (ctx : Ctx) (msg : MsgRemoveInstitution) (s : Store D) :
    Result (Store D) := do
  ensure (canManageRegistry k ctx s msg.operator)
    ⟨.unauthorized, "only operator (bootstrap) or governance may remove institutions"⟩
  let inst ← orFail (s.getInstitution msg.id) ⟨.institutionNotFound, "id"⟩
  ensure (inst.vaultBalance = 0) ⟨.vaultNotEmpty, "vault_balance"⟩
  return enqueueRemoval (removeInstitutionSingleRecords s msg.id) msg.id

theorem removeInstitution_ok {msg : MsgRemoveInstitution}
    (h : removeInstitution k ctx msg s = .ok s') :
    ∃ inst, s.getInstitution msg.id = some inst ∧ inst.vaultBalance = 0 ∧
      s' = enqueueRemoval (removeInstitutionSingleRecords s msg.id) msg.id := by
  simp only [removeInstitution, bind_eq_ok, ensure_eq_ok, orFail_eq_ok, pure_eq_ok,
    exists_const] at h
  obtain ⟨-, inst, hinst, hempty, rfl⟩ := h
  exact ⟨inst, hinst, hempty, rfl⟩

structure MsgFreezeInstitution where
  operator : Bytes
  id : Bytes
  frozen : Bool

def freezeInstitution (k : Keeper D) (ctx : Ctx) (msg : MsgFreezeInstitution) (s : Store D) :
    Result (Store D) := do
  ensure (canManageRegistry k ctx s msg.operator)
    ⟨.unauthorized, "only operator (bootstrap) or governance may freeze institutions"⟩
  let inst ← orFail (s.getInstitution msg.id) ⟨.institutionNotFound, "id"⟩
  return s.setInstitution { inst with status := if msg.frozen then .frozen else .healthy }

theorem freezeInstitution_ok {msg : MsgFreezeInstitution}
    (h : freezeInstitution k ctx msg s = .ok s') :
    ∃ inst status, s.getInstitution inst.id = some inst ∧
      s' = s.setInstitution { inst with status := status } := by
  simp only [freezeInstitution, bind_eq_ok, ensure_eq_ok, orFail_eq_ok, pure_eq_ok,
    exists_const] at h
  obtain ⟨-, inst, hinst, rfl⟩ := h
  exact ⟨inst, _, Store.getInstitution_self hinst, rfl⟩

/-! ## Attestations -/

structure MsgPublishInstitutionAttestation where
  admin : Bytes
  institution : Bytes
  attestedReserve : Bytes

/-- Health status after an attestation; a paused or frozen institution keeps its own. -/
def attestedStatus (inst : Institution) (reserve : Int) : InstitutionStatus :=
  if inst.pausedMint = false ∧ inst.status ≠ .frozen then
    if reserve < inst.vaultBalance then .lowLiq else .healthy
  else inst.status

/-- Only the compliance role may attest, and the attestor is recorded. -/
def publishInstitutionAttestation (ctx : Ctx) (msg : MsgPublishInstitutionAttestation)
    (s : Store D) : Result (Store D) := do
  let inst ← orFail (s.getInstitution msg.institution) ⟨.institutionNotFound, "id"⟩
  s.requireRole inst msg.admin [.compliance]
  let reserve ← orFail (newIntFromString msg.attestedReserve) ⟨.invalidAmount, "attested_reserve"⟩
  ensure (0 ≤ reserve) ⟨.invalidAmount, "attested_reserve"⟩
  let attestor ← orFail (accAddressFromBech32 msg.admin) ⟨.invalidAddress, "admin"⟩
  let inst' := { inst with
    attestedReserve := reserve
    lastAttestedAt := ctx.blockTime
    status := attestedStatus inst reserve }
  return (s.setLastAttestor inst.id attestor).setInstitution inst'

/-- An attestation comes from an account whose role is COMPLIANCE. -/
theorem publishInstitutionAttestation_ok {msg : MsgPublishInstitutionAttestation}
    (h : publishInstitutionAttestation ctx msg s = .ok s') :
    ∃ inst attestor reserve status, s.getInstitution inst.id = some inst ∧
      (attestor ≠ [] ∧ s.effectiveRole inst attestor = .compliance) ∧
      s' = (s.setLastAttestor inst.id attestor).setInstitution { inst with
        attestedReserve := reserve
        lastAttestedAt := ctx.blockTime
        status := status } := by
  simp only [publishInstitutionAttestation, Store.requireRole, bind_eq_ok, ensure_eq_ok,
    orFail_eq_ok, pure_eq_ok, exists_const] at h
  obtain ⟨inst, hinst, ⟨signer, hsigner, hrole⟩, reserve, -, -, attestor, hattestor, rfl⟩ := h
  obtain rfl : signer = attestor := Option.some.inj (hsigner.symm.trans hattestor)
  exact ⟨inst, signer, reserve, _, Store.getInstitution_self hinst,
    ⟨accAddressFromBech32_ne_nil hsigner, List.mem_singleton.1 hrole⟩, rfl⟩

/-! ## Module parameters -/

/-- Store parameters after validation. The rate may not change while a vault holds balance. -/
def setParams (p : Params) (s : Store D) : Result (Store D) :=
  match h : p.validate with
  | .error e => .error e
  | .ok () => do
    ensure (¬ (s.params.phiToToman ≠ p.phiToToman ∧ 0 < s.sumVaultBalance))
      ⟨.invalidParams, "phi_to_toman is immutable while vault balances are non-zero"⟩
    return { s with params := ⟨p, h⟩ }

/-- A stored rate differs from the one before only while no vault is backed. -/
theorem setParams_ok {p : Params} (h : setParams p s = .ok s') :
    ∃ hv : p.validate = .ok (), s' = { s with params := ⟨p, hv⟩ } ∧
      (p.phiToToman = s.params.phiToToman ∨ ¬ 0 < s.sumVaultBalance) := by
  unfold setParams at h
  split at h
  · cases h
  · rename_i hv
    simp only [bind_eq_ok, ensure_eq_ok, pure_eq_ok, exists_const] at h
    obtain ⟨hfrozen, rfl⟩ := h
    refine ⟨hv, rfl, ?_⟩
    rcases eq_or_ne p.phiToToman s.params.phiToToman with hsame | hother
    · exact .inl hsame
    · exact .inr fun hbacked => hfrozen ⟨hother.symm, hbacked⟩

structure MsgUpdateParams where
  authority : Bytes
  params : Params

def updateParams (k : Keeper D) (ctx : Ctx) (msg : MsgUpdateParams) (s : Store D) :
    Result (Store D) := do
  ensure (msg.authority = k.authority) ⟨.invalidSigner, "expected authority"⟩
  ensure (validAddressOrEmpty msg.params.penaltyDestination) ⟨.invalidParams, "penalty_destination"⟩
  ensure (∀ dest ∈ accAddressFromBech32 msg.params.penaltyDestination,
      msg.params.penaltyDestination ≠ [] → ctx.accounts.blockedAddr dest = false)
    ⟨.invalidParams, "penalty_destination is a blocked address"⟩
  setParams msg.params s

theorem updateParams_ok {msg : MsgUpdateParams}
    (h : updateParams k ctx msg s = .ok s') : setParams msg.params s = .ok s' := by
  simp only [updateParams, bind_eq_ok, ensure_eq_ok, exists_const] at h
  exact h.2.2.2

structure MsgSetEmergencyRedemption where
  authority : Bytes
  active : Bool
  capBeforeDay30 : Bytes
  capFromDay30 : Bytes
  capFromDay60 : Bytes

def defaultIfEmpty (v dflt : Bytes) : Bytes := if v = [] then dflt else v

/-- The start is stamped only for a genuinely fresh emergency. -/
def nextEmergency (em : EmergencyRedemption) (now : Int) (msg : MsgSetEmergencyRedemption) :
    EmergencyRedemption :=
  if msg.active then
    { active := true
      startedAt :=
        if em.startedAt = 0 ∨ (em.active = false ∧ emergencyDay90 ≤ now - em.startedAt) then now
        else em.startedAt
      capBeforeDay30 := msg.capBeforeDay30
      capFromDay30 := defaultIfEmpty msg.capFromDay30 defaultEmergencyCapFromDay30Toman
      capFromDay60 := defaultIfEmpty msg.capFromDay60 defaultEmergencyCapFromDay60Toman }
  else { em with active := false }

/-- The source subtracts in 64 bits, which at times from 1970 on gives the same number. -/
theorem emergency_elapsed_fits {em : EmergencyRedemption} {now : Int} (hem : 0 ≤ em.startedAt)
    (hem' : InInt64 em.startedAt) (hnow : 0 ≤ now) (hnow' : InInt64 now) :
    int64 (now - em.startedAt) = now - em.startedAt := by
  refine int64_of_inInt64 ?_
  unfold InInt64 at *
  omega

def setEmergencyRedemption (k : Keeper D) (ctx : Ctx) (msg : MsgSetEmergencyRedemption)
    (s : Store D) : Result (Store D) := do
  ensure (msg.authority = k.authority) ⟨.invalidSigner, "expected authority"⟩
  let em := nextEmergency s.params.emergencyRedemption ctx.blockTime msg
  setParams { s.params.toParams with emergencyRedemption := em } s

theorem setEmergencyRedemption_ok {msg : MsgSetEmergencyRedemption}
    (h : setEmergencyRedemption k ctx msg s = .ok s') :
    ∃ p, setParams p s = .ok s' := by
  simp only [setEmergencyRedemption, bind_eq_ok, ensure_eq_ok, exists_const] at h
  exact ⟨_, h.2⟩

/-! ## Fx onboarding -/

def isActiveFinancialGuarantor (inst : Institution) : Bool :=
  (inst.institutionType = .financial ∨ inst.institutionType = .unspecified) ∧ inst.status ≠ .frozen

/-- The guarantor named by an id, when it may guarantee. -/
def activeGuarantor (s : Store D) (id : Bytes) : Result Institution := do
  let inst ← orFail (s.getInstitution id) ⟨.guarantorRequired, "not an active financial institution"⟩
  ensure (isActiveFinancialGuarantor inst = true)
    ⟨.guarantorRequired, "not an active financial institution"⟩
  return inst

structure MsgRequestFxEntry where
  applicant : Bytes
  fxId : Bytes
  guarantorId : Bytes

def requestFxEntry (msg : MsgRequestFxEntry) (s : Store D) : Result (Store D) := do
  ensure (msg.fxId ≠ []) ⟨.fxOnboarding, "fx_id must not be empty"⟩
  ensure (msg.fxId.length ≤ maxInstitutionIDLen) ⟨.idTooLong, "fx_id length"⟩
  ensure (s.institutions.has msg.fxId = false) ⟨.institutionExists, "id already registered"⟩
  ensure (s.hasPendingRemoval msg.fxId = false) ⟨.removalInProgress, "fx_id is mid-removal"⟩
  ensure (s.fxRequests.has msg.fxId = false) ⟨.fxOnboarding, "fx_id already has a pending request"⟩
  let _ ← activeGuarantor s msg.guarantorId
  let req : FxEntryRequest := ⟨msg.applicant, msg.guarantorId, .requested⟩
  return { s with fxRequests := s.fxRequests.put msg.fxId req }

theorem requestFxEntry_ok {msg : MsgRequestFxEntry}
    (h : requestFxEntry msg s = .ok s') : msg.fxId.length ≤ maxInstitutionIDLen ∧
      ∃ req, s' = { s with fxRequests := s.fxRequests.put msg.fxId req } := by
  simp only [requestFxEntry, bind_eq_ok, ensure_eq_ok, pure_eq_ok, exists_const] at h
  obtain ⟨-, hlen, -, -, -, -, -, rfl⟩ := h
  exact ⟨hlen, _, rfl⟩

structure MsgGuaranteeFxEntry where
  guarantorAdmin : Bytes
  fxId : Bytes
  approve : Bool

/-- The guarantor approves, or declines and clears the request. -/
def guaranteeFxEntry (msg : MsgGuaranteeFxEntry) (s : Store D) : Result (Store D) := do
  let req ← orFail (s.fxRequests.get? msg.fxId) ⟨.fxOnboarding, "no request for fx_id"⟩
  ensure (req.status = .requested) ⟨.fxOnboarding, "not awaiting a guarantee"⟩
  let guarantor ← activeGuarantor s req.guarantorId
  s.requireRole guarantor msg.guarantorAdmin [.admin, .operator]
  if msg.approve then
    return { s with fxRequests := s.fxRequests.put msg.fxId { req with status := .guaranteed } }
  else
    return { s with fxRequests := s.fxRequests.erase msg.fxId }

theorem guaranteeFxEntry_ok {msg : MsgGuaranteeFxEntry}
    (h : guaranteeFxEntry msg s = .ok s') : s.fxRequests.has msg.fxId = true ∧
      ((∃ req, s' = { s with fxRequests := s.fxRequests.put msg.fxId req }) ∨
        s' = { s with fxRequests := s.fxRequests.erase msg.fxId }) := by
  simp only [guaranteeFxEntry, bind_eq_ok, ensure_eq_ok, orFail_eq_ok, exists_const] at h
  obtain ⟨req, hreq, -, guarantor, -, ⟨⟩, -, h⟩ := h
  refine ⟨OrdMap.has_iff.2 ⟨req, hreq⟩, ?_⟩
  split at h
  · cases h
    exact .inl ⟨_, rfl⟩
  · cases h
    exact .inr rfl

structure MsgFinalizeFxEntry where
  operator : Bytes
  fxId : Bytes
  proposalId : Nat

/-- A passed proposal that names the fx id. -/
def requirePassedProposalFor (ctx : Ctx) (proposalID : Nat) (fxID : Bytes) : Result Unit := do
  ensure (proposalID ≠ 0)
    ⟨.fxOnboarding, "a passed proposal_id is required outside the bootstrap phase"⟩
  let prop ← orFail (ctx.proposal proposalID) ⟨.fxOnboarding, "proposal not found"⟩
  ensure (prop.passed = true) ⟨.fxOnboarding, "proposal has not passed"⟩
  ensure (fxID ∈ prop.finalizes) ⟨.fxOnboarding, "proposal does not authorize onboarding fx_id"⟩

/-- Onboarding by the operator in bootstrap, by governance, or on a passed proposal. -/
def finalizeFxEntry (k : Keeper D) (ctx : Ctx) (msg : MsgFinalizeFxEntry) (s : Store D) :
    Result (Store D) := do
  ensure ((s.params.operator ≠ [] ∧ msg.operator = s.params.operator) ∨ msg.operator = k.authority)
    ⟨.unauthorized, "only the operator or governance may finalize fx onboarding"⟩
  let req ← orFail (s.fxRequests.get? msg.fxId) ⟨.fxOnboarding, "no request for fx_id"⟩
  ensure (req.status = .guaranteed) ⟨.fxOnboarding, "request is not guaranteed yet"⟩
  ensure (s.institutions.has msg.fxId = false) ⟨.institutionExists, "id already registered"⟩
  ensure (s.hasPendingRemoval msg.fxId = false) ⟨.removalInProgress, "fx_id is mid-removal"⟩
  if ctx.bootstrapPhase = true ∨ msg.operator = k.authority then .ok ()
  else requirePassedProposalFor ctx msg.proposalId msg.fxId
  let s := s.setInstitution (newInstitution msg.fxId req.applicant .fx ctx.blockTime)
  return { s with fxRequests := s.fxRequests.erase msg.fxId }

/-- An fx onboarding uses up its request and registers the institution for the applicant. -/
theorem finalizeFxEntry_request {msg : MsgFinalizeFxEntry}
    (h : finalizeFxEntry k ctx msg s = .ok s') :
    ∃ req, s.fxRequests.get? msg.fxId = some req ∧
      s.institutions.has msg.fxId = false ∧ s.hasPendingRemoval msg.fxId = false ∧
      s' = { s.setInstitution (newInstitution msg.fxId req.applicant .fx ctx.blockTime) with
        fxRequests := s.fxRequests.erase msg.fxId } := by
  simp only [finalizeFxEntry, bind_eq_ok, ensure_eq_ok, orFail_eq_ok, exists_const] at h
  obtain ⟨-, req, hreq, -, hnew, hidle, h⟩ := h
  refine ⟨req, hreq, hnew, hidle, ?_⟩
  split at h
  · obtain ⟨⟨⟩, -, h⟩ := bind_eq_ok.1 h
    cases h
    rfl
  · obtain ⟨⟨⟩, -, h⟩ := bind_eq_ok.1 h
    cases h
    rfl

theorem finalizeFxEntry_ok {msg : MsgFinalizeFxEntry} (h : finalizeFxEntry k ctx msg s = .ok s') :
    s.fxRequests.has msg.fxId = true ∧ s.institutions.has msg.fxId = false ∧
      s.hasPendingRemoval msg.fxId = false ∧
      ∃ applicant, s' = { s.setInstitution (newInstitution msg.fxId applicant .fx ctx.blockTime) with
        fxRequests := s.fxRequests.erase msg.fxId } := by
  obtain ⟨req, hreq, hnew, hidle, hstore⟩ := finalizeFxEntry_request h
  exact ⟨OrdMap.has_iff.2 ⟨req, hreq⟩, hnew, hidle, req.applicant, hstore⟩

end PhiChain.Institutions
