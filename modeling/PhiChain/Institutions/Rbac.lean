import PhiChain.Institutions.Store

/-!
# Institutions: sensitive actions

The five messages that share the aggregated-approval multisig. Each records the
signer's approval against a content hash and takes effect once the threshold is
reached; below it, the approval stays and nothing else changes.

Granting ADMIN and revoking from an ADMIN advance the institution's admin epoch,
which retires every other pending approval.
-/

set_option autoImplicit false

namespace PhiChain.Institutions

open Foundations Sdk

variable {D : Type} [LinearOrder D]

structure MsgGrantInstitutionRole where
  signer : Bytes
  institution : Bytes
  grantee : Bytes
  role : InstitutionRole

structure MsgRevokeInstitutionRole where
  signer : Bytes
  institution : Bytes
  grantee : Bytes

structure MsgUpdateInstitutionAppConfig where
  signer : Bytes
  institution : Bytes
  config : Bytes

structure MsgUpdateInstitutionParams where
  signer : Bytes
  institution : Bytes
  params : InstitutionParams

structure MsgSetInstitutionDepositKey where
  signer : Bytes
  institution : Bytes
  depositPubkey : Bytes

/-- Sensitive messages. -/
inductive SensitiveMsg where
  | grant (msg : MsgGrantInstitutionRole)
  | revoke (msg : MsgRevokeInstitutionRole)
  | appConfig (msg : MsgUpdateInstitutionAppConfig)
  | params (msg : MsgUpdateInstitutionParams)
  | depositKey (msg : MsgSetInstitutionDepositKey)

namespace SensitiveMsg

def signer : SensitiveMsg → Bytes
  | grant m => m.signer
  | revoke m => m.signer
  | appConfig m => m.signer
  | params m => m.signer
  | depositKey m => m.signer

def institution : SensitiveMsg → Bytes
  | grant m => m.institution
  | revoke m => m.institution
  | appConfig m => m.institution
  | params m => m.institution
  | depositKey m => m.institution

/-- Parts of the content hash; the first names the action. -/
def contentParts (k : Keeper D) : SensitiveMsg → List Bytes
  | grant m => [ascii "grant", m.institution, m.grantee, roleBytes m.role]
  | revoke m => [ascii "revoke", m.institution, m.grantee]
  | appConfig m => [ascii "appconfig", m.institution, m.config]
  | params m => [ascii "params", m.institution, k.marshalParams m.params]
  | depositKey m => [ascii "depositkey", m.institution, m.depositPubkey]

def contentHash (k : Keeper D) (msg : SensitiveMsg) : D := k.contentHashOf (msg.contentParts k)

/-- Stateless checks of the five messages. -/
def validateBasic (msg : SensitiveMsg) : Result Unit := do
  ensure ((accAddressFromBech32 msg.signer).isSome) ⟨.invalidAddress, "invalid signer"⟩
  match msg with
  | grant m => ensure ((accAddressFromBech32 m.grantee).isSome) ⟨.invalidAddress, "invalid grantee"⟩
  | revoke m => ensure ((accAddressFromBech32 m.grantee).isSome) ⟨.invalidAddress, "invalid grantee"⟩
  | _ => .ok ()
  ensure (msg.institution ≠ []) ⟨.institutionNotFound, "institution cannot be empty"⟩
  match msg with
  | grant m => ensure (m.role ≠ .unspecified) ⟨.invalidRole, "role"⟩
  | params m => m.params.validate
  | depositKey m =>
    ensure (m.depositPubkey.length = 0 ∨ m.depositPubkey.length = 33 ∨ m.depositPubkey.length = 65)
      ⟨.invalidDepositProof, "deposit_pubkey must be 33 or 65 bytes"⟩
  | _ => .ok ()

end SensitiveMsg

/-- No redeem cap below the floor, no staleness limit above the protocol's. -/
def validateParamsTightenOnly (s : Store D) (p : InstitutionParams) : Result Unit := do
  ensure ((p.redeemCapsBelowFloor (capInt s.params.redeemFloorPerTx)).isNone)
    ⟨.looserThanFloor, "redeem cap < floor"⟩
  ensure (0 < s.params.maxAttestationStalenessSeconds →
      p.maxVaultAttestationLatencyS ≤ s.params.maxAttestationStalenessSeconds)
    ⟨.looserThanFloor, "max_vault_attestation_latency_s"⟩

/-- Granting ADMIN changes the admin set and advances its epoch. -/
def executeGrant (s : Store D) (inst : Institution) (grantee : Bytes) (role : InstitutionRole)
    (ch : D) : Store D :=
  let s := (s.setRole inst.id grantee role).clearApprovals inst.id ch
  if role = .admin then s.bumpAdminEpoch inst.id else s

/-- Revoking from an ADMIN shrinks the admin set and advances its epoch. -/
def executeRevoke (s : Store D) (inst : Institution) (grantee : Bytes) (ch : D) : Store D :=
  let wasAdmin := s.getRole inst.id grantee = .admin
  let s := (s.deleteRole inst.id grantee).clearApprovals inst.id ch
  if wasAdmin then s.bumpAdminEpoch inst.id else s

/-- Replace an institution's record and use up the approvals. -/
def executeRecord (s : Store D) (inst : Institution) (ch : D) : Store D :=
  (s.setInstitution inst).clearApprovals inst.id ch

/-- Effect of a sensitive message that reached its threshold. -/
def executeSensitive (k : Keeper D) (msg : SensitiveMsg) (inst : Institution) (s : Store D) :
    Result (Store D) :=
  let ch := msg.contentHash k
  match msg with
  | .grant m => do
    let grantee ← orFail (accAddressFromBech32 m.grantee) ⟨.invalidAddress, "grantee"⟩
    return executeGrant s inst grantee m.role ch
  | .revoke m => do
    let grantee ← orFail (accAddressFromBech32 m.grantee) ⟨.invalidAddress, "grantee"⟩
    return executeRevoke s inst grantee ch
  | .appConfig m => .ok (executeRecord s { inst with appConfig := m.config } ch)
  | .params m => .ok (executeRecord s { inst with params := m.params } ch)
  | .depositKey m => .ok (executeRecord s { inst with depositPubkey := m.depositPubkey } ch)

theorem executeGrant_frame (s : Store D) (inst : Institution) (grantee : Bytes)
    (role : InstitutionRole) (ch : D) : ∃ epochs, executeGrant s inst grantee role ch =
      { s with
        roles := s.roles.put ⟨inst.id, grantee⟩ role
        approvals := (s.clearApprovals inst.id ch).approvals
        adminEpochs := epochs } := by
  unfold executeGrant
  dsimp only
  split
  · exact ⟨_, rfl⟩
  · exact ⟨_, rfl⟩

theorem executeRevoke_frame (s : Store D) (inst : Institution) (grantee : Bytes) (ch : D) :
    ∃ epochs, executeRevoke s inst grantee ch =
      { s with
        roles := s.roles.erase ⟨inst.id, grantee⟩
        approvals := (s.clearApprovals inst.id ch).approvals
        adminEpochs := epochs } := by
  unfold executeRevoke
  dsimp only
  split
  · exact ⟨_, rfl⟩
  · exact ⟨_, rfl⟩

/-- An executed message writes roles, approvals and epochs, or the record of its institution with
the vault as it was. -/
theorem executeSensitive_frame {k : Keeper D} {msg : SensitiveMsg} {inst : Institution}
    {s s' : Store D} (h : executeSensitive k msg inst s = .ok s') :
    (∃ roles approvals adminEpochs, s' = { s with roles, approvals, adminEpochs }) ∨
      ∃ record : Institution, record.id = inst.id ∧ record.vaultBalance = inst.vaultBalance ∧
        s' = executeRecord s record (msg.contentHash k) := by
  cases msg with
  | grant m =>
    simp only [executeSensitive, bind_eq_ok, orFail_eq_ok, pure_eq_ok] at h
    obtain ⟨grantee, -, rfl⟩ := h
    obtain ⟨epochs, hframe⟩ := executeGrant_frame s inst grantee m.role
      (SensitiveMsg.contentHash k (.grant m))
    exact .inl ⟨_, _, epochs, hframe⟩
  | revoke m =>
    simp only [executeSensitive, bind_eq_ok, orFail_eq_ok, pure_eq_ok] at h
    obtain ⟨grantee, -, rfl⟩ := h
    obtain ⟨epochs, hframe⟩ := executeRevoke_frame s inst grantee
      (SensitiveMsg.contentHash k (.revoke m))
    exact .inl ⟨_, _, epochs, hframe⟩
  | appConfig m =>
    cases h
    exact .inr ⟨{ inst with appConfig := m.config }, rfl, rfl, rfl⟩
  | params m =>
    cases h
    exact .inr ⟨{ inst with params := m.params }, rfl, rfl, rfl⟩
  | depositKey m =>
    cases h
    exact .inr ⟨{ inst with depositPubkey := m.depositPubkey }, rfl, rfl, rfl⟩

/-- Check made before approvals are aggregated: only parameters have one. -/
def sensitivePrecheck (s : Store D) : SensitiveMsg → Result Unit
  | .params m => validateParamsTightenOnly s m.params
  | _ => .ok ()

/-- Handler of the five sensitive messages. -/
def sensitiveAction (k : Keeper D) (msg : SensitiveMsg) (s : Store D) :
    Result (SensitiveResult × Store D) := do
  let inst ← orFail (s.getInstitution msg.institution) ⟨.institutionNotFound, "id"⟩
  sensitivePrecheck s msg
  let (r, s) ← trySensitive s inst msg.signer (msg.contentHash k)
  if r.executed then
    let s ← executeSensitive k msg inst s
    return (r, s)
  else
    return (r, s)

/-- A sensitive message leaves an approval behind and, at the threshold, takes effect. -/
theorem sensitiveAction_ok {k : Keeper D} {msg : SensitiveMsg} {s s' : Store D}
    {r : SensitiveResult} (h : sensitiveAction k msg s = .ok (r, s')) :
    ∃ inst signer, s.getInstitution msg.institution = some inst ∧
      accAddressFromBech32 msg.signer = some signer ∧ s.effectiveRole inst signer = .admin ∧
      ((r.executed = false ∧ s' = s.recordApproval inst (msg.contentHash k) signer) ∨
        (r.executed = true ∧
          executeSensitive k msg inst (s.recordApproval inst (msg.contentHash k) signer) =
            .ok s')) := by
  simp only [sensitiveAction, bind_eq_ok, orFail_eq_ok] at h
  obtain ⟨inst, hinst, ⟨⟩, -, ⟨r', s₁⟩, htry, h⟩ := h
  obtain ⟨signer, hsigner, hrole, rfl, -⟩ := trySensitive_ok htry
  refine ⟨inst, signer, hinst, hsigner, hrole, ?_⟩
  dsimp only at h
  split at h
  · rename_i hexecuted
    obtain ⟨s₂, hexec, h⟩ := bind_eq_ok.1 h
    cases h
    exact .inr ⟨hexecuted, hexec⟩
  · rename_i hexecuted
    cases h
    exact .inl ⟨Bool.eq_false_iff.2 hexecuted, rfl⟩

end PhiChain.Institutions
