import PhiChain.Credentials.Types
import PhiChain.Identity.Registry

/-!
# Credentials: handlers and the machine

The handlers read identity documents and write the store of x/credentials. An account acts
for a DID when the DID is active and the account is its controller (`authDID`), which also
yields the key that signatures are checked with.
-/

set_option autoImplicit false

namespace PhiChain.Credentials

open Foundations Sdk
open Identity (Keeper Env)

/-! ## Authorisation -/

/-- The key of a DID that the signer acts for. -/
def authDID (ids : Identity.Store) (did signer : Bytes) : Result Bytes := do
  let doc ← orFail ((ids.getIdentity did).filter fun d => d.status = .active) ⟨.didNotActive, ""⟩
  ensure (doc.controller = signer) ⟨.credentialsUnauthorized, ""⟩
  return doc.pubKey

def requireActiveDID (ids : Identity.Store) (did : Bytes) : Result Unit := do
  let _ ← orFail ((ids.getIdentity did).filter fun d => d.status = .active)
    ⟨.didNotActive, "subject_did"⟩
  return ()

/-- A signature on P-256, whatever the curve of the key. -/
def verifyP256 (k : Keeper) (pubKey msg sig : Bytes) : Bool :=
  k.verifySignature .secp256r1 pubKey msg sig

/-! ## Records written -/

/-- A template with the hash of its policy. -/
def CredentialTemplate.sealed (k : Keeper) (t : CredentialTemplate) : CredentialTemplate :=
  { t with disclosurePolicyHash := t.policyHash k }

/-- The template a registration stores. -/
def MsgRegisterCredentialTemplate.template (k : Keeper) (env : Env)
    (msg : MsgRegisterCredentialTemplate) : CredentialTemplate :=
  CredentialTemplate.sealed k
    { id := msg.id
      version := 1
      ownerDid := msg.ownerDid
      schemaHash := msg.schemaHash
      issuerBbsPubkey := msg.issuerBbsPubkey
      name := msg.name
      status := .active
      createdAt := env.blockTime
      updatedAt := env.blockTime
      messageCount := msg.messageCount
      disclosableIndices := msg.disclosableIndices
      disclosurePolicyHash := [] }

/-- The template an update of `t` stores: the version counts in 32 bits, and the key that signs
credentials stays. -/
def MsgUpdateCredentialTemplate.template (k : Keeper) (env : Env)
    (msg : MsgUpdateCredentialTemplate) (t : CredentialTemplate) : CredentialTemplate :=
  CredentialTemplate.sealed k
    { t with
      version := t.version + 1
      schemaHash := msg.schemaHash
      name := msg.name
      updatedAt := env.blockTime
      messageCount := msg.messageCount
      disclosableIndices := msg.disclosableIndices }

/-- The anchor that an anchoring stores. -/
def MsgAnchorCredential.anchor (env : Env) (msg : MsgAnchorCredential) : CredentialAnchor where
  credentialHash := msg.credentialHash
  templateId := msg.templateId
  templateVersion := msg.templateVersion
  issuerDid := msg.issuerDid
  subjectDid := msg.subjectDid
  issuedAt := env.blockTime
  status := .active

/-- The agreement a creation stores. -/
def MsgCreateAgreement.agreement (env : Env) (msg : MsgCreateAgreement) : Agreement where
  hash := msg.hash
  creator := msg.creator
  requiredSigners := msg.requiredSigners
  signatures := []
  deadline := msg.deadline
  status := .pending
  createdAt := env.blockTime

/-! ## Templates -/

def registerCredentialTemplate (k : Keeper) (env : Env) (ids : Identity.Store)
    (msg : MsgRegisterCredentialTemplate) (s : Store) : Result Store := do
  ensure (s.templates.has msg.id = false) ⟨.templateExists, "id"⟩
  let _ ← authDID ids msg.ownerDid msg.creator
  ensure (msg.issuerBbsPubkey.length ≠ 0 ∧ msg.issuerBbsPubkey.length ≤ maxBbsPubkeyLen)
    ⟨.credentialsInvalidRequest, "issuer_bbs_pubkey length"⟩
  validateDisclosurePolicy msg.messageCount msg.disclosableIndices
  return { s with templates := s.templates.set (msg.template k env) }

def updateCredentialTemplate (k : Keeper) (env : Env) (ids : Identity.Store)
    (msg : MsgUpdateCredentialTemplate) (s : Store) : Result Store := do
  let t ← orFail (s.templates.get? msg.id) ⟨.templateNotFound, "id"⟩
  let _ ← authDID ids t.ownerDid msg.creator
  ensure (t.status ≠ .deprecated) ⟨.templateDeprecated, "cannot update a deprecated template"⟩
  validateDisclosurePolicy msg.messageCount msg.disclosableIndices
  return { s with templates := s.templates.set (msg.template k env t) }

def deprecateCredentialTemplate (env : Env) (ids : Identity.Store)
    (msg : MsgDeprecateCredentialTemplate) (s : Store) : Result Store := do
  let t ← orFail (s.templates.get? msg.id) ⟨.templateNotFound, "id"⟩
  let _ ← authDID ids t.ownerDid msg.creator
  ensure (t.status ≠ .deprecated) ⟨.templateDeprecated, "already deprecated"⟩
  return { s with templates :=
      s.templates.set { t with status := .deprecated, updatedAt := env.blockTime } }

/-! ## Anchors -/

def anchorCredential (k : Keeper) (env : Env) (ids : Identity.Store) (msg : MsgAnchorCredential)
    (s : Store) : Result Store := do
  ensure (s.anchors.has msg.credentialHash = false) ⟨.credentialExists, "hash"⟩
  let pubKey ← authDID ids msg.issuerDid msg.issuer
  requireActiveDID ids msg.subjectDid
  let t ← orFail (s.templates.get? msg.templateId) ⟨.templateNotFound, "id"⟩
  ensure (t.status = .active) ⟨.templateDeprecated, "template"⟩
  ensure (msg.templateVersion = t.version) ⟨.templateVersionMismatch, "got, template at"⟩
  ensure (verifyP256 k pubKey msg.credentialHash msg.issuerSig = true)
    ⟨.invalidSignature, "issuer signature over credential hash"⟩
  return { s with anchors := s.anchors.set (msg.anchor env) }

def revokeCredential (ids : Identity.Store) (msg : MsgRevokeCredential) (s : Store) :
    Result Store := do
  let a ← orFail (s.anchors.get? msg.credentialHash) ⟨.credentialNotFound, "hash"⟩
  ensure (a.status ≠ .revoked) ⟨.credentialRevoked, ""⟩
  let _ ← authDID ids a.issuerDid msg.issuer
  return { s with anchors := s.anchors.set { a with status := .revoked } }

def anchorPersonal (k : Keeper) (env : Env) (ids : Identity.Store) (msg : MsgAnchorPersonal)
    (s : Store) : Result Store := do
  ensure (s.personalAnchors.has (personalKey msg.ownerDid msg.anchorHash) = false)
    ⟨.personalAnchorExists, "hash"⟩
  let pubKey ← authDID ids msg.ownerDid msg.owner
  ensure (verifyP256 k pubKey msg.anchorHash msg.signature = true)
    ⟨.invalidSignature, "owner signature over anchor hash"⟩
  return { s with personalAnchors :=
      s.personalAnchors.set ⟨msg.ownerDid, msg.anchorHash, env.blockTime⟩ }

/-! ## Agreements -/

def createAgreement (env : Env) (msg : MsgCreateAgreement) (s : Store) : Result Store := do
  ensure (s.agreements.has msg.hash = false) ⟨.agreementExists, "hash"⟩
  -- the number of signers is compared in 32 bits
  ensure (UInt32.ofNat msg.requiredSigners.length ≤ s.params.maxAgreementSigners)
    ⟨.credentialsInvalidRequest, "required_signers exceeds max_agreement_signers"⟩
  return { s with agreements := s.agreements.set (msg.agreement env) }

/-- An agreement with one more signature; the last one completes it. -/
def Agreement.signedBy (ag : Agreement) (did : Bytes) (now : Int) : Agreement :=
  let signatures := ag.signatures ++ [⟨did, now⟩]
  { ag with
    signatures := signatures
    status := if signatures.length = ag.requiredSigners.length then .completed else ag.status }

def signAgreement (k : Keeper) (env : Env) (ids : Identity.Store) (msg : MsgSignAgreement)
    (s : Store) : Result Store := do
  let ag ← orFail (s.agreements.get? msg.hash) ⟨.agreementNotFound, "hash"⟩
  ensure (ag.status = .pending) ⟨.agreementClosed, "status"⟩
  ensure (ag.deadline = 0 ∨ env.blockTime ≤ ag.deadline) ⟨.agreementExpired, ""⟩
  ensure (msg.signerDid ∈ ag.requiredSigners) ⟨.notRequiredSigner, "did"⟩
  ensure (∀ sig ∈ ag.signatures, sig.signerDid ≠ msg.signerDid) ⟨.alreadySigned, "did"⟩
  let pubKey ← authDID ids msg.signerDid msg.signer
  ensure (verifyP256 k pubKey msg.hash msg.signature = true)
    ⟨.invalidSignature, "signer signature over agreement hash"⟩
  return { s with agreements := s.agreements.set (ag.signedBy msg.signerDid env.blockTime) }

def cancelAgreement (msg : MsgCancelAgreement) (s : Store) : Result Store := do
  let ag ← orFail (s.agreements.get? msg.hash) ⟨.agreementNotFound, "hash"⟩
  ensure (ag.status = .pending) ⟨.agreementClosed, "status"⟩
  ensure (ag.creator = msg.creator) ⟨.credentialsUnauthorized, "only the creator may cancel"⟩
  return { s with agreements := s.agreements.set { ag with status := .cancelled } }

def updateParams (k : Keeper) (msg : MsgUpdateParams) (s : Store) : Result Store := do
  ensure (msg.authority = k.authority) ⟨.invalidSigner, "expected, got"⟩
  msg.params.validate
  return { s with params := msg.params }

/-! ## The machine -/

inductive Action where
  | registerCredentialTemplate (msg : MsgRegisterCredentialTemplate)
  | updateCredentialTemplate (msg : MsgUpdateCredentialTemplate)
  | deprecateCredentialTemplate (msg : MsgDeprecateCredentialTemplate)
  | anchorCredential (msg : MsgAnchorCredential)
  | revokeCredential (msg : MsgRevokeCredential)
  | createAgreement (msg : MsgCreateAgreement)
  | signAgreement (msg : MsgSignAgreement)
  | cancelAgreement (msg : MsgCancelAgreement)
  | anchorPersonal (msg : MsgAnchorPersonal)
  | updateParams (msg : MsgUpdateParams)

def Action.validateBasic : Action → Result Unit
  | .registerCredentialTemplate msg => msg.validateBasic
  | .updateCredentialTemplate msg => msg.validateBasic
  | .deprecateCredentialTemplate msg => msg.validateBasic
  | .anchorCredential msg => msg.validateBasic
  | .revokeCredential msg => msg.validateBasic
  | .createAgreement msg => msg.validateBasic
  | .signAgreement msg => msg.validateBasic
  | .cancelAgreement msg => msg.validateBasic
  | .anchorPersonal msg => msg.validateBasic
  | .updateParams msg => msg.validateBasic

def handle (k : Keeper) (env : Env) (ids : Identity.Store) (s : Store) : Action → Result Store
  | .registerCredentialTemplate msg => registerCredentialTemplate k env ids msg s
  | .updateCredentialTemplate msg => updateCredentialTemplate k env ids msg s
  | .deprecateCredentialTemplate msg => deprecateCredentialTemplate env ids msg s
  | .anchorCredential msg => anchorCredential k env ids msg s
  | .revokeCredential msg => revokeCredential ids msg s
  | .createAgreement msg => createAgreement env msg s
  | .signAgreement msg => signAgreement k env ids msg s
  | .cancelAgreement msg => cancelAgreement msg s
  | .anchorPersonal msg => anchorPersonal k env ids msg s
  | .updateParams msg => updateParams k msg s

/-- One message: its stateless check, then its handler, on the identities as they stand. -/
def apply (k : Keeper) (env : Env) (ids : Identity.Store) (s : Store) (a : Action) :
    Result Store := do
  a.validateBasic
  handle k env ids s a

/-- A message with the block it is in and the identities it meets. -/
structure Tx where
  env : Env
  ids : Identity.Store
  action : Action

/-- One transaction; a failed one leaves the store as it was. -/
def step (k : Keeper) (s : Store) (tx : Tx) : Store := commit s (apply k tx.env tx.ids s tx.action)

/-! ## What the checks say -/

theorem authDID_eq_ok {ids : Identity.Store} {did signer key : Bytes} :
    authDID ids did signer = .ok key ↔ ∃ doc, ids.getIdentity did = some doc ∧
      doc.status = .active ∧ doc.controller = signer ∧ doc.pubKey = key := by
  simp only [authDID, bind_eq_ok, orFail_eq_ok, ensure_eq_ok, exists_const, pure_eq_ok,
    Option.filter_eq_some_iff, decide_eq_true_eq, and_assoc]

theorem requireActiveDID_eq_ok {ids : Identity.Store} {did : Bytes} {u : Unit} :
    requireActiveDID ids did = .ok u ↔ ∃ doc, ids.getIdentity did = some doc ∧ doc.status = .active := by
  simp only [requireActiveDID, bind_eq_ok, orFail_eq_ok, pure_eq_ok, Option.filter_eq_some_iff,
    decide_eq_true_eq, and_true]

end PhiChain.Credentials
