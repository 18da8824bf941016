import PhiChain.Identity.Store

/-!
# Credentials: records and messages

Templates describe a class of credentials and fix the key that signs them, anchors record
the hash of a credential issued under a template, agreements collect the signatures of a
fixed set of DIDs, and personal anchors belong to one DID. The disclosure policy of a
template lists the claims a holder may ever reveal; its hash is derived from the template.
-/

set_option autoImplicit false

namespace PhiChain.Credentials

open Foundations Sdk
open Identity (Keeper)

inductive TemplateStatus where
  | unspecified
  | active
  | deprecated
  deriving DecidableEq

inductive CredentialStatus where
  | unspecified
  | active
  | revoked
  deriving DecidableEq

inductive AgreementStatus where
  | unspecified
  | pending
  | completed
  | cancelled
  | expired
  deriving DecidableEq

structure CredentialTemplate where
  id : Bytes
  version : UInt32
  ownerDid : Bytes
  schemaHash : Bytes
  issuerBbsPubkey : Bytes
  name : Bytes
  status : TemplateStatus
  createdAt : Int
  updatedAt : Int
  messageCount : UInt32
  disclosableIndices : List UInt32
  disclosurePolicyHash : Bytes
  deriving DecidableEq

structure CredentialAnchor where
  credentialHash : Bytes
  templateId : Bytes
  templateVersion : UInt32
  issuerDid : Bytes
  subjectDid : Bytes
  issuedAt : Int
  status : CredentialStatus
  deriving DecidableEq

structure AgreementSignature where
  signerDid : Bytes
  signedAt : Int
  deriving DecidableEq

structure Agreement where
  hash : Bytes
  creator : Bytes
  requiredSigners : List Bytes
  signatures : List AgreementSignature
  deadline : Int
  status : AgreementStatus
  createdAt : Int
  deriving DecidableEq

structure PersonalAnchor where
  ownerDid : Bytes
  anchorHash : Bytes
  anchoredAt : Int
  deriving DecidableEq

structure Params where
  maxAgreementSigners : UInt32
  deriving DecidableEq

def defaultParams : Params := ⟨100⟩

def Params.validate (p : Params) : Result Unit :=
  ensure (p.maxAgreementSigners ≠ 0) ⟨.unregistered, "max_agreement_signers must be > 0"⟩

/-! ## Disclosure policy -/

def maxBbsMessages : Nat := 64

def maxBbsPubkeyLen : Nat := 256

/-- The indices one after the other, each below the claim count and new. -/
def validateIndices (messageCount : UInt32) : List UInt32 → List UInt32 → Result Unit
  | _, [] => .ok ()
  | seen, i :: rest => do
    ensure (i < messageCount) ⟨.credentialsInvalidRequest, "disclosable index is out of range"⟩
    ensure (i ∉ seen) ⟨.credentialsInvalidRequest, "duplicate disclosable index"⟩
    validateIndices messageCount (i :: seen) rest

def validateDisclosurePolicy (messageCount : UInt32) (disclosable : List UInt32) : Result Unit := do
  ensure (messageCount.toNat ≤ maxBbsMessages)
    ⟨.credentialsInvalidRequest, "message_count exceeds the maximum of claims"⟩
  ensure (messageCount ≠ 0 ∨ disclosable = [])
    ⟨.credentialsInvalidRequest, "disclosable_indices declared but message_count is 0"⟩
  ensure (disclosable.length ≤ messageCount.toNat)
    ⟨.credentialsInvalidRequest, "disclosable_indices has more entries than the credential has claims"⟩
  validateIndices messageCount [] disclosable

/-- Each index once, in ascending order. -/
def canonicalIndices (indices : List UInt32) : List UInt32 :=
  (indices.foldl (fun out i => if i ∈ out then out else out ++ [i]) []).insertionSort (· ≤ ·)

/-- Four bytes, most significant first. -/
def be32 (n : UInt32) : Bytes := bigEndian 4 n.toNat

/-- The text that the policy hash covers. -/
def disclosurePolicyText (id : Bytes) (version messageCount : UInt32) (disclosable : List UInt32) :
    Bytes :=
  ascii "phi-disclosure-policy-v1" ++ [0] ++ id ++ [0] ++ be32 version ++ be32 messageCount ++
    (canonicalIndices disclosable).flatMap be32

def CredentialTemplate.policyHash (k : Keeper) (t : CredentialTemplate) : Bytes :=
  k.sha256 (disclosurePolicyText t.id t.version t.messageCount t.disclosableIndices)

def CredentialTemplate.isDisclosable (t : CredentialTemplate) (i : UInt32) : Bool :=
  t.disclosableIndices.contains i

/-! ## Store -/

/-- Key of a personal anchor: the owner behind one byte of its length, then the hash. -/
def personalKey (ownerDid anchorHash : Bytes) : Bytes := bytePrefixed ownerDid ++ anchorHash

def PersonalAnchor.key (p : PersonalAnchor) : Bytes := personalKey p.ownerDid p.anchorHash

structure Store where
  params : Params
  templates : KeyedMap Bytes CredentialTemplate CredentialTemplate.id
  anchors : KeyedMap Bytes CredentialAnchor CredentialAnchor.credentialHash
  agreements : KeyedMap Bytes Agreement Agreement.hash
  personalAnchors : KeyedMap Bytes PersonalAnchor PersonalAnchor.key

def Store.fresh : Store := ⟨defaultParams, ∅, ∅, ∅, ∅⟩

/-! ## Messages -/

/-- A field that must not be empty. -/
def validateNonempty (field : String) (b : Bytes) : Result Unit :=
  ensure (b ≠ []) ⟨.credentialsInvalidRequest, field ++ " cannot be empty"⟩

structure MsgRegisterCredentialTemplate where
  creator : Bytes
  id : Bytes
  ownerDid : Bytes
  schemaHash : Bytes
  issuerBbsPubkey : Bytes
  name : Bytes
  messageCount : UInt32
  disclosableIndices : List UInt32

def MsgRegisterCredentialTemplate.validateBasic (m : MsgRegisterCredentialTemplate) :
    Result Unit := do
  validateAddress "creator" m.creator
  validateNonempty "id" m.id
  validateNonempty "owner_did" m.ownerDid
  validateNonempty "schema_hash" m.schemaHash

structure MsgUpdateCredentialTemplate where
  creator : Bytes
  id : Bytes
  schemaHash : Bytes
  name : Bytes
  messageCount : UInt32
  disclosableIndices : List UInt32

def MsgUpdateCredentialTemplate.validateBasic (m : MsgUpdateCredentialTemplate) : Result Unit := do
  validateAddress "creator" m.creator
  validateNonempty "id" m.id
  validateNonempty "schema_hash" m.schemaHash

structure MsgDeprecateCredentialTemplate where
  creator : Bytes
  id : Bytes

def MsgDeprecateCredentialTemplate.validateBasic (m : MsgDeprecateCredentialTemplate) :
    Result Unit := do
  validateAddress "creator" m.creator
  validateNonempty "id" m.id

structure MsgAnchorCredential where
  issuer : Bytes
  issuerDid : Bytes
  subjectDid : Bytes
  templateId : Bytes
  templateVersion : UInt32
  credentialHash : Bytes
  issuerSig : Bytes

def MsgAnchorCredential.validateBasic (m : MsgAnchorCredential) : Result Unit := do
  validateAddress "issuer" m.issuer
  validateNonempty "issuer_did" m.issuerDid
  validateNonempty "subject_did" m.subjectDid
  validateNonempty "template_id" m.templateId
  validateNonempty "credential_hash" m.credentialHash
  validateNonempty "issuer_sig" m.issuerSig

structure MsgRevokeCredential where
  issuer : Bytes
  credentialHash : Bytes

def MsgRevokeCredential.validateBasic (m : MsgRevokeCredential) : Result Unit := do
  validateAddress "issuer" m.issuer
  validateNonempty "credential_hash" m.credentialHash

structure MsgCreateAgreement where
  creator : Bytes
  hash : Bytes
  requiredSigners : List Bytes
  deadline : Int

/-- The listed signers one after the other, none empty and none twice. -/
def validateSigners : List Bytes → List Bytes → Result Unit
  | _, [] => .ok ()
  | seen, did :: rest => do
    ensure (did ≠ []) ⟨.credentialsInvalidRequest, "required_signers contains an empty DID"⟩
    ensure (did ∉ seen) ⟨.credentialsInvalidRequest, "duplicate required signer"⟩
    validateSigners (did :: seen) rest

def MsgCreateAgreement.validateBasic (m : MsgCreateAgreement) : Result Unit := do
  validateAddress "creator" m.creator
  validateNonempty "hash" m.hash
  ensure (m.requiredSigners ≠ [])
    ⟨.credentialsInvalidRequest, "required_signers cannot be empty"⟩
  validateSigners [] m.requiredSigners
  ensure (0 ≤ m.deadline) ⟨.credentialsInvalidRequest, "deadline cannot be negative"⟩

structure MsgSignAgreement where
  signer : Bytes
  hash : Bytes
  signerDid : Bytes
  signature : Bytes

def MsgSignAgreement.validateBasic (m : MsgSignAgreement) : Result Unit := do
  validateAddress "signer" m.signer
  validateNonempty "hash" m.hash
  validateNonempty "signer_did" m.signerDid
  validateNonempty "signature" m.signature

structure MsgCancelAgreement where
  creator : Bytes
  hash : Bytes

def MsgCancelAgreement.validateBasic (m : MsgCancelAgreement) : Result Unit := do
  validateAddress "creator" m.creator
  validateNonempty "hash" m.hash

structure MsgAnchorPersonal where
  owner : Bytes
  ownerDid : Bytes
  anchorHash : Bytes
  signature : Bytes

def MsgAnchorPersonal.validateBasic (m : MsgAnchorPersonal) : Result Unit := do
  validateAddress "owner" m.owner
  validateNonempty "owner_did" m.ownerDid
  validateNonempty "anchor_hash" m.anchorHash
  validateNonempty "signature" m.signature

structure MsgUpdateParams where
  authority : Bytes
  params : Params

def MsgUpdateParams.validateBasic (m : MsgUpdateParams) : Result Unit := do
  validateAddress "authority" m.authority
  m.params.validate

end PhiChain.Credentials
