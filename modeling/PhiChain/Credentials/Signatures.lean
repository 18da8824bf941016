import PhiChain.Credentials.Effects

/-!
# Credentials: the curve of a signature

Three messages carry a signature of the acting DID. Each is accepted exactly when the
signature verifies on P-256 (`accepted_iff`), while an identity may hold a key on another
curve. `signature_curve_exact` says for which requests this is the check of the identity's
own curve.
-/

set_option autoImplicit false

namespace PhiChain.Credentials

open Foundations Sdk
open Identity (Keeper Env Curve curveForKeyType)

/-- A message that carries a signature of the DID it acts for. -/
inductive SignedRequest where
  | anchorCredential (msg : MsgAnchorCredential)
  | signAgreement (msg : MsgSignAgreement)
  | anchorPersonal (msg : MsgAnchorPersonal)

namespace SignedRequest

def action : SignedRequest → Action
  | .anchorCredential msg => .anchorCredential msg
  | .signAgreement msg => .signAgreement msg
  | .anchorPersonal msg => .anchorPersonal msg

def did : SignedRequest → Bytes
  | .anchorCredential msg => msg.issuerDid
  | .signAgreement msg => msg.signerDid
  | .anchorPersonal msg => msg.ownerDid

def account : SignedRequest → Bytes
  | .anchorCredential msg => msg.issuer
  | .signAgreement msg => msg.signer
  | .anchorPersonal msg => msg.owner

/-- What the signature is over. -/
def message : SignedRequest → Bytes
  | .anchorCredential msg => msg.credentialHash
  | .signAgreement msg => msg.hash
  | .anchorPersonal msg => msg.anchorHash

def signature : SignedRequest → Bytes
  | .anchorCredential msg => msg.issuerSig
  | .signAgreement msg => msg.signature
  | .anchorPersonal msg => msg.signature

/-- What a request must satisfy besides its signature and the standing of its DID. -/
def OtherChecks (env : Env) (ids : Identity.Store) (s : Store) : SignedRequest → Prop
  | .anchorCredential msg =>
    msg.validateBasic = .ok () ∧ s.anchors.has msg.credentialHash = false ∧
      (∃ subject, ids.getIdentity msg.subjectDid = some subject ∧ subject.status = .active) ∧
      ∃ t, s.templates.get? msg.templateId = some t ∧ t.status = .active ∧
        msg.templateVersion = t.version
  | .signAgreement msg =>
    msg.validateBasic = .ok () ∧ ∃ ag, s.agreements.get? msg.hash = some ag ∧
      ag.status = .pending ∧ (ag.deadline = 0 ∨ env.blockTime ≤ ag.deadline) ∧
      msg.signerDid ∈ ag.requiredSigners ∧ ∀ sig ∈ ag.signatures, sig.signerDid ≠ msg.signerDid
  | .anchorPersonal msg =>
    msg.validateBasic = .ok () ∧
      s.personalAnchors.has (personalKey msg.ownerDid msg.anchorHash) = false

end SignedRequest

variable {k : Keeper} {env : Env} {ids : Identity.Store} {s : Store} {req : SignedRequest}
  {doc : Identity.DIDDocument}

/-- A request of the controller that passes the other checks is judged on P-256. -/
theorem accepted_iff (hdoc : ids.getIdentity req.did = some doc) (hactive : doc.status = .active)
    (hcontroller : doc.controller = req.account) (hother : req.OtherChecks env ids s) :
    isOk (apply k env ids s req.action) = true ↔
      k.verifySignature .secp256r1 doc.pubKey req.message req.signature = true := by
  -- the key the handlers obtain is the one of the document
  have hkey : authDID ids req.did req.account = .ok doc.pubKey :=
    authDID_eq_ok.2 ⟨doc, hdoc, hactive, hcontroller, rfl⟩
  rw [isOk_iff]
  constructor
  · rintro ⟨s', happly⟩
    have heffect := effect_of_apply happly
    cases req with
    | anchorCredential msg =>
      cases heffect with
      | anchored _ t key _ hacts _ _ _ _ hverify =>
        cases hkey.symm.trans (authDID_eq_ok.2 hacts)
        exact hverify
    | signAgreement msg =>
      cases heffect with
      | signed _ ag _ hsignable =>
        obtain ⟨key, hacts, hverify⟩ := hsignable.acts
        cases hkey.symm.trans (authDID_eq_ok.2 hacts)
        exact hverify
    | anchorPersonal msg =>
      cases heffect with
      | anchoredPersonal _ key _ hacts hverify =>
        cases hkey.symm.trans (authDID_eq_ok.2 hacts)
        exact hverify
  · intro hverify
    cases req with
    | anchorCredential msg =>
      obtain ⟨hbasic, hnew, hsubject, t, ht, hstatus, hversion⟩ := hother
      simp only [apply, SignedRequest.action, handle, anchorCredential, bind_eq_ok, ensure_eq_ok,
        orFail_eq_ok, exists_const]
      exact ⟨_, (), hbasic, hnew, doc.pubKey, hkey, (), requireActiveDID_eq_ok.2 hsubject, t, ht,
        hstatus, hversion, hverify, rfl⟩
    | signAgreement msg =>
      obtain ⟨hbasic, ag, hag, hpending, hdeadline, hlisted, hfirst⟩ := hother
      simp only [apply, SignedRequest.action, handle, signAgreement, bind_eq_ok, ensure_eq_ok,
        orFail_eq_ok, exists_const]
      exact ⟨_, (), hbasic, ag, hag, hpending, hdeadline, hlisted, hfirst, doc.pubKey, hkey, hverify,
        rfl⟩
    | anchorPersonal msg =>
      obtain ⟨hbasic, hnew⟩ := hother
      simp only [apply, SignedRequest.action, handle, anchorPersonal, bind_eq_ok, ensure_eq_ok,
        exists_const]
      exact ⟨_, (), hbasic, hnew, doc.pubKey, hkey, hverify, rfl⟩

/-- A request is judged on the curve of the identity's key exactly when that curve is P-256, or
the two curves happen to agree on the signature. -/
theorem signature_curve_exact {curve : Curve} (hdoc : ids.getIdentity req.did = some doc)
    (hactive : doc.status = .active) (hcontroller : doc.controller = req.account)
    (hcurve : curveForKeyType doc.keyType = some curve) (hother : req.OtherChecks env ids s) :
    (isOk (apply k env ids s req.action) = true ↔
        k.verifySignature curve doc.pubKey req.message req.signature = true) ↔
      doc.keyType ≠ .secp256k1 ∨
        k.verifySignature .secp256k1 doc.pubKey req.message req.signature =
          k.verifySignature .secp256r1 doc.pubKey req.message req.signature := by
  rw [accepted_iff hdoc hactive hcontroller hother]
  cases hkeyType : doc.keyType with
  | unspecified | secp256r1 =>
    rw [hkeyType] at hcurve
    cases hcurve
    simp
  | secp256k1 =>
    rw [hkeyType] at hcurve
    cases hcurve
    simp only [ne_eq, not_true_eq_false, false_or]
    rw [← Bool.eq_iff_iff]
    exact eq_comm
  | unknown =>
    rw [hkeyType] at hcurve
    cases hcurve

/-! ## A self-custody identity

Its key is on secp256k1. A signature shows the key behind a byte that names the curve. -/

def dualCurveKeeper : Keeper :=
  { Identity.smallKeeper with
    parseK1 := some
    verifySignature := fun curve pubKey _ sig =>
      match curve with
      | .secp256r1 => sig = 1 :: pubKey
      | .secp256k1 => sig = 2 :: pubKey }

/-- The DID that a key on secp256k1 derives. -/
def selfCustodyDID : Bytes := (Identity.deriveDID dualCurveKeeper .secp256k1 [3, 9]).getD []

/-- Account 21 registers its key. -/
def registerSelfCustody : Identity.Action :=
  .registerIdentity ⟨accAddressString [21], selfCustodyDID, [3, 9], [9], Identity.smallIssuer.did,
    1 :: Identity.smallIssuer.pubKey, [9], [2, 3, 9], .secp256k1⟩

def selfCustodyIdentities : Identity.Store :=
  (run (Identity.step dualCurveKeeper) (Identity.World.mk ⟨∅, ∅⟩ Identity.Store.fresh)
    [⟨Identity.smallEnv 1, Identity.trustIssuer⟩, ⟨Identity.smallEnv 2, registerSelfCustody⟩]).store

/-- The owner anchors a hash, signed with the key on the curve given. -/
def anchorOwn (curve : Byte) : SignedRequest :=
  .anchorPersonal ⟨accAddressString [21], selfCustodyDID, [7], [curve, 3, 9]⟩

/-- The document of the registered key. -/
def selfCustodyDocument : Identity.DIDDocument :=
  ⟨selfCustodyDID, accAddressString [21], [3, 9], [9], 2, .active, .secp256k1⟩

theorem getIdentity_selfCustody :
    selfCustodyIdentities.getIdentity selfCustodyDID = some selfCustodyDocument := by decide +kernel

theorem otherChecks_anchorOwn (curve : Byte) :
    (anchorOwn curve).OtherChecks (Identity.smallEnv 3) selfCustodyIdentities Store.fresh := by
  have haddress : validateAddress "owner" (accAddressString [21]) = .ok () := by
    decide +kernel
  refine ⟨?_, rfl⟩
  simp only [MsgAnchorPersonal.validateBasic, haddress]
  rfl

theorem signature_curve_exact_self_custody :
    (isOk (apply dualCurveKeeper (Identity.smallEnv 3) selfCustodyIdentities Store.fresh
          (anchorOwn 2).action) = true ↔
        dualCurveKeeper.verifySignature .secp256k1 selfCustodyDocument.pubKey (anchorOwn 2).message
          (anchorOwn 2).signature = true) ↔
      selfCustodyDocument.keyType ≠ .secp256k1 ∨
        dualCurveKeeper.verifySignature .secp256k1 selfCustodyDocument.pubKey (anchorOwn 2).message
            (anchorOwn 2).signature =
          dualCurveKeeper.verifySignature .secp256r1 selfCustodyDocument.pubKey
            (anchorOwn 2).message (anchorOwn 2).signature :=
  signature_curve_exact getIdentity_selfCustody rfl rfl rfl (otherChecks_anchorOwn 2)

/-- The registered identity cannot anchor: its signature verifies on its own curve and is refused. -/
theorem self_custody_signature_refused :
    selfCustodyIdentities.getIdentity (anchorOwn 2).did = some selfCustodyDocument ∧
      (anchorOwn 2).OtherChecks (Identity.smallEnv 3) selfCustodyIdentities Store.fresh ∧
      curveForKeyType selfCustodyDocument.keyType = some .secp256k1 ∧
      dualCurveKeeper.verifySignature .secp256k1 selfCustodyDocument.pubKey (anchorOwn 2).message
        (anchorOwn 2).signature = true ∧
      isOk (apply dualCurveKeeper (Identity.smallEnv 3) selfCustodyIdentities Store.fresh
        (anchorOwn 2).action) = false :=
  ⟨getIdentity_selfCustody, otherChecks_anchorOwn 2, rfl, by decide +kernel, by decide +kernel⟩

end PhiChain.Credentials
