import PhiChain.Credentials.Machine

/-!
# Credentials: what an accepted message does

`Effect` lists the accepted messages with the checks that they passed and the store that they
leave; every accepted message is one of them (`effect_of_apply`). Each message writes one record
of one table. Anchors are append-only (`anchor_of_run`).
-/

set_option autoImplicit false

namespace PhiChain.Credentials

open Foundations Sdk
open Identity (Keeper Env)

/-- The identities let an account act for a DID that holds a key. -/
def ActsFor (ids : Identity.Store) (did account key : Bytes) : Prop :=
  ∃ doc, ids.getIdentity did = some doc ∧ doc.status = .active ∧ doc.controller = account ∧
    doc.pubKey = key

/-- A signature that an agreement takes. -/
structure Signable (k : Keeper) (env : Env) (ids : Identity.Store) (msg : MsgSignAgreement)
    (ag : Agreement) : Prop where
  pending : ag.status = .pending
  intime : ag.deadline = 0 ∨ env.blockTime ≤ ag.deadline
  required : msg.signerDid ∈ ag.requiredSigners
  unsigned : ∀ sig ∈ ag.signatures, sig.signerDid ≠ msg.signerDid
  acts : ∃ key, ActsFor ids msg.signerDid msg.signer key ∧
    verifyP256 k key msg.hash msg.signature = true

section Signing

variable {k : Keeper} {env : Env} {ids : Identity.Store} {msg : MsgSignAgreement} {ag : Agreement}

/-- A new signature is one of a required signer, as the earlier ones are. -/
theorem Signable.signed (h : Signable k env ids msg ag)
    (hsigned : ∀ sig ∈ ag.signatures, sig.signerDid ∈ ag.requiredSigners) :
    ∀ sig ∈ (ag.signedBy msg.signerDid env.blockTime).signatures,
      sig.signerDid ∈ ag.requiredSigners := by
  intro sig hsig
  rcases List.mem_append.1 hsig with hold | hlast
  · exact hsigned sig hold
  · rw [List.mem_singleton.1 hlast]
    exact h.required

/-- Nobody signs twice. -/
theorem Signable.once (h : Signable k env ids msg ag)
    (honce : (ag.signatures.map AgreementSignature.signerDid).Nodup) :
    ((ag.signedBy msg.signerDid env.blockTime).signatures.map
      AgreementSignature.signerDid).Nodup := by
  simp only [Agreement.signedBy, List.map_append, List.map_singleton]
  refine List.nodup_append.2 ⟨honce, List.nodup_singleton _, ?_⟩
  intro did hdid did' hlast hsame
  obtain ⟨sig, hsig, rfl⟩ := List.mem_map.1 hdid
  rw [List.mem_singleton.1 hlast] at hsame
  exact h.unsigned sig hsig hsame

end Signing

/-! ## Effects -/

/-- What an accepted message does to the store. -/
inductive Effect (k : Keeper) (env : Env) (ids : Identity.Store) (s : Store) : Action → Store → Prop
  | registered (msg : MsgRegisterCredentialTemplate) (hnew : s.templates.has msg.id = false)
      (howner : ∃ key, ActsFor ids msg.ownerDid msg.creator key)
      (hbbs : msg.issuerBbsPubkey.length ≠ 0 ∧ msg.issuerBbsPubkey.length ≤ maxBbsPubkeyLen)
      (hpolicy : validateDisclosurePolicy msg.messageCount msg.disclosableIndices = .ok ()) :
      Effect k env ids s (.registerCredentialTemplate msg)
        { s with templates := s.templates.set (msg.template k env) }
  | updated (msg : MsgUpdateCredentialTemplate) (t : CredentialTemplate)
      (ht : s.templates.get? msg.id = some t) (howner : ∃ key, ActsFor ids t.ownerDid msg.creator key)
      (hlive : t.status ≠ .deprecated)
      (hpolicy : validateDisclosurePolicy msg.messageCount msg.disclosableIndices = .ok ()) :
      Effect k env ids s (.updateCredentialTemplate msg)
        { s with templates := s.templates.set (msg.template k env t) }
  | deprecated (msg : MsgDeprecateCredentialTemplate) (t : CredentialTemplate)
      (ht : s.templates.get? msg.id = some t) (howner : ∃ key, ActsFor ids t.ownerDid msg.creator key)
      (hlive : t.status ≠ .deprecated) :
      Effect k env ids s (.deprecateCredentialTemplate msg)
        { s with templates :=
            s.templates.set { t with status := .deprecated, updatedAt := env.blockTime } }
  | anchored (msg : MsgAnchorCredential) (t : CredentialTemplate) (key : Bytes)
      (hnew : s.anchors.has msg.credentialHash = false)
      (hissuer : ActsFor ids msg.issuerDid msg.issuer key)
      (hsubject : ∃ doc, ids.getIdentity msg.subjectDid = some doc ∧ doc.status = .active)
      (ht : s.templates.get? msg.templateId = some t) (hactive : t.status = .active)
      (hversion : msg.templateVersion = t.version)
      (hsigned : verifyP256 k key msg.credentialHash msg.issuerSig = true) :
      Effect k env ids s (.anchorCredential msg) { s with anchors := s.anchors.set (msg.anchor env) }
  | revoked (msg : MsgRevokeCredential) (a : CredentialAnchor)
      (ha : s.anchors.get? msg.credentialHash = some a) (hlive : a.status ≠ .revoked)
      (hissuer : ∃ key, ActsFor ids a.issuerDid msg.issuer key) :
      Effect k env ids s (.revokeCredential msg)
        { s with anchors := s.anchors.set { a with status := .revoked } }
  | created (msg : MsgCreateAgreement) (hbasic : msg.validateBasic = .ok ())
      (hnew : s.agreements.has msg.hash = false)
      (hsize : UInt32.ofNat msg.requiredSigners.length ≤ s.params.maxAgreementSigners) :
      Effect k env ids s (.createAgreement msg)
        { s with agreements := s.agreements.set (msg.agreement env) }
  | signed (msg : MsgSignAgreement) (ag : Agreement) (hag : s.agreements.get? msg.hash = some ag)
      (hsignable : Signable k env ids msg ag) :
      Effect k env ids s (.signAgreement msg)
        { s with agreements := s.agreements.set (ag.signedBy msg.signerDid env.blockTime) }
  | cancelled (msg : MsgCancelAgreement) (ag : Agreement)
      (hag : s.agreements.get? msg.hash = some ag) (hpending : ag.status = .pending)
      (hcreator : ag.creator = msg.creator) :
      Effect k env ids s (.cancelAgreement msg)
        { s with agreements := s.agreements.set { ag with status := .cancelled } }
  | anchoredPersonal (msg : MsgAnchorPersonal) (key : Bytes)
      (hnew : s.personalAnchors.has (personalKey msg.ownerDid msg.anchorHash) = false)
      (howner : ActsFor ids msg.ownerDid msg.owner key)
      (hsigned : verifyP256 k key msg.anchorHash msg.signature = true) :
      Effect k env ids s (.anchorPersonal msg)
        { s with personalAnchors :=
            s.personalAnchors.set ⟨msg.ownerDid, msg.anchorHash, env.blockTime⟩ }
  | reparametrised (msg : MsgUpdateParams) (hauthority : msg.authority = k.authority)
      (hvalid : msg.params.validate = .ok ()) :
      Effect k env ids s (.updateParams msg) { s with params := msg.params }

variable {k : Keeper} {env : Env} {ids : Identity.Store} {s s' : Store} {a : Action}

theorem actsFor_of_auth {did account key : Bytes} (h : authDID ids did account = .ok key) :
    ActsFor ids did account key := authDID_eq_ok.1 h

theorem effect_of_apply (h : apply k env ids s a = .ok s') : Effect k env ids s a s' := by
  simp only [apply, bind_eq_ok] at h
  obtain ⟨⟨⟩, hbasic, h⟩ := h
  cases a with
  | registerCredentialTemplate msg =>
    simp only [handle, registerCredentialTemplate, bind_eq_ok, ensure_eq_ok, exists_const,
      pure_eq_ok] at h
    obtain ⟨hnew, key, hauth, hbbs, ⟨⟩, hpolicy, rfl⟩ := h
    exact .registered msg hnew ⟨key, actsFor_of_auth hauth⟩ hbbs hpolicy
  | updateCredentialTemplate msg =>
    simp only [handle, updateCredentialTemplate, bind_eq_ok, ensure_eq_ok, orFail_eq_ok,
      exists_const, pure_eq_ok] at h
    obtain ⟨t, ht, key, hauth, hlive, ⟨⟩, hpolicy, rfl⟩ := h
    exact .updated msg t ht ⟨key, actsFor_of_auth hauth⟩ hlive hpolicy
  | deprecateCredentialTemplate msg =>
    simp only [handle, deprecateCredentialTemplate, bind_eq_ok, ensure_eq_ok, orFail_eq_ok,
      exists_const, pure_eq_ok] at h
    obtain ⟨t, ht, key, hauth, hlive, rfl⟩ := h
    exact .deprecated msg t ht ⟨key, actsFor_of_auth hauth⟩ hlive
  | anchorCredential msg =>
    simp only [handle, anchorCredential, bind_eq_ok, ensure_eq_ok, orFail_eq_ok, exists_const,
      pure_eq_ok] at h
    obtain ⟨hnew, key, hauth, ⟨⟩, hsubject, t, ht, hactive, hversion, hsigned, rfl⟩ := h
    exact .anchored msg t key hnew (actsFor_of_auth hauth) (requireActiveDID_eq_ok.1 hsubject) ht
      hactive hversion hsigned
  | revokeCredential msg =>
    simp only [handle, revokeCredential, bind_eq_ok, ensure_eq_ok, orFail_eq_ok, exists_const,
      pure_eq_ok] at h
    obtain ⟨a, ha, hlive, key, hauth, rfl⟩ := h
    exact .revoked msg a ha hlive ⟨key, actsFor_of_auth hauth⟩
  | createAgreement msg =>
    simp only [handle, createAgreement, bind_eq_ok, ensure_eq_ok, exists_const, pure_eq_ok] at h
    obtain ⟨hnew, hsize, rfl⟩ := h
    exact .created msg hbasic hnew hsize
  | signAgreement msg =>
    simp only [handle, signAgreement, bind_eq_ok, ensure_eq_ok, orFail_eq_ok, exists_const,
      pure_eq_ok] at h
    obtain ⟨ag, hag, hpending, hintime, hrequired, hunsigned, key, hauth, hverify, rfl⟩ := h
    exact .signed msg ag hag
      ⟨hpending, hintime, hrequired, hunsigned, key, actsFor_of_auth hauth, hverify⟩
  | cancelAgreement msg =>
    simp only [handle, cancelAgreement, bind_eq_ok, ensure_eq_ok, orFail_eq_ok, exists_const,
      pure_eq_ok] at h
    obtain ⟨ag, hag, hpending, hcreator, rfl⟩ := h
    exact .cancelled msg ag hag hpending hcreator
  | anchorPersonal msg =>
    simp only [handle, anchorPersonal, bind_eq_ok, ensure_eq_ok, exists_const, pure_eq_ok] at h
    obtain ⟨hnew, key, hauth, hsigned, rfl⟩ := h
    exact .anchoredPersonal msg key hnew (actsFor_of_auth hauth) hsigned
  | updateParams msg =>
    simp only [handle, updateParams, bind_eq_ok, ensure_eq_ok, exists_const, pure_eq_ok] at h
    obtain ⟨hauthority, ⟨⟩, hvalid, rfl⟩ := h
    exact .reparametrised msg hauthority hvalid

/-- The anchor stands under its hash, as it is or revoked. -/
def Anchored (hash : Bytes) (a : CredentialAnchor) (s : Store) : Prop :=
  s.anchors.get? hash = some a ∨ s.anchors.get? hash = some { a with status := .revoked }

theorem anchored_of_effect {hash : Bytes} {b : CredentialAnchor} (h : Effect k env ids s a s')
    (hs : Anchored hash b s) : Anchored hash b s' := by
  cases h with
  | anchored msg _ _ hnew =>
    -- the hash of a new anchor is not in use
    rw [Anchored, KeyedMap.get?_set_ne]
    · exact hs
    · rintro rfl
      rcases hs with hs | hs <;> cases (KeyedMap.has_eq_false.1 hnew).symm.trans hs
  | revoked msg c hc hlive =>
    rw [Anchored, KeyedMap.get?_set]
    split
    · rename_i hkey
      obtain rfl := (KeyedMap.key_of_get? hc).symm.trans hkey
      rcases hs with hs | hs <;> cases hc.symm.trans hs
      · exact .inr rfl
      · exact absurd rfl hlive
    · exact hs
  | registered | updated | deprecated | created | signed | cancelled | anchoredPersonal
    | reparametrised => exact hs

/-- After every run an anchor is as it was, or as it was but revoked: no message rewrites one,
removes it or takes a revocation back. -/
theorem anchor_of_run (k : Keeper) (s : Store) (txs : List Tx) {hash : Bytes}
    {a : CredentialAnchor} (hstored : s.anchors.get? hash = some a) :
    (run (step k) s txs).anchors.get? hash = some a ∨
      (run (step k) s txs).anchors.get? hash = some { a with status := .revoked } := by
  refine @run_invariant _ _ (step k) (Anchored hash a) ?_ _ (.inl hstored) txs
  exact fun s tx hs => commit_preserves hs fun s' happly =>
    anchored_of_effect (effect_of_apply happly) hs

/-! ## Credentials of one issuer

Account 21 registers a template with the BBS key 9 and issues credentials to itself. -/

def issuerIdentities : Identity.Store :=
  (run (Identity.step Identity.smallKeeper) (Identity.World.mk ⟨∅, ∅⟩ Identity.Store.fresh)
    [⟨Identity.smallEnv 1, Identity.trustIssuer⟩,
      ⟨Identity.smallEnv 2, Identity.smallRegister (accAddressString [21]) 1⟩]).store

def registerTemplate : Tx :=
  ⟨Identity.smallEnv 3, issuerIdentities, .registerCredentialTemplate
    ⟨accAddressString [21], [1], Identity.smallDID 1, [1], [9], [1], 2, [0]⟩⟩

def issueCredential (now : Fin 10000) (hash : Bytes) : Tx :=
  ⟨Identity.smallEnv now, issuerIdentities, .anchorCredential
    ⟨accAddressString [21], Identity.smallDID 1, Identity.smallDID 1, [1], 1, hash, [4, 1]⟩⟩

def revokeIssued (now : Fin 10000) (hash : Bytes) : Tx :=
  ⟨Identity.smallEnv now, issuerIdentities, .revokeCredential ⟨accAddressString [21], hash⟩⟩

/-- An issued credential is revoked, and is not issued again. -/
theorem anchor_of_run_revoked :
    let s := run (step Identity.smallKeeper) Store.fresh [registerTemplate, issueCredential 4 [10]]
    let s' := run (step Identity.smallKeeper) s [revokeIssued 5 [10], issueCredential 6 [10]]
    (s'.anchors.get? [10]).map CredentialAnchor.status = some .revoked ∧
      ∃ a, s.anchors.get? [10] = some a ∧ a.status = .active ∧
        (s'.anchors.get? [10] = some a ∨
          s'.anchors.get? [10] = some { a with status := .revoked }) := by
  intro s s'
  have hstatus : (s.anchors.get? [10]).map CredentialAnchor.status = some .active := by
    decide +kernel
  obtain ⟨a, hstored, hactive⟩ := Option.map_eq_some_iff.1 hstatus
  exact ⟨by decide +kernel, a, hstored, hactive,
    anchor_of_run Identity.smallKeeper s [revokeIssued 5 [10], issueCredential 6 [10]] hstored⟩

end PhiChain.Credentials
