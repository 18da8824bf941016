import PhiChain.Credentials.Signatures
import PhiChain.Institutions.Genesis

/-!
# Export of x/credentials

The genesis validator looks at every record again: a template's policy and its hash, an anchor's
template and version, the signers of an agreement and the signatures it has, the owner and hash
of a personal anchor.

Two clauses are not kept by every message. The number of signers is compared with the limit of
the day, so a lowered limit strands the agreements above it; and a template's version is a 32-bit
counter that wraps, which leaves its anchors with versions of the future. Where no step does
either, every state exports to a genesis that is accepted (`credentials_export_importable`).
-/

set_option autoImplicit false

namespace PhiChain.Credentials

open Foundations Sdk
open Identity (Keeper Env hexEncode hexEncode_inj slash_not_mem_hexEncode)
open Institutions (checkEach checkEach_ok checkEach_of_nodup)

/-! ## Genesis -/

structure GenesisState where
  params : Params
  templates : List CredentialTemplate
  anchors : List CredentialAnchor
  agreements : List Agreement
  personalAnchors : List PersonalAnchor

def validateGenesisTemplate (k : Keeper) (duplicate : Bool) (t : CredentialTemplate) :
    Result Unit := do
  ensure (t.id ≠ []) ⟨.unregistered, "template with empty id"⟩
  ensure (duplicate = false) ⟨.unregistered, "duplicate template id in genesis"⟩
  validateDisclosurePolicy t.messageCount t.disclosableIndices
  ensure (t.disclosurePolicyHash = t.policyHash k)
    ⟨.unregistered, "disclosure_policy_hash does not match its declared policy"⟩

def validateGenesisAnchor (templates : List CredentialTemplate) (duplicate : Bool)
    (a : CredentialAnchor) : Result Unit := do
  ensure (a.credentialHash ≠ []) ⟨.unregistered, "credential anchor with empty hash"⟩
  ensure (duplicate = false) ⟨.unregistered, "duplicate credential anchor in genesis"⟩
  let t ← orFail (templates.find? fun t => t.id = a.templateId)
    ⟨.unregistered, "anchor references unknown template"⟩
  ensure (a.templateVersion ≤ t.version)
    ⟨.unregistered, "anchor references future template version"⟩

/-- The signatures one after the other, each of a required signer and none twice. -/
def validateSignatures (requiredSigners : List Bytes) :
    List Bytes → List AgreementSignature → Result Unit
  | _, [] => .ok ()
  | signed, sig :: rest => do
    ensure (sig.signerDid ∈ requiredSigners)
      ⟨.unregistered, "agreement signed by non-required DID"⟩
    ensure (sig.signerDid ∉ signed) ⟨.unregistered, "agreement signed twice by DID"⟩
    validateSignatures requiredSigners (sig.signerDid :: signed) rest

def validateGenesisAgreement (maxSigners : UInt32) (duplicate : Bool) (ag : Agreement) :
    Result Unit := do
  ensure (ag.hash ≠ []) ⟨.unregistered, "agreement with empty hash"⟩
  ensure (duplicate = false) ⟨.unregistered, "duplicate agreement in genesis"⟩
  ensure (ag.requiredSigners ≠ []) ⟨.unregistered, "agreement has no required signers"⟩
  ensure (UInt32.ofNat ag.requiredSigners.length ≤ maxSigners)
    ⟨.unregistered, "agreement exceeds max_agreement_signers"⟩
  validateSignatures ag.requiredSigners [] ag.signatures

def validateGenesisPersonal (duplicate : Bool) (p : PersonalAnchor) : Result Unit := do
  ensure (p.ownerDid ≠ [] ∧ p.anchorHash ≠ [])
    ⟨.unregistered, "personal anchor with empty owner or hash"⟩
  ensure (duplicate = false) ⟨.unregistered, "duplicate personal anchor in genesis"⟩

/-- The text that personal anchors are compared by. -/
def PersonalAnchor.label (p : PersonalAnchor) : Bytes :=
  p.ownerDid ++ ascii "/" ++ hexEncode p.anchorHash

def GenesisState.validate (k : Keeper) (gs : GenesisState) : Result Unit := do
  gs.params.validate
  checkEach CredentialTemplate.id (validateGenesisTemplate k) [] gs.templates
  checkEach (fun a => hexEncode a.credentialHash) (validateGenesisAnchor gs.templates) [] gs.anchors
  checkEach (fun ag => hexEncode ag.hash)
    (validateGenesisAgreement gs.params.maxAgreementSigners) [] gs.agreements
  checkEach PersonalAnchor.label validateGenesisPersonal [] gs.personalAnchors

def exportGenesis (s : Store) : GenesisState where
  params := s.params
  templates := s.templates.values
  anchors := s.anchors.values
  agreements := s.agreements.values
  personalAnchors := s.personalAnchors.values

/-! ## Texts of hashes -/

/-- Anchors with one label have one key. -/
theorem key_of_label {p q : PersonalAnchor} (h : p.label = q.label) : p.key = q.key := by
  have hsplit : p.ownerDid ++ 47 :: hexEncode p.anchorHash =
      q.ownerDid ++ 47 :: hexEncode q.anchorHash := by
    have hslash : ascii "/" = [47] := by decide
    simpa [PersonalAnchor.label, hslash] using h
  obtain ⟨howner, hhash⟩ := append_mark_inj (slash_not_mem_hexEncode _)
    (slash_not_mem_hexEncode _) hsplit
  rw [PersonalAnchor.key, PersonalAnchor.key, howner, hexEncode_inj hhash]

/-! ## What the check asks of a state -/

structure TemplateOk (k : Keeper) (t : CredentialTemplate) : Prop where
  id : t.id ≠ []
  policy : validateDisclosurePolicy t.messageCount t.disclosableIndices = .ok ()
  hash : t.disclosurePolicyHash = t.policyHash k

structure AnchorOk (templates : KeyedMap Bytes CredentialTemplate CredentialTemplate.id)
    (a : CredentialAnchor) : Prop where
  hash : a.credentialHash ≠ []
  template : ∃ t, templates.get? a.templateId = some t ∧ a.templateVersion ≤ t.version

structure AgreementOk (maxSigners : UInt32) (ag : Agreement) : Prop where
  hash : ag.hash ≠ []
  signers : ag.requiredSigners ≠ []
  limit : UInt32.ofNat ag.requiredSigners.length ≤ maxSigners
  signed : ∀ sig ∈ ag.signatures, sig.signerDid ∈ ag.requiredSigners
  once : (ag.signatures.map AgreementSignature.signerDid).Nodup

/-- A state whose export is accepted. -/
structure Exportable (k : Keeper) (s : Store) : Prop where
  params : s.params.validate = .ok ()
  templates : ∀ id t, s.templates.get? id = some t → TemplateOk k t
  anchors : ∀ hash a, s.anchors.get? hash = some a → AnchorOk s.templates a
  agreements : ∀ hash ag, s.agreements.get? hash = some ag →
    AgreementOk s.params.maxAgreementSigners ag
  personal : ∀ key p, s.personalAnchors.get? key = some p → p.ownerDid ≠ [] ∧ p.anchorHash ≠ []

variable {t : CredentialTemplate} {s : Store}

section Accepted

variable {k : Keeper}

theorem validateSignatures_ok {requiredSigners signed : List Bytes}
    {signatures : List AgreementSignature} (hlisted : ∀ sig ∈ signatures, sig.signerDid ∈ requiredSigners)
    (hfresh : ∀ sig ∈ signatures, sig.signerDid ∉ signed)
    (honce : (signatures.map AgreementSignature.signerDid).Nodup) :
    validateSignatures requiredSigners signed signatures = .ok () := by
  induction signatures generalizing signed with
  | nil => rfl
  | cons sig rest ih =>
    obtain ⟨hnew, honce⟩ := List.nodup_cons.1 honce
    simp only [validateSignatures, bind_eq_ok, ensure_eq_ok, exists_const]
    refine ⟨hlisted sig List.mem_cons_self, hfresh sig List.mem_cons_self, ih ?_ ?_ honce⟩
    · exact fun sig' hmem => hlisted sig' (List.mem_cons_of_mem _ hmem)
    · intro sig' hmem hsigned
      rcases List.mem_cons.1 hsigned with hsame | hsigned
      · exact hnew (hsame ▸ List.mem_map_of_mem hmem)
      · exact hfresh sig' (List.mem_cons_of_mem _ hmem) hsigned

/-- Records in a map have distinct texts where the text determines the key. -/
theorem nodup_texts {ν : Type} {key : ν → Bytes} (m : KeyedMap Bytes ν key) {text : ν → Bytes}
    (htext : ∀ x y, text x = text y → key x = key y) : (m.values.map text).Nodup := by
  apply (List.nodup_map_iff_inj_on m.nodup_values_keys.of_map).2
  intro x hx y hy hsame
  have hget := KeyedMap.mem_values.1 hx
  rw [htext x y hsame, KeyedMap.mem_values.1 hy] at hget
  exact (Option.some.inj hget).symm

/-- The template that the validator finds is the stored one. -/
theorem find_template {id : Bytes} (h : s.templates.get? id = some t) :
    (s.templates.values.find? fun t => t.id = id) = some t := by
  have hid : t.id = id := KeyedMap.key_of_get? h
  cases hfound : s.templates.values.find? fun t => t.id = id with
  | none =>
    have hmem : t ∈ s.templates.values := KeyedMap.mem_values.2 (hid.symm ▸ h)
    exact absurd (decide_eq_true hid) (List.find?_eq_none.1 hfound t hmem)
  | some t' =>
    have hid' : t'.id = id := by simpa using List.find?_some hfound
    have hget := KeyedMap.mem_values.1 (List.mem_of_find?_eq_some hfound)
    rw [hid', h] at hget
    exact hget.symm

theorem Exportable.validate (h : Exportable k s) : (exportGenesis s).validate k = .ok () := by
  simp only [GenesisState.validate, exportGenesis, bind_eq_ok]
  refine ⟨(), h.params, (), ?_, (), ?_, (), ?_, ?_⟩
  · refine checkEach_of_nodup (fun t ht => ?_) (fun _ _ => List.not_mem_nil)
      s.templates.nodup_values_keys
    have hok := h.templates _ t (KeyedMap.mem_values.1 ht)
    simp only [validateGenesisTemplate, bind_eq_ok, ensure_eq_ok, exists_const]
    exact ⟨hok.id, trivial, (), hok.policy, hok.hash⟩
  · refine checkEach_of_nodup (fun a ha => ?_) (fun _ _ => List.not_mem_nil)
      (nodup_texts s.anchors fun _ _ => hexEncode_inj)
    have hok := h.anchors _ a (KeyedMap.mem_values.1 ha)
    obtain ⟨t, ht, hversion⟩ := hok.template
    simp only [validateGenesisAnchor, bind_eq_ok, ensure_eq_ok, orFail_eq_ok, exists_const]
    exact ⟨hok.hash, trivial, t, find_template ht, hversion⟩
  · refine checkEach_of_nodup (fun ag hag => ?_) (fun _ _ => List.not_mem_nil)
      (nodup_texts s.agreements fun _ _ => hexEncode_inj)
    have hok := h.agreements _ ag (KeyedMap.mem_values.1 hag)
    simp only [validateGenesisAgreement, bind_eq_ok, ensure_eq_ok, exists_const]
    exact ⟨hok.hash, trivial, hok.signers, hok.limit,
      validateSignatures_ok hok.signed (fun _ _ => List.not_mem_nil) hok.once⟩
  · refine checkEach_of_nodup (fun p hp => ?_) (fun _ _ => List.not_mem_nil)
      (nodup_texts s.personalAnchors fun _ _ => key_of_label)
    simp only [validateGenesisPersonal, bind_eq_ok, ensure_eq_ok, exists_const]
    exact ⟨h.personal _ p (KeyedMap.mem_values.1 hp), trivial⟩

end Accepted

/-! ## What the messages keep -/

/-- Messages that keep the records importable: an update finds a version below the largest, and
new parameters have room for the signers of every agreement there is. -/
def Sustains (s : Store) : Tx → Prop
  | ⟨_, _, .updateCredentialTemplate msg⟩ =>
    ∀ t ∈ s.templates.get? msg.id, t.version.toNat + 1 < 2 ^ 32
  | ⟨_, _, .updateParams msg⟩ => ∀ ag ∈ s.agreements.values,
      UInt32.ofNat ag.requiredSigners.length ≤ msg.params.maxAgreementSigners
  | _ => True

instance (s : Store) : (tx : Tx) → Decidable (Sustains s tx)
  | ⟨_, _, .updateCredentialTemplate msg⟩ =>
    inferInstanceAs (Decidable (∀ t ∈ s.templates.get? msg.id, t.version.toNat + 1 < 2 ^ 32))
  | ⟨_, _, .updateParams msg⟩ => inferInstanceAs (Decidable (∀ ag ∈ s.agreements.values,
      UInt32.ofNat ag.requiredSigners.length ≤ msg.params.maxAgreementSigners))
  | ⟨_, _, .registerCredentialTemplate _⟩ | ⟨_, _, .deprecateCredentialTemplate _⟩
  | ⟨_, _, .anchorCredential _⟩ | ⟨_, _, .revokeCredential _⟩ | ⟨_, _, .createAgreement _⟩
  | ⟨_, _, .signAgreement _⟩ | ⟨_, _, .cancelAgreement _⟩ | ⟨_, _, .anchorPersonal _⟩ =>
    inferInstanceAs (Decidable True)

section Kept

variable {k : Keeper} {env : Env} {ids : Identity.Store} {s' : Store}

theorem nonempty_of_validate {field : String} {b : Bytes} (h : validateNonempty field b = .ok ()) :
    b ≠ [] := ensure_eq_ok.1 h

/-- A template that is new, or not behind the one it replaces, leaves the anchors in order. -/
theorem Exportable.setTemplate (h : Exportable k s) (ht : TemplateOk k t)
    (hversion : ∀ old, s.templates.get? t.id = some old → old.version ≤ t.version) :
    Exportable k { s with templates := s.templates.set t } := by
  refine ⟨h.params, KeyedMap.forall_set h.templates ht, fun hash a ha => ?_, h.agreements,
    h.personal⟩
  obtain ⟨hhash, old, hold, hle⟩ := h.anchors hash a ha
  refine ⟨hhash, ?_⟩
  by_cases hsame : t.id = a.templateId
  · refine ⟨t, ?_, UInt32.le_trans hle (hversion old (hsame ▸ hold))⟩
    rw [← hsame]
    exact KeyedMap.get?_set_self _ _
  · exact ⟨old, (KeyedMap.get?_set_ne _ hsame).trans hold, hle⟩

/-- A template rewritten under its id, not behind what it was. -/
theorem Exportable.rewriteTemplate (h : Exportable k s) {id : Bytes} {t' : CredentialTemplate}
    (ht : s.templates.get? id = some t) (hid : t'.id = t.id) (hok : TemplateOk k t')
    (hversion : t.version ≤ t'.version) : Exportable k { s with templates := s.templates.set t' } := by
  apply h.setTemplate hok
  intro old hold
  rw [hid, KeyedMap.key_of_get? ht, ht] at hold
  cases hold
  exact hversion

theorem Exportable.registered (h : Exportable k s) {msg : MsgRegisterCredentialTemplate}
    (hbasic : msg.validateBasic = .ok ()) (hnew : s.templates.has msg.id = false)
    (hpolicy : validateDisclosurePolicy msg.messageCount msg.disclosableIndices = .ok ()) :
    Exportable k { s with templates := s.templates.set (msg.template k env) } := by
  simp only [MsgRegisterCredentialTemplate.validateBasic, bind_eq_ok] at hbasic
  obtain ⟨⟨⟩, -, ⟨⟩, hid, -⟩ := hbasic
  apply h.setTemplate ⟨nonempty_of_validate hid, hpolicy, rfl⟩
  intro old hold
  exact absurd (hold.symm.trans (KeyedMap.has_eq_false.1 hnew)) nofun

/-- The next version does not wrap, so it is the larger one. -/
theorem Exportable.updated (h : Exportable k s) {msg : MsgUpdateCredentialTemplate}
    (ht : s.templates.get? msg.id = some t) (hwrap : t.version.toNat + 1 < 2 ^ 32)
    (hpolicy : validateDisclosurePolicy msg.messageCount msg.disclosableIndices = .ok ()) :
    Exportable k { s with templates := s.templates.set (msg.template k env t) } := by
  apply h.rewriteTemplate ht
  · rfl
  · exact ⟨(h.templates _ t ht).id, hpolicy, rfl⟩
  · have hone : (1 : UInt32).toNat = 1 := rfl
    show t.version ≤ t.version + 1
    rw [UInt32.le_iff_toNat_le, UInt32.toNat_add]
    omega

theorem Exportable.setAnchor (h : Exportable k s) {a : CredentialAnchor}
    (hok : AnchorOk s.templates a) : Exportable k { s with anchors := s.anchors.set a } :=
  ⟨h.params, h.templates, KeyedMap.forall_set h.anchors hok, h.agreements, h.personal⟩

theorem Exportable.setAgreement (h : Exportable k s) {ag : Agreement}
    (hok : AgreementOk s.params.maxAgreementSigners ag) :
    Exportable k { s with agreements := s.agreements.set ag } :=
  ⟨h.params, h.templates, h.anchors, KeyedMap.forall_set h.agreements hok, h.personal⟩

theorem Exportable.reparametrised (h : Exportable k s) {params : Params}
    (hparams : params.validate = .ok ()) (hroom : ∀ ag ∈ s.agreements.values,
      UInt32.ofNat ag.requiredSigners.length ≤ params.maxAgreementSigners) :
    Exportable k { s with params := params } := by
  refine ⟨hparams, h.templates, h.anchors, fun hash ag hag => ?_, h.personal⟩
  have hok := h.agreements hash ag hag
  have hmem : ag ∈ s.agreements.values :=
    KeyedMap.mem_values.2 ((KeyedMap.key_of_get? hag).symm ▸ hag)
  exact ⟨hok.hash, hok.signers, hroom ag hmem, hok.signed, hok.once⟩

end Kept

/-! ## Runs -/

section Runs

variable {k : Keeper}

theorem exportable_fresh (k : Keeper) : Exportable k Store.fresh where
  params := rfl
  templates _ _ h := by cases h
  anchors _ _ h := by cases h
  agreements _ _ h := by cases h
  personal _ _ h := by cases h

/-- One message keeps a state exportable. -/
theorem Exportable.step (h : Exportable k s) {tx : Tx}
    (hsafe : isOk (apply k tx.env tx.ids s tx.action) = true → Sustains s tx) :
    Exportable k (step k s tx) := by
  apply commit_preserves h
  intro s' happly
  have hsustains := hsafe (isOk_iff.2 ⟨s', happly⟩)
  obtain ⟨⟨⟩, hbasic, -⟩ := bind_eq_ok.1 happly
  obtain ⟨env, ids, action⟩ := tx
  cases effect_of_apply happly with
  | registered msg hnew howner hbbs hpolicy => exact h.registered hbasic hnew hpolicy
  | updated msg t ht howner hlive hpolicy => exact h.updated ht (hsustains t ht) hpolicy
  | deprecated msg t ht =>
    have hok := h.templates _ t ht
    exact h.rewriteTemplate ht rfl ⟨hok.id, hok.policy, hok.hash⟩ (UInt32.le_refl t.version)
  | anchored msg t key hnew hissuer hsubject ht hactive hversion =>
    simp only [Action.validateBasic, MsgAnchorCredential.validateBasic, bind_eq_ok] at hbasic
    obtain ⟨⟨⟩, -, ⟨⟩, -, ⟨⟩, -, ⟨⟩, -, ⟨⟩, hhash, -⟩ := hbasic
    exact h.setAnchor ⟨nonempty_of_validate hhash, t, ht, hversion ▸ UInt32.le_refl _⟩
  | revoked msg a ha =>
    have hok := h.anchors _ a ha
    exact h.setAnchor ⟨hok.hash, hok.template⟩
  | created msg _ hnew hsize =>
    simp only [Action.validateBasic, MsgCreateAgreement.validateBasic, bind_eq_ok, ensure_eq_ok,
      exists_const] at hbasic
    obtain ⟨⟨⟩, -, ⟨⟩, hhash, hsigners, -⟩ := hbasic
    exact h.setAgreement ⟨nonempty_of_validate hhash, hsigners, hsize,
      fun _ hsig => absurd hsig List.not_mem_nil, List.nodup_nil⟩
  | signed msg ag hag hsignable =>
    have hok := h.agreements _ ag hag
    exact h.setAgreement
      ⟨hok.hash, hok.signers, hok.limit, hsignable.signed hok.signed, hsignable.once hok.once⟩
  | cancelled msg ag hag =>
    have hok := h.agreements _ ag hag
    exact h.setAgreement ⟨hok.hash, hok.signers, hok.limit, hok.signed, hok.once⟩
  | anchoredPersonal msg =>
    simp only [Action.validateBasic, MsgAnchorPersonal.validateBasic, bind_eq_ok] at hbasic
    obtain ⟨⟨⟩, -, ⟨⟩, howner, ⟨⟩, hhash, -⟩ := hbasic
    exact ⟨h.params, h.templates, h.anchors, h.agreements, KeyedMap.forall_set h.personal
      ⟨nonempty_of_validate howner, nonempty_of_validate hhash⟩⟩
  | reparametrised msg hauthority hvalid => exact h.reparametrised hvalid hsustains

/-- In every state reached from the default genesis by messages of which the accepted ones keep the
records importable, the export is accepted. -/
theorem credentials_export_importable (k : Keeper) {txs : List Tx}
    (h : Along (step k)
      (fun s tx => isOk (apply k tx.env tx.ids s tx.action) = true → Sustains s tx)
      Store.fresh txs) :
    (exportGenesis (run (step k) Store.fresh txs)).validate k = .ok () := by
  have hkept : Exportable k (run (step k) Store.fresh txs) :=
    run_preserves (fun _ _ hstep hs => hs.step hstep) (exportable_fresh k) h
  exact hkept.validate

end Runs

/-! ## Messages of one owner

The owner of the self-custody identity of account 21, whose signatures on P-256 are refused or
taken as `dualCurveKeeper` has it. -/

def ownTx (action : Action) : Tx := ⟨Identity.smallEnv 3, selfCustodyIdentities, action⟩

/-- An agreement of two. -/
def agreeTx : Tx :=
  ownTx (.createAgreement ⟨accAddressString [21], [6], [selfCustodyDID, [1]], 0⟩)

/-- A limit for the signers of an agreement. -/
def limitTx (maxAgreementSigners : UInt32) : Tx :=
  ownTx (.updateParams ⟨accAddressString [5], ⟨maxAgreementSigners⟩⟩)

def registerTx : Tx :=
  ownTx (.registerCredentialTemplate
    ⟨accAddressString [21], [4], selfCustodyDID, [1], [1], [], 0, []⟩)

def updateMsg : MsgUpdateCredentialTemplate := ⟨accAddressString [21], [4], [1], [], 0, []⟩

def updateTx : Tx := ownTx (.updateCredentialTemplate updateMsg)

/-- A credential under the first version of the template. -/
def anchorTx : Tx :=
  ownTx (.anchorCredential
    ⟨accAddressString [21], selfCustodyDID, selfCustodyDID, [4], 1, [8], [1, 3, 9]⟩)

/-- A template, a credential under it, an update, an agreement of two, and a limit of two. -/
def sustainedRun : List Tx := [registerTx, anchorTx, updateTx, agreeTx, limitTx 2]

theorem credentials_export_sustained :
    (exportGenesis (run (step dualCurveKeeper) Store.fresh sustainedRun)).validate dualCurveKeeper =
        .ok () ∧
      (run (step dualCurveKeeper) Store.fresh sustainedRun).anchors.has [8] = true ∧
      (run (step dualCurveKeeper) Store.fresh sustainedRun).agreements.has [6] = true := by
  refine ⟨credentials_export_importable dualCurveKeeper ?_, ?_, ?_⟩
  · decide +kernel
  · decide +kernel
  · decide +kernel

/-! ## Refused exports -/

/-- An accepted export has every anchor at a version its template has reached. -/
theorem version_of_validate {k : Keeper} (h : (exportGenesis s).validate k = .ok ()) {hash : Bytes}
    {a : CredentialAnchor} (ha : s.anchors.get? hash = some a)
    (ht : s.templates.get? a.templateId = some t) : a.templateVersion ≤ t.version := by
  simp only [GenesisState.validate, exportGenesis, bind_eq_ok] at h
  obtain ⟨⟨⟩, -, ⟨⟩, -, ⟨⟩, hanchors, -⟩ := h
  have hmem : a ∈ s.anchors.values := KeyedMap.mem_values.2 ((KeyedMap.key_of_get? ha).symm ▸ ha)
  have hdup : ∀ d a, validateGenesisAnchor s.templates.values d a = .ok () → d = false := by
    intro d a hchecked
    simp only [validateGenesisAnchor, bind_eq_ok, ensure_eq_ok, exists_const] at hchecked
    exact hchecked.2.1
  have hchecked := ((checkEach_ok hdup hanchors).1 a hmem).1
  simp only [validateGenesisAnchor, bind_eq_ok, ensure_eq_ok, orFail_eq_ok, exists_const,
    find_template ht] at hchecked
  obtain ⟨-, -, t', hfound, hversion⟩ := hchecked
  cases hfound
  exact hversion

/-- The state of the template, and the credential under it. -/
structure AtVersion (version : UInt32) (s : Store) : Prop where
  template : ∃ t, s.templates.get? [4] = some t ∧ t.version = version ∧ t.status = .active ∧
    t.ownerDid = selfCustodyDID
  anchor : ∃ a, s.anchors.get? [8] = some a ∧ a.templateId = [4] ∧ a.templateVersion = 1

/-- An update of an active template by its owner succeeds, and writes the next version. -/
theorem updateCredentialTemplate_ok (k : Keeper) (env : Env) {ids : Identity.Store}
    (msg : MsgUpdateCredentialTemplate) {key : Bytes} (ht : s.templates.get? msg.id = some t)
    (hauth : authDID ids t.ownerDid msg.creator = .ok key) (hactive : t.status = .active)
    (hpolicy : validateDisclosurePolicy msg.messageCount msg.disclosableIndices = .ok ()) :
    ∃ s', updateCredentialTemplate k env ids msg s = .ok s' ∧ s'.anchors = s.anchors ∧
      ∃ t', s'.templates.get? msg.id = some t' ∧ t'.version = t.version + 1 ∧
        t'.status = .active ∧ t'.ownerDid = t.ownerDid := by
  have hok : ∃ s', updateCredentialTemplate k env ids msg s = .ok s' := by
    simp only [updateCredentialTemplate, bind_eq_ok, ensure_eq_ok, orFail_eq_ok, pure_eq_ok,
      exists_const]
    exact ⟨_, t, ht, key, hauth, by simp [hactive], (), hpolicy, rfl⟩
  obtain ⟨s', hok⟩ := hok
  refine ⟨s', hok, ?_⟩
  simp only [updateCredentialTemplate, bind_eq_ok, ensure_eq_ok, orFail_eq_ok, pure_eq_ok,
    exists_const] at hok
  obtain ⟨t', ht', -, -, -, -, -, rfl⟩ := hok
  cases ht.symm.trans ht'
  rw [← KeyedMap.key_of_get? ht]
  exact ⟨rfl, _, KeyedMap.get?_set_self _ _, rfl, hactive, rfl⟩

theorem validateBasic_updateMsg : updateMsg.validateBasic = .ok () := by decide +kernel

/-- An update moves the version on by one, modulo `2 ^ 32`. -/
theorem AtVersion.update {version : UInt32} (h : AtVersion version s) :
    AtVersion (version + 1) (step dualCurveKeeper s updateTx) := by
  obtain ⟨⟨t, ht, rfl, hactive, howner⟩, hanchor⟩ := h
  have hauth : authDID selfCustodyIdentities t.ownerDid updateMsg.creator = .ok [3, 9] := by
    rw [howner]
    exact authDID_eq_ok.2 ⟨selfCustodyDocument, getIdentity_selfCustody, rfl, rfl, rfl⟩
  obtain ⟨s', hhandle, hanchors, t', ht', hversion, hactive', howner'⟩ :=
    updateCredentialTemplate_ok dualCurveKeeper (Identity.smallEnv 3) updateMsg ht hauth hactive rfl
  have hstep : step dualCurveKeeper s updateTx = s' := by
    simp only [step, updateTx, ownTx, apply, Action.validateBasic, handle, validateBasic_updateMsg,
      hhandle]
    rfl
  rw [hstep]
  refine ⟨⟨t', ht', hversion, hactive', howner'.trans howner⟩, ?_⟩
  rw [hanchors]
  exact hanchor

theorem AtVersion.updates {version : UInt32} (h : AtVersion version s) (n : Nat) :
    AtVersion (version + UInt32.ofNat n)
      (run (step dualCurveKeeper) s (List.replicate n updateTx)) := by
  induction n generalizing version s with
  | zero =>
    have hzero : version + UInt32.ofNat 0 = version := UInt32.add_zero version
    rw [hzero]
    exact h
  | succ n ih =>
    have hnext := ih h.update
    rw [UInt32.add_assoc, UInt32.add_comm 1, ← UInt32.ofNat_one, ← UInt32.ofNat_add] at hnext
    exact hnext

/-- A template whose version wraps leaves its credentials behind. -/
theorem AtVersion.refused (h : AtVersion 0 s) (k : Keeper) :
    (exportGenesis s).validate k ≠ .ok () := by
  obtain ⟨⟨t, ht, hversion, -⟩, a, ha, hid, hfirst⟩ := h
  intro hvalid
  have hle := version_of_validate hvalid ha (hid ▸ ht)
  rw [hfirst, hversion] at hle
  exact absurd hle (by decide)

theorem atVersion_first :
    AtVersion 1 (run (step dualCurveKeeper) Store.fresh [registerTx, anchorTx]) := by
  have htemplate : ((run (step dualCurveKeeper) Store.fresh [registerTx, anchorTx]).templates.get?
      [4]).map (fun t => (t.version, t.status, t.ownerDid)) = some (1, .active, selfCustodyDID) := by
    decide +kernel
  have hanchor : ((run (step dualCurveKeeper) Store.fresh [registerTx, anchorTx]).anchors.get?
      [8]).map (fun a => (a.templateId, a.templateVersion)) = some ([4], 1) := by
    decide +kernel
  obtain ⟨t, ht, htemplate⟩ := Option.map_eq_some_iff.1 htemplate
  obtain ⟨a, ha, hanchor⟩ := Option.map_eq_some_iff.1 hanchor
  simp only [Prod.mk.injEq] at htemplate hanchor
  exact ⟨⟨t, ht, htemplate⟩, a, ha, hanchor⟩

/-- An agreement of two, and then a limit of one. -/
def loweredRun : List Tx := [agreeTx, limitTx 1]

/-- A credential under the first version, and as many updates as there are further versions, and
one more. -/
def wrappedRun : List Tx := [registerTx, anchorTx] ++ List.replicate (2 ^ 32 - 1) updateTx

/-- Both exports are refused. -/
theorem credentials_export_refused :
    (exportGenesis (run (step dualCurveKeeper) Store.fresh loweredRun)).validate dualCurveKeeper =
        .error ⟨.unregistered, "agreement exceeds max_agreement_signers"⟩ ∧
      (exportGenesis (run (step dualCurveKeeper) Store.fresh wrappedRun)).validate dualCurveKeeper ≠
        .ok () := by
  constructor
  · decide +kernel
  · have hwrap : (1 : UInt32) + UInt32.ofNat (2 ^ 32 - 1) = 0 := by decide
    have hlast := atVersion_first.updates (2 ^ 32 - 1)
    rw [hwrap, ← run_append] at hlast
    exact hlast.refused dualCurveKeeper

end PhiChain.Credentials
