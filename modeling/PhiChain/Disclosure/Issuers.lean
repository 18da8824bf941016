import PhiChain.Credentials.Agreements
import PhiChain.Disclosure.Query

/-!
# Disclosure: the issuer an answer names

The issuer in an answer is the one of the anchor, and the key that verifies the proof is the one of
the template. A template keeps its owner for good (`OwnedBy.effect`), but an anchor may name any
DID that signs for it. Where every anchoring of a run names the template's owner, a valid answer
names the owner of the template whose key verified the proof (`disclosed_issuer_owns`); otherwise
it may name someone else (`stranger_named_as_issuer`).
-/

set_option autoImplicit false

namespace PhiChain.Disclosure

open Foundations Sdk
open Credentials (CredentialTemplate Effect Tx Store effect_of_apply)
open Identity (Keeper Env)

section Owners

variable {k : Keeper} {env : Env} {ids : Identity.Store} {s s' : Store} {a : Credentials.Action}
  {id owner : Bytes}

/-- The template under the id has this owner. -/
def OwnedBy (id owner : Bytes) (s : Store) : Prop :=
  ∃ t, s.templates.get? id = some t ∧ t.ownerDid = owner

/-- A stored template is rewritten with its id and its owner. -/
theorem OwnedBy.rewrite {named : Bytes} {t t' : CredentialTemplate} (h : OwnedBy id owner s)
    (ht : s.templates.get? named = some t) (hid : t'.id = t.id) (howner : t'.ownerDid = t.ownerDid) :
    OwnedBy id owner { s with templates := s.templates.set t' } := by
  have hkey : t'.id = named := hid.trans (KeyedMap.key_of_get? ht)
  obtain ⟨u, hu, hu'⟩ := h
  by_cases hnamed : t'.id = id
  · have hsame : u = t := Option.some.inj (hu.symm.trans ((hnamed.symm.trans hkey) ▸ ht))
    refine ⟨t', ?_, ?_⟩
    · rw [KeyedMap.get?_set, if_pos hnamed]
    · rw [howner, ← hsame, hu']
  · refine ⟨u, ?_, hu'⟩
    rw [KeyedMap.get?_set_ne _ hnamed]
    exact hu

/-- No message takes a template away or changes its owner. -/
theorem OwnedBy.effect (h : OwnedBy id owner s) (heffect : Effect k env ids s a s') :
    OwnedBy id owner s' := by
  cases heffect with
  | registered msg hnew howner hbbs hpolicy =>
    obtain ⟨t, ht, ht'⟩ := h
    have hother : (msg.template k env).id ≠ id := by
      rintro rfl
      exact absurd (ht.symm.trans (KeyedMap.has_eq_false.1 hnew)) nofun
    refine ⟨t, ?_, ht'⟩
    rw [KeyedMap.get?_set_ne _ hother]
    exact ht
  | updated msg t ht | deprecated msg t ht => exact h.rewrite ht rfl rfl
  | anchored | revoked | created | signed | cancelled | anchoredPersonal | reparametrised => exact h

/-- Every anchor names the owner of its template. -/
def OwnersIssue (s : Store) : Prop :=
  ∀ hash anchor, s.anchors.get? hash = some anchor → OwnedBy anchor.templateId anchor.issuerDid s

/-- An anchoring names the owner of the template as the issuer. -/
def IssuesOwn (s : Store) (tx : Tx) : Prop :=
  ∀ msg t, tx.action = .anchorCredential msg → s.templates.get? msg.templateId = some t →
    msg.issuerDid = t.ownerDid

theorem OwnersIssue.step {tx : Tx} (hown : IssuesOwn s tx) (h : OwnersIssue s) :
    OwnersIssue (Credentials.step k s tx) := by
  apply commit_preserves h
  intro s' happly
  obtain ⟨env, ids, action⟩ := tx
  have heffect := effect_of_apply happly
  -- owners stay, so the anchors there were still name them; what is left is the anchor written now
  have hkept : ∀ hash anchor, s.anchors.get? hash = some anchor →
      OwnedBy anchor.templateId anchor.issuerDid s' :=
    fun hash anchor hanchor => (h hash anchor hanchor).effect heffect
  cases heffect with
  | anchored msg t key hnew hissuer hsubject ht hactive hversion hsigned =>
    exact KeyedMap.forall_set hkept ⟨t, ht, (hown msg t rfl ht).symm⟩
  | revoked msg anchor hanchor hlive hissuer =>
    exact KeyedMap.forall_set hkept (hkept _ anchor hanchor)
  | registered | updated | deprecated | created | signed | cancelled | anchoredPersonal
    | reparametrised => exact hkept

theorem ownersIssue_run (k : Keeper) {txs : List Tx}
    (h : Along (Credentials.step k) IssuesOwn Store.fresh txs) :
    OwnersIssue (run (Credentials.step k) Store.fresh txs) :=
  run_preserves (fun _ _ hown hs => hs.step hown) (fun _ _ hnone => nomatch hnone) h

end Owners

/-- In every state reached by messages that anchor credentials under the templates of their issuers,
a valid answer names the owner of the template whose key verified the proof. -/
theorem disclosed_issuer_owns (verify : (proof issuerKey nonce : Bytes) → Bool) (params : Params)
    (k : Keeper) {txs : List Tx} (hrun : Along (Credentials.step k) IssuesOwn Store.fresh txs)
    {req : VerifyDisclosureRequest} {resp : VerifyDisclosureResponse}
    (hanswer : verifyDisclosure verify params (run (Credentials.step k) Store.fresh txs) req =
      .ok resp) (hvalid : resp.valid = true) :
    ∃ tmpl, (run (Credentials.step k) Store.fresh txs).templates.get? resp.templateId = some tmpl ∧
      verify req.proof tmpl.issuerBbsPubkey req.nonce = true ∧ resp.issuerDid = tmpl.ownerDid := by
  obtain ⟨anchor, tmpl, disclosed, hpresentable, hverified, -, -, hissuer, htemplate⟩ :=
    presentable_of_valid hanswer hvalid
  -- the answer takes issuer and template id from the anchor
  obtain ⟨t, ht, howner⟩ := ownersIssue_run k hrun _ anchor hpresentable.anchored
  cases hpresentable.template.symm.trans ht
  refine ⟨tmpl, ?_, hverified, ?_⟩
  · rw [htemplate]
    exact ht
  · rw [hissuer, howner]

/-! ## A template of one issuer, an anchor of another

Account 21 registers a template with the BBS key 9. The credential with hash 11 is anchored under
it, by account 21 or by account 22. -/

def issuerTx (now : Fin 10000) (action : Credentials.Action) : Tx :=
  ⟨Identity.smallEnv now, Credentials.signerIdentities, action⟩

def registerOwn : Tx :=
  issuerTx 3 (.registerCredentialTemplate
    ⟨accAddressString [21], [1], Identity.smallDID 1, [1], [9], [1], 2, [0]⟩)

def anchorUnder (account key : Byte) : Tx :=
  issuerTx 4 (.anchorCredential ⟨accAddressString [account], Identity.smallDID key,
    Identity.smallDID key, [1], 1, [11], [4, key]⟩)

/-- The store after an anchoring under the template. -/
def anchoredBy (account key : Byte) : Store :=
  run (Credentials.step Identity.smallKeeper) Store.fresh [registerOwn, anchorUnder account key]

/-- A valid answer that names the DID of a key. -/
def answerNaming (key : Byte) : VerifyDisclosureResponse :=
  ⟨true, "", Identity.smallDID key, [1], .predicate, [],
    (((anchoredBy 21 1).templates.get? [1]).map (·.disclosurePolicyHash)).getD []⟩

theorem issuesOwn_run : Along (Credentials.step Identity.smallKeeper) IssuesOwn Store.fresh
    [registerOwn, anchorUnder 21 1] := by
  refine ⟨?_, ?_, trivial⟩
  · rintro msg t ⟨⟩
  · rintro msg t ⟨⟩ ht
    have howner : ((Credentials.step Identity.smallKeeper Store.fresh registerOwn).templates.get?
        [1]).map CredentialTemplate.ownerDid = some (Identity.smallDID 1) := by decide +kernel
    rw [ht] at howner
    exact (Option.some.inj howner).symm

theorem disclosed_issuer_owns_first :
    ∃ tmpl, (anchoredBy 21 1).templates.get? [1] = some tmpl ∧
      firstOnly.verifyBBSProof predicateProof tmpl.issuerBbsPubkey [7] = true ∧
      Identity.smallDID 1 = tmpl.ownerDid := by
  have hanswer : verifyDisclosure firstOnly.verifyBBSProof defaultParams (anchoredBy 21 1)
      nameSecond = .ok (answerNaming 1) := by decide +kernel
  exact disclosed_issuer_owns firstOnly.verifyBBSProof defaultParams Identity.smallKeeper
    issuesOwn_run hanswer rfl

/-- A stranger's anchor is answered with the stranger as the issuer, although the key that verified
the proof is the template owner's. -/
theorem stranger_named_as_issuer :
    verifyDisclosure firstOnly.verifyBBSProof defaultParams (anchoredBy 22 2) nameSecond =
        .ok (answerNaming 2) ∧
      (answerNaming 2).valid = true ∧
      ((anchoredBy 22 2).templates.get? (answerNaming 2).templateId).map
          (fun t => (t.ownerDid, t.issuerBbsPubkey)) = some (Identity.smallDID 1, [9]) ∧
      firstOnly.verifyBBSProof nameSecond.proof [9] nameSecond.nonce = true ∧
      (answerNaming 2).issuerDid ≠ Identity.smallDID 1 := by
  refine ⟨?_, rfl, ?_, ?_, ?_⟩ <;> decide +kernel

end PhiChain.Disclosure
