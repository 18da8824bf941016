import PhiChain.Identity.Escrow

/-!
# Identity: the records a run leaves

The genesis validator checks the stored records once more. This module says what it checks of
each record on its own and that every message keeps it: a document (`WellFormed`), a recovery
request (`WellMade`), and the keyspaces no other module follows (`Keyspaces`).
-/

set_option autoImplicit false

namespace PhiChain.Identity

open Foundations Sdk

variable {k : Keeper} {env : Env} {w w' : World} {s : Store} {a : Action} {did id : Bytes}
  {r r' : RecoveryRequest}

/-! ## Requests on their own -/

/-- Whether a DID is well formed does not depend on the field it is in. -/
theorem validateDID_field {field : String} (h : validateDID field did = .ok ()) (other : String) :
    validateDID other did = .ok () := by
  simp only [validateDID, bind_eq_ok, ensure_eq_ok, exists_const] at h ⊢
  exact h

/-- What the genesis validator checks of a request, its DID, its window and its number apart. -/
structure WellMade (k : Keeper) (r : RecoveryRequest) : Prop where
  did : validateDID "" r.did = .ok ()
  controller : (accAddressFromBech32 r.proposedNewController).isSome = true
  pubKey : r.proposedNewPubKey.length ≠ 0 ∧ r.proposedNewPubKey.length ≤ maxPubKeyLen
  nonce : r.nonce.length ≠ 0 ∧ r.nonce.length ≤ maxRecoveryNonceLen
  keyType : r.keyType = .secp256r1
  derived : r.recoveryId = deriveRecoveryID k r.did r.proposedNewPubKey r.nonce
  approvals : r.approvals.Nodup
  rejections : r.rejections.Nodup
  deposit : (newIntFromString r.depositUphi).isSome = true
  fee : (newIntFromString r.feeUphi).isSome = true
  method : validateGenesisMethod r = .ok ()

/-- An amount that parameters set is written so that it can be read again. -/
theorem newIntFromString_amount {text : Bytes} (h : 0 ≤ (newIntFromString text).getD 0) :
    (newIntFromString (intString ((newIntFromString text).getD 0))).isSome = true := by
  cases hread : newIntFromString text with
  | none => decide
  | some v =>
    rw [hread, Option.getD_some] at h
    rw [Option.getD_some, newIntFromString_intString h (natAbs_of_newIntFromString hread)]
    rfl

theorem wellMade_request {msg : MsgInitiateRecovery} {params : Params}
    (hbasic : (Action.initiateRecovery msg).validateBasic = .ok ())
    (hparams : params.validate = .ok ()) : WellMade k (msg.request k env params) := by
  obtain ⟨hdeposit, hfee⟩ := fairParams_of_validate hparams
  simp only [Action.validateBasic, MsgInitiateRecovery.validateBasic, validateAddress, validateLen,
    bind_eq_ok, ensure_eq_ok, exists_const] at hbasic
  obtain ⟨haddress, ⟨⟩, hdid, hpubKey, hkeyType, hnonce, -, hmethod⟩ := hbasic
  refine ⟨hdid, haddress, hpubKey, hnonce, hkeyType, rfl, List.nodup_nil, List.nodup_nil, ?_, ?_, ?_⟩
  · show (newIntFromString
      (intString (if msg.method = .reauth then 0 else params.recoveryDeposit))).isSome = true
    split
    · decide
    · exact newIntFromString_amount hdeposit
  · show (newIntFromString
      (intString (if msg.method = .reauth then params.reauthRecoveryFee else 0))).isSome = true
    split
    · exact newIntFromString_amount hfee
    · decide
  · show validateGenesisMethod (msg.request k env params) = .ok ()
    have hsame : (msg.request k env params).method = msg.method := rfl
    unfold MsgInitiateRecovery.validateMethod at hmethod
    unfold validateGenesisMethod
    rw [hsame]
    cases hm : msg.method with
    | unspecified =>
      rw [hm] at hmethod
      cases hmethod
    | social =>
      rw [hm] at hmethod
      exact ensure_eq_ok.2 (ensure_eq_ok.1 hmethod).2
    | reauth =>
      rw [hm] at hmethod
      simp only [bind_eq_ok] at hmethod
      obtain ⟨⟨⟩, -, hattestor⟩ := hmethod
      simp only [bind_eq_ok, ensure_eq_ok, exists_const]
      exact ⟨rfl, rfl, validateDID_field hattestor _⟩

/-- A tally of distinct guardians may replace the one of a social request. -/
theorem WellMade.tally (h : WellMade k r) (hsocial : r.method ≠ .reauth)
    {approvals rejections : List Bytes} (happrovals : approvals.Nodup)
    (hrejections : rejections.Nodup) :
    WellMade k { r with approvals := approvals, rejections := rejections } := by
  refine ⟨h.did, h.controller, h.pubKey, h.nonce, h.keyType, h.derived, happrovals, hrejections,
    h.deposit, h.fee, ?_⟩
  have hmethod := h.method
  unfold validateGenesisMethod at hmethod ⊢
  cases hm : r.method with
  | unspecified =>
    rw [hm] at hmethod
    cases hmethod
  | social =>
    rw [hm] at hmethod
    exact hmethod
  | reauth => exact absurd hm hsocial

/-- Every message keeps what the validator checks of the requests. -/
theorem wellMade_of_event (hbasic : a.validateBasic = .ok ()) (hevent : Event k env w a w')
    (hfiled : Filed w.store) (hparams : w.store.params.validate = .ok ())
    (h : ∀ id r, w.store.getRecoveryRequest id = some r → WellMade k r)
    (hget : w'.store.getRecoveryRequest id = some r') : WellMade k r' := by
  cases origin_of_event hbasic hevent hfiled hget with
  | kept _ _ hbefore => exact h _ _ hbefore
  | opened msg => exact wellMade_request hbasic hparams
  | frozen msg r _ hbefore | thawed msg r _ hbefore =>
    obtain ⟨⟩ := h _ _ hbefore
    constructor
    all_goals assumption
  | tallied _ r approvals rejections hbefore _ hsocial hdistinct =>
    have hmade := h _ _ hbefore
    obtain ⟨happrovals, hrejections⟩ := hdistinct ⟨hmade.approvals, hmade.rejections⟩
    exact hmade.tally hsocial happrovals hrejections

/-! ## Documents on their own -/

/-- What the genesis validator checks of a document, duplicates apart. -/
structure WellFormed (d : DIDDocument) : Prop where
  did : validateDID "" d.did = .ok ()
  pubKey : d.pubKey.length ≠ 0 ∧ d.pubKey.length ≤ maxPubKeyLen
  controller : (accAddressFromBech32 d.controller).isSome = true
  status : d.status ≠ .unspecified
  curve : (curveForKeyType d.keyType).isSome = true
  hash : d.uniquenessHash.length ≠ 0 ∧ d.uniquenessHash.length ≤ maxUniquenessHashLen

theorem wellFormed_of_writes {d : DIDDocument} (hbasic : a.validateBasic = .ok ())
    (hdocuments : ∀ did doc, w.store.getIdentity did = some doc → WellFormed doc)
    (hrequests : ∀ id r, w.store.getRecoveryRequest id = some r → WellMade k r)
    (hwrites : Writes k env w a d) : WellFormed d := by
  cases hwrites with
  | registered msg =>
    simp only [Action.validateBasic, MsgRegisterIdentity.validateBasic, validateAddress,
      validateLen, bind_eq_ok, ensure_eq_ok, exists_const] at hbasic
    obtain ⟨haddress, ⟨⟩, hdid, hpubKey, hhash, -, -, -, -, -, hcurve⟩ := hbasic
    refine ⟨hdid, hpubKey, haddress, ?_, hcurve, hhash⟩
    simp [newDocument]
  | revoked msg doc hdoc =>
    have hformed := hdocuments _ doc hdoc
    refine ⟨hformed.did, hformed.pubKey, hformed.controller, ?_, hformed.curve, hformed.hash⟩
    simp [DIDDocument.withStatus]
  | restated msg doc hdoc _ hnew =>
    have hformed := hdocuments _ doc hdoc
    refine ⟨hformed.did, hformed.pubKey, hformed.controller, ?_, hformed.curve, hformed.hash⟩
    rintro (hstatus : msg.newStatus = .unspecified)
    rw [hstatus] at hnew
    rcases hnew with hnew | hnew
    · cases hnew
    · cases hnew
  | rekeyed msg doc derived hdoc =>
    have hformed := hdocuments _ doc hdoc
    simp only [Action.validateBasic, MsgRotateIdentityKey.validateBasic, validateLen, bind_eq_ok,
      ensure_eq_ok, exists_const] at hbasic
    obtain ⟨-, -, -, -, hpubKey, -⟩ := hbasic
    exact ⟨hformed.did, hpubKey, hformed.controller, hformed.status, hformed.curve, hformed.hash⟩
  | recovered msg r doc hget hdoc =>
    have hformed := hdocuments _ doc hdoc
    have hmade := hrequests _ r hget
    refine ⟨hformed.did, hmade.pubKey, hmade.controller, hformed.status, ?_, hformed.hash⟩
    show (curveForKeyType r.keyType).isSome = true
    rw [hmade.keyType]
    rfl

theorem wellFormed_of_event {doc : DIDDocument} (hbasic : a.validateBasic = .ok ())
    (hevent : Event k env w a w')
    (hdocuments : ∀ did doc, w.store.getIdentity did = some doc → WellFormed doc)
    (hrequests : ∀ id r, w.store.getRecoveryRequest id = some r → WellMade k r)
    (hget : w'.store.getIdentity did = some doc) : WellFormed doc := by
  rcases getIdentity_cases (summary_of_event hevent) hget with ⟨hwrites, -⟩ | hbefore
  · exact wellFormed_of_writes hbasic hdocuments hrequests hwrites
  · exact hdocuments did doc hbefore

/-- A DID that is registered and not revoked. -/
def Store.Stands (s : Store) (did : Bytes) : Prop :=
  s.statusOf did = some .active ∨ s.statusOf did = some .suspended

theorem stands_of_get {doc : DIDDocument} (hget : s.getIdentity did = some doc)
    (hformed : WellFormed doc) (hstatus : doc.status ≠ .revoked) : s.Stands did := by
  unfold Store.Stands
  rw [statusOf_of_get hget]
  have hknown := hformed.status
  cases hdoc : doc.status with
  | unspecified => exact absurd hdoc hknown
  | active => exact Or.inl rfl
  | revoked => exact absurd hdoc hstatus
  | suspended => exact Or.inr rfl

/-- A DID stands until it is revoked. -/
theorem stands_of_event (hevent : Event k env w a w')
    (hnot : ∀ msg, a = .revokeIdentity msg → msg.did ≠ did) (h : w.store.Stands did) :
    w'.store.Stands did := by
  have hstep : ∀ status, w.store.statusOf did = some status →
      w'.store.statusOf did = some status ∨ w'.store.Stands did := by
    intro status hbefore
    rcases statusOf_of_event hevent hbefore with hsame | ⟨msg, hrevoke, hdid⟩ |
      ⟨msg, -, -, -, hnew, hafter⟩
    · exact Or.inl hsame
    · exact absurd hdid (hnot msg hrevoke)
    · refine Or.inr ?_
      unfold Store.Stands
      rw [hafter]
      rcases hnew with hnew | hnew
      · exact Or.inl (congrArg some hnew)
      · exact Or.inr (congrArg some hnew)
  rcases h with hactive | hsuspended
  · rcases hstep _ hactive with hsame | hstands
    · exact Or.inl hsame
    · exact hstands
  · rcases hstep _ hsuspended with hsame | hstands
    · exact Or.inr hsame
    · exact hstands

/-- The DIDs of pending requests stand: a revocation closes the requests of its DID. -/
theorem requestStands_of_event (hbasic : a.validateBasic = .ok ()) (hevent : Event k env w a w')
    (hfiled : Filed w.store) (hpending : AllPending w.store)
    (h : ∀ id r, w.store.getRecoveryRequest id = some r → w.store.Stands r.did)
    (hget : w'.store.getRecoveryRequest id = some r') : w'.store.Stands r'.did := by
  cases origin_of_event hbasic hevent hfiled hget with
  | kept _ _ hbefore hpassed =>
    refine stands_of_event hevent (fun msg ha hdid => ?_) (h _ _ hbefore)
    exact hpassed.standing msg ha hdid (hpending _ _ hbefore)
  | opened msg doc hdoc hactive =>
    refine stands_of_event hevent nofun (Or.inl ?_)
    show w.store.statusOf msg.did = some .active
    rw [statusOf_of_get hdoc, hactive]
  | frozen msg r _ hbefore | thawed msg r _ hbefore =>
    exact stands_of_event hevent nofun (h _ r hbefore)
  | tallied _ r _ _ hbefore hpassed =>
    refine stands_of_event hevent (fun msg ha hdid => ?_) (h _ r hbefore)
    exact hpassed.standing msg ha hdid (hpending _ _ hbefore)

/-! ## Issuers, guardian sets, epochs and nonces -/

/-- What a message can leave in the keyspaces beside the documents and the requests. -/
structure Keyspaces (env : Env) (w : World) (a : Action) (w' : World) : Prop where
  issuers : ∀ did ti, w'.store.trustedIssuers.get? did = some ti →
    w.store.trustedIssuers.get? did = some ti ∨
    (∃ msg, a = .registerTrustedIssuer msg ∧ ti = msg.issuer) ∨
    ∃ ti₀, w.store.trustedIssuers.get? ti₀.did = some ti₀ ∧ ti = { ti₀ with active := false }
  guardians : ∀ did gs, w'.store.guardians.get? did = some gs →
    (w.store.guardians.get? did = some gs ∧ ∀ msg, a = .revokeIdentity msg → msg.did ≠ did) ∨
    ∃ msg, a = .setGuardians msg ∧ gs = ⟨msg.did, msg.commitments, msg.threshold, env.blockTime⟩
  epochs : ∀ did n, w'.store.guardianEpochs.get? did = some n →
    w.store.guardianEpochs.get? did = some n ∨
    n = w.store.guardianEpoch did + 1 ∧
      ((∃ msg, a = .setGuardians msg ∧ msg.did = did) ∨ ∃ msg, a = .revokeIdentity msg ∧ msg.did = did)
  tallies : ∀ id n, w'.store.recoveryTallyEpochs.get? id = some n →
    w.store.recoveryTallyEpochs.get? id = some n ∨
    ∃ r, w.store.getRecoveryRequest id = some r ∧ n = w.store.guardianEpoch r.did
  nonces : ∀ key, w'.store.recoveryNonces.has key = true →
    w.store.recoveryNonces.has key = true ∨ ∃ did nonce, key = nulKey did nonce
  issuerNonces : ∀ key, w'.store.issuerNonces.has key = true →
    w.store.issuerNonces.has key = true ∨ ∃ did nonce, key = nulKey did nonce

theorem keyspaces_of_same (hissuers : w'.store.trustedIssuers = w.store.trustedIssuers)
    (hguardians : w'.store.guardians = w.store.guardians)
    (hepochs : w'.store.guardianEpochs = w.store.guardianEpochs)
    (hnonces : w'.store.recoveryNonces = w.store.recoveryNonces)
    (hissuerNonces : w'.store.issuerNonces = w.store.issuerNonces)
    (hnot : ∀ msg, a ≠ .revokeIdentity msg)
    (htallies : ∀ id n, w'.store.recoveryTallyEpochs.get? id = some n →
      w.store.recoveryTallyEpochs.get? id = some n ∨
      ∃ r, w.store.getRecoveryRequest id = some r ∧ n = w.store.guardianEpoch r.did) :
    Keyspaces env w a w' where
  issuers _ _ hget := Or.inl (hissuers ▸ hget)
  guardians _ _ hget := Or.inl ⟨hguardians ▸ hget, fun msg ha => absurd ha (hnot msg)⟩
  epochs _ _ hget := Or.inl (hepochs ▸ hget)
  tallies := htallies
  nonces _ hhas := Or.inl (hnonces ▸ hhas)
  issuerNonces _ hhas := Or.inl (hissuerNonces ▸ hhas)

/-- Epochs after one is started. -/
theorem guardianEpochs_bump {n : Nat}
    (h : (s.bumpGuardianEpoch did).guardianEpochs.get? id = some n) :
    s.guardianEpochs.get? id = some n ∨ id = did ∧ n = s.guardianEpoch did + 1 := by
  unfold Store.bumpGuardianEpoch at h
  split at h
  · exact Or.inl h
  · dsimp only at h
    rw [OrdMap.get?_put] at h
    split at h
    · rename_i hid
      cases h
      exact Or.inr ⟨hid.symm, rfl⟩
    · exact Or.inl h

theorem tallyEpoch_of_delete {removed : RecoveryRequest} {n : Nat}
    (h : (s.deleteRecoveryRequest removed).recoveryTallyEpochs.get? id = some n) :
    s.recoveryTallyEpochs.get? id = some n := by
  unfold Store.deleteRecoveryRequest at h
  dsimp only at h
  rw [OrdMap.get?_erase] at h
  split at h
  · cases h
  · exact h

theorem tallyEpoch_of_dropAll {rs : List RecoveryRequest} {n : Nat}
    (h : (s.dropAll rs).recoveryTallyEpochs.get? id = some n) :
    s.recoveryTallyEpochs.get? id = some n := by
  induction rs generalizing s with
  | nil => exact h
  | cons r rest ih => exact tallyEpoch_of_delete (ih h)

/-- Bringing the tally of a stored request up to date takes over the epoch of its DID. -/
theorem tallyEpoch_of_sync {stored : Bytes} {n : Nat} (hget : s.getRecoveryRequest stored = some r)
    (h : (s.syncTallyEpoch r).2.recoveryTallyEpochs.get? id = some n) :
    s.recoveryTallyEpochs.get? id = some n ∨
      ∃ r, s.getRecoveryRequest id = some r ∧ n = s.guardianEpoch r.did := by
  unfold Store.syncTallyEpoch at h
  split at h
  · exact Or.inl h
  · unfold Store.setRecoveryTallyEpoch at h
    dsimp only at h
    rw [OrdMap.get?_put] at h
    split at h
    · rename_i hid
      cases h
      exact Or.inr ⟨r, hid ▸ get_own hget, rfl⟩
    · exact Or.inl h

/-- Epochs after a revocation. -/
theorem guardianEpochs_releaseRevoked {n : Nat}
    (h : (s.releaseRevoked did).guardianEpochs.get? id = some n) :
    s.guardianEpochs.get? id = some n ∨ id = did ∧ n = s.guardianEpoch did + 1 := by
  unfold Store.releaseRevoked at h
  dsimp only at h
  split at h
  · have hbump := guardianEpochs_bump h
    exact hbump
  · have hbump := guardianEpochs_bump h
    exact hbump

/-- The epoch that a tally has taken over is one it had, or the one of the request's DID. -/
theorem tallyEpochs_of_event (hevent : Event k env w a w') {n : Nat}
    (h : w'.store.recoveryTallyEpochs.get? id = some n) :
    w.store.recoveryTallyEpochs.get? id = some n ∨
      ∃ r, w.store.getRecoveryRequest id = some r ∧ n = w.store.guardianEpoch r.did := by
  cases hevent with
  | registered | rekeyed | restated | issuerSet | issuerRevoked | reparametrised => exact Or.inl h
  | revoked msg doc w₁ hdoc hsigner hstanding hclosed =>
    obtain ⟨_, _, _, hrelease⟩ := releaseRevoked_eq w₁.store msg.did
    dsimp only at h
    rw [hrelease] at h
    have hclosing : w₁.store.recoveryTallyEpochs.get? id = some n := h
    rw [hclosed.store] at hclosing
    exact Or.inl (tallyEpoch_of_dropAll hclosing :)
  | suspended | reinstated =>
    obtain ⟨_, _, hput⟩ := putAll_eq _ _
    rw [hput] at h
    exact Or.inl h
  | guarded =>
    obtain ⟨_, hguarded⟩ := guarded_eq _ _
    rw [hguarded] at h
    exact Or.inl h
  | initiated msg doc initiator w₁ w₂ hdoc hactive hfree hnonce hclosed hid hinitiator hcharged =>
    have hopened : w₂.store.recoveryTallyEpochs.get? id = some n := h
    rw [chargeInitiation_store hcharged, hclosed.store] at hopened
    exact Or.inl (tallyEpoch_of_dropAll hopened)
  | approved msg r hget | rejected msg r gs hget => exact tallyEpoch_of_sync hget h
  | vetoed msg r gs w₁ hget _ _ _ _ _ hpaid =>
    have hbefore := tallyEpoch_of_delete h
    rw [forfeitDeposit_store hpaid] at hbefore
    exact tallyEpoch_of_sync hget hbefore
  | executed msg r doc w₁ w₂ hget _ _ _ _ hdoc hactive hfree hpaid hclosed =>
    rw [hclosed.store] at h
    have hbefore := tallyEpoch_of_delete (tallyEpoch_of_dropAll h)
    rw [refundDeposit_store hpaid] at hbefore
    exact Or.inl hbefore
  | cancelled msg r doc w₁ hget _ _ _ _ hpaid =>
    have hbefore := tallyEpoch_of_delete h
    rw [forfeitDeposit_store hpaid] at hbefore
    exact Or.inl hbefore

theorem keyspaces_of_event (hevent : Event k env w a w') : Keyspaces env w a w' := by
  have htallies := fun id n => @tallyEpochs_of_event k env w w' a id hevent n
  obtain ⟨base, hbasis, _, _, _, hstore⟩ := basis_of_event hevent
  obtain ⟨bank, store⟩ := w'
  obtain rfl : store = _ := hstore
  cases hbasis with
  | kept _ hnot | wrote _ _ _ hnot => exact keyspaces_of_same rfl rfl rfl rfl rfl hnot htallies
  | reparametrised => exact keyspaces_of_same rfl rfl rfl rfl rfl nofun htallies
  | registered msg params =>
    refine ⟨fun _ _ => Or.inl, fun _ _ hget => Or.inl ⟨hget, nofun⟩, fun _ _ => Or.inl,
      htallies, fun _ => Or.inl, fun key hhas => ?_⟩
    rcases OrdMap.has_put.1 hhas with rfl | hbefore
    · exact Or.inr ⟨_, _, rfl⟩
    · exact Or.inl hbefore
  | revoked msg doc hdoc =>
    have hepochs : ∀ did n, ((w.store.setIdentity env (doc.withStatus .revoked)).releaseRevoked
        msg.did).guardianEpochs.get? did = some n → w.store.guardianEpochs.get? did = some n ∨
          did = msg.did ∧ n = w.store.guardianEpoch msg.did + 1 := by
      intro did n hget
      have hreleased := guardianEpochs_releaseRevoked hget
      exact hreleased
    obtain ⟨_, _, _, hrelease⟩ :=
      releaseRevoked_eq (w.store.setIdentity env (doc.withStatus .revoked)) msg.did
    rw [hrelease] at hepochs htallies ⊢
    refine ⟨fun _ _ => Or.inl, fun did gs hget => ?_, fun did n hget => ?_, htallies,
      fun _ => Or.inl, fun _ => Or.inl⟩
    · have hkept : (w.store.guardians.erase msg.did).get? did = some gs := hget
      rw [KeyedMap.get?_erase] at hkept
      split at hkept
      · cases hkept
      · rename_i hne
        refine Or.inl ⟨hkept, fun msg' ha => ?_⟩
        cases ha
        exact hne
    · rcases hepochs did n hget with hbefore | ⟨rfl, rfl⟩
      · exact Or.inl hbefore
      · exact Or.inr ⟨rfl, Or.inr ⟨msg, rfl, rfl⟩⟩
  | guarded msg =>
    let gs : GuardianSet := ⟨msg.did, msg.commitments, msg.threshold, env.blockTime⟩
    have hepochs : ∀ did n, (w.store.guarded gs).guardianEpochs.get? did = some n →
        w.store.guardianEpochs.get? did = some n ∨
          did = msg.did ∧ n = w.store.guardianEpoch msg.did + 1 := fun did n hget =>
      guardianEpochs_bump (s := w.store.setGuardianSet gs) hget
    obtain ⟨_, hguarded⟩ := guarded_eq w.store gs
    rw [hguarded] at hepochs htallies ⊢
    refine ⟨fun _ _ => Or.inl, fun did gs' hget => ?_, fun did n hget => ?_, htallies,
      fun _ => Or.inl, fun _ => Or.inl⟩
    · have hset : (w.store.guardians.set gs).get? did = some gs' := hget
      rw [KeyedMap.get?_set] at hset
      split at hset
      · cases hset
        exact Or.inr ⟨msg, rfl, rfl⟩
      · exact Or.inl ⟨hset, nofun⟩
    · rcases hepochs did n hget with hbefore | ⟨rfl, rfl⟩
      · exact Or.inl hbefore
      · exact Or.inr ⟨rfl, Or.inl ⟨msg, rfl, rfl⟩⟩
  | initiated msg =>
    refine ⟨fun _ _ => Or.inl, fun _ _ hget => Or.inl ⟨hget, nofun⟩, fun _ _ => Or.inl,
      htallies, fun key hhas => ?_, fun _ => Or.inl⟩
    rcases OrdMap.has_put.1 hhas with rfl | hbefore
    · exact Or.inr ⟨_, _, rfl⟩
    · exact Or.inl hbefore
  | issuerSet msg =>
    refine ⟨fun did ti hget => ?_, fun _ _ hget => Or.inl ⟨hget, nofun⟩, fun _ _ => Or.inl,
      htallies, fun _ => Or.inl, fun _ => Or.inl⟩
    have hset : (w.store.trustedIssuers.set msg.issuer).get? did = some ti := hget
    rw [KeyedMap.get?_set] at hset
    split at hset
    · cases hset
      exact Or.inr (Or.inl ⟨msg, rfl, rfl⟩)
    · exact Or.inl hset
  | issuerRevoked msg ti₀ hissuer =>
    refine ⟨fun did ti hget => ?_, fun _ _ hget => Or.inl ⟨hget, nofun⟩, fun _ _ => Or.inl,
      htallies, fun _ => Or.inl, fun _ => Or.inl⟩
    have hset : (w.store.trustedIssuers.set { ti₀ with active := false }).get? did = some ti := hget
    rw [KeyedMap.get?_set] at hset
    split at hset
    · cases hset
      exact Or.inr (Or.inr ⟨ti₀, (KeyedMap.key_of_get? hissuer).symm ▸ hissuer, rfl⟩)
    · exact Or.inl hset

end PhiChain.Identity
