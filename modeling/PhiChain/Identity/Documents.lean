import PhiChain.Identity.Eligibility
import PhiChain.Identity.Requests
import PhiChain.Sdk.Spelling

/-!
# Identity: documents and the registry

A message writes one identity document at most, and `Writes` lists the documents it can
write. Only a registration touches the uniqueness markers, the issuers' nonces and the
number of identities; only a registration and a change of parameters touch the parameters.
-/

set_option autoImplicit false

namespace PhiChain.Identity

open Foundations Sdk

variable {k : Keeper} {env : Env} {w w' : World} {a : Action} {did : Bytes} {doc : DIDDocument}

/-- The document that a message writes, with what the message checked. -/
inductive Writes (k : Keeper) (env : Env) (w : World) : Action → DIDDocument → Prop
  | registered (msg : MsgRegisterIdentity)
      (hnew : w.store.hasIdentity msg.did = false)
      (hunused : w.store.uniqueness.has msg.uniquenessHash = false)
      (hverified : verifyRegistration k env msg w.store = .ok ()) :
      Writes k env w (.registerIdentity msg) (newDocument env msg)
  | revoked (msg : MsgRevokeIdentity) (doc : DIDDocument)
      (hdoc : w.store.getIdentity msg.did = some doc) :
      Writes k env w (.revokeIdentity msg) (doc.withStatus .revoked)
  | restated (msg : MsgUpdateStatus) (doc : DIDDocument)
      (hdoc : w.store.getIdentity msg.did = some doc)
      (hold : doc.status ≠ .revoked ∧ doc.status ≠ msg.newStatus)
      (hnew : msg.newStatus = .active ∨ msg.newStatus = .suspended) :
      Writes k env w (.updateStatus msg) (doc.withStatus msg.newStatus)
  | rekeyed (msg : MsgRotateIdentityKey) (doc : DIDDocument) (derived : Bytes)
      (hdoc : w.store.getIdentity msg.did = some doc)
      (hderived : deriveDIDForKeyType k doc.keyType msg.newPubKey = some derived)
      (hfree : derived = doc.did ∨ w.store.hasIdentity derived = false) :
      Writes k env w (.rotateIdentityKey msg) (doc.withKey msg.newPubKey)
  | recovered (msg : MsgExecuteRecovery) (r : RecoveryRequest) (doc : DIDDocument)
      (hget : w.store.getRecoveryRequest msg.recoveryId = some r)
      (hdoc : w.store.getIdentity r.did = some doc)
      (hactive : doc.status = .active)
      (hfree : assertNoKeyCollision k r.keyType r.proposedNewPubKey w.store = .ok ()) :
      Writes k env w (.executeRecovery msg) (doc.recovered r)

/-- Registry fields that a registration alone changes. -/
structure SameRegistry (s s' : Store) : Prop where
  uniqueness : s'.uniqueness = s.uniqueness
  issuerNonces : s'.issuerNonces = s.issuerNonces
  identityCount : s'.identityCount = s.identityCount

/-- What a message does to the documents, the registry and the parameters. -/
structure Summary (k : Keeper) (env : Env) (w : World) (a : Action) (w' : World) : Prop where
  directory : w'.store.directory = w.store.directory ∨
    ∃ d, Writes k env w a d ∧
      w'.store.directory = w.store.directory.setIdentity env.blockTime d
  registry : SameRegistry w.store w'.store ∨
    ∃ msg, a = .registerIdentity msg ∧ w.store.hasIdentity msg.did = false ∧
      w.store.uniqueness.has msg.uniquenessHash = false ∧
      verifyRegistration k env msg w.store = .ok () ∧
      ∃ params, w'.store = { w.store.registered env msg with params := params }
  params : w'.store.params = w.store.params ∨
    (∃ msg, a = .registerIdentity msg ∧ w.store.params.bootstrapPhase = true ∧
      w'.store.params = { w.store.params with bootstrapPhase := false }) ∨
    ∃ msg, a = .updateParams msg ∧ msg.authority = k.authority ∧ w'.store.params = msg.params

/-- The second store is the first one, the tables of recovery requests aside. -/
def Store.BesideRequests (s s' : Store) : Prop :=
  ∃ recoveries byDID epochs, s' =
    { s with
      recoveries := recoveries
      recoveriesByDID := byDID
      recoveryTallyEpochs := epochs }

variable {s s' : Store} {d : DIDDocument}

theorem Store.BesideRequests.trans {s₁ s₂ : Store} (h : s.BesideRequests s₁)
    (h₁ : s₁.BesideRequests s₂) : s.BesideRequests s₂ := by
  obtain ⟨_, _, _, rfl⟩ := h
  obtain ⟨recoveries, byDID, epochs, rfl⟩ := h₁
  exact ⟨recoveries, byDID, epochs, rfl⟩

theorem Store.besideRequests_putAll (s : Store) (rs : List RecoveryRequest) :
    s.BesideRequests (s.putAll rs) := by
  obtain ⟨recoveries, byDID, heq⟩ := putAll_eq s rs
  exact ⟨recoveries, byDID, _, heq⟩

theorem Store.besideRequests_sync (s : Store) (r : RecoveryRequest) :
    s.BesideRequests (s.syncTallyEpoch r).2 := by
  obtain ⟨_, _, epochs, hsync⟩ := syncTallyEpoch_eq s r
  rw [hsync]
  exact ⟨_, _, epochs, rfl⟩

theorem Store.BesideRequests.bump (h : s.BesideRequests s') (did : Bytes) :
    (s.bumpGuardianEpoch did).BesideRequests (s'.bumpGuardianEpoch did) := by
  obtain ⟨recoveries, byDID, epochs, rfl⟩ := h
  by_cases hmax : s.guardianEpoch did = maxUint64
  · have hkept : s.bumpGuardianEpoch did = s := if_pos hmax
    rw [hkept]
    exact ⟨recoveries, byDID, epochs, if_pos hmax⟩
  · have hbumped : s.bumpGuardianEpoch did =
        { s with guardianEpochs := s.guardianEpochs.put did (s.guardianEpoch did + 1) } :=
      if_neg hmax
    rw [hbumped]
    exact ⟨recoveries, byDID, epochs, if_neg hmax⟩

/-- What a revocation releases does not depend on the requests. -/
theorem Store.BesideRequests.releaseRevoked (h : s.BesideRequests s') (did : Bytes) :
    (s.releaseRevoked did).BesideRequests (s'.releaseRevoked did) := by
  obtain ⟨recoveries, byDID, epochs, rfl⟩ := h
  apply Store.BesideRequests.bump
  refine ⟨recoveries, byDID, epochs, ?_⟩
  dsimp only [Store.deleteGuardianSet, Store.validatorForDID]
  cases s.didToValidator.get? did <;> rfl

/-- What a message does beside its bookkeeping of requests. -/
inductive Basis (k : Keeper) (env : Env) (w : World) : Action → Store → Prop
  | kept (a : Action) (hnot : ∀ msg, a ≠ .revokeIdentity msg) : Basis k env w a w.store
  | registered (msg : MsgRegisterIdentity) (params : Params) :
      Basis k env w (.registerIdentity msg)
        { w.store.registered env msg with params := params }
  | wrote (a : Action) (d : DIDDocument) (hwrites : Writes k env w a d)
      (hnot : ∀ msg, a ≠ .revokeIdentity msg) : Basis k env w a (w.store.setIdentity env d)
  | revoked (msg : MsgRevokeIdentity) (doc : DIDDocument)
      (hdoc : w.store.getIdentity msg.did = some doc) :
      Basis k env w (.revokeIdentity msg)
        ((w.store.setIdentity env (doc.withStatus .revoked)).releaseRevoked msg.did)
  | guarded (msg : MsgSetGuardians) :
      Basis k env w (.setGuardians msg)
        (w.store.guarded ⟨msg.did, msg.commitments, msg.threshold, env.blockTime⟩)
  | initiated (msg : MsgInitiateRecovery) :
      Basis k env w (.initiateRecovery msg)
        { w.store with
          recoveryNonces := w.store.recoveryNonces.put (nulKey msg.did msg.nonce) () }
  | issuerSet (msg : MsgRegisterTrustedIssuer) :
      Basis k env w (.registerTrustedIssuer msg)
        { w.store with trustedIssuers := w.store.trustedIssuers.set msg.issuer }
  | issuerRevoked (msg : MsgRevokeTrustedIssuer) (ti : TrustedIssuer)
      (hissuer : w.store.trustedIssuers.get? msg.did = some ti) :
      Basis k env w (.revokeTrustedIssuer msg)
        { w.store with trustedIssuers := w.store.trustedIssuers.set { ti with active := false } }
  | reparametrised (msg : MsgUpdateParams) (hauthority : msg.authority = k.authority) :
      Basis k env w (.updateParams msg) { w.store with params := msg.params }

/-- The document of a change of status, when the new status is another one. -/
theorem writes_restated {msg : MsgUpdateStatus} {doc : DIDDocument}
    (hdoc : w.store.getIdentity msg.did = some doc) {old new : DIDStatus} (hold : doc.status = old)
    (hnew : msg.newStatus = new) (hother : old ≠ .revoked ∧ old ≠ new)
    (hto : new = .active ∨ new = .suspended) :
    Writes k env w (.updateStatus msg) (doc.withStatus new) := by
  subst hold hnew
  exact Writes.restated msg doc hdoc hother hto

theorem basis_of_event (hevent : Event k env w a w') :
    ∃ base, Basis k env w a base ∧ base.BesideRequests w'.store := by
  cases hevent with
  | registered msg params => exact ⟨_, .registered msg params, _, _, _, rfl⟩
  | revoked msg doc w₁ hdoc hsigner hstanding hclosed =>
    refine ⟨_, .revoked msg doc hdoc, Store.BesideRequests.releaseRevoked ?_ msg.did⟩
    rw [hclosed.store]
    exact dropAll_eq _ _
  | rekeyed msg doc curve derived hdoc _ _ _ _ hderived hfree =>
    exact ⟨_, .wrote _ _ (.rekeyed msg doc derived hdoc hderived hfree) nofun, _, _, _, rfl⟩
  | suspended msg doc _ hdoc hold hnew =>
    exact ⟨_, .wrote _ _ (writes_restated hdoc hold hnew ⟨nofun, nofun⟩ (.inr rfl)) nofun,
      Store.besideRequests_putAll _ _⟩
  | reinstated msg doc _ hdoc hold hnew =>
    exact ⟨_, .wrote _ _ (writes_restated hdoc hold hnew ⟨nofun, nofun⟩ (.inl rfl)) nofun,
      Store.besideRequests_putAll _ _⟩
  | restated msg doc _ hdoc hold hnew =>
    refine ⟨_, .wrote _ _ (writes_restated hdoc hold rfl ⟨nofun, fun heq => ?_⟩ hnew) nofun,
      _, _, _, rfl⟩
    rcases hnew with hnew | hnew <;> exact absurd (heq.trans hnew) nofun
  | guarded msg doc => exact ⟨_, .guarded msg, _, _, _, rfl⟩
  | initiated msg doc initiator w₁ w₂ hdoc hactive hfree hnonce hclosed hid hinitiator hcharged =>
    obtain ⟨_, _, _, hdrop⟩ := dropAll_eq w.store
      ((w.store.recoveryRequestsForDID msg.did).filter (w.store.expired env))
    rw [chargeInitiation_store hcharged, hclosed.store, hdrop]
    exact ⟨_, .initiated msg, _, _, _, rfl⟩
  | approved msg r | rejected msg r =>
    exact ⟨_, .kept _ nofun, (w.store.besideRequests_sync r).trans ⟨_, _, _, rfl⟩⟩
  | vetoed msg r gs w₁ hget _ _ _ _ _ hpaid =>
    rw [forfeitDeposit_store hpaid]
    exact ⟨_, .kept _ nofun, (w.store.besideRequests_sync r).trans ⟨_, _, _, rfl⟩⟩
  | executed msg r doc w₁ w₂ hget _ _ _ _ hdoc hactive hfree hpaid hclosed =>
    refine ⟨_, .wrote _ _ (.recovered msg r doc hget hdoc hactive hfree) nofun, ?_⟩
    rw [hclosed.store, refundDeposit_store hpaid]
    exact Store.BesideRequests.trans ⟨_, _, _, rfl⟩ (dropAll_eq _ _)
  | cancelled msg r doc w₁ hget _ _ _ _ hpaid =>
    rw [forfeitDeposit_store hpaid]
    exact ⟨_, .kept _ nofun, _, _, _, rfl⟩
  | issuerSet msg => exact ⟨_, .issuerSet msg, _, _, _, rfl⟩
  | issuerRevoked msg ti _ hissuer => exact ⟨_, .issuerRevoked msg ti hissuer, _, _, _, rfl⟩
  | reparametrised msg hauthority => exact ⟨_, .reparametrised msg hauthority, _, _, _, rfl⟩

/-- A message whose basis leaves the registry and the parameters alone. -/
theorem summary_of_basis {base : Store} (hbeside : base.BesideRequests w'.store)
    (hdirectory : base.directory = w.store.directory ∨ ∃ d, Writes k env w a d ∧
      base.directory = w.store.directory.setIdentity env.blockTime d)
    (hregistry : SameRegistry w.store base) (hparams : base.params = w.store.params) :
    Summary k env w a w' := by
  obtain ⟨_, _, _, hstore⟩ := hbeside
  refine ⟨?_, Or.inl ?_, Or.inl ?_⟩ <;> rw [hstore]
  exacts [hdirectory, ⟨hregistry.uniqueness, hregistry.issuerNonces, hregistry.identityCount⟩, hparams]

theorem summary_of_event (hevent : Event k env w a w') : Summary k env w a w' := by
  obtain ⟨base, hbasis, hbeside⟩ := basis_of_event hevent
  cases hbasis with
  | kept | initiated | issuerSet | issuerRevoked =>
    exact summary_of_basis hbeside (Or.inl rfl) ⟨rfl, rfl, rfl⟩ rfl
  | registered msg _ =>
    cases hevent with
    | registered _ params hnew hunused hverified hlatch =>
      refine ⟨Or.inr ⟨_, Writes.registered msg hnew hunused hverified, rfl⟩,
        Or.inr ⟨msg, rfl, hnew, hunused, hverified, params, rfl⟩, ?_⟩
      rcases hlatch with hsame | ⟨⟨hphase, -⟩, hlatched⟩
      · exact Or.inl hsame
      · exact Or.inr (Or.inl ⟨msg, rfl, hphase, hlatched⟩)
  | wrote _ d hwrites =>
    exact summary_of_basis hbeside (Or.inr ⟨d, hwrites, rfl⟩) ⟨rfl, rfl, rfl⟩ rfl
  | revoked msg doc hdoc =>
    obtain ⟨_, _, _, hrelease⟩ :=
      releaseRevoked_eq (w.store.setIdentity env (doc.withStatus .revoked)) msg.did
    rw [hrelease] at hbeside
    exact summary_of_basis hbeside (Or.inr ⟨_, Writes.revoked msg doc hdoc, rfl⟩) ⟨rfl, rfl, rfl⟩ rfl
  | guarded msg =>
    obtain ⟨_, hbump⟩ := guarded_eq w.store
      ⟨msg.did, msg.commitments, msg.threshold, env.blockTime⟩
    rw [hbump] at hbeside
    exact summary_of_basis hbeside (Or.inl rfl) ⟨rfl, rfl, rfl⟩ rfl
  | reparametrised msg hauthority =>
    obtain ⟨_, _, _, hstore⟩ := hbeside
    refine ⟨Or.inl ?_, Or.inl ?_, Or.inr (Or.inr ⟨msg, rfl, hauthority, ?_⟩)⟩ <;> rw [hstore]
    exact ⟨rfl, rfl, rfl⟩

/-! ## Lookups -/

theorem Directory.identities_setIdentity (dir : Directory) (now : Int) (d : DIDDocument) :
    (dir.setIdentity now d).identities = dir.identities.set d := by
  unfold setIdentity
  dsimp only
  split
  · rw [(refreshed_refresh _ _ _).identities, (refreshed_refresh _ _ _).identities]
    rfl
  · rw [(refreshed_refresh _ _ _).identities]
    rfl

theorem did_of_getIdentity (h : s.getIdentity did = some doc) : doc.did = did :=
  KeyedMap.key_of_get? h

theorem hasIdentity_of_get (h : s.getIdentity did = some doc) : s.hasIdentity did = true :=
  OrdMap.has_iff.2 ⟨doc, h⟩

/-- Documents after a write. -/
theorem getIdentity_of_set
    (hset : w'.store.directory = w.store.directory.setIdentity env.blockTime d) (did : Bytes) :
    w'.store.getIdentity did = if d.did = did then some d else w.store.getIdentity did := by
  unfold Store.getIdentity
  rw [hset, Directory.identities_setIdentity]
  exact KeyedMap.get?_set _ d did

theorem getIdentity_of_same (hsame : w'.store.directory = w.store.directory) (did : Bytes) :
    w'.store.getIdentity did = w.store.getIdentity did := by
  unfold Store.getIdentity
  rw [hsame]

/-- A document after a message is the one written, or was there before. -/
theorem getIdentity_cases (h : Summary k env w a w') (hget : w'.store.getIdentity did = some doc) :
    Writes k env w a doc ∧ doc.did = did ∨ w.store.getIdentity did = some doc := by
  rcases h.directory with hsame | ⟨d, hwrites, hset⟩
  · exact Or.inr ((getIdentity_of_same hsame did).symm.trans hget)
  · rw [getIdentity_of_set hset] at hget
    split at hget
    · rename_i hdid
      cases hget
      exact Or.inl ⟨hwrites, hdid⟩
    · exact Or.inr hget

/-- A document is written for the first time by a registration; later writes keep its DID, its
uniqueness hash and its creation time. -/
theorem Writes.previous (h : Writes k env w a d) :
    (∃ msg, a = .registerIdentity msg ∧ d = newDocument env msg ∧
      w.store.hasIdentity d.did = false) ∨
    ∃ prev, w.store.getIdentity d.did = some prev ∧ d.uniquenessHash = prev.uniquenessHash ∧
      d.createdAt = prev.createdAt := by
  cases h with
  | registered msg hnew => exact Or.inl ⟨msg, rfl, rfl, hnew⟩
  | revoked msg doc hdoc | restated msg doc hdoc | rekeyed msg doc derived hdoc
  | recovered msg r doc _ hdoc =>
    exact Or.inr ⟨doc, (did_of_getIdentity hdoc).symm ▸ hdoc, rfl, rfl⟩

/-- Documents stay, with their uniqueness hash and creation time. -/
theorem getIdentity_kept (h : Summary k env w a w') (hget : w.store.getIdentity did = some doc) :
    ∃ doc', w'.store.getIdentity did = some doc' ∧ doc'.uniquenessHash = doc.uniquenessHash ∧
      doc'.createdAt = doc.createdAt := by
  rcases h.directory with hsame | ⟨d, hwrites, hset⟩
  · exact ⟨doc, (getIdentity_of_same hsame did).trans hget, rfl, rfl⟩
  · have hlookup := getIdentity_of_set hset did
    by_cases hdid : d.did = did
    · rw [if_pos hdid] at hlookup
      subst hdid
      rcases hwrites.previous with ⟨-, -, -, hnew⟩ | ⟨prev, hprev, hhash, hcreated⟩
      · rw [hasIdentity_of_get hget] at hnew
        cases hnew
      · rw [hget] at hprev
        cases hprev
        exact ⟨d, hlookup, hhash, hcreated⟩
    · rw [if_neg hdid] at hlookup
      exact ⟨doc, hlookup.trans hget, rfl, rfl⟩

/-- A run keeps what every successful message keeps. -/
theorem step_preserves {p : World → Prop} {tx : Tx} (hw : p w)
    (hevent : ∀ w', tx.action.validateBasic = .ok () → Event k tx.env w tx.action w' → p w') :
    p (step k w tx) := by
  unfold step
  refine commit_preserves (p := p) hw fun w' happly => ?_
  obtain ⟨hbasic, h⟩ := event_of_apply happly
  exact hevent w' hbasic h

/-! ## Controllers -/

/-- All controllers, and those that an open request would install, satisfy `P`. -/
structure Controlled (P : Bytes → Prop) (s : Store) : Prop where
  documents : ∀ did doc, s.getIdentity did = some doc → P doc.controller
  requests : ∀ id r, s.getRecoveryRequest id = some r → P r.proposedNewController

/-- The account that a message makes a controller, at once or later. -/
def Action.newController : Action → Option Bytes
  | .registerIdentity msg => some msg.creator
  | .initiateRecovery msg => some msg.creator
  | _ => none

variable {P : Bytes → Prop}

theorem controller_of_writes (h : Controlled P w.store) (hnew : ∀ c, a.newController = some c → P c)
    (hwrites : Writes k env w a d) :
    P d.controller := by
  cases hwrites with
  | registered msg => exact hnew msg.creator rfl
  | revoked msg doc hdoc | restated msg doc hdoc | rekeyed msg doc derived hdoc =>
    exact h.documents _ doc hdoc
  | recovered msg r doc hget => exact h.requests _ r hget

/-- Controllers come from registrations and from the requests that are executed. -/
theorem controlled_of_event (hbasic : a.validateBasic = .ok ()) (hevent : Event k env w a w')
    (hfiled : Filed w.store) (hnew : ∀ c, a.newController = some c → P c)
    (h : Controlled P w.store) : Controlled P w'.store := by
  constructor
  · intro did doc hdoc
    rcases getIdentity_cases (summary_of_event hevent) hdoc with ⟨hwrites, -⟩ | hold
    · exact controller_of_writes h hnew hwrites
    · exact h.documents did doc hold
  · intro id r hget
    cases origin_of_event hbasic hevent hfiled hget with
    | kept _ _ hstored => exact h.requests _ r hstored
    | opened msg doc => exact hnew msg.creator rfl
    | frozen msg r' _ hstored | thawed msg r' _ hstored | tallied _ r' _ _ hstored =>
      exact h.requests _ r' hstored

theorem nameable_of_address {c addr : Bytes} (h : accAddressFromBech32 c = some addr) :
    Nameable c := by
  refine ⟨fun hzero => ?_, ne_nil_of_accAddressFromBech32 h⟩
  have hprintable := accAddressFromBech32_printable h 0 hzero
  exact absurd hprintable (by decide)

theorem nameable_of_validateAddress {c : Bytes} {field : String}
    (h : validateAddress field c = .ok ()) :
    Nameable c := by
  obtain ⟨addr, haddr⟩ := Option.isSome_iff_exists.1 (ensure_eq_ok.1 h)
  exact nameable_of_address haddr

/-- New controllers are addresses. -/
theorem nameable_newController (hbasic : a.validateBasic = .ok ()) (c : Bytes)
    (hc : a.newController = some c) : Nameable c := by
  unfold Action.newController at hc
  split at hc <;> cases hc
  all_goals
    -- both messages check the address first
    simp only [Action.validateBasic, MsgRegisterIdentity.validateBasic,
      MsgInitiateRecovery.validateBasic, bind_eq_ok] at hbasic
    obtain ⟨⟨⟩, haddress, -⟩ := hbasic
    exact nameable_of_validateAddress haddress

/-- The indexes of requests and of documents are sound, and controllers satisfy `P`. -/
structure Sound (P : Bytes → Prop) (s : Store) : Prop where
  filed : Filed s
  controlled : Controlled P s
  indexed : s.directory.Indexed

theorem sound_of_event (hbasic : a.validateBasic = .ok ()) (hevent : Event k env w a w')
    (hP : ∀ c, P c → Nameable c) (hnew : ∀ c, a.newController = some c → P c)
    (h : Sound P w.store) : Sound P w'.store := by
  refine ⟨filed_of_event hbasic hevent h.filed,
    controlled_of_event hbasic hevent h.filed hnew h.controlled, ?_⟩
  rcases (summary_of_event hevent).directory with hsame | ⟨d, hwrites, hset⟩
  · rw [hsame]
    exact h.indexed
  · rw [hset]
    exact Directory.indexed_setIdentity h.indexed _
      (hP _ (controller_of_writes h.controlled hnew hwrites))

end PhiChain.Identity
