import PhiChain.Identity.Registry

/-!
# Identity: what a message does

`Event k env w a w'` lists what a successful message can do to a world: one constructor per
outcome of a handler, with the checks it passed and the state it leaves. Loops over the
requests of a DID appear as the list of requests they closed (`Forfeited`) or rewrote
(`Store.putAll`). Results about runs are proved from `event_of_apply` and never unfold a
handler.
-/

set_option autoImplicit false

namespace PhiChain.Identity

open Foundations Sdk

variable {k : Keeper} {env : Env} {w w' : World} {s : Store} {did : Bytes}

/-! ## Loops over requests -/

/-- Remove every request of a list. -/
def Store.dropAll (s : Store) (rs : List RecoveryRequest) : Store :=
  rs.foldl Store.deleteRecoveryRequest s

/-- Store every request of a list. -/
def Store.putAll (s : Store) (rs : List RecoveryRequest) : Store :=
  rs.foldl Store.setRecoveryRequest s

/-- The requests of a list are closed one after the other, each deposit forfeited. -/
inductive Forfeited (env : Env) : List RecoveryRequest → World → World → Prop
  | nil (w : World) : Forfeited env [] w w
  | cons {r : RecoveryRequest} {rs : List RecoveryRequest} {w w₁ w₂ : World}
      (hpaid : forfeitDeposit env r w = .ok w₁)
      (hrest : Forfeited env rs { w₁ with store := w₁.store.deleteRecoveryRequest r } w₂) :
      Forfeited env (r :: rs) w w₂

variable {r : RecoveryRequest} {s' : Store}

theorem forfeitDeposit_store (h : forfeitDeposit env r w = .ok w') :
    w'.store = w.store := by
  unfold forfeitDeposit at h
  split at h
  · cases h
    rfl
  · simp only [bind_eq_ok, pure_eq_ok] at h
    obtain ⟨bank, -, rfl⟩ := h
    rfl

theorem refundDeposit_store (h : refundDeposit env r w = .ok w') :
    w'.store = w.store := by
  unfold refundDeposit at h
  split at h
  · cases h
    rfl
  · simp only [bind_eq_ok, pure_eq_ok] at h
    obtain ⟨-, -, bank, -, rfl⟩ := h
    rfl

theorem Forfeited.store {rs : List RecoveryRequest} (h : Forfeited env rs w w') :
    w'.store = w.store.dropAll rs := by
  induction h with
  | nil w => rfl
  | @cons r rs w w₁ w₂ hpaid _ ih =>
    rw [ih]
    dsimp only
    rw [forfeitDeposit_store hpaid]
    rfl

/-- An open request whose lifetime is over, and does not stand still. -/
def Store.expired (s : Store) (env : Env) (r : RecoveryRequest) : Bool :=
  r.status = .pending ∧ ¬ (r.frozenAt ≠ 0 ∧ s.recoveryFrozenBySuspension r.did = true) ∧
    r.expiresAt < env.blockTime

theorem reapIfExpired_ok {closed : Bool} (h : reapIfExpired env r w = .ok (closed, w')) :
    (w.store.expired env r = true ∧ closed = true ∧ ∃ w₁, forfeitDeposit env r w = .ok w₁ ∧
      w' = { w₁ with store := w₁.store.deleteRecoveryRequest r }) ∨
    w.store.expired env r = false ∧ w' = w ∧ (closed = false ↔ r.status = .pending) := by
  unfold reapIfExpired isTerminalRecoveryStatus at h
  unfold Store.expired
  by_cases hstatus : r.status = .pending
  · rw [if_neg (by simp [hstatus])] at h
    by_cases hfrozen : r.frozenAt ≠ 0 ∧ w.store.recoveryFrozenBySuspension r.did = true
    · rw [if_pos hfrozen] at h
      cases h
      exact Or.inr ⟨by simp [hfrozen], rfl, by simp [hstatus]⟩
    · rw [if_neg hfrozen] at h
      by_cases hlive : env.blockTime ≤ r.expiresAt
      · rw [if_pos hlive] at h
        cases h
        exact Or.inr ⟨by simp [hlive], rfl, by simp [hstatus]⟩
      · rw [if_neg hlive] at h
        simp only [bind_eq_ok, pure_eq_ok] at h
        obtain ⟨w₁, hpaid, heq⟩ := h
        cases heq
        exact Or.inl ⟨decide_eq_true ⟨hstatus, hfrozen, not_le.1 hlive⟩, rfl, w₁, hpaid, rfl⟩
  · rw [if_pos (by simp [hstatus])] at h
    cases h
    exact Or.inr ⟨by simp [hstatus], rfl, by simp [hstatus]⟩

/-- An open request is read as it is stored: a reaped one would have failed the message. -/
theorem openRequest_ok {id : Bytes} (h : openRequest env id w = .ok (r, w')) :
    w = w' ∧ w.store.getRecoveryRequest id = some r ∧ r.status = .pending ∧
      w.store.expired env r = false := by
  simp only [openRequest, bind_eq_ok, orFail_eq_ok, ensure_eq_ok, exists_const, pure_eq_ok] at h
  obtain ⟨r', hget, ⟨closed, w₁⟩, hreap, hopen, heq⟩ := h
  cases heq
  dsimp only at hopen
  subst hopen
  rcases reapIfExpired_ok hreap with ⟨-, hclosed, -⟩ | ⟨hlive, hsame, hpending⟩
  · cases hclosed
  · exact ⟨hsame.symm, hget, hpending.1 rfl, hlive⟩

theorem countOpen_forfeited (rs : List RecoveryRequest) (n m : Nat)
    (h : rs.foldlM (fun acc r => do
      let reaped ← reapIfExpired env r acc.2
      return (if reaped.1 then acc.1 else acc.1 + 1, reaped.2)) (n, w) = .ok (m, w')) :
    Forfeited env (rs.filter (w.store.expired env)) w w' := by
  induction rs generalizing n w with
  | nil =>
    cases h
    exact Forfeited.nil _
  | cons r rest ih =>
    simp only [List.foldlM_cons, bind_eq_ok, pure_eq_ok] at h
    obtain ⟨-, ⟨⟨closed, w₁⟩, hreap, rfl⟩, h⟩ := h
    rcases reapIfExpired_ok hreap with ⟨hexpired, -, w₂, hpaid, rfl⟩ | ⟨hlive, rfl, -⟩
    · rw [List.filter_cons_of_pos hexpired]
      refine Forfeited.cons hpaid ?_
      have hsame : w₂.store = w.store := forfeitDeposit_store hpaid
      have hrest := ih _ h
      -- the test reads the documents, which closing a request leaves alone
      have htest : Store.expired (w₂.store.deleteRecoveryRequest r) env = w.store.expired env := by
        rw [hsame]
        rfl
      rw [htest] at hrest
      exact hrest
    · rw [List.filter_cons_of_neg (by simp [hlive])]
      exact ih _ h

/-- Counting the open requests of a DID closes those that have expired. -/
theorem countOpenRequests_ok {n : Nat} (h : countOpenRequests env did w = .ok (n, w')) :
    Forfeited env ((w.store.recoveryRequestsForDID did).filter (w.store.expired env)) w w' :=
  countOpen_forfeited _ 0 n h

theorem close_forfeited (keep : RecoveryRequest → Bool) (rs : List RecoveryRequest)
    (h : rs.foldlM (fun w r =>
      if keep r ∨ isTerminalRecoveryStatus r.status then .ok w
      else do
        let w ← forfeitDeposit env r w
        return { w with store := w.store.deleteRecoveryRequest r }) w = .ok w') :
    Forfeited env (rs.filter fun r => ¬ keep r ∧ r.status = .pending) w w' := by
  induction rs generalizing w with
  | nil =>
    cases h
    exact Forfeited.nil _
  | cons r rest ih =>
    rw [List.foldlM_cons, bind_eq_ok] at h
    obtain ⟨w₁, hone, h⟩ := h
    by_cases hkeep : keep r ∨ isTerminalRecoveryStatus r.status
    · rw [if_pos hkeep] at hone
      cases hone
      have hskip : ¬ (¬ keep r ∧ r.status = .pending) := by
        unfold isTerminalRecoveryStatus at hkeep
        simpa [imp_iff_not_or] using hkeep
      rw [List.filter_cons_of_neg (by simpa using hskip)]
      exact ih h
    · rw [if_neg hkeep] at hone
      simp only [bind_eq_ok, pure_eq_ok] at hone
      obtain ⟨w₂, hpaid, rfl⟩ := hone
      have hclose : ¬ keep r ∧ r.status = .pending := by
        unfold isTerminalRecoveryStatus at hkeep
        simpa [not_or] using hkeep
      rw [List.filter_cons_of_pos (by simpa using hclose)]
      exact Forfeited.cons hpaid (ih h)

theorem closeRequests_ok {keep : RecoveryRequest → Bool} (h : closeRequests keep env did w = .ok w') :
    Forfeited env ((w.store.recoveryRequestsForDID did).filter
      fun r => ¬ keep r ∧ r.status = .pending) w w' :=
  close_forfeited keep _ h

/-- A request that a suspension stamps. -/
def RecoveryRequest.freezes (env : Env) (r : RecoveryRequest) : Bool :=
  r.status = .pending ∧ r.frozenAt = 0 ∧ env.blockTime ≤ r.expiresAt

/-- A request that a reinstatement releases. -/
def RecoveryRequest.thaws (r : RecoveryRequest) : Bool := r.frozenAt ≠ 0 ∧ r.status = .pending

/-- A loop that stores a changed copy of the requests it does not skip. -/
theorem foldl_set_eq {skip : RecoveryRequest → Prop} [DecidablePred skip]
    {test : RecoveryRequest → Bool} (htest : ∀ r, test r = true ↔ ¬ skip r)
    (f : RecoveryRequest → RecoveryRequest) (rs : List RecoveryRequest) (s : Store) :
    rs.foldl (fun s r => if skip r then s else s.setRecoveryRequest (f r)) s =
      s.putAll ((rs.filter test).map f) := by
  induction rs generalizing s with
  | nil => rfl
  | cons r rest ih =>
    rw [List.foldl_cons, ih]
    by_cases hskip : skip r
    · rw [if_pos hskip, List.filter_cons_of_neg fun hr => (htest r).1 hr hskip]
    · rw [if_neg hskip, List.filter_cons_of_pos ((htest r).2 hskip)]
      rfl

/-- The requests of a DID that a suspension stamps, as it stores them. -/
def Store.frozenRequests (s : Store) (env : Env) (did : Bytes) : List RecoveryRequest :=
  ((s.recoveryRequestsForDID did).filter (RecoveryRequest.freezes env)).map
    (RecoveryRequest.freeze env.blockTime)

/-- The requests of a DID that a reinstatement releases, as it stores them. -/
def Store.thawedRequests (s : Store) (env : Env) (did : Bytes) : List RecoveryRequest :=
  ((s.recoveryRequestsForDID did).filter RecoveryRequest.thaws).map
    (RecoveryRequest.thaw env.blockTime s.params.recoveryRequestTtlSeconds)

theorem freezeLiveRecoveries_eq (s : Store) (env : Env) (did : Bytes) :
    s.freezeLiveRecoveries env did = s.putAll (s.frozenRequests env did) := by
  refine foldl_set_eq (fun r => ?_) _ _ s
  simp [RecoveryRequest.freezes, isTerminalRecoveryStatus, not_or]

theorem thawRecoveries_eq (s : Store) (env : Env) (did : Bytes) :
    s.thawRecoveries env did = s.putAll (s.thawedRequests env did) := by
  refine foldl_set_eq (fun r => ?_) _ _ s
  simp [RecoveryRequest.thaws, isTerminalRecoveryStatus, not_or]

/-! ## Outcomes -/

/-- The request an initiation opens, under the identifier it derives. -/
def MsgInitiateRecovery.request (k : Keeper) (env : Env) (params : Params)
    (msg : MsgInitiateRecovery) : RecoveryRequest :=
  newRequest env msg (deriveRecoveryID k msg.did msg.proposedNewPubKey msg.nonce) params

/-- A new request is stored and its nonce used up. -/
def Store.opened (s : Store) (r : RecoveryRequest) : Store :=
  { s.setRecoveryRequest r with
    recoveryNonces := s.recoveryNonces.put (nulKey r.did r.nonce) () }

/-- A guardian set is stored and starts an epoch. -/
def Store.guarded (s : Store) (gs : GuardianSet) : Store :=
  (s.setGuardianSet gs).bumpGuardianEpoch gs.did

/-- What a successful message did. -/
inductive Event (k : Keeper) (env : Env) (w : World) : Action → World → Prop
  | registered (msg : MsgRegisterIdentity) (params : Params)
      (hnew : w.store.hasIdentity msg.did = false)
      (hunused : w.store.uniqueness.has msg.uniquenessHash = false)
      (hverified : verifyRegistration k env msg w.store = .ok ())
      (hlatch : params = w.store.params ∨
        (w.store.params.bootstrapPhase = true ∧
          w.store.params.bootstrapThreshold ≤ w.store.identityCount + 1) ∧
          params = { w.store.params with bootstrapPhase := false }) :
      Event k env w (.registerIdentity msg)
        { w with store := { w.store.registered env msg with params := params } }
  | revoked (msg : MsgRevokeIdentity) (doc : DIDDocument) (w₁ : World)
      (hdoc : w.store.getIdentity msg.did = some doc)
      (hsigner : msg.creator = doc.controller ∨ msg.creator = k.authority)
      (hstanding : doc.status ≠ .revoked)
      (hclosed : Forfeited env
        ((w.store.recoveryRequestsForDID msg.did).filter fun r => r.status = .pending)
        { w with store := w.store.setIdentity env (doc.withStatus .revoked) } w₁) :
      Event k env w (.revokeIdentity msg) { w₁ with store := w₁.store.releaseRevoked msg.did }
  | rekeyed (msg : MsgRotateIdentityKey) (doc : DIDDocument) (curve : Curve) (derived : Bytes)
      (hdoc : w.store.getIdentity msg.did = some doc)
      (hsigner : msg.creator = doc.controller)
      (hactive : doc.status = .active)
      (hcurve : curveForKeyType doc.keyType = some curve)
      (hproof : k.verifySignature curve msg.newPubKey
        (rotationMessage env.chainID msg.did msg.newPubKey msg.creator) msg.popSig = true)
      (hderived : deriveDIDForKeyType k doc.keyType msg.newPubKey = some derived)
      (hfree : derived = doc.did ∨ w.store.hasIdentity derived = false) :
      Event k env w (.rotateIdentityKey msg)
        { w with store := w.store.setIdentity env (doc.withKey msg.newPubKey) }
  | suspended (msg : MsgUpdateStatus) (doc : DIDDocument)
      (hauthority : msg.authority = k.authority)
      (hdoc : w.store.getIdentity msg.did = some doc)
      (hold : doc.status = .active) (hnew : msg.newStatus = .suspended) :
      Event k env w (.updateStatus msg)
        { w with store := (w.store.setIdentity env (doc.withStatus .suspended)).putAll <|
            w.store.frozenRequests env msg.did }
  | reinstated (msg : MsgUpdateStatus) (doc : DIDDocument)
      (hauthority : msg.authority = k.authority)
      (hdoc : w.store.getIdentity msg.did = some doc)
      (hold : doc.status = .suspended) (hnew : msg.newStatus = .active) :
      Event k env w (.updateStatus msg)
        { w with store := (w.store.setIdentity env (doc.withStatus .active)).putAll <|
            w.store.thawedRequests env msg.did }
  -- a document without a status, which no message creates
  | restated (msg : MsgUpdateStatus) (doc : DIDDocument)
      (hauthority : msg.authority = k.authority)
      (hdoc : w.store.getIdentity msg.did = some doc)
      (hold : doc.status = .unspecified)
      (hnew : msg.newStatus = .active ∨ msg.newStatus = .suspended) :
      Event k env w (.updateStatus msg)
        { w with store := w.store.setIdentity env (doc.withStatus msg.newStatus) }
  | guarded (msg : MsgSetGuardians) (doc : DIDDocument)
      (hdoc : w.store.getIdentity msg.did = some doc)
      (hsigner : msg.controller = doc.controller)
      (hactive : doc.status = .active)
      (hvalid : validateGuardianSetBasic msg.did msg.commitments msg.threshold = .ok ()) :
      Event k env w (.setGuardians msg)
        { w with store := w.store.guarded <|
            ⟨msg.did, msg.commitments, msg.threshold, env.blockTime⟩ }
  | initiated (msg : MsgInitiateRecovery) (doc : DIDDocument) (initiator : Bytes) (w₁ w₂ : World)
      (hdoc : w.store.getIdentity msg.did = some doc)
      (hactive : doc.status = .active)
      (hfree : assertNoKeyCollision k msg.keyType msg.proposedNewPubKey w.store = .ok ())
      (hnonce : w.store.recoveryNonces.has (nulKey msg.did msg.nonce) = false)
      (hclosed : Forfeited env
        ((w.store.recoveryRequestsForDID msg.did).filter (w.store.expired env)) w w₁)
      (hid : w₁.store.getRecoveryRequest (msg.request k env w.store.params).recoveryId = none)
      (hinitiator : accAddressFromBech32 msg.creator = some initiator)
      (hcharged : chargeInitiation env msg initiator w₁ = .ok w₂) :
      Event k env w (.initiateRecovery msg)
        { w₂ with store := w₂.store.opened (msg.request k env w.store.params) }
  | approved (msg : MsgApproveRecovery) (r : RecoveryRequest)
      (hget : w.store.getRecoveryRequest msg.recoveryId = some r)
      (hpending : r.status = .pending) (hlive : w.store.expired env r = false)
      (hsocial : r.method ≠ .reauth)
      (hopened : openGuardianCommitment k r.did msg.guardianDid msg.salt msg.creator w.store = .ok ())
      (hfirst : msg.guardianDid ∉ (w.store.syncTallyEpoch r).1.approvals) :
      Event k env w (.approveRecovery msg)
        { w with store := (w.store.syncTallyEpoch r).2.setRecoveryRequest <|
            (w.store.syncTallyEpoch r).1.approvedBy msg.guardianDid }
  | rejected (msg : MsgRejectRecovery) (r : RecoveryRequest) (gs : GuardianSet)
      (hget : w.store.getRecoveryRequest msg.recoveryId = some r)
      (hpending : r.status = .pending) (hlive : w.store.expired env r = false)
      (hsocial : r.method ≠ .reauth)
      (hopened : openGuardianCommitment k r.did msg.guardianDid msg.salt msg.creator w.store = .ok ())
      (hfirst : msg.guardianDid ∉ (w.store.syncTallyEpoch r).1.rejections)
      (hguardians : w.store.guardians.get? r.did = some gs)
      (hbelow : ((w.store.syncTallyEpoch r).1.rejectedBy msg.guardianDid).rejections.length <
        gs.threshold) :
      Event k env w (.rejectRecovery msg)
        { w with store := (w.store.syncTallyEpoch r).2.setRecoveryRequest <|
            (w.store.syncTallyEpoch r).1.rejectedBy msg.guardianDid }
  | vetoed (msg : MsgRejectRecovery) (r : RecoveryRequest) (gs : GuardianSet) (w₁ : World)
      (hget : w.store.getRecoveryRequest msg.recoveryId = some r)
      (hpending : r.status = .pending) (hlive : w.store.expired env r = false)
      (hsocial : r.method ≠ .reauth)
      (hguardians : w.store.guardians.get? r.did = some gs)
      (hreached : gs.threshold ≤
        ((w.store.syncTallyEpoch r).1.rejectedBy msg.guardianDid).rejections.length)
      (hpaid : forfeitDeposit env ((w.store.syncTallyEpoch r).1.rejectedBy msg.guardianDid)
        { w with store := (w.store.syncTallyEpoch r).2 } = .ok w₁) :
      Event k env w (.rejectRecovery msg)
        { w₁ with store := w₁.store.deleteRecoveryRequest <|
            (w.store.syncTallyEpoch r).1.rejectedBy msg.guardianDid }
  | executed (msg : MsgExecuteRecovery) (r : RecoveryRequest) (doc : DIDDocument) (w₁ w₂ : World)
      (hget : w.store.getRecoveryRequest msg.recoveryId = some r)
      (hpending : r.status = .pending) (hlive : w.store.expired env r = false)
      (hdue : r.executeAfter ≤ env.blockTime)
      (hauthorised : authoriseExecution r w.store = .ok ())
      (hdoc : w.store.getIdentity r.did = some doc)
      (hactive : doc.status = .active)
      (hfree : assertNoKeyCollision k r.keyType r.proposedNewPubKey w.store = .ok ())
      (hpaid : refundDeposit env r { w with store := w.store.setIdentity env (doc.recovered r) } =
        .ok w₁)
      (hclosed : Forfeited env
        (((w.store.deleteRecoveryRequest r).recoveryRequestsForDID r.did).filter
          fun r' => r'.recoveryId ≠ r.recoveryId ∧ r'.status = .pending)
        { w₁ with store := w₁.store.deleteRecoveryRequest r } w₂) :
      Event k env w (.executeRecovery msg) w₂
  | cancelled (msg : MsgCancelRecovery) (r : RecoveryRequest) (doc : DIDDocument) (w₁ : World)
      (hget : w.store.getRecoveryRequest msg.recoveryId = some r)
      (hpending : r.status = .pending) (hlive : w.store.expired env r = false)
      (hdoc : w.store.getIdentity r.did = some doc)
      (hsigner : msg.creator = doc.controller)
      (hpaid : forfeitDeposit env r w = .ok w₁) :
      Event k env w (.cancelRecovery msg)
        { w₁ with store := w₁.store.deleteRecoveryRequest r }
  | issuerSet (msg : MsgRegisterTrustedIssuer) (hauthority : msg.authority = k.authority) :
      Event k env w (.registerTrustedIssuer msg)
        { w with store :=
            { w.store with trustedIssuers := w.store.trustedIssuers.set msg.issuer } }
  | issuerRevoked (msg : MsgRevokeTrustedIssuer) (ti : TrustedIssuer)
      (hauthority : msg.authority = k.authority)
      (hissuer : w.store.trustedIssuers.get? msg.did = some ti) :
      Event k env w (.revokeTrustedIssuer msg)
        { w with store := { w.store with
            trustedIssuers := w.store.trustedIssuers.set { ti with active := false } } }
  | reparametrised (msg : MsgUpdateParams) (hauthority : msg.authority = k.authority)
      (hvalid : msg.params.validate = .ok ()) :
      Event k env w (.updateParams msg)
        { w with store := { w.store with params := msg.params } }

theorem latchBootstrap_ok (h : latchBootstrap s = .ok s') :
    ∃ params, s' = { s with params := params } ∧ (params = s.params ∨
      (s.params.bootstrapPhase = true ∧ s.params.bootstrapThreshold ≤ s.identityCount) ∧
        params = { s.params with bootstrapPhase := false }) := by
  unfold latchBootstrap at h
  split at h
  · rename_i hreached
    simp only [Store.setParams, bind_eq_ok, pure_eq_ok] at h
    obtain ⟨-, -, rfl⟩ := h
    exact ⟨_, rfl, Or.inr ⟨hreached, rfl⟩⟩
  · cases h
    exact ⟨s.params, rfl, Or.inl rfl⟩

theorem onStore_ok {f : Store → Result Store} (h : onStore f w = .ok w') :
    ∃ s, f w.store = .ok s ∧ w' = { w with store := s } := by
  simp only [onStore, bind_eq_ok, pure_eq_ok] at h
  obtain ⟨s, hs, rfl⟩ := h
  exact ⟨s, hs, rfl⟩

theorem event_of_registerIdentity {msg : MsgRegisterIdentity}
    (h : registerIdentity k env msg w.store = .ok s') :
    Event k env w (.registerIdentity msg) { w with store := s' } := by
  simp only [registerIdentity, bind_eq_ok, ensure_eq_ok, exists_const] at h
  obtain ⟨hnew, hunused, ⟨⟩, hverified, hlatch⟩ := h
  obtain ⟨params, rfl, hparams⟩ := latchBootstrap_ok hlatch
  exact Event.registered msg params hnew hunused hverified hparams

theorem event_of_revokeIdentity {msg : MsgRevokeIdentity}
    (h : revokeIdentity k env msg w = .ok w') : Event k env w (.revokeIdentity msg) w' := by
  simp only [revokeIdentity, bind_eq_ok, orFail_eq_ok, ensure_eq_ok, exists_const, pure_eq_ok] at h
  obtain ⟨doc, hdoc, hsigner, hstanding, w₁, hclosed, rfl⟩ := h
  refine Event.revoked msg doc w₁ hdoc hsigner hstanding ?_
  -- the documents written do not bear on which requests the loop reads
  have hforfeited := closeRequests_ok hclosed
  have hsame : (w.store.setIdentity env (doc.withStatus .revoked)).recoveryRequestsForDID msg.did =
      w.store.recoveryRequestsForDID msg.did := rfl
  rw [hsame] at hforfeited
  simpa using hforfeited

theorem event_of_rotateIdentityKey {msg : MsgRotateIdentityKey}
    (h : rotateIdentityKey k env msg w.store = .ok s') :
    Event k env w (.rotateIdentityKey msg) { w with store := s' } := by
  simp only [rotateIdentityKey, bind_eq_ok, orFail_eq_ok, ensure_eq_ok, exists_const,
    pure_eq_ok] at h
  obtain ⟨doc, hdoc, hsigner, hactive, curve, hcurve, hproof, derived, hderived, hfree, rfl⟩ := h
  exact Event.rekeyed msg doc curve derived hdoc hsigner hactive hcurve hproof hderived hfree

theorem event_of_updateStatus {msg : MsgUpdateStatus}
    (h : updateStatus k env msg w.store = .ok s') :
    Event k env w (.updateStatus msg) { w with store := s' } := by
  simp only [updateStatus, bind_eq_ok, orFail_eq_ok, ensure_eq_ok, exists_const, pure_eq_ok] at h
  obtain ⟨hauthority, hnew, doc, hdoc, hstanding, hother, rfl⟩ := h
  unfold Store.holdRecoveries
  cases hstatus : doc.status with
  | unspecified => exact Event.restated msg doc hauthority hdoc hstatus hnew
  | revoked => exact absurd hstatus hstanding
  | active =>
    have hsuspend : msg.newStatus = .suspended :=
      hnew.resolve_left fun hact => hother (hstatus.trans hact.symm)
    rw [hsuspend, if_pos ⟨rfl, rfl⟩, freezeLiveRecoveries_eq]
    exact Event.suspended msg doc hauthority hdoc hstatus hsuspend
  | suspended =>
    have hactivate : msg.newStatus = .active :=
      hnew.resolve_right fun hsus => hother (hstatus.trans hsus.symm)
    rw [hactivate, if_neg (fun hboth => by cases hboth.1), if_pos ⟨rfl, rfl⟩, thawRecoveries_eq]
    exact Event.reinstated msg doc hauthority hdoc hstatus hactivate

theorem event_of_setGuardians {msg : MsgSetGuardians} (h : setGuardians env msg w.store = .ok s') :
    Event k env w (.setGuardians msg) { w with store := s' } := by
  simp only [setGuardians, bind_eq_ok, orFail_eq_ok, ensure_eq_ok, exists_const, pure_eq_ok] at h
  obtain ⟨doc, hdoc, hsigner, hactive, ⟨⟩, hvalid, -, rfl⟩ := h
  exact Event.guarded msg doc hdoc hsigner hactive hvalid

theorem event_of_initiateRecovery {msg : MsgInitiateRecovery}
    (h : initiateRecovery k env msg w = .ok w') : Event k env w (.initiateRecovery msg) w' := by
  simp only [initiateRecovery, bind_eq_ok, orFail_eq_ok, ensure_eq_ok, exists_const,
    pure_eq_ok] at h
  obtain ⟨-, doc, hdoc, hactive, ⟨⟩, -, -, ⟨⟩, hfree, hnonce, -, ⟨⟩, -, ⟨n, w₁⟩, hcounted, -, hid,
    initiator, hinitiator, w₂, hcharged, rfl⟩ := h
  exact Event.initiated msg doc initiator w₁ w₂ hdoc hactive hfree hnonce
    (countOpenRequests_ok hcounted) hid hinitiator hcharged

theorem event_of_approveRecovery {msg : MsgApproveRecovery}
    (h : approveRecovery k env msg w = .ok w') : Event k env w (.approveRecovery msg) w' := by
  simp only [approveRecovery, bind_eq_ok, ensure_eq_ok, exists_const, pure_eq_ok] at h
  obtain ⟨⟨r, w₁⟩, hopen, hsocial, ⟨⟩, hopened, hfirst, rfl⟩ := h
  obtain ⟨rfl, hget, hpending, hlive⟩ := openRequest_ok hopen
  exact Event.approved msg r hget hpending hlive hsocial hopened hfirst

/-- Bringing a tally up to date leaves the guardian sets alone. -/
theorem syncTallyEpoch_guardians (s : Store) (r : RecoveryRequest) :
    (s.syncTallyEpoch r).2.guardians = s.guardians := by
  unfold Store.syncTallyEpoch
  split
  · rfl
  · rfl

theorem syncTallyEpoch_did (s : Store) (r : RecoveryRequest) :
    (s.syncTallyEpoch r).1.did = r.did := by
  unfold Store.syncTallyEpoch
  split
  · rfl
  · rfl

theorem event_of_rejectRecovery {msg : MsgRejectRecovery}
    (h : rejectRecovery k env msg w = .ok w') : Event k env w (.rejectRecovery msg) w' := by
  simp only [rejectRecovery, bind_eq_ok, orFail_eq_ok, ensure_eq_ok, exists_const] at h
  obtain ⟨⟨r, w₁⟩, hopen, hsocial, ⟨⟩, hopened, hfirst, gs, hguardians, h⟩ := h
  obtain ⟨rfl, hget, hpending, hlive⟩ := openRequest_ok hopen
  have hset : w.store.guardians.get? r.did = some gs := by
    have hdid : ((w.store.syncTallyEpoch r).1.rejectedBy msg.guardianDid).did = r.did :=
      syncTallyEpoch_did w.store r
    rw [← syncTallyEpoch_guardians w.store r, ← hdid]
    exact hguardians
  split at h
  · rename_i hreached
    simp only [bind_eq_ok, pure_eq_ok] at h
    obtain ⟨w₂, hpaid, rfl⟩ := h
    exact Event.vetoed msg r gs w₂ hget hpending hlive hsocial hset hreached hpaid
  · rename_i hbelow
    rw [pure_eq_ok] at h
    subst h
    exact Event.rejected msg r gs hget hpending hlive hsocial hopened hfirst hset (not_le.1 hbelow)

theorem event_of_executeRecovery {msg : MsgExecuteRecovery}
    (h : executeRecovery k env msg w = .ok w') : Event k env w (.executeRecovery msg) w' := by
  simp only [executeRecovery, bind_eq_ok, orFail_eq_ok, ensure_eq_ok, exists_const] at h
  obtain ⟨⟨r, w₁⟩, hopen, hdue, ⟨⟩, hauthorised, doc, hdoc, hactive, ⟨⟩, hfree, w₂, hpaid,
    hclosed⟩ := h
  obtain ⟨rfl, hget, hpending, hlive⟩ := openRequest_ok hopen
  refine Event.executed msg r doc w₂ w' hget hpending hlive hdue hauthorised hdoc hactive hfree
    hpaid ?_
  have hforfeited := closeRequests_ok hclosed
  have hstore : w₂.store = w.store.setIdentity env (doc.recovered r) := refundDeposit_store hpaid
  have hsame : (w₂.store.deleteRecoveryRequest r).recoveryRequestsForDID r.did =
      (w.store.deleteRecoveryRequest r).recoveryRequestsForDID r.did := by
    rw [hstore]
    rfl
  dsimp only at hforfeited
  rw [hsame] at hforfeited
  simpa using hforfeited

theorem event_of_cancelRecovery {msg : MsgCancelRecovery}
    (h : cancelRecovery env msg w = .ok w') : Event k env w (.cancelRecovery msg) w' := by
  simp only [cancelRecovery, bind_eq_ok, orFail_eq_ok, ensure_eq_ok, exists_const,
    pure_eq_ok] at h
  obtain ⟨⟨r, w₁⟩, hopen, doc, hdoc, hsigner, w₂, hpaid, rfl⟩ := h
  obtain ⟨rfl, hget, hpending, hlive⟩ := openRequest_ok hopen
  exact Event.cancelled msg r doc w₂ hget hpending hlive hdoc hsigner hpaid

/-- A successful message passed its stateless check and did one of the things listed. -/
theorem event_of_apply {a : Action} (h : apply k env w a = .ok w') :
    a.validateBasic = .ok () ∧ Event k env w a w' := by
  simp only [apply, bind_eq_ok] at h
  obtain ⟨⟨⟩, hbasic, h⟩ := h
  refine ⟨hbasic, ?_⟩
  cases a with
  | registerIdentity msg =>
    obtain ⟨s, hs, rfl⟩ := onStore_ok h
    exact event_of_registerIdentity hs
  | revokeIdentity msg => exact event_of_revokeIdentity h
  | rotateIdentityKey msg =>
    obtain ⟨s, hs, rfl⟩ := onStore_ok h
    exact event_of_rotateIdentityKey hs
  | updateStatus msg =>
    obtain ⟨s, hs, rfl⟩ := onStore_ok h
    exact event_of_updateStatus hs
  | setGuardians msg =>
    obtain ⟨s, hs, rfl⟩ := onStore_ok h
    exact event_of_setGuardians hs
  | initiateRecovery msg => exact event_of_initiateRecovery h
  | approveRecovery msg => exact event_of_approveRecovery h
  | rejectRecovery msg => exact event_of_rejectRecovery h
  | executeRecovery msg => exact event_of_executeRecovery h
  | cancelRecovery msg => exact event_of_cancelRecovery h
  | registerTrustedIssuer msg =>
    obtain ⟨s, hs, rfl⟩ := onStore_ok h
    simp only [registerTrustedIssuer, bind_eq_ok, ensure_eq_ok, exists_const, pure_eq_ok] at hs
    obtain ⟨hauthority, rfl⟩ := hs
    exact Event.issuerSet msg hauthority
  | revokeTrustedIssuer msg =>
    obtain ⟨s, hs, rfl⟩ := onStore_ok h
    simp only [revokeTrustedIssuer, bind_eq_ok, orFail_eq_ok, ensure_eq_ok, exists_const,
      pure_eq_ok] at hs
    obtain ⟨hauthority, ti, hissuer, rfl⟩ := hs
    exact Event.issuerRevoked msg ti hauthority hissuer
  | updateParams msg =>
    obtain ⟨s, hs, rfl⟩ := onStore_ok h
    simp only [updateParams, Store.setParams, bind_eq_ok, ensure_eq_ok, exists_const,
      pure_eq_ok] at hs
    obtain ⟨hauthority, ⟨⟩, hvalid, rfl⟩ := hs
    exact Event.reparametrised msg hauthority hvalid

end PhiChain.Identity
