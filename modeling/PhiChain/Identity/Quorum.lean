import PhiChain.Identity.Window

/-!
# Identity: the quorum of a social recovery

Approvals are stored as bare DIDs. They count while the epoch stamped on the tally is the
epoch of the DID's guardian set, and a replaced set starts a new epoch; a stale tally is
cleared when a guardian next acts. `History` keeps the accepted transactions beside the
world, and `Backed` traces every approval that counts to a transaction that came after the
guardian set in force. At the ceiling of the epoch counter a replaced set starts no new
epoch, and approvals of the old set go on to count (`stale_quorum`).
-/

set_option autoImplicit false

namespace PhiChain.Identity

open Foundations Sdk

variable {k : Keeper} {env : Env} {w w' : World} {s s' : Store} {a : Action} {did id : Bytes}
  {r r' : RecoveryRequest}

/-! ## Epochs -/

theorem guardianEpoch_bump (s : Store) (did did' : Bytes) :
    (s.bumpGuardianEpoch did).guardianEpoch did' =
      if did = did' ∧ s.guardianEpoch did ≠ Store.maxUint64 then s.guardianEpoch did + 1
      else s.guardianEpoch did' := by
  unfold Store.bumpGuardianEpoch
  by_cases hceiling : s.guardianEpoch did = Store.maxUint64
  · rw [if_pos hceiling, if_neg fun h => h.2 hceiling]
  · rw [if_neg hceiling]
    unfold Store.guardianEpoch OrdMap.getD
    dsimp only
    rw [OrdMap.get?_put]
    by_cases hdid : did = did'
    · rw [if_pos hdid, if_pos ⟨hdid, hceiling⟩]
      rfl
    · rw [if_neg hdid, if_neg fun h => hdid h.1]

theorem recoveryTallyEpoch_delete (s : Store) (h : r.recoveryId ≠ id) :
    (s.deleteRecoveryRequest r).recoveryTallyEpoch id = s.recoveryTallyEpoch id := by
  unfold Store.recoveryTallyEpoch Store.deleteRecoveryRequest OrdMap.getD
  dsimp only
  rw [OrdMap.get?_erase_ne _ h]

theorem recoveryTallyEpoch_dropAll {rs : List RecoveryRequest}
    (h : id ∉ rs.map RecoveryRequest.recoveryId) :
    (s.dropAll rs).recoveryTallyEpoch id = s.recoveryTallyEpoch id := by
  induction rs generalizing s with
  | nil => rfl
  | cons r rest ih =>
    rw [List.map_cons, List.mem_cons, not_or] at h
    have hrest := ih (s := s.deleteRecoveryRequest r) h.2
    exact hrest.trans (recoveryTallyEpoch_delete s (Ne.symm h.1))

/-- Approvals of a request once its tally is brought up to date. -/
theorem approvals_syncTallyEpoch (s : Store) (r : RecoveryRequest) :
    (s.syncTallyEpoch r).1.approvals = s.effectiveApprovals r := by
  unfold Store.syncTallyEpoch Store.effectiveApprovals
  split
  · rfl
  · rfl

theorem recoveryTallyEpoch_sync (s : Store) (r : RecoveryRequest) (id : Bytes) :
    (s.syncTallyEpoch r).2.recoveryTallyEpoch id =
      if r.recoveryId = id then s.guardianEpoch r.did else s.recoveryTallyEpoch id := by
  unfold Store.syncTallyEpoch
  by_cases hcurrent : s.tallyIsCurrent r = true
  · rw [if_pos hcurrent]
    have hsame : s.recoveryTallyEpoch r.recoveryId = s.guardianEpoch r.did :=
      of_decide_eq_true hcurrent
    split
    · rename_i hid
      rw [← hid, hsame]
    · rfl
  · rw [if_neg hcurrent]
    unfold Store.recoveryTallyEpoch Store.setRecoveryTallyEpoch OrdMap.getD
    dsimp only
    rw [OrdMap.get?_put]
    split
    · rfl
    · rfl

/-! ## A tally over one message -/

/-- The guardian set of a DID and its epoch are what they were. -/
structure SameGuardians (s s' : Store) (did : Bytes) : Prop where
  set : s'.guardians.get? did = s.guardians.get? did
  epoch : s'.guardianEpoch did = s.guardianEpoch did

/-- The approvals of a stored request over one message. -/
inductive Tallied (k : Keeper) (w : World) (a : Action) (w' : World) (r' : RecoveryRequest) : Prop
  | cleared (hnone : r'.approvals = [])
  | kept (r : RecoveryRequest) (hget : w.store.getRecoveryRequest r'.recoveryId = some r)
      (hsame : r'.did = r.did ∧ r'.approvals = r.approvals)
      (htally : w'.store.recoveryTallyEpoch r'.recoveryId = w.store.recoveryTallyEpoch r'.recoveryId)
      (hguardians : SameGuardians w.store w'.store r'.did)
      (hother : ∀ msg, a = .setGuardians msg → msg.did ≠ r'.did)
  | superseded (msg : MsgSetGuardians) (r : RecoveryRequest) (haction : a = .setGuardians msg)
      (hdid : msg.did = r'.did)
      (hget : w.store.getRecoveryRequest r'.recoveryId = some r)
      (hsame : r'.did = r.did ∧ r'.approvals = r.approvals)
      (htally : w'.store.recoveryTallyEpoch r'.recoveryId = w.store.recoveryTallyEpoch r'.recoveryId)
      (hepoch : w'.store.guardianEpoch r'.did =
        if w.store.guardianEpoch r'.did = Store.maxUint64 then w.store.guardianEpoch r'.did
        else w.store.guardianEpoch r'.did + 1)
  | approved (msg : MsgApproveRecovery) (r : RecoveryRequest) (haction : a = .approveRecovery msg)
      (hid : msg.recoveryId = r'.recoveryId)
      (hget : w.store.getRecoveryRequest r'.recoveryId = some r) (hdid : r'.did = r.did)
      (hopened : openGuardianCommitment k r'.did msg.guardianDid msg.salt msg.creator w.store = .ok ())
      (hfirst : msg.guardianDid ∉ w.store.effectiveApprovals r)
      (happrovals : r'.approvals = w.store.effectiveApprovals r ++ [msg.guardianDid])
      (htally : w'.store.recoveryTallyEpoch r'.recoveryId = w.store.guardianEpoch r'.did)
      (hguardians : SameGuardians w.store w'.store r'.did)

/-- A request that a message leaves as it is, with its tally and guardians. -/
theorem tallied_of_get (id : Bytes) (hget : w.store.getRecoveryRequest id = some r)
    (htally : w'.store.recoveryTallyEpoch id = w.store.recoveryTallyEpoch id)
    (hguardians : SameGuardians w.store w'.store r.did)
    (hother : ∀ msg, a = .setGuardians msg → msg.did ≠ r.did) : Tallied k w a w' r := by
  have hid := recoveryId_of_get hget
  subst hid
  exact Tallied.kept r hget ⟨rfl, rfl⟩ htally hguardians hother

/-- A revocation leaves the guardians of the other DIDs alone. -/
theorem sameGuardians_releaseRevoked (h : did ≠ r.did) :
    SameGuardians s (s.releaseRevoked did) r.did := by
  have hbump : ∀ s₁ : Store, s₁.guardians = s.guardians.erase did →
      s₁.guardianEpochs = s.guardianEpochs → SameGuardians s (s₁.bumpGuardianEpoch did) r.did := by
    intro s₁ hset hepochs
    obtain ⟨_, heq⟩ := bumpGuardianEpoch_eq s₁ did
    constructor
    · rw [heq]
      dsimp only
      rw [hset, KeyedMap.get?_erase, if_neg h]
    · rw [guardianEpoch_bump, if_neg fun hsame => h hsame.1]
      unfold Store.guardianEpoch
      rw [hepochs]
  unfold Store.releaseRevoked
  dsimp only
  split
  · exact hbump _ rfl rfl
  · exact hbump _ rfl rfl

/-- The requests that are left after a revocation belong to other DIDs. -/
theorem tallied_of_revoked {msg : MsgRevokeIdentity} {doc : DIDDocument} {w₁ : World}
    (hfiled : Filed w.store) (hpending : AllPending w.store)
    (hclosed : Forfeited env
      ((w.store.recoveryRequestsForDID msg.did).filter fun r => r.status = .pending)
      { w with store := w.store.setIdentity env (doc.withStatus .revoked) } w₁)
    (hget : (w₁.store.releaseRevoked msg.did).getRecoveryRequest id = some r) :
    Tallied k w (.revokeIdentity msg) { w₁ with store := w₁.store.releaseRevoked msg.did } r := by
  obtain ⟨_, _, _, hrelease⟩ := releaseRevoked_eq w₁.store msg.did
  obtain ⟨_, _, _, hdrop⟩ := dropAll_eq (w.store.setIdentity env (doc.withStatus .revoked))
    ((w.store.recoveryRequestsForDID msg.did).filter fun r => r.status = .pending)
  have hget₁ : w₁.store.getRecoveryRequest id = some r := by
    rw [hrelease] at hget
    exact hget
  rw [hclosed.store] at hget₁
  obtain ⟨hout, hstored⟩ := get_of_dropAll hget₁
  have hbefore : w.store.getRecoveryRequest id = some r := hstored
  have hother : msg.did ≠ r.did := by
    intro hdid
    have hid := recoveryId_of_get hbefore
    subst hid
    have hlisted := (mem_recoveryRequestsForDID hfiled (hfiled.named _ r hbefore)).2 ⟨hbefore, rfl⟩
    rw [← hdid] at hlisted
    exact hout (List.mem_map_of_mem
      (List.mem_filter.2 ⟨hlisted, decide_eq_true (hpending _ r hbefore)⟩))
  have hreleased := sameGuardians_releaseRevoked (s := w₁.store) hother
  refine tallied_of_get _ hbefore ?_ ⟨hreleased.set.trans ?_, hreleased.epoch.trans ?_⟩ nofun
  · rw [hrelease]
    show w₁.store.recoveryTallyEpoch id = _
    rw [hclosed.store]
    exact recoveryTallyEpoch_dropAll hout
  · rw [hclosed.store]
    dsimp only
    rw [hdrop]
    rfl
  · rw [hclosed.store]
    dsimp only
    rw [hdrop]
    rfl

/-- A message that stores one brought-up-to-date tally leaves those of other requests. -/
theorem tallied_of_other {written : RecoveryRequest} (hid : written.recoveryId ≠ id)
    (haction : ∀ msg, a ≠ .setGuardians msg) (hsame : written.recoveryId = r.recoveryId)
    (hget : ((w.store.syncTallyEpoch r).2.setRecoveryRequest written).getRecoveryRequest id = some r') :
    Tallied k w a { w with store := (w.store.syncTallyEpoch r).2.setRecoveryRequest written } r' := by
  rw [getRecoveryRequest_set, if_neg hid] at hget
  obtain ⟨_, _, epochs, hsync⟩ := syncTallyEpoch_eq w.store r
  have hbefore : w.store.getRecoveryRequest id = some r' := by
    rw [hsync] at hget
    exact hget
  refine tallied_of_get _ hbefore ?_ ?_ fun msg h => absurd h (haction msg)
  · show (w.store.syncTallyEpoch r).2.recoveryTallyEpoch id = _
    rw [recoveryTallyEpoch_sync, if_neg (hsame ▸ hid)]
  · rw [hsync]
    exact ⟨rfl, rfl⟩

theorem tallied_of_approved {msg : MsgApproveRecovery}
    (hget : w.store.getRecoveryRequest msg.recoveryId = some r)
    (hopened : openGuardianCommitment k r.did msg.guardianDid msg.salt msg.creator w.store = .ok ())
    (hfirst : msg.guardianDid ∉ (w.store.syncTallyEpoch r).1.approvals)
    (hafter : ((w.store.syncTallyEpoch r).2.setRecoveryRequest
      ((w.store.syncTallyEpoch r).1.approvedBy msg.guardianDid)).getRecoveryRequest id = some r') :
    Tallied k w (.approveRecovery msg)
      { w with store := (w.store.syncTallyEpoch r).2.setRecoveryRequest <|
          (w.store.syncTallyEpoch r).1.approvedBy msg.guardianDid } r' := by
  obtain ⟨approvals, rejections, epochs, hsync⟩ := syncTallyEpoch_eq w.store r
  have hsynced := approvals_syncTallyEpoch w.store r
  have hepoch := recoveryTallyEpoch_sync w.store r r.recoveryId
  rw [if_pos rfl] at hepoch
  have hid := recoveryId_of_get hget
  have hsame : ((w.store.syncTallyEpoch r).1.approvedBy msg.guardianDid).recoveryId =
      r.recoveryId := by
    rw [hsync]
    rfl
  by_cases hmine : r.recoveryId = id
  · rw [getRecoveryRequest_set, if_pos (hsame.trans hmine)] at hafter
    cases hafter
    have hdid : ((w.store.syncTallyEpoch r).1.approvedBy msg.guardianDid).did = r.did := by
      rw [hsync]
      rfl
    refine Tallied.approved msg r rfl (hid.symm.trans hsame.symm) ?_ hdid (hdid ▸ hopened)
      (hsynced ▸ hfirst) (congrArg (· ++ [msg.guardianDid]) hsynced) ?_ ?_
    · rw [hsame, hid]
      exact hget
    · rw [hsame, hdid]
      exact hepoch
    · rw [hsync]
      exact ⟨rfl, rfl⟩
  · exact tallied_of_other (fun h => hmine (hsame.symm.trans h)) nofun hsame hafter

theorem tallied_of_rejected {msg : MsgRejectRecovery}
    (hget : w.store.getRecoveryRequest msg.recoveryId = some r)
    (hafter : ((w.store.syncTallyEpoch r).2.setRecoveryRequest
      ((w.store.syncTallyEpoch r).1.rejectedBy msg.guardianDid)).getRecoveryRequest id = some r') :
    Tallied k w (.rejectRecovery msg)
      { w with store := (w.store.syncTallyEpoch r).2.setRecoveryRequest <|
          (w.store.syncTallyEpoch r).1.rejectedBy msg.guardianDid } r' := by
  obtain ⟨approvals, rejections, epochs, hsync⟩ := syncTallyEpoch_eq w.store r
  have hepoch := recoveryTallyEpoch_sync w.store r r.recoveryId
  rw [if_pos rfl] at hepoch
  have hsame : ((w.store.syncTallyEpoch r).1.rejectedBy msg.guardianDid).recoveryId =
      r.recoveryId := by
    rw [hsync]
    rfl
  by_cases hmine : r.recoveryId = id
  · rw [getRecoveryRequest_set, if_pos (hsame.trans hmine)] at hafter
    cases hafter
    have happrovals : ((w.store.syncTallyEpoch r).1.rejectedBy msg.guardianDid).approvals =
        w.store.effectiveApprovals r := approvals_syncTallyEpoch w.store r
    -- a stale tally is cleared, a current one keeps its approvals
    by_cases hcurrent : w.store.tallyIsCurrent r = true
    · refine Tallied.kept r ?_ ⟨?_, ?_⟩ ?_ ?_ nofun
      · rw [hsame, recoveryId_of_get hget]
        exact hget
      · rw [hsync]
        rfl
      · rw [happrovals, Store.effectiveApprovals, if_pos hcurrent]
      · rw [hsame]
        exact hepoch.trans (of_decide_eq_true hcurrent).symm
      · rw [hsync]
        exact ⟨rfl, rfl⟩
    · refine Tallied.cleared ?_
      rw [happrovals, Store.effectiveApprovals, if_neg hcurrent]
  · exact tallied_of_other (fun h => hmine (hsame.symm.trans h)) nofun hsame hafter

/-- Requests rewritten by a new status of their DID keep their approvals. -/
theorem tallied_of_putAll {doc : DIDDocument} {rs : List RecoveryRequest}
    (haction : ∀ msg, a ≠ .setGuardians msg)
    (hrs : ∀ r' ∈ rs, ∃ r, w.store.getRecoveryRequest r'.recoveryId = some r ∧
      r'.did = r.did ∧ r'.approvals = r.approvals)
    (hget : ((w.store.setIdentity env doc).putAll rs).getRecoveryRequest id = some r') :
    Tallied k w a { w with store := (w.store.setIdentity env doc).putAll rs } r' := by
  have hother : ∀ did msg, a = .setGuardians msg → msg.did ≠ did :=
    fun _ msg h => absurd h (haction msg)
  obtain ⟨_, _, hput⟩ := putAll_eq (w.store.setIdentity env doc) rs
  rcases getRecoveryRequest_putAll hget with hmem | ⟨-, hbefore⟩
  · obtain ⟨r, hstored, hsame⟩ := hrs r' hmem
    rw [hput]
    exact Tallied.kept r hstored hsame rfl ⟨rfl, rfl⟩ (hother _)
  · rw [hput]
    exact tallied_of_get id hbefore rfl ⟨rfl, rfl⟩ (hother _)

/-- A request left by a deletion is another one. -/
theorem ne_of_delete {removed : RecoveryRequest}
    (h : (s.deleteRecoveryRequest removed).getRecoveryRequest id = some r) :
    removed.recoveryId ≠ id := by
  intro hid
  rw [getRecoveryRequest_delete, if_pos hid] at h
  cases h

/-- A new guardian set supersedes the tallies of its DID, and no others. -/
theorem tallied_of_guarded {msg : MsgSetGuardians}
    (hget : (w.store.guarded ⟨msg.did, msg.commitments, msg.threshold, env.blockTime⟩
      ).getRecoveryRequest id = some r) :
    Tallied k w (.setGuardians msg)
      { w with store := w.store.guarded <|
          ⟨msg.did, msg.commitments, msg.threshold, env.blockTime⟩ } r := by
  obtain ⟨epochs, hguarded⟩ := guarded_eq w.store
    ⟨msg.did, msg.commitments, msg.threshold, env.blockTime⟩
  have hepoch := guardianEpoch_bump
    (w.store.setGuardianSet ⟨msg.did, msg.commitments, msg.threshold, env.blockTime⟩) msg.did r.did
  have hbefore : w.store.getRecoveryRequest id = some r := by
    rw [hguarded] at hget
    exact hget
  have hid := recoveryId_of_get hbefore
  subst hid
  by_cases hdid : msg.did = r.did
  · refine Tallied.superseded msg r rfl hdid hbefore ⟨rfl, rfl⟩ ?_ ?_
    · rw [hguarded]
      rfl
    · refine hepoch.trans ?_
      show (if msg.did = r.did ∧ w.store.guardianEpoch msg.did ≠ Store.maxUint64 then
        w.store.guardianEpoch msg.did + 1 else w.store.guardianEpoch r.did) = _
      rw [hdid]
      by_cases hceiling : w.store.guardianEpoch r.did = Store.maxUint64
      · rw [if_pos hceiling, if_neg fun h => h.2 hceiling]
      · rw [if_neg hceiling, if_pos ⟨rfl, hceiling⟩]
  · refine tallied_of_get _ hbefore ?_ ⟨?_, ?_⟩ ?_
    · rw [hguarded]
      rfl
    · rw [hguarded]
      exact KeyedMap.get?_set_ne _ hdid
    · rw [if_neg fun h => hdid h.1] at hepoch
      exact hepoch
    · intro msg' hmsg
      cases hmsg
      exact hdid

/-- Every stored approval has its history over one message. -/
theorem tallied_of_event (hevent : Event k env w a w') (hfiled : Filed w.store)
    (hpending : AllPending w.store) (hget : w'.store.getRecoveryRequest id = some r') :
    Tallied k w a w' r' := by
  cases hevent with
  | registered | rekeyed | restated | issuerSet | issuerRevoked | reparametrised =>
    exact tallied_of_get id hget rfl ⟨rfl, rfl⟩ nofun
  | revoked msg doc w₁ hdoc hsigner hstanding hclosed =>
    exact tallied_of_revoked hfiled hpending hclosed hget
  | suspended | reinstated =>
    refine tallied_of_putAll nofun (fun r' hmem => ?_) hget
    obtain ⟨r, hr, -, rfl⟩ := mem_rewritten.1 hmem
    exact ⟨r, stored_of_mem hr, rfl, rfl⟩
  | guarded msg doc => exact tallied_of_guarded hget
  | initiated msg doc initiator w₁ w₂ hdoc hactive hfree hnonce hclosed hid hinitiator hcharged =>
    have hopened : (w₂.store.setRecoveryRequest (msg.request k env w.store.params)
        ).getRecoveryRequest id = some r' := hget
    obtain ⟨_, _, _, hdrop⟩ := dropAll_eq w.store
      ((w.store.recoveryRequestsForDID msg.did).filter (w.store.expired env))
    rw [getRecoveryRequest_set] at hopened
    split at hopened
    · cases hopened
      exact Tallied.cleared rfl
    · rw [chargeInitiation_store hcharged, hclosed.store] at hopened
      obtain ⟨hout, hbefore⟩ := get_of_dropAll hopened
      refine tallied_of_get _ hbefore ?_ ?_ nofun
      · show w₂.store.recoveryTallyEpoch id = _
        rw [chargeInitiation_store hcharged, hclosed.store]
        exact recoveryTallyEpoch_dropAll hout
      · rw [chargeInitiation_store hcharged, hclosed.store, hdrop]
        exact ⟨rfl, rfl⟩
  | approved msg r hstored _ _ _ hopened hfirst =>
    exact tallied_of_approved hstored hopened hfirst hget
  | rejected msg r gs hstored => exact tallied_of_rejected hstored hget
  | vetoed msg r gs w₁ hstored _ _ _ _ _ hpaid =>
    obtain ⟨_, _, _, hsync⟩ := syncTallyEpoch_eq w.store r
    have hother := ne_of_delete hget
    have hbefore := get_of_delete hget
    have hepoch := recoveryTallyEpoch_sync w.store r id
    rw [forfeitDeposit_store hpaid] at hbefore ⊢
    rw [hsync] at hother hbefore hepoch ⊢
    have hne : r.recoveryId ≠ id := hother
    rw [if_neg hne] at hepoch
    refine tallied_of_get id hbefore ?_ ⟨rfl, rfl⟩ nofun
    exact (recoveryTallyEpoch_delete _ hother).trans hepoch
  | executed msg r doc w₁ _ hstored _ _ _ _ hdoc _ _ hpaid hclosed =>
    obtain ⟨_, _, _, hdrop⟩ := dropAll_eq (w₁.store.deleteRecoveryRequest r)
      (((w.store.deleteRecoveryRequest r).recoveryRequestsForDID r.did).filter
        fun r' => r'.recoveryId ≠ r.recoveryId ∧ r'.status = .pending)
    have hpaidStore := refundDeposit_store hpaid
    rw [hclosed.store] at hget
    obtain ⟨hout, hdeleted⟩ := get_of_dropAll hget
    have hother := ne_of_delete hdeleted
    have hbefore : w.store.getRecoveryRequest id = some r' := by
      have hkept := get_of_delete hdeleted
      rw [hpaidStore] at hkept
      exact hkept
    refine tallied_of_get _ hbefore ?_ ?_ nofun
    · rw [hclosed.store]
      refine (recoveryTallyEpoch_dropAll hout).trans ((recoveryTallyEpoch_delete _ hother).trans ?_)
      rw [hpaidStore]
      rfl
    · rw [hclosed.store]
      dsimp only
      rw [hdrop, hpaidStore]
      exact ⟨rfl, rfl⟩
  | cancelled msg r doc w₁ hstored _ _ _ _ hpaid =>
    have hother := ne_of_delete hget
    have hbefore := get_of_delete hget
    rw [forfeitDeposit_store hpaid] at hbefore ⊢
    exact tallied_of_get _ hbefore (recoveryTallyEpoch_delete _ hother) ⟨rfl, rfl⟩ nofun

/-! ## Histories -/

/-- A world, and the accepted transactions that led to it, the newest first, each with the world
it was applied to. -/
structure History where
  world : World
  past : List (World × Tx)

def historyStep (k : Keeper) (h : History) (tx : Tx) : History :=
  match apply k tx.env h.world tx.action with
  | .ok w' => ⟨w', (h.world, tx) :: h.past⟩
  | .error _ => h

theorem historyStep_world (h : History) (tx : Tx) :
    (historyStep k h tx).world = step k h.world tx := by
  unfold historyStep step
  cases apply k tx.env h.world tx.action with
  | ok w' => rfl
  | error e => rfl

/-- The history does not bear on the run. -/
theorem historyRun_world (h : History) (txs : List Tx) :
    (run (historyStep k) h txs).world = run (step k) h.world txs :=
  run_view History.world historyStep_world h txs

/-- The transaction installs a guardian set of the DID. -/
def installs (did : Bytes) (e : World × Tx) : Bool :=
  match e.2.action with
  | .setGuardians msg => msg.did = did
  | _ => false

/-- The transaction opens the request. -/
def opensRequest (k : Keeper) (id : Bytes) (e : World × Tx) : Bool :=
  match e.2.action with
  | .initiateRecovery msg => (msg.request k e.2.env e.1.store.params).recoveryId = id
  | _ => false

/-- What happened since the guardian set of a DID was installed and the request was opened. -/
def History.since (k : Keeper) (did id : Bytes) (h : History) : List (World × Tx) :=
  h.past.takeWhile fun e => !(installs did e || opensRequest k id e)

/-- The transaction approves the request for a guardian: it opens a commitment of the guardian
set, and the signer controls the guardian's active DID. -/
def ApprovesFor (k : Keeper) (gs : GuardianSet) (id guardian : Bytes) (e : World × Tx) : Prop :=
  ∃ msg doc, e.2.action = .approveRecovery msg ∧ msg.recoveryId = id ∧ msg.guardianDid = guardian ∧
    gs.hasCommitment (guardianCommitment k guardian msg.salt) = true ∧
    e.1.store.getIdentity guardian = some doc ∧ doc.status = .active ∧ doc.controller = msg.creator

/-- Every approval that counts was given under the guardian set in force. -/
structure Backed (k : Keeper) (h : History) : Prop where
  filed : Filed h.world.store
  pending : AllPending h.world.store
  distinct : ∀ id r, h.world.store.getRecoveryRequest id = some r → r.approvals.Nodup
  stamped : ∀ id r, h.world.store.getRecoveryRequest id = some r → r.approvals ≠ [] →
    h.world.store.recoveryTallyEpoch id ≤ h.world.store.guardianEpoch r.did
  given : ∀ id r gs d, h.world.store.getRecoveryRequest id = some r →
    h.world.store.guardians.get? r.did = some gs → d ∈ h.world.store.effectiveApprovals r →
      ∃ e ∈ h.since k r.did id, ApprovesFor k gs id d e

variable {tx : Tx} {h : History}

/-- What an accepted opening of a commitment says. -/
theorem approvesFor_of_opened {msg : MsgApproveRecovery} {gs : GuardianSet}
    (haction : tx.action = .approveRecovery msg) (hset : w.store.guardians.get? did = some gs)
    (h : openGuardianCommitment k did msg.guardianDid msg.salt msg.creator w.store = .ok ()) :
    ApprovesFor k gs msg.recoveryId msg.guardianDid (w, tx) := by
  simp only [openGuardianCommitment, bind_eq_ok, orFail_eq_ok, ensure_eq_ok, exists_const] at h
  obtain ⟨-, gs', hset', hcommitment, -, doc, hdoc, hactive, hcontroller⟩ := h
  rw [hset] at hset'
  cases hset'
  exact ⟨msg, doc, haction, rfl, rfl, hcommitment, hdoc, hactive, hcontroller⟩

/-! ## Backed approvals along a run -/

theorem mem_approvals {d : Bytes} (h : d ∈ s.effectiveApprovals r) : d ∈ r.approvals := by
  unfold Store.effectiveApprovals at h
  split at h
  · exact h
  · cases h

theorem effectiveApprovals_nodup (h : r.approvals.Nodup) : (s.effectiveApprovals r).Nodup := by
  unfold Store.effectiveApprovals
  split
  · exact h
  · exact List.nodup_nil

/-- An accepted transaction that neither installs the guardian set nor opens the request. -/
theorem since_cons {e : World × Tx} (hinstalls : installs did e = false)
    (hopens : opensRequest k id e = false) :
    History.since k did id ⟨w', e :: h.past⟩ = e :: h.since k did id := by
  unfold History.since
  rw [List.takeWhile_cons, if_pos (by rw [hinstalls, hopens]; rfl)]

/-- No guardian set is replaced when the epoch of its DID is at the ceiling. -/
def belowCeiling (w : World) (tx : Tx) : Bool :=
  match tx.action with
  | .setGuardians msg => w.store.guardianEpoch msg.did ≠ Store.maxUint64
  | _ => true

/-- Approvals in a request that the transaction did not open. -/
theorem opensRequest_eq_false (hevent : Event k tx.env w tx.action w')
    (hget : w'.store.getRecoveryRequest id = some r) (hsome : r.approvals ≠ []) :
    opensRequest k id (w, tx) = false := by
  refine eq_false_of_ne_true fun hopens => hsome ?_
  unfold opensRequest at hopens
  split at hopens
  · rename_i msg haction
    have haction' : tx.action = .initiateRecovery msg := haction
    rw [haction'] at hevent
    have hopened := get_of_initiated hevent
    rw [of_decide_eq_true hopens, hget] at hopened
    cases hopened
    rfl
  · cases hopens

theorem installs_eq_false (h : ∀ msg, tx.action = .setGuardians msg → msg.did ≠ did) :
    installs did (w, tx) = false := by
  unfold installs
  split
  · rename_i msg haction
    exact decide_eq_false (h msg haction)
  · rfl

/-- An approval that counts after a transaction is given by it, or counted before under the same
guardian set. -/
theorem given_of_event {gs : GuardianSet} {d : Bytes} (hok : belowCeiling h.world tx = true)
    (hevent : Event k tx.env h.world tx.action w') (hbacked : Backed k h)
    (hget : w'.store.getRecoveryRequest id = some r)
    (hset : w'.store.guardians.get? r.did = some gs) (hd : d ∈ w'.store.effectiveApprovals r) :
    ∃ e ∈ History.since k r.did id ⟨w', (h.world, tx) :: h.past⟩, ApprovesFor k gs id d e := by
  have hsome : r.approvals ≠ [] := List.ne_nil_of_mem (mem_approvals hd)
  have hopens := opensRequest_eq_false hevent hget hsome
  have hid := recoveryId_of_get hget
  subst hid
  cases tallied_of_event hevent hbacked.filed hbacked.pending hget with
  | cleared hnone => exact absurd hnone hsome
  | kept r₀ hbefore hsame htally hguardians hother =>
    have hcounted : w'.store.effectiveApprovals r = h.world.store.effectiveApprovals r₀ := by
      unfold Store.effectiveApprovals Store.tallyIsCurrent
      rw [htally, hguardians.epoch, hsame.2, ← recoveryId_of_get hbefore, hsame.1]
    have hset₀ := hguardians.set ▸ hset
    rw [hsame.1] at hset₀
    rw [since_cons (installs_eq_false hother) hopens]
    obtain ⟨e, he, happroves⟩ := hbacked.given _ r₀ gs d hbefore hset₀ (hcounted ▸ hd)
    rw [← hsame.1] at he
    exact ⟨e, List.mem_cons_of_mem _ he, happroves⟩
  | superseded msg r₀ haction hdid hbefore hsame htally hepoch =>
    -- the new epoch is above every tally
    have hle := hbacked.stamped _ r₀ hbefore (hsame.2 ▸ hsome)
    unfold belowCeiling at hok
    rw [haction] at hok
    have hbelow : h.world.store.guardianEpoch r.did ≠ Store.maxUint64 :=
      hdid ▸ of_decide_eq_true hok
    rw [if_neg hbelow] at hepoch
    unfold Store.effectiveApprovals Store.tallyIsCurrent at hd
    rw [htally, hepoch, if_neg ?_] at hd
    · cases hd
    · rw [decide_eq_true_eq]
      rw [← hsame.1] at hle
      omega
  | approved msg r₀ haction hmsg hbefore hdid hopened _ happrovals _ hguardians =>
    have hset₀ := hguardians.set ▸ hset
    rw [since_cons (installs_eq_false (by rw [haction]; nofun)) hopens]
    have hmem := mem_approvals hd
    rw [happrovals, List.mem_append, List.mem_singleton] at hmem
    rcases hmem with hold | rfl
    · obtain ⟨e, he, happroves⟩ := hbacked.given _ r₀ gs d hbefore (hdid ▸ hset₀) hold
      rw [← hdid] at he
      exact ⟨e, List.mem_cons_of_mem _ he, happroves⟩
    · exact ⟨_, List.mem_cons_self, hmsg ▸ approvesFor_of_opened haction hset₀ hopened⟩

theorem backed_of_event (hok : belowCeiling h.world tx = true)
    (hbasic : tx.action.validateBasic = .ok ()) (hevent : Event k tx.env h.world tx.action w')
    (hbacked : Backed k h) : Backed k ⟨w', (h.world, tx) :: h.past⟩ := by
  have htallied : ∀ id r, w'.store.getRecoveryRequest id = some r →
      Tallied k h.world tx.action w' r := fun id r hget =>
    tallied_of_event hevent hbacked.filed hbacked.pending hget
  refine ⟨filed_of_event hbasic hevent hbacked.filed,
    allPending_of_event hbasic hevent hbacked.filed hbacked.pending, ?_, ?_, ?_⟩
  · intro id r' hget
    cases htallied id r' hget with
    | cleared hnone =>
      rw [hnone]
      exact List.nodup_nil
    | kept r hbefore hsame | superseded msg r _ _ hbefore hsame =>
      rw [hsame.2]
      exact hbacked.distinct _ r hbefore
    | approved msg r _ _ hbefore _ _ hfirst happrovals =>
      rw [happrovals, ← List.concat_eq_append]
      exact (effectiveApprovals_nodup (hbacked.distinct _ r hbefore)).concat hfirst
  · intro id r' hget hsome
    have hid := recoveryId_of_get hget
    subst hid
    cases htallied _ r' hget with
    | cleared hnone => exact absurd hnone hsome
    | kept r hbefore hsame htally hguardians =>
      have hle := hbacked.stamped _ r hbefore (hsame.2 ▸ hsome)
      rw [← hsame.1, ← hguardians.epoch, ← htally] at hle
      exact hle
    | superseded msg r _ _ hbefore hsame htally hepoch =>
      have hle := hbacked.stamped _ r hbefore (hsame.2 ▸ hsome)
      rw [← hsame.1, ← htally] at hle
      refine le_trans hle (hepoch ▸ ?_)
      split
      · exact le_refl _
      · exact Nat.le_succ _
    | approved msg r _ _ _ _ _ _ _ htally hguardians => exact le_of_eq (htally.trans hguardians.epoch.symm)
  · intro id r' gs d hget hset hd
    exact given_of_event hok hevent hbacked hget hset hd

/-- The execution of a social recovery rests on a threshold of distinct guardians, each of whom
approved the request after the guardian set in force was installed. -/
def QuorumBehind (k : Keeper) (h : History) (tx : Tx) : Prop :=
  ∀ msg r, tx.action = .executeRecovery msg →
    isOk (apply k tx.env h.world tx.action) = true →
    h.world.store.getRecoveryRequest msg.recoveryId = some r → r.method ≠ .reauth →
      ∃ (gs : GuardianSet) (guardians : List Bytes),
        h.world.store.guardians.get? r.did = some gs ∧
        guardians.Nodup ∧ gs.threshold ≤ guardians.length ∧
        ∀ d ∈ guardians, ∃ e ∈ h.since k r.did msg.recoveryId, ApprovesFor k gs msg.recoveryId d e

theorem quorumBehind_of_backed (hbacked : Backed k h) :
    QuorumBehind k h tx := by
  intro msg r haction hok hget hsocial
  obtain ⟨w', happly⟩ := isOk_iff.1 hok
  obtain ⟨-, hevent⟩ := event_of_apply happly
  rw [haction] at hevent
  cases hevent with
  | executed _ req doc w₁ _ hreq _ _ _ hauthorised =>
    rw [hget] at hreq
    cases hreq
    unfold authoriseExecution at hauthorised
    rw [if_pos hsocial] at hauthorised
    simp only [bind_eq_ok, orFail_eq_ok, ensure_eq_ok] at hauthorised
    obtain ⟨gs, hset, hreached⟩ := hauthorised
    refine ⟨gs, h.world.store.effectiveApprovals r, hset,
      effectiveApprovals_nodup (hbacked.distinct _ r hget), hreached, ?_⟩
    intro d hd
    exact hbacked.given _ r gs d hget hset hd

/-- In every run from an accepted genesis whose requests carry no approvals, in which no guardian
set is replaced at the ceiling of its epoch, a live quorum stands behind every executed social
recovery. -/
theorem live_quorum_of_run {gs : GenesisState} {bank : Bank} {txs : List Tx}
    (hgenesis : initGenesis k env gs bank = .ok w)
    (hclean : ∀ r ∈ gs.recoveryRequests, r.approvals = [])
    (hrun : Along (historyStep k) (fun h tx => belowCeiling h.world tx = true) ⟨w, []⟩ txs) :
    Along (historyStep k) (QuorumBehind k) ⟨w, []⟩ txs := by
  obtain ⟨hstarted, hlisted⟩ := started_of_initGenesis hgenesis
  have hnone : ∀ id r, w.store.getRecoveryRequest id = some r → r.approvals = [] :=
    fun id r hget => hclean r (hlisted id r hget)
  have hstart : Backed k ⟨w, []⟩ := by
    refine ⟨hstarted.filed, fun id r hget => (hstarted.requests id r hget).pending, ?_, ?_, ?_⟩
    · intro id r hget
      rw [hnone id r hget]
      exact List.nodup_nil
    · intro id r hget hsome
      exact absurd (hnone id r hget) hsome
    · intro id r gs d hget _ hd
      have hmem := mem_approvals hd
      rw [hnone id r hget] at hmem
      cases hmem
  refine @along_of_invariant _ _ (historyStep k) _ (Backed k) _ ?_ ?_ _ hstart _ hrun
  · intro h tx hok hbacked
    unfold historyStep
    cases happly : apply k tx.env h.world tx.action with
    | error e => exact hbacked
    | ok w' =>
      obtain ⟨hbasic, hevent⟩ := event_of_apply happly
      exact backed_of_event hok hbasic hevent hbacked
  · intro h tx _ hbacked
    exact quorumBehind_of_backed hbacked

/-- The owner of the first DID names a guardian. -/
def guardFirst (guardian : Byte) : Action :=
  .setGuardians ⟨accAddressString [21], recoveryDID 1, [commitmentTo guardian], 1⟩

/-- The guardian is replaced after an approval, and the new one approves. -/
theorem live_quorum_of_replaced_guardian :
    isOk (apply recoveryKeeper (smallEnv 112)
      (run (step recoveryKeeper) (guardedWorld smallParams)
        [⟨smallEnv 101, recoverFirst 24 9⟩, ⟨smallEnv 102, approveFirst 22 2 9⟩,
          ⟨smallEnv 103, guardFirst 3⟩, ⟨smallEnv 104, approveFirst 23 3 9⟩]) (executeFirst 24 9)) =
      true ∧
    Along (historyStep recoveryKeeper) (QuorumBehind recoveryKeeper) ⟨guardedWorld smallParams, []⟩
      [⟨smallEnv 101, recoverFirst 24 9⟩, ⟨smallEnv 102, approveFirst 22 2 9⟩,
        ⟨smallEnv 103, guardFirst 3⟩, ⟨smallEnv 104, approveFirst 23 3 9⟩,
        ⟨smallEnv 112, executeFirst 24 9⟩] :=
  ⟨by decide +kernel, @live_quorum_of_run _ (smallEnv 10) _ _ _ _
    (initGenesis_of_validate validate_guardedGenesis) (List.forall_mem_nil _) (by decide +kernel)⟩

/-- The small genesis, with the epoch of the first DID one below the ceiling. -/
def lateGenesis : GenesisState :=
  { guardedGenesis smallParams with guardianEpochs := [(recoveryDID 1, 2 ^ 64 - 2)] }

def lateWorld : World := ⟨⟨∅, ∅⟩, importStore (smallEnv 10) lateGenesis⟩

/-- A guardian set is installed, its guardian approves a request, and the set is replaced. -/
def replacedAtCeiling : List Tx :=
  [⟨smallEnv 100, guardFirst 2⟩, ⟨smallEnv 101, recoverFirst 24 9⟩,
    ⟨smallEnv 102, approveFirst 22 2 9⟩, ⟨smallEnv 103, guardFirst 3⟩]

theorem not_quorumBehind {msg : MsgExecuteRecovery} (haction : tx.action = .executeRecovery msg)
    (hstale : isOk (apply k tx.env h.world tx.action) = true ∧
      ((h.world.store.getRecoveryRequest msg.recoveryId).any fun r =>
        (h.world.store.guardians.get? r.did).any fun gs =>
          r.method ≠ .reauth ∧ 0 < gs.threshold ∧
            (h.since k r.did msg.recoveryId).isEmpty = true) = true) :
    ¬ QuorumBehind k h tx := by
  intro hquorum
  obtain ⟨hok, hstale⟩ := hstale
  obtain ⟨r, hget, hset⟩ := (Option.any_eq_true _ _).1 hstale
  obtain ⟨gs, hset, hrest⟩ := (Option.any_eq_true _ _).1 hset
  obtain ⟨hsocial, hpositive, hempty⟩ := of_decide_eq_true hrest
  obtain ⟨gs', guardians, hset', -, hreached, hgiven⟩ := hquorum msg r haction hok hget hsocial
  rw [hset] at hset'
  cases hset'
  obtain ⟨d, hd⟩ := List.exists_mem_of_length_pos (lt_of_lt_of_le hpositive hreached)
  obtain ⟨e, he, -⟩ := hgiven d hd
  rw [List.isEmpty_iff.1 hempty] at he
  cases he

/-- The second set starts no epoch, and the request is executed on the approval given under the
first: no guardian of the set in force has approved it. -/
theorem stale_quorum :
    initGenesis recoveryKeeper (smallEnv 10) lateGenesis ⟨∅, ∅⟩ = .ok lateWorld ∧
    isOk (apply recoveryKeeper (smallEnv 112)
      (run (step recoveryKeeper) lateWorld replacedAtCeiling) (executeFirst 24 9)) = true ∧
    ¬ Along (historyStep recoveryKeeper) (QuorumBehind recoveryKeeper) ⟨lateWorld, []⟩
      (replacedAtCeiling ++ [⟨smallEnv 112, executeFirst 24 9⟩]) := by
  refine ⟨initGenesis_of_validate (by decide +kernel), by decide +kernel, fun h => ?_⟩
  have hlast := (along_append.1 h).2.1
  exact not_quorumBehind rfl (by decide +kernel) hlast

end PhiChain.Identity
