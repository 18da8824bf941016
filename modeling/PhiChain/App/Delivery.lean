import PhiChain.App.Authority
import PhiChain.Institutions.Messages
import PhiChain.Institutions.Solvency

/-!
# Steps of a running chain

A step delivers a message that passed its stateless check, sweeps at the start of a block,
or assigns a KYC tier. The chain is not restarted in between.

`Change` says once what a step can do to the store of x/institutions; the invariants of the
registry are derived from it.
-/

set_option autoImplicit false

namespace PhiChain.App

open Foundations Sdk Institutions

variable {D : Type} [LinearOrder D]

/-- Stateless check of an action; what is no message of x/institutions has none here. -/
def Action.validateBasic : Action → Result Unit
  | .mint msg => msg.validateBasic
  | .redeem msg => msg.validateBasic
  | .register msg => msg.validateBasic
  | .remove msg => msg.validateBasic
  | .freeze msg => msg.validateBasic
  | .attest msg => msg.validateBasic
  | .updateParams msg => msg.validateBasic
  | .setEmergency msg => msg.validateBasic
  | .requestFx msg => msg.validateBasic
  | .guaranteeFx msg => msg.validateBasic
  | .finalizeFx msg => msg.validateBasic
  | .sensitive msg => msg.validateBasic
  | _ => .ok ()

inductive Op where
  | deliver (a : Action) (running : a ≠ .restart)
  | assignKycTier (instID holder : Bytes) (tier : Nat)

def perform (k : Keeper D) (ctx : Ctx) (w : World D) : Op → Result (World D)
  | .deliver a _ => do
    a.validateBasic
    apply k ctx w a
  | .assignKycTier instID holder tier => onInstitutions w (assignKycTier instID holder tier w.inst)

/-- One step; a failed one leaves the state as it was. -/
def advance (k : Keeper D) (w : World D) (op : Ctx × Op) : World D :=
  commit w (perform k op.1 w op.2)

theorem advance_cases (k : Keeper D) (w : World D) (op : Ctx × Op) :
    advance k w op = w ∨ perform k op.1 w op.2 = .ok (advance k w op) := by
  unfold advance
  cases hx : perform k op.1 w op.2 with
  | error e => exact .inl rfl
  | ok w' => exact .inr rfl

/-! ## What one step does to the store -/

/-- Counters and markers only gain keys of their own keyspace. -/
structure Marked (s s' : Store D) : Prop where
  counters : ∀ key, s'.counters.has key = true →
    s.counters.has key = true ∨ underPrefix 0x40 key = true
  subjects : ∀ key, s'.redeemSubjects.has key = true →
    s.redeemSubjects.has key = true ∨ underPrefix 0x80 key = true
  deposits : ∀ key v, s'.deposits.get? key = some v →
    s.deposits.get? key = some v ∨ underPrefix 0x50 key = true ∧ v = depositMarkerByte

variable {s s' : Store D} {inst : Institution}

/-- Nothing was marked. -/
theorem marked_of_eq (counters : s'.counters = s.counters)
    (subjects : s'.redeemSubjects = s.redeemSubjects) (deposits : s'.deposits = s.deposits) :
    Marked s s' := by
  refine ⟨fun key h => .inl ?_, fun key h => .inl ?_, fun key v h => .inl ?_⟩
  · rwa [counters] at h
  · rwa [subjects] at h
  · rwa [deposits] at h

/-- Approvals that were there, or of a registered institution. -/
def ApprovalsOf (s : Store D) (approvals : OrdMap (ApprovalKey D) Nat) : Prop :=
  ∀ key stamp, approvals.get? key = some stamp →
    s.approvals.has key = true ∨ (s.getInstitution key.institution).isSome = true

/-- A record that follows another one of the same institution. -/
structure Successor (ctx : Ctx) (floor : Int) (inst inst' : Institution) : Prop where
  id : inst'.id = inst.id
  admin : inst'.admin = inst.admin
  type : inst'.institutionType = inst.institutionType
  vault : 0 ≤ inst.vaultBalance → 0 ≤ inst'.vaultBalance
  reserve : 0 ≤ inst.attestedReserve → 0 ≤ inst'.attestedReserve
  params : inst'.params = inst.params ∨
    inst'.params.validate = .ok () ∧ (inst'.params.redeemCapsBelowFloor floor).isNone = true
  clock : inst'.lastAttestedAt = inst.lastAttestedAt ∨ inst'.lastAttestedAt = ctx.blockTime

/-- Changes of the store of x/institutions. -/
inductive Change (ctx : Ctx) (op : Op) (s : Store D) : Store D → Prop where
  | approvals (approvals : OrdMap (ApprovalKey D) Nat) (given : ApprovalsOf s approvals) :
      Change ctx op s { s with approvals := approvals }
  | record {s' : Store D} (inst inst' : Institution) (found : s.getInstitution inst.id = some inst)
      (successor : Successor ctx (capInt s.params.redeemFloorPerTx) inst inst')
      (marked : Marked s s') (given : ApprovalsOf s s'.approvals)
      (institutions : s'.institutions = s.institutions.set inst')
      (attestors : s'.lastAttestors = s.lastAttestors ∨ ∃ text attestor,
        accAddressFromBech32 text = some attestor ∧
          s'.lastAttestors = s.lastAttestors.put inst.id attestor)
      (params : s'.params = s.params) (roles : s'.roles = s.roles)
      (kycTiers : s'.kycTiers = s.kycTiers) (fx : s'.fxRequests = s.fxRequests)
      (queue : s'.removalQueue = s.removalQueue) : Change ctx op s s'
  | registered (msg : MsgRegisterInstitution) (sent : ∃ h, op = .deliver (.register msg) h)
      (basic : msg.validateBasic = .ok ())
      (fresh : s.institutions.has msg.id = false) (idle : s.hasPendingRemoval msg.id = false) :
      Change ctx op s (s.setInstitution
        (newInstitution msg.id msg.admin msg.institutionType ctx.blockTime))
  | finalized (fxId : Bytes) (req : FxEntryRequest) (named : fxId ≠ [])
      (request : s.fxRequests.get? fxId = some req) (fresh : s.institutions.has fxId = false)
      (idle : s.hasPendingRemoval fxId = false) :
      Change ctx op s { s.setInstitution (newInstitution fxId req.applicant .fx ctx.blockTime) with
        fxRequests := s.fxRequests.erase fxId }
  | removed (inst : Institution) (sent : ∃ msg h, op = .deliver (.remove msg) h)
      (found : s.getInstitution inst.id = some inst) :
      Change ctx op s (enqueueRemoval (removeInstitutionSingleRecords s inst.id) inst.id)
  | params (msg : Institutions.MsgUpdateParams) (sent : ∃ h, op = .deliver (.updateParams msg) h)
      (valid : msg.params.validate = .ok ()) : Change ctx op s { s with params := ⟨msg.params, valid⟩ }
  | emergency (msg : MsgSetEmergencyRedemption) (p : ValidParams)
      (changed : p.toParams = { s.params.toParams with
        emergencyRedemption := nextEmergency s.params.emergencyRedemption ctx.blockTime msg }) :
      Change ctx op s { s with params := p }
  | requested (msg : MsgRequestFxEntry) (sent : ∃ h, op = .deliver (.requestFx msg) h)
      (basic : msg.validateBasic = .ok ()) (fresh : s.institutions.has msg.fxId = false) :
      Change ctx op s { s with
        fxRequests := s.fxRequests.put msg.fxId ⟨msg.applicant, msg.guarantorId, .requested⟩ }
  | guaranteed (fxId : Bytes) (req : FxEntryRequest) (request : s.fxRequests.get? fxId = some req) :
      Change ctx op s { s with
        fxRequests := s.fxRequests.put fxId { req with status := .guaranteed } }
  | declined (fxId : Bytes) : Change ctx op s { s with fxRequests := s.fxRequests.erase fxId }
  | granted (inst : Institution) (text grantee : Bytes) (role : InstitutionRole)
      (approvals : OrdMap (ApprovalKey D) Nat) (epochs : OrdMap Bytes Nat)
      (given : ApprovalsOf s approvals) (found : s.getInstitution inst.id = some inst)
      (decoded : accAddressFromBech32 text = some grantee) (known : role ≠ .unspecified) :
      Change ctx op s { s with
        roles := s.roles.put ⟨inst.id, grantee⟩ role
        approvals := approvals
        adminEpochs := epochs }
  | revoked (inst : Institution) (grantee : Bytes) (approvals : OrdMap (ApprovalKey D) Nat)
      (epochs : OrdMap Bytes Nat) (given : ApprovalsOf s approvals) :
      Change ctx op s { s with
        roles := s.roles.erase ⟨inst.id, grantee⟩
        approvals := approvals
        adminEpochs := epochs }
  | assigned (inst : Institution) (holder : Bytes) (tier : Nat)
      (found : s.getInstitution inst.id = some inst) :
      Change ctx op s (s.setHolderKycTier inst.id holder tier)
  | swept (sent : ∃ h, op = .deliver .beginBlock h) : Change ctx op s (Institutions.beginBlock ctx s)

theorem approvalsOf_self (s : Store D) : ApprovalsOf s s.approvals :=
  fun _ stamp h => .inl (OrdMap.has_iff.2 ⟨stamp, h⟩)

/-- Approvals are recorded for a registered institution. -/
theorem approvalsOf_recordApproval (found : s.getInstitution inst.id = some inst) (ch : D)
    (signer : Bytes) :
    ApprovalsOf s (s.recordApproval inst ch signer).approvals := by
  intro key stamp h
  rw [recordApproval_get?] at h
  split at h
  · rename_i hkey
    refine .inr ?_
    rw [← hkey, found]
    rfl
  · exact .inl (OrdMap.has_iff.2 ⟨stamp, h⟩)

theorem ApprovalsOf.clear (h : ApprovalsOf s s'.approvals) (id : Bytes) (ch : D) :
    ApprovalsOf s (s'.clearApprovals id ch).approvals :=
  fun key stamp hkey => h key stamp (clearApprovals_get? hkey)

theorem has_addCounter {key j : Bytes} {amt : Int}
    (h : (s.addCounter key amt).counters.has j = true) : key = j ∨ s.counters.has j = true :=
  OrdMap.has_put.1 h

theorem underPrefix_counterTotalKey (instID kind : Bytes) (day : Int) :
    underPrefix 0x40 (counterTotalKey instID kind day) = true := by
  simp [underPrefix, counterTotalKey, bytePrefixed]

theorem underPrefix_counterUserKey (instID kind : Bytes) (day : Int) (addr : Bytes) :
    underPrefix 0x40 (counterUserKey instID kind day addr) = true := by
  simp [underPrefix, counterUserKey, counterTotalKey, bytePrefixed]

theorem underPrefix_redeemSubjectCounterKey (day : Int) (kind : Byte) (subject : Bytes) :
    underPrefix 0x80 (redeemSubjectCounterKey day kind subject) = true := by
  simp [underPrefix, redeemSubjectCounterKey]

theorem underPrefix_depositKey (instID direction ref : Bytes) :
    underPrefix 0x50 (depositKey instID direction ref) = true := by
  simp [underPrefix, depositKey, bytePrefixed]

/-- One more counter of the keyspace. -/
theorem Marked.addCounter (h : Marked s s') {key : Bytes} (hkey : underPrefix 0x40 key = true)
    (amt : Int) : Marked s (s'.addCounter key amt) where
  counters j hj := by
    rcases has_addCounter hj with rfl | hold
    · exact .inr hkey
    · exact h.counters j hold
  subjects := h.subjects
  deposits := h.deposits

theorem Marked.addRedeemSubjectTotal (h : Marked s s') (day : Int) (kind : Byte) (subject : Bytes)
    (uphi : Int) : Marked s (s'.addRedeemSubjectTotal day kind subject uphi) where
  counters := h.counters
  subjects j hj := by
    rcases OrdMap.has_put.1 hj with rfl | hold
    · exact .inr (underPrefix_redeemSubjectCounterKey day kind subject)
    · exact h.subjects j hold
  deposits := h.deposits

theorem Marked.markDeposit (h : Marked s s') (instID direction ref : Bytes) :
    Marked s (s'.markDeposit instID direction ref) where
  counters := h.counters
  subjects := h.subjects
  deposits j v hv := by
    have hget := OrdMap.get?_put s'.deposits (depositKey instID direction ref) j depositMarkerByte
    change (s'.deposits.put (depositKey instID direction ref) depositMarkerByte).get? j = some v at hv
    rw [hget] at hv
    split at hv
    · rename_i hkey
      cases hv
      exact .inr ⟨hkey ▸ underPrefix_depositKey instID direction ref, rfl⟩
    · exact h.deposits j v hv

theorem marked_mintStore (ctx : Ctx) (msg : MsgInstitutionMint) (plan : MintPlan) (s : Store D) :
    Marked s (mintStore ctx msg plan s) := by
  have hset : Marked s (s.setInstitution
      { plan.inst with vaultBalance := plan.inst.vaultBalance + plan.toman })  :=
    marked_of_eq rfl rfl rfl
  exact ((hset.addCounter (underPrefix_counterTotalKey _ _ _) _).addCounter
    (underPrefix_counterUserKey _ _ _ _) _).markDeposit _ _ _

theorem marked_redeemStore (ctx : Ctx) (msg : MsgInstitutionRedeem) (plan : RedeemPlan)
    (split : RedeemSplit) (s : Store D) : Marked s (redeemStore ctx msg plan split s) := by
  have hset : Marked s (s.setInstitution
      { plan.inst with vaultBalance := plan.inst.vaultBalance - split.tomanOut })  :=
    marked_of_eq rfl rfl rfl
  refine Marked.markDeposit ?_ _ _ _
  have hcounters := (hset.addCounter
    (underPrefix_counterTotalKey plan.inst.id kindRedeemDaily ctx.dayIndex) plan.toman).addCounter
      (underPrefix_counterUserKey plan.inst.id kindRedeemUser ctx.dayIndex plan.holder) plan.toman
  have htotals := hcounters.addRedeemSubjectTotal ctx.dayIndex (redeemSubject ctx plan.holder).1
    (redeemSubject ctx plan.holder).2 plan.uphi
  unfold addRedeemCounters
  dsimp only
  split
  · exact htotals.addCounter (underPrefix_counterUserKey _ _ _ _) _
  · exact htotals

section Changes

variable {k : Keeper D} {ctx : Ctx} {op : Op} {w w' : World D}

theorem change_of_onInstitutions {x : Result (Store D)}
    (hx : ∀ s, x = .ok s → Change ctx op w.inst s) (h : onInstitutions w x = .ok w') :
    Change ctx op w.inst w'.inst := by
  obtain ⟨s, hs, rfl⟩ := onInstitutions_ok h
  exact hx s hs

/-- Nothing of x/institutions changes. -/
theorem change_of_eq (h : w'.inst = w.inst) : Change ctx op w.inst w'.inst := by
  rw [h]
  exact .approvals w.inst.approvals (approvalsOf_self w.inst)

/-- The gate of a mint records approvals of the minting institution. -/
theorem approvalsOf_mintGate {msg : MsgInstitutionMint} {plan : MintPlan} {gate : MintGate}
    (hacc : MintAccepted k ctx msg s plan)
    (h : mintGate k msg plan s = .ok (gate, s')) : ApprovalsOf s s'.approvals := by
  have hrecord := approvalsOf_recordApproval (Store.getInstitution_self hacc.found)
    (mintContentHash k plan.inst.id msg)
  obtain ⟨-, -, rfl⟩ | ⟨-, signer, -, -, ⟨r, -, rfl⟩ | ⟨-, rfl⟩⟩ := mintGate_ok h
  · exact approvalsOf_self s'
  · exact hrecord signer
  · exact (hrecord signer).clear _ _

theorem change_of_mint {msg : MsgInstitutionMint} {r : MintResponse}
    (h : institutionMint k ctx msg w = .ok (r, w')) : Change ctx op w.inst w'.inst := by
  obtain ⟨plan, gate, s, hacc, hgate, h⟩ := institutionMint_ok h
  have hgiven : ApprovalsOf w.inst s.approvals := approvalsOf_mintGate hacc hgate
  obtain ⟨approvals, rfl⟩ := mintGate_frame hgate
  rcases h with ⟨p, -, -, rfl⟩ | ⟨-, -, b, -, rfl⟩
  · exact .approvals approvals hgiven
  · have hmarked := marked_mintStore ctx msg plan { w.inst with approvals := approvals }
    have hvault : 0 ≤ plan.inst.vaultBalance → 0 ≤ plan.inst.vaultBalance + plan.toman := by
      have := hacc.positive
      omega
    exact .record plan.inst { plan.inst with vaultBalance := plan.inst.vaultBalance + plan.toman }
      (Store.getInstitution_self hacc.found) ⟨rfl, rfl, rfl, hvault, id, .inl rfl, .inl rfl⟩
      ⟨hmarked.counters, hmarked.subjects, hmarked.deposits⟩ hgiven rfl (.inl rfl) rfl rfl rfl rfl
      rfl

theorem redeemStore_frame (ctx : Ctx) (msg : MsgInstitutionRedeem) (plan : RedeemPlan)
    (split : RedeemSplit) (s : Store D) : ∃ counters subjects deposits,
      redeemStore ctx msg plan split s =
        { s.setInstitution
            { plan.inst with vaultBalance := plan.inst.vaultBalance - split.tomanOut } with
          counters := counters
          redeemSubjects := subjects
          deposits := deposits } := by
  unfold redeemStore addRedeemCounters
  dsimp only
  split
  · exact ⟨_, _, _, rfl⟩
  · exact ⟨_, _, _, rfl⟩

theorem change_of_redeem {msg : MsgInstitutionRedeem} {burned : Int}
    (h : institutionRedeem ctx msg w = .ok (burned, w')) : Change ctx op w.inst w'.inst := by
  obtain ⟨plan, split, coin, b, hacc, hprice, -, -, rfl⟩ := institutionRedeem_ok h
  have hmarked := marked_redeemStore ctx msg plan split w.inst
  -- what a redemption pays out was in the vault
  have hout := (redeemPricing_split hacc hprice).tomanOut_le
  have hcovered : 0 ≤ plan.inst.vaultBalance →
      0 ≤ plan.inst.vaultBalance - split.tomanOut := by
    have := hacc.vault
    omega
  obtain ⟨counters, subjects, deposits, hframe⟩ := redeemStore_frame ctx msg plan split w.inst
  dsimp only
  rw [hframe] at hmarked ⊢
  exact .record plan.inst
    { plan.inst with vaultBalance := plan.inst.vaultBalance - split.tomanOut }
    (Store.getInstitution_self hacc.found) ⟨rfl, rfl, rfl, hcovered, id, .inl rfl, .inl rfl⟩
    hmarked (approvalsOf_self w.inst) rfl (.inl rfl) rfl rfl rfl rfl rfl

theorem change_of_attest {msg : MsgPublishInstitutionAttestation}
    (h : publishInstitutionAttestation ctx msg w.inst = .ok s') : Change ctx op w.inst s' := by
  simp only [publishInstitutionAttestation, bind_eq_ok, ensure_eq_ok, orFail_eq_ok, pure_eq_ok,
    exists_const] at h
  obtain ⟨inst, hinst, ⟨⟩, -, reserve, -, hreserve, attestor, hattestor, rfl⟩ := h
  exact .record inst { inst with
      attestedReserve := reserve
      lastAttestedAt := ctx.blockTime
      status := attestedStatus inst reserve }
    (Store.getInstitution_self hinst) ⟨rfl, rfl, rfl, id, fun _ => hreserve, .inl rfl, .inr rfl⟩
    (marked_of_eq rfl rfl rfl) (approvalsOf_self w.inst) rfl
    (.inr ⟨msg.admin, attestor, hattestor, rfl⟩) rfl rfl rfl rfl rfl

theorem change_of_setParams {msg : Institutions.MsgUpdateParams}
    (hsent : ∃ h, op = .deliver (.updateParams msg) h)
    (h : Institutions.updateParams k ctx msg w.inst = .ok s') : Change ctx op w.inst s' := by
  obtain ⟨hv, rfl, -⟩ := setParams_ok (updateParams_ok h)
  exact .params msg hsent hv

theorem change_of_emergency {msg : MsgSetEmergencyRedemption}
    (h : setEmergencyRedemption k ctx msg w.inst = .ok s') : Change ctx op w.inst s' := by
  simp only [setEmergencyRedemption, bind_eq_ok, ensure_eq_ok, exists_const] at h
  obtain ⟨hv, rfl, -⟩ := setParams_ok h.2
  exact .emergency msg _ rfl

theorem change_of_requestFx {msg : MsgRequestFxEntry}
    (hsent : ∃ h, op = .deliver (.requestFx msg) h) (hbasic : msg.validateBasic = .ok ())
    (h : requestFxEntry msg w.inst = .ok s') : Change ctx op w.inst s' := by
  simp only [requestFxEntry, bind_eq_ok, ensure_eq_ok, pure_eq_ok, exists_const] at h
  obtain ⟨-, -, hfresh, -, -, -, -, rfl⟩ := h
  exact .requested msg hsent hbasic hfresh

theorem change_of_guaranteeFx {msg : MsgGuaranteeFxEntry}
    (h : guaranteeFxEntry msg w.inst = .ok s') : Change ctx op w.inst s' := by
  simp only [guaranteeFxEntry, bind_eq_ok, ensure_eq_ok, orFail_eq_ok, exists_const] at h
  obtain ⟨req, hreq, -, guarantor, -, ⟨⟩, -, h⟩ := h
  split at h
  · cases h
    exact .guaranteed msg.fxId req hreq
  · cases h
    exact .declined msg.fxId

theorem change_of_finalizeFx {msg : MsgFinalizeFxEntry} (hbasic : msg.validateBasic = .ok ())
    (h : finalizeFxEntry k ctx msg w.inst = .ok s') :
    Change ctx op w.inst s' := by
  simp only [MsgFinalizeFxEntry.validateBasic, bind_eq_ok, ensure_eq_ok] at hbasic
  obtain ⟨⟨⟩, -, hnamed⟩ := hbasic
  obtain ⟨req, hreq, hnew, hidle, rfl⟩ := finalizeFxEntry_request h
  exact .finalized msg.fxId req hnamed hreq hnew hidle

/-- A sensitive message that replaces a record. -/
theorem change_of_executeRecord {inst' : Institution} {ch : D} {signer : Bytes}
    (found : s.getInstitution inst.id = some inst)
    (successor : Successor ctx (capInt s.params.redeemFloorPerTx) inst inst') :
    Change ctx op s (executeRecord (s.recordApproval inst ch signer) inst' ch) :=
  .record inst inst' found successor (marked_of_eq rfl rfl rfl)
    ((approvalsOf_recordApproval found ch signer).clear _ _) rfl (.inl rfl) rfl rfl rfl rfl rfl

/-- The effect of a sensitive message at its threshold. -/
theorem change_of_executeSensitive {msg : SensitiveMsg} {signer : Bytes}
    (hbasic : msg.validateBasic = .ok ()) (hprecheck : sensitivePrecheck s msg = .ok ())
    (found : s.getInstitution inst.id = some inst)
    (h : executeSensitive k msg inst (s.recordApproval inst (msg.contentHash k) signer) = .ok s') :
    Change ctx op s s' := by
  cases msg with
  | grant m =>
    simp only [executeSensitive, bind_eq_ok, orFail_eq_ok, pure_eq_ok] at h
    obtain ⟨grantee, hgrantee, rfl⟩ := h
    simp only [SensitiveMsg.validateBasic, bind_eq_ok, ensure_eq_ok, exists_const] at hbasic
    obtain ⟨epochs, hframe⟩ := executeGrant_frame
      (s.recordApproval inst (SensitiveMsg.contentHash k (.grant m)) signer) inst grantee m.role
      (SensitiveMsg.contentHash k (.grant m))
    rw [hframe]
    exact .granted inst m.grantee grantee m.role _ epochs
      ((approvalsOf_recordApproval found _ signer).clear _ _) found hgrantee hbasic.2.2.2
  | revoke m =>
    simp only [executeSensitive, bind_eq_ok, orFail_eq_ok, pure_eq_ok] at h
    obtain ⟨grantee, -, rfl⟩ := h
    obtain ⟨epochs, hframe⟩ := executeRevoke_frame
      (s.recordApproval inst (SensitiveMsg.contentHash k (.revoke m)) signer) inst grantee
      (SensitiveMsg.contentHash k (.revoke m))
    rw [hframe]
    exact .revoked inst grantee _ epochs ((approvalsOf_recordApproval found _ signer).clear _ _)
  | appConfig | depositKey =>
    cases h
    exact change_of_executeRecord found ⟨rfl, rfl, rfl, id, id, .inl rfl, .inl rfl⟩
  | params m =>
    cases h
    simp only [SensitiveMsg.validateBasic, bind_eq_ok, ensure_eq_ok, exists_const] at hbasic
    simp only [sensitivePrecheck, validateParamsTightenOnly, bind_eq_ok, ensure_eq_ok,
      exists_const] at hprecheck
    have hvalid := hbasic.2.2.2
    exact change_of_executeRecord found
      ⟨rfl, rfl, rfl, id, id, .inr ⟨hvalid, hprecheck.1⟩, .inl rfl⟩

theorem change_of_sensitive {msg : SensitiveMsg} {r : SensitiveResult}
    (hbasic : msg.validateBasic = .ok ()) (h : sensitiveAction k msg w.inst = .ok (r, s')) :
    Change ctx op w.inst s' := by
  have hprecheck : sensitivePrecheck w.inst msg = .ok () := by
    simp only [sensitiveAction, bind_eq_ok] at h
    obtain ⟨-, -, ⟨⟩, hprecheck, -⟩ := h
    exact hprecheck
  obtain ⟨inst, signer, hinst, -, -, ⟨-, rfl⟩ | ⟨-, hexec⟩⟩ := sensitiveAction_ok h
  · exact .approvals _ (approvalsOf_recordApproval (Store.getInstitution_self hinst) _ signer)
  · exact change_of_executeSensitive hbasic hprecheck (Store.getInstitution_self hinst) hexec

theorem change_of_apply {a : Action} {hrunning : a ≠ .restart} (hop : op = .deliver a hrunning)
    (hbasic : a.validateBasic = .ok ()) (h : apply k ctx w a = .ok w') :
    Change ctx op w.inst w'.inst := by
  cases a with
  | mint msg =>
    obtain ⟨-, r, hmint⟩ := apply_mint_ok h
    exact change_of_mint hmint
  | redeem msg =>
    obtain ⟨r, hredeem⟩ := apply_redeem_ok h
    exact change_of_redeem hredeem
  | register msg =>
    refine change_of_onInstitutions (fun s hs => ?_) h
    obtain ⟨-, hnew, hidle, rfl⟩ := registerInstitution_ok hs
    exact .registered msg ⟨hrunning, hop⟩ hbasic hnew hidle
  | remove msg =>
    refine change_of_onInstitutions (fun s hs => ?_) h
    obtain ⟨inst, hinst, -, rfl⟩ := removeInstitution_ok hs
    have hid : inst.id = msg.id := Registry.id_of_get? hinst
    rw [← hid] at hinst ⊢
    exact .removed inst ⟨msg, hrunning, hop⟩ hinst
  | freeze msg =>
    refine change_of_onInstitutions (fun s hs => ?_) h
    obtain ⟨inst, status, hself, rfl⟩ := freezeInstitution_ok hs
    exact .record inst { inst with status := status } hself
      ⟨rfl, rfl, rfl, id, id, .inl rfl, .inl rfl⟩ (marked_of_eq rfl rfl rfl)
      (approvalsOf_self w.inst) rfl (.inl rfl) rfl rfl rfl rfl rfl
  | attest msg => exact change_of_onInstitutions (fun _ => change_of_attest) h
  | updateParams msg =>
    exact change_of_onInstitutions (fun _ => change_of_setParams ⟨hrunning, hop⟩) h
  | setEmergency msg => exact change_of_onInstitutions (fun _ => change_of_emergency) h
  | requestFx msg =>
    exact change_of_onInstitutions (fun _ => change_of_requestFx ⟨hrunning, hop⟩ hbasic) h
  | guaranteeFx msg => exact change_of_onInstitutions (fun _ => change_of_guaranteeFx) h
  | finalizeFx msg => exact change_of_onInstitutions (fun _ => change_of_finalizeFx hbasic) h
  | sensitive msg =>
    simp only [apply, bind_eq_ok, pure_eq_ok] at h
    obtain ⟨⟨⟩, -, ⟨r, s⟩, hsens, rfl⟩ := h
    exact change_of_sensitive hbasic hsens
  | transfer | deductFee | withdrawRevenue | updateCoinParams | slash | govBurn =>
    exact change_of_eq (inst_of_apply rfl h)
  | beginBlock =>
    cases h
    exact .swept ⟨hrunning, hop⟩
  | restart => exact absurd rfl hrunning

theorem change_of_perform (h : perform k ctx w op = .ok w') : Change ctx op w.inst w'.inst := by
  cases op with
  | deliver a hrunning =>
    simp only [perform, bind_eq_ok] at h
    obtain ⟨⟨⟩, hbasic, h⟩ := h
    exact change_of_apply rfl hbasic h
  | assignKycTier instID holder tier =>
    refine change_of_onInstitutions (fun s hs => ?_) h
    simp only [assignKycTier, bind_eq_ok, orFail_eq_ok, pure_eq_ok] at hs
    obtain ⟨inst, hinst, rfl⟩ := hs
    exact .assigned inst holder tier (Store.getInstitution_self hinst)

end Changes

end PhiChain.App
