import PhiChain.Identity.Electorate
import PhiChain.Identity.Records
import PhiChain.Identity.Validators
import PhiChain.Sdk.AddressText

/-!
# Identity: exports

The genesis validator holds guardian sets and open requests against the caps of the parameters
in force, requests against the order of their window, and epochs against the end of their
counter. The handlers hold a record against the caps when it is written, and not when the caps
change. `exportSafe` names the steps that keep the checks, and in a run of such steps every
export is accepted (`identity_export_importable`).
-/

set_option autoImplicit false

namespace PhiChain.Identity

open Foundations Sdk
open Institutions (checkEach checkEach_of_nodup checkStoreEntries)

variable {k : Keeper} {env : Env} {w w' : World} {s s' : Store} {a : Action} {did id : Bytes}
  {r r' : RecoveryRequest}

def exportGenesis (s : Store) : GenesisState where
  params := s.params
  identities := s.directory.documents
  identityCount := s.identityCount
  trustedIssuers := s.trustedIssuers.values
  guardianSets := s.guardians.values
  recoveryRequests := s.recoveries.values.filter fun r => r.status = .pending
  issuerNonces := s.issuerNonces.entries
  recoveryNonces := s.recoveryNonces.entries
  didToValidator := s.didToValidator.entries
  validatorToDID := s.validatorToDID.entries
  guardianEpochs := s.guardianEpochs.entries
  recoveryTallyEpochs := s.recoveryTallyEpochs.entries
  controllerEligibility := s.directory.eligibility.entries

/-! ## Slots -/

/-- Lists of requests with distinct identifiers are compared by their identifiers. -/
theorem length_le_of_ids (rs : List RecoveryRequest) {rs' : List RecoveryRequest}
    (hnodup : (rs'.map RecoveryRequest.recoveryId).Nodup)
    (h : ∀ r' ∈ rs', r'.recoveryId ∈ rs.map RecoveryRequest.recoveryId) :
    rs'.length ≤ rs.length := by
  have hsubset : rs'.map RecoveryRequest.recoveryId ⊆ rs.map RecoveryRequest.recoveryId := by
    intro id hid
    obtain ⟨r', hr', rfl⟩ := List.mem_map.1 hid
    exact h r' hr'
  simpa using (List.subperm_of_subset hnodup hsubset).length_le

/-- A DID has no more requests than before when each of its requests has a predecessor. -/
theorem length_requests_le (hfiled : Filed s) (hfiled' : Filed s') (hdid : NulFree did)
    (h : ∀ r', s'.getRecoveryRequest r'.recoveryId = some r' → r'.did = did →
      ∃ r, s.getRecoveryRequest r'.recoveryId = some r ∧ r.did = did) :
    (s'.recoveryRequestsForDID did).length ≤ (s.recoveryRequestsForDID did).length := by
  refine length_le_of_ids _ (recoveryRequestsForDID_nodup s' did) fun r' hr' => ?_
  obtain ⟨hget', hdid'⟩ := (mem_recoveryRequestsForDID hfiled' hdid).1 hr'
  obtain ⟨r, hget, hsame⟩ := h r' hget' hdid'
  have hid := recoveryId_of_get hget
  refine List.mem_map.2 ⟨r, (mem_recoveryRequestsForDID hfiled hdid).2 ⟨?_, hsame⟩, hid⟩
  rw [hid]
  exact hget

/-- Only an initiation gives a DID a request more. -/
theorem predecessor_of_event (hbasic : a.validateBasic = .ok ()) (hevent : Event k env w a w')
    (hfiled : Filed w.store) (hnot : ∀ msg, a = .initiateRecovery msg → msg.did ≠ did)
    (hget : w'.store.getRecoveryRequest r'.recoveryId = some r') (hdid : r'.did = did) :
    ∃ r, w.store.getRecoveryRequest r'.recoveryId = some r ∧ r.did = did := by
  cases origin_of_event hbasic hevent hfiled hget with
  | kept _ _ hbefore => exact ⟨r', hbefore, hdid⟩
  | opened msg => exact absurd hdid (hnot msg rfl)
  | frozen msg r _ hbefore | thawed msg r _ hbefore | tallied _ r _ _ hbefore =>
    exact ⟨r, hbefore, hdid⟩

/-- The count of open requests, all of which are pending: those that have not expired. -/
theorem countOpen_length (rs : List RecoveryRequest) (n m : Nat)
    (hpending : ∀ r ∈ rs, r.status = .pending)
    (h : rs.foldlM (fun acc r => do
      let reaped ← reapIfExpired env r acc.2
      return (if reaped.1 then acc.1 else acc.1 + 1, reaped.2)) (n, w) = .ok (m, w')) :
    m = n + (rs.filter fun r => !w.store.expired env r).length := by
  induction rs generalizing n w with
  | nil =>
    cases h
    rfl
  | cons r rest ih =>
    have hrest := fun r' hr' => hpending r' (List.mem_cons_of_mem _ hr')
    simp only [List.foldlM_cons, bind_eq_ok, pure_eq_ok] at h
    obtain ⟨-, ⟨⟨closed, w₁⟩, hreap, rfl⟩, h⟩ := h
    rcases reapIfExpired_ok hreap with ⟨hexpired, hclosed, w₂, hpaid, rfl⟩ | ⟨hlive, rfl, hopen⟩
    · have hcount := ih _ hrest h
      have htest : Store.expired (w₂.store.deleteRecoveryRequest r) env = w.store.expired env := by
        rw [forfeitDeposit_store hpaid]
        rfl
      rw [htest] at hcount
      rw [List.filter_cons_of_neg (by simp [hexpired]), hcount]
      dsimp only at hclosed ⊢
      rw [hclosed, if_pos rfl]
    · have hcount := ih _ hrest h
      have hfalse : closed = false := hopen.2 (hpending r List.mem_cons_self)
      rw [List.filter_cons_of_pos (by simp [hlive]), hcount, hfalse, List.length_cons]
      dsimp only
      rw [if_neg Bool.false_ne_true]
      omega

/-- An initiation leaves its DID within the slots of the parameters. -/
theorem slots_of_initiated {msg : MsgInitiateRecovery} (hfiled : Filed w.store)
    (hpending : AllPending w.store) (happly : apply k env w (.initiateRecovery msg) = .ok w') :
    (w'.store.recoveryRequestsForDID msg.did).length ≤ w.store.params.maxOpenRecoveryRequests := by
  obtain ⟨hbasic, hevent⟩ := event_of_apply happly
  have hnul := nulFree_of_initiate hbasic
  have hfiled' := filed_of_event hbasic hevent hfiled
  simp only [apply, handle, initiateRecovery, bind_eq_ok, orFail_eq_ok, ensure_eq_ok, exists_const,
    pure_eq_ok] at happly
  obtain ⟨-, -, -, doc, hdoc, hactive, ⟨⟩, -, -, ⟨⟩, hfree, hnonce, -, ⟨⟩, -, ⟨n, w₁⟩, hcounted, hbelow,
    hid, initiator, hinitiator, w₂, hcharged, rfl⟩ := happly
  have hclosed := countOpenRequests_ok hcounted
  have hcount := countOpen_length _ 0 n
    (fun r hr => hpending _ r (stored_of_mem hr)) hcounted
  rw [Nat.zero_add] at hcount
  dsimp only at hbelow
  refine le_trans (length_le_of_ids
    (msg.request k env w.store.params ::
      (w.store.recoveryRequestsForDID msg.did).filter fun r => !w.store.expired env r)
    (recoveryRequestsForDID_nodup _ _) fun r' hr' => ?_) ?_
  · obtain ⟨hget, hdid⟩ := (mem_recoveryRequestsForDID hfiled' hnul).1 hr'
    have hset : (w₂.store.setRecoveryRequest (msg.request k env w.store.params)
        ).getRecoveryRequest r'.recoveryId = some r' := hget
    rw [getRecoveryRequest_set] at hset
    split at hset
    · rename_i hnew
      exact List.mem_map.2 ⟨_, List.mem_cons_self, hnew⟩
    · rw [chargeInitiation_store hcharged, hclosed.store] at hset
      obtain ⟨hout, hbefore⟩ := get_of_dropAll hset
      have hlisted := (mem_recoveryRequestsForDID hfiled hnul).2 ⟨hbefore, hdid⟩
      -- an expired one would have been closed
      have hlive : w.store.expired env r' = false := by
        refine Bool.eq_false_iff.2 fun hexpired => hout ?_
        exact List.mem_map_of_mem (List.mem_filter.2 ⟨hlisted, hexpired⟩)
      refine List.mem_map_of_mem (List.mem_cons_of_mem _ (List.mem_filter.2 ⟨hlisted, ?_⟩))
      rw [hlive]
      rfl
  · rw [List.length_cons, ← hcount]
    exact hbelow

/-! ## What a run keeps -/

/-- No epoch of a guardian set gets to the end of its counter, and new parameters leave the
guardian sets and the open requests within their caps. -/
def keepsCaps (w : World) (tx : Tx) : Bool :=
  match tx.action with
  | .setGuardians msg => w.store.guardianEpoch msg.did + 1 < Store.maxUint64
  | .revokeIdentity msg => w.store.guardianEpoch msg.did + 1 < Store.maxUint64
  | .updateParams msg =>
    (w.store.guardians.values.all fun gs => gs.commitments.length ≤ msg.params.maxGuardians) ∧
      w.store.recoveries.values.all fun r =>
        (w.store.recoveryRequestsForDID r.did).length ≤ msg.params.maxOpenRecoveryRequests
  | _ => true

structure Exportable (k : Keeper) (s : Store) : Prop where
  params : s.params.validate = .ok ()
  orderly : Orderly s
  pending : AllPending s
  oneEach : OneEach s
  documents : ∀ did doc, s.getIdentity did = some doc → WellFormed doc
  requests : ∀ id r, s.getRecoveryRequest id = some r → WellMade k r
  standing : ∀ id r, s.getRecoveryRequest id = some r → s.Stands r.did
  slots : ∀ did, NulFree did →
    (s.recoveryRequestsForDID did).length ≤ s.params.maxOpenRecoveryRequests
  issuers : ∀ did ti, s.trustedIssuers.get? did = some ti →
    validateDID "" ti.did = .ok () ∧ ti.pubKey.length ≠ 0 ∧ ti.pubKey.length ≤ maxPubKeyLen
  guardians : ∀ did gs, s.guardians.get? did = some gs →
    validateGuardianSetBasic gs.did gs.commitments gs.threshold = .ok () ∧
      gs.commitments.length ≤ s.params.maxGuardians ∧ s.Stands gs.did
  epochs : ∀ did n, s.guardianEpochs.get? did = some n → did ≠ [] ∧ n < Store.maxUint64
  tallies : ∀ id n, s.recoveryTallyEpochs.get? id = some n → id ≠ [] ∧ n < Store.maxUint64
  nonces : ∀ key, s.recoveryNonces.has key = true → key ≠ []
  issuerNonces : ∀ key, s.issuerNonces.has key = true → key ≠ []

theorem exportable_fresh (k : Keeper) : Exportable k Store.fresh where
  params := by decide +kernel
  orderly := ⟨filed_of_empty rfl rfl, by decide, fun _ _ hget => by cases hget⟩
  pending _ _ hget := by cases hget
  oneEach := oneEach_of_run k ⟨∅, ∅⟩ defaultParams []
  documents _ _ hget := by cases hget
  requests _ _ hget := by cases hget
  standing _ _ hget := by cases hget
  slots _ _ := Nat.zero_le _
  issuers _ _ hget := by cases hget
  guardians _ _ hget := by cases hget
  epochs _ _ hget := by cases hget
  tallies _ _ hget := by cases hget
  nonces _ hhas := by cases hhas
  issuerNonces _ hhas := by cases hhas

/-- Hooks and sweeps touch nothing of it. -/
theorem Exportable.rebound (h : Exportable k s) (hrebound : Rebound s s') : Exportable k s' := by
  obtain ⟨toValidator, toDID, rfl⟩ : ∃ toValidator toDID,
      s' = { s with didToValidator := toValidator, validatorToDID := toDID } := ⟨_, _, hrebound⟩
  exact ⟨h.params, ⟨filed_congr h.orderly.filed rfl rfl, h.orderly.window, h.orderly.ordered⟩,
    h.pending, ⟨h.oneEach.marker, h.oneEach.count⟩, h.documents, h.requests, h.standing, h.slots,
    h.issuers, h.guardians, h.epochs, h.tallies, h.nonces, h.issuerNonces⟩

theorem Exportable.epoch_lt (h : Exportable k s) (did : Bytes) :
    s.guardianEpoch did < Store.maxUint64 := by
  unfold Store.guardianEpoch OrdMap.getD
  cases hget : s.guardianEpochs.get? did with
  | none => decide
  | some n => exact (h.epochs did n hget).2

/-- The caps in force after a message. -/
theorem caps_of_event (hevent : Event k env w a w') :
    (w'.store.params.maxGuardians = w.store.params.maxGuardians ∧
      w'.store.params.maxOpenRecoveryRequests = w.store.params.maxOpenRecoveryRequests) ∨
    ∃ msg, a = .updateParams msg ∧ w'.store.params = msg.params := by
  rcases (summary_of_event hevent).params with hsame | ⟨-, -, -, hlatched⟩ | ⟨msg, ha, -, hnew⟩
  · rw [hsame]
    exact Or.inl ⟨rfl, rfl⟩
  · rw [hlatched]
    exact Or.inl ⟨rfl, rfl⟩
  · exact Or.inr ⟨msg, ha, hnew⟩

theorem params_of_event (hbasic : a.validateBasic = .ok ()) (hevent : Event k env w a w')
    (h : w.store.params.validate = .ok ()) : w'.store.params.validate = .ok () := by
  rcases (summary_of_event hevent).params with hsame | ⟨-, -, -, hlatched⟩ | ⟨msg, rfl, -, hnew⟩
  · rw [hsame]
    exact h
  · -- the check does not read the bootstrap flag
    rw [hlatched]
    exact h
  · simp only [Action.validateBasic, MsgUpdateParams.validateBasic, bind_eq_ok] at hbasic
    obtain ⟨-, -, hvalid⟩ := hbasic
    rw [hnew]
    exact hvalid

theorem ne_nil_of_validateDID {field : String} (h : validateDID field did = .ok ()) : did ≠ [] := by
  simp only [validateDID, bind_eq_ok, ensure_eq_ok, exists_const] at h
  exact h.1

theorem maxGuardians_of_apply {msg : MsgSetGuardians}
    (h : apply k env w (.setGuardians msg) = .ok w') :
    msg.commitments.length ≤ w.store.params.maxGuardians := by
  simp only [apply, handle, onStore, setGuardians, bind_eq_ok, orFail_eq_ok, ensure_eq_ok,
    exists_const] at h
  obtain ⟨-, -, -, ⟨doc, -, -, -, ⟨⟩, -, hcap, -⟩, -⟩ := h
  exact hcap

section Step

variable {tx : Tx} (h : Exportable k w.store) (hcaps : keepsCaps w tx = true)
  (happly : apply k tx.env w tx.action = .ok w')
include h hcaps happly

theorem Exportable.step_slots (hdid : NulFree did) :
    (w'.store.recoveryRequestsForDID did).length ≤ w'.store.params.maxOpenRecoveryRequests := by
  obtain ⟨hbasic, hevent⟩ := event_of_apply happly
  have hfiled := h.orderly.filed
  by_cases hopens : ∃ msg, tx.action = .initiateRecovery msg ∧ msg.did = did
  · obtain ⟨msg, ha, rfl⟩ := hopens
    rw [ha] at happly hevent
    rcases caps_of_event hevent with ⟨-, hsame⟩ | ⟨_, ha', -⟩
    · rw [hsame]
      exact slots_of_initiated hfiled h.pending happly
    · cases ha'
  · have hfewer : (w'.store.recoveryRequestsForDID did).length ≤
        (w.store.recoveryRequestsForDID did).length := by
      refine length_requests_le hfiled (filed_of_event hbasic hevent hfiled) hdid fun r' hget hr' => ?_
      exact predecessor_of_event hbasic hevent hfiled (fun msg ha hmsg => hopens ⟨msg, ha, hmsg⟩)
        hget hr'
    rcases caps_of_event hevent with ⟨-, hsame⟩ | ⟨msg, ha, hnew⟩
    · rw [hsame]
      exact le_trans hfewer (h.slots did hdid)
    · unfold keepsCaps at hcaps
      rw [ha] at hcaps
      obtain ⟨-, hall⟩ := of_decide_eq_true hcaps
      rw [hnew]
      refine le_trans hfewer ?_
      -- the condition speaks of the DIDs that have a request
      cases hrs : w.store.recoveryRequestsForDID did with
      | nil => exact Nat.zero_le _
      | cons r rest =>
        obtain ⟨hget, rfl⟩ := (mem_recoveryRequestsForDID hfiled hdid).1 (hrs ▸ List.mem_cons_self)
        rw [← hrs]
        exact of_decide_eq_true (List.all_eq_true.1 hall r (KeyedMap.mem_values.2 hget))

theorem Exportable.step_guardians {gs : GuardianSet} (hget : w'.store.guardians.get? did = some gs) :
    validateGuardianSetBasic gs.did gs.commitments gs.threshold = .ok () ∧
      gs.commitments.length ≤ w'.store.params.maxGuardians ∧ w'.store.Stands gs.did := by
  obtain ⟨hbasic, hevent⟩ := event_of_apply happly
  rcases (keyspaces_of_event hevent).guardians did gs hget with ⟨hbefore, hnot⟩ | ⟨msg, ha, rfl⟩
  · obtain ⟨hvalid, hcap, hstands⟩ := h.guardians did gs hbefore
    have hkey : gs.did = did := KeyedMap.key_of_get? hbefore
    refine ⟨hvalid, ?_, stands_of_event hevent (fun msg ha => hkey ▸ hnot msg ha) hstands⟩
    rcases caps_of_event hevent with ⟨hsame, -⟩ | ⟨msg, ha, hnew⟩
    · rw [hsame]
      exact hcap
    · unfold keepsCaps at hcaps
      rw [ha] at hcaps
      obtain ⟨hall, -⟩ := of_decide_eq_true hcaps
      rw [hnew]
      exact of_decide_eq_true (List.all_eq_true.1 hall gs (KeyedMap.mem_values.2 (hkey ▸ hbefore)))
  · rw [ha] at happly hevent
    have hcap := maxGuardians_of_apply happly
    rcases caps_of_event hevent with ⟨hsame, -⟩ | ⟨_, ha', -⟩
    · rw [hsame]
      have hstands : w.store.Stands msg.did → w'.store.Stands msg.did :=
        stands_of_event hevent nofun
      cases hevent with
      | guarded _ doc hdoc hsigner hactive hvalid =>
        refine ⟨hvalid, hcap, hstands (Or.inl ?_)⟩
        rw [statusOf_of_get hdoc, hactive]
    · cases ha'

theorem Exportable.step_epochs {n : Nat} (hget : w'.store.guardianEpochs.get? did = some n) :
    did ≠ [] ∧ n < Store.maxUint64 := by
  obtain ⟨hbasic, hevent⟩ := event_of_apply happly
  unfold keepsCaps at hcaps
  rcases (keyspaces_of_event hevent).epochs did n hget with hbefore |
    ⟨rfl, ⟨msg, ha, rfl⟩ | ⟨msg, ha, rfl⟩⟩
  · exact h.epochs did n hbefore
  · rw [ha] at hcaps hbasic
    simp only [Action.validateBasic, MsgSetGuardians.validateBasic, validateGuardianSetBasic,
      bind_eq_ok] at hbasic
    obtain ⟨⟨⟩, -, ⟨⟩, hdid, -⟩ := hbasic
    exact ⟨ne_nil_of_validateDID hdid, of_decide_eq_true hcaps⟩
  · rw [ha] at hcaps hbasic
    simp only [Action.validateBasic, MsgRevokeIdentity.validateBasic, bind_eq_ok,
      ensure_eq_ok] at hbasic
    obtain ⟨-, -, hdid⟩ := hbasic
    exact ⟨hdid, of_decide_eq_true hcaps⟩

omit hcaps in
theorem Exportable.step_issuers {ti : TrustedIssuer}
    (hget : w'.store.trustedIssuers.get? did = some ti) :
    validateDID "" ti.did = .ok () ∧ ti.pubKey.length ≠ 0 ∧ ti.pubKey.length ≤ maxPubKeyLen := by
  obtain ⟨hbasic, hevent⟩ := event_of_apply happly
  rcases (keyspaces_of_event hevent).issuers did ti hget with hbefore | ⟨msg, ha, rfl⟩ |
    ⟨ti₀, hbefore, rfl⟩
  · exact h.issuers did ti hbefore
  · rw [ha] at hbasic
    simp only [Action.validateBasic, MsgRegisterTrustedIssuer.validateBasic, validateLen, bind_eq_ok,
      ensure_eq_ok] at hbasic
    obtain ⟨-, -, ⟨⟩, hdid, hpubKey⟩ := hbasic
    exact ⟨validateDID_field hdid _, hpubKey⟩
  · exact h.issuers _ ti₀ hbefore

theorem Exportable.step (hsha : ∀ m, (k.sha256 m).length = 32) (horder : keepsOrder w tx = true) :
    Exportable k w'.store := by
  obtain ⟨hbasic, hevent⟩ := event_of_apply happly
  have hkeyspaces := keyspaces_of_event hevent
  refine ⟨params_of_event hbasic hevent h.params, orderly_of_event horder hbasic hevent h.orderly,
    allPending_of_event hbasic hevent h.orderly.filed h.pending, oneEach_of_event hevent h.oneEach,
    fun _ _ => wellFormed_of_event hbasic hevent h.documents h.requests,
    fun _ _ => wellMade_of_event hbasic hevent h.orderly.filed h.params h.requests,
    fun _ _ => requestStands_of_event hbasic hevent h.orderly.filed h.pending h.standing,
    fun _ => h.step_slots hcaps happly, fun _ _ => h.step_issuers happly,
    fun _ _ => h.step_guardians hcaps happly, fun _ _ => h.step_epochs hcaps happly, ?_, ?_, ?_⟩
  · intro id n hget
    rcases hkeyspaces.tallies id n hget with hbefore | ⟨r, hstored, rfl⟩
    · exact h.tallies id n hbefore
    · refine ⟨?_, h.epoch_lt r.did⟩
      -- identifiers of requests are digests
      have hderived := (h.requests id r hstored).derived
      rw [recoveryId_of_get hstored] at hderived
      rintro rfl
      have hlength := hsha (ascii "phi-recovery-id-v1" ++ 0 :: r.did ++ 0 :: r.proposedNewPubKey ++
        0 :: r.nonce)
      have hnil : deriveRecoveryID k r.did r.proposedNewPubKey r.nonce = [] := hderived.symm
      unfold deriveRecoveryID at hnil
      rw [hnil] at hlength
      cases hlength
  · intro key hhas
    rcases hkeyspaces.nonces key hhas with hbefore | ⟨did, nonce, rfl⟩
    · exact h.nonces key hbefore
    · exact nulKey_ne_nil did nonce
  · intro key hhas
    rcases hkeyspaces.issuerNonces key hhas with hbefore | ⟨did, nonce, rfl⟩
    · exact h.issuerNonces key hbefore
    · exact nulKey_ne_nil did nonce

end Step

/-! ## The validator accepts the export -/

theorem validateGenesisIdentities_ok {ds : List DIDDocument} {seenDID seenUniq : List Bytes}
    (hds : ∀ d ∈ ds, WellFormed d ∧ d.did ∉ seenDID ∧ d.uniquenessHash ∉ seenUniq)
    (hdids : (ds.map DIDDocument.did).Nodup) (hhashes : (ds.map DIDDocument.uniquenessHash).Nodup) :
    validateGenesisIdentities seenDID seenUniq ds = .ok () := by
  induction ds generalizing seenDID seenUniq with
  | nil => rfl
  | cons d rest ih =>
    obtain ⟨hdid, hdids⟩ := List.nodup_cons.1 hdids
    obtain ⟨hhash, hhashes⟩ := List.nodup_cons.1 hhashes
    obtain ⟨hformed, hnewDID, hnewUniq⟩ := hds d List.mem_cons_self
    have hstatus : d.status = .active ∨ d.status = .suspended ∨ d.status = .revoked := by
      have hknown := hformed.status
      cases hs : d.status with
      | unspecified => exact absurd hs hknown
      | active => exact Or.inl rfl
      | revoked => exact Or.inr (Or.inr rfl)
      | suspended => exact Or.inr (Or.inl rfl)
    have hfirst : validateGenesisIdentity seenDID seenUniq d = .ok () := by
      simp only [validateGenesisIdentity, bind_eq_ok, ensure_eq_ok, exists_const]
      exact ⟨(), validateDID_field hformed.did _, hnewDID, hformed.pubKey, hformed.controller,
        hstatus, hformed.curve, hformed.hash.1, hformed.hash.2, hnewUniq⟩
    refine bind_eq_ok.2 ⟨(), hfirst, ih (fun d' hd' => ?_) hdids hhashes⟩
    obtain ⟨hformed', hnewDID', hnewUniq'⟩ := hds d' (List.mem_cons_of_mem _ hd')
    refine ⟨hformed', fun hmem => ?_, fun hmem => ?_⟩
    · rcases List.mem_cons.1 hmem with hsame | hold
      · exact hdid (hsame ▸ List.mem_map_of_mem hd')
      · exact hnewDID' hold
    · rcases List.mem_cons.1 hmem with hsame | hold
      · exact hhash (hsame ▸ List.mem_map_of_mem hd')
      · exact hnewUniq' hold

/-- A DID that stands is not terminated in the export. -/
theorem notTerminated_exportGenesis (h : s.Stands did) :
    (exportGenesis s).notTerminated did = true := by
  have hdoc : ∀ status, s.statusOf did = some status →
      ∃ doc, s.getIdentity did = some doc ∧ doc.status = status := fun status hstatus =>
    Option.map_eq_some_iff.1 hstatus
  have hlisted : ∀ doc, s.getIdentity did = some doc → doc ∈ s.directory.documents := by
    intro doc hget
    exact Directory.mem_documents.2 ((did_of_getIdentity hget).symm ▸ hget)
  refine List.any_eq_true.2 ?_
  rcases h with hactive | hsuspended
  · obtain ⟨doc, hget, hstatus⟩ := hdoc _ hactive
    exact ⟨doc, hlisted doc hget, decide_eq_true ⟨did_of_getIdentity hget, Or.inl hstatus⟩⟩
  · obtain ⟨doc, hget, hstatus⟩ := hdoc _ hsuspended
    exact ⟨doc, hlisted doc hget, decide_eq_true ⟨did_of_getIdentity hget, Or.inr hstatus⟩⟩

/-- The entries of a map list its values. -/
theorem entryFor_entries {m : OrdMap Bytes Bytes} {key value : Bytes}
    (hget : m.get? key = some value) : entryFor key m.entries = some value := by
  have hmem : (key, value) ∈ m.entries := OrdMap.mem_entries.2 hget
  unfold entryFor
  cases hfind : m.entries.find? fun e => e.1 = key with
  | none =>
    have hnone := List.find?_eq_none.1 hfind (key, value) hmem
    exact absurd (decide_eq_true rfl) hnone
  | some e =>
    have hkey : e.1 = key := by simpa using List.find?_some hfind
    have hvalue : m.get? e.1 = some e.2 := OrdMap.mem_entries.1 (List.mem_of_find?_eq_some hfind)
    rw [hkey, hget] at hvalue
    exact hvalue.symm

section Validate

variable (hs : Exportable k s)
include hs

theorem export_identities : validateGenesisIdentities [] [] (exportGenesis s).identities = .ok () := by
  have hget : ∀ d ∈ s.directory.documents, s.getIdentity d.did = some d := fun d hd =>
    Directory.mem_documents.1 hd
  have hdids : (s.directory.documents.map DIDDocument.did).Nodup :=
    s.directory.identities.nodup_values_keys
  refine validateGenesisIdentities_ok (fun d hd => ?_) hdids hs.oneEach.nodup_hashes
  exact ⟨hs.documents _ d (hget d hd), List.not_mem_nil, List.not_mem_nil⟩

theorem export_issuers :
    checkEach TrustedIssuer.did validateGenesisIssuer [] (exportGenesis s).trustedIssuers = .ok () := by
  refine checkEach_of_nodup (fun ti hti => ?_) (fun _ _ => List.not_mem_nil)
    s.trustedIssuers.nodup_values_keys
  obtain ⟨hdid, hpubKey⟩ := hs.issuers _ ti (KeyedMap.mem_values.1 hti)
  simp only [validateGenesisIssuer, bind_eq_ok, ensure_eq_ok, exists_const]
  exact ⟨(), validateDID_field hdid _, trivial, hpubKey⟩

theorem export_guardianSets :
    checkEach GuardianSet.did (exportGenesis s).validateGuardianSet [] (exportGenesis s).guardianSets =
      .ok () := by
  refine checkEach_of_nodup (fun gs hgs => ?_) (fun _ _ => List.not_mem_nil)
    s.guardians.nodup_values_keys
  obtain ⟨hvalid, hcap, hstands⟩ := hs.guardians _ gs (KeyedMap.mem_values.1 hgs)
  simp only [GenesisState.validateGuardianSet, bind_eq_ok, ensure_eq_ok, exists_const]
  exact ⟨(), hvalid, trivial, hcap, notTerminated_exportGenesis hstands⟩

omit hs in
theorem export_requestIDs :
    ((exportGenesis s).recoveryRequests.map RecoveryRequest.recoveryId).Nodup :=
  s.recoveries.nodup_values_keys.sublist (List.filter_sublist.map _)

omit hs in
theorem mem_exported_requests :
    r ∈ (exportGenesis s).recoveryRequests ↔
      s.getRecoveryRequest r.recoveryId = some r ∧ r.status = .pending := by
  refine List.mem_filter.trans (and_congr KeyedMap.mem_values ?_)
  exact decide_eq_true_iff

theorem export_requests (hsha : ∀ m, (k.sha256 m).length = 32) :
    checkEach RecoveryRequest.recoveryId ((exportGenesis s).validateRequest k) []
      (exportGenesis s).recoveryRequests = .ok () := by
  refine checkEach_of_nodup (fun r hr => ?_) (fun _ _ => List.not_mem_nil) export_requestIDs
  obtain ⟨hget, hpending⟩ := mem_exported_requests.1 hr
  have hmade := hs.requests _ r hget
  have hlength : r.recoveryId.length = recoveryIDLen := by
    rw [hmade.derived]
    exact hsha _
  simp only [GenesisState.validateRequest, validateLen, bind_eq_ok, ensure_eq_ok, exists_const]
  exact ⟨hpending, (), validateDID_field hmade.did _,
    notTerminated_exportGenesis (hs.standing _ r hget), hmade.controller, hmade.nonce, hmade.keyType,
    hlength, hmade.derived, trivial, hs.orderly.ordered _ r hget, hmade.approvals, hmade.rejections,
    hmade.deposit, hmade.fee, hmade.method⟩

/-- The export lists no more requests of a DID than the index does. -/
theorem openFor_exportGenesis (hr : r ∈ (exportGenesis s).recoveryRequests) :
    (exportGenesis s).openFor r.did ≤ s.params.maxOpenRecoveryRequests := by
  obtain ⟨hget, -⟩ := mem_exported_requests.1 hr
  have hdid := hs.orderly.filed.named _ r hget
  refine le_trans ?_ (hs.slots r.did hdid)
  unfold GenesisState.openFor
  rw [List.countP_eq_length_filter]
  refine length_le_of_ids _ (export_requestIDs.sublist (List.filter_sublist.map _)) fun r' hr' => ?_
  obtain ⟨hexported, hsame⟩ := List.mem_filter.1 hr'
  refine List.mem_map_of_mem ((mem_recoveryRequestsForDID hs.orderly.filed hdid).2 ⟨?_, ?_⟩)
  · exact (mem_exported_requests.1 hexported).1
  · exact of_decide_eq_true hsame

end Validate

section Machine

variable {v v' : ValidatorWorld}

/-- A bound DID stands and its operator is an address. -/
theorem bound_of_entry (hv : BindingsSound v) (hs : Exportable k v.world.store)
    {valoper : Bytes} (hget : v.world.store.validatorForDID did = some valoper) :
    v.world.store.Stands did ∧ validateDID "" did = .ok () ∧ valoper ≠ [] ∧
      (valAddressFromBech32 valoper).isSome = true := by
  obtain ⟨doc, hdoc, hstanding⟩ := hv.bindings.standing did valoper hget
  have hformed := hs.documents did doc hdoc
  obtain ⟨op, -, rfl⟩ := hv.bindings.operated valoper did ((hv.bindings.paired did valoper).1 hget)
  have hdecode := valAddressFromBech32_valAddressString op.nonempty op.short
  refine ⟨stands_of_get hdoc hformed hstanding, did_of_getIdentity hdoc ▸ hformed.did, ?_, ?_⟩
  · intro hnil
    unfold Operator.valoper at hnil
    rw [hnil] at hdecode
    cases hdecode
  · unfold Operator.valoper
    rw [hdecode]
    rfl

/-- A controller with an eligibility record is named by a document. -/
theorem ne_nil_of_eligibility (hv : BindingsSound v) {controller : Bytes} {e : ControllerEligibility}
    (hget : v.world.store.directory.eligibility.get? controller = some e) : controller ≠ [] := by
  obtain ⟨doc, hstored, rfl, -, -⟩ := Directory.document_of_record hv.sound.indexed hget
  exact (hv.sound.controlled.documents _ doc hstored).2

theorem export_entries (hv : BindingsSound v) (hs : Exportable k v.world.store) :
    (exportGenesis v.world.store).validateEntries = .ok () := by
  have hhas : ∀ {ν : Type} {m : OrdMap Bytes ν} {e : Bytes × ν}, e ∈ m.entries → m.has e.1 = true :=
    fun hmem => OrdMap.has_iff.2 ⟨_, OrdMap.mem_entries.1 hmem⟩
  simp only [GenesisState.validateEntries, bind_eq_ok]
  refine ⟨(), ?_, (), ?_, (), ?_, (), ?_, (), ?_, (), ?_, ?_⟩
  · refine checkStoreEntries (OrdMap.nodup_keys _) fun e hmem => ⟨decide_eq_true ?_, rfl⟩
    exact hs.issuerNonces e.1 (hhas hmem)
  · refine checkStoreEntries (OrdMap.nodup_keys _) fun e hmem => ⟨decide_eq_true ?_, rfl⟩
    exact hs.nonces e.1 (hhas hmem)
  · refine checkStoreEntries (OrdMap.nodup_keys _) fun e hmem => ?_
    obtain ⟨-, hdid, -, haddress⟩ := bound_of_entry hv hs (OrdMap.mem_entries.1 hmem)
    exact ⟨decide_eq_true (ne_nil_of_validateDID hdid), haddress⟩
  · refine checkStoreEntries (OrdMap.nodup_keys _) fun e hmem => ?_
    have hget : v.world.store.validatorForDID e.2 = some e.1 :=
      (hv.bindings.paired e.2 e.1).2 (OrdMap.mem_entries.1 hmem)
    obtain ⟨-, hdid, hvaloper, -⟩ := bound_of_entry hv hs hget
    exact ⟨decide_eq_true hvaloper, isOk_iff.2 ⟨(), hdid⟩⟩
  · refine checkStoreEntries (OrdMap.nodup_keys _) fun e hmem => ?_
    obtain ⟨hdid, hepoch⟩ := hs.epochs e.1 e.2 (OrdMap.mem_entries.1 hmem)
    exact ⟨decide_eq_true hdid, isOk_iff.2 ⟨(), StoreEntry.uint64NoOverflow_bigEndian hepoch⟩⟩
  · refine checkStoreEntries (OrdMap.nodup_keys _) fun e hmem => ?_
    obtain ⟨hid, hepoch⟩ := hs.tallies e.1 e.2 (OrdMap.mem_entries.1 hmem)
    exact ⟨decide_eq_true hid, isOk_iff.2 ⟨(), StoreEntry.uint64NoOverflow_bigEndian hepoch⟩⟩
  · refine checkStoreEntries (OrdMap.nodup_keys _) fun e hmem => ⟨decide_eq_true ?_, rfl⟩
    exact ne_nil_of_eligibility hv (OrdMap.mem_entries.1 hmem)

theorem export_accepted (hsha : ∀ m, (k.sha256 m).length = 32) (hv : BindingsSound v)
    (hs : Exportable k v.world.store) : (exportGenesis v.world.store).validate k = .ok () := by
  simp only [GenesisState.validate, bind_eq_ok, ensure_eq_ok, exists_const, forM_eq_ok]
  refine ⟨(), hs.params, (), export_identities hs, le_of_eq hs.oneEach.count.symm, (),
    export_issuers hs, (), export_entries hv hs, fun e hmem => ?_, fun e hmem => ?_, (),
    export_guardianSets hs, (), export_requests hs hsha, fun r hr => openFor_exportGenesis hs hr⟩
  · have hget : v.world.store.validatorForDID e.1 = some e.2 := OrdMap.mem_entries.1 hmem
    simp only [GenesisState.validateBinding, bind_eq_ok, ensure_eq_ok, exists_const]
    exact ⟨entryFor_entries ((hv.bindings.paired e.1 e.2).1 hget),
      notTerminated_exportGenesis (bound_of_entry hv hs hget).1⟩
  · have hget : v.world.store.didForValidator e.1 = some e.2 := OrdMap.mem_entries.1 hmem
    exact ensure_eq_ok.2 (entryFor_entries ((hv.bindings.paired e.2 e.1).2 hget))

/-- A message keeps the order of the windows, the caps and the epochs. -/
def exportSafe (v : ValidatorWorld) : ValidatorAction → Bool
  | .message tx => keepsOrder v.world tx ∧ keepsCaps v.world tx
  | _ => true

theorem exportable_of_apply {minSelfStake : Int} {a : ValidatorAction}
    (hsha : ∀ m, (k.sha256 m).length = 32) (hsafe : exportSafe v a = true) (hv : BindingsSound v)
    (hs : Exportable k v.world.store) (happly : applyValidator k minSelfStake v a = .ok v') :
    Exportable k v'.world.store := by
  rcases bindings_of_hook hv happly with ⟨tx, w, rfl, hw, rfl⟩ | ⟨hrebound, -⟩
  · obtain ⟨horder, hcaps⟩ := of_decide_eq_true hsafe
    exact hs.step hcaps hw hsha horder
  · exact hs.rebound hrebound

theorem exportable_of_run {minSelfStake : Int} {as : List ValidatorAction}
    (hsha : ∀ m, (k.sha256 m).length = 32)
    (hsafe : Along (validatorStep k minSelfStake)
      (fun v a => isOk (applyValidator k minSelfStake v a) = true → exportSafe v a = true) v as)
    (hv : BindingsSound v) (hs : Exportable k v.world.store) :
    BindingsSound (run (validatorStep k minSelfStake) v as) ∧
      Exportable k (run (validatorStep k minSelfStake) v as).world.store := by
  refine @run_preserves _ _ (validatorStep k minSelfStake) _
    (fun v => BindingsSound v ∧ Exportable k v.world.store) ?_ _ ⟨hv, hs⟩ _ hsafe
  intro v a hok ⟨hv, hs⟩
  refine commit_preserves (p := fun v => BindingsSound v ∧ Exportable k v.world.store) ⟨hv, hs⟩
    fun v' happly => ?_
  exact ⟨bindingsSound_of_apply hv happly,
    exportable_of_apply hsha (hok (isOk_iff.2 ⟨v', happly⟩)) hv hs happly⟩

end Machine

/-- In every run from the default genesis, with any founding set, whose accepted steps are safe, the
export is accepted. The digest of the keeper is SHA-256, which has 32 bytes. -/
theorem identity_export_importable (k : Keeper) (hsha : ∀ m, (k.sha256 m).length = 32)
    (minSelfStake : Int) (bank : Bank) (operators : List Operator) {as : List ValidatorAction}
    (hsafe : Along (validatorStep k minSelfStake)
      (fun v a => isOk (applyValidator k minSelfStake v a) = true → exportSafe v a = true)
      ⟨emptyRegistry bank defaultParams, operators⟩ as) :
    (exportGenesis (run (validatorStep k minSelfStake) ⟨emptyRegistry bank defaultParams, operators⟩
      as).world.store).validate k = .ok () := by
  obtain ⟨hv, hs⟩ := exportable_of_run hsha hsafe
    (bindingsSound_emptyRegistry bank defaultParams operators) (exportable_fresh k)
  exact export_accepted hsha hv hs

theorem length_columnSums (b : Bytes) : (columnSums b).length = 32 := by
  have hfold : ∀ sums : Bytes, sums.length = 32 →
      (b.foldl (fun sums c => sums.tail ++ [sums.headD 0 + c]) sums).length = 32 := by
    induction b with
    | nil => exact fun sums hsums => hsums
    | cons c rest ih =>
      intro sums hsums
      refine ih _ ?_
      rw [List.length_append, List.length_tail, hsums]
      rfl
  exact hfold _ List.length_replicate

/-- Account `owner` registers the DID of a key. -/
def registerKey (owner key : Byte) : Action :=
  .registerIdentity ⟨accAddressString [owner], recoveryDID key, [4, key], [key], smallIssuer.did,
    [4, 0], [key], [4, key], .secp256r1⟩

/-- Two guardians for the first DID. -/
def guardTwice : Action :=
  .setGuardians ⟨accAddressString [21], recoveryDID 1, [commitmentTo 2, commitmentTo 3], 1⟩

/-- The default genesis, on which the first DID is registered and guarded. -/
def guardedStart : List ValidatorAction :=
  [.message ⟨smallEnv 1, trustIssuer⟩, .message ⟨smallEnv 2, registerKey 21 1⟩,
    .message ⟨smallEnv 3, guardTwice⟩]

def exportedAfter (as : List ValidatorAction) : GenesisState :=
  exportGenesis (run (validatorStep recoveryKeeper 1) ⟨emptyRegistry ⟨∅, ∅⟩ defaultParams, []⟩
    as).world.store

/-- The first DID is guarded, asked for and bound to a validator. -/
theorem identity_export_importable_small :
    (exportedAfter (guardedStart ++ [.message ⟨smallEnv 4, reparametrise smallParams⟩,
      .message ⟨smallEnv 5, recoverFirst 24 9⟩,
      .createValidator 6 ⟨[21], by decide, by decide⟩ (some 1)])).validate recoveryKeeper = .ok () :=
  identity_export_importable recoveryKeeper length_columnSums 1 ⟨∅, ∅⟩ [] (by decide +kernel)

/-- Three runs of accepted messages whose exports are refused: the cap on guardians is lowered
below a stored set, the cap on open requests below the requests of a DID, and the lifetime below
what is left of the delay of a held request. -/
theorem identity_export_refused :
    isOk ((exportedAfter (guardedStart ++
      [.message ⟨smallEnv 4, reparametrise { defaultParams with maxGuardians := 1 }⟩])).validate
        recoveryKeeper) = false ∧
    isOk ((exportedAfter (guardedStart ++
      [.message ⟨smallEnv 4, reparametrise smallParams⟩, .message ⟨smallEnv 5, recoverFirst 24 9⟩,
        .message ⟨smallEnv 6, recoverFirst 25 8⟩,
        .message ⟨smallEnv 7, reparametrise { smallParams with
          maxOpenRecoveryRequests := 1 }⟩])).validate recoveryKeeper) = false ∧
    isOk ((exportedAfter (guardedStart ++
      [.message ⟨smallEnv 4, reparametrise smallParams⟩, .message ⟨smallEnv 5, recoverFirst 24 9⟩,
        .message ⟨smallEnv 6, restateFirst .suspended⟩, .message ⟨smallEnv 7, reparametrise hastyParams⟩,
        .message ⟨smallEnv 8, restateFirst .active⟩])).validate recoveryKeeper) = false := by
  decide +kernel

end PhiChain.Identity
