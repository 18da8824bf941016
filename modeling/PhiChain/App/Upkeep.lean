import PhiChain.App.Delivery

/-!
# Bookkeeping of x/institutions over runs

From what a step can do (`Change`) follows what can appear in each keyspace, and from that the
invariant `Kept` of every store a chain reaches from the default genesis: the records passed
their checks, an id is not registered and queued for removal at once, and every ranged record
belongs to an id that is one of the two.
-/

set_option autoImplicit false

namespace PhiChain.App

open Foundations Sdk Institutions

variable {D : Type} [LinearOrder D] {ctx : Ctx} {op : Op} {s s' : Store D}

/-! ## The start of a block -/

theorem wellQueued_pruned (hs : WellQueued s) : WellQueued (pruneStaleCounters ctx s) := by
  obtain ⟨counters, subjects, cursor, hframe⟩ := pruneStaleCounters_frame ctx s
  rw [hframe]
  exact hs

theorem sweeping_beginBlock (ctx : Ctx) (s : Store D) :
    Sweeping removalPruneBudget (pruneStaleCounters ctx s) (Institutions.beginBlock ctx s) :=
  sweeping_sweepLoop le_rfl _

/-- The block sweeps take counters away and remove what is queued. -/
theorem beginBlock_swept (ctx : Ctx) (hs : WellQueued s) :
    Swept s { Institutions.beginBlock ctx s with
      counters := s.counters
      redeemSubjects := s.redeemSubjects
      pruneCursor := s.pruneCursor } := by
  have hswept := (sweeping_beginBlock ctx s).swept (wellQueued_pruned hs)
  obtain ⟨counters, subjects, cursor, hframe⟩ := pruneStaleCounters_frame ctx s
  rw [hframe] at hswept
  refine ⟨hswept.roles, hswept.approvals, hswept.kycTiers, hswept.queue, ?_⟩
  rw [hswept.rest]

theorem pruneStaleCounters_fewer (ctx : Ctx) (s : Store D) (key : Bytes) :
    ((pruneStaleCounters ctx s).counters.has key = true → s.counters.has key = true) ∧
      ((pruneStaleCounters ctx s).redeemSubjects.has key = true →
        s.redeemSubjects.has key = true) := by
  unfold pruneStaleCounters
  dsimp only
  split
  · exact ⟨id, id⟩
  · exact ⟨OrdMap.has_of_eraseAll, OrdMap.has_of_eraseAll⟩

theorem beginBlock_marked (ctx : Ctx) (s : Store D) : Marked s (Institutions.beginBlock ctx s) := by
  have hdeposits := (beginBlock_keeps ctx s).2.2.1
  obtain ⟨roles, approvals, kycTiers, queue, hframe⟩ := beginBlock_frame ctx s
  rw [hframe] at hdeposits ⊢
  refine ⟨fun key h => .inl ((pruneStaleCounters_fewer ctx s key).1 h),
    fun key h => .inl ((pruneStaleCounters_fewer ctx s key).2 h), fun key v h => .inl ?_⟩
  rwa [hdeposits] at h

/-! ## Registry and queue -/

/-- Registered, or removed and still draining. -/
def Owned (s : Store D) (id : Bytes) : Prop :=
  (s.getInstitution id).isSome = true ∨ s.hasPendingRemoval id = true

variable {id : Bytes} {inst : Institution} {key : PartyKey}

theorem isSome_setInstitution (inst : Institution) (h : (s.getInstitution id).isSome = true) :
    ((s.setInstitution inst).getInstitution id).isSome = true := by
  rw [getInstitution_setInstitution]
  split
  · rfl
  · exact h

/-- No step but the sweep gives an id up. -/
theorem owned_of_change (h : Change ctx op s s') :
    (∀ id, Owned s id → Owned s' id) ∨
      (∃ hrunning, op = .deliver .beginBlock hrunning) ∧ s' = Institutions.beginBlock ctx s := by
  cases h with
  | swept sent => exact .inr ⟨sent, rfl⟩
  | record inst inst' found successor _ _ institutions _ _ _ _ _ queue =>
    refine .inl fun id howned => howned.imp (fun hreg => ?_) fun hpending => ?_
    · unfold Store.getInstitution
      rw [institutions]
      exact isSome_setInstitution inst' hreg
    · unfold Store.hasPendingRemoval
      rwa [queue]
  | registered | finalized => exact .inl fun id howned => howned.imp_left (isSome_setInstitution _)
  | removed inst _ found =>
    refine .inl fun id howned => ?_
    -- the removed id moves from the registry to the queue
    by_cases hid : inst.id = id
    · exact .inr ((hasPendingRemoval_enqueue _ _ _).2 (.inl hid))
    · refine howned.imp (fun hreg => ?_) fun hpending => ?_
      · rw [getInstitution_remove, if_neg hid]
        exact hreg
      · exact (hasPendingRemoval_enqueue _ _ _).2 (.inr hpending)
  | approvals | params | emergency | requested | guaranteed | declined | granted | revoked |
    assigned => exact .inl fun _ => id

/-- Queue keys come from removals of registered institutions. -/
theorem queue_of_change (h : Change ctx op s s') (hs : WellQueued s) {key : Bytes}
    (hkey : s'.removalQueue.has key = true) : s.removalQueue.has key = true ∨
      (∃ msg hrunning, op = .deliver (.remove msg) hrunning) ∧
        ∃ inst, s.getInstitution inst.id = some inst ∧ key = removalQueueKey inst.id ∧
          s'.getInstitution inst.id = none := by
  cases h with
  | record inst inst' found successor _ _ institutions _ _ _ _ _ queue =>
    rw [queue] at hkey
    exact .inl hkey
  | removed inst sent found =>
    rcases OrdMap.has_put.1 hkey with hnew | hold
    · refine .inr ⟨sent, inst, found, hnew.symm, ?_⟩
      rw [getInstitution_remove, if_pos rfl]
    · exact .inl hold
  | swept =>
    obtain ⟨x, hx⟩ := OrdMap.has_iff.1 hkey
    exact .inl (OrdMap.has_iff.2 ⟨x, (beginBlock_swept ctx hs).queue.fewer key x hx⟩)
  | approvals | registered | finalized | params | emergency | requested | guaranteed | declined |
    granted | revoked | assigned => exact .inl hkey

/-- Where a record comes from. -/
inductive RecordFrom (ctx : Ctx) (op : Op) (s : Store D) (inst : Institution) : Prop where
  | same (found : s.getInstitution inst.id = some inst)
  | successor (old : Institution) (found : s.getInstitution inst.id = some old)
      (successor : Successor ctx (capInt s.params.redeemFloorPerTx) old inst)
  | registered (msg : MsgRegisterInstitution) (sent : ∃ h, op = .deliver (.register msg) h)
      (basic : msg.validateBasic = .ok ()) (idle : s.hasPendingRemoval msg.id = false)
      (new : inst = newInstitution msg.id msg.admin msg.institutionType ctx.blockTime)
  | finalized (fxId : Bytes) (req : FxEntryRequest) (request : s.fxRequests.get? fxId = some req)
      (idle : s.hasPendingRemoval fxId = false)
      (new : inst = newInstitution fxId req.applicant .fx ctx.blockTime)

theorem record_of_change (h : Change ctx op s s')
    (hget : s'.getInstitution id = some inst) : RecordFrom ctx op s inst := by
  have hself : ∀ t : Store D, t.institutions.get? id = s.institutions.get? id →
      t.getInstitution id = some inst → RecordFrom ctx op s inst := by
    intro t ht hgot
    exact .same (Store.getInstitution_self (ht.symm.trans hgot))
  cases h with
  | record old new found successor _ _ institutions =>
    unfold Store.getInstitution at hget
    rw [institutions, Registry.get?_set] at hget
    split at hget
    · cases hget
      exact .successor old (successor.id ▸ found) successor
    · exact .same (Store.getInstitution_self hget)
  | registered msg sent basic fresh idle =>
    rw [getInstitution_setInstitution] at hget
    split at hget
    · cases hget
      exact .registered msg sent basic idle rfl
    · exact .same (Store.getInstitution_self hget)
  | finalized fxId req named request fresh idle =>
    have hset := getInstitution_setInstitution s
      (newInstitution fxId req.applicant .fx ctx.blockTime) id
    change (s.setInstitution (newInstitution fxId req.applicant .fx
      ctx.blockTime)).getInstitution id = some inst at hget
    rw [hset] at hget
    split at hget
    · cases hget
      exact .finalized fxId req request idle rfl
    · exact .same (Store.getInstitution_self hget)
  | removed old =>
    rw [getInstitution_remove] at hget
    split at hget
    · cases hget
    · exact .same (Store.getInstitution_self hget)
  | swept =>
    unfold Store.getInstitution at hget
    rw [(beginBlock_keeps ctx s).2.1] at hget
    exact .same (Store.getInstitution_self hget)
  | approvals | params | emergency | requested | guaranteed | declined | granted | revoked |
    assigned => exact hself _ rfl hget

/-! ## Ranged records, requests and marks -/

/-- The account of a role grant was decoded from some text. -/
def Decoded (account : Bytes) : Prop := ∃ text, accAddressFromBech32 text = some account

theorem role_of_change (h : Change ctx op s s') (hs : WellQueued s) {role : InstitutionRole}
    (hkey : s'.roles.get? key = some role) :
    s.roles.get? key = some role ∨ (s.getInstitution key.institution).isSome = true ∧
      Decoded key.account ∧ role ≠ .unspecified := by
  cases h with
  | record inst inst' found successor _ _ _ _ _ roles =>
    rw [roles] at hkey
    exact .inl hkey
  | granted inst text grantee role' approvals epochs given found decoded known =>
    rw [OrdMap.get?_put] at hkey
    split at hkey
    · rename_i hsame
      cases hkey
      subst hsame
      refine .inr ⟨?_, ⟨text, decoded⟩, known⟩
      rw [found]
      rfl
    · exact .inl hkey
  | revoked inst grantee =>
    rw [OrdMap.get?_erase] at hkey
    split at hkey
    · cases hkey
    · exact .inl hkey
  | swept => exact .inl ((beginBlock_swept ctx hs).roles.fewer key role hkey)
  | approvals | registered | finalized | removed | params | emergency | requested | guaranteed |
    declined | assigned => exact .inl hkey

theorem approval_of_change (h : Change ctx op s s') (hs : WellQueued s) {key : ApprovalKey D}
    (hkey : s'.approvals.has key = true) :
    s.approvals.has key = true ∨ (s.getInstitution key.institution).isSome = true := by
  obtain ⟨stamp, hstamp⟩ := OrdMap.has_iff.1 hkey
  cases h with
  | approvals _ given | record _ _ _ _ _ given | granted _ _ _ _ _ _ given
  | revoked _ _ _ _ given =>
    exact given key stamp hstamp
  | swept =>
    exact .inl (OrdMap.has_iff.2 ⟨stamp, (beginBlock_swept ctx hs).approvals.fewer key _ hstamp⟩)
  | registered | finalized | removed | params | emergency | requested | guaranteed | declined |
    assigned => exact .inl hkey

theorem kycTier_of_change (h : Change ctx op s s') (hs : WellQueued s)
    (hkey : s'.kycTiers.has key = true) :
    s.kycTiers.has key = true ∨ (s.getInstitution key.institution).isSome = true := by
  cases h with
  | record _ _ _ _ _ _ _ _ _ _ kycTiers =>
    rw [kycTiers] at hkey
    exact .inl hkey
  | assigned inst holder tier found =>
    rcases OrdMap.has_put.1 hkey with rfl | hold
    · refine .inr ?_
      rw [found]
      rfl
    · exact .inl hold
  | swept =>
    obtain ⟨tier, htier⟩ := OrdMap.has_iff.1 hkey
    exact .inl (OrdMap.has_iff.2 ⟨tier, (beginBlock_swept ctx hs).kycTiers.fewer key tier htier⟩)
  | approvals | registered | finalized | removed | params | emergency | requested | guaranteed |
    declined | granted | revoked => exact .inl hkey

/-- A pending fx request as its message was checked. -/
structure RequestKept (id : Bytes) (req : FxEntryRequest) : Prop where
  named : id ≠ []
  short : id.length ≤ maxInstitutionIDLen
  applicant : (accAddressFromBech32 req.applicant).isSome = true
  guarantor : req.guarantorId ≠ []
  status : req.status = .requested ∨ req.status = .guaranteed

/-- Where a pending request comes from. -/
inductive RequestFrom (op : Op) (s : Store D) (id : Bytes) (req : FxEntryRequest) : Prop where
  | same (found : s.fxRequests.get? id = some req)
  | guaranteed (old : FxEntryRequest) (found : s.fxRequests.get? id = some old)
      (new : req = { old with status := .guaranteed })
  | requested (msg : MsgRequestFxEntry) (sent : ∃ h, op = .deliver (.requestFx msg) h)
      (basic : msg.validateBasic = .ok ()) (fresh : s.institutions.has msg.fxId = false)
      (named : msg.fxId = id) (new : req = ⟨msg.applicant, msg.guarantorId, .requested⟩)

theorem request_of_change (h : Change ctx op s s') {req : FxEntryRequest}
    (hreq : s'.fxRequests.get? id = some req) : RequestFrom op s id req := by
  have hold : ∀ fxId, (s.fxRequests.erase fxId).get? id = some req → RequestFrom op s id req := by
    intro fxId hget
    rw [OrdMap.get?_erase] at hget
    split at hget
    · cases hget
    · exact .same hget
  cases h with
  | record _ _ _ _ _ _ _ _ _ _ _ fx =>
    rw [fx] at hreq
    exact .same hreq
  | finalized fxId | declined fxId => exact hold fxId hreq
  | requested msg sent basic fresh =>
    rw [OrdMap.get?_put] at hreq
    split at hreq
    · rename_i hid
      cases hreq
      exact .requested msg sent basic fresh hid rfl
    · exact .same hreq
  | guaranteed fxId old request =>
    rw [OrdMap.get?_put] at hreq
    split at hreq
    · rename_i hid
      cases hreq
      exact .guaranteed old (hid ▸ request) rfl
    · exact .same hreq
  | swept =>
    rw [(beginBlock_keeps ctx s).2.2.2.1] at hreq
    exact .same hreq
  | approvals | registered | removed | params | emergency | granted | revoked | assigned =>
    exact .same hreq

theorem marked_of_change (h : Change ctx op s s') : Marked s s' := by
  cases h with
  | record _ _ _ _ marked => exact marked
  | swept => exact beginBlock_marked ctx s
  | approvals | registered | finalized | removed | params | emergency | requested | guaranteed |
    declined | granted | revoked | assigned => exact marked_of_eq rfl rfl rfl

/-- An attestor is recorded for a registered institution. -/
theorem attestor_of_change (h : Change ctx op s s') {attestor : Bytes}
    (hget : s'.lastAttestors.get? id = some attestor) :
    s.lastAttestors.get? id = some attestor ∨
      (s.getInstitution id).isSome = true ∧ Decoded attestor := by
  cases h with
  | record inst inst' found _ _ _ _ attestors =>
    rcases attestors with hsame | ⟨text, account, hdecoded, hput⟩
    · rw [hsame] at hget
      exact .inl hget
    · rw [hput, OrdMap.get?_put] at hget
      split at hget
      · rename_i hid
        cases hget
        subst hid
        refine .inr ⟨?_, text, hdecoded⟩
        rw [found]
        rfl
      · exact .inl hget
  | removed inst =>
    change (s.lastAttestors.erase inst.id).get? id = some attestor at hget
    rw [OrdMap.get?_erase] at hget
    split at hget
    · cases hget
    · exact .inl hget
  | swept =>
    rw [(beginBlock_keeps ctx s).2.2.2.2] at hget
    exact .inl hget
  | approvals | registered | finalized | params | emergency | requested | guaranteed | declined |
    granted | revoked | assigned => exact .inl hget

/-! ## The invariant -/

/-- A record as its registration was checked and its successors leave it. -/
structure RecordKept (inst : Institution) : Prop where
  named : inst.id ≠ []
  short : inst.id.length ≤ maxInstitutionIDLen
  admin : (accAddressFromBech32 inst.admin).isSome = true
  type : inst.institutionType = .financial ∨ inst.institutionType = .fx
  vault : 0 ≤ inst.vaultBalance
  reserve : 0 ≤ inst.attestedReserve
  params : inst.params.validate = .ok ()

/-- Bookkeeping of a store that a chain has reached. -/
structure Kept (s : Store D) : Prop where
  records : ∀ id inst, s.getInstitution id = some inst → RecordKept inst
  queued : WellQueued s
  exclusive : ∀ id inst, s.getInstitution id = some inst → s.hasPendingRemoval id = false
  roles : ∀ key role, s.roles.get? key = some role →
    Owned s key.institution ∧ Decoded key.account ∧ role ≠ .unspecified
  approvals : ∀ key, s.approvals.has key = true → Owned s key.institution
  kycTiers : ∀ key, s.kycTiers.has key = true → Owned s key.institution
  requests : ∀ id req, s.fxRequests.get? id = some req → RequestKept id req
  counters : ∀ key, s.counters.has key = true → underPrefix 0x40 key = true
  subjects : ∀ key, s.redeemSubjects.has key = true → underPrefix 0x80 key = true
  deposits : ∀ key v, s.deposits.get? key = some v →
    underPrefix 0x50 key = true ∧ v = depositMarkerByte
  attestors : ∀ id attestor, s.lastAttestors.get? id = some attestor → id ≠ [] ∧ Decoded attestor

theorem kept_fresh : Kept (Store.fresh : Store D) where
  records _ _ h := by cases h
  queued _ h := by cases h
  exclusive _ _ h := by cases h
  roles _ _ h := by cases h
  approvals _ h := by cases h
  kycTiers _ h := by cases h
  requests _ _ h := by cases h
  counters _ h := by cases h
  subjects _ h := by cases h
  deposits _ _ h := by cases h
  attestors _ _ h := by cases h

theorem validate_unset : InstitutionParams.unset.validate = .ok () := rfl

/-- Registration and onboarding start a record with an empty vault and no caps. -/
theorem recordKept_new {admin : Bytes} {type : InstitutionType} {now : Int} (hnamed : id ≠ [])
    (hshort : id.length ≤ maxInstitutionIDLen) (hadmin : (accAddressFromBech32 admin).isSome = true)
    (htype : type = .financial ∨ type = .fx) :
    RecordKept (newInstitution id admin type now) :=
  ⟨hnamed, hshort, hadmin, htype, le_rfl, le_rfl, validate_unset⟩

theorem Successor.recordKept {floor : Int} {inst' : Institution}
    (h : Successor ctx floor inst inst') (hk : RecordKept inst) : RecordKept inst' where
  named := h.id ▸ hk.named
  short := h.id ▸ hk.short
  admin := h.admin ▸ hk.admin
  type := h.type ▸ hk.type
  vault := h.vault hk.vault
  reserve := h.reserve hk.reserve
  params := h.params.elim (fun hsame => hsame ▸ hk.params) fun hnew => hnew.1

section Step

variable (h : Change ctx op s s') (hs : Kept s)
include h hs

theorem Kept.step_records (hget : s'.getInstitution id = some inst) : RecordKept inst := by
  cases record_of_change h hget with
  | same found => exact hs.records _ _ found
  | successor old found successor => exact successor.recordKept (hs.records _ _ found)
  | registered msg sent basic idle new =>
    simp only [MsgRegisterInstitution.validateBasic, validateAddress, bind_eq_ok, ensure_eq_ok,
      exists_const] at basic
    obtain ⟨-, hadmin, hnamed, hshort, htype⟩ := basic
    exact new ▸ recordKept_new hnamed hshort hadmin htype
  | finalized fxId req request idle new =>
    have hreq := hs.requests fxId req request
    exact new ▸ recordKept_new hreq.named hreq.short hreq.applicant (.inr rfl)

theorem Kept.step_queued : WellQueued s' := by
  intro key hkey
  rcases queue_of_change h hs.queued hkey with hold | ⟨-, inst, found, rfl, -⟩
  · exact hs.queued key hold
  · exact ⟨inst.id, (hs.records _ _ found).short, rfl⟩

/-- Whatever is registered now was not queued before: registration waits for the queue. -/
theorem Kept.idle_of_step (hget : s'.getInstitution id = some inst) :
    s.hasPendingRemoval id = false := by
  have hidle : s.hasPendingRemoval inst.id = false := by
    cases record_of_change h hget with
    | same found | successor old found => exact hs.exclusive _ _ found
    | registered msg sent basic idle new | finalized fxId req request idle new => exact new ▸ idle
  rwa [show inst.id = id from Registry.id_of_get? hget] at hidle

/-- A registered id is not queued: a removal takes the record away. -/
theorem Kept.step_exclusive
    (hget : s'.getInstitution id = some inst) : s'.hasPendingRemoval id = false := by
  rw [Bool.eq_false_iff]
  intro hpending
  rcases queue_of_change h hs.queued hpending with hold | ⟨-, gone, found, hkey, hnone⟩
  · exact Bool.eq_false_iff.1 (hs.idle_of_step h hget) hold
  · rw [removalQueueKey_inj hkey, hnone] at hget
    cases hget

/-- As long as a ranged record of an id is left, the id is not given up. -/
theorem Kept.step_owned (howned : Owned s id)
    (hleft : institutionRangedEmpty s' id ≠ true) : Owned s' id := by
  rcases owned_of_change h with hkeep | ⟨-, rfl⟩
  · exact hkeep id howned
  · rcases howned with hreg | hpending
    · refine .inl ?_
      unfold Store.getInstitution
      rw [(beginBlock_keeps ctx s).2.1]
      exact hreg
    · refine .inr ?_
      by_contra hgone
      have hbefore : (pruneStaleCounters ctx s).hasPendingRemoval id = true := by
        obtain ⟨counters, subjects, cursor, hframe⟩ := pruneStaleCounters_frame ctx s
        rw [hframe]
        exact hpending
      exact hleft ((sweeping_beginBlock ctx s).rangedEmpty (wellQueued_pruned hs.queued) hbefore
        (Bool.eq_false_iff.2 hgone))

theorem Kept.step_roles {role : InstitutionRole} (hkey : s'.roles.get? key = some role) :
    Owned s' key.institution ∧ Decoded key.account ∧ role ≠ .unspecified := by
  have hleft : institutionRangedEmpty s' key.institution ≠ true := fun hempty =>
    (institutionRangedEmpty_iff.1 hempty).1 key role hkey rfl
  rcases role_of_change h hs.queued hkey with hold | ⟨hreg, hdecoded, hknown⟩
  · obtain ⟨howned, hrest⟩ := hs.roles key role hold
    exact ⟨hs.step_owned h howned hleft, hrest⟩
  · exact ⟨hs.step_owned h (.inl hreg) hleft, hdecoded, hknown⟩

theorem Kept.step_approvals {key : ApprovalKey D} (hkey : s'.approvals.has key = true) :
    Owned s' key.institution := by
  obtain ⟨stamp, hstamp⟩ := OrdMap.has_iff.1 hkey
  have hleft : institutionRangedEmpty s' key.institution ≠ true := fun hempty =>
    (institutionRangedEmpty_iff.1 hempty).2.1 key stamp hstamp rfl
  rcases approval_of_change h hs.queued hkey with hold | hreg
  · exact hs.step_owned h (hs.approvals key hold) hleft
  · exact hs.step_owned h (.inl hreg) hleft

theorem Kept.step_kycTiers (hkey : s'.kycTiers.has key = true) :
    Owned s' key.institution := by
  obtain ⟨tier, htier⟩ := OrdMap.has_iff.1 hkey
  have hleft : institutionRangedEmpty s' key.institution ≠ true := fun hempty =>
    (institutionRangedEmpty_iff.1 hempty).2.2 key tier htier rfl
  rcases kycTier_of_change h hs.queued hkey with hold | hreg
  · exact hs.step_owned h (hs.kycTiers key hold) hleft
  · exact hs.step_owned h (.inl hreg) hleft

theorem Kept.step_requests {req : FxEntryRequest}
    (hreq : s'.fxRequests.get? id = some req) : RequestKept id req := by
  cases request_of_change h hreq with
  | same found => exact hs.requests id req found
  | guaranteed old found new =>
    have hkept := hs.requests id old found
    rw [new]
    exact ⟨hkept.named, hkept.short, hkept.applicant, hkept.guarantor, .inr rfl⟩
  | requested msg sent basic fresh named new =>
    simp only [MsgRequestFxEntry.validateBasic, validateAddress, bind_eq_ok, ensure_eq_ok,
      exists_const] at basic
    obtain ⟨happlicant, hnamed, hshort, hguarantor⟩ := basic
    rw [new, ← named]
    exact ⟨hnamed, hshort, happlicant, hguarantor, .inl rfl⟩

theorem Kept.step_attestors {attestor : Bytes}
    (hget : s'.lastAttestors.get? id = some attestor) : id ≠ [] ∧ Decoded attestor := by
  rcases attestor_of_change h hget with hold | ⟨hreg, hdecoded⟩
  · exact hs.attestors id attestor hold
  · obtain ⟨inst, hinst⟩ := Option.isSome_iff_exists.1 hreg
    have hid : inst.id = id := Registry.id_of_get? hinst
    exact ⟨hid ▸ (hs.records _ _ hinst).named, hdecoded⟩

/-- Every step keeps the books. -/
theorem Kept.step : Kept s' where
  records _ _ := hs.step_records h
  queued := hs.step_queued h
  exclusive _ _ := hs.step_exclusive h
  roles _ _ := hs.step_roles h
  approvals _ := hs.step_approvals h
  kycTiers _ := hs.step_kycTiers h
  requests _ _ := hs.step_requests h
  counters key hkey := ((marked_of_change h).counters key hkey).elim (hs.counters key) id
  subjects key hkey := ((marked_of_change h).subjects key hkey).elim (hs.subjects key) id
  deposits key v hkey := ((marked_of_change h).deposits key v hkey).elim (hs.deposits key v) id
  attestors _ _ := hs.step_attestors h

end Step

/-! ## Runs from the default genesis -/

/-- World of the default genesis; what the other modules start with is free. -/
def startWorld (bank : Bank) (coin : Coin.Store) : World D := ⟨bank, coin, Store.fresh⟩

/-- An invariant of the changes is an invariant of the runs. -/
theorem run_kept (k : Keeper D) {w : World D} (hw : Kept w.inst) (ops : List (Ctx × Op)) :
    Kept (run (advance k) w ops).inst := by
  refine @run_invariant _ _ (advance k) (fun w => Kept w.inst) ?_ _ hw ops
  intro w op hkept
  exact commit_preserves (p := fun w => Kept w.inst) hkept fun w' h =>
    hkept.step (change_of_perform h)

/-- Governance is an account that can sign. -/
def govKeeper : Keeper Bytes := { textKeeper with authority := accAddressString [9] }

def emptyStart : World Bytes := startWorld ⟨∅, ∅⟩ ⟨Coin.defaultParams, ∅, ∅⟩

/-- Governance registers institution `a` with the given root admin. -/
def registerSmall (admin : Bytes) : Op :=
  .deliver (.register ⟨accAddressString [9], ascii "a", admin, .financial⟩) nofun

def removeSmall : Op := .deliver (.remove ⟨accAddressString [9], ascii "a"⟩) nofun

def startBlock : Op := .deliver .beginBlock nofun

end PhiChain.App
