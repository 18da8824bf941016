import PhiChain.Identity.Events

/-!
# Identity: stored recovery requests

The index of requests lists the stored requests of a DID and no others (`Filed`); every
message keeps it so. Under it the loops of a suspension, a reinstatement, a revocation and
an execution reach exactly the requests of the DID. `Origin` traces a stored request back
over one message: it was there before, or the message opened, froze, released or tallied it.
-/

set_option autoImplicit false

namespace PhiChain.Identity

open Foundations Sdk

variable {k : Keeper} {env : Env} {w w' : World} {s : Store} {did : Bytes} {r : RecoveryRequest}

/-! ## What the parts of a message leave alone -/

theorem dropAll_eq (s : Store) (rs : List RecoveryRequest) :
    ∃ recoveries byDID epochs, s.dropAll rs =
      { s with
        recoveries := recoveries
        recoveriesByDID := byDID
        recoveryTallyEpochs := epochs } := by
  induction rs generalizing s with
  | nil => exact ⟨s.recoveries, s.recoveriesByDID, s.recoveryTallyEpochs, rfl⟩
  | cons r rest ih =>
    obtain ⟨recoveries, byDID, epochs, heq⟩ := ih (s.deleteRecoveryRequest r)
    exact ⟨recoveries, byDID, epochs, heq⟩

theorem putAll_eq (s : Store) (rs : List RecoveryRequest) :
    ∃ recoveries byDID, s.putAll rs =
      { s with
        recoveries := recoveries
        recoveriesByDID := byDID } := by
  induction rs generalizing s with
  | nil => exact ⟨s.recoveries, s.recoveriesByDID, rfl⟩
  | cons r rest ih =>
    obtain ⟨recoveries, byDID, heq⟩ := ih (s.setRecoveryRequest r)
    exact ⟨recoveries, byDID, heq⟩

theorem bumpGuardianEpoch_eq (s : Store) (did : Bytes) :
    ∃ epochs, s.bumpGuardianEpoch did = { s with guardianEpochs := epochs } := by
  unfold Store.bumpGuardianEpoch
  split
  · exact ⟨s.guardianEpochs, rfl⟩
  · exact ⟨_, rfl⟩

theorem guarded_eq (s : Store) (gs : GuardianSet) :
    ∃ epochs, s.guarded gs =
      { s with
        guardians := s.guardians.set gs
        guardianEpochs := epochs } :=
  bumpGuardianEpoch_eq (s.setGuardianSet gs) gs.did

theorem releaseRevoked_eq (s : Store) (did : Bytes) :
    ∃ toValidator toDID epochs, s.releaseRevoked did =
      { s with
        guardians := s.guardians.erase did
        didToValidator := toValidator
        validatorToDID := toDID
        guardianEpochs := epochs } := by
  unfold Store.releaseRevoked
  dsimp only
  split
  · obtain ⟨epochs, heq⟩ := bumpGuardianEpoch_eq
      ((s.deleteGuardianSet did).unbindValidator _) did
    exact ⟨_, _, epochs, heq⟩
  · obtain ⟨epochs, heq⟩ := bumpGuardianEpoch_eq (s.deleteGuardianSet did) did
    exact ⟨_, _, epochs, heq⟩

theorem syncTallyEpoch_eq (s : Store) (r : RecoveryRequest) :
    ∃ approvals rejections epochs, s.syncTallyEpoch r =
      ({ r with approvals := approvals, rejections := rejections },
        { s with recoveryTallyEpochs := epochs }) := by
  unfold Store.syncTallyEpoch
  split
  · exact ⟨r.approvals, r.rejections, s.recoveryTallyEpochs, rfl⟩
  · exact ⟨[], [], _, rfl⟩

theorem chargeInitiation_store {msg : MsgInitiateRecovery} {initiator : Bytes}
    (h : chargeInitiation env msg initiator w = .ok w') : w'.store = w.store := by
  unfold chargeInitiation chargeReauthFee escrowDeposit at h
  split at h
  · split at h
    · simp only [bind_eq_ok, pure_eq_ok] at h
      obtain ⟨bank, -, rfl⟩ := h
      rfl
    · cases h
      rfl
  · split at h
    · simp only [bind_eq_ok, pure_eq_ok] at h
      obtain ⟨bank, -, rfl⟩ := h
      rfl
    · cases h
      rfl

/-! ## Lookups -/

theorem getRecoveryRequest_set (s : Store) (r : RecoveryRequest) (id : Bytes) :
    (s.setRecoveryRequest r).getRecoveryRequest id =
      if r.recoveryId = id then some r else s.getRecoveryRequest id :=
  KeyedMap.get?_set s.recoveries r id

theorem getRecoveryRequest_delete (s : Store) (r : RecoveryRequest) (id : Bytes) :
    (s.deleteRecoveryRequest r).getRecoveryRequest id =
      if r.recoveryId = id then none else s.getRecoveryRequest id :=
  KeyedMap.get?_erase s.recoveries r.recoveryId id

variable {id : Bytes} {rs : List RecoveryRequest} {r' : RecoveryRequest} {a : Action}
  {msg : MsgUpdateStatus}

theorem recoveryId_of_get (h : s.getRecoveryRequest id = some r) : r.recoveryId = id :=
  KeyedMap.key_of_get? h

/-- A stored request is stored under its own id. -/
theorem get_own (h : s.getRecoveryRequest id = some r) :
    s.getRecoveryRequest r.recoveryId = some r := by
  rw [recoveryId_of_get h]
  exact h

theorem getRecoveryRequest_dropAll (s : Store) (rs : List RecoveryRequest) (id : Bytes) :
    (s.dropAll rs).getRecoveryRequest id =
      if id ∈ rs.map RecoveryRequest.recoveryId then none else s.getRecoveryRequest id := by
  induction rs generalizing s with
  | nil => rfl
  | cons r rest ih =>
    have hstep : s.dropAll (r :: rest) = (s.deleteRecoveryRequest r).dropAll rest := rfl
    rw [hstep, ih, getRecoveryRequest_delete, List.map_cons]
    by_cases hid : r.recoveryId = id
    · simp [hid]
    · simp [hid, Ne.symm hid]

/-- A stored request after a loop of writes is one of those written, or was there before. -/
theorem getRecoveryRequest_putAll (h : (s.putAll rs).getRecoveryRequest id = some r) :
    r ∈ rs ∨ id ∉ rs.map RecoveryRequest.recoveryId ∧ s.getRecoveryRequest id = some r := by
  induction rs generalizing s with
  | nil => exact Or.inr ⟨List.not_mem_nil, h⟩
  | cons r' rest ih =>
    rcases ih (s := s.setRecoveryRequest r') h with hmem | ⟨hout, hget⟩
    · exact Or.inl (List.mem_cons_of_mem _ hmem)
    · rw [getRecoveryRequest_set] at hget
      split at hget
      · cases hget
        exact Or.inl List.mem_cons_self
      · rename_i hid
        refine Or.inr ⟨?_, hget⟩
        rw [List.map_cons, List.mem_cons, not_or]
        exact ⟨Ne.symm hid, hout⟩

/-! ## The index of requests -/

/-- The index holds one key per stored request, and the DIDs contain no separator. -/
structure Filed (s : Store) : Prop where
  named : ∀ id r, s.getRecoveryRequest id = some r → NulFree r.did
  index : ∀ key, s.recoveriesByDID.has key = true ↔
    ∃ id r, s.getRecoveryRequest id = some r ∧ key = nulKey r.did r.recoveryId

theorem filed_of_empty (hrequests : s.recoveries = ∅) (hindex : s.recoveriesByDID = ∅) :
    Filed s := by
  have hnone : ∀ id, s.getRecoveryRequest id = none := by
    intro id
    unfold Store.getRecoveryRequest
    rw [hrequests]
    rfl
  constructor
  · intro id r h
    rw [hnone] at h
    cases h
  · intro key
    constructor
    · intro h
      rw [hindex] at h
      cases h
    · rintro ⟨id, r, h, -⟩
      rw [hnone] at h
      cases h

/-- Requests are read from the two keyspaces alone. -/
theorem filed_congr {s' : Store} (h : Filed s) (hrequests : s'.recoveries = s.recoveries)
    (hindex : s'.recoveriesByDID = s.recoveriesByDID) : Filed s' := by
  obtain ⟨hnamed, hkeys⟩ := h
  unfold Store.getRecoveryRequest at hnamed hkeys
  refine ⟨?_, ?_⟩
  · unfold Store.getRecoveryRequest
    rw [hrequests]
    exact hnamed
  · unfold Store.getRecoveryRequest
    rw [hrequests, hindex]
    exact hkeys

theorem filed_set (h : Filed s) (hdid : NulFree r.did)
    (hsame : ∀ prev, s.getRecoveryRequest r.recoveryId = some prev → prev.did = r.did) :
    Filed (s.setRecoveryRequest r) := by
  constructor
  · intro id r' hget
    rw [getRecoveryRequest_set] at hget
    split at hget
    · cases hget
      exact hdid
    · exact h.named id r' hget
  · intro key
    refine OrdMap.has_put.trans ?_
    rw [h.index]
    constructor
    · rintro (rfl | ⟨id, r', hget, rfl⟩)
      · exact ⟨r.recoveryId, r, by rw [getRecoveryRequest_set, if_pos rfl], rfl⟩
      · by_cases hid : r.recoveryId = id
        · subst hid
          refine ⟨r.recoveryId, r, by rw [getRecoveryRequest_set, if_pos rfl], ?_⟩
          rw [hsame r' hget, recoveryId_of_get hget]
        · exact ⟨id, r', by rw [getRecoveryRequest_set, if_neg hid, hget], rfl⟩
    · rintro ⟨id, r', hget, rfl⟩
      rw [getRecoveryRequest_set] at hget
      split at hget
      · cases hget
        exact Or.inl rfl
      · exact Or.inr ⟨id, r', hget, rfl⟩

theorem filed_delete {stored : RecoveryRequest} (h : Filed s)
    (hget : s.getRecoveryRequest r.recoveryId = some stored) (hdid : stored.did = r.did) :
    Filed (s.deleteRecoveryRequest r) := by
  constructor
  · intro id r' hget'
    rw [getRecoveryRequest_delete] at hget'
    split at hget'
    · cases hget'
    · exact h.named id r' hget'
  · intro key
    refine OrdMap.has_erase.trans ?_
    rw [h.index]
    have hnul : NulFree r.did := hdid ▸ h.named _ _ hget
    constructor
    · rintro ⟨hkey, id, r', hget', rfl⟩
      refine ⟨id, r', ?_, rfl⟩
      rw [getRecoveryRequest_delete, if_neg ?_]
      · exact hget'
      · rintro rfl
        rw [hget] at hget'
        cases hget'
        exact hkey (by rw [hdid, recoveryId_of_get hget])
    · rintro ⟨id, r', hget', rfl⟩
      rw [getRecoveryRequest_delete] at hget'
      split at hget'
      · cases hget'
      · rename_i hid
        refine ⟨fun hkey => hid ?_, id, r', hget', rfl⟩
        rw [((nulKey_inj hnul (h.named id r' hget')).1 hkey).2, recoveryId_of_get hget']

/-- The index finds the stored requests of a DID. -/
theorem mem_recoveryRequestsForDID (h : Filed s) (hdid : NulFree did) :
    r ∈ s.recoveryRequestsForDID did ↔
      s.getRecoveryRequest r.recoveryId = some r ∧ r.did = did := by
  unfold Store.recoveryRequestsForDID
  rw [List.mem_filterMap]
  constructor
  · rintro ⟨id, hunder, hget⟩
    have hid := recoveryId_of_get hget
    subst hid
    refine ⟨hget, ?_⟩
    obtain ⟨id', r', hget', hkey⟩ := (h.index _).1 (mem_under.1 hunder)
    obtain ⟨hsame, hid'⟩ := (nulKey_inj hdid (h.named id' r' hget')).1 hkey
    rw [recoveryId_of_get hget'] at hid'
    rw [← hid', hget] at hget'
    cases hget'
    exact hsame.symm
  · rintro ⟨hget, rfl⟩
    exact ⟨r.recoveryId, mem_under.2 ((h.index _).2 ⟨_, r, hget, rfl⟩), hget⟩

/-- The requests listed for a DID are stored, whatever the state of the index. -/
theorem stored_of_mem (h : r ∈ s.recoveryRequestsForDID did) :
    s.getRecoveryRequest r.recoveryId = some r := by
  unfold Store.recoveryRequestsForDID at h
  obtain ⟨id, -, hget⟩ := List.mem_filterMap.1 h
  rw [recoveryId_of_get hget]
  exact hget

theorem recoveryRequestsForDID_nodup (s : Store) (did : Bytes) :
    ((s.recoveryRequestsForDID did).map RecoveryRequest.recoveryId).Nodup := by
  unfold Store.recoveryRequestsForDID
  refine List.pairwise_map.2 (List.pairwise_filterMap.2 ((under_ascending _ did).imp ?_))
  intro id id' hlt r hr r' hr' hsame
  rw [recoveryId_of_get hr, recoveryId_of_get hr'] at hsame
  exact absurd hsame (ne_of_lt hlt)

theorem filed_dropAll (h : Filed s) (hstored : ∀ r ∈ rs, s.getRecoveryRequest r.recoveryId = some r)
    (hnodup : (rs.map RecoveryRequest.recoveryId).Nodup) : Filed (s.dropAll rs) := by
  induction rs generalizing s with
  | nil => exact h
  | cons r rest ih =>
    obtain ⟨hfirst, hrest⟩ := List.nodup_cons.1 hnodup
    refine ih (filed_delete h (hstored r List.mem_cons_self) rfl) ?_ hrest
    intro r' hr'
    rw [getRecoveryRequest_delete, if_neg ?_]
    · exact hstored r' (List.mem_cons_of_mem _ hr')
    · intro hid
      exact hfirst (hid ▸ List.mem_map_of_mem hr')

/-- Rule for a loop of writes over stored requests: what one write keeps, the loop keeps. -/
theorem putAll_preserves {p : Store → Prop} {same : RecoveryRequest → RecoveryRequest → Prop}
    (hset : ∀ s r prev, p s → s.getRecoveryRequest r.recoveryId = some prev → same prev r →
      p (s.setRecoveryRequest r)) (h : p s)
    (hstored : ∀ r ∈ rs, ∃ prev, s.getRecoveryRequest r.recoveryId = some prev ∧ same prev r)
    (hnodup : (rs.map RecoveryRequest.recoveryId).Nodup) : p (s.putAll rs) := by
  induction rs generalizing s with
  | nil => exact h
  | cons r rest ih =>
    obtain ⟨hfirst, hrest⟩ := List.nodup_cons.1 hnodup
    obtain ⟨prev, hprev, hsame⟩ := hstored r List.mem_cons_self
    refine ih (hset s r prev h hprev hsame) ?_ hrest
    intro r' hr'
    obtain ⟨prev', hprev', hsame'⟩ := hstored r' (List.mem_cons_of_mem _ hr')
    refine ⟨prev', ?_, hsame'⟩
    rw [getRecoveryRequest_set, if_neg ?_]
    · exact hprev'
    · intro hid
      exact hfirst (hid ▸ List.mem_map_of_mem hr')

theorem filed_putAll (h : Filed s)
    (hstored : ∀ r ∈ rs, ∃ prev, s.getRecoveryRequest r.recoveryId = some prev ∧ prev.did = r.did)
    (hnodup : (rs.map RecoveryRequest.recoveryId).Nodup) : Filed (s.putAll rs) := by
  refine putAll_preserves (fun s r prev hs hprev hdid => ?_) h hstored hnodup
  refine filed_set hs (hdid ▸ hs.named _ _ hprev) fun prev' hprev' => ?_
  rw [hprev] at hprev'
  cases hprev'
  exact hdid

/-! ## Requests a loop rewrites -/

/-- Requests of a DID that are selected and rewritten. -/
theorem mem_rewritten {select : RecoveryRequest → Bool} {rewrite : RecoveryRequest → RecoveryRequest} :
    r' ∈ ((s.recoveryRequestsForDID did).filter select).map rewrite ↔
      ∃ r ∈ s.recoveryRequestsForDID did, select r = true ∧ rewrite r = r' := by
  simp only [List.mem_map, List.mem_filter, and_assoc]

/-- Selecting requests of a DID keeps their identifiers apart. -/
theorem filter_nodup (s : Store) (did : Bytes) (test : RecoveryRequest → Bool) :
    (((s.recoveryRequestsForDID did).filter test).map RecoveryRequest.recoveryId).Nodup :=
  (recoveryRequestsForDID_nodup s did).sublist (List.filter_sublist.map _)

theorem stored_of_mem_filter {test : RecoveryRequest → Bool}
    (h : r ∈ (s.recoveryRequestsForDID did).filter test) :
    s.getRecoveryRequest r.recoveryId = some r :=
  stored_of_mem (List.mem_filter.1 h).1

/-- So does rewriting them. -/
theorem rewritten_nodup (s : Store) (did : Bytes) (select : RecoveryRequest → Bool)
    {rewrite : RecoveryRequest → RecoveryRequest}
    (hsame : ∀ r, (rewrite r).recoveryId = r.recoveryId) :
    ((((s.recoveryRequestsForDID did).filter select).map rewrite).map
      RecoveryRequest.recoveryId).Nodup := by
  rw [List.map_map, funext hsame (f := RecoveryRequest.recoveryId ∘ rewrite)]
  exact filter_nodup s did select

/-! ## DIDs contain no separator -/

theorem nulFree_of_validateDID {field : String} (h : validateDID field did = .ok ()) :
    NulFree did := by
  simp only [validateDID, bind_eq_ok, ensure_eq_ok, exists_const] at h
  obtain ⟨-, -, hprefix, -, hchars⟩ := h
  obtain ⟨id, rfl⟩ := List.isPrefixOf_iff_prefix.1 hprefix
  rw [List.drop_left] at hchars
  intro hmem
  rcases List.mem_append.1 hmem with hmem | hmem
  · revert hmem
    decide
  · have hchar : isDIDChar 0 = true := List.all_eq_true.1 hchars 0 hmem
    revert hchar
    decide

theorem nulFree_of_initiate {msg : MsgInitiateRecovery}
    (h : (Action.initiateRecovery msg).validateBasic = .ok ()) : NulFree msg.did := by
  simp only [Action.validateBasic, MsgInitiateRecovery.validateBasic, bind_eq_ok] at h
  obtain ⟨-, -, ⟨⟩, hdid, -⟩ := h
  exact nulFree_of_validateDID hdid

/-- A tallied request keeps its identifier and its DID. -/
theorem filed_tallied {r : RecoveryRequest} (h : Filed s) (hget : s.getRecoveryRequest id = some r)
    (hsame : r'.recoveryId = r.recoveryId ∧ r'.did = r.did) (epochs : OrdMap Bytes Nat) :
    Filed (Store.setRecoveryRequest { s with recoveryTallyEpochs := epochs } r') := by
  have hstored : s.getRecoveryRequest r.recoveryId = some r := by
    rw [recoveryId_of_get hget]
    exact hget
  refine filed_set (filed_congr h rfl rfl) (hsame.2 ▸ h.named id r hget) ?_
  intro prev hprev
  have hprev' : s.getRecoveryRequest r'.recoveryId = some prev := hprev
  rw [hsame.1, hstored] at hprev'
  cases hprev'
  exact hsame.2.symm

/-- Every message keeps the index of requests. -/
theorem filed_of_event (hbasic : a.validateBasic = .ok ()) (hevent : Event k env w a w')
    (h : Filed w.store) : Filed w'.store := by
  cases hevent with
  | registered | rekeyed | restated | issuerSet | issuerRevoked | reparametrised =>
    exact filed_congr h rfl rfl
  | revoked msg doc w₁ hdoc hsigner hstanding hclosed =>
    obtain ⟨_, _, _, hrelease⟩ := releaseRevoked_eq w₁.store msg.did
    dsimp only
    rw [hrelease]
    refine filed_congr (s := w₁.store) ?_ rfl rfl
    rw [hclosed.store]
    exact filed_dropAll (filed_congr h rfl rfl) (fun r hr => stored_of_mem_filter hr)
      (filter_nodup _ _ _)
  | suspended | reinstated =>
    refine filed_putAll (filed_congr h rfl rfl) ?_ (rewritten_nodup _ _ _ fun _ => rfl)
    intro r' hr'
    obtain ⟨r, hmem, -, rfl⟩ := mem_rewritten.1 hr'
    exact ⟨r, stored_of_mem hmem, rfl⟩
  | guarded msg doc =>
    obtain ⟨_, hguarded⟩ := guarded_eq w.store _
    dsimp only
    rw [hguarded]
    exact filed_congr h rfl rfl
  | initiated msg doc initiator w₁ w₂ hdoc hactive hfree hnonce hclosed hid hinitiator hcharged =>
    have hdropped : Filed w₁.store := by
      rw [hclosed.store]
      exact filed_dropAll h (fun r hr => stored_of_mem_filter hr) (filter_nodup _ _ _)
    have hopen : Filed (w₁.store.setRecoveryRequest (msg.request k env w.store.params)) := by
      refine filed_set hdropped (nulFree_of_initiate hbasic) ?_
      intro prev hprev
      rw [hid] at hprev
      cases hprev
    dsimp only
    rw [chargeInitiation_store hcharged]
    exact filed_congr hopen rfl rfl
  | approved msg r hget | rejected msg r gs hget =>
    obtain ⟨_, _, epochs, hsync⟩ := syncTallyEpoch_eq w.store r
    dsimp only
    rw [hsync]
    refine filed_tallied h hget ?_ epochs
    exact ⟨rfl, rfl⟩
  | vetoed msg r gs w₁ hget _ _ _ _ _ hpaid =>
    obtain ⟨_, _, epochs, hsync⟩ := syncTallyEpoch_eq w.store r
    have hstore := forfeitDeposit_store hpaid
    dsimp only at hstore ⊢
    rw [hstore, hsync]
    have hstored := get_own hget
    exact filed_delete (filed_congr h rfl rfl) hstored rfl
  | executed msg r doc w₁ w₂ hget _ _ _ _ hdoc _ _ hpaid hclosed =>
    have hstored := get_own hget
    have hdeleted : Filed (w.store.deleteRecoveryRequest r) := filed_delete h hstored rfl
    have hstore := refundDeposit_store hpaid
    dsimp only at hstore
    rw [hclosed.store]
    dsimp only
    rw [hstore]
    exact filed_dropAll (filed_congr hdeleted rfl rfl) (fun r hr => stored_of_mem_filter hr)
      (filter_nodup _ _ _)
  | cancelled msg r doc w₁ hget _ _ _ _ hpaid =>
    have hstored := get_own hget
    dsimp only
    rw [forfeitDeposit_store hpaid]
    exact filed_delete h hstored rfl

/-! ## Where a stored request comes from -/

/-- A message leaves this request as it is: a suspension passes over those it cannot stamp, a
reinstatement over those without a stamp, and a revocation over closed ones. -/
structure PassedOver (env : Env) (w : World) (a : Action) (r : RecoveryRequest) : Prop where
  held : ∀ msg doc, a = .updateStatus msg → msg.did = r.did →
    w.store.getIdentity msg.did = some doc →
      (doc.status = .active → r.freezes env = false) ∧ (doc.status = .suspended → r.thaws = false)
  standing : ∀ msg, a = .revokeIdentity msg → msg.did = r.did → r.status ≠ .pending

/-- The history of a stored request over one message. -/
inductive Origin (k : Keeper) (env : Env) (w : World) : Action → RecoveryRequest → Prop
  | kept (a : Action) (r : RecoveryRequest)
      (hget : w.store.getRecoveryRequest r.recoveryId = some r) (hpassed : PassedOver env w a r) :
      Origin k env w a r
  | opened (msg : MsgInitiateRecovery) (doc : DIDDocument)
      (hdoc : w.store.getIdentity msg.did = some doc) (hactive : doc.status = .active) :
      Origin k env w (.initiateRecovery msg) (msg.request k env w.store.params)
  | frozen (msg : MsgUpdateStatus) (r : RecoveryRequest) (doc : DIDDocument)
      (hget : w.store.getRecoveryRequest r.recoveryId = some r) (hdid : r.did = msg.did)
      (hdoc : w.store.getIdentity msg.did = some doc) (hold : doc.status = .active)
      (hnew : msg.newStatus = .suspended) (hfreezes : r.freezes env = true) :
      Origin k env w (.updateStatus msg) (r.freeze env.blockTime)
  | thawed (msg : MsgUpdateStatus) (r : RecoveryRequest) (doc : DIDDocument)
      (hget : w.store.getRecoveryRequest r.recoveryId = some r) (hdid : r.did = msg.did)
      (hdoc : w.store.getIdentity msg.did = some doc) (hold : doc.status = .suspended)
      (hnew : msg.newStatus = .active) (hthaws : r.thaws = true) :
      Origin k env w (.updateStatus msg)
        (r.thaw env.blockTime w.store.params.recoveryRequestTtlSeconds)
  | tallied (a : Action) (r : RecoveryRequest) (approvals rejections : List Bytes)
      (hget : w.store.getRecoveryRequest r.recoveryId = some r)
      (hpassed : PassedOver env w a r) (hsocial : r.method ≠ .reauth)
      (hdistinct : r.approvals.Nodup ∧ r.rejections.Nodup → approvals.Nodup ∧ rejections.Nodup) :
      Origin k env w a { r with approvals := approvals, rejections := rejections }

theorem passedOver_of_ne {r : RecoveryRequest} (hstatus : ∀ msg, a ≠ .updateStatus msg)
    (hrevoke : ∀ msg, a ≠ .revokeIdentity msg) :
    PassedOver env w a r :=
  ⟨fun msg _ ha => absurd ha (hstatus msg), fun msg ha => absurd ha (hrevoke msg)⟩

/-- A request of other keys than those a loop writes or removes was stored before. -/
theorem kept_of_get (hget : w.store.getRecoveryRequest id = some r)
    (hpassed : PassedOver env w a r) : Origin k env w a r :=
  Origin.kept a r (get_own hget) hpassed

theorem get_of_dropAll (h : (s.dropAll rs).getRecoveryRequest id = some r) :
    id ∉ rs.map RecoveryRequest.recoveryId ∧ s.getRecoveryRequest id = some r := by
  rw [getRecoveryRequest_dropAll] at h
  split at h
  · cases h
  · rename_i hout
    exact ⟨hout, h⟩

theorem get_of_delete {removed : RecoveryRequest}
    (h : (s.deleteRecoveryRequest removed).getRecoveryRequest id = some r) :
    s.getRecoveryRequest id = some r := by
  rw [getRecoveryRequest_delete] at h
  split at h
  · cases h
  · exact h

/-- The tally brought up to date is the one stored, or empty. -/
theorem nodup_syncTallyEpoch (s : Store) (h : r.approvals.Nodup ∧ r.rejections.Nodup) :
    (s.syncTallyEpoch r).1.approvals.Nodup ∧ (s.syncTallyEpoch r).1.rejections.Nodup := by
  unfold Store.syncTallyEpoch
  split
  · exact h
  · exact ⟨List.nodup_nil, List.nodup_nil⟩

/-- A message that stores a tally changes one request and leaves the others. -/
theorem origin_tallied {r : RecoveryRequest} {epochs : OrdMap Bytes Nat}
    {approvals rejections : List Bytes} (hstored : w.store.getRecoveryRequest r.recoveryId = some r)
    (hpassed : ∀ r, PassedOver env w a r) (hsocial : r.method ≠ .reauth)
    (hdistinct : r.approvals.Nodup ∧ r.rejections.Nodup → approvals.Nodup ∧ rejections.Nodup)
    (hget : (Store.setRecoveryRequest { w.store with recoveryTallyEpochs := epochs }
      { r with approvals := approvals, rejections := rejections }).getRecoveryRequest id = some r') :
    Origin k env w a r' := by
  rw [getRecoveryRequest_set] at hget
  split at hget
  · cases hget
    exact Origin.tallied a r approvals rejections hstored (hpassed r) hsocial hdistinct
  · exact kept_of_get hget (hpassed r')

/-- A change of status keeps a request that it does not rewrite: one it would have rewritten is
listed under the DID. -/
theorem kept_of_updateStatus {doc : DIDDocument} (h : Filed w.store) (hnul : NulFree msg.did)
    (hdoc : w.store.getIdentity msg.did = some doc) (hget : w.store.getRecoveryRequest id = some r')
    (hpassed : r' ∈ w.store.recoveryRequestsForDID msg.did →
      (doc.status = .active → r'.freezes env = false) ∧
        (doc.status = .suspended → r'.thaws = false)) :
    Origin k env w (.updateStatus msg) r' := by
  have hstored := get_own hget
  refine Origin.kept _ r' hstored ⟨?_, nofun⟩
  intro msg' doc' hmsg hdid hdoc'
  cases hmsg
  rw [hdoc] at hdoc'
  cases hdoc'
  exact hpassed ((mem_recoveryRequestsForDID h hnul).2 ⟨hstored, hdid.symm⟩)

/-- A change of status rewrites the requests it selects, and passes over the others. -/
theorem origin_of_rewritten {doc new : DIDDocument} {select : RecoveryRequest → Bool}
    {rewrite : RecoveryRequest → RecoveryRequest} (h : Filed w.store) (hnul : NulFree msg.did)
    (hdoc : w.store.getIdentity msg.did = some doc)
    (hget : ((w.store.setIdentity env new).putAll
      (((w.store.recoveryRequestsForDID msg.did).filter select).map rewrite)).getRecoveryRequest id =
        some r')
    (hsame : ∀ r, (rewrite r).recoveryId = r.recoveryId)
    (hpassed : ∀ r, select r = false → (doc.status = .active → r.freezes env = false) ∧
      (doc.status = .suspended → r.thaws = false))
    (hwritten : ∀ r, w.store.getRecoveryRequest r.recoveryId = some r → r.did = msg.did →
      select r = true → Origin k env w (.updateStatus msg) (rewrite r)) :
    Origin k env w (.updateStatus msg) r' := by
  rcases getRecoveryRequest_putAll hget with hmem | ⟨hout, hget⟩
  · obtain ⟨r, hr, hselect, rfl⟩ := mem_rewritten.1 hmem
    obtain ⟨hstored, hdid⟩ := (mem_recoveryRequestsForDID h hnul).1 hr
    exact hwritten r hstored hdid hselect
  · apply kept_of_updateStatus h hnul hdoc hget
    intro hlisted
    refine hpassed r' (eq_false_of_ne_true fun hselect => hout ?_)
    rw [← recoveryId_of_get hget, ← hsame r']
    exact List.mem_map_of_mem (mem_rewritten.2 ⟨r', hlisted, hselect, rfl⟩)

theorem nulFree_of_updateStatus
    (h : (Action.updateStatus msg).validateBasic = .ok ()) : NulFree msg.did := by
  simp only [Action.validateBasic, MsgUpdateStatus.validateBasic, bind_eq_ok] at h
  obtain ⟨-, -, ⟨⟩, hdid, -⟩ := h
  exact nulFree_of_validateDID hdid

/-- Every request stored after a message has its history over the message. -/
theorem origin_of_event (hbasic : a.validateBasic = .ok ()) (hevent : Event k env w a w')
    (h : Filed w.store)
    (hget : w'.store.getRecoveryRequest id = some r') : Origin k env w a r' := by
  cases hevent with
  | registered | rekeyed | issuerSet | issuerRevoked | reparametrised =>
    exact kept_of_get hget (passedOver_of_ne nofun nofun)
  | revoked msg doc w₁ hdoc hsigner hstanding hclosed =>
    obtain ⟨_, _, _, hrelease⟩ := releaseRevoked_eq w₁.store msg.did
    dsimp only at hget
    rw [hrelease] at hget
    have hget₁ : w₁.store.getRecoveryRequest id = some r' := hget
    rw [hclosed.store] at hget₁
    obtain ⟨hout, hstored⟩ := get_of_dropAll hget₁
    have hid := get_own hstored
    refine Origin.kept _ r' hid ⟨nofun, fun msg' hmsg hdid hpending => ?_⟩
    cases hmsg
    have hnul : NulFree msg.did := hdid ▸ h.named _ _ hid
    have hlisted := (mem_recoveryRequestsForDID h hnul).2 ⟨hid, hdid.symm⟩
    have hmem : r' ∈ (w.store.recoveryRequestsForDID msg.did).filter fun r =>
        r.status = .pending := List.mem_filter.2 ⟨hlisted, decide_eq_true hpending⟩
    exact hout (recoveryId_of_get hstored ▸ List.mem_map_of_mem hmem)
  | suspended msg doc hauthority hdoc hold hnew =>
    refine origin_of_rewritten h (nulFree_of_updateStatus hbasic) hdoc hget (fun _ => rfl) ?_ ?_
    · rw [hold]
      exact fun r hpassed => ⟨fun _ => hpassed, nofun⟩
    · exact fun r hstored hdid => Origin.frozen msg r doc hstored hdid hdoc hold hnew
  | reinstated msg doc hauthority hdoc hold hnew =>
    refine origin_of_rewritten h (nulFree_of_updateStatus hbasic) hdoc hget (fun _ => rfl) ?_ ?_
    · rw [hold]
      exact fun r hpassed => ⟨nofun, fun _ => hpassed⟩
    · exact fun r hstored hdid => Origin.thawed msg r doc hstored hdid hdoc hold hnew
  | restated msg doc hauthority hdoc hold hnew =>
    refine kept_of_get hget ⟨?_, nofun⟩
    intro msg' doc' hmsg _ hdoc'
    cases hmsg
    rw [hdoc] at hdoc'
    cases hdoc'
    rw [hold]
    exact ⟨nofun, nofun⟩
  | guarded msg doc =>
    obtain ⟨_, hguarded⟩ := guarded_eq w.store _
    dsimp only at hget
    rw [hguarded] at hget
    have hstored : w.store.getRecoveryRequest id = some r' := hget
    exact kept_of_get hstored (passedOver_of_ne nofun nofun)
  | initiated msg doc initiator w₁ w₂ hdoc hactive hfree hnonce hclosed hid hinitiator hcharged =>
    have hget₂ : (w₂.store.setRecoveryRequest (msg.request k env w.store.params)
        ).getRecoveryRequest id = some r' := hget
    rw [chargeInitiation_store hcharged, getRecoveryRequest_set] at hget₂
    split at hget₂
    · cases hget₂
      exact Origin.opened msg doc hdoc hactive
    · rw [hclosed.store] at hget₂
      exact kept_of_get (get_of_dropAll hget₂).2 (passedOver_of_ne nofun nofun)
  | approved msg r hstored _ _ hsocial _ hfirst =>
    obtain ⟨approvals, rejections, epochs, hsync⟩ := syncTallyEpoch_eq w.store r
    have hnodup := nodup_syncTallyEpoch (r := r) w.store
    dsimp only at hget
    rw [hsync] at hget hfirst hnodup
    refine origin_tallied (r := r) (get_own hstored) (fun _ => passedOver_of_ne nofun nofun) hsocial
      (fun hstood => ⟨?_, (hnodup hstood).2⟩) hget
    rw [← List.concat_eq_append]
    exact (hnodup hstood).1.concat hfirst
  | rejected msg r gs hstored _ _ hsocial _ hfirst =>
    obtain ⟨approvals, rejections, epochs, hsync⟩ := syncTallyEpoch_eq w.store r
    have hnodup := nodup_syncTallyEpoch (r := r) w.store
    dsimp only at hget
    rw [hsync] at hget hfirst hnodup
    refine origin_tallied (r := r) (get_own hstored) (fun _ => passedOver_of_ne nofun nofun) hsocial
      (fun hstood => ⟨(hnodup hstood).1, ?_⟩) hget
    rw [← List.concat_eq_append]
    exact (hnodup hstood).2.concat hfirst
  | vetoed msg r gs w₁ hstored _ _ _ _ _ hpaid =>
    obtain ⟨_, _, epochs, hsync⟩ := syncTallyEpoch_eq w.store r
    have hstore := forfeitDeposit_store hpaid
    dsimp only at hstore hget
    rw [hstore, hsync] at hget
    have hget₁ : w.store.getRecoveryRequest id = some r' := get_of_delete hget
    exact kept_of_get hget₁ (passedOver_of_ne nofun nofun)
  | executed msg r doc w₁ w₂ hstored _ _ _ _ hdoc _ _ hpaid hclosed =>
    have hstore := refundDeposit_store hpaid
    dsimp only at hstore
    rw [hclosed.store] at hget
    have hget₁ := get_of_delete (get_of_dropAll hget).2
    rw [hstore] at hget₁
    have hget₂ : w.store.getRecoveryRequest id = some r' := hget₁
    exact kept_of_get hget₂ (passedOver_of_ne nofun nofun)
  | cancelled msg r doc w₁ hstored _ _ _ _ hpaid =>
    have hget₁ := get_of_delete hget
    rw [forfeitDeposit_store hpaid] at hget₁
    exact kept_of_get hget₁ (passedOver_of_ne nofun nofun)

end PhiChain.Identity
