import PhiChain.Identity.Export

/-!
# Identity: imports

An import writes the documents of a genesis one after another and lets the writes rebuild the
derived keyspaces, at the time of the import; the stamps of the eligibility records are put back
from the entries afterwards. Open requests are written with their nonces, and the other keyspaces
entry by entry.

Two indexed directories of the same documents differ in the stamps at most (`Indexed.ext`), so the
order of the writes and the time of the import leave no trace. `Restorable` collects what a store
has to satisfy for its import to give it back, and a run from the default genesis keeps it
(`identity_import_exact`).
-/

set_option autoImplicit false

namespace PhiChain.Identity

open Foundations Sdk
open Institutions (importEntries importEntries_entries importEntries_empty
  get?_importEntries_of_mem get?_importEntries_of_not_mem has_importEntries)

variable {k : Keeper} {env : Env} {w w' : World} {s s' : Store} {a : Action} {id : Bytes}
  {r r' : RecoveryRequest}

/-! ## Derived keyspaces -/

namespace Directory

variable {dir dir' : Directory}

theorem recordsOf_congr (h : dir.identities = dir'.identities) (c : Bytes) :
    dir.recordsOf c = dir'.recordsOf c := by
  simp only [recordsOf, documents, h]

/-- The ages in the records follow from the documents. -/
theorem Indexed.recordedOldest_eq (h : Indexed dir) (h' : Indexed dir')
    (hidentities : dir.identities = dir'.identities) (c : Bytes) :
    dir.recordedOldest c = dir'.recordedOldest c := by
  rw [(h.current c).1, (h'.current c).1, recordsOf_congr hidentities]

/-- The documents and the records with their stamps determine an indexed directory. -/
theorem Indexed.ext (h : Indexed dir) (h' : Indexed dir')
    (hidentities : dir.identities = dir'.identities)
    (heligibility : dir.eligibility = dir'.eligibility) : dir = dir' := by
  have hdocuments : dir.documents = dir'.documents := congrArg (fun m => m.records.values) hidentities
  have hindex : dir.controllerIndex = dir'.controllerIndex := by
    apply OrdMap.ext_has
    intro key
    rw [h.linked.index, h'.linked.index, hdocuments]
  have hmirror : dir.eligibilityByAge = dir'.eligibilityByAge := by
    apply OrdMap.ext_has
    intro key
    -- a key of the mirror is a time and a controller
    have hkey : key = eligibilityByAgeKey (ofLex key).1 (ofLex key).2 := rfl
    rw [hkey, h.mirrored.mirror, h'.mirrored.mirror, h.recordedOldest_eq h' hidentities]
  have htotal : dir.eligibleControllerTotal = dir'.eligibleControllerTotal := by
    rw [h.mirrored.total, h'.mirrored.total, heligibility]
  have hsweep : dir.controllerSweep = dir'.controllerSweep := by
    apply OrdMap.ext_get?
    intro c
    rw [(h.current c).2, (h'.current c).2, recordsOf_congr hidentities]
  obtain ⟨_, _, _, _, _, _⟩ := dir
  obtain ⟨_, _, _, _, _, _⟩ := dir'
  cases hidentities
  cases heligibility
  cases hindex
  cases hmirror
  cases htotal
  cases hsweep
  rfl

/-- Documents written one after another. -/
def replay (now : Int) (ds : List DIDDocument) (dir : Directory) : Directory :=
  ds.foldl (fun dir d => dir.setIdentity now d) dir

theorem identities_replay (now : Int) (ds : List DIDDocument) (dir : Directory) :
    (replay now ds dir).identities = ds.foldl KeyedMap.set dir.identities := by
  induction ds generalizing dir with
  | nil => rfl
  | cons d rest ih =>
    have hrest := ih (dir.setIdentity now d)
    rw [identities_setIdentity] at hrest
    exact hrest

theorem indexed_replay (now : Int) {ds : List DIDDocument} (h : Indexed dir)
    (hds : ∀ d ∈ ds, Nameable d.controller) : Indexed (replay now ds dir) := by
  induction ds generalizing dir with
  | nil => exact h
  | cons d rest ih =>
    apply ih
    · exact indexed_setIdentity h now (hds d List.mem_cons_self)
    · intro d' hd'
      exact hds d' (List.mem_cons_of_mem _ hd')

/-- Stamps that are put back on records of the same age replace the records. -/
theorem foldl_restoreEligibleSince {es : List (Bytes × ControllerEligibility)}
    (hes : ∀ e ∈ es, e.2.eligibleSince ≠ 0 ∧ dir.recordedOldest e.1 = some e.2.oldest) :
    es.foldl restoreEligibleSince dir =
      { dir with eligibility := importEntries dir.eligibility es } := by
  induction es generalizing dir with
  | nil => rfl
  | cons e rest ih =>
    obtain ⟨hstamp, hold⟩ := hes e List.mem_cons_self
    obtain ⟨rebuilt, hget, hage⟩ := Option.map_eq_some_iff.1 hold
    have hfirst : restoreEligibleSince dir e =
        { dir with eligibility := dir.eligibility.put e.1 e.2 } := by
      simp only [restoreEligibleSince, if_neg hstamp, hget, hage]
    rw [List.foldl_cons, hfirst]
    refine ih fun e' he' => ?_
    obtain ⟨hstamp', hold'⟩ := hes e' (List.mem_cons_of_mem _ he')
    refine ⟨hstamp', ?_⟩
    -- the ages are what they were
    simp only [recordedOldest, OrdMap.get?_put]
    split
    · rename_i hsame
      rw [← hsame, hold] at hold'
      exact hold'
    · exact hold'

/-- Replayed on an empty directory, with its stamps put back, an indexed directory comes back. -/
theorem Indexed.restored (h : Indexed dir) (now : Int)
    (hstamped : ∀ c e, dir.eligibility.get? c = some e → e.eligibleSince ≠ 0) :
    dir.eligibility.entries.foldl restoreEligibleSince (replay now dir.documents fresh) = dir := by
  have hindexed : Indexed (replay now dir.documents fresh) :=
    indexed_replay now indexed_fresh h.linked.named
  have hidentities : (replay now dir.documents fresh).identities = dir.identities :=
    (identities_replay now dir.documents fresh).trans dir.identities.foldl_set_values
  have hages := hindexed.recordedOldest_eq h hidentities
  have hentries : ∀ e ∈ dir.eligibility.entries, e.2.eligibleSince ≠ 0 ∧
      (replay now dir.documents fresh).recordedOldest e.1 = some e.2.oldest := by
    intro e he
    have hget : dir.eligibility.get? e.1 = some e.2 := OrdMap.mem_entries.1 he
    exact ⟨hstamped e.1 e.2 hget, (hages e.1).trans (recordedOldest_of_get? hget)⟩
  have hback : importEntries (replay now dir.documents fresh).eligibility dir.eligibility.entries =
      dir.eligibility := by
    apply importEntries_entries
    intro c hhas
    -- both have a record of the controller, or neither has
    obtain ⟨rebuilt, hget⟩ := OrdMap.has_iff.1 hhas
    have hold := (hages c).symm.trans (recordedOldest_of_get? hget)
    obtain ⟨e, he, -⟩ := Option.map_eq_some_iff.1 hold
    exact OrdMap.has_iff.2 ⟨e, he⟩
  have hrestored := foldl_restoreEligibleSince hentries
  refine Indexed.ext ?_ h ?_ ?_
  · exact indexed_foldl_restoreEligibleSince hindexed
  · rw [hrestored]
    exact hidentities
  · rw [hrestored]
    exact hback

end Directory

/-! ## The import in closed form -/

theorem foldl_importIdentity (env : Env) (ds : List DIDDocument) (s : Store) :
    ds.foldl (importIdentity env) s =
      { s with
        directory := Directory.replay env.blockTime ds s.directory
        uniqueness := importEntries s.uniqueness (ds.map fun d => (d.uniquenessHash, d.did)) } := by
  induction ds generalizing s with
  | nil => rfl
  | cons d rest ih => exact ih (importIdentity env s d)

theorem foldl_opened (rs : List RecoveryRequest) (s : Store) :
    rs.foldl Store.opened s =
      { s with
        recoveries := rs.foldl KeyedMap.set s.recoveries
        recoveriesByDID := importEntries s.recoveriesByDID
          (rs.map fun r => (nulKey r.did r.recoveryId, ()))
        recoveryNonces := importEntries s.recoveryNonces
          (rs.map fun r => (nulKey r.did r.nonce, ())) } := by
  induction rs generalizing s with
  | nil => rfl
  | cons r rest ih => exact ih (s.opened r)

theorem importStore_eq (env : Env) (gs : GenesisState) :
    importStore env gs =
      { params := gs.params
        identityCount := gs.identityCount
        directory := gs.controllerEligibility.foldl restoreEligibleSince
          (Directory.replay env.blockTime gs.identities .fresh)
        uniqueness := importEntries ∅ (gs.identities.map fun d => (d.uniquenessHash, d.did))
        didToValidator := importEntries ∅ gs.didToValidator
        validatorToDID := importEntries ∅ gs.validatorToDID
        trustedIssuers := gs.trustedIssuers.foldl KeyedMap.set ∅
        issuerNonces := importEntries ∅ gs.issuerNonces
        guardians := gs.guardianSets.foldl KeyedMap.set ∅
        recoveries := gs.recoveryRequests.foldl KeyedMap.set ∅
        recoveriesByDID := importEntries ∅
          (gs.recoveryRequests.map fun r => (nulKey r.did r.recoveryId, ()))
        recoveryNonces := importEntries
          (importEntries ∅ (gs.recoveryRequests.map fun r => (nulKey r.did r.nonce, ())))
          gs.recoveryNonces
        guardianEpochs := importEntries ∅ gs.guardianEpochs
        recoveryTallyEpochs := importEntries ∅ gs.recoveryTallyEpochs } := by
  simp only [importStore, importRecords, foldl_importIdentity, foldl_opened]
  rfl

/-! ## A store that its export gives back -/

/-- What the import relies on: derived keyspaces that follow from the records, stamps that are
set, and requests that are all open and have used up their nonces. -/
structure Restorable (s : Store) : Prop where
  filed : Filed s
  indexed : s.directory.Indexed
  oneEach : OneEach s
  pending : AllPending s
  stamped : ∀ c e, s.directory.eligibility.get? c = some e → e.eligibleSince ≠ 0
  spent : ∀ id r, s.getRecoveryRequest id = some r →
    s.recoveryNonces.has (nulKey r.did r.nonce) = true

section Restore

variable (h : Restorable s)
include h

theorem Restorable.exported_requests : (exportGenesis s).recoveryRequests = s.recoveries.values := by
  refine List.filter_eq_self.2 fun r hr => decide_eq_true ?_
  exact h.pending _ r (KeyedMap.mem_values.1 hr)

theorem Restorable.uniqueness_eq :
    importEntries ∅ (s.directory.documents.map fun d => (d.uniquenessHash, d.did)) =
      s.uniqueness := by
  have hnodup : ((s.directory.documents.map fun d => (d.uniquenessHash, d.did)).map
      Prod.fst).Nodup := by
    rw [List.map_map]
    exact h.oneEach.nodup_hashes
  apply OrdMap.ext_get?
  intro hash
  cases hget : s.uniqueness.get? hash with
  | some did =>
    obtain ⟨doc, hdoc, rfl⟩ := (h.oneEach.marker hash did).1 hget
    obtain rfl := did_of_getIdentity hdoc
    apply get?_importEntries_of_mem hnodup
    exact List.mem_map.2 ⟨doc, Directory.mem_documents.2 hdoc, rfl⟩
  | none =>
    refine get?_importEntries_of_not_mem ∅ fun hmem => ?_
    rw [List.map_map] at hmem
    obtain ⟨doc, hdoc, rfl⟩ := List.mem_map.1 hmem
    have hmarker := (h.oneEach.marker _ _).2 ⟨doc, Directory.mem_documents.1 hdoc, rfl⟩
    cases hget.symm.trans hmarker

/-- The index of requests has one key per request. -/
theorem Restorable.recoveriesByDID_eq :
    importEntries ∅ (s.recoveries.values.map fun r => (nulKey r.did r.recoveryId, ())) =
      s.recoveriesByDID := by
  apply OrdMap.ext_has
  intro key
  rw [h.filed.index, has_importEntries]
  constructor
  · rintro (⟨e, he, rfl⟩ | hempty)
    · obtain ⟨r, hr, rfl⟩ := List.mem_map.1 he
      exact ⟨r.recoveryId, r, KeyedMap.mem_values.1 hr, rfl⟩
    · cases hempty
  · rintro ⟨id, r, hget, rfl⟩
    exact Or.inl ⟨_, List.mem_map.2 ⟨r, KeyedMap.mem_values.2 (get_own hget), rfl⟩, rfl⟩

theorem Restorable.recoveryNonces_eq :
    importEntries (importEntries ∅ (s.recoveries.values.map fun r => (nulKey r.did r.nonce, ())))
      s.recoveryNonces.entries = s.recoveryNonces := by
  apply importEntries_entries
  intro key hhas
  rcases has_importEntries.1 hhas with ⟨e, he, rfl⟩ | hempty
  · obtain ⟨r, hr, rfl⟩ := List.mem_map.1 he
    exact h.spent _ r (KeyedMap.mem_values.1 hr)
  · cases hempty

/-- The import of the export is the store. -/
theorem Restorable.importStore_exportGenesis (env : Env) : importStore env (exportGenesis s) = s := by
  rw [importStore_eq, h.exported_requests]
  simp only [exportGenesis]
  rw [h.indexed.restored env.blockTime h.stamped, h.uniqueness_eq, h.recoveriesByDID_eq,
    h.recoveryNonces_eq, importEntries_empty, importEntries_empty, importEntries_empty,
    importEntries_empty, importEntries_empty, KeyedMap.foldl_set_values, KeyedMap.foldl_set_values,
    KeyedMap.foldl_set_values]

end Restore

/-! ## Runs -/

/-- Nonces of recoveries are used up by initiations, and stay so. -/
theorem recoveryNonces_of_event (hevent : Event k env w a w') :
    w'.store.recoveryNonces = w.store.recoveryNonces ∨
      ∃ msg, a = .initiateRecovery msg ∧
        w'.store.recoveryNonces = w.store.recoveryNonces.put (nulKey msg.did msg.nonce) () := by
  obtain ⟨base, hbasis, _, _, _, hstore⟩ := basis_of_event hevent
  rw [hstore]
  cases hbasis with
  | kept | registered | wrote | issuerSet | issuerRevoked | reparametrised => exact Or.inl rfl
  | revoked msg doc hdoc =>
    obtain ⟨_, _, _, hrelease⟩ :=
      releaseRevoked_eq (w.store.setIdentity env (doc.withStatus .revoked)) msg.did
    rw [hrelease]
    exact Or.inl rfl
  | guarded msg =>
    obtain ⟨_, hguarded⟩ := guarded_eq w.store
      ⟨msg.did, msg.commitments, msg.threshold, env.blockTime⟩
    rw [hguarded]
    exact Or.inl rfl
  | initiated msg => exact Or.inr ⟨msg, rfl, rfl⟩

theorem recoveryNonces_kept {key : Bytes} (hevent : Event k env w a w')
    (h : w.store.recoveryNonces.has key = true) : w'.store.recoveryNonces.has key = true := by
  rcases recoveryNonces_of_event hevent with hsame | ⟨msg, -, hput⟩
  · rw [hsame]
    exact h
  · rw [hput]
    exact OrdMap.has_put.2 (Or.inr h)

section Step

variable (h : Restorable w.store) (hevent : Event k env w a w')
include h hevent

theorem Restorable.step_spent (hbasic : a.validateBasic = .ok ())
    (hget : w'.store.getRecoveryRequest id = some r') :
    w'.store.recoveryNonces.has (nulKey r'.did r'.nonce) = true := by
  cases origin_of_event hbasic hevent h.filed hget with
  | kept _ _ hbefore => exact recoveryNonces_kept hevent (h.spent _ r' hbefore)
  | opened msg =>
    cases hevent with
    | initiated => exact OrdMap.has_put.2 (Or.inl rfl)
  | frozen msg r _ hbefore | thawed msg r _ hbefore | tallied _ r _ _ hbefore =>
    exact recoveryNonces_kept hevent (h.spent _ r hbefore)

/-- A record keeps its stamp, or is stamped with the time of the message. -/
theorem Restorable.step_stamped (htime : 0 < env.blockTime) {c : Bytes} {e : ControllerEligibility}
    (hget : w'.store.directory.eligibility.get? c = some e) : e.eligibleSince ≠ 0 := by
  rcases (summary_of_event hevent).directory with hsame | ⟨d, -, hset⟩
  · rw [hsame] at hget
    exact h.stamped c e hget
  · rw [hset] at hget
    rcases Directory.since_setIdentity h.indexed.linked _ d hget with ⟨prev, hprev, -, hkept⟩ |
      ⟨hnow, -⟩
    · rw [hkept]
      exact h.stamped c prev hprev
    · rw [hnow]
      exact Int.ne_of_gt htime

end Step

/-- Hooks and sweeps touch nothing of it. -/
theorem Restorable.rebound (h : Restorable s) (hrebound : Rebound s s') : Restorable s' := by
  obtain ⟨toValidator, toDID, rfl⟩ : ∃ toValidator toDID,
      s' = { s with didToValidator := toValidator, validatorToDID := toDID } := ⟨_, _, hrebound⟩
  exact ⟨filed_congr h.filed rfl rfl, h.indexed, ⟨h.oneEach.marker, h.oneEach.count⟩, h.pending,
    h.stamped, h.spent⟩

theorem Restorable.event (h : Restorable w.store) (hbasic : a.validateBasic = .ok ())
    (hevent : Event k env w a w') (hsound : Sound Nameable w'.store) (htime : 0 < env.blockTime) :
    Restorable w'.store where
  filed := hsound.filed
  indexed := hsound.indexed
  oneEach := oneEach_of_event hevent h.oneEach
  pending := allPending_of_event hbasic hevent h.filed h.pending
  stamped _ _ hget := h.step_stamped hevent htime hget
  spent _ _ hget := h.step_spent hevent hbasic hget

theorem restorable_emptyRegistry (k : Keeper) (bank : Bank) (params : Params) :
    Restorable (emptyRegistry bank params).store where
  filed := filed_of_empty rfl rfl
  indexed := Directory.indexed_fresh
  oneEach := oneEach_of_run k bank params []
  pending _ _ hget := by cases hget
  stamped _ _ hget := by cases hget
  spent _ _ hget := by cases hget

/-- A message at a positive time; hooks and sweeps write no record that is stamped. -/
def ValidatorAction.positiveTime : ValidatorAction → Bool
  | .message tx => 0 < tx.env.blockTime
  | _ => true

theorem restorable_of_apply {v v' : ValidatorWorld} {minSelfStake : Int} {a : ValidatorAction}
    (htime : a.positiveTime = true) (hv : BindingsSound v) (h : Restorable v.world.store)
    (happly : applyValidator k minSelfStake v a = .ok v') : Restorable v'.world.store := by
  have hsound := (bindingsSound_of_apply hv happly).sound
  rcases bindings_of_hook hv happly with ⟨tx, w, rfl, hw, rfl⟩ | ⟨hrebound, -⟩
  · obtain ⟨hbasic, hevent⟩ := event_of_apply hw
    exact h.event hbasic hevent hsound (of_decide_eq_true htime)
  · exact h.rebound hrebound

theorem restorable_of_run {v : ValidatorWorld} {minSelfStake : Int} {as : List ValidatorAction}
    (htimes : ∀ a ∈ as, a.positiveTime = true) (hv : BindingsSound v)
    (h : Restorable v.world.store) :
    Restorable (run (validatorStep k minSelfStake) v as).world.store := by
  refine (@run_preserves _ _ (validatorStep k minSelfStake) (fun _ a => a.positiveTime = true)
    (fun v => BindingsSound v ∧ Restorable v.world.store) ?_ _ ⟨hv, h⟩ _ (along_of_forall htimes)).2
  intro v a htime ⟨hv, h⟩
  refine commit_preserves (p := fun v => BindingsSound v ∧ Restorable v.world.store) ⟨hv, h⟩
    fun v' happly => ?_
  exact ⟨bindingsSound_of_apply hv happly, restorable_of_apply htime hv h happly⟩

/-- In every run from the default genesis at positive times, with any founding set, an accepted
export imports to the store it was taken of: at any time, next to any bank, and with every
keyspace as it was. -/
theorem identity_import_exact (k : Keeper) (minSelfStake : Int) (bank : Bank)
    (operators : List Operator) {as : List ValidatorAction}
    (htimes : ∀ a ∈ as, a.positiveTime = true)
    (hvalid : (exportGenesis (run (validatorStep k minSelfStake)
      ⟨emptyRegistry bank defaultParams, operators⟩ as).world.store).validate k = .ok ())
    (env : Env) (bank' : Bank) :
    initGenesis k env (exportGenesis (run (validatorStep k minSelfStake)
        ⟨emptyRegistry bank defaultParams, operators⟩ as).world.store) bank' =
      .ok ⟨bank', (run (validatorStep k minSelfStake)
        ⟨emptyRegistry bank defaultParams, operators⟩ as).world.store⟩ := by
  have hrestorable := @restorable_of_run k _ minSelfStake as htimes
    (bindingsSound_emptyRegistry bank defaultParams operators)
    (restorable_emptyRegistry k bank defaultParams)
  rw [initGenesis_of_validate (isOk_iff.2 ⟨(), hvalid⟩), hrestorable.importStore_exportGenesis]

/-- The first DID is guarded, asked for and bound to a validator, and imported at time zero. -/
theorem identity_import_exact_small :
    initGenesis recoveryKeeper (smallEnv 0) (exportedAfter (guardedStart ++
        [.message ⟨smallEnv 4, reparametrise smallParams⟩, .message ⟨smallEnv 5, recoverFirst 24 9⟩,
          .createValidator 6 ⟨[21], by decide, by decide⟩ (some 1)])) ⟨∅, ∅⟩ =
      .ok ⟨⟨∅, ∅⟩, (run (validatorStep recoveryKeeper 1) ⟨emptyRegistry ⟨∅, ∅⟩ defaultParams, []⟩
        (guardedStart ++ [.message ⟨smallEnv 4, reparametrise smallParams⟩,
          .message ⟨smallEnv 5, recoverFirst 24 9⟩,
          .createValidator 6 ⟨[21], by decide, by decide⟩ (some 1)])).world.store⟩ :=
  identity_import_exact recoveryKeeper 1 ⟨∅, ∅⟩ [] (by decide +kernel) (by decide +kernel)
    (smallEnv 0) ⟨∅, ∅⟩

end PhiChain.Identity
