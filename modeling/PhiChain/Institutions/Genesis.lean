import PhiChain.Institutions.Sweeps
import PhiChain.Internal.StoreEntry

/-!
# Institutions: genesis export and import

An export carries the registry, the role grants and the fx requests in structured
form and the other keyspaces entry by entry. Ranged records of an institution whose
removal is still draining are left out, and so are the removal queue and the prune
cursor. The import validates the whole state again and rebuilds the store from
empty; every failed check panics, so the import is a fallible step.
-/

set_option autoImplicit false

namespace PhiChain.Institutions

open Foundations Sdk

variable {D : Type} [LinearOrder D]

structure GenesisState (D : Type) where
  params : Params
  institutions : List Institution
  roleGrants : List (Bytes × RoleGrant)
  fxRequests : List (Bytes × FxEntryRequest)
  depositMarkers : List (Bytes × Byte)
  capCounters : List (Bytes × Int)
  approvals : List (ApprovalKey D × Nat)
  adminEpochs : List (Bytes × Nat)
  redeemSubjects : List (Bytes × Int)
  kycTiers : List (PartyKey × Nat)
  lastAttestors : List (Bytes × Bytes)

/-! ## Export -/

def pendingRemovalSet (s : Store D) : List Bytes :=
  s.removalQueue.entries.filterMap fun e => parseRemovalQueueKey e.1

def exportGenesis (s : Store D) : GenesisState D :=
  let pending := pendingRemovalSet s
  { params := s.params.toParams
    institutions := s.institutions.records.entries.map Prod.snd
    roleGrants := (s.roles.entries.filter fun e => e.1.institution ∉ pending).map fun e =>
      (e.1.institution, ⟨accAddressString e.1.account, e.2⟩)
    fxRequests := s.fxRequests.entries
    depositMarkers := s.deposits.entries
    capCounters := s.counters.entries.map fun e => (e.1, (e.2 : Int))
    approvals := s.approvals.entries.filter fun e => e.1.institution ∉ pending
    adminEpochs := s.adminEpochs.entries
    redeemSubjects := s.redeemSubjects.entries.map fun e => (e.1, (e.2 : Int))
    kycTiers := s.kycTiers.entries.filter fun e => e.1.institution ∉ pending
    lastAttestors := s.lastAttestors.entries }

/-! ## Validation -/

/-- Check a list in order; each check is told whether its key occurred before. -/
def checkEach {α κ : Type} [DecidableEq κ] (key : α → κ) (check : Bool → α → Result Unit) :
    List κ → List α → Result Unit
  | _, [] => .ok ()
  | seen, a :: rest => do
    check (key a ∈ seen) a
    checkEach key check (key a :: seen) rest

/-- A checked list passes each check, and its keys are pairwise distinct when the check refuses
duplicates. -/
theorem checkEach_ok {α κ : Type} [DecidableEq κ] {key : α → κ} {check : Bool → α → Result Unit}
    (hdup : ∀ d a, check d a = .ok () → d = false) {seen : List κ} {l : List α}
    (h : checkEach key check seen l = .ok ()) :
    (∀ a ∈ l, check false a = .ok () ∧ key a ∉ seen) ∧ (l.map key).Nodup := by
  induction l generalizing seen with
  | nil => exact ⟨fun a ha => absurd ha List.not_mem_nil, List.nodup_nil⟩
  | cons a rest ih =>
    simp only [checkEach, bind_eq_ok] at h
    obtain ⟨⟨⟩, hhead, hrest⟩ := h
    obtain ⟨heach, hnodup⟩ := ih hrest
    have hfresh : decide (key a ∈ seen) = false := hdup _ a hhead
    rw [hfresh] at hhead
    refine ⟨?_, ?_⟩
    · intro b hb
      rcases List.mem_cons.1 hb with rfl | hb
      · exact ⟨hhead, of_decide_eq_false hfresh⟩
      · exact ⟨(heach b hb).1, fun hseen => (heach b hb).2 (List.mem_cons_of_mem _ hseen)⟩
    · rw [List.map_cons, List.nodup_cons]
      refine ⟨fun hmem => ?_, hnodup⟩
      obtain ⟨b, hb, hkey⟩ := List.mem_map.1 hmem
      exact (heach b hb).2 (hkey ▸ List.mem_cons_self)

/-- A list with distinct keys is accepted when each of its elements is. -/
theorem checkEach_of_nodup {α κ : Type} [DecidableEq κ] {key : α → κ}
    {check : Bool → α → Result Unit} {seen : List κ} {l : List α}
    (hcheck : ∀ a ∈ l, check false a = .ok ()) (hseen : ∀ a ∈ l, key a ∉ seen)
    (hnodup : (l.map key).Nodup) : checkEach key check seen l = .ok () := by
  induction l generalizing seen with
  | nil => rfl
  | cons a rest ih =>
    obtain ⟨hhead, hnodup⟩ := List.nodup_cons.1 hnodup
    simp only [checkEach, bind_eq_ok, decide_eq_false (hseen a List.mem_cons_self)]
    refine ⟨(), hcheck a List.mem_cons_self, ih ?_ ?_ hnodup⟩
    · exact fun b hb => hcheck b (List.mem_cons_of_mem a hb)
    · intro b hb hmem
      rcases List.mem_cons.1 hmem with hkey | hmem
      · exact hhead (hkey ▸ List.mem_map_of_mem hb)
      · exact hseen b (List.mem_cons_of_mem a hb) hmem

def GenesisState.genesisTimestamps (gs : GenesisState D) : List Int :=
  gs.params.emergencyRedemption.startedAt :: gs.institutions.map Institution.lastAttestedAt

def validateGenesisInstitution (floor : Int) (duplicate : Bool) (inst : Institution) :
    Result Unit := do
  ensure (inst.id ≠ []) ⟨.unregistered, "institution with empty id"⟩
  ensure (inst.id.length ≤ maxInstitutionIDLen) ⟨.unregistered, "id length"⟩
  ensure (duplicate = false) ⟨.unregistered, "duplicate institution id"⟩
  ensure ((accAddressFromBech32 inst.admin).isSome) ⟨.unregistered, "invalid admin address"⟩
  ensure (inst.institutionType = .financial ∨ inst.institutionType = .fx)
    ⟨.unregistered, "invalid institution_type"⟩
  ensure (0 ≤ inst.vaultBalance) ⟨.unregistered, "negative vault_balance"⟩
  ensure (0 ≤ inst.attestedReserve) ⟨.unregistered, "invalid attested_reserve"⟩
  inst.params.validate
  ensure ((inst.params.redeemCapsBelowFloor floor).isNone)
    ⟨.unregistered, "is below the protocol redeem floor"⟩

def validateGenesisRole (ids : List Bytes) (duplicate : Bool) (e : Bytes × RoleGrant) :
    Result Unit := do
  ensure (e.1 ∈ ids) ⟨.unregistered, "role_grant: unknown institution"⟩
  ensure ((accAddressFromBech32 e.2.address).isSome) ⟨.unregistered, "role_grant: invalid address"⟩
  ensure (e.2.role ≠ .unspecified) ⟨.unregistered, "role_grant: invalid role"⟩
  ensure (duplicate = false) ⟨.unregistered, "role_grant: duplicate grant"⟩

def validateGenesisFxRequest (ids : List Bytes) (duplicate : Bool) (e : Bytes × FxEntryRequest) :
    Result Unit := do
  ensure (e.1 ≠ []) ⟨.unregistered, "fx_request: empty fx_id"⟩
  ensure (e.1.length ≤ maxInstitutionIDLen) ⟨.unregistered, "fx_request: fx_id length"⟩
  ensure (duplicate = false) ⟨.unregistered, "fx_request: duplicate fx_id"⟩
  ensure (e.1 ∉ ids) ⟨.unregistered, "fx_request: fx_id is already a registered institution"⟩
  ensure ((accAddressFromBech32 e.2.applicant).isSome)
    ⟨.unregistered, "fx_request: invalid applicant"⟩
  ensure (e.2.guarantorId ≠ []) ⟨.unregistered, "fx_request: empty guarantor_id"⟩
  ensure (e.2.status = .requested ∨ e.2.status = .guaranteed)
    ⟨.unregistered, "fx_request: non-pending status"⟩

/-- The store-entry rule of one keyspace whose values are held decoded: no duplicate key, the key in
the keyspace, the value as its reader expects it. -/
def validateStoreEntry {κ ν : Type} (field : String) (inKeyspace : κ → Bool) (value : ν → Bool)
    (duplicate : Bool) (e : κ × ν) : Result Unit := do
  ensure (duplicate = false) ⟨.unregistered, field ++ ": duplicates"⟩
  ensure (inKeyspace e.1) ⟨.unregistered, field ++ ": key is not under an exported store prefix"⟩
  ensure (value e.2) ⟨.unregistered, field ++ ": value"⟩

/-- Entries of a map that pass the rule of their keyspace are accepted. -/
theorem checkStoreEntries {κ ν : Type} [DecidableEq κ] {field : String} {inKeyspace : κ → Bool}
    {value : ν → Bool} {es : List (κ × ν)} (hnodup : (es.map Prod.fst).Nodup)
    (hes : ∀ e ∈ es, inKeyspace e.1 = true ∧ value e.2 = true) :
    checkEach Prod.fst (validateStoreEntry field inKeyspace value) [] es = .ok () := by
  refine checkEach_of_nodup (fun e he => ?_) (fun _ _ => List.not_mem_nil) hnodup
  simp only [validateStoreEntry, bind_eq_ok, ensure_eq_ok, exists_const]
  exact ⟨trivial, hes e he⟩

/-- The rule of a keyspace on decoded entries is `StoreEntry.validate` on the encoded ones, where the
encoding keeps keys apart, the keys of the keyspace are those that this rule governs, and the values
are short and accepted when they decode to what the reader expects. -/
theorem checkStoreEntries_validate {κ ν : Type} [DecidableEq κ] {field : String}
    {inKeyspace : κ → Bool} {value : ν → Bool} {es : List (κ × ν)} {rules : List StoreEntry.Rule}
    {rule : StoreEntry.Rule} {encode : κ × ν → StoreEntry.KV}
    (hrules : (rules.map StoreEntry.Rule.keyPrefix).Nodup)
    (hkeys : ∀ e ∈ es, ∀ e' ∈ es, (encode e).key = (encode e').key ↔ e.1 = e'.1)
    (hgoverned : ∀ e ∈ es, ∀ r,
      StoreEntry.Governs rules (encode e).key r ↔ inKeyspace e.1 = true ∧ r = rule)
    (hshort : ∀ e ∈ es, (encode e).value.length ≤ StoreEntry.maxValueLen)
    (hvalue : ∀ e ∈ es, rule.accepts (encode e).value ↔ value e.2 = true) :
    isOk (checkEach Prod.fst (validateStoreEntry field inKeyspace value) [] es) =
      isOk (StoreEntry.validate field (es.map encode) rules) := by
  have hrule : ∀ {d e}, validateStoreEntry field inKeyspace value d e = .ok () ↔
      d = false ∧ inKeyspace e.1 = true ∧ value e.2 = true := by
    intro d e
    simp only [validateStoreEntry, bind_eq_ok, ensure_eq_ok, exists_const]
  have hdistinct : ((es.map encode).map StoreEntry.KV.key).Nodup ↔ (es.map Prod.fst).Nodup := by
    unfold List.Nodup
    rw [List.pairwise_map, List.pairwise_map, List.pairwise_map]
    exact List.Pairwise.iff_of_mem fun he he' => not_congr (hkeys _ he _ he')
  have hjudged : (∀ e ∈ es.map encode, StoreEntry.Judged rules e) ↔
      ∀ e ∈ es, inKeyspace e.1 = true ∧ value e.2 = true := by
    rw [List.forall_mem_map]
    refine forall₂_congr fun e he => ?_
    simp only [StoreEntry.Judged, hgoverned e he, ← hvalue e he]
    constructor
    · rintro ⟨-, r, ⟨hunder, rfl⟩, haccepts⟩
      exact ⟨hunder, haccepts⟩
    · rintro ⟨hunder, haccepts⟩
      exact ⟨hshort e he, rule, ⟨hunder, rfl⟩, haccepts⟩
  rw [Bool.eq_iff_iff, StoreEntry.validate_isOk_iff hrules, hdistinct, hjudged, isOk_iff]
  constructor
  · rintro ⟨⟨⟩, h⟩
    obtain ⟨heach, hnodup⟩ := checkEach_ok (fun d e hok => (hrule.1 hok).1) h
    exact ⟨hnodup, fun e he => (hrule.1 (heach e he).1).2⟩
  · rintro ⟨hnodup, heach⟩
    exact ⟨(), checkStoreEntries hnodup heach⟩

/-- Strictly under a one-byte store prefix. -/
def underPrefix (first : Byte) (key : Bytes) : Bool := 1 < key.length ∧ key.head? = some first

/-- What `VerifyAddressFormat` accepts. -/
def verifyAddressFormat (a : Bytes) : Bool := a ≠ [] ∧ a.length ≤ 255

def GenesisState.validate (gs : GenesisState D) : Result Unit := do
  gs.params.validate
  ensure (∀ t ∈ gs.genesisTimestamps, 0 ≤ t) ⟨.unregistered, "is negative"⟩
  let ids := gs.institutions.map Institution.id
  checkEach Institution.id (validateGenesisInstitution (capInt gs.params.redeemFloorPerTx)) []
    gs.institutions
  checkEach (fun e => (e.1, e.2.address)) (validateGenesisRole ids) [] gs.roleGrants
  checkEach Prod.fst (validateGenesisFxRequest ids) [] gs.fxRequests
  checkEach Prod.fst (validateStoreEntry "deposit_markers" (underPrefix 0x50)
    fun v => v = depositMarkerByte) [] gs.depositMarkers
  checkEach Prod.fst (validateStoreEntry "cap_counters" (underPrefix 0x40) fun v => 0 ≤ v) []
    gs.capCounters
  checkEach Prod.fst (validateStoreEntry "approvals" (fun _ => true) fun _ => true) []
    gs.approvals
  checkEach Prod.fst (validateStoreEntry "store_entries" (fun _ => true) fun _ => true) []
    gs.adminEpochs
  checkEach Prod.fst (validateStoreEntry "store_entries" (underPrefix 0x80) fun v => 0 ≤ v) []
    gs.redeemSubjects
  checkEach Prod.fst (validateStoreEntry "store_entries" (fun _ => true) fun _ => true) []
    gs.kycTiers
  -- an attestor key is the bare id behind its prefix, so an empty id is outside the keyspace
  checkEach Prod.fst (validateStoreEntry "store_entries" (fun id => id ≠ []) verifyAddressFormat)
    [] gs.lastAttestors

def GenesisState.validateAtTime (gs : GenesisState D) (blockTime : Int) : Result Unit := do
  gs.validate
  ensure (∀ t ∈ gs.genesisTimestamps, t ≤ blockTime)
    ⟨.unregistered, "is after the genesis block time"⟩

/-! ## Import -/

/-- Entries written one after another. -/
def importEntries {κ ν : Type} [LinearOrder κ] (m : OrdMap κ ν) (entries : List (κ × ν)) :
    OrdMap κ ν :=
  entries.foldl (fun (m : OrdMap κ ν) e => m.put e.1 e.2) m

theorem has_importEntries {κ ν : Type} [LinearOrder κ] {es : List (κ × ν)} {m : OrdMap κ ν} {j : κ} :
    (importEntries m es).has j = true ↔ (∃ e ∈ es, e.1 = j) ∨ m.has j = true := by
  induction es generalizing m with
  | nil => simp [importEntries]
  | cons e rest ih =>
    refine (ih (m := m.put e.1 e.2)).trans ?_
    rw [OrdMap.has_put, List.exists_mem_cons_iff, or_assoc]
    exact or_left_comm

theorem get?_importEntries_of_not_mem {κ ν : Type} [LinearOrder κ] {es : List (κ × ν)}
    (m : OrdMap κ ν) {j : κ} (h : j ∉ es.map Prod.fst) : (importEntries m es).get? j = m.get? j := by
  induction es generalizing m with
  | nil => rfl
  | cons e rest ih =>
    rw [List.map_cons, List.mem_cons, not_or] at h
    exact (ih (m.put e.1 e.2) h.2).trans (OrdMap.get?_put_ne _ _ (Ne.symm h.1))

theorem get?_importEntries_of_mem {κ ν : Type} [LinearOrder κ] {es : List (κ × ν)}
    (hnodup : (es.map Prod.fst).Nodup) (m : OrdMap κ ν) {j : κ} {x : ν} (h : (j, x) ∈ es) :
    (importEntries m es).get? j = some x := by
  induction es generalizing m with
  | nil => cases h
  | cons e rest ih =>
    rw [List.map_cons, List.nodup_cons] at hnodup
    rcases List.mem_cons.1 h with rfl | hrest
    · exact (get?_importEntries_of_not_mem (m.put j x) hnodup.1).trans (OrdMap.get?_put_self _ _ _)
    · exact ih hnodup.2 (m.put e.1 e.2) hrest

/-- Importing the entries of a map over a part of its keys gives the map. -/
theorem importEntries_entries {κ ν : Type} [LinearOrder κ] {m n : OrdMap κ ν}
    (h : ∀ j, m.has j = true → n.has j = true) : importEntries m n.entries = n := by
  refine OrdMap.ext_get? fun j => ?_
  cases hget : n.get? j with
  | some x => exact get?_importEntries_of_mem n.nodup_keys m (OrdMap.mem_entries.2 hget)
  | none =>
    have hout : n.has j = false := OrdMap.has_eq_false.2 hget
    have hkey : j ∉ n.entries.map Prod.fst := fun hmem => by
      rw [OrdMap.mem_keys.1 hmem] at hout
      cases hout
    rw [get?_importEntries_of_not_mem m hkey]
    refine OrdMap.has_eq_false.1 (Bool.eq_false_iff.2 fun hhas => ?_)
    rw [h j hhas] at hout
    cases hout

/-- Importing the entries of a map on an empty one gives the map. -/
theorem importEntries_empty {κ ν : Type} [LinearOrder κ] (n : OrdMap κ ν) :
    importEntries ∅ n.entries = n :=
  importEntries_entries fun _ hhas => absurd hhas Bool.false_ne_true

/-- Write an institution; an unset attestation clock starts now, and the root admin is
recorded as the attestor of the genesis reserve. -/
def importInstitution (now : Int) (s : Store D) (inst : Institution) : Store D :=
  let inst := if inst.lastAttestedAt = 0 then { inst with lastAttestedAt := now } else inst
  let s := s.setInstitution inst
  match accAddressFromBech32 inst.admin with
  | some admin => s.setLastAttestor inst.id admin
  | none => s

def importRole (s : Store D) (e : Bytes × RoleGrant) : Result (Store D) := do
  let addr ← orFail (accAddressFromBech32 e.2.address) ⟨.unregistered, "role_grant"⟩
  return s.setRole e.1 addr e.2.role

/-- Rebuild the store of a genesis on an empty one. -/
def importStore (p : ValidParams) (gs : GenesisState D) (now : Int) : Result (Store D) := do
  let s := gs.institutions.foldl (importInstitution now) { Store.fresh with params := p }
  let s ← gs.roleGrants.foldlM importRole s
  return { s with
    fxRequests := importEntries s.fxRequests gs.fxRequests
    deposits := importEntries s.deposits gs.depositMarkers
    counters := importEntries s.counters (gs.capCounters.map fun e => (e.1, e.2.toNat))
    approvals := importEntries s.approvals gs.approvals
    adminEpochs := importEntries s.adminEpochs gs.adminEpochs
    redeemSubjects :=
      importEntries s.redeemSubjects (gs.redeemSubjects.map fun e => (e.1, e.2.toNat))
    kycTiers := importEntries s.kycTiers gs.kycTiers
    -- the residual entries come last and overwrite the root admin's attribution
    lastAttestors := importEntries s.lastAttestors gs.lastAttestors }

/-- Import of a genesis next to the imported bank and coin state. -/
def initGenesis (ctx : Ctx) (gs : GenesisState D) (bank : Bank) (coin : Coin.Store) :
    Result (World D) :=
  match h : gs.params.validate with
  | .error e => .error e
  | .ok () => do
    gs.validateAtTime ctx.blockTime
    let s ← importStore ⟨gs.params, h⟩ gs ctx.blockTime
    let w : World D := ⟨bank, coin, s⟩
    allInvariants w
    return w

/-! ## What the import rebuilds -/

/-- The import of the records writes institutions and attestors. -/
theorem importInstitutions_frame (now : Int) (is : List Institution) (s : Store D) :
    ∃ institutions attestors, is.foldl (importInstitution now) s =
      { s with
        institutions := institutions
        lastAttestors := attestors } := by
  induction is generalizing s with
  | nil => exact ⟨s.institutions, s.lastAttestors, rfl⟩
  | cons inst rest ih =>
    obtain ⟨institutions, attestors, hrest⟩ := ih (importInstitution now s inst)
    refine ⟨institutions, attestors, hrest.trans ?_⟩
    unfold importInstitution
    dsimp only
    split
    · rfl
    · rfl

theorem importRoles_frame {es : List (Bytes × RoleGrant)} {s s' : Store D}
    (h : es.foldlM importRole s = .ok s') : ∃ roles, s' = { s with roles := roles } := by
  induction es generalizing s with
  | nil =>
    obtain rfl : s = s' := pure_eq_ok.1 h
    exact ⟨s.roles, rfl⟩
  | cons e rest ih =>
    rw [List.foldlM_cons] at h
    obtain ⟨s₁, hfirst, hrest⟩ := bind_eq_ok.1 h
    obtain ⟨roles, rfl⟩ := ih hrest
    simp only [importRole, bind_eq_ok, orFail_eq_ok, pure_eq_ok] at hfirst
    obtain ⟨addr, -, rfl⟩ := hfirst
    exact ⟨roles, rfl⟩

theorem getInstitution_importInstitutions (now : Int) {is : List Institution} {s : Store D}
    {id : Bytes} {inst : Institution}
    (h : (is.foldl (importInstitution now) s).getInstitution id = some inst) :
    (∃ i ∈ is, i.id = id) ∨ s.getInstitution id = some inst := by
  induction is generalizing s with
  | nil => exact Or.inr h
  | cons first rest ih =>
    rcases ih h with ⟨i, hi, hid⟩ | hfirst
    · exact Or.inl ⟨i, List.mem_cons_of_mem _ hi, hid⟩
    · have hwritten : ∃ written : Institution, written.id = first.id ∧
          (importInstitution now s first).institutions = s.institutions.set written := by
        unfold importInstitution
        dsimp only
        split
        · exact ⟨_, by split <;> rfl, rfl⟩
        · exact ⟨_, by split <;> rfl, rfl⟩
      obtain ⟨written, hid, hset⟩ := hwritten
      unfold Store.getInstitution at hfirst ⊢
      rw [hset, Registry.get?_set] at hfirst
      split at hfirst
      · rename_i hsame
        exact Or.inl ⟨first, List.mem_cons_self, hid.symm.trans hsame⟩
      · exact Or.inr hfirst

/-- The store of an accepted genesis: institutions of the list, and the entries on empty
keyspaces. -/
theorem initGenesis_ok {ctx : Ctx} {gs : GenesisState D} {b : Bank} {c : Coin.Store} {w : World D}
    (h : initGenesis ctx gs b c = .ok w) :
    gs.validateAtTime ctx.blockTime = .ok () ∧
      (∀ id inst, w.inst.getInstitution id = some inst → ∃ i ∈ gs.institutions, i.id = id) ∧
      w.inst.fxRequests = importEntries ∅ gs.fxRequests ∧
      w.inst.counters = importEntries ∅ (gs.capCounters.map fun e => (e.1, e.2.toNat)) ∧
      w.inst.redeemSubjects =
        importEntries ∅ (gs.redeemSubjects.map fun e => (e.1, e.2.toNat)) := by
  unfold initGenesis at h
  split at h
  · cases h
  · rename_i hparams
    simp only [importStore, bind_eq_ok, pure_eq_ok] at h
    obtain ⟨⟨⟩, hvalid, s, ⟨s₁, hroles, rfl⟩, ⟨⟩, -, rfl⟩ := h
    obtain ⟨roles, rfl⟩ := importRoles_frame hroles
    obtain ⟨institutions, attestors, hinst⟩ := importInstitutions_frame ctx.blockTime
      gs.institutions ({ Store.fresh with params := ⟨gs.params, hparams⟩ } : Store D)
    refine ⟨hvalid, ?_, ?_, ?_, ?_⟩
    · intro id inst hget
      rcases getInstitution_importInstitutions ctx.blockTime hget with hlisted | hnone
      · exact hlisted
      · cases hnone
    · dsimp only
      rw [hinst]
      rfl
    · dsimp only
      rw [hinst]
      rfl
    · dsimp only
      rw [hinst]
      rfl

end PhiChain.Institutions
