import PhiChain.Institutions.Types

/-!
# Institutions: store and keys

The keyspaces of x/institutions, one ordered map each. Roles, approvals and KYC
tiers are keyed by their components, ordered as the byte keys order them; cap
counters, redeem-subject counters, deposit markers and the removal queue are keyed
by the bytes their builders produce, because the sweeps and the genesis import
work on those bytes.

The digest type `D` stands for SHA-256 output. Nothing here assumes that the hash
is injective; results that need it say so.
-/

set_option autoImplicit false

namespace PhiChain.Institutions

open Foundations Sdk

/-- Key of a record that an institution holds about an account. -/
structure PartyKey where
  institution : Bytes
  account : Bytes
  deriving DecidableEq

instance : LinearOrder PartyKey :=
  LinearOrder.lift' (fun k => toLex (bytePrefixed k.institution, k.account)) (by
    rintro ⟨i, a⟩ ⟨i', a'⟩ h
    obtain ⟨hi, rfl⟩ := Prod.mk.inj (toLex_inj.1 h)
    obtain ⟨-, rfl⟩ := List.cons.inj hi
    rfl)

/-- Key of one signer's approval of an action with a given content hash. -/
structure ApprovalKey (D : Type) where
  institution : Bytes
  contentHash : D
  signer : Bytes
  deriving DecidableEq

instance {D : Type} [LinearOrder D] : LinearOrder (ApprovalKey D) :=
  LinearOrder.lift' (fun k => toLex (bytePrefixed k.institution, toLex (k.contentHash, k.signer)))
    (by
      rintro ⟨i, c, a⟩ ⟨i', c', a'⟩ h
      obtain ⟨hi, hrest⟩ := Prod.mk.inj (toLex_inj.1 h)
      obtain ⟨rfl, rfl⟩ := Prod.mk.inj (toLex_inj.1 hrest)
      obtain ⟨-, rfl⟩ := List.cons.inj hi
      rfl)

/-- Two's complement big-endian bytes of a 64-bit integer. -/
def i64be (v : Int) : Bytes := bigEndian 8 (v % 2 ^ 64).toNat

def counterTotalKey (instID kind : Bytes) (day : Int) : Bytes :=
  (0x40 : Byte) :: (bytePrefixed instID ++ bytePrefixed kind ++ i64be day)

def counterUserKey (instID kind : Bytes) (day : Int) (addr : Bytes) : Bytes :=
  counterTotalKey instID kind day ++ addr

def depositKey (instID direction ref : Bytes) : Bytes :=
  (0x50 : Byte) :: (bytePrefixed instID ++ bytePrefixed direction ++ ref)

def redeemSubjectCounterKey (day : Int) (kind : Byte) (subject : Bytes) : Bytes :=
  (0x80 : Byte) :: (i64be day ++ kind :: subject)

def removalQueueKey (id : Bytes) : Bytes := (0xB0 : Byte) :: bytePrefixed id

/-- The length-prefixed id behind a one-byte prefix. -/
def idFromLenPrefixedKey (key : Bytes) (first : Byte) : Option Bytes :=
  match key with
  | p :: l :: rest => if p = first ∧ l.val ≤ rest.length then some (rest.take l.val) else none
  | _ => none

def parseRemovalQueueKey (key : Bytes) : Option Bytes := idFromLenPrefixedKey key 0xB0

def redeemSubjectDID : Byte := 0x01

def redeemSubjectUnidentified : Byte := 0x02

def unidentifiedRedeemSubject : Bytes := ascii "unidentified"

def depositMarkerByte : Byte := 0x01

/-- Counter kinds: daily mint and redeem totals, per user, and the emergency total. -/
def kindMintDaily : Bytes := ascii "md"

def kindMintUser : Bytes := ascii "mu"

def kindRedeemDaily : Bytes := ascii "rd"

def kindRedeemUser : Bytes := ascii "ru"

def kindEmergency : Bytes := ascii "er"

def directionMint : Bytes := ascii "mint"

def directionRedeem : Bytes := ascii "redeem"

/-- Fixed parts of the keeper. -/
structure Keeper (D : Type) where
  authority : Bytes
  sha256 : Bytes → D
  verifySignature : (pubKey message signature : Bytes) → Bool
  marshalParams : InstitutionParams → Bytes

/-- Institution records, each under its own id. -/
structure Registry where
  records : OrdMap Bytes Institution
  keyed : ∀ id inst, records.get? id = some inst → inst.id = id

variable {inst : Institution} {r : Registry}

namespace Registry

def empty : Registry := ⟨∅, fun _ _ h => absurd h (by simp)⟩

def get? (r : Registry) (id : Bytes) : Option Institution := r.records.get? id

def has (r : Registry) (id : Bytes) : Bool := r.records.has id

def set (r : Registry) (inst : Institution) : Registry :=
  ⟨r.records.put inst.id inst, by
    intro id i h
    rw [OrdMap.get?_put] at h
    split at h
    · rename_i hid
      cases h
      exact hid
    · exact r.keyed id i h⟩

def erase (r : Registry) (id : Bytes) : Registry :=
  ⟨r.records.erase id, by
    intro j i h
    rw [OrdMap.get?_erase] at h
    split at h
    · cases h
    · exact r.keyed j i h⟩

/-- Sum of all vault balances in toman. -/
def vaultBalances (r : Registry) : List Int := r.records.entries.map fun e => e.2.vaultBalance

def sumVaultBalance (r : Registry) : Int := r.records.total fun _ inst => inst.vaultBalance

theorem id_of_get? {id : Bytes} (h : r.get? id = some inst) :
    inst.id = id :=
  r.keyed id inst h

theorem get?_set (r : Registry) (inst : Institution) (id : Bytes) :
    (r.set inst).get? id = if inst.id = id then some inst else r.get? id :=
  OrdMap.get?_put _ _ _ _

theorem get?_erase (r : Registry) (id j : Bytes) :
    (r.erase id).get? j = if id = j then none else r.get? j :=
  OrdMap.get?_erase _ _ _

/-- Replacing a record moves the sum by the change of that vault. -/
theorem sumVaultBalance_set {old : Institution} (inst : Institution)
    (h : r.get? inst.id = some old) :
    (r.set inst).sumVaultBalance = r.sumVaultBalance - old.vaultBalance + inst.vaultBalance := by
  unfold sumVaultBalance set
  rw [OrdMap.total_put, OrdMap.total_eq_erase _ h]
  omega

/-- A new record adds its vault to the sum. -/
theorem sumVaultBalance_set_new (inst : Institution) (h : r.get? inst.id = none) :
    (r.set inst).sumVaultBalance = r.sumVaultBalance + inst.vaultBalance := by
  unfold sumVaultBalance set
  rw [OrdMap.total_put, OrdMap.erase_of_get?_none h]
  omega

/-- Removing a record removes its vault from the sum. -/
theorem sumVaultBalance_erase {id : Bytes} (h : r.get? id = some inst) :
    (r.erase id).sumVaultBalance = r.sumVaultBalance - inst.vaultBalance := by
  have htotal := OrdMap.total_eq_erase (fun _ inst => inst.vaultBalance) h
  unfold sumVaultBalance
  rw [htotal]
  show _ = _
  simp only [erase]
  omega

end Registry

/-- State of x/institutions. -/
structure Store (D : Type) [LinearOrder D] where
  params : ValidParams
  institutions : Registry
  roles : OrdMap PartyKey InstitutionRole
  approvals : OrdMap (ApprovalKey D) Nat
  counters : OrdMap Bytes Nat
  deposits : OrdMap Bytes Byte
  fxRequests : OrdMap Bytes FxEntryRequest
  adminEpochs : OrdMap Bytes Nat
  redeemSubjects : OrdMap Bytes Nat
  kycTiers : OrdMap PartyKey Nat
  lastAttestors : OrdMap Bytes Bytes
  pruneCursor : Option Bytes
  removalQueue : OrdMap Bytes Byte

/-- The modules a mint or a redemption writes to. -/
structure World (D : Type) [LinearOrder D] where
  bank : Bank
  coin : Coin.Store
  inst : Store D

variable {D : Type} [LinearOrder D]

namespace Store

/-- Store of the default genesis. -/
def fresh : Store D where
  params := defaultValidParams
  institutions := Registry.empty
  roles := ∅
  approvals := ∅
  counters := ∅
  deposits := ∅
  fxRequests := ∅
  adminEpochs := ∅
  redeemSubjects := ∅
  kycTiers := ∅
  lastAttestors := ∅
  pruneCursor := none
  removalQueue := ∅

def setInstitution (s : Store D) (inst : Institution) : Store D :=
  { s with institutions := s.institutions.set inst }

def getInstitution (s : Store D) (id : Bytes) : Option Institution := s.institutions.get? id

/-- A record found under an id is found under its own. -/
theorem getInstitution_self {s : Store D} {id : Bytes}
    (h : s.getInstitution id = some inst) : s.getInstitution inst.id = some inst := by
  rw [Registry.id_of_get? h]
  exact h

def hasPendingRemoval (s : Store D) (id : Bytes) : Bool := s.removalQueue.has (removalQueueKey id)

def sumVaultBalance (s : Store D) : Int := s.institutions.sumVaultBalance

/-! ## Daily counters

No counter is negative: genesis refuses a negative one, and only positive amounts are
added. -/

def getCounter (s : Store D) (key : Bytes) : Int := s.counters.getD key 0

def addCounter (s : Store D) (key : Bytes) (amt : Int) : Store D :=
  { s with counters := s.counters.put key (s.getCounter key + amt).toNat }

theorem getCounter_nonneg (s : Store D) (key : Bytes) : 0 ≤ s.getCounter key := Int.natCast_nonneg _

def getRedeemSubjectTotal (s : Store D) (day : Int) (kind : Byte) (subject : Bytes) : Int :=
  s.redeemSubjects.getD (redeemSubjectCounterKey day kind subject) 0

def addRedeemSubjectTotal (s : Store D) (day : Int) (kind : Byte) (subject : Bytes) (uphi : Int) :
    Store D :=
  let key := redeemSubjectCounterKey day kind subject
  { s with redeemSubjects :=
      s.redeemSubjects.put key (s.getRedeemSubjectTotal day kind subject + uphi).toNat }

/-! ## Deposit and redemption references -/

def depositSeen (s : Store D) (instID direction ref : Bytes) : Bool :=
  s.deposits.has (depositKey instID direction ref)

def markDeposit (s : Store D) (instID direction ref : Bytes) : Store D :=
  { s with deposits := s.deposits.put (depositKey instID direction ref) depositMarkerByte }

/-! ## Roles -/

def setRole (s : Store D) (instID addr : Bytes) (role : InstitutionRole) : Store D :=
  { s with roles := s.roles.put ⟨instID, addr⟩ role }

/-- Role of an address; no grant is the unspecified role. -/
def getRole (s : Store D) (instID addr : Bytes) : InstitutionRole :=
  s.roles.getD ⟨instID, addr⟩ .unspecified

def deleteRole (s : Store D) (instID addr : Bytes) : Store D :=
  { s with roles := s.roles.erase ⟨instID, addr⟩ }

/-- Role grants of one institution, in key order. -/
def rolesFor (s : Store D) (instID : Bytes) : List RoleGrant :=
  (s.roles.entries.filter fun e => e.1.institution = instID).map fun e =>
    ⟨accAddressString e.1.account, e.2⟩

/-- The root admin named in the record is an admin; everybody else is what was granted. -/
def effectiveRole (s : Store D) (inst : Institution) (signer : Bytes) : InstitutionRole :=
  if accAddressString signer = inst.admin then .admin else s.getRole inst.id signer

def requireRole (s : Store D) (inst : Institution) (signerBech : Bytes)
    (allowed : List InstitutionRole) : Result Unit := do
  let signer ← orFail (accAddressFromBech32 signerBech) ⟨.invalidAddress, "signer"⟩
  ensure (s.effectiveRole inst signer ∈ allowed) ⟨.roleNotAuthorized, "signer role"⟩

theorem requireRole_ok {s : Store D} {signerBech : Bytes} {allowed : List InstitutionRole}
    {u : Unit} :
    s.requireRole inst signerBech allowed = .ok u ↔
      ∃ signer, accAddressFromBech32 signerBech = some signer ∧
        s.effectiveRole inst signer ∈ allowed := by
  simp only [requireRole, bind_eq_ok, ensure_eq_ok, orFail_eq_ok]

/-- Number of distinct admin address strings that decode; those who ask read it in 32 bits. -/
def countAdmins (s : Store D) (inst : Institution) : Nat :=
  let granted := ((s.rolesFor inst.id).filter fun rg => rg.role = .admin).map RoleGrant.address
  ((inst.admin :: granted).filter fun a => (accAddressFromBech32 a).isSome).dedup.length

def effectiveThreshold (s : Store D) (inst : Institution) : Nat :=
  let t := if inst.params.sensitiveThreshold = 0 then defaultSensitiveThreshold
    else inst.params.sensitiveThreshold
  let count := s.countAdmins inst % 2 ^ 32
  let admins := if count = 0 then 1 else count
  if admins < t then admins else t

/-! ## Attestors -/

def setLastAttestor (s : Store D) (instID attestor : Bytes) : Store D :=
  { s with lastAttestors := s.lastAttestors.put instID attestor }

/-- Account that published the attestation in force; an empty record is none. -/
def lastAttestor (s : Store D) (instID : Bytes) : Option Bytes :=
  (s.lastAttestors.get? instID).filter fun a => a ≠ []

/-! ## Approvals of sensitive actions -/

def adminEpoch (s : Store D) (instID : Bytes) : Nat := s.adminEpochs.getD instID 0

def bumpAdminEpoch (s : Store D) (instID : Bytes) : Store D :=
  { s with adminEpochs := s.adminEpochs.put instID (s.adminEpoch instID + 1) }

/-- An approval is stamped with the admin epoch of the moment. -/
def recordApproval (s : Store D) (inst : Institution) (contentHash : D) (signer : Bytes) :
    Store D :=
  { s with approvals := s.approvals.put ⟨inst.id, contentHash, signer⟩ (s.adminEpoch inst.id) }

/-- Signers whose approvals count: stamped with the current epoch, by a current admin. -/
def countedSigners (s : Store D) (inst : Institution) (contentHash : D) : List Bytes :=
  (s.approvals.entries.filter fun e => e.1.institution = inst.id ∧ e.1.contentHash = contentHash ∧
    e.2 = s.adminEpoch inst.id ∧ s.effectiveRole inst e.1.signer = .admin).map fun e => e.1.signer

def countApprovals (s : Store D) (inst : Institution) (contentHash : D) : Nat :=
  (s.countedSigners inst contentHash).length % 2 ^ 32

def clearApprovals (s : Store D) (instID : Bytes) (contentHash : D) : Store D :=
  { s with approvals := s.approvals.eraseAll (s.approvals.keysWhere fun k =>
      k.institution = instID ∧ k.contentHash = contentHash) }

end Store

def Keeper.contentHashOf (k : Keeper D) (parts : List Bytes) : D := k.sha256 (lengthPrefixed parts)

def roleBytes (r : InstitutionRole) : Bytes := bigEndian 4 r.number

/-- Outcome of an aggregated approval. -/
structure SensitiveResult where
  executed : Bool
  approvals : Nat
  threshold : Nat
  deriving DecidableEq

/-- Record an admin's approval and say whether the threshold is reached. -/
def trySensitive (s : Store D) (inst : Institution) (signerBech : Bytes) (contentHash : D) :
    Result (SensitiveResult × Store D) := do
  s.requireRole inst signerBech [.admin]
  let signer ← orFail (accAddressFromBech32 signerBech) ⟨.invalidAddress, "signer"⟩
  let s := s.recordApproval inst contentHash signer
  let approvals := s.countApprovals inst contentHash
  let threshold := s.effectiveThreshold inst
  return (⟨threshold ≤ approvals, approvals, threshold⟩, s)

/-- An approval is recorded for an admin, and nothing else changes. -/
theorem trySensitive_ok {s s' : Store D} {signerBech : Bytes} {ch : D} {r : SensitiveResult}
    (h : trySensitive s inst signerBech ch = .ok (r, s')) :
    ∃ signer, accAddressFromBech32 signerBech = some signer ∧
      s.effectiveRole inst signer = .admin ∧ s' = s.recordApproval inst ch signer ∧
      r = ⟨s'.effectiveThreshold inst ≤ s'.countApprovals inst ch, s'.countApprovals inst ch,
        s'.effectiveThreshold inst⟩ := by
  simp only [trySensitive, bind_eq_ok, Store.requireRole_ok, orFail_eq_ok, pure_eq_ok,
    exists_const] at h
  obtain ⟨⟨signer, hsigner, hrole⟩, signer', hsigner', heq⟩ := h
  obtain rfl : signer = signer' := Option.some.inj (hsigner.symm.trans hsigner')
  obtain ⟨rfl, rfl⟩ := Prod.mk.inj heq
  exact ⟨signer, hsigner, List.mem_singleton.1 hrole, rfl, rfl⟩

end PhiChain.Institutions
