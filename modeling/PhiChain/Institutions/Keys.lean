import PhiChain.Foundations.Framing
import PhiChain.Institutions.Caps
import PhiChain.Institutions.Removal

/-!
# Institutions: store keys

The keys of roles, approvals, KYC tiers, counters, deposit markers, admin epochs and queued
removals share one layout: a byte that names the kind of record, the institution's id behind one
byte of length, and what else the record is keyed by. `StoreKey` lists them with their fields
within the widths of their encodings.

A key is taken apart again into these three parts (`parts_of_encode`), so keys of different
kinds, institutions or fields differ, no key lies in the range of another institution, and the
parsers return what a key was built from.
-/

set_option autoImplicit false

namespace PhiChain.Institutions

open Foundations Sdk

/-! ## Builders -/

def holderKycTierKey (instID holder : Bytes) : Bytes := (0xA0 : Byte) :: bytePrefixed instID ++ holder

def adminEpochKey (instID : Bytes) : Bytes := (0x70 : Byte) :: bytePrefixed instID

def roleKey (instID addr : Bytes) : Bytes := (0x20 : Byte) :: bytePrefixed instID ++ addr

def approvalKey (instID contentHash signer : Bytes) : Bytes :=
  (0x30 : Byte) :: bytePrefixed instID ++ contentHash ++ signer

/-- Range of the approvals of one action. -/
def approvalPrefixFor (instID contentHash : Bytes) : Bytes :=
  (0x30 : Byte) :: bytePrefixed instID ++ contentHash

/-- A text that one byte of length can frame: an id, a counter kind, a direction. -/
@[ext] structure ShortName where
  bytes : Bytes
  short : bytes.length ≤ maxInstitutionIDLen

example : ∀ name ∈ [kindMintDaily, kindMintUser, kindRedeemDaily, kindRedeemUser, kindEmergency,
    directionMint, directionRedeem], name.length ≤ maxInstitutionIDLen := by decide

/-- A digest of 32 bytes. -/
@[ext] structure ContentHash where
  bytes : Bytes
  width : bytes.length = 32

/-- A day number in 64 bits. -/
@[ext] structure DayIndex where
  value : Int
  signed : InInt64 value

theorem ShortName.lt (name : ShortName) : name.bytes.length < 256 := Nat.lt_succ_of_le name.short

/-- The eight bytes of a day name it, also before 1970. -/
theorem DayIndex.eq_of_i64be {day day' : DayIndex} (h : i64be day.value = i64be day'.value) :
    day = day' := by
  apply DayIndex.ext
  rw [← ofI64be_i64be day.signed, ← ofI64be_i64be day'.signed, h]

inductive StoreKey where
  | role (id : ShortName) (addr : Bytes)
  | approval (id : ShortName) (contentHash : ContentHash) (signer : Bytes)
  | holderKycTier (id : ShortName) (holder : Bytes)
  | counterTotal (id kind : ShortName) (day : DayIndex)
  | counterUser (id kind : ShortName) (day : DayIndex) (addr : Bytes)
  | deposit (id direction : ShortName) (ref : Bytes)
  | adminEpoch (id : ShortName)
  | removalQueue (id : ShortName)

namespace StoreKey

/-- The bytes of a key, from the builder of its kind. -/
def encode : StoreKey → Bytes
  | role id addr => roleKey id.bytes addr
  | approval id contentHash signer => approvalKey id.bytes contentHash.bytes signer
  | holderKycTier id holder => holderKycTierKey id.bytes holder
  | counterTotal id kind day => counterTotalKey id.bytes kind.bytes day.value
  | counterUser id kind day addr => counterUserKey id.bytes kind.bytes day.value addr
  | deposit id direction ref => depositKey id.bytes direction.bytes ref
  | adminEpoch id => adminEpochKey id.bytes
  | removalQueue id => removalQueueKey id.bytes

/-- The institution a key belongs to. -/
def institution : StoreKey → ShortName
  | role id _ | approval id _ _ | holderKycTier id _ | counterTotal id _ _ | counterUser id _ _ _
  | deposit id _ _ | adminEpoch id | removalQueue id => id

/-- The byte that names the kind of record. -/
def first : StoreKey → Byte
  | role _ _ => 0x20
  | approval _ _ _ => 0x30
  | holderKycTier _ _ => 0xA0
  | counterTotal _ _ _ | counterUser _ _ _ _ => 0x40
  | deposit _ _ _ => 0x50
  | adminEpoch _ => 0x70
  | removalQueue _ => 0xB0

/-- What follows the institution. -/
def rest : StoreKey → Bytes
  | role _ addr => addr
  | approval _ contentHash signer => contentHash.bytes ++ signer
  | holderKycTier _ holder => holder
  | counterTotal _ kind day => bytePrefixed kind.bytes ++ i64be day.value
  | counterUser _ kind day addr => bytePrefixed kind.bytes ++ (i64be day.value ++ addr)
  | deposit _ direction ref => bytePrefixed direction.bytes ++ ref
  | adminEpoch _ | removalQueue _ => []

/-- A total is the counter of the user with the empty address. -/
def canonical : StoreKey → StoreKey
  | counterTotal id kind day => counterUser id kind day []
  | key => key

/-! ## The parts of a key -/

section Parts

variable {key key' : StoreKey}

theorem encode_eq (key : StoreKey) :
    key.encode = key.first :: (bytePrefixed key.institution.bytes ++ key.rest) := by
  cases key with
  | role | holderKycTier => rfl
  | approval | counterTotal | deposit => exact congrArg _ (List.append_assoc _ _ _)
  | counterUser id kind day addr => exact counterUserKey_eq _ _ _ _
  | adminEpoch | removalQueue => exact congrArg _ (List.append_nil _).symm

/-- Equal keys have equal parts. -/
theorem parts_of_encode (h : key.encode = key'.encode) :
    key.first = key'.first ∧ key.institution = key'.institution ∧ key.rest = key'.rest := by
  rw [encode_eq, encode_eq] at h
  obtain ⟨hfirst, htail⟩ := List.cons.inj h
  obtain ⟨hid, hrest⟩ := bytePrefixed_append_inj key.institution.lt key'.institution.lt htail
  exact ⟨hfirst, ShortName.ext hid, hrest⟩

theorem encode_canonical (key : StoreKey) : key.canonical.encode = key.encode := by
  cases key with
  | counterTotal id kind day => exact (counterTotalKey_eq _ _ _).symm
  | _ => rfl

/-- The kind and the day of a counter, and the account behind them. -/
theorem counterFields_of_rest {kind kind' : ShortName} {day day' : DayIndex} {addr addr' : Bytes}
    (h : bytePrefixed kind.bytes ++ (i64be day.value ++ addr) =
      bytePrefixed kind'.bytes ++ (i64be day'.value ++ addr')) :
    kind = kind' ∧ day = day' ∧ addr = addr' := by
  obtain ⟨hkind, hrest⟩ := bytePrefixed_append_inj kind.lt kind'.lt h
  obtain ⟨hday, haddr⟩ := List.append_inj hrest (by rw [length_i64be, length_i64be])
  exact ⟨ShortName.ext hkind, DayIndex.eq_of_i64be hday, haddr⟩

/-- The parts of a key fix its kind and its fields. -/
theorem eq_of_parts (hcanonical : key.canonical = key) (hcanonical' : key'.canonical = key')
    (hfirst : key.first = key'.first) (hid : key.institution = key'.institution)
    (hrest : key.rest = key'.rest) : key = key' := by
  cases key with
  | role id addr =>
    cases key' with
    | role id' addr' =>
      cases hid
      cases hrest
      rfl
    | _ => simp [first] at hfirst
  | approval id contentHash signer =>
    cases key' with
    | approval id' contentHash' signer' =>
      cases hid
      -- the digest has a fixed width, so it ends where the signer starts
      obtain ⟨hhash, hsigner⟩ := List.append_inj hrest
        (contentHash.width.trans contentHash'.width.symm)
      rw [ContentHash.ext hhash, hsigner]
    | _ => simp [first] at hfirst
  | holderKycTier id holder =>
    cases key' with
    | holderKycTier id' holder' =>
      cases hid
      cases hrest
      rfl
    | _ => simp [first] at hfirst
  | counterTotal id kind day => cases hcanonical
  | counterUser id kind day addr =>
    cases key' with
    | counterTotal id' kind' day' => cases hcanonical'
    | counterUser id' kind' day' addr' =>
      cases hid
      obtain ⟨rfl, rfl, rfl⟩ := counterFields_of_rest hrest
      rfl
    | _ => simp [first] at hfirst
  | deposit id direction ref =>
    cases key' with
    | deposit id' direction' ref' =>
      cases hid
      obtain ⟨hdirection, href⟩ := bytePrefixed_append_inj direction.lt direction'.lt hrest
      rw [ShortName.ext hdirection, href]
    | _ => simp [first] at hfirst
  | adminEpoch id =>
    cases key' with
    | adminEpoch id' =>
      cases hid
      rfl
    | _ => simp [first] at hfirst
  | removalQueue id =>
    cases key' with
    | removalQueue id' =>
      cases hid
      rfl
    | _ => simp [first] at hfirst

theorem canonical_canonical (key : StoreKey) : key.canonical.canonical = key.canonical := by
  cases key <;> rfl

theorem canonical_of_encode (h : key.encode = key'.encode) : key.canonical = key'.canonical := by
  rw [← encode_canonical key, ← encode_canonical key'] at h
  obtain ⟨hfirst, hid, hrest⟩ := parts_of_encode h
  exact eq_of_parts key.canonical_canonical key'.canonical_canonical hfirst hid hrest

/-- A range that starts with an id behind its length holds the keys of that institution only. -/
theorem institution_of_isPrefix {id : ShortName} {b : Byte}
    (h : (b :: bytePrefixed id.bytes) <+: key.encode) : id = key.institution := by
  rw [encode_eq, List.cons_prefix_cons] at h
  exact ShortName.ext ((bytePrefixed_isPrefix_iff id.lt key.institution.lt key.rest).1 h.2)

/-- The id behind the first byte is read back from every key. -/
theorem idFromLenPrefixedKey_encode (key : StoreKey) :
    idFromLenPrefixedKey key.encode key.first = some key.institution.bytes := by
  have hlen : (Fin.ofNat 256 key.institution.bytes.length).val = key.institution.bytes.length :=
    Nat.mod_eq_of_lt key.institution.lt
  rw [encode_eq, bytePrefixed, List.cons_append]
  unfold idFromLenPrefixedKey
  dsimp only
  rw [hlen, if_pos ⟨rfl, by rw [List.length_append]; omega⟩, List.take_left]

end Parts

/-- Two keys are equal only if they are of one kind and built from the same fields, a total being
the user counter of an empty address; no key lies under an iteration range of another institution;
and the parsers return the kind, the day and the id that a key was built from. -/
theorem store_keys_separated :
    (∀ key key' : StoreKey, key.encode = key'.encode → key.canonical = key'.canonical) ∧
    (∀ (key : StoreKey) (id : ShortName), id ≠ key.institution →
      (∀ range ∈ perInstitutionRangePrefixes id.bytes, ¬ range <+: key.encode) ∧
        ∀ contentHash, ¬ approvalPrefixFor id.bytes contentHash <+: key.encode) ∧
    (∀ (id kind : ShortName) (day : DayIndex) (addr : Bytes),
      parseCounterKeyDay (counterTotal id kind day).encode = some (kind.bytes, day.value) ∧
        parseCounterKeyDay (counterUser id kind day addr).encode = some (kind.bytes, day.value)) ∧
    (∀ id : ShortName, parseRemovalQueueKey (removalQueue id).encode = some id.bytes) ∧
    ∀ key : StoreKey, idFromLenPrefixedKey key.encode key.first = some key.institution.bytes := by
  refine ⟨fun key key' h => canonical_of_encode h, fun key id hother => ⟨?_, ?_⟩,
    fun id kind day addr => ⟨?_, ?_⟩, fun id => idFromLenPrefixedKey_encode (removalQueue id),
    idFromLenPrefixedKey_encode⟩
  · intro range hrange hunder
    simp only [perInstitutionRangePrefixes, List.mem_cons, List.not_mem_nil, or_false] at hrange
    rcases hrange with rfl | rfl | rfl
    · exact hother (institution_of_isPrefix hunder)
    · exact hother (institution_of_isPrefix hunder)
    · exact hother (institution_of_isPrefix hunder)
  · intro contentHash hunder
    -- the range of one action lies in the range of all approvals of the institution
    have hrange : ((0x30 : Byte) :: bytePrefixed id.bytes) <+: approvalPrefixFor id.bytes contentHash :=
      List.prefix_append _ _
    exact hother (institution_of_isPrefix (hrange.trans hunder))
  · rw [← encode_canonical]
    exact parseCounterKeyDay_key id.short kind.lt day.signed
  · exact parseCounterKeyDay_key id.short kind.lt day.signed

/-- Two ids of which one starts with the other, separated by a zero byte. -/
theorem store_keys_separated_nul :
    ¬ holderKycTierPrefixFor [97, 0] <+: (holderKycTier ⟨[97], by decide⟩ [0, 7]).encode :=
  (store_keys_separated.2.1 (holderKycTier ⟨[97], by decide⟩ [0, 7]) ⟨[97, 0], by decide⟩
    (fun h => absurd (congrArg ShortName.bytes h) (by decide))).1 _ (by decide)

end StoreKey

end PhiChain.Institutions
