import PhiChain.Coin.Aging
import PhiChain.Coin.MicroQuota
import PhiChain.Coin.Transfers
import PhiChain.Institutions.Genesis

/-!
# Export of x/coin

`exportGenesis` writes the lot queues with their amounts as text and the micro-exemption counters
byte for byte; `GenesisState.validate` is the check that an import starts with.

The check asks more of a queue than the module enforces. A queue is bounded only when a lot is
inserted, so a lowered bound leaves longer queues behind, and coin that no queue tracks is dated
at the old-tier boundary, which lies before the epoch where the threshold exceeds the block time.
Where no step does either, every state exports to a genesis that is accepted
(`coin_export_importable`).
-/

set_option autoImplicit false

namespace PhiChain.Coin

open Foundations Sdk
open Institutions (checkEach checkEach_of_nodup)

/-! ## Genesis -/

structure LotRecord where
  amount : Bytes
  acquiredAt : Int

structure CoinAgeRecord where
  address : Bytes
  lots : List LotRecord

/-- Genesis of x/coin; the store entries are the raw counters. -/
structure GenesisState where
  params : Params
  coinAges : List CoinAgeRecord
  storeEntries : List StoreEntry.KV

/-- An empty amount is allowed. -/
def validNonNegAmount (s : Bytes) : Result Unit :=
  ensure (s = [] ∨ amountIs s fun v => 0 ≤ v) ⟨.unregistered, "invalid lot amount"⟩

/-- The lots of a queue, given the time of the one before. -/
def validateLots : Option Int → List LotRecord → Result Unit
  | _, [] => .ok ()
  | prev, lot :: rest => do
    validNonNegAmount lot.amount
    ensure (0 ≤ lot.acquiredAt) ⟨.unregistered, "lot has a negative acquired_at"⟩
    ensure (∀ time ∈ prev, time ≤ lot.acquiredAt)
      ⟨.unregistered, "lots must be ordered oldest-first"⟩
    validateLots (some lot.acquiredAt) rest

def validateCoinAge (maxLots : Nat) (duplicate : Bool) (ca : CoinAgeRecord) : Result Unit := do
  ensure ((accAddressFromBech32 ca.address).isSome) ⟨.unregistered, "coin_age: invalid address"⟩
  ensure (duplicate = false) ⟨.unregistered, "duplicate coin_age entry"⟩
  ensure (ca.lots.length % 2 ^ 32 ≤ maxLots) ⟨.unregistered, "lots exceeds max_coin_age_lots"⟩
  validateLots none ca.lots

def storeEntryRules : List StoreEntry.Rule :=
  [⟨"micro-exemption quota", [0x11], some StoreEntry.uint64NoOverflow⟩]

def GenesisState.validate (gs : GenesisState) : Result Unit := do
  gs.params.validate
  checkEach CoinAgeRecord.address (validateCoinAge gs.params.maxCoinAgeLots) [] gs.coinAges
  (StoreEntry.validate "store_entries" gs.storeEntries storeEntryRules).mapError fun e =>
    ⟨.unregistered, e⟩

def lotRecord (l : CoinLot) : LotRecord := ⟨intString l.amount, l.acquiredAt⟩

def exportGenesis (s : Store) : GenesisState where
  params := s.params
  coinAges := s.coinAges.entries.map fun e => ⟨e.1.drop 1, e.2.map lotRecord⟩
  storeEntries := s.microUsed.entries.map fun e => ⟨e.1, bigEndian 8 e.2⟩

/-! ## Steps -/

/-- What changes the state of x/coin. The bank is the one a step finds; a mint comes with a
recipient that its message has checked. -/
inductive CoinOp where
  | mint (recipient : Bytes) (amount : Int)
  | transfer (msg : MsgTransfer) (b : Bank)
  | redeem (holder : Bytes) (amount : Int)
  | deductFee (payer deductFrom : Bytes) (msgs : List FeeMsg) (b : Bank)
  | prune
  | updateParams (authority : Bytes) (msg : MsgUpdateParams)

def applyCoin (ctx : Ctx) (s : Store) : CoinOp → Result Store
  | .mint recipient amount => do
    ensure ((accAddressFromBech32 recipient).isSome) ⟨.invalidAddress, "recipient"⟩
    ensureFit (s.creditAmounts recipient [⟨amount, ctx.blockTime⟩])
    return s.addCoins recipient amount ctx.blockTime
  | .transfer msg b => do
    msg.validateBasic
    let r ← transfer ctx msg b s
    return r.2
  | .redeem holder amount => do
    ensureFit (s.penaltyAmounts ctx.blockTime holder amount)
    return (s.earlyRedeemPenalty ctx.blockTime holder amount).2
  | .deductFee payer deductFrom msgs b => do
    let r ← deductFee ctx payer deductFrom msgs b s
    return r.2
  | .prune => return s.pruneMicroQuota ctx
  | .updateParams authority msg => updateParams authority msg s

/-- Every lot has an amount of at most 256 bits. -/
def Store.fits (s : Store) : Prop :=
  ∀ e ∈ s.coinAges.entries, ∀ l ∈ e.2, Fits l.amount

instance (s : Store) : Decidable s.fits :=
  inferInstanceAs (Decidable (∀ e ∈ s.coinAges.entries, ∀ l ∈ e.2, Fits l.amount))

/-- One step. Arithmetic beyond 256 bits panics, which discards the transaction like an error. -/
def coinStep (s : Store) (a : Ctx × CoinOp) : Store :=
  commit s (do
    let s' ← applyCoin a.1 s a.2
    ensure s'.fits intOverflow
    return s')

/-- The state after the default genesis. -/
def defaultStore : Store := ⟨defaultParams, ∅, ∅⟩

/-- Steps that keep the queues importable: coin that the sender's queue does not track is not
dated before the epoch, and new parameters leave room for every queue there is. -/
def Sustains (s : Store) : Ctx × CoinOp → Prop
  | (ctx, .transfer msg _) =>
    untracked (s.getCoinAge msg.sender) ((newIntFromString msg.amount).getD 0) = 0 ∨
      s.params.coinAgeThresholdSeconds ≤ ctx.blockTime
  | (_, .updateParams _ msg) => ∀ e ∈ s.coinAges.entries, e.2.length ≤ msg.params.maxCoinAgeLots
  | _ => True

instance (s : Store) : (a : Ctx × CoinOp) → Decidable (Sustains s a)
  | (ctx, .transfer msg _) => inferInstanceAs (Decidable
      (untracked (s.getCoinAge msg.sender) ((newIntFromString msg.amount).getD 0) = 0 ∨
        s.params.coinAgeThresholdSeconds ≤ ctx.blockTime))
  | (_, .updateParams _ msg) => inferInstanceAs (Decidable
      (∀ e ∈ s.coinAges.entries, e.2.length ≤ msg.params.maxCoinAgeLots))
  | (_, .mint _ _) | (_, .redeem _ _) | (_, .deductFee _ _ _ _) | (_, .prune) =>
    inferInstanceAs (Decidable True)

/-- Steps at block times from the epoch on. -/
def FromEpoch (a : Ctx × CoinOp) : Prop := 0 ≤ a.1.blockTime ∧ a.1.blockTime < 2 ^ 63

instance (a : Ctx × CoinOp) : Decidable (FromEpoch a) :=
  inferInstanceAs (Decidable (0 ≤ a.1.blockTime ∧ a.1.blockTime < 2 ^ 63))

/-! ## What the check asks of a state -/

/-- A queue as the check wants it, under an address. -/
structure QueueOk (maxLots : Nat) (address : Bytes) (lots : List CoinLot) : Prop where
  address : (accAddressFromBech32 address).isSome
  oldestFirst : OldestFirst lots
  length : lots.length ≤ maxLots

/-- What the steps have to keep of a state. -/
structure Kept (s : Store) : Prop where
  params : s.params.validate = .ok ()
  queues : ∀ e ∈ s.coinAges.entries,
    ∃ address, e.1 = Store.coinAgeKey address ∧ QueueOk s.params.maxCoinAgeLots address e.2
  counters : ∀ e ∈ s.microUsed.entries,
    (∃ day did, e.1 = Store.microQuotaKey day did) ∧ e.2 ≤ maxMicroDailyQuota

/-- A state whose export is accepted; every step checks the amounts. -/
structure Exportable (s : Store) : Prop extends Kept s where
  amounts : s.fits

variable {lots : List CoinLot}

/-- An oldest-first queue passes from any earlier time on. -/
theorem validateLots_ok (h : OldestFirst lots) (hfits : ∀ l ∈ lots, Fits l.amount)
    {prev : Option Int} (hprev : ∀ time ∈ prev, ∀ l ∈ lots, time ≤ l.acquiredAt) :
    validateLots prev (lots.map lotRecord) = .ok () := by
  induction lots generalizing prev with
  | nil => rfl
  | cons lot rest ih =>
    have hpositive := h.positive lot List.mem_cons_self
    have hread := newIntFromString_intString hpositive.le (hfits lot List.mem_cons_self)
    rw [List.map_cons, validateLots]
    simp only [validNonNegAmount, bind_eq_ok, ensure_eq_ok, exists_const]
    refine ⟨.inr ?_, (h.timed lot List.mem_cons_self).1,
      fun time htime => hprev time htime lot List.mem_cons_self, ?_⟩
    · simp [amountIs, lotRecord, hread, hpositive.le]
    · apply ih h.tail fun l hl => hfits l (List.mem_cons_of_mem _ hl)
      intro time htime l hl
      rw [← Option.some.inj htime]
      exact (List.pairwise_cons.1 h.sorted).1 l hl

theorem validateCoinAge_ok {maxLots : Nat} {address : Bytes} (h : QueueOk maxLots address lots)
    (hfits : ∀ l ∈ lots, Fits l.amount) :
    validateCoinAge maxLots false ⟨address, lots.map lotRecord⟩ = .ok () := by
  simp only [validateCoinAge, bind_eq_ok, ensure_eq_ok, exists_const, List.length_map]
  refine ⟨h.address, trivial, le_trans (Nat.mod_le _ _) h.length, ?_⟩
  exact validateLots_ok h.oldestFirst hfits (by simp)

/-- The raw counters pass their rule. -/
theorem counter_judged {day : Int} {did : Bytes} {n : Nat} (h : n ≤ maxMicroDailyQuota) :
    StoreEntry.Judged storeEntryRules ⟨Store.microQuotaKey day did, bigEndian 8 n⟩ := by
  refine StoreEntry.judged_singleton.2 ⟨?_, ?_, ?_⟩
  · rw [length_bigEndian]
    decide
  · simp [StoreEntry.Rule.applies, Store.microQuotaKey, Store.microQuotaDayBound]
  · intro check hcheck
    obtain rfl := Option.some.inj hcheck
    unfold maxMicroDailyQuota at h
    exact StoreEntry.uint64NoOverflow_bigEndian (by omega)

/-- The export of an exportable state is accepted. -/
theorem Exportable.validate {s : Store} (h : Exportable s) : (exportGenesis s).validate = .ok () := by
  simp only [GenesisState.validate, exportGenesis, bind_eq_ok]
  refine ⟨(), h.params, (), ?_, ?_⟩
  · apply checkEach_of_nodup
    · intro ca hca
      obtain ⟨e, he, rfl⟩ := List.mem_map.1 hca
      obtain ⟨address, hkey, hqueue⟩ := h.queues e he
      rw [hkey]
      exact validateCoinAge_ok hqueue (h.amounts e he)
    · exact fun _ _ => List.not_mem_nil
    · -- the keys are distinct and start with the same byte, so the addresses are distinct
      rw [List.map_map]
      apply (List.nodup_map_iff_inj_on s.coinAges.nodup_keys.of_map).2
      intro e he e' he' haddress
      obtain ⟨address, hkey, -⟩ := h.queues e he
      obtain ⟨address', hkey', -⟩ := h.queues e' he'
      have hsame : e.1 = e'.1 := by
        have haddress : e.1.drop 1 = e'.1.drop 1 := haddress
        rw [hkey, hkey'] at haddress
        rw [hkey, hkey']
        exact congrArg Store.coinAgeKey haddress
      exact List.inj_on_of_nodup_map s.coinAges.nodup_keys he he' hsame
  · rw [mapError_eq_ok]
    have hok : isOk (StoreEntry.validate "store_entries"
        (s.microUsed.entries.map fun e => ⟨e.1, bigEndian 8 e.2⟩) storeEntryRules) = true := by
      rw [StoreEntry.validate_isOk_iff (by decide)]
      refine ⟨?_, fun e he => ?_⟩
      · rw [List.map_map]
        exact s.microUsed.nodup_keys
      · obtain ⟨counter, hcounter, rfl⟩ := List.mem_map.1 he
        obtain ⟨⟨day, did, hkey⟩, hle⟩ := h.counters counter hcounter
        rw [hkey]
        exact counter_judged hle
    obtain ⟨⟨⟩, hvalid⟩ := isOk_iff.1 hok
    exact hvalid

/-! ## What the steps keep -/

section Kept

variable {s s' : Store} {ctx : Ctx} {address : Bytes}

/-- What accepted parameters say about queues. -/
theorem ages_of_validate {p : Params} (h : p.validate = .ok ()) :
    0 ≤ p.coinAgeThresholdSeconds ∧ 2 ≤ p.maxCoinAgeLots ∧ p.maxCoinAgeLots < 2 ^ 32 - 1 := by
  simp only [Params.validate, bind_eq_ok, ensure_eq_ok, forM_eq_ok, exists_const] at h
  obtain ⟨-, -, -, -, -, hthreshold, -, ⟨hlow, hhigh⟩, -⟩ := h
  unfold minCoinAgeLots at hlow
  unfold maxCoinAgeLotsCeiling at hhigh
  omega

/-- The queue of an address, which is valid if the queue is not empty. -/
theorem Kept.queue (h : Kept s) (address : Bytes) :
    OldestFirst (s.getCoinAge address) ∧
      (s.getCoinAge address).length ≤ s.params.maxCoinAgeLots ∧
      (s.getCoinAge address ≠ [] → (accAddressFromBech32 address).isSome) := by
  unfold Store.getCoinAge OrdMap.getD
  cases hget : s.coinAges.get? (Store.coinAgeKey address) with
  | none => exact ⟨oldestFirst_nil, Nat.zero_le _, fun hne => absurd rfl hne⟩
  | some lots =>
    obtain ⟨address', hkey, hqueue⟩ := h.queues _ (OrdMap.mem_entries.2 hget)
    obtain rfl := coinAgeKey_inj hkey
    exact ⟨hqueue.oldestFirst, hqueue.length, fun _ => hqueue.address⟩

/-- A queue written under its address. -/
theorem Kept.setCoinAge (h : Kept s) (hlots : OldestFirst lots)
    (hlength : lots.length ≤ s.params.maxCoinAgeLots)
    (haddress : lots ≠ [] → (accAddressFromBech32 address).isSome) :
    Kept (s.setCoinAge address lots) := by
  refine ⟨h.params, fun e he => ?_, h.counters⟩
  have hget : (s.setCoinAge address lots).coinAges.get? e.1 = some e.2 := OrdMap.mem_entries.1 he
  unfold Store.setCoinAge at hget
  by_cases hsame : Store.coinAgeKey address = e.1
  · by_cases hempty : lots = []
    · rw [if_pos hempty, ← hsame, OrdMap.get?_erase_self] at hget
      cases hget
    · rw [if_neg hempty, ← hsame, OrdMap.get?_put_self] at hget
      rw [← Option.some.inj hget]
      exact ⟨address, hsame.symm, haddress hempty, hlots, hlength⟩
  · -- the other queues are as they were
    apply h.queues
    apply OrdMap.mem_entries.2
    dsimp only at hget
    split at hget
    · rwa [OrdMap.get?_erase_ne _ hsame] at hget
    · rwa [OrdMap.get?_put_ne _ _ hsame] at hget

theorem Kept.addCoins (h : Kept s) (haddress : (accAddressFromBech32 address).isSome)
    (amount : Int) {acquiredAt : Int} (htime : 0 ≤ acquiredAt ∧ acquiredAt < 2 ^ 63) :
    Kept (s.addCoins address amount acquiredAt) := by
  unfold Store.addCoins
  split
  · obtain ⟨hqueue, hlength, -⟩ := h.queue address
    obtain ⟨-, hlow, hhigh⟩ := ages_of_validate h.params
    exact h.setCoinAge (hqueue.insert _ htime) (length_insertLot hlow hhigh hlength _)
      fun _ => haddress
  · exact h

/-- A spend leaves a queue only where there was one. -/
theorem Kept.spendOldestFirst (h : Kept s) (now : Int) (address : Bytes) (amount : Int) :
    Kept (s.spendOldestFirst now address amount).2 := by
  obtain ⟨hqueue, hlength, haddress⟩ := h.queue address
  have hshorter := length_spendLots now s.params.coinAgeThresholdSeconds (s.getCoinAge address) amount
  apply h.setCoinAge (hqueue.spend _ _ _) (le_trans hshorter hlength)
  intro hne
  apply haddress
  intro hempty
  rw [hempty, List.length_nil, Nat.le_zero, List.length_eq_zero_iff] at hshorter
  exact hne (hempty ▸ hshorter)

theorem Kept.creditLots (h : Kept s) (haddress : (accAddressFromBech32 address).isSome)
    (hlots : Within 0 (2 ^ 63 - 1) lots) :
    Kept (creditLots s address lots) := by
  unfold Coin.creditLots
  induction lots generalizing s with
  | nil => exact h
  | cons lot rest ih =>
    obtain ⟨hlow, hhigh⟩ := hlots lot List.mem_cons_self
    apply ih (h.addCoins haddress (lotAmount lot) ⟨hlow, by omega⟩)
    exact fun l hl => hlots l (List.mem_cons_of_mem _ hl)

/-- Consumed lots have the times of the queue, or the boundary's where it does not suffice. -/
theorem within_consumed {low high now thresholdSeconds : Int} {lots : List CoinLot} {left : Int}
    (hlots : Within low high lots)
    (hboundary : totalLots lots < left →
      low ≤ int64 (now - thresholdSeconds) ∧ int64 (now - thresholdSeconds) ≤ high) :
    Within low high (spendLots now thresholdSeconds lots left).1 := by
  induction lots generalizing left with
  | nil =>
    rw [spendLots]
    split
    · rename_i hpos
      exact List.forall_mem_cons.2 ⟨hboundary hpos, by simp⟩
    · simp [Within]
  | cons l rest ih =>
    have hl := hlots l List.mem_cons_self
    rw [spendLots]
    split
    · split
      · refine List.forall_mem_cons.2 ⟨hl, ih (fun l' hl' => hlots l' (List.mem_cons_of_mem _ hl'))
          fun hshort => hboundary ?_⟩
        rw [totalLots_cons]
        omega
      · exact List.forall_mem_cons.2 ⟨hl, by simp⟩
    · simp [Within]

/-- A transfer whose coin is tracked, or made at a time past the threshold. -/
theorem Kept.transfer (h : Kept s) {msg : MsgTransfer} {b b' : Bank}
    (htime : 0 ≤ ctx.blockTime ∧ ctx.blockTime < 2 ^ 63)
    (hsustained : untracked (s.getCoinAge msg.sender) ((newIntFromString msg.amount).getD 0) = 0 ∨
      s.params.coinAgeThresholdSeconds ≤ ctx.blockTime)
    (hrecipient : (accAddressFromBech32 msg.recipient).isSome)
    (htransfer : Coin.transfer ctx msg b s = .ok (b', s')) : Kept s' := by
  obtain ⟨amount, hamount, -, rfl⟩ := transfer_ok htransfer
  rw [hamount, Option.getD_some] at hsustained
  apply (h.spendOldestFirst _ _ _).creditLots hrecipient
  apply within_consumed
  · intro l hl
    obtain ⟨hlow, hhigh⟩ := (h.queue msg.sender).1.timed l hl
    exact ⟨hlow, by omega⟩
  · -- coin beyond the queue is dated from the epoch on
    intro hshort
    have hthreshold : s.params.coinAgeThresholdSeconds ≤ ctx.blockTime := by
      apply hsustained.resolve_left
      unfold untracked
      omega
    obtain ⟨hnonneg, -⟩ := ages_of_validate h.params
    rw [int64_of_inInt64 ⟨by omega, by omega⟩]
    omega

/-- Only the payer's counter moves, and within the quota. -/
theorem Kept.deductFee (h : Kept s) {payer deductFrom : Bytes} {msgs : List FeeMsg} {b b' : Bank}
    (hfee : Coin.deductFee ctx payer deductFrom msgs b s = .ok (b', s')) : Kept s' := by
  rcases deductFee_store hfee with rfl | ⟨did, hroom, rfl⟩
  · exact h
  · refine ⟨h.params, h.queues, fun e he => ?_⟩
    have hget : (s.incrMicroUsed ctx.dayIndex did).microUsed.get? e.1 = some e.2 :=
      OrdMap.mem_entries.1 he
    simp only [Store.incrMicroUsed] at hget
    by_cases hsame : Store.microQuotaKey ctx.dayIndex did = e.1
    · rw [← hsame, OrdMap.get?_put_self] at hget
      have hquota := quota_of_validate h.params
      have hwrapped := Nat.mod_le (s.getMicroUsed ctx.dayIndex did + 1) (2 ^ 64)
      rw [← Option.some.inj hget]
      exact ⟨⟨_, _, hsame.symm⟩, by omega⟩
    · rw [OrdMap.get?_put_ne _ _ hsame] at hget
      exact h.counters e (OrdMap.mem_entries.2 hget)

theorem Kept.pruneMicroQuota (h : Kept s) (ctx : Ctx) : Kept (s.pruneMicroQuota ctx) := by
  unfold Store.pruneMicroQuota
  dsimp only
  split
  · refine ⟨h.params, h.queues, fun e he => h.counters e ?_⟩
    exact OrdMap.mem_entries.2 (OrdMap.get?_of_eraseAll (OrdMap.mem_entries.1 he))
  · exact h

theorem Kept.updateParams (h : Kept s) {authority : Bytes} {msg : MsgUpdateParams}
    (hroom : ∀ e ∈ s.coinAges.entries, e.2.length ≤ msg.params.maxCoinAgeLots)
    (hupdate : Coin.updateParams authority msg s = .ok s') : Kept s' := by
  simp only [Coin.updateParams, bind_eq_ok, ensure_eq_ok, pure_eq_ok, exists_const] at hupdate
  obtain ⟨-, ⟨⟩, hvalid, rfl⟩ := hupdate
  refine ⟨hvalid, fun e he => ?_, h.counters⟩
  obtain ⟨address, hkey, hqueue⟩ := h.queues e he
  exact ⟨address, hkey, hqueue.address, hqueue.oldestFirst, hroom e he⟩

/-- One operation at a block time from the epoch on. -/
theorem Kept.apply (h : Kept s) {op : CoinOp} (htime : 0 ≤ ctx.blockTime ∧ ctx.blockTime < 2 ^ 63)
    (hsustains : Sustains s (ctx, op)) (happly : applyCoin ctx s op = .ok s') : Kept s' := by
  cases op with
  | mint recipient amount =>
    simp only [applyCoin, bind_eq_ok, ensure_eq_ok, pure_eq_ok, exists_const] at happly
    obtain ⟨hrecipient, ⟨⟩, -, rfl⟩ := happly
    exact h.addCoins hrecipient amount htime
  | transfer msg b =>
    simp only [applyCoin, MsgTransfer.validateBasic, bind_eq_ok, ensure_eq_ok, pure_eq_ok,
      exists_const] at happly
    obtain ⟨⟨-, hrecipient, -, -⟩, ⟨b', s''⟩, htransfer, rfl⟩ := happly
    exact h.transfer htime hsustains hrecipient htransfer
  | redeem holder amount =>
    simp only [applyCoin, bind_eq_ok, pure_eq_ok] at happly
    obtain ⟨⟨⟩, -, rfl⟩ := happly
    unfold Store.earlyRedeemPenalty
    split
    · exact h.spendOldestFirst _ _ _
    · exact h
  | deductFee payer deductFrom msgs b =>
    simp only [applyCoin, bind_eq_ok, pure_eq_ok] at happly
    obtain ⟨⟨b', s''⟩, hfee, rfl⟩ := happly
    exact h.deductFee hfee
  | prune =>
    cases happly
    exact h.pruneMicroQuota ctx
  | updateParams authority msg => exact h.updateParams hsustains happly

theorem Exportable.step (h : Exportable s) {a : Ctx × CoinOp}
    (hstep : FromEpoch a ∧ (isOk (applyCoin a.1 s a.2) = true → Sustains s a)) :
    Exportable (coinStep s a) := by
  apply commit_preserves h
  intro s' happlied
  simp only [bind_eq_ok, ensure_eq_ok, pure_eq_ok, exists_const] at happlied
  obtain ⟨s'', happly, hfits, rfl⟩ := happlied
  exact ⟨h.toKept.apply hstep.1 (hstep.2 (isOk_iff.2 ⟨_, happly⟩)) happly, hfits⟩

end Kept

/-! ## Runs -/

theorem exportable_default : Exportable defaultStore where
  params := by decide +kernel
  queues _ he := absurd he List.not_mem_nil
  counters _ he := absurd he List.not_mem_nil
  amounts _ he := absurd he List.not_mem_nil

/-- In every state reached from the default genesis at block times from the epoch on, by steps of
which the accepted ones keep the queues importable, the export is accepted. -/
theorem coin_export_importable {ops : List (Ctx × CoinOp)}
    (h : Along coinStep
      (fun s a => FromEpoch a ∧ (isOk (applyCoin a.1 s a.2) = true → Sustains s a))
      defaultStore ops) :
    (exportGenesis (run coinStep defaultStore ops)).validate = .ok () := by
  have hkept : Exportable (run coinStep defaultStore ops) := by
    refine run_preserves (fun s a hstep hs => ?_) exportable_default h
    exact Exportable.step hs hstep
  exact hkept.validate

/-- A proposal of the governance account that changes the parameters. -/
def proposeParams (p : Params) : CoinOp := .updateParams [7] ⟨[7], p⟩

/-- Account 1 receives a lot. -/
def deposit : CoinOp := .mint (accAddressString [1]) 5

/-- Two lots, a payment from them, and a bound of two lots for each queue. -/
def sustainedRun : List (Ctx × CoinOp) :=
  [(plainCtx 1000, deposit), (plainCtx 2000, deposit),
    (plainCtx 3000, .transfer (payment "4") plainBank),
    (plainCtx 4000, proposeParams { defaultParams with maxCoinAgeLots := 2 })]

theorem coin_export_sustained :
    (exportGenesis (run coinStep defaultStore sustainedRun)).validate = .ok () ∧
      (run coinStep defaultStore sustainedRun).params.maxCoinAgeLots = 2 := by
  refine ⟨coin_export_importable ?_, ?_⟩
  · decide +kernel
  · decide +kernel

/-- Three lots of one holder, and then a bound of two. -/
def loweredRun : List (Ctx × CoinOp) :=
  [(plainCtx 1000, deposit), (plainCtx 2000, deposit), (plainCtx 3000, deposit),
    (plainCtx 4000, proposeParams { defaultParams with maxCoinAgeLots := 2 })]

/-- A threshold beyond the present, and a payment of coin that is not tracked. -/
def predatedRun : List (Ctx × CoinOp) :=
  [(plainCtx 1700000000,
      proposeParams { defaultParams with coinAgeThresholdSeconds := 2000000000 }),
    (plainCtx 1700000001, .transfer (payment "4") plainBank)]

/-- Both exports are refused: the queue is longer than its bound, and the lot is dated before the
epoch. -/
theorem coin_export_refused :
    (∀ a ∈ loweredRun ++ predatedRun, FromEpoch a) ∧
      (exportGenesis (run coinStep defaultStore loweredRun)).validate =
        .error ⟨.unregistered, "lots exceeds max_coin_age_lots"⟩ ∧
      (exportGenesis (run coinStep defaultStore predatedRun)).validate =
        .error ⟨.unregistered, "lot has a negative acquired_at"⟩ := by
  refine ⟨?_, ?_, ?_⟩
  · decide +kernel
  · decide +kernel
  · decide +kernel

end PhiChain.Coin
