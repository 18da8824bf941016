import PhiChain.Sdk.Math
import PhiChain.Sdk.Bech32
import PhiChain.Sdk.Bank

/-!
# Coin age

The parameters of x/coin and the pure functions over a holder's lot queue: how a
spend consumes the oldest lots first, how a lot is inserted under the queue's
length bound, and what redeeming the consumed lots costs. Times are 64-bit integers,
and differences of times wrap (`int64`). The functions compute with exact amounts; the
handlers ask that the amounts of every merge (`mergeAmounts`) fit.
-/

set_option autoImplicit false

namespace PhiChain.Coin

open Foundations Sdk

/-- Base denomination of the coin. -/
def denom : Bytes := ascii "uphi"

/-- `uphi` per whole coin. -/
def uphiPerPhi : Int := 1000000

def bpsDenominator : Int := 10000

theorem bpsDenominator_pos : 0 < bpsDenominator := by decide

def maxProtocolFeeReserveBps : Int := 1000

def defaultMaxCoinAgeLots : Nat := 64

def minCoinAgeLots : Nat := 2

def maxCoinAgeLotsCeiling : Nat := 1024

def maxMicroThresholdUphi : Int := 1000000

def maxMicroDailyQuota : Nat := 1000

def msgTransferTypeURL : Bytes := ascii "/phi.coin.MsgTransfer"

def msgAnchorPersonalTypeURL : Bytes := ascii "/phi.credentials.MsgAnchorPersonal"

def msgCreateAgreementTypeURL : Bytes := ascii "/phi.credentials.MsgCreateAgreement"

/-- Coins of the base denomination. A zero amount makes no coin; a negative one is
refused by every operation it is handed to. -/
def coinsOf (amount : Int) : Coins := if amount = 0 then [] else [⟨denom, amount⟩]

structure FeeEntry where
  msgTypeUrl : Bytes
  fee : Bytes

structure SplitEntry where
  msgTypeUrl : Bytes
  validatorBps : Nat
  companyBps : Nat

/-- Parameters of x/coin. -/
structure Params where
  fees : List FeeEntry
  splits : List SplitEntry
  defaultFee : Bytes
  microThreshold : Bytes
  microDailyQuota : Nat
  coinAgeThresholdSeconds : Int
  youngPenaltyBps : Nat
  oldPenaltyBps : Nat
  maxCoinAgeLots : Nat
  companyPayoutAddress : Bytes
  agreementExtraSignerFee : Bytes
  agreementFreeSigners : Nat

def defaultParams : Params where
  fees := [⟨msgTransferTypeURL, ascii "5000"⟩, ⟨msgAnchorPersonalTypeURL, ascii "120000"⟩,
    ⟨msgCreateAgreementTypeURL, ascii "50000"⟩]
  splits := [⟨msgTransferTypeURL, 9000, 1000⟩, ⟨msgAnchorPersonalTypeURL, 0, 10000⟩]
  defaultFee := ascii "5000"
  microThreshold := ascii "50000"
  microDailyQuota := 10
  coinAgeThresholdSeconds := 7 * 24 * 60 * 60
  youngPenaltyBps := 100
  oldPenaltyBps := 20
  maxCoinAgeLots := defaultMaxCoinAgeLots
  companyPayoutAddress := []
  agreementExtraSignerFee := ascii "5000"
  agreementFreeSigners := 5

/-- Whether a text denotes an amount satisfying a test. -/
def amountIs (s : Bytes) (p : Int → Bool) : Bool := (newIntFromString s).any p

def validateFee (f : FeeEntry) : Result Unit := do
  ensure (f.msgTypeUrl ≠ []) ⟨.coinInvalidParams, "fee entry with empty msg_type_url"⟩
  ensure (amountIs f.fee fun v => 0 ≤ v) ⟨.coinInvalidParams, "invalid fee"⟩

/-- Split entries name distinct message types and hand out at most the whole fee. -/
def validateSplits : List SplitEntry → List Bytes → Result Unit
  | [], _ => .ok ()
  | s :: rest, seen => do
    ensure (s.msgTypeUrl ≠ []) ⟨.coinInvalidParams, "split entry with empty msg_type_url"⟩
    ensure (s.msgTypeUrl ∉ seen) ⟨.coinInvalidParams, "duplicate split entry"⟩
    ensure ((s.validatorBps : Int) + s.companyBps ≤ bpsDenominator)
      ⟨.coinInvalidParams, "validator_bps + company_bps"⟩
    validateSplits rest (s.msgTypeUrl :: seen)

def Params.validate (p : Params) : Result Unit := do
  ensure (amountIs p.defaultFee fun v => 0 < v)
    ⟨.coinInvalidParams, "default_fee must be strictly positive"⟩
  ensure (amountIs p.microThreshold fun v => 0 ≤ v ∧ v ≤ maxMicroThresholdUphi)
    ⟨.coinInvalidParams, "micro_threshold"⟩
  ensure (p.microDailyQuota ≤ maxMicroDailyQuota) ⟨.coinInvalidParams, "micro_daily_quota"⟩
  p.fees.forM validateFee
  ensure (p.agreementExtraSignerFee = [] ∨ amountIs p.agreementExtraSignerFee fun v => 0 ≤ v)
    ⟨.coinInvalidParams, "invalid agreement_extra_signer_fee"⟩
  ensure (0 ≤ p.coinAgeThresholdSeconds)
    ⟨.coinInvalidParams, "coin_age_threshold_seconds must be >= 0"⟩
  ensure ((p.youngPenaltyBps : Int) + p.oldPenaltyBps < bpsDenominator - maxProtocolFeeReserveBps)
    ⟨.coinInvalidParams, "young_penalty_bps + old_penalty_bps"⟩
  ensure (minCoinAgeLots ≤ p.maxCoinAgeLots ∧ p.maxCoinAgeLots ≤ maxCoinAgeLotsCeiling)
    ⟨.coinInvalidParams, "max_coin_age_lots"⟩
  validateSplits p.splits []
  ensure (p.companyPayoutAddress = [] ∨ (accAddressFromBech32 p.companyPayoutAddress).isSome)
    ⟨.coinInvalidParams, "invalid company_payout_address"⟩

/-- A lot of coin with the time it was acquired. -/
structure CoinLot where
  amount : Int
  acquiredAt : Int
  deriving DecidableEq

/-- Amount of a lot; a negative amount reads as zero. -/
def lotAmount (l : CoinLot) : Int := if l.amount < 0 then 0 else l.amount

/-- Whether a lot has reached the old tier. -/
def isOld (acquiredAt now thresholdSeconds : Int) : Bool :=
  thresholdSeconds ≤ int64 (now - acquiredAt)

/-- Early-redeem penalty of the consumed lots, each at its own tier. -/
def penaltyForLots (lots : List CoinLot) (now : Int) (p : Params) : Int :=
  lots.foldl
    (fun penalty l =>
      let bps : Int :=
        if isOld l.acquiredAt now p.coinAgeThresholdSeconds then p.oldPenaltyBps
        else p.youngPenaltyBps
      penalty + quo (lotAmount l * bps) bpsDenominator) 0

/-- Consume `left` from the front of the queue: the consumed lots and the remaining
queue. What the queue does not track is consumed at the old-tier boundary. -/
def spendLots (now thresholdSeconds : Int) : List CoinLot → Int → List CoinLot × List CoinLot
  | [], left => if 0 < left then ([⟨left, int64 (now - thresholdSeconds)⟩], []) else ([], [])
  | l :: rest, left =>
    if 0 < left then
      if lotAmount l ≤ left then
        let tail := spendLots now thresholdSeconds rest (left - lotAmount l)
        (⟨lotAmount l, l.acquiredAt⟩ :: tail.1, tail.2)
      else
        -- the lot is split and both halves keep its age
        ([⟨left, l.acquiredAt⟩], ⟨lotAmount l - left, l.acquiredAt⟩ :: rest)
    else ([], l :: rest)

/-- Time of a merged lot: the weighted mean, rounded up. -/
def mergedAcquiredAt (older newer : CoinLot) : Int :=
  let delta := int64 (newer.acquiredAt - older.acquiredAt)
  let total := lotAmount older + lotAmount newer
  if delta ≤ 0 then older.acquiredAt
  else if total ≤ 0 then older.acquiredAt
  else int64 (older.acquiredAt + quo (lotAmount newer * delta + total - 1) total)

def mergeLots (older newer : CoinLot) : CoinLot :=
  ⟨lotAmount older + lotAmount newer, mergedAcquiredAt older newer⟩

/-- Merge at the old end while the queue, its length taken as a 32-bit number, is longer than
the bound; every round shortens the queue, so its length bounds the rounds. -/
def mergeOldest (maxLots : Nat) : Nat → List CoinLot → List CoinLot
  | 0, lots => lots
  | fuel + 1, older :: newer :: rest =>
    if maxLots < (rest.length + 2) % 2 ^ 32 then
      mergeOldest maxLots fuel (mergeLots older newer :: rest)
    else older :: newer :: rest
  | _ + 1, lots => lots

def boundLots (lots : List CoinLot) (maxLots : Nat) : List CoinLot :=
  mergeOldest (if maxLots = 0 then defaultMaxCoinAgeLots else maxLots) lots.length lots

/-- A lot put in oldest-first order, behind lots of the same time, before the queue is bounded. -/
def placeLot (lots : List CoinLot) (lot : CoinLot) : List CoinLot :=
  lots.takeWhile (fun l => decide (l.acquiredAt ≤ lot.acquiredAt)) ++
    lot :: lots.dropWhile fun l => decide (l.acquiredAt ≤ lot.acquiredAt)

/-- Insert a lot and bound the queue. -/
def insertLot (lots : List CoinLot) (lot : CoinLot) (maxLots : Nat) : List CoinLot :=
  if 0 < lotAmount lot then boundLots (placeLot lots lot) maxLots else lots

/-! ## What is merged -/

/-- The bound that is in force: zero stands for the default. -/
def boundInForce (maxLots : Nat) : Nat := if maxLots = 0 then defaultMaxCoinAgeLots else maxLots

/-- The pairs of lots that the rounds of a bounding merge. -/
def mergeRounds (maxLots : Nat) : Nat → List CoinLot → List (CoinLot × CoinLot)
  | fuel + 1, older :: newer :: rest =>
    if maxLots < (rest.length + 2) % 2 ^ 32 then
      (older, newer) :: mergeRounds maxLots fuel (mergeLots older newer :: rest)
    else []
  | _, _ => []

def boundRounds (lots : List CoinLot) (maxLots : Nat) : List (CoinLot × CoinLot) :=
  mergeRounds (boundInForce maxLots) lots.length lots

def insertRounds (lots : List CoinLot) (lot : CoinLot) (maxLots : Nat) : List (CoinLot × CoinLot) :=
  if 0 < lotAmount lot then boundRounds (placeLot lots lot) maxLots else []

/-- The pairs that are merged while lots are inserted one by one. -/
def creditRounds (maxLots : Nat) : List CoinLot → List CoinLot → List (CoinLot × CoinLot)
  | _, [] => []
  | queue, lot :: rest =>
    insertRounds queue ⟨lotAmount lot, lot.acquiredAt⟩ maxLots ++
      creditRounds maxLots (insertLot queue ⟨lotAmount lot, lot.acquiredAt⟩ maxLots) rest

/-- The amounts that a merge computes with. -/
def mergeAmounts (older newer : CoinLot) : List Int :=
  let delta := int64 (newer.acquiredAt - older.acquiredAt)
  let total := lotAmount older + lotAmount newer
  if 0 < delta ∧ 0 < total then [total, lotAmount newer * delta, lotAmount newer * delta + total]
  else [total]

end PhiChain.Coin
