import PhiChain.Coin.CoinAge
import PhiChain.Sdk.Context

/-!
# The coin keeper

Lot queues are stored under the address string a message carries (`coinAgeKey`),
while the bank moves coins between the accounts those strings decode to. The
handlers are `transfer`, `withdrawRevenue` and `updateParams`; `deductFee` is the
fixed-fee decorator of the ante chain.
-/

set_option autoImplicit false

namespace PhiChain.Coin

open Foundations Sdk

/-- State of x/coin: the parameters, the lot queues and the daily micro-exemption
counters, each kept under its raw key. -/
structure Store where
  params : Params
  coinAges : OrdMap Bytes (List CoinLot)
  microUsed : OrdMap Bytes Nat

namespace Store

/-- A holder's queue is keyed by the address string as given. -/
def coinAgeKey (address : Bytes) : Bytes := (0x10 : Byte) :: address

def getCoinAge (s : Store) (address : Bytes) : List CoinLot :=
  s.coinAges.getD (coinAgeKey address) []

/-- An empty queue is not stored. -/
def setCoinAge (s : Store) (address : Bytes) (lots : List CoinLot) : Store :=
  { s with coinAges :=
      if lots = [] then s.coinAges.erase (coinAgeKey address)
      else s.coinAges.put (coinAgeKey address) lots }

/-- Credit coin acquired at a given time. -/
def addCoins (s : Store) (address : Bytes) (amount acquiredAt : Int) : Store :=
  if 0 < amount then
    s.setCoinAge address
      (insertLot (s.getCoinAge address) ⟨amount, acquiredAt⟩ s.params.maxCoinAgeLots)
  else s

/-- Consume the oldest coin of an address: the consumed lots and the new state. -/
def spendOldestFirst (s : Store) (now : Int) (address : Bytes) (amount : Int) :
    List CoinLot × Store :=
  let spent := spendLots now s.params.coinAgeThresholdSeconds (s.getCoinAge address) amount
  (spent.1, s.setCoinAge address spent.2)

/-- Penalty for redeeming an amount, consuming the holder's oldest coin. -/
def earlyRedeemPenalty (s : Store) (now : Int) (address : Bytes) (redeemUphi : Int) :
    Int × Store :=
  if 0 < redeemUphi then
    let spent := s.spendOldestFirst now address redeemUphi
    (penaltyForLots spent.1 now s.params, spent.2)
  else (0, s)

/-- The amounts that pricing a redemption computes with: the product of every consumed lot with
its rate, and the penalty. -/
def penaltyAmounts (s : Store) (now : Int) (address : Bytes) (redeemUphi : Int) : List Int :=
  let spent := s.spendOldestFirst now address redeemUphi
  penaltyForLots spent.1 now s.params :: spent.1.map fun l => lotAmount l *
    if isOld l.acquiredAt now s.params.coinAgeThresholdSeconds then (s.params.oldPenaltyBps : Int)
    else s.params.youngPenaltyBps

/-! ## Micro-exemption counters -/

/-- Days a counter is kept. -/
def microQuotaRetentionDays : Int := 7

/-- Most counters removed in one block. -/
def microQuotaPruneBudget : Nat := 256

/-- First key of a day: the keys of earlier days lie below it. -/
def microQuotaDayBound (day : Int) : Bytes :=
  (0x11 : Byte) :: bigEndian 8 (uint64 day)

/-- Key of a counter: the day in big-endian order, then the address or DID. -/
def microQuotaKey (day : Int) (address : Bytes) : Bytes := microQuotaDayBound day ++ address

def getMicroUsed (s : Store) (day : Int) (address : Bytes) : Nat :=
  s.microUsed.getD (microQuotaKey day address) 0

def incrMicroUsed (s : Store) (day : Int) (address : Bytes) : Store :=
  let n := (s.getMicroUsed day address + 1) % 2 ^ 64
  { s with microUsed := s.microUsed.put (microQuotaKey day address) n }

/-- Remove counters of days beyond the retention, lowest keys first, within the
budget of a block. -/
def pruneMicroQuota (ctx : Ctx) (s : Store) : Store :=
  let cutoffDay := ctx.dayIndex - microQuotaRetentionDays
  if 0 < cutoffDay then
    let stale := (s.microUsed.keysWhere fun key => key < microQuotaDayBound cutoffDay).take
      microQuotaPruneBudget
    { s with microUsed := s.microUsed.eraseAll stale }
  else s

end Store

/-- Peer-to-peer transfer message. -/
structure MsgTransfer where
  sender : Bytes
  recipient : Bytes
  amount : Bytes

def MsgTransfer.validateBasic (msg : MsgTransfer) : Result Unit := do
  ensure ((accAddressFromBech32 msg.sender).isSome) ⟨.invalidAddress, "invalid from"⟩
  ensure ((accAddressFromBech32 msg.recipient).isSome) ⟨.invalidAddress, "invalid to"⟩
  ensure (msg.sender ≠ msg.recipient) ⟨.sameAccount, ""⟩
  ensure (amountIs msg.amount fun v => 0 < v) ⟨.coinInvalidAmount, "amount"⟩

/-- Credit the consumed lots to an address, one by one. -/
def creditLots (s : Store) (address : Bytes) (lots : List CoinLot) : Store :=
  lots.foldl (fun s lot => s.addCoins address (lotAmount lot) lot.acquiredAt) s

/-- The amounts that the merges of a credit compute with. -/
def Store.creditAmounts (s : Store) (address : Bytes) (lots : List CoinLot) : List Int :=
  (creditRounds s.params.maxCoinAgeLots (s.getCoinAge address) lots).flatMap fun r =>
    mergeAmounts r.1 r.2

/-- Move the coin between the decoded accounts, then its age between the two strings. -/
def transfer (ctx : Ctx) (msg : MsgTransfer) (b : Bank) (s : Store) : Result (Bank × Store) := do
  let sender ← orFail (accAddressFromBech32 msg.sender) ⟨.invalidAddress, "from"⟩
  let recipient ← orFail (accAddressFromBech32 msg.recipient) ⟨.invalidAddress, "to"⟩
  let amount ← orFail (newIntFromString msg.amount) ⟨.coinInvalidAmount, "amount"⟩
  ensure (0 < amount) ⟨.coinInvalidAmount, "amount"⟩
  let b ← b.sendCoins ctx.accounts sender recipient (coinsOf amount)
  let spent := s.spendOldestFirst ctx.blockTime msg.sender amount
  ensureFit (spent.2.creditAmounts msg.recipient spent.1)
  return (b, creditLots spent.2 msg.recipient spent.1)

structure MsgWithdrawRevenue where
  authority : Bytes
  amount : Bytes

/-- Pay accrued revenue out to the governed address; governance only. -/
def withdrawRevenue (authority : Bytes) (ctx : Ctx) (msg : MsgWithdrawRevenue) (b : Bank)
    (s : Store) : Result Bank := do
  ensure (msg.authority = authority) ⟨.invalidSigner, "expected authority"⟩
  let amount ← orFail (newIntFromString msg.amount) ⟨.coinInvalidAmount, "amount"⟩
  ensure (0 < amount) ⟨.coinInvalidAmount, "amount"⟩
  ensure (s.params.companyPayoutAddress ≠ []) ⟨.noPayoutAddress, ""⟩
  let dest ← orFail (accAddressFromBech32 s.params.companyPayoutAddress)
    ⟨.invalidAddress, "company_payout_address"⟩
  b.sendCoinsFromModuleToAccount ctx.accounts .phiRevenue dest (coinsOf amount)

structure MsgUpdateParams where
  authority : Bytes
  params : Params

def updateParams (authority : Bytes) (msg : MsgUpdateParams) (s : Store) : Result Store := do
  ensure (msg.authority = authority) ⟨.invalidSigner, "expected authority"⟩
  msg.params.validate
  return { s with params := msg.params }

/-! ## Fees -/

/-- What the fee of a message depends on: its type, the number of required signers
where it is an agreement, and recipient and amount where it is a transfer. -/
structure FeeMsg where
  typeURL : Bytes
  requiredSigners : Option Nat
  transfer : Option (Bytes × Bytes)

def Params.feeFor (p : Params) (msgTypeURL : Bytes) : Int :=
  match (p.fees.filter fun f => f.msgTypeUrl = msgTypeURL).findSome?
      (fun f => newIntFromString f.fee) with
  | some v => v
  | none => (newIntFromString p.defaultFee).getD 0

def Params.agreementSurcharge (p : Params) (m : FeeMsg) : Result Int :=
  match m.requiredSigners with
  | some signers =>
    if m.typeURL = msgCreateAgreementTypeURL ∧ p.agreementFreeSigners < signers then
      match newIntFromString p.agreementExtraSignerFee with
      | some extra =>
        if 0 < extra then intMul extra (signers - p.agreementFreeSigners : Int) else .ok 0
      | none => .ok 0
    else .ok 0
  | none => .ok 0

def Params.feeForMsg (p : Params) (m : FeeMsg) : Result Int := do
  let surcharge ← p.agreementSurcharge m
  intAdd (p.feeFor m.typeURL) surcharge

/-- Split of a message type; an unlisted type pays the validator. -/
def Params.splitFor (p : Params) (msgTypeURL : Bytes) : SplitEntry :=
  (p.splits.find? fun s => s.msgTypeUrl = msgTypeURL).getD ⟨msgTypeURL, 10000, 0⟩

/-- The company's part of a fee, and the rest, which is the validator's. -/
def SplitEntry.companyShare (s : SplitEntry) (fee : Int) : Result (Int × Int) := do
  let num ← intMul fee s.companyBps
  let validator ← intSub fee (quo num bpsDenominator)
  return (quo num bpsDenominator, validator)

inductive RevenueStream where
  | validator
  | company
  deriving DecidableEq

/-- Contribution of one message type to one stream of a collected fee. -/
structure RevenueLeg where
  msgTypeURL : Bytes
  stream : RevenueStream
  amount : Int
  deriving DecidableEq

/-- Routing of a transaction's fixed fee. -/
structure FeeSplit where
  total : Int
  validator : Int
  company : Int
  legs : List RevenueLeg
  deriving DecidableEq

def newFeeSplit : FeeSplit := ⟨0, 0, 0, []⟩

/-- Leg of a stream; a share that is not positive leaves none. -/
def revenueLeg (msgTypeURL : Bytes) (stream : RevenueStream) (amount : Int) : List RevenueLeg :=
  if 0 < amount then [⟨msgTypeURL, stream, amount⟩] else []

/-- Add the fee of one message; a message without a positive fee adds nothing. -/
def Params.addMsgFee (p : Params) (out : FeeSplit) (m : FeeMsg) : Result FeeSplit := do
  let fee ← p.feeForMsg m
  if 0 < fee then
    let (company, validator) ← (p.splitFor m.typeURL).companyShare fee
    let total ← intAdd out.total fee
    let companySum ← intAdd out.company company
    let validatorSum ← intAdd out.validator validator
    return ⟨total, validatorSum, companySum, out.legs ++
      revenueLeg m.typeURL .validator validator ++ revenueLeg m.typeURL .company company⟩
  else return out

/-- Fee split of a list of messages. -/
def Params.computeFeeSplit (p : Params) (msgs : List FeeMsg) : Result FeeSplit :=
  msgs.foldlM p.addMsgFee newFeeSplit

/-- Daily micro-exemption: a single small transfer between identified humans, within
the payer's quota. -/
def isMicroExempt (ctx : Ctx) (s : Store) (payer : Bytes) (msgs : List FeeMsg) : Bool :=
  match msgs with
  | [m] =>
    match m.transfer with
    | some (recipient, amount) =>
      match newIntFromString amount, ctx.subjectDID payer, ctx.subjectDID recipient with
      | some amt, some did, some other =>
        s.params.microDailyQuota ≠ 0 ∧ did ≠ [] ∧ other ≠ [] ∧
          amt < (newIntFromString s.params.microThreshold).getD 0 ∧
          s.getMicroUsed ctx.dayIndex did < s.params.microDailyQuota
      | _, _, _ => false
    | none => false
  | _ => false

def consumeMicroExemption (ctx : Ctx) (s : Store) (payer : Bytes) : Store :=
  match ctx.subjectDID payer with
  | some did => if did = [] then s else s.incrMicroUsed ctx.dayIndex did
  | none => s

/-- The fee leg for one recipient module; a leg that is not positive is not sent. -/
def payLeg (ctx : Ctx) (deductFrom : Bytes) (m : ModuleName) (amount : Int) (b : Bank) :
    Result Bank :=
  if 0 < amount then b.sendCoinsFromAccountToModule ctx.accounts deductFrom m (coinsOf amount)
  else .ok b

/-- Fixed-fee decorator on a delivered transaction: both legs are sends from the
account charged, and an exempt transaction uses up quota instead. -/
def deductFee (ctx : Ctx) (payer deductFrom : Bytes) (msgs : List FeeMsg) (b : Bank) (s : Store) :
    Result (Bank × Store) := do
  if isMicroExempt ctx s (accAddressString payer) msgs then
    return (b, consumeMicroExemption ctx s (accAddressString payer))
  else
    let split ← s.params.computeFeeSplit msgs
    if 0 < split.total then
      let b ← payLeg ctx deductFrom .feeCollector split.validator b
      let b ← payLeg ctx deductFrom .phiRevenue split.company b
      return (b, s)
    else
      return (b, s)

end PhiChain.Coin
