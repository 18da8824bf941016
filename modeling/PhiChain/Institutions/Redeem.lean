import PhiChain.Institutions.Mint
import Mathlib.Algebra.Order.Ring.Int

/-!
# Institutions: redemption

`institutionRedeem` burns a holder's coin against an institution's vault. The
surrendered amount is split into the burned part, a multiple of the uphi of one
toman, and the carve-out that goes to the revenue account (`computeRedeemSplit`).
`redeemSplit_spec` is the law of the split that solvency and the redeem floor rest
on.
-/

set_option autoImplicit false

namespace PhiChain.Institutions

open Foundations Sdk
open PhiChain.Coin (uphiPerPhi coinsOf denom)

variable {D : Type} [LinearOrder D]

/-! ## Redeem split -/

structure RedeemSplit where
  uphiIn : Int
  burned : Int
  protocolFee : Int
  penalty : Int
  dust : Int
  carved : Int
  tomanOut : Int

/-- Uphi of one toman. -/
def uphiPerToman (phiToToman : Nat) : Int := quo uphiPerPhi phiToToman

/-- Clamp a carve-out to the surrendered amount: carve, fee and penalty. -/
def clampCarve (uphiIn protocolFee penalty : Int) : Int × Int × Int :=
  let carve := protocolFee + penalty
  if uphiIn < carve then
    let fee := if uphiIn < protocolFee then uphiIn else protocolFee
    (uphiIn, fee, uphiIn - fee)
  else (carve, protocolFee, penalty)

/-- Divide a surrendered amount into burned part, protocol fee, penalty and dust. -/
def computeRedeemSplit (uphiIn protocolFee penalty : Int) (phiToToman : Nat) : RedeemSplit :=
  let k := uphiPerToman phiToToman
  let (carve, fee, pen) := clampCarve uphiIn protocolFee penalty
  let burnable := uphiIn - carve
  let roundedDown := burnable - burnable % k
  -- the carve-out consumed all but a sub-toman remainder: one toman is burned anyway
  let lifted := roundedDown ≤ 0 ∧ k ≤ uphiIn
  let burned := if lifted then k else roundedDown
  let shortfall := k - burnable
  let fromPenalty := min shortfall pen
  let pen' := if lifted then pen - fromPenalty else pen
  let fee' := if lifted then fee - min (shortfall - fromPenalty) fee else fee
  let carved := uphiIn - burned
  { uphiIn := uphiIn
    burned := burned
    protocolFee := fee'
    penalty := pen'
    dust := carved - fee' - pen'
    carved := carved
    tomanOut := quo burned k }

/-- A clamped carve-out stays between nothing and the surrendered amount. -/
theorem clampCarve_bounds {uphiIn protocolFee penalty : Int} (hin : 0 ≤ uphiIn)
    (hfee : 0 ≤ protocolFee) (hpen : 0 ≤ penalty) :
    0 ≤ (clampCarve uphiIn protocolFee penalty).1 ∧
      (clampCarve uphiIn protocolFee penalty).1 ≤ uphiIn := by
  rcases lt_or_ge uphiIn (protocolFee + penalty) with h | h
  · simp only [clampCarve, if_pos h]
    exact ⟨hin, le_refl _⟩
  · simp only [clampCarve, if_neg (not_lt.2 h)]
    exact ⟨add_nonneg hfee hpen, h⟩

/-- What is burned: the burnable part rounded down to whole toman, or one toman where
that leaves nothing of a redemption worth at least one. -/
theorem computeRedeemSplit_burned (uphiIn protocolFee penalty : Int) (phiToToman : Nat) :
    let k := uphiPerToman phiToToman
    let burnable := uphiIn - (clampCarve uphiIn protocolFee penalty).1
    (computeRedeemSplit uphiIn protocolFee penalty phiToToman).burned =
      if burnable / k * k ≤ 0 ∧ k ≤ uphiIn then k else burnable / k * k := by
  intro k burnable
  have hround : burnable - burnable % k = burnable / k * k := by
    rw [Int.emod_def, mul_comm]
    omega
  rw [← hround]
  rfl

/-- The burned part lies within the surrendered amount, is worth a whole number of toman,
and is positive when at least one toman was surrendered. -/
theorem redeemSplit_spec {uphiIn protocolFee penalty : Int} {phiToToman : Nat}
    (hk : 0 < uphiPerToman phiToToman) (hin : 0 ≤ uphiIn) (hfee : 0 ≤ protocolFee)
    (hpen : 0 ≤ penalty) :
    let split := computeRedeemSplit uphiIn protocolFee penalty phiToToman
    split.burned ≤ uphiIn ∧ split.burned = split.tomanOut * uphiPerToman phiToToman ∧
      0 ≤ split.tomanOut ∧ (uphiPerToman phiToToman ≤ uphiIn → 0 < split.burned) := by
  intro split
  obtain ⟨hlow, hhigh⟩ := clampCarve_bounds hin hfee hpen
  have hburned := computeRedeemSplit_burned uphiIn protocolFee penalty phiToToman
  have htoman : split.tomanOut = quo split.burned (uphiPerToman phiToToman) := rfl
  change split.burned = _ at hburned
  generalize uphiPerToman phiToToman = k at *
  generalize hb : uphiIn - (clampCarve uphiIn protocolFee penalty).1 = burnable at *
  have hquot : 0 ≤ burnable / k := Int.ediv_nonneg (by omega) hk.le
  have hround : burnable / k * k ≤ burnable := Int.ediv_mul_le burnable hk.ne'
  have hnonneg : 0 ≤ burnable / k * k := mul_nonneg hquot hk.le
  split at hburned
  · -- one toman is burned although the carve-out left less
    rename_i hlift
    have hone : split.tomanOut = 1 := by
      rw [htoman, hburned]
      exact Int.tdiv_self hk.ne'
    refine ⟨hburned ▸ hlift.2, ?_, ?_, fun _ => hburned ▸ hk⟩
    · rw [hone, one_mul, hburned]
    · omega
  · rename_i hlift
    have hquo : split.tomanOut = burnable / k := by
      rw [htoman, hburned]
      exact Int.mul_tdiv_cancel _ hk.ne'
    refine ⟨by omega, by rw [hquo, hburned], hquo ▸ hquot, fun hle => ?_⟩
    rw [hburned]
    by_contra hpos
    exact hlift ⟨not_lt.1 hpos, hle⟩

/-! ## Redeem caps -/

/-- Redeem-subject bucket of a holder: its DID, or the shared unidentified bucket. -/
def redeemSubject (ctx : Ctx) (holder : Bytes) : Byte × Bytes :=
  match ctx.subjectDID (accAddressString holder) with
  | some did =>
    if did ≠ [] then (redeemSubjectDID, did)
    else (redeemSubjectUnidentified, unidentifiedRedeemSubject)
  | none => (redeemSubjectUnidentified, unidentifiedRedeemSubject)

/-- Uphi the holder's subject has redeemed today across all institutions. -/
def subjectTotal (ctx : Ctx) (s : Store D) (holder : Bytes) : Int :=
  s.getRedeemSubjectTotal ctx.dayIndex (redeemSubject ctx holder).1 (redeemSubject ctx holder).2

/-- Whether the request stays within the floor reserved for every subject. -/
def withinFloorReservation (ctx : Ctx) (s : Store D) (holder : Bytes) (uphi : Int) : Result Bool :=
  let floorToman := capInt s.params.redeemFloorPerTx
  if 0 < floorToman then do
    let floorUphi ← mintedUphiForToman floorToman s.params.phiToToman
    if floorUphi.2 = true ∧ 0 < floorUphi.1 then
      let total ← intAdd (subjectTotal ctx s holder) uphi
      return total ≤ floorUphi.1
    else return false
  else .ok false

theorem withinFloorReservation_le {ctx : Ctx} {s : Store D} {holder : Bytes} {uphi : Int}
    (h : withinFloorReservation ctx s holder uphi = .ok true) :
    subjectTotal ctx s holder + uphi ≤
      uphiForToman (capInt s.params.redeemFloorPerTx) s.params.phiToToman := by
  unfold withinFloorReservation at h
  dsimp only at h
  split at h
  · obtain ⟨floorUphi, hfloor, h⟩ := bind_eq_ok.1 h
    obtain ⟨-, rfl⟩ := mintedUphiForToman_ok.1 hfloor
    split at h
    · simp only [bind_eq_ok, intAdd_eq_ok, pure_eq_ok] at h
      obtain ⟨total, ⟨-, rfl⟩, hle⟩ := h
      exact of_decide_eq_true hle
    · cases h
  · cases h

/-- Redeem limit of a holder: the recorded tier's, failing closed to the strictest. -/
def effectiveKycDailyLimit (s : Store D) (inst : Institution) (holder : Bytes) : Int :=
  let byTier :=
    match s.kycTiers.get? ⟨inst.id, holder⟩ with
    | some tier => kycTierDailyLimit inst.params tier
    | none => 0
  if 0 < byTier then byTier else (strictestKycLimit inst.params).getD 0

def emergencyCapOrDefault (v dflt : Bytes) : Int := if v = [] then capInt dflt else capInt v

/-- Cumulative emergency cap by time since activation; none from day 90. -/
def emergencyCapForElapsed (em : EmergencyRedemption) (elapsed : Int) : Option Int :=
  if elapsed < emergencyDay30 then some (capInt em.capBeforeDay30)
  else if elapsed < emergencyDay60 then
    some (emergencyCapOrDefault em.capFromDay30 defaultEmergencyCapFromDay30Toman)
  else if elapsed < emergencyDay90 then
    some (emergencyCapOrDefault em.capFromDay60 defaultEmergencyCapFromDay60Toman)
  else none

/-- The emergency cap in force, if any. -/
def activeEmergencyCap (ctx : Ctx) (s : Store D) : Option Int :=
  let em := s.params.emergencyRedemption
  if em.active then emergencyCapForElapsed em (ctx.blockTime - em.startedAt) else none

def emergencyKey (s : Store D) (inst : Institution) (holder : Bytes) : Bytes :=
  counterUserKey inst.id kindEmergency s.params.emergencyRedemption.startedAt holder

/-- The institution's daily cap, which gives way to a subject within the reserved floor. -/
def enforceRedeemDaily (ctx : Ctx) (s : Store D) (inst : Institution) (holder : Bytes)
    (toman uphi : Int) : Result Unit :=
  if UnderCap (atLeastFloor (capInt inst.params.caps.redeemDaily) (capInt s.params.redeemFloorPerTx))
      (s.getCounter (counterTotalKey inst.id kindRedeemDaily ctx.dayIndex) + toman) then .ok ()
  else do
    let reserved ← withinFloorReservation ctx s holder uphi
    ensure (reserved = true) ⟨.capExceeded, "redeem daily cap"⟩

/-- The redeem caps, each raised to the floor. A sum beyond 256 bits is over every cap. -/
def enforceRedeemCaps (ctx : Ctx) (s : Store D) (inst : Institution) (holder : Bytes)
    (toman uphi : Int) : Result Unit := do
  let caps := inst.params.caps
  let floor := capInt s.params.redeemFloorPerTx
  let user := s.getCounter (counterUserKey inst.id kindRedeemUser ctx.dayIndex holder)
  ensure (UnderCap (atLeastFloor (capInt caps.redeemPerTx) floor) toman)
    ⟨.capExceeded, "redeem per_tx"⟩
  enforceRedeemDaily ctx s inst holder toman uphi
  ensure (UnderCap (atLeastFloor (capInt caps.redeemPerUser) floor) (user + toman))
    ⟨.capExceeded, "redeem per_user cap"⟩
  ensure (UnderCap (atLeastFloor (effectiveKycDailyLimit s inst holder) floor) (user + toman))
    ⟨.kycTierExceeded, "redeem KYC tier daily limit"⟩
  let floorUphi ← s.params.redeemFloorUphi
  ensure (UnderCap (atLeastFloor (capInt s.params.redeemDailyCapPerDidUphi) floorUphi)
      (subjectTotal ctx s holder + uphi))
    ⟨.capExceeded, "network-wide per-DID daily redeem cap"⟩
  ensure (∀ c ∈ activeEmergencyCap ctx s, s.getCounter (emergencyKey s inst holder) + toman ≤ c)
    ⟨.redemptionThrottled, "emergency cumulative cap"⟩

def addRedeemCounters (ctx : Ctx) (s : Store D) (inst : Institution) (holder : Bytes)
    (toman uphi : Int) : Store D :=
  let s₁ := s.addCounter (counterTotalKey inst.id kindRedeemDaily ctx.dayIndex) toman
  let s₂ := s₁.addCounter (counterUserKey inst.id kindRedeemUser ctx.dayIndex holder) toman
  let subject := redeemSubject ctx holder
  let s₃ := s₂.addRedeemSubjectTotal ctx.dayIndex subject.1 subject.2 uphi
  if (activeEmergencyCap ctx s).isSome then s₃.addCounter (emergencyKey s inst holder) toman
  else s₃

/-- The sums that the counters of a redemption come to. -/
def redeemCounterSums (ctx : Ctx) (s : Store D) (inst : Institution) (holder : Bytes)
    (toman uphi : Int) : List Int :=
  [s.getCounter (counterTotalKey inst.id kindRedeemDaily ctx.dayIndex) + toman,
    s.getCounter (counterUserKey inst.id kindRedeemUser ctx.dayIndex holder) + toman,
    subjectTotal ctx s holder + uphi] ++
  if (activeEmergencyCap ctx s).isSome then [s.getCounter (emergencyKey s inst holder) + toman]
  else []

/-! ## The redeem handler -/

structure MsgInstitutionRedeem where
  admin : Bytes
  institution : Bytes
  holder : Bytes
  amountToman : Bytes
  redeemRef : Bytes
  fxCurrency : Bytes
  fxAmount : Bytes
  fxTxRef : Bytes

def MsgInstitutionRedeem.validateBasic (msg : MsgInstitutionRedeem) : Result Unit := do
  ensure ((accAddressFromBech32 msg.admin).isSome) ⟨.invalidAddress, "invalid admin"⟩
  ensure ((accAddressFromBech32 msg.holder).isSome) ⟨.invalidAddress, "invalid holder"⟩
  ensure (msg.admin = msg.holder) ⟨.unauthorized, "redeem must be signed by the holder"⟩
  ensure (msg.institution ≠ []) ⟨.institutionNotFound, "institution cannot be empty"⟩
  ensure (Coin.amountIs msg.amountToman fun v => 0 < v) ⟨.invalidAmount, "amount_toman"⟩
  validateRefLen "redeem_ref" msg.redeemRef
  validateFxFieldLens msg.fxCurrency msg.fxAmount msg.fxTxRef

/-- What the checks of a redemption settle on. -/
structure RedeemPlan where
  inst : Institution
  holder : Bytes
  toman : Int
  uphi : Int

/-- Checks of a redemption, up to the pricing of the penalty. -/
def redeemChecks (ctx : Ctx) (msg : MsgInstitutionRedeem) (s : Store D) : Result RedeemPlan := do
  let inst ← orFail (s.getInstitution msg.institution) ⟨.institutionNotFound, "id"⟩
  ensure (msg.admin = msg.holder) ⟨.unauthorized, "redeem must be signed by the holder"⟩
  validateFxMetadata inst.institutionType msg.fxCurrency msg.fxAmount msg.fxTxRef
  ensure (msg.redeemRef ≠ []) ⟨.missingRef, "redeem_ref is required"⟩
  ensure (s.depositSeen inst.id directionRedeem msg.redeemRef = false)
    ⟨.duplicateDeposit, "redeem_ref"⟩
  let toman ← positiveAmount msg.amountToman "amount_toman"
  ensure (toman ≤ inst.vaultBalance) ⟨.insufficientVault, "amount > vault_balance"⟩
  let uphi ← integralUphi s toman
  let holder ← orFail (accAddressFromBech32 msg.holder) ⟨.invalidAddress, "holder"⟩
  enforceRedeemCaps ctx s inst holder toman uphi
  return ⟨inst, holder, toman, uphi⟩

/-- What a redemption that passed its checks satisfies. -/
structure RedeemAccepted (ctx : Ctx) (msg : MsgInstitutionRedeem) (s : Store D)
    (plan : RedeemPlan) : Prop where
  found : s.getInstitution msg.institution = some plan.inst
  consent : msg.admin = msg.holder
  fx : validateFxMetadata plan.inst.institutionType msg.fxCurrency msg.fxAmount msg.fxTxRef = .ok ()
  ref : msg.redeemRef ≠ []
  fresh : s.depositSeen plan.inst.id directionRedeem msg.redeemRef = false
  toman : newIntFromString msg.amountToman = some plan.toman
  positive : 0 < plan.toman
  vault : plan.toman ≤ plan.inst.vaultBalance
  uphi : integralUphi s plan.toman = .ok plan.uphi
  holder : accAddressFromBech32 msg.holder = some plan.holder
  caps : enforceRedeemCaps ctx s plan.inst plan.holder plan.toman plan.uphi = .ok ()

/-- The checks of a redemption, taken apart and put together again. -/
theorem redeemChecks_ok {ctx : Ctx} {msg : MsgInstitutionRedeem} {s : Store D}
    {plan : RedeemPlan} : redeemChecks ctx msg s = .ok plan ↔ RedeemAccepted ctx msg s plan := by
  simp only [redeemChecks, positiveAmount, bind_eq_ok, ensure_eq_ok, orFail_eq_ok, pure_eq_ok,
    exists_const]
  constructor
  · rintro ⟨inst, found, consent, ⟨⟩, fx, ref, fresh, toman, ⟨v, htoman, positive, rfl⟩, vault,
      uphi, huphi, holder, hholder, ⟨⟩, caps, rfl⟩
    exact ⟨found, consent, fx, ref, fresh, htoman, positive, vault, huphi, hholder, caps⟩
  · intro h
    exact ⟨plan.inst, h.found, h.consent, (), h.fx, h.ref, h.fresh, plan.toman,
      ⟨plan.toman, h.toman, h.positive, rfl⟩, h.vault, plan.uphi, h.uphi, plan.holder, h.holder, (),
      h.caps, rfl⟩

/-- Price the penalty on the holder's lots and split the surrendered amount. -/
def redeemPricing (ctx : Ctx) (msg : MsgInstitutionRedeem) (plan : RedeemPlan) (w : World D) :
    Result (RedeemSplit × Coin.Store) := do
  ensureFit (w.coin.penaltyAmounts ctx.blockTime msg.holder plan.uphi)
  let (rawPenalty, coin) := w.coin.earlyRedeemPenalty ctx.blockTime msg.holder plan.uphi
  let penalty := if rawPenalty < 0 then 0 else rawPenalty
  ensure (uphiPerToman w.inst.params.phiToToman ≤ plan.uphi)
    ⟨.belowMinRedeem, "below the minimum redeemable amount"⟩
  let fee := w.inst.params.protocolFee plan.uphi
  ensureFit [plan.uphi * w.inst.params.protocolFeeBps, fee + penalty]
  let split := computeRedeemSplit plan.uphi fee penalty w.inst.params.phiToToman
  ensure (0 < split.burned) ⟨.nothingRedeemed, "the carve-out consumes the whole redemption"⟩
  return (split, coin)

/-- Withdraw the surrendered coin, carve out the revenue and burn the rest. -/
def redeemTransfers (ctx : Ctx) (plan : RedeemPlan) (split : RedeemSplit) (b : Bank) :
    Result Bank := do
  let b ← b.sendCoinsFromAccountToModule ctx.accounts plan.holder .institutions
    (coinsOf plan.uphi)
  let b ← if 0 < split.carved then
      b.sendCoinsFromModuleToModule ctx.accounts .institutions .phiRevenue (coinsOf split.carved)
    else .ok b
  b.burnCoins ctx.accounts .institutions (coinsOf split.burned)

/-- Lower the vault by the value of what was burned; record counters and the
idempotency marker. -/
def redeemStore (ctx : Ctx) (msg : MsgInstitutionRedeem) (plan : RedeemPlan) (split : RedeemSplit)
    (s : Store D) : Store D :=
  let s := s.setInstitution
    { plan.inst with vaultBalance := plan.inst.vaultBalance - split.tomanOut }
  let s := addRedeemCounters ctx s plan.inst plan.holder plan.toman plan.uphi
  s.markDeposit plan.inst.id directionRedeem msg.redeemRef

/-- The state a redemption builds. -/
def redeemedWorld (ctx : Ctx) (msg : MsgInstitutionRedeem) (plan : RedeemPlan)
    (split : RedeemSplit) (coin : Coin.Store) (w : World D) : Result (World D) := do
  let bank ← redeemTransfers ctx plan split w.bank
  ensureFit (redeemCounterSums ctx w.inst plan.inst plan.holder plan.toman plan.uphi)
  return ⟨bank, coin, redeemStore ctx msg plan split w.inst⟩

def executeRedeem (ctx : Ctx) (msg : MsgInstitutionRedeem) (plan : RedeemPlan)
    (split : RedeemSplit) (coin : Coin.Store) (w : World D) : Result (World D) := do
  let w' ← redeemedWorld ctx msg plan split coin w
  assertSolvency w'
  return w'

theorem redeemedWorld_ok {ctx : Ctx} {msg : MsgInstitutionRedeem} {plan : RedeemPlan}
    {split : RedeemSplit} {coin : Coin.Store} {w w' : World D}
    (h : redeemedWorld ctx msg plan split coin w = .ok w') :
    ∃ b, redeemTransfers ctx plan split w.bank = .ok b ∧
      w' = ⟨b, coin, redeemStore ctx msg plan split w.inst⟩ := by
  simp only [redeemedWorld, bind_eq_ok, pure_eq_ok] at h
  obtain ⟨b, hb, ⟨⟩, -, rfl⟩ := h
  exact ⟨b, hb, rfl⟩

/-- The redeem handler; the response is the burned amount. -/
def institutionRedeem (ctx : Ctx) (msg : MsgInstitutionRedeem) (w : World D) :
    Result (Int × World D) := do
  let plan ← redeemChecks ctx msg w.inst
  let (split, coin) ← redeemPricing ctx msg plan w
  let w ← executeRedeem ctx msg plan split coin w
  return (split.burned, w)

theorem institutionRedeem_ok {ctx : Ctx} {msg : MsgInstitutionRedeem} {w w' : World D}
    {burned : Int} (h : institutionRedeem ctx msg w = .ok (burned, w')) :
    ∃ plan split coin b, RedeemAccepted ctx msg w.inst plan ∧
      redeemPricing ctx msg plan w = .ok (split, coin) ∧
      redeemTransfers ctx plan split w.bank = .ok b ∧ burned = split.burned ∧
      w' = ⟨b, coin, redeemStore ctx msg plan split w.inst⟩ := by
  simp only [institutionRedeem, executeRedeem, bind_eq_ok, pure_eq_ok] at h
  obtain ⟨plan, hplan, ⟨split, coin⟩, hprice, w₁, ⟨_, hw, ⟨⟩, -, rfl⟩, heq⟩ := h
  obtain ⟨rfl, rfl⟩ := Prod.mk.inj heq
  obtain ⟨b, hb, rfl⟩ := redeemedWorld_ok hw
  exact ⟨plan, split, coin, b, redeemChecks_ok.1 hplan, hprice, hb, rfl, rfl⟩

end PhiChain.Institutions
