import PhiChain.App.Solvency
import PhiChain.App.Spelling
import PhiChain.Coin.Penalty

/-!
# The redemption floor

Every redeem cap is read through the floor, so a request within the floor passes all
seven of them (`enforceRedeemCaps_floor`); what it burns is positive, and in a solvent
state neither the bank nor the write-path assertion refuses it. `redeem_floor_open`
puts these together: whatever the institution's record says and others have redeemed,
a holder's redemption within the floor succeeds, as long as the amounts it computes with
fit 256 bits (`AmountsFit`). A floor that does not fit in uphi is accepted by the parameters
and closes every redemption (`redeem_floor_overflows`).
-/

set_option autoImplicit false

namespace PhiChain.App

open Foundations Sdk Institutions
open PhiChain.Coin (uphiPerPhi coinsOf denom)

variable {D : Type} [LinearOrder D]

/-! ## Caps -/

/-- A cap read through the floor admits what stays within the floor. -/
theorem underCap_atLeastFloor {cap floor counter : Int} (hfloor : 0 < floor)
    (h : counter ≤ floor) : UnderCap (atLeastFloor cap floor) counter := by
  intro hpos
  unfold atLeastFloor at hpos ⊢
  split
  · exact h
  · rename_i hcap
    rw [if_neg hcap] at hpos
    omega

/-- Uphi of a toman amount at the rate in force. -/
def uphiOf (p : Params) (toman : Int) : Int := uphiForToman toman p.phiToToman

theorem floor_pos (p : ValidParams) : 0 < capInt p.redeemFloorPerTx :=
  (Params.validate_facts p.valid).2.2.1

variable {toman : Int} {ctx : Ctx} {s : Store D} {inst : Institution}

theorem uphiOf_pos (p : ValidParams) (h : 0 < toman) : 0 < uphiOf p.toParams toman := by
  have hworth := p.uphiForToman_mul_rate toman
  have hpos : 0 < uphiForToman toman p.phiToToman * (p.phiToToman : Int) := by
    rw [hworth]
    exact mul_pos h (by decide)
  exact pos_of_mul_pos_left hpos p.rate_pos.le

/-- A rate is at least one, so the uphi of an amount fit where its millionths do. -/
theorem uphiOf_le (p : ValidParams) (h : 0 < toman) : uphiOf p.toParams toman ≤ toman * uphiPerPhi := by
  rw [← p.uphiForToman_mul_rate toman]
  exact le_mul_of_one_le_right (uphiOf_pos p h).le p.rate_pos

theorem mintedUphi_succeeds (p : ValidParams) (hfit : Fits (toman * uphiPerPhi)) :
    mintedUphiForToman toman p.phiToToman = .ok (uphiOf p.toParams toman, true) := by
  have hexact : toman * uphiPerPhi % (p.phiToToman : Int) = 0 :=
    Int.emod_eq_zero_of_dvd (p.rate_dvd.mul_left _)
  exact mintedUphiForToman_ok.2 ⟨hfit, by rw [decide_eq_true hexact]; rfl⟩

theorem subjectTotal_nonneg (ctx : Ctx) (s : Store D) (holder : Bytes) :
    0 ≤ subjectTotal ctx s holder := Int.natCast_nonneg _

/-- A request within the floor is within the reservation for its subject. -/
theorem withinFloorReservation_of_le {holder : Bytes} {uphi : Int} (huphi : 0 < uphi)
    (hfit : Fits (capInt s.params.redeemFloorPerTx * uphiPerPhi))
    (h : subjectTotal ctx s holder + uphi ≤
      uphiOf s.params.toParams (capInt s.params.redeemFloorPerTx)) :
    withinFloorReservation ctx s holder uphi = .ok true := by
  have hfloor := floor_pos s.params
  have hsubject := subjectTotal_nonneg ctx s holder
  have hsum : Fits (subjectTotal ctx s holder + uphi) :=
    fits_of_le (by omega) (h.trans (uphiOf_le s.params hfloor)) hfit
  unfold withinFloorReservation
  dsimp only
  rw [if_pos hfloor, mintedUphi_succeeds s.params hfit, ok_bind,
    if_pos ⟨rfl, uphiOf_pos s.params hfloor⟩, intAdd_eq_ok.2 ⟨hsum, rfl⟩, ok_bind, decide_eq_true h]
  rfl

/-- What a holder has redeemed today at an institution. -/
def redeemedToday (ctx : Ctx) (s : Store D) (inst : Institution) (holder : Bytes) : Int :=
  s.getCounter (counterUserKey inst.id kindRedeemUser ctx.dayIndex holder)

/-- A request within the floor, for its subject and for its holder, passes every cap. -/
theorem enforceRedeemCaps_floor {holder : Bytes} {uphi : Int} (huphi : 0 < uphi)
    (hfit : Fits (capInt s.params.redeemFloorPerTx * uphiPerPhi))
    (hemergency : s.params.emergencyRedemption.active = false)
    (hsubject : subjectTotal ctx s holder + uphi ≤
      uphiOf s.params.toParams (capInt s.params.redeemFloorPerTx))
    (huser : redeemedToday ctx s inst holder + toman ≤ capInt s.params.redeemFloorPerTx) :
    enforceRedeemCaps ctx s inst holder toman uphi = .ok () := by
  have hfloor := floor_pos s.params
  have hfloorUphi := uphiOf_pos s.params hfloor
  have hnonneg : 0 ≤ redeemedToday ctx s inst holder := Store.getCounter_nonneg _ _
  have hquiet : activeEmergencyCap ctx s = none := by simp [activeEmergencyCap, hemergency]
  have hdaily : enforceRedeemDaily ctx s inst holder toman uphi = .ok () := by
    unfold enforceRedeemDaily
    split
    · rfl
    · rw [withinFloorReservation_of_le huphi hfit hsubject]
      rfl
  simp only [enforceRedeemCaps, bind_eq_ok, ensure_eq_ok, exists_const, hquiet]
  exact ⟨underCap_atLeastFloor hfloor (by omega), (), hdaily,
    underCap_atLeastFloor hfloor huser, underCap_atLeastFloor hfloor huser, _,
    s.params.redeemFloorUphi_ok.2 ⟨hfit, rfl⟩, underCap_atLeastFloor hfloorUphi hsubject, by simp⟩

/-! ## Pricing and transfers -/

/-- Pricing a redemption of at least one toman succeeds and burns something. -/
theorem redeemPricing_succeeds {msg : MsgInstitutionRedeem} {plan : RedeemPlan} {w : World D}
    (hpos : 0 < plan.toman) (huphi : plan.uphi = uphiOf w.inst.params.toParams plan.toman)
    (hfee : Fits (plan.uphi * w.inst.params.protocolFeeBps))
    (hyoung : Fits (plan.uphi * w.coin.params.youngPenaltyBps))
    (hold : Fits (plan.uphi * w.coin.params.oldPenaltyBps)) :
    ∃ split coin, redeemPricing ctx msg plan w = .ok (split, coin) ∧
      PricedSplit w.inst.params plan split ∧ 0 < split.burned := by
  have hunit := uphiPerToman_pos w.inst.params
  have hin : 0 < plan.uphi := huphi ▸ uphiOf_pos w.inst.params hpos
  have hworth : plan.uphi * (w.inst.params.phiToToman : Int) = plan.toman * uphiPerPhi := by
    rw [huphi]
    exact w.inst.params.uphiForToman_mul_rate plan.toman
  have hone : uphiPerToman w.inst.params.phiToToman ≤ plan.uphi := by
    apply le_of_mul_le_mul_right _ w.inst.params.rate_pos
    rw [hworth, uphiPerToman_mul_rate]
    exact le_mul_of_one_le_left (by decide) hpos
  obtain ⟨hamounts, hpen, hscaled⟩ := @Coin.penaltyAmounts_fit ctx.blockTime w.coin msg.holder
    plan.uphi hin hyoung hold
  set raw := (w.coin.earlyRedeemPenalty ctx.blockTime msg.holder plan.uphi).1
  have hraw : (if raw < 0 then 0 else raw) = raw := if_neg (not_lt.2 hpen)
  have hfeeNonneg := protocolFee_nonneg w.inst.params.toParams hin.le
  -- both carve-outs are ten-thousandths of amounts that fit
  have hsum : Fits (w.inst.params.protocolFee plan.uphi + raw) := by
    have hquo : w.inst.params.protocolFee plan.uphi * Coin.bpsDenominator ≤
        plan.uphi * w.inst.params.protocolFeeBps := by
      unfold Params.protocolFee
      split
      · rename_i hzero
        simp [hzero]
      · rw [quo_of_nonneg (mul_nonneg hin.le (Int.natCast_nonneg _))]
        exact Int.ediv_mul_le _ Coin.bpsDenominator_pos.ne'
    unfold Fits maxBitLen Coin.bpsDenominator at *
    omega
  have hburned := (redeemSplit_spec hunit hin.le hfeeNonneg hpen).2.2.2 hone
  refine ⟨computeRedeemSplit plan.uphi (w.inst.params.protocolFee plan.uphi) raw
      w.inst.params.phiToToman,
    (w.coin.earlyRedeemPenalty ctx.blockTime msg.holder plan.uphi).2, ?_,
    pricedSplit hworth hin.le hpen, hburned⟩
  simp only [redeemPricing, bind_eq_ok, ensure_eq_ok, ensureFit_eq_ok, exists_const, pure_eq_ok]
  refine ⟨hamounts, hone, ?_, ?_⟩
  · rw [hraw]
    exact List.forall_mem_cons.2 ⟨hfee, List.forall_mem_cons.2 ⟨hsum, by simp⟩⟩
  · rw [hraw]
    exact ⟨hburned, rfl⟩

/-- The bank carries a redemption out when the holder can spend the amount and the supply
covers it. -/
theorem redeemTransfers_succeeds {plan : RedeemPlan} {split : RedeemSplit} {b : Bank}
    {p : ValidParams} (hsplit : PricedSplit p plan split) (hburned : 0 < split.burned)
    (hnonneg : b.BalancesNonneg)
    (hspendable : plan.uphi ≤ b.spendable ctx.accounts plan.holder denom)
    (hsupply : plan.uphi ≤ b.getSupply denom) :
    ∃ b', redeemTransfers ctx plan split b = .ok b' := by
  have hle := hsplit.burned_le
  have hcarved := hsplit.carved
  have huphi : 0 < plan.uphi := hburned.trans_le hle
  let vault := ctx.accounts.moduleAddress .institutions
  have hcoin : ∀ {v : Int}, 0 < v → coinsOf v = [⟨denom, v⟩] := fun hv => if_neg hv.ne'
  -- the surrendered coin is at the module account afterwards
  obtain ⟨b₁, hb₁, hsupply₁, hbalance₁⟩ :=
    Bank.sendCoins_single (c := ⟨denom, plan.uphi⟩) vault huphi hspendable
  have hvault₁ : plan.uphi ≤ b₁.getBalance vault denom := by
    have hvault := hbalance₁ vault
    have hbefore := hnonneg vault denom
    have hlocked := ctx.accounts.locked_module .institutions denom
    dsimp only at hvault
    rw [if_pos rfl] at hvault
    split at hvault
    · rename_i hsame
      -- the module account itself redeems: its balance covers the amount
      unfold Bank.spendable at hspendable
      rw [hsame, hlocked] at hspendable
      omega
    · omega
  have hburn : ∀ {b₂ : Bank}, split.burned ≤ b₂.getBalance vault denom →
      b₂.getSupply denom = b.getSupply denom →
      ∃ b', b₂.burnCoins ctx.accounts .institutions (coinsOf split.burned) = .ok b' := by
    intro b₂ hvault₂ hsupply₂
    rw [hcoin hburned]
    exact Bank.burnCoins_single rfl hburned hvault₂ (by rw [hsupply₂]; exact hle.trans hsupply)
  unfold redeemTransfers
  have hfirst : b.sendCoinsFromAccountToModule ctx.accounts plan.holder .institutions
      (coinsOf plan.uphi) = .ok b₁ := by
    rw [hcoin huphi]
    exact hb₁
  rcases lt_or_ge 0 split.carved with hcarve | hcarve
  · have hspend₁ : split.carved ≤ b₁.spendable ctx.accounts vault denom := by
      unfold Bank.spendable
      rw [ctx.accounts.locked_module]
      omega
    obtain ⟨b₂, hb₂, hsupply₂, hbalance₂⟩ := Bank.sendCoins_single (c := ⟨denom, split.carved⟩)
      (ctx.accounts.moduleAddress .phiRevenue) hcarve hspend₁
    have hvault₂ : split.burned ≤ b₂.getBalance vault denom := by
      have hvault := hbalance₂ vault
      dsimp only at hvault
      rw [if_pos rfl] at hvault
      split at hvault
      · omega
      · omega
    obtain ⟨b', hb'⟩ := hburn hvault₂ ((hsupply₂ denom).trans (hsupply₁ denom))
    refine ⟨b', bind_eq_ok.2 ⟨b₁, hfirst, ?_⟩⟩
    rw [if_pos hcarve]
    refine bind_eq_ok.2 ⟨b₂, ?_, hb'⟩
    rw [hcoin hcarve]
    exact hb₂
  · obtain ⟨b', hb'⟩ := hburn (hle.trans hvault₁) (hsupply₁ denom)
    refine ⟨b', bind_eq_ok.2 ⟨b₁, hfirst, ?_⟩⟩
    rw [if_neg (not_lt.2 hcarve)]
    exact bind_eq_ok.2 ⟨b₁, rfl, hb'⟩

/-! ## The floor is open -/

theorem vaultBalance_le_sum (h : s.VaultsNonneg) {id : Bytes}
    (hfound : s.getInstitution id = some inst) : inst.vaultBalance ≤ s.sumVaultBalance := by
  apply List.single_le_sum
  · intro x hx
    obtain ⟨e, he, rfl⟩ := List.mem_map.1 hx
    exact h e.1 e.2 (OrdMap.mem_entries.1 he)
  · exact List.mem_map.2 ⟨(id, inst), OrdMap.mem_entries.2 hfound, rfl⟩

/-- In a solvent state the supply covers the uphi of any vault. -/
theorem uphiOf_le_supply {w : World D} (h : w.Solvent) {id : Bytes}
    (hfound : w.inst.getInstitution id = some inst) (hvault : toman ≤ inst.vaultBalance) :
    uphiOf w.inst.params.toParams toman ≤ w.bank.getSupply denom := by
  have hbalanced : w.bank.getSupply denom * (w.inst.params.phiToToman : Int) =
      w.inst.sumVaultBalance * uphiPerPhi := h.balanced
  have hsum : toman ≤ w.inst.sumVaultBalance := hvault.trans (vaultBalance_le_sum h.vaults hfound)
  have hworth : uphiOf w.inst.params.toParams toman * (w.inst.params.phiToToman : Int) =
      toman * uphiPerPhi := w.inst.params.uphiForToman_mul_rate toman
  apply le_of_mul_le_mul_right _ w.inst.params.rate_pos
  rw [hworth, hbalanced]
  exact mul_le_mul_of_nonneg_right hsum (by decide)

/-- A redemption of a holder within the floor: a well-formed message with a fresh reference,
covered by the holder's spendable balance and the vault, and within the floor together
with what the holder's subject and the holder have redeemed today. -/
structure WithinFloor (ctx : Ctx) (msg : MsgInstitutionRedeem) (w : World D) (inst : Institution)
    (holder : Bytes) (toman : Int) : Prop where
  basic : msg.validateBasic = .ok ()
  found : w.inst.getInstitution msg.institution = some inst
  fx : validateFxMetadata inst.institutionType msg.fxCurrency msg.fxAmount msg.fxTxRef = .ok ()
  ref : msg.redeemRef ≠ []
  fresh : w.inst.depositSeen inst.id directionRedeem msg.redeemRef = false
  signer : accAddressFromBech32 msg.holder = some holder
  amount : newIntFromString msg.amountToman = some toman
  vault : toman ≤ inst.vaultBalance
  spendable : uphiOf w.inst.params.toParams toman ≤ w.bank.spendable ctx.accounts holder denom
  subject : subjectTotal ctx w.inst holder + uphiOf w.inst.params.toParams toman ≤
    uphiOf w.inst.params.toParams (capInt w.inst.params.redeemFloorPerTx)
  user : redeemedToday ctx w.inst inst holder + toman ≤ capInt w.inst.params.redeemFloorPerTx

/-- Facts of a well-formed redemption message. -/
theorem redeem_basic {msg : MsgInstitutionRedeem} (h : msg.validateBasic = .ok ()) :
    msg.admin = msg.holder ∧ ∀ toman, newIntFromString msg.amountToman = some toman → 0 < toman := by
  simp only [MsgInstitutionRedeem.validateBasic, bind_eq_ok, ensure_eq_ok, exists_const] at h
  obtain ⟨-, -, hconsent, -, hamount, -⟩ := h
  refine ⟨hconsent, ?_⟩
  intro toman htoman
  unfold Coin.amountIs at hamount
  rw [htoman] at hamount
  exact of_decide_eq_true hamount

/-- The amounts that a redemption computes with fit 256 bits: the floor in millionths of a toman,
the products with the rates of fee and penalty, the institution's counter of the day, and the
supply times the rate. -/
structure AmountsFit (ctx : Ctx) (w : World D) (inst : Institution) (toman : Int) : Prop where
  floor : Fits (capInt w.inst.params.redeemFloorPerTx * uphiPerPhi)
  fee : Fits (uphiOf w.inst.params.toParams toman * w.inst.params.protocolFeeBps)
  young : Fits (uphiOf w.inst.params.toParams toman * w.coin.params.youngPenaltyBps)
  old : Fits (uphiOf w.inst.params.toParams toman * w.coin.params.oldPenaltyBps)
  daily : Fits (w.inst.getCounter (counterTotalKey inst.id kindRedeemDaily ctx.dayIndex) + toman)
  supply : Fits (w.totalSupplyUphi * (w.inst.params.phiToToman : Int))

/-- The counters of a redemption within the floor fit. -/
theorem redeemCounterSums_fit {msg : MsgInstitutionRedeem} {w : World D} {holder : Bytes}
    (hpos : 0 < toman) (hemergency : w.inst.params.emergencyRedemption.active = false)
    (h : WithinFloor ctx msg w inst holder toman) (hfit : AmountsFit ctx w inst toman) :
    ∀ v ∈ redeemCounterSums ctx w.inst inst holder toman (uphiOf w.inst.params.toParams toman),
      Fits v := by
  have hquiet : activeEmergencyCap ctx w.inst = none := by simp [activeEmergencyCap, hemergency]
  have hfloor := floor_pos w.inst.params
  have huser : 0 ≤ redeemedToday ctx w.inst inst holder := Store.getCounter_nonneg _ _
  have hsubject := subjectTotal_nonneg ctx w.inst holder
  have huphi := uphiOf_pos w.inst.params hpos
  have hunit : capInt w.inst.params.redeemFloorPerTx ≤
      capInt w.inst.params.redeemFloorPerTx * uphiPerPhi :=
    le_mul_of_one_le_right hfloor.le (by decide)
  unfold redeemCounterSums
  rw [hquiet]
  simp only [Option.isSome_none, Bool.false_eq_true, if_false, List.append_nil,
    List.forall_mem_cons]
  exact ⟨hfit.daily, fits_of_le (add_nonneg huser hpos.le) (h.user.trans hunit) hfit.floor,
    fits_of_le (by omega) (h.subject.trans (uphiOf_le w.inst.params hfloor)) hfit.floor, by simp⟩

/-- In every solvent state without an active emergency, for every institution record, a
redemption within the floor whose amounts fit succeeds and burns something, whatever other holders
have redeemed. -/
theorem redeem_floor_open (k : Keeper D) {ctx : Ctx} {msg : MsgInstitutionRedeem} {w : World D}
    {inst : Institution} {holder : Bytes} {toman : Int} (hsolvent : w.Solvent)
    (hbank : w.bank.BalancesNonneg) (hemergency : w.inst.params.emergencyRedemption.active = false)
    (h : WithinFloor ctx msg w inst holder toman) (hfit : AmountsFit ctx w inst toman) :
    ∃ burned w', institutionRedeem ctx msg w = .ok (burned, w') ∧ 0 < burned ∧
      apply k ctx w (.redeem msg) = .ok w' := by
  obtain ⟨hconsent, hamount⟩ := redeem_basic h.basic
  have hpos := hamount toman h.amount
  have huphi := uphiOf_pos w.inst.params hpos
  let plan : RedeemPlan := ⟨inst, holder, toman, uphiOf w.inst.params.toParams toman⟩
  have htoman : toman ≤ capInt w.inst.params.redeemFloorPerTx := by
    have huser : 0 ≤ redeemedToday ctx w.inst inst holder := Store.getCounter_nonneg _ _
    have := h.user
    omega
  have hproduct : Fits (toman * uphiPerPhi) :=
    fits_of_le (mul_nonneg hpos.le (by decide)) (mul_le_mul_of_nonneg_right htoman (by decide)) hfit.floor
  have hintegral : integralUphi w.inst toman = .ok plan.uphi := by
    unfold integralUphi
    rw [mintedUphi_succeeds w.inst.params hproduct, ok_bind]
    simp only [bind_eq_ok, ensure_eq_ok, exists_const, pure_eq_ok]
    exact ⟨⟨trivial, huphi⟩, rfl⟩
  have hchecks : redeemChecks ctx msg w.inst = .ok plan :=
    redeemChecks_ok.2 ⟨h.found, hconsent, h.fx, h.ref, h.fresh, h.amount, hpos, h.vault, hintegral,
      h.signer, enforceRedeemCaps_floor huphi hfit.floor hemergency h.subject h.user⟩
  obtain ⟨split, coin, hpricing, hsplit, hburned⟩ :=
    @redeemPricing_succeeds _ _ ctx msg plan w hpos rfl hfit.fee hfit.young hfit.old
  obtain ⟨b, hb⟩ := redeemTransfers_succeeds hsplit hburned hbank h.spendable
    (uphiOf_le_supply hsolvent h.found h.vault)
  have hbuilt : redeemedWorld ctx msg plan split coin w =
      .ok ⟨b, coin, redeemStore ctx msg plan split w.inst⟩ := by
    simp only [redeemedWorld, bind_eq_ok, ensureFit_eq_ok, exists_const, pure_eq_ok]
    exact ⟨b, hb, redeemCounterSums_fit hpos hemergency h hfit, rfl⟩
  have hredeem := institutionRedeem_asserted hsolvent hchecks hpricing hbuilt
  -- the supply only falls, so the product of the assertion fits as it did before
  have hafter := redeem_solvent hsolvent (redeemChecks_ok.1 hchecks) hpricing hb
  have hrate : (redeemStore ctx msg plan split w.inst).params.phiToToman =
      w.inst.params.phiToToman := by
    obtain ⟨-, hparams, -⟩ := addRedeemCounters_frame ctx (w.inst.setInstitution
      { inst with vaultBalance := inst.vaultBalance - split.tomanOut }) inst holder toman plan.uphi
    exact congrArg (fun p : ValidParams => p.phiToToman) hparams
  have hproductAfter : Fits (b.getSupply denom *
      ((redeemStore ctx msg plan split w.inst).params.phiToToman : Int)) := by
    refine fits_of_le ?_ ?_ hfit.supply
    · rw [show b.getSupply denom * _ = _ from hafter.balanced]
      exact mul_nonneg hafter.vaults.sum_nonneg (by decide)
    · rw [hrate, redeemTransfers_supply hb]
      apply mul_le_mul_of_nonneg_right _ w.inst.params.rate_pos.le
      show w.bank.getSupply denom + -split.burned ≤ w.bank.getSupply denom
      omega
  rw [show World.totalSupplyUphi (D := D) ⟨b, coin, redeemStore ctx msg plan split w.inst⟩ =
    b.getSupply denom from rfl, if_pos hproductAfter] at hredeem
  refine ⟨_, _, hredeem, hburned, ?_⟩
  exact bind_eq_ok.2 ⟨(), h.basic, bind_eq_ok.2 ⟨_, hredeem, rfl⟩⟩

theorem holderWorld_balancesNonneg : holderWorld.bank.BalancesNonneg := by
  intro addr d
  have hbank : holderWorld.bank =
      ((⟨∅, ∅⟩ : Bank).setBalance [9] denom 10000).setSupply denom 10000 := rfl
  rw [hbank, Bank.getBalance_setSupply, Bank.getBalance_setBalance]
  split
  · decide
  · exact le_refl 0

/-- The holder of `holderWorld` redeems everything, well within the default floor. -/
theorem redeem_floor_open_holder :
    ∃ burned w', institutionRedeem (smallCtx 0) (redeemAll (accAddressString [9])) holderWorld =
        .ok (burned, w') ∧ 0 < burned ∧
      apply textKeeper (smallCtx 0) holderWorld (.redeem (redeemAll (accAddressString [9]))) =
        .ok w' := by
  have hsolvent : holderWorld.Solvent := solvent_of_allInvariants (by decide)
  have hfloor : WithinFloor (smallCtx 0) (redeemAll (accAddressString [9])) holderWorld
      { smallInstitution with vaultBalance := 1000 } [9] 1000 :=
    { basic := by decide +kernel
      found := by rfl
      fx := by decide +kernel
      ref := by decide
      fresh := by decide +kernel
      signer := by decide +kernel
      amount := by decide +kernel
      vault := by decide
      spendable := by decide +kernel
      subject := by decide +kernel
      user := by decide +kernel }
  have hfit : AmountsFit (smallCtx 0) holderWorld
      { smallInstitution with vaultBalance := 1000 } 1000 :=
    { floor := by decide +kernel
      fee := by decide +kernel
      young := by decide +kernel
      old := by decide +kernel
      daily := by decide +kernel
      supply := by decide +kernel }
  exact redeem_floor_open textKeeper hsolvent holderWorld_balancesNonneg rfl hfloor hfit

/-- Parameters whose floor has no uphi of 256 bits, and no daily cap of a DID. -/
def hugeFloorParams : ValidParams where
  toParams := { defaultParams with
    redeemFloorPerTx := intString (10 ^ 72)
    redeemDailyCapPerDidUphi := [] }
  valid := by decide +kernel

def hugeFloorWorld : World Bytes :=
  { holderWorld with inst := { holderWorld.inst with params := hugeFloorParams } }

/-- Under these parameters the same redemption panics in its caps, where the floor is converted. -/
theorem redeem_floor_overflows :
    hugeFloorWorld.Solvent ∧
      WithinFloor (smallCtx 0) (redeemAll (accAddressString [9])) hugeFloorWorld
        { smallInstitution with vaultBalance := 1000 } [9] 1000 ∧
      enforceRedeemCaps (smallCtx 0) hugeFloorWorld.inst
        { smallInstitution with vaultBalance := 1000 } [9] 1000 10000 = .error intOverflow ∧
      isOk (institutionRedeem (smallCtx 0) (redeemAll (accAddressString [9])) hugeFloorWorld) =
        false := by
  refine ⟨solvent_of_allInvariants (by decide), ?_, by decide +kernel, by decide +kernel⟩
  exact
    { basic := by decide +kernel
      found := by rfl
      fx := by decide +kernel
      ref := by decide
      fresh := by decide +kernel
      signer := by decide +kernel
      amount := by decide +kernel
      vault := by decide
      spendable := by decide +kernel
      subject := by decide +kernel
      user := by decide +kernel }

end PhiChain.App
