import PhiChain.Foundations.Peg
import PhiChain.Institutions.Lifecycle

/-!
# Solvency of the institutions module

The supply of phi and the vaults form a pegged currency (`World.peg`). A mint issues
against new vault balance, a redemption retires the burned part against the value it
pays out, and the other handlers leave supply, vaults and rate alone (`SameVaults`)
or set a rate while no vault is backed.
-/

set_option autoImplicit false

namespace PhiChain.Institutions

open Foundations Sdk
open PhiChain.Coin (uphiPerPhi coinsOf denom)

variable {D : Type} [LinearOrder D]

/-! ## The peg -/

/-- Supply, vault sum and rate as a pegged currency. -/
def World.peg (w : World D) : Peg where
  supply := w.totalSupplyUphi
  backing := w.inst.sumVaultBalance
  rate := w.inst.params.phiToToman
  rate_pos := w.inst.params.rate_pos

theorem World.balanced_peg (w : World D) : w.peg.Balanced uphiPerPhi ↔ w.solvencyHolds := Iff.rfl

/-- No vault is overdrawn. -/
def Store.VaultsNonneg (s : Store D) : Prop :=
  ∀ id inst, s.getInstitution id = some inst → 0 ≤ inst.vaultBalance

/-- Supply and vaults balance, and no vault is overdrawn. -/
structure World.Solvent (w : World D) : Prop where
  balanced : w.solvencyHolds
  vaults : w.inst.VaultsNonneg

variable {s s' : Store D} {b b' : Bank} {ctx : Ctx} {w w' : World D} {inst : Institution}
  {plan : RedeemPlan} {split : RedeemSplit} {k : Keeper D} {msg : MsgInstitutionRedeem}

theorem Store.VaultsNonneg.sum_nonneg (h : s.VaultsNonneg) :
    0 ≤ s.sumVaultBalance := by
  apply List.sum_nonneg
  intro x hx
  obtain ⟨e, he, rfl⟩ := List.mem_map.1 hx
  exact h e.1 e.2 (OrdMap.mem_entries.1 he)

/-! ## Conversions -/

theorem integralUphi_worth {toman uphi : Int} (h : integralUphi s toman = .ok uphi) :
    uphi * (s.params.phiToToman : Int) = toman * uphiPerPhi ∧ 0 < uphi := by
  simp only [integralUphi, bind_eq_ok, mintedUphiForToman_ok, ensure_eq_ok, pure_eq_ok,
    exists_const] at h
  obtain ⟨converted, ⟨-, rfl⟩, ⟨hexact, hpos⟩, rfl⟩ := h
  have hdvd : (s.params.phiToToman : Int) ∣ toman * uphiPerPhi :=
    Int.dvd_of_emod_eq_zero (of_decide_eq_true hexact)
  exact ⟨Int.tdiv_mul_cancel hdvd, hpos⟩

/-- One toman is a whole number of uphi. -/
theorem uphiPerToman_mul_rate (p : ValidParams) :
    uphiPerToman p.phiToToman * (p.phiToToman : Int) = uphiPerPhi :=
  Int.tdiv_mul_cancel p.rate_dvd

theorem uphiPerToman_pos (p : ValidParams) : 0 < uphiPerToman p.phiToToman := by
  have hmul := uphiPerToman_mul_rate p
  have hunit : (0 : Int) < uphiPerPhi := by decide
  rw [← hmul] at hunit
  exact pos_of_mul_pos_left hunit p.rate_pos.le

theorem protocolFee_nonneg (p : Params) {amount : Int} (h : 0 ≤ amount) :
    0 ≤ p.protocolFee amount := by
  unfold Params.protocolFee
  split
  · exact le_refl 0
  · apply Int.tdiv_nonneg
    · exact mul_nonneg h (Int.natCast_nonneg _)
    · decide

theorem coinsOf_amountOf (amount : Int) : (coinsOf amount).amountOf denom = amount := by
  unfold coinsOf
  split
  · rename_i h
    rw [h]
    rfl
  · rw [Bank.amountOf_cons, if_pos rfl]

/-! ## Mint -/

/-- A mint raises the supply by the backed amount: its distribution only sends. -/
theorem mintTransfers_supply {plan : MintPlan} {p : Params}
    (h : mintTransfers ctx plan p b = .ok b') :
    b'.getSupply denom = b.getSupply denom + plan.uphi := by
  simp only [mintTransfers, bind_eq_ok] at h
  obtain ⟨b₁, hmint, b₂, hsend, hfee⟩ := h
  have hsupply : b₂.getSupply denom = b.getSupply denom + plan.uphi := by
    rw [Bank.sendCoinsFromModuleToAccount_supply hsend, Bank.mintCoins_supply hmint,
      coinsOf_amountOf]
  split at hfee
  · rw [Bank.sendCoins_supply hfee, hsupply]
  · cases hfee
    exact hsupply

/-- Totals that move together make a lawful move. -/
theorem move_of_totals {amount backing : Int}
    (hsupply : w'.totalSupplyUphi = w.totalSupplyUphi + amount)
    (hsum : w'.inst.sumVaultBalance = w.inst.sumVaultBalance + backing)
    (hrate : w'.inst.params.phiToToman = w.inst.params.phiToToman)
    (worth : amount * (w.inst.params.phiToToman : Int) = backing * uphiPerPhi) :
    Peg.Move uphiPerPhi w.peg w'.peg := by
  have hpeg : w'.peg =
      ⟨w.peg.supply + amount, w.peg.backing + backing, w.peg.rate, w.peg.rate_pos⟩ := by
    ext
    · exact hsupply
    · exact hsum
    · exact congrArg Nat.cast hrate
  rw [hpeg]
  exact Peg.Move.issue w.peg amount backing worth

/-- Changing the vault of a stored record moves the sum by the change. -/
theorem sumVaultBalance_setVault (h : s.getInstitution inst.id = some inst) (v : Int) :
    (s.setInstitution { inst with vaultBalance := inst.vaultBalance + v }).sumVaultBalance =
      s.sumVaultBalance + v := by
  have hsum : (s.institutions.set { inst with vaultBalance := inst.vaultBalance + v }).sumVaultBalance
      = s.institutions.sumVaultBalance - inst.vaultBalance + (inst.vaultBalance + v) :=
    Registry.sumVaultBalance_set { inst with vaultBalance := inst.vaultBalance + v } h
  calc (s.setInstitution { inst with vaultBalance := inst.vaultBalance + v }).sumVaultBalance
      = s.institutions.sumVaultBalance - inst.vaultBalance + (inst.vaultBalance + v) := hsum
    _ = s.institutions.sumVaultBalance + v := by omega

/-- A mint issues against the vault it fills. -/
theorem mint_move (msg : MsgInstitutionMint) {plan : MintPlan} (w : World D) (coin : Coin.Store)
    (hb : mintTransfers ctx plan w.inst.params.toParams w.bank = .ok b)
    (hfound : w.inst.getInstitution plan.inst.id = some plan.inst)
    (hworth : plan.uphi * (w.inst.params.phiToToman : Int) = plan.toman * uphiPerPhi) :
    Peg.Move uphiPerPhi w.peg (World.peg ⟨b, coin, mintStore ctx msg plan w.inst⟩) :=
  move_of_totals (mintTransfers_supply hb) (sumVaultBalance_setVault hfound plan.toman) rfl hworth

/-! ## Redemption -/

/-- A redemption lowers the supply by the burned part: the carve-out is only sent. -/
theorem redeemTransfers_supply (h : redeemTransfers ctx plan split b = .ok b') :
    b'.getSupply denom = b.getSupply denom + -split.burned := by
  unfold redeemTransfers at h
  obtain ⟨b₁, hsend, h⟩ := bind_eq_ok.1 h
  have hsupply : b₁.getSupply denom = b.getSupply denom := Bank.sendCoins_supply hsend denom
  split at h
  · obtain ⟨b₂, hcarve, hburn⟩ := bind_eq_ok.1 h
    rw [Bank.burnCoins_supply hburn, Bank.sendCoins_supply hcarve, hsupply, coinsOf_amountOf]
    rfl
  · obtain ⟨b₂, hnone, hburn⟩ := bind_eq_ok.1 h
    cases hnone
    rw [Bank.burnCoins_supply hburn, hsupply, coinsOf_amountOf]
    rfl

theorem addRedeemCounters_frame (ctx : Ctx) (s : Store D) (inst : Institution) (holder : Bytes)
    (toman uphi : Int) :
    (addRedeemCounters ctx s inst holder toman uphi).institutions = s.institutions ∧
      (addRedeemCounters ctx s inst holder toman uphi).params = s.params ∧
      (addRedeemCounters ctx s inst holder toman uphi).deposits = s.deposits := by
  unfold addRedeemCounters
  dsimp only
  split
  · exact ⟨rfl, rfl, rfl⟩
  · exact ⟨rfl, rfl, rfl⟩

/-- The split a redemption is priced at: worth whole toman, no more than was asked for,
and burning something. -/
structure PricedSplit (p : ValidParams) (plan : RedeemPlan) (split : RedeemSplit) : Prop where
  worth : split.burned * (p.phiToToman : Int) = split.tomanOut * uphiPerPhi
  tomanOut_nonneg : 0 ≤ split.tomanOut
  tomanOut_le : split.tomanOut ≤ plan.toman
  burned_le : split.burned ≤ plan.uphi
  carved : split.carved = plan.uphi - split.burned

/-- Any non-negative penalty gives such a split. -/
theorem pricedSplit {p : ValidParams} {penalty : Int}
    (huphi : plan.uphi * (p.phiToToman : Int) = plan.toman * uphiPerPhi) (hpos : 0 ≤ plan.uphi)
    (hpen : 0 ≤ penalty) :
    PricedSplit p plan (computeRedeemSplit plan.uphi (p.protocolFee plan.uphi) penalty
      p.phiToToman) := by
  have hk := uphiPerToman_pos p
  have hrate := uphiPerToman_mul_rate p
  obtain ⟨hle, hburned, hnonneg, -⟩ :=
    redeemSplit_spec hk hpos (protocolFee_nonneg p.toParams hpos) hpen
  set split := computeRedeemSplit plan.uphi (p.protocolFee plan.uphi) penalty p.phiToToman
  have hworth : split.burned * (p.phiToToman : Int) = split.tomanOut * uphiPerPhi := by
    rw [hburned, mul_assoc, hrate]
  refine ⟨hworth, hnonneg, ?_, hle, rfl⟩
  -- both amounts are worth what they burn, so the smaller burn pays out less
  have hscaled : split.tomanOut * uphiPerPhi ≤ plan.toman * uphiPerPhi := by
    rw [← hworth, ← huphi]
    exact mul_le_mul_of_nonneg_right hle p.rate_pos.le
  exact le_of_mul_le_mul_right hscaled (by decide)

/-- A redemption retires against the vault it draws on. -/
theorem redeem_move (msg : MsgInstitutionRedeem) (coin : Coin.Store)
    (hb : redeemTransfers ctx plan split w.bank = .ok b)
    (hfound : w.inst.getInstitution plan.inst.id = some plan.inst)
    (hsplit : PricedSplit w.inst.params plan split) :
    Peg.Move uphiPerPhi w.peg (World.peg ⟨b, coin, redeemStore ctx msg plan split w.inst⟩) := by
  obtain ⟨hinst, hparams, -⟩ := addRedeemCounters_frame ctx
    (w.inst.setInstitution { plan.inst with vaultBalance := plan.inst.vaultBalance - split.tomanOut })
    plan.inst plan.holder plan.toman plan.uphi
  apply move_of_totals (redeemTransfers_supply hb)
  · calc (redeemStore ctx msg plan split w.inst).sumVaultBalance
        = (w.inst.setInstitution
            { plan.inst with vaultBalance := plan.inst.vaultBalance - split.tomanOut }).sumVaultBalance
          := congrArg Registry.sumVaultBalance hinst
      _ = w.inst.sumVaultBalance + -split.tomanOut := sumVaultBalance_setVault hfound _
  · exact congrArg (fun p : ValidParams => p.phiToToman) hparams
  · rw [neg_mul, neg_mul, hsplit.worth]

/-! ## Handlers that leave vaults alone -/

/-- A store whose vaults, rate and vault sum are those of another. -/
structure SameVaults (s s' : Store D) : Prop where
  rate : s'.params.phiToToman = s.params.phiToToman
  sum : s'.sumVaultBalance = s.sumVaultBalance
  nonneg : s.VaultsNonneg → s'.VaultsNonneg

theorem SameVaults.of_eq (hp : s'.params = s.params)
    (hi : s'.institutions = s.institutions) : SameVaults s s' where
  rate := by rw [hp]
  sum := by
    unfold Store.sumVaultBalance
    rw [hi]
  nonneg := by
    intro h id inst hget
    unfold Store.getInstitution at hget
    rw [hi] at hget
    exact h id inst hget

theorem SameVaults.trans {s₁ s₂ s₃ : Store D} (h : SameVaults s₁ s₂) (h' : SameVaults s₂ s₃) :
    SameVaults s₁ s₃ where
  rate := h'.rate.trans h.rate
  sum := h'.sum.trans h.sum
  nonneg := h'.nonneg ∘ h.nonneg

/-- Overwriting a record with one of a non-negative vault. -/
theorem Store.VaultsNonneg.setInstitution (h : s.VaultsNonneg)
    (hv : 0 ≤ inst.vaultBalance) : (s.setInstitution inst).VaultsNonneg := by
  intro id i hget
  have hget' : (s.institutions.set inst).get? id = some i := hget
  rw [Registry.get?_set] at hget'
  split at hget'
  · cases hget'
    exact hv
  · exact h id i hget'

/-- Overwriting a record leaves vaults alone when its vault stays. -/
theorem SameVaults.setInstitution (inst : Institution) {old : Institution}
    (hold : s.getInstitution inst.id = some old) (hv : inst.vaultBalance = old.vaultBalance) :
    SameVaults s (s.setInstitution inst) where
  rate := rfl
  sum := by
    have hsum := Registry.sumVaultBalance_set inst hold
    rw [hv, sub_add_cancel] at hsum
    exact hsum
  nonneg := fun h => h.setInstitution (hv ▸ h _ _ hold)

/-- A new record with an empty vault. -/
theorem SameVaults.newInstitution (hnew : s.institutions.has inst.id = false)
    (hv : inst.vaultBalance = 0) :
    SameVaults s (s.setInstitution inst) where
  rate := rfl
  sum := by
    have hsum := Registry.sumVaultBalance_set_new inst (OrdMap.has_eq_false.1 hnew)
    rw [hv, add_zero] at hsum
    exact hsum
  nonneg := fun h => h.setInstitution hv.ge

/-- Removing a record with an empty vault. -/
theorem SameVaults.erase {id : Bytes} (hold : s.getInstitution id = some inst)
    (hv : inst.vaultBalance = 0) (hp : s'.params = s.params)
    (hi : s'.institutions = s.institutions.erase id) :
    SameVaults s s' where
  rate := by rw [hp]
  sum := by
    have hsum := Registry.sumVaultBalance_erase hold
    rw [hv, sub_zero] at hsum
    unfold Store.sumVaultBalance
    rw [hi]
    exact hsum
  nonneg := by
    intro h j i hget
    unfold Store.getInstitution at hget
    rw [hi, Registry.get?_erase] at hget
    split at hget
    · cases hget
    · exact h j i hget

theorem registerInstitution_sameVaults {msg : MsgRegisterInstitution}
    (h : registerInstitution k ctx msg s = .ok s') : SameVaults s s' := by
  obtain ⟨-, hnew, -, rfl⟩ := registerInstitution_ok h
  exact SameVaults.newInstitution hnew rfl

theorem removeInstitution_sameVaults {msg : MsgRemoveInstitution}
    (h : removeInstitution k ctx msg s = .ok s') : SameVaults s s' := by
  obtain ⟨inst, hinst, hempty, rfl⟩ := removeInstitution_ok h
  exact SameVaults.erase hinst hempty rfl rfl

theorem freezeInstitution_sameVaults {msg : MsgFreezeInstitution}
    (h : freezeInstitution k ctx msg s = .ok s') : SameVaults s s' := by
  obtain ⟨inst, status, hself, rfl⟩ := freezeInstitution_ok h
  exact SameVaults.setInstitution _ hself rfl

theorem publishInstitutionAttestation_sameVaults {msg : MsgPublishInstitutionAttestation}
    (h : publishInstitutionAttestation ctx msg s = .ok s') : SameVaults s s' := by
  obtain ⟨inst, attestor, reserve, status, hself, -, rfl⟩ := publishInstitutionAttestation_ok h
  have hself' : (s.setLastAttestor inst.id attestor).getInstitution inst.id = some inst := hself
  apply SameVaults.trans (SameVaults.of_eq rfl rfl : SameVaults s (s.setLastAttestor inst.id attestor))
  exact SameVaults.setInstitution _ hself' rfl

theorem requestFxEntry_sameVaults {msg : MsgRequestFxEntry}
    (h : requestFxEntry msg s = .ok s') : SameVaults s s' := by
  obtain ⟨-, req, rfl⟩ := requestFxEntry_ok h
  exact SameVaults.of_eq rfl rfl

theorem guaranteeFxEntry_sameVaults {msg : MsgGuaranteeFxEntry}
    (h : guaranteeFxEntry msg s = .ok s') : SameVaults s s' := by
  obtain ⟨-, ⟨req, rfl⟩ | rfl⟩ := guaranteeFxEntry_ok h
  · exact SameVaults.of_eq rfl rfl
  · exact SameVaults.of_eq rfl rfl

theorem finalizeFxEntry_sameVaults {msg : MsgFinalizeFxEntry}
    (h : finalizeFxEntry k ctx msg s = .ok s') : SameVaults s s' := by
  obtain ⟨-, hnew, -, applicant, rfl⟩ := finalizeFxEntry_ok h
  have hset : SameVaults s (s.setInstitution
      (newInstitution msg.fxId applicant .fx ctx.blockTime)) :=
    SameVaults.newInstitution hnew rfl
  exact hset.trans (SameVaults.of_eq rfl rfl)

theorem executeSensitive_sameVaults {msg : SensitiveMsg}
    (hinst : s.getInstitution inst.id = some inst)
    (h : executeSensitive k msg inst s = .ok s') : SameVaults s s' := by
  rcases executeSensitive_frame h with ⟨_, _, _, rfl⟩ | ⟨record, hid, hvault, rfl⟩
  · exact SameVaults.of_eq rfl rfl
  · have hset : SameVaults s (s.setInstitution record) :=
      SameVaults.setInstitution record (hid ▸ hinst) hvault
    exact hset.trans (SameVaults.of_eq rfl rfl)

theorem sensitiveAction_sameVaults {msg : SensitiveMsg} {r : SensitiveResult}
    (h : sensitiveAction k msg s = .ok (r, s')) : SameVaults s s' := by
  obtain ⟨inst, signer, hinst, -, -, ⟨-, rfl⟩ | ⟨-, hexec⟩⟩ := sensitiveAction_ok h
  · exact SameVaults.of_eq rfl rfl
  · have hself : (s.recordApproval inst (msg.contentHash k) signer).getInstitution inst.id =
        some inst :=
      Store.getInstitution_self hinst
    have hrecord : SameVaults s (s.recordApproval inst (msg.contentHash k) signer) :=
      SameVaults.of_eq rfl rfl
    exact hrecord.trans (executeSensitive_sameVaults hself hexec)

/-! ## The write-path assertion -/

/-- On a solvent state the assertion is a question of size: it passes where the supply in toman
millionths fits, and panics where it does not. -/
theorem assertSolvency_eq (hw : w.Solvent) :
    assertSolvency w = if Fits (w.totalSupplyUphi * (w.inst.params.phiToToman : Int)) then .ok ()
      else .error intOverflow := by
  have hbalanced := hw.balanced
  unfold World.solvencyHolds at hbalanced
  have hvaults : ∀ v ∈ w.inst.institutions.vaultBalances, 0 ≤ v := by
    intro v hv
    obtain ⟨e, he, rfl⟩ := List.mem_map.1 hv
    exact hw.vaults e.1 e.2 (OrdMap.mem_entries.1 he)
  have hsum : w.inst.institutions.vaultBalances.sum = w.inst.sumVaultBalance := rfl
  have hnonneg := hw.vaults.sum_nonneg
  have hunit : (0 : Int) < uphiPerPhi := by decide
  unfold assertSolvency World.solvencyInvariant intMul
  rw [intSum_eq hvaults, hsum]
  by_cases hfit : Fits (w.inst.sumVaultBalance * uphiPerPhi)
  · have hle : w.inst.sumVaultBalance ≤ w.inst.sumVaultBalance * uphiPerPhi :=
      le_mul_of_one_le_right hnonneg hunit
    rw [checkedInt_eq_ok.2 ⟨fits_of_le hnonneg hle hfit, rfl⟩, hbalanced, if_pos hfit,
      checkedInt_eq_ok.2 ⟨hfit, rfl⟩]
    simp [bind_eq_ok, ensure, checkedInt, hfit]
  · rw [hbalanced, if_neg hfit]
    unfold checkedInt
    by_cases hsmall : Fits w.inst.sumVaultBalance
    · rw [if_pos hsmall, if_neg hfit]
      rfl
    · rw [if_neg hsmall]
      rfl

/-! ## The two handlers -/

theorem redeemPricing_split {coin : Coin.Store} (hplan : RedeemAccepted ctx msg w.inst plan)
    (h : redeemPricing ctx msg plan w = .ok (split, coin)) :
    PricedSplit w.inst.params plan split := by
  simp only [redeemPricing, bind_eq_ok, ensure_eq_ok, pure_eq_ok, exists_const] at h
  obtain ⟨⟨⟩, -, -, ⟨⟩, -, -, heq⟩ := h
  obtain ⟨rfl, -⟩ := Prod.mk.inj heq
  obtain ⟨hworth, hpos⟩ := integralUphi_worth hplan.uphi
  apply pricedSplit hworth hpos.le
  split
  · exact le_refl 0
  · rename_i hneg
    exact not_lt.1 hneg

/-- The state a mint builds is solvent. -/
theorem mint_solvent {msg : MsgInstitutionMint} {plan : MintPlan}
    {approvals : OrdMap (ApprovalKey D) Nat} (hw : w.Solvent)
    (hacc : MintAccepted k ctx msg w.inst plan)
    (hb : mintTransfers ctx plan w.inst.params.toParams w.bank = .ok b) (coin : Coin.Store) :
    World.Solvent ⟨b, coin, mintStore ctx msg plan { w.inst with approvals := approvals }⟩ := by
  have hmove := mint_move msg { w with inst := { w.inst with approvals := approvals } } coin hb
    (Store.getInstitution_self hacc.found) (integralUphi_worth hacc.uphi).1
  have hvault := hw.vaults _ _ hacc.found
  have hpos := hacc.positive
  exact ⟨hmove.balanced hw.balanced, Store.VaultsNonneg.setInstitution hw.vaults (by dsimp only; omega)⟩

/-- The state a redemption builds is solvent. -/
theorem redeem_solvent {coin : Coin.Store} (hw : w.Solvent)
    (hacc : RedeemAccepted ctx msg w.inst plan)
    (hprice : redeemPricing ctx msg plan w = .ok (split, coin))
    (hb : redeemTransfers ctx plan split w.bank = .ok b) :
    World.Solvent ⟨b, coin, redeemStore ctx msg plan split w.inst⟩ := by
  have hsplit := redeemPricing_split hacc hprice
  have hmove := redeem_move msg coin hb (Store.getInstitution_self hacc.found) hsplit
  refine ⟨hmove.balanced hw.balanced, ?_⟩
  have hpaid := hsplit.tomanOut_le
  have hvault := hacc.vault
  have hset : (w.inst.setInstitution
      { plan.inst with vaultBalance := plan.inst.vaultBalance - split.tomanOut }).VaultsNonneg :=
    hw.vaults.setInstitution (by dsimp only; omega)
  apply SameVaults.nonneg _ hset
  obtain ⟨hinst, hparams, -⟩ := addRedeemCounters_frame ctx (w.inst.setInstitution
    { plan.inst with vaultBalance := plan.inst.vaultBalance - split.tomanOut }) plan.inst plan.holder
    plan.toman plan.uphi
  exact SameVaults.of_eq hparams hinst

theorem institutionMint_solvent {msg : MsgInstitutionMint} {r : MintResponse} (hw : w.Solvent)
    (h : institutionMint k ctx msg w = .ok (r, w')) : w'.Solvent := by
  obtain ⟨plan, gate, s, hacc, hgate, h⟩ := institutionMint_ok h
  obtain ⟨approvals, rfl⟩ := mintGate_frame hgate
  rcases h with ⟨p, -, -, rfl⟩ | ⟨-, -, b, hb, rfl⟩
  · exact ⟨hw.balanced, hw.vaults⟩
  · exact mint_solvent hw hacc hb _

theorem institutionRedeem_solvent {burned : Int} (hw : w.Solvent)
    (h : institutionRedeem ctx msg w = .ok (burned, w')) : w'.Solvent := by
  obtain ⟨plan, split, coin, b, hacc, hprice, hb, -, rfl⟩ := institutionRedeem_ok h
  exact redeem_solvent hw hacc hprice hb

/-- A mint that has passed everything before the assertion is rejected by it exactly where the
product that it computes does not fit. -/
theorem institutionMint_asserted {msg : MsgInstitutionMint} {plan : MintPlan} (hw : w.Solvent)
    (hchecks : mintChecks k ctx msg w.inst = .ok plan)
    (hgate : mintGate k msg plan w.inst = .ok (.open, s))
    (h : mintedWorld ctx msg plan { w with inst := s } = .ok w') :
    institutionMint k ctx msg w =
      if Fits (w'.totalSupplyUphi * (w'.inst.params.phiToToman : Int)) then
        .ok (.minted plan.uphi, w') else .error intOverflow := by
  obtain ⟨approvals, rfl⟩ := mintGate_frame hgate
  have hsolvent : w'.Solvent := by
    obtain ⟨b, hb, rfl⟩ := mintedWorld_ok h
    exact mint_solvent hw (mintChecks_ok hchecks) hb _
  unfold institutionMint
  rw [hchecks, ok_bind, hgate, ok_bind]
  dsimp only
  rw [executeMint, h, ok_bind, assertSolvency_eq hsolvent]
  split
  · rfl
  · rfl

theorem institutionRedeem_asserted {coin : Coin.Store} (hw : w.Solvent)
    (hchecks : redeemChecks ctx msg w.inst = .ok plan)
    (hprice : redeemPricing ctx msg plan w = .ok (split, coin))
    (h : redeemedWorld ctx msg plan split coin w = .ok w') :
    institutionRedeem ctx msg w =
      if Fits (w'.totalSupplyUphi * (w'.inst.params.phiToToman : Int)) then .ok (split.burned, w')
      else .error intOverflow := by
  have hsolvent : w'.Solvent := by
    obtain ⟨b, hb, rfl⟩ := redeemedWorld_ok h
    exact redeem_solvent hw (redeemChecks_ok.1 hchecks) hprice hb
  unfold institutionRedeem
  rw [hchecks, ok_bind, hprice, ok_bind]
  dsimp only
  rw [executeRedeem, h, ok_bind, assertSolvency_eq hsolvent]
  split
  · rfl
  · rfl

end PhiChain.Institutions
