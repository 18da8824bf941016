import PhiChain.App.Chain
import PhiChain.Coin.FeeRouting
import PhiChain.Institutions.Solvency

/-!
# Solvency of the chain

Every action of the chain is a lawful move of the pegged currency, so supply and
vaults stay balanced along every run. The burns outside the institutions module are
the delicate part: a compensated slash restores the supply it burned, and a guarded
governance burn of uphi goes through only when nothing is backed, where the peg
leaves no supply to burn.
-/

set_option autoImplicit false

namespace PhiChain.App

open Foundations Sdk Institutions
open PhiChain.Coin (uphiPerPhi coinsOf denom)

variable {D : Type} [LinearOrder D]

variable {b b' : Bank} {ctx : Ctx} {k : Keeper D} {w w' : World D}

/-! ## Supply under the guards -/

theorem redirectSlashedToPenalty_supply {slashed : Int} {s : Store D}
    (h : redirectSlashedToPenalty k ctx slashed s b = .ok b') :
    b'.getSupply denom = b.getSupply denom + max slashed 0 := by
  unfold redirectSlashedToPenalty at h
  split at h
  · rename_i hpos
    obtain ⟨b₁, hmint, h⟩ := bind_eq_ok.1 h
    have hsupply : b₁.getSupply denom = b.getSupply denom + max slashed 0 := by
      rw [Bank.mintCoins_supply hmint, coinsOf_amountOf, max_eq_left hpos.le]
    split at h
    · cases h
      exact hsupply
    · split at h
      · rename_i sent hsend
        cases h
        rw [Bank.sendCoinsFromModuleToAccount_supply hsend, hsupply]
      · -- what cannot be sent stays in escrow
        cases h
        exact hsupply
  · rename_i hpos
    cases h
    rw [max_eq_right (not_lt.1 hpos), add_zero]

theorem burnPoolTokens_supply {burn : StakingPool × Sdk.Coin}
    (h : burnPoolTokens ctx b burn = .ok b') : b'.getSupply denom ≤ b.getSupply denom := by
  unfold burnPoolTokens at h
  split at h
  · rename_i hpos
    rw [Bank.burnCoins_supply h, Bank.amountOf_cons]
    split
    · omega
    · exact (sub_zero _).le
  · cases h
    exact le_refl _

/-- A slash never raises the supply. -/
theorem slash_supply {burns : List (StakingPool × Sdk.Coin)}
    (h : slash ctx burns b = .ok b') : b'.getSupply denom ≤ b.getSupply denom := by
  unfold slash at h
  induction burns generalizing b with
  | nil =>
    cases h
    exact le_refl _
  | cons burn rest ih =>
    obtain ⟨b₁, hburn, hrest⟩ := bind_eq_ok.1 h
    exact (ih hrest).trans (burnPoolTokens_supply hburn)

/-- A compensated slash leaves the supply as it was. -/
theorem compensate_supply {burns : List (StakingPool × Sdk.Coin)} {s : Store D}
    (h : compensate k ctx burns s b = .ok b') :
    b'.getSupply denom = b.getSupply denom := by
  obtain ⟨b₁, hslash, hredirect⟩ := bind_eq_ok.1 h
  have hle := slash_supply hslash
  rw [redirectSlashedToPenalty_supply hredirect, max_eq_left (by omega)]
  omega

/-- A guarded governance burn leaves the supply as it was: either the uphi is redirected,
or nothing is backed and there is no supply to burn. -/
theorem govBurnGuard_supply {amt : Coins} (hv : amt.isValid) (hw : w.Solvent)
    (h : govBurnGuard ctx .gov amt w.inst w.bank = .ok b) :
    b.getSupply denom = w.bank.getSupply denom := by
  unfold govBurnGuard at h
  dsimp only at h
  split at h
  · obtain ⟨b₁, hsend, h⟩ := bind_eq_ok.1 h
    have hkept : b₁.getSupply denom = w.bank.getSupply denom := Bank.sendCoins_supply hsend denom
    split at h
    · cases h
      exact hkept
    · rw [Bank.burnCoins_supply h, hkept,
        Bank.amountOf_sub_eq_zero hv (coinsOf_amountOf (amt.amountOf denom)), sub_zero]
  · rename_i hguard
    rw [Bank.burnCoins_supply h]
    rcases lt_or_ge 0 (amt.amountOf denom) with hpos | hnonpos
    · -- unbacked: the peg says that the supply is zero, so the burn could not succeed
      have hunbacked : w.peg.backing = 0 := by
        apply le_antisymm _ hw.vaults.sum_nonneg
        exact not_lt.1 fun hbacked => hguard ⟨rfl, hpos, hbacked⟩
      have hzero : w.bank.getSupply denom = 0 :=
        (w.balanced_peg.2 hw.balanced).supply_eq_zero hunbacked
      have hle := Bank.burnCoins_le_supply h denom hpos
      omega
    · have hnone : amt.amountOf denom = 0 := le_antisymm hnonpos (Bank.amountOf_nonneg hv denom)
      rw [hnone, sub_zero]

/-! ## Supply under the coin module -/

theorem transfer_supply {msg : Coin.MsgTransfer} {s s' : Coin.Store}
    (h : Coin.transfer ctx msg b s = .ok (b', s')) : b'.getSupply denom = b.getSupply denom := by
  simp only [Coin.transfer, bind_eq_ok, ensure_eq_ok, orFail_eq_ok, pure_eq_ok, exists_const] at h
  obtain ⟨sender, -, recipient, -, amount, -, -, b₁, hsend, ⟨⟩, -, heq⟩ := h
  obtain ⟨rfl, -⟩ := Prod.mk.inj heq
  exact Bank.sendCoins_supply hsend denom

theorem deductFee_supply {payer deductFrom : Bytes} {msgs : List Coin.FeeMsg} {s s' : Coin.Store}
    (h : Coin.deductFee ctx payer deductFrom msgs b s = .ok (b', s')) :
    b'.getSupply denom = b.getSupply denom := by
  unfold Coin.deductFee at h
  split at h
  · cases h
    rfl
  · obtain ⟨fee, -, h⟩ := bind_eq_ok.1 h
    split at h
    · obtain ⟨b₁, hvalidator, h⟩ := bind_eq_ok.1 h
      obtain ⟨b₂, hcompany, h⟩ := bind_eq_ok.1 h
      cases h
      rw [Coin.payLeg_supply hcompany, Coin.payLeg_supply hvalidator]
    · cases h
      rfl

theorem withdrawRevenue_supply {authority : Bytes} {msg : Coin.MsgWithdrawRevenue} {s : Coin.Store}
    (h : Coin.withdrawRevenue authority ctx msg b s = .ok b') :
    b'.getSupply denom = b.getSupply denom := by
  simp only [Coin.withdrawRevenue, bind_eq_ok, ensure_eq_ok, orFail_eq_ok, exists_const] at h
  obtain ⟨-, amount, -, -, -, dest, -, hsend⟩ := h
  exact Bank.sendCoinsFromModuleToAccount_supply hsend denom

/-! ## Block sweeps -/

theorem beginBlock_sameVaults (ctx : Ctx) (s : Store D) :
    SameVaults s (Institutions.beginBlock ctx s) := by
  obtain ⟨hparams, hinst, -⟩ := beginBlock_keeps ctx s
  exact SameVaults.of_eq hparams hinst

/-! ## Steps -/

/-- A step that keeps supply and vaults. -/
theorem solvent_of_sameVaults (hw : w.Solvent) (hsupply : w'.totalSupplyUphi = w.totalSupplyUphi)
    (hv : SameVaults w.inst w'.inst) :
    w'.Solvent := by
  refine ⟨?_, hv.nonneg hw.vaults⟩
  have hmove : Peg.Move uphiPerPhi w.peg w'.peg := by
    refine @move_of_totals D _ w w' 0 0 ?_ ?_ hv.rate ?_
    · rw [hsupply, add_zero]
    · rw [hv.sum, add_zero]
    · rw [zero_mul, zero_mul]
  exact hmove.balanced hw.balanced

theorem setParams_solvent {p : Params} {s : Store D} (hw : w.Solvent)
    (h : setParams p w.inst = .ok s) : World.Solvent { w with inst := s } := by
  obtain ⟨hv, rfl, hrate⟩ := setParams_ok h
  refine ⟨?_, hw.vaults⟩
  rcases hrate with hsame | hunbacked
  · have hkept : SameVaults w.inst { w.inst with params := ⟨p, hv⟩ } := ⟨hsame, rfl, id⟩
    have hsolvent : World.Solvent { w with inst := { w.inst with params := ⟨p, hv⟩ } } :=
      solvent_of_sameVaults hw rfl hkept
    exact hsolvent.balanced
  · -- the reprice move: neither vaults nor supply exist
    have hzero : w.peg.backing = 0 := le_antisymm (not_lt.1 hunbacked) hw.vaults.sum_nonneg
    exact (Peg.Move.reprice w.peg _ (ValidParams.rate_pos ⟨p, hv⟩) hzero).balanced hw.balanced

/-- Where the halting invariants pass, the state is solvent. -/
theorem solvent_of_allInvariants (h : allInvariants w = .ok ()) : w.Solvent := by
  simp only [allInvariants, World.solvencyInvariant, bind_eq_ok, intMul_eq_ok, ensure_eq_ok,
    pure_eq_ok, exists_const] at h
  obtain ⟨holds, ⟨sumVault, hsum, lhs, ⟨-, rfl⟩, rhs, ⟨-, rfl⟩, rfl⟩, hbalanced, hvaults⟩ := h
  have hnonneg : ∀ v ∈ w.inst.institutions.vaultBalances, 0 ≤ v := by
    intro v hv
    obtain ⟨e, he, rfl⟩ := List.mem_map.1 hv
    exact hvaults e he
  rw [intSum_eq hnonneg] at hsum
  obtain ⟨-, rfl⟩ := checkedInt_eq_ok.1 hsum
  have heq := of_decide_eq_true hbalanced
  exact ⟨heq, fun id inst hget => hvaults (id, inst) (OrdMap.mem_entries.2 hget)⟩

theorem initGenesis_solvent {gs : GenesisState D} {c : Coin.Store}
    (h : initGenesis ctx gs b c = .ok w) : w.Solvent := by
  unfold initGenesis at h
  split at h
  · cases h
  · simp only [bind_eq_ok, pure_eq_ok] at h
    obtain ⟨⟨⟩, -, s, -, ⟨⟩, hinv, rfl⟩ := h
    exact solvent_of_allInvariants hinv

theorem onInstitutions_solvent {x : Result (Store D)} (hw : w.Solvent)
    (hx : ∀ s, x = .ok s → SameVaults w.inst s) (h : onInstitutions w x = .ok w') : w'.Solvent := by
  obtain ⟨s, hs, rfl⟩ := onInstitutions_ok h
  exact solvent_of_sameVaults hw rfl (hx s hs)

theorem onBank_solvent {x : Result Bank} (hw : w.Solvent)
    (hx : ∀ b, x = .ok b → b.getSupply denom = w.bank.getSupply denom)
    (h : onBank w x = .ok w') : w'.Solvent := by
  obtain ⟨b, hb, rfl⟩ := onBank_ok h
  exact solvent_of_sameVaults hw (hx b hb) (SameVaults.of_eq rfl rfl)

theorem onCoin_solvent {x : Result (Bank × Coin.Store)} (hw : w.Solvent)
    (hx : ∀ b c, x = .ok (b, c) → b.getSupply denom = w.bank.getSupply denom)
    (h : onCoin w x = .ok w') : w'.Solvent := by
  obtain ⟨⟨b, c⟩, hbc, rfl⟩ := onCoin_ok h
  exact solvent_of_sameVaults hw (hx b c hbc) (SameVaults.of_eq rfl rfl)

/-- Every successful action keeps solvency. -/
theorem apply_solvent {a : Action} (hw : w.Solvent)
    (h : apply k ctx w a = .ok w') : w'.Solvent := by
  cases a with
  | mint msg =>
    obtain ⟨-, r, hmint⟩ := apply_mint_ok h
    exact institutionMint_solvent hw hmint
  | redeem msg =>
    obtain ⟨r, hredeem⟩ := apply_redeem_ok h
    exact institutionRedeem_solvent hw hredeem
  | register msg => exact onInstitutions_solvent hw (fun _ => registerInstitution_sameVaults) h
  | remove msg => exact onInstitutions_solvent hw (fun _ => removeInstitution_sameVaults) h
  | freeze msg => exact onInstitutions_solvent hw (fun _ => freezeInstitution_sameVaults) h
  | attest msg => exact onInstitutions_solvent hw (fun _ => publishInstitutionAttestation_sameVaults) h
  | updateParams msg =>
    obtain ⟨s, hs, rfl⟩ := onInstitutions_ok h
    exact setParams_solvent hw (updateParams_ok hs)
  | setEmergency msg =>
    obtain ⟨s, hs, rfl⟩ := onInstitutions_ok h
    obtain ⟨p, hset⟩ := setEmergencyRedemption_ok hs
    exact setParams_solvent hw hset
  | requestFx msg => exact onInstitutions_solvent hw (fun _ => requestFxEntry_sameVaults) h
  | guaranteeFx msg => exact onInstitutions_solvent hw (fun _ => guaranteeFxEntry_sameVaults) h
  | finalizeFx msg => exact onInstitutions_solvent hw (fun _ => finalizeFxEntry_sameVaults) h
  | sensitive msg =>
    simp only [apply, bind_eq_ok, pure_eq_ok] at h
    obtain ⟨⟨⟩, -, ⟨r, s⟩, hsens, rfl⟩ := h
    exact solvent_of_sameVaults hw rfl (sensitiveAction_sameVaults hsens)
  | transfer msg =>
    obtain ⟨⟨⟩, -, h⟩ := bind_eq_ok.1 h
    exact onCoin_solvent hw (fun _ _ => transfer_supply) h
  | deductFee payer deductFrom msgs => exact onCoin_solvent hw (fun _ _ => deductFee_supply) h
  | withdrawRevenue msg => exact onBank_solvent hw (fun _ => withdrawRevenue_supply) h
  | updateCoinParams msg =>
    simp only [apply, bind_eq_ok, pure_eq_ok] at h
    obtain ⟨c, -, rfl⟩ := h
    exact solvent_of_sameVaults hw rfl (SameVaults.of_eq rfl rfl)
  | slash burns => exact onBank_solvent hw (fun _ => compensate_supply) h
  | govBurn amt => exact onBank_solvent hw (fun _ => govBurnGuard_supply amt.2 hw) h
  | beginBlock =>
    cases h
    exact solvent_of_sameVaults hw rfl (beginBlock_sameVaults ctx w.inst)
  | restart => exact initGenesis_solvent h

theorem step_solvent (k : Keeper D) (w : World D) (a : Ctx × Action) (hw : w.Solvent) :
    (step k w a).Solvent :=
  commit_preserves hw fun _ => apply_solvent hw

/-- From a solvent state every run of the chain reaches solvent states only. In each of them a
mint or a redemption that has passed everything before the write-path assertion is never found
insolvent by it: the assertion passes where the supply times the rate, in the state just built,
fits 256 bits, and panics where it does not. -/
theorem solvent_of_run (k : Keeper D) (w : World D) (hbalanced : w.solvencyHolds)
    (hvaults : ∀ id inst, w.inst.getInstitution id = some inst → 0 ≤ inst.vaultBalance)
    (as : List (Ctx × Action)) :
    let w' := run (step k) w as
    w'.solvencyHolds ∧
      (∀ id inst, w'.inst.getInstitution id = some inst → 0 ≤ inst.vaultBalance) ∧
      (∀ ctx msg plan s built, mintChecks k ctx msg w'.inst = .ok plan →
        mintGate k msg plan w'.inst = .ok (.open, s) →
        mintedWorld ctx msg plan { w' with inst := s } = .ok built →
        institutionMint k ctx msg w' =
          if Fits (built.totalSupplyUphi * (built.inst.params.phiToToman : Int)) then
            .ok (.minted plan.uphi, built) else .error intOverflow) ∧
      (∀ ctx msg plan split coin built, redeemChecks ctx msg w'.inst = .ok plan →
        redeemPricing ctx msg plan w' = .ok (split, coin) →
        redeemedWorld ctx msg plan split coin w' = .ok built →
        institutionRedeem ctx msg w' =
          if Fits (built.totalSupplyUphi * (built.inst.params.phiToToman : Int)) then
            .ok (split.burned, built) else .error intOverflow) := by
  intro w'
  have hw' : w'.Solvent := run_invariant (step_solvent k) ⟨hbalanced, hvaults⟩ as
  refine ⟨hw'.balanced, hw'.vaults, ?_, ?_⟩
  · intro ctx msg plan s built hchecks hgate hbuilt
    exact institutionMint_asserted hw' hchecks hgate hbuilt
  · intro ctx msg plan split coin built hchecks hprice hbuilt
    exact institutionRedeem_asserted hw' hchecks hprice hbuilt

/-- A slash of the small chain leaves it solvent. -/
theorem solvent_of_run_slash : smallWorld.solvencyHolds ∧
    (run (step textKeeper) smallWorld
      [(smallCtx 5, .slash [(.bonded, ⟨denom, 4⟩)]), (smallCtx 6, .beginBlock)]).solvencyHolds := by
  have hsmall : smallWorld.Solvent := solvent_of_allInvariants (by decide)
  exact ⟨hsmall.balanced, (solvent_of_run textKeeper smallWorld hsmall.balanced hsmall.vaults _).1⟩

/-- `multisigWorld` with default parameters, a reserve without end and a vault of `10 ^ 71` toman. -/
def hugeWorld : World Bytes where
  bank := (⟨∅, ∅⟩ : Bank).setBalance [9] denom (10 ^ 72) |>.setSupply denom (10 ^ 72)
  coin := ⟨Coin.defaultParams, ∅, ∅⟩
  inst := { multisigStore with params := defaultValidParams }.setInstitution
    { multisigInstitution with vaultBalance := 10 ^ 71, attestedReserve := 10 ^ 73 }

def hugeMint : MsgInstitutionMint := { largeMint [1] with amountToman := intString (10 ^ 71) }

/-- A second mint of `10 ^ 71` toman passes everything before the assertion and is rejected by it:
the products it compares are `2 * 10 ^ 77`, beyond 256 bits. -/
theorem mint_assertion_overflows :
    let built : Result (World Bytes) := do
      let plan ← mintChecks textKeeper (smallCtx 0) hugeMint hugeWorld.inst
      let (_, s) ← mintGate textKeeper hugeMint plan hugeWorld.inst
      mintedWorld (smallCtx 0) hugeMint plan { hugeWorld with inst := s }
    hugeWorld.Solvent ∧
      (built.toOption.map fun w =>
          (w.totalSupplyUphi * (w.inst.params.phiToToman : Int), assertSolvency w)) =
        some (2 * 10 ^ 77, .error intOverflow) ∧
      isOk (institutionMint textKeeper (smallCtx 0) hugeMint hugeWorld) = false := by
  intro built
  exact ⟨solvent_of_allInvariants (by decide +kernel), by decide +kernel, by decide +kernel⟩

end PhiChain.App
