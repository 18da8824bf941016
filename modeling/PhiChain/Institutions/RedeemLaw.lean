import PhiChain.Institutions.Redeem
import PhiChain.Coin.Penalty

/-!
# The law of the redeem split

The parameters of x/coin leave at least a tenth of every redemption to the protocol fee, and
those of x/institutions take no more than that. So fee and penalty never exceed what was
surrendered (`carve_le`), the clamp of `computeRedeemSplit` is never taken, and the four parts of
the split add up to the whole (`redeem_split_law`).
-/

set_option autoImplicit false

namespace PhiChain.Institutions

open Foundations Sdk
open PhiChain.Coin (uphiPerPhi bpsDenominator)

/-! ## Fee and penalty -/

section Carve

variable {p : Params} {c : Coin.Params} {uphi : Int}

theorem protocolFee_eq (p : Params) (huphi : 0 ≤ uphi) :
    p.protocolFee uphi = share bpsDenominator uphi p.protocolFeeBps := by
  unfold Params.protocolFee
  split
  · rename_i hnone
    simp [share, hnone]
  · exact quo_of_nonneg (mul_nonneg huphi (by omega))

/-- The rates that accepted parameters of x/coin leave. -/
theorem penaltyRates_of_validate (h : c.validate = .ok ()) :
    (c.youngPenaltyBps : Int) + c.oldPenaltyBps < bpsDenominator - Coin.maxProtocolFeeReserveBps := by
  simp only [Coin.Params.validate, bind_eq_ok, ensure_eq_ok, forM_eq_ok, exists_const] at h
  obtain ⟨-, -, -, -, -, -, hrates, -⟩ := h
  exact hrates

/-- The penalty of a redemption is at most the share of both rates together. -/
theorem earlyRedeemPenalty_bounds (s : Coin.Store) (now : Int) (holder : Bytes) (huphi : 0 < uphi) :
    0 ≤ (s.earlyRedeemPenalty now holder uphi).1 ∧
      (s.earlyRedeemPenalty now holder uphi).1 ≤
        share bpsDenominator uphi (s.params.youngPenaltyBps + s.params.oldPenaltyBps) := by
  simp only [Coin.Store.earlyRedeemPenalty, if_pos huphi, Coin.Store.spendOldestFirst]
  refine ⟨Coin.penaltyForLots_nonneg _ _ _, ?_⟩
  have hle := @Coin.penaltyForLots_le s.params now
    (Coin.spendLots now s.params.coinAgeThresholdSeconds (s.getCoinAge holder) uphi).1
    (s.params.youngPenaltyBps + s.params.oldPenaltyBps) (by omega) (by omega)
  rw [Coin.totalLots_consumed, max_eq_right huphi.le] at hle
  exact hle

/-- Fee and penalty never exceed the surrendered amount. -/
theorem carve_le {s : Coin.Store} (hcoin : s.params.validate = .ok ()) (hp : p.validate = .ok ())
    (now : Int) (holder : Bytes) (huphi : 0 < uphi) :
    p.protocolFee uphi + (s.earlyRedeemPenalty now holder uphi).1 ≤ uphi := by
  have hfee : (p.protocolFeeBps : Int) ≤ Coin.maxProtocolFeeReserveBps := by
    have hcap := (Params.validate_facts hp).2.2.2
    unfold maxProtocolFeeBps at hcap
    unfold Coin.maxProtocolFeeReserveBps
    omega
  have hrates := penaltyRates_of_validate hcoin
  rw [protocolFee_eq p huphi.le]
  calc share bpsDenominator uphi p.protocolFeeBps + (s.earlyRedeemPenalty now holder uphi).1
      ≤ share bpsDenominator uphi p.protocolFeeBps +
          share bpsDenominator uphi (s.params.youngPenaltyBps + s.params.oldPenaltyBps) :=
        add_le_add le_rfl (earlyRedeemPenalty_bounds s now holder huphi).2
    _ ≤ share bpsDenominator uphi
          (p.protocolFeeBps + (s.params.youngPenaltyBps + s.params.oldPenaltyBps)) :=
        share_rate_add_le Coin.bpsDenominator_pos _ _ _
    _ ≤ uphi := share_le_self Coin.bpsDenominator_pos huphi.le (by omega)

end Carve

/-! ## The split -/

/-- What a split of a surrendered amount has to be, for `k` uphi to the toman. -/
structure RedeemSplit.Lawful (split : RedeemSplit) (uphi toman k : Int) : Prop where
  burned_nonneg : 0 ≤ split.burned
  fee_nonneg : 0 ≤ split.protocolFee
  penalty_nonneg : 0 ≤ split.penalty
  dust_nonneg : 0 ≤ split.dust
  total : split.burned + split.protocolFee + split.penalty + split.dust = uphi
  burned_pos : 0 < split.burned
  burned_dvd : k ∣ split.burned
  dust_lt : split.dust < k
  settled : split.tomanOut * k = split.burned
  paid_le : split.tomanOut ≤ toman

/-- A split whose carve-out does not reach the clamp. -/
theorem lawful_of_carve_le {toman fee penalty : Int} {phiToToman : Nat}
    (hk : 0 < uphiPerToman phiToToman) (htoman : 0 < toman) (hfee : 0 ≤ fee) (hpenalty : 0 ≤ penalty)
    (hcarve : fee + penalty ≤ toman * uphiPerToman phiToToman) :
    (computeRedeemSplit (toman * uphiPerToman phiToToman) fee penalty phiToToman).Lawful
      (toman * uphiPerToman phiToToman) toman (uphiPerToman phiToToman) := by
  have huphi : uphiPerToman phiToToman ≤ toman * uphiPerToman phiToToman :=
    le_mul_of_one_le_left hk.le htoman
  obtain ⟨hle, hsettled, -, hburned⟩ := @redeemSplit_spec
    (toman * uphiPerToman phiToToman) fee penalty phiToToman hk (by omega) hfee hpenalty
  have hpos := hburned huphi
  have hpaid : (computeRedeemSplit (toman * uphiPerToman phiToToman) fee penalty phiToToman).tomanOut ≤
      toman := by
    rw [hsettled] at hle
    exact le_of_mul_le_mul_right hle hk
  have hclamp : clampCarve (toman * uphiPerToman phiToToman) fee penalty =
      (fee + penalty, fee, penalty) := if_neg (not_lt.2 hcarve)
  have hparts : ∀ split, split =
      computeRedeemSplit (toman * uphiPerToman phiToToman) fee penalty phiToToman →
      0 ≤ split.protocolFee ∧ 0 ≤ split.penalty ∧ 0 ≤ split.dust ∧
        split.dust < uphiPerToman phiToToman := by
    rintro split rfl
    simp only [computeRedeemSplit, hclamp]
    generalize uphiPerToman phiToToman = k at *
    generalize toman * k = uphi at *
    have hmod := Int.emod_nonneg (uphi - (fee + penalty)) hk.ne'
    have hmodlt := Int.emod_lt_of_pos (uphi - (fee + penalty)) hk
    split
    · -- one toman is burned anyway, and what it lacks comes out of penalty and fee
      rename_i hlift
      omega
    · omega
  obtain ⟨hfee', hpenalty', hdust, hdustlt⟩ := hparts _ rfl
  refine ⟨hpos.le, hfee', hpenalty', hdust, ?_, hpos, ?_, hdustlt, hsettled.symm, hpaid⟩
  · simp only [computeRedeemSplit]
    omega
  · exact Dvd.intro_left _ hsettled.symm

/-- For accepted parameters of both modules, every stored queue, every time and every amount of
whole toman, the redeem split never takes its clamp and divides the amount lawfully. -/
theorem redeem_split_law {s : Coin.Store} {p : Params} (hcoin : s.params.validate = .ok ())
    (hp : p.validate = .ok ()) (now : Int) (holder : Bytes) {toman : Int} (htoman : 0 < toman) :
    let uphi := toman * uphiPerToman p.phiToToman
    let penalty := (s.earlyRedeemPenalty now holder uphi).1
    p.protocolFee uphi + penalty ≤ uphi ∧
      (computeRedeemSplit uphi (p.protocolFee uphi) penalty p.phiToToman).Lawful uphi toman
        (uphiPerToman p.phiToToman) := by
  intro uphi penalty
  have hk : 0 < uphiPerToman p.phiToToman := by
    obtain ⟨hrate, hdvd, -, -⟩ := Params.validate_facts hp
    have hrate' : (0 : Int) < p.phiToToman := by omega
    unfold uphiPerToman
    rw [quo_of_nonneg (by decide)]
    exact Int.ediv_pos_of_pos_of_dvd (by decide) hrate'.le (Int.dvd_of_emod_eq_zero hdvd)
  have huphi : 0 < uphi := mul_pos htoman hk
  have hcarve := carve_le hcoin hp now holder huphi
  have hfee : 0 ≤ p.protocolFee uphi := by
    rw [protocolFee_eq p huphi.le]
    exact share_nonneg Coin.bpsDenominator_pos.le huphi.le (by omega)
  exact ⟨hcarve, lawful_of_carve_le hk htoman hfee
    (earlyRedeemPenalty_bounds s now holder huphi).1 hcarve⟩

/-- Account 1 has an old lot and a young one at second 1000000. -/
def bothTiers : Coin.Store :=
  (⟨Coin.defaultParams, ∅, ∅⟩ : Coin.Store).setCoinAge [1] [⟨4000, 0⟩, ⟨6000, 900000⟩]

/-- A thousand toman of both tiers under the default parameters: 8 uphi of penalty on the old lot and
60 on the young one. -/
theorem redeem_split_law_default :
    (bothTiers.earlyRedeemPenalty 1000000 [1] 10000).1 = 68 ∧
      (computeRedeemSplit 10000 (defaultParams.protocolFee 10000)
        (bothTiers.earlyRedeemPenalty 1000000 [1] 10000).1
        defaultParams.phiToToman).Lawful 10000 1000 10 :=
  ⟨by decide +kernel, (redeem_split_law (s := bothTiers) (p := defaultParams) (by decide) (by decide)
    1000000 [1] (by decide : (0 : Int) < 1000)).2⟩

end PhiChain.Institutions
