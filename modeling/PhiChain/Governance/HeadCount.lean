import Mathlib.Tactic.Linarith
import PhiChain.Governance.Hooks

/-!
# The public tally decides by heads

On the public route heads are scaled to stake before x/gov decides, so that its quorum over
bonded stake becomes a quorum over the electorate. `OneHumanTally.passes` is the decision
on the heads themselves. The scale is itself a rounded quotient: it cancels exactly in the
veto and the yes ratio, and `quorum_near` bounds what it can do to the quorum.

`TallyResult.passes` is x/gov's own rule.
-/

set_option autoImplicit false

namespace PhiChain.Governance

open Foundations Sdk

/-- Heads behind each option. -/
structure OneHumanTally where
  totalEligible : Nat
  yes : Nat
  no : Nat
  noWithVeto : Nat
  abstain : Nat

def decFromU64 (x : Nat) : Int := decFromInt x

namespace OneHumanTally

def totalVotes (t : OneHumanTally) : Nat := t.yes + t.no + t.noWithVeto + t.abstain

def nonAbstain (t : OneHumanTally) : Nat := t.yes + t.no + t.noWithVeto

def turnout (t : OneHumanTally) : Int := decQuo (decFromU64 t.totalVotes) (decFromU64 t.totalEligible)

def veto (t : OneHumanTally) : Int := decQuo (decFromU64 t.noWithVeto) (decFromU64 t.totalVotes)

def yesRatio (t : OneHumanTally) : Int := decQuo (decFromU64 t.yes) (decFromU64 t.nonAbstain)

def passes (t : OneHumanTally) (quorum threshold vetoThreshold : Int) : Bool :=
  if t.totalEligible = 0 then false
  else if t.totalVotes = 0 then false
  else if t.turnout < quorum then false
  else if vetoThreshold < t.veto then false
  else if t.nonAbstain = 0 then false
  else decide (threshold < t.yesRatio)

end OneHumanTally

/-! ## x/gov's decision -/

namespace TallyResult

def power (r : TallyResult) (o : VoteOption) : Int := r.results.getD o.code 0

def nonAbstain (r : TallyResult) : Int := r.totalPower - r.power .abstain

def percentVoting (r : TallyResult) (totalBonded : Int) : Int :=
  decQuo r.totalPower (decFromInt totalBonded)

def veto (r : TallyResult) : Int := decQuo (r.power .noWithVeto) r.totalPower

def yesRatio (r : TallyResult) : Int := decQuo (r.power .yes) r.nonAbstain

/-- The rule of x/gov: stake, quorum, everyone abstaining, veto, threshold. -/
def passes (r : TallyResult) (totalBonded quorum threshold vetoThreshold : Int) : Bool :=
  if totalBonded = 0 then false
  else if r.percentVoting totalBonded < quorum then false
  else if r.nonAbstain = 0 then false
  else if vetoThreshold < r.veto then false
  else decide (threshold < r.yesRatio)

end TallyResult

/-! ## Rounding of the scale -/

/-- Rounding can turn the quorum only next to it: the scale is at most half a unit too large
and less than one too small, and so is each of the two ratios. -/
theorem quorum_near {turnout eligible bonded scale percent ratio q : Nat} {unit : Nat}
    (heligible : turnout ≤ eligible) (hbonded : eligible ≤ bonded) (hpos : 0 < bonded)
    (hscale : 2 * (scale * eligible) ≤ 2 * (bonded * unit) + eligible)
    (hscale' : bonded * unit ≤ scale * eligible + eligible)
    (hpercent : 2 * (percent * bonded) ≤ 2 * (turnout * scale) + bonded)
    (hpercent' : turnout * scale ≤ percent * bonded + bonded)
    (hratio : 2 * (ratio * eligible) ≤ 2 * (turnout * unit) + eligible)
    (hratio' : turnout * unit ≤ ratio * eligible + eligible)
    (hturn : percent < q ∧ q ≤ ratio ∨ ratio < q ∧ q ≤ percent) :
    turnout * unit ≤ q * eligible + eligible ∧ q * eligible ≤ turnout * unit + eligible := by
  rcases hturn with ⟨hbelow, habove⟩ | ⟨hbelow, habove⟩
  · -- the stake misses the quorum that the heads reach
    have hq : q * eligible ≤ ratio * eligible := Nat.mul_le_mul_right _ habove
    have hp : percent * bonded + bonded ≤ q * bonded := by
      rw [← Nat.succ_mul]
      exact Nat.mul_le_mul_right _ hbelow
    refine ⟨?_, by omega⟩
    refine Nat.le_of_mul_le_mul_left ?_ hpos
    calc bonded * (turnout * unit) = turnout * (bonded * unit) := by ring
      _ ≤ turnout * (scale * eligible + eligible) := Nat.mul_le_mul_left _ hscale'
      _ = turnout * scale * eligible + turnout * eligible := by ring
      _ ≤ q * bonded * eligible + bonded * eligible :=
          Nat.add_le_add (Nat.mul_le_mul_right _ (hpercent'.trans hp))
            (Nat.mul_le_mul_right _ (heligible.trans hbonded))
      _ = bonded * (q * eligible + eligible) := by ring
  · have hr : ratio * eligible + eligible ≤ q * eligible := by
      rw [← Nat.succ_mul]
      exact Nat.mul_le_mul_right _ hbelow
    have hq : q * bonded ≤ percent * bonded := Nat.mul_le_mul_right _ habove
    refine ⟨by omega, ?_⟩
    have htwo : 2 * bonded * (q * eligible) ≤ 2 * bonded * (turnout * unit + eligible) :=
      calc 2 * bonded * (q * eligible) = 2 * (q * bonded) * eligible := by ring
        _ ≤ (2 * (turnout * scale) + bonded) * eligible := by
            refine Nat.mul_le_mul_right _ ?_
            omega
        _ = turnout * (2 * (scale * eligible)) + bonded * eligible := by ring
        _ ≤ turnout * (2 * (bonded * unit) + eligible) + bonded * eligible :=
            Nat.add_le_add_right (Nat.mul_le_mul_left _ hscale) _
        _ = 2 * bonded * (turnout * unit) + (turnout * eligible + bonded * eligible) := by ring
        _ ≤ 2 * bonded * (turnout * unit) + (bonded * eligible + bonded * eligible) :=
            Nat.add_le_add_left (Nat.add_le_add_right
              (Nat.mul_le_mul_right _ (heligible.trans hbonded)) _) _
        _ = 2 * bonded * (turnout * unit + eligible) := by ring
    exact Nat.le_of_mul_le_mul_left htwo (Nat.mul_pos Nat.two_pos hpos)

/-! ## Heads and stake -/

/-- The heads behind stored counts. -/
def headCount (counts : OrdMap Byte Nat) (totalEligible : Nat) : OneHumanTally where
  totalEligible := totalEligible
  yes := counts.getD VoteOption.yes.code 0
  no := counts.getD VoteOption.no.code 0
  noWithVeto := counts.getD VoteOption.noWithVeto.code 0
  abstain := counts.getD VoteOption.abstain.code 0

/-- Heads that voted. -/
def headTurnout (counts : OrdMap Byte Nat) : Nat := counts.total fun _ n => n

theorem headCount_totalVotes {counts : OrdMap Byte Nat}
    (hkeys : ∀ k, counts.has k = true → ∃ o : VoteOption, o.code = k) (totalEligible : Nat) :
    (headCount counts totalEligible).totalVotes = headTurnout counts := by
  -- take the four options out one after another; nothing is left
  have hgetD : ∀ (m : OrdMap Byte Nat) {o o' : VoteOption}, o ≠ o' →
      (m.erase o.code).getD o'.code 0 = m.getD o'.code 0 := fun m {o o'} h => by
    rw [OrdMap.getD, OrdMap.getD, OrdMap.get?_erase_ne m fun heq => h (VoteOption.code_injective heq)]
  have hrest : OrdMap.total (fun _ n => n) ((((counts.erase VoteOption.yes.code).erase
      VoteOption.no.code).erase VoteOption.noWithVeto.code).erase VoteOption.abstain.code) = 0 := by
    refine OrdMap.total_eq_zero fun k n hget => ?_
    have hhas := OrdMap.has_iff.2 ⟨n, hget⟩
    simp only [OrdMap.has_erase] at hhas
    obtain ⟨habstain, hveto, hno, hyes, hmem⟩ := hhas
    obtain ⟨o, rfl⟩ := hkeys k hmem
    cases o with
    | yes => exact absurd rfl hyes
    | abstain => exact absurd rfl habstain
    | no => exact absurd rfl hno
    | noWithVeto => exact absurd rfl hveto
  rw [headTurnout, OrdMap.total_eq_getD counts VoteOption.yes.code,
    OrdMap.total_eq_getD _ VoteOption.no.code, OrdMap.total_eq_getD _ VoteOption.noWithVeto.code,
    OrdMap.total_eq_getD _ VoteOption.abstain.code, hrest]
  simp only [hgetD, ne_eq, reduceCtorEq, not_false_eq_true, OneHumanTally.totalVotes, headCount]
  omega

theorem emptyResults_get? (o : VoteOption) : emptyResults.get? o.code = some 0 := by
  cases o <;> rfl

/-- The result of a scaled tally: every count and the turnout times the scale. -/
theorem scalePublicResults_eq (counts : OrdMap Byte Nat)
    {turnout totalEligible totalBonded scale : Nat} (hturnout : turnout ≠ 0) (heligible : totalEligible ≠ 0)
    (hbonded : totalBonded ≠ 0) (hscale : decQuo totalBonded totalEligible = scale) :
    let r := scalePublicResults counts.entries turnout totalEligible totalBonded
    r.totalPower = (turnout * scale : Nat) ∧
      ∀ o : VoteOption, r.power o = (counts.getD o.code 0 * scale : Nat) := by
  have hunit : (0 : Int) < decPrecision := Int.natCast_pos.2 decPrecision_pos
  have hquo : decQuo (decFromInt totalBonded) (decFromInt totalEligible) = scale := by
    rw [decFromInt, decFromInt, decQuo_mul_mul _ _ hunit, hscale]
  have hguard : ¬ (turnout = 0 ∨ totalEligible = 0 ∨ (totalBonded : Int) = 0) := by
    rintro (h | h | h)
    · exact hturnout h
    · exact heligible h
    · exact hbonded (Int.natCast_eq_zero.1 h)
  simp only [scalePublicResults, if_neg hguard, hquo, decMul_decFromInt, true_and]
  intro o
  have hget : (counts.entries.foldl (fun m c => m.put c.1 ((c.2 * scale : Nat) : Int))
      emptyResults).get? o.code = _ :=
    OrdMap.get?_foldl_put (fun n : Nat => ((n * scale : Nat) : Int)) counts.ascending _ _
  rw [TallyResult.power, OrdMap.getD, hget, emptyResults_get?, OrdMap.getD, ← OrdMap.get?]
  cases counts.get? o.code with
  | none => simp
  | some n => rfl

section Decision

variable {totalEligible totalBonded : Nat}

/-- Positive scale and its bounds, for an electorate not above the stake. -/
theorem scale_near (heligible : 0 < totalEligible) (hbonded : totalEligible ≤ totalBonded) :
    ∃ scale : Nat, decQuo totalBonded totalEligible = scale ∧ 0 < scale ∧
      2 * (scale * totalEligible) ≤ 2 * (totalBonded * decPrecision) + totalEligible ∧
      totalBonded * decPrecision ≤ scale * totalEligible + totalEligible := by
  obtain ⟨scale, hscale, hup, hdown⟩ := decQuo_near totalBonded heligible
  refine ⟨scale, hscale, Nat.pos_of_ne_zero ?_, hup, hdown⟩
  rintro rfl
  -- a scale of zero would put the stake below the electorate
  have hunit : 2 ≤ decPrecision := by decide
  have htwice : totalBonded * 2 ≤ totalBonded * decPrecision := Nat.mul_le_mul_left _ hunit
  omega

/-- The common scale cancels in a ratio of two numbers of heads. -/
theorem decQuo_heads {scale : Nat} (hscale : 0 < scale) (a b : Nat) :
    decQuo (a * scale : Nat) (b * scale : Nat) = decQuo (decFromU64 a) (decFromU64 b) := by
  have hunit : (0 : Int) < decPrecision := Int.natCast_pos.2 decPrecision_pos
  rw [decFromU64, decFromU64, decFromInt, decFromInt, decQuo_mul_mul _ _ hunit, Nat.cast_mul,
    Nat.cast_mul, decQuo_mul_mul _ _ (Int.natCast_pos.2 hscale)]

end Decision

/-- What x/gov reads of the scaled tally, in heads. -/
structure ScaledHeads (r : TallyResult) (t : OneHumanTally) (totalBonded scale : Nat) : Prop where
  positive : 0 < scale
  total : r.totalPower = (t.totalVotes * scale : Nat)
  yes : r.power .yes = (t.yes * scale : Nat)
  noWithVeto : r.power .noWithVeto = (t.noWithVeto * scale : Nat)
  abstain : r.power .abstain = (t.abstain * scale : Nat)
  bound : 2 * (scale * t.totalEligible) ≤ 2 * (totalBonded * decPrecision) + t.totalEligible
  bound' : totalBonded * decPrecision ≤ scale * t.totalEligible + t.totalEligible

namespace ScaledHeads

variable {r : TallyResult} {t : OneHumanTally} {totalBonded scale : Nat}

theorem veto_eq (h : ScaledHeads r t totalBonded scale) : r.veto = t.veto := by
  rw [TallyResult.veto, h.noWithVeto, h.total, decQuo_heads h.positive, OneHumanTally.veto]

theorem nonAbstain_eq (h : ScaledHeads r t totalBonded scale) :
    r.nonAbstain = (t.nonAbstain * scale : Nat) := by
  have hsplit : t.totalVotes = t.nonAbstain + t.abstain := rfl
  rw [TallyResult.nonAbstain, h.total, h.abstain, hsplit]
  push_cast
  ring

theorem nonAbstain_eq_zero (h : ScaledHeads r t totalBonded scale) :
    r.nonAbstain = 0 ↔ t.nonAbstain = 0 := by
  rw [h.nonAbstain_eq, Int.natCast_eq_zero, Nat.mul_eq_zero]
  exact or_iff_left (Nat.pos_iff_ne_zero.1 h.positive)

theorem yesRatio_eq (h : ScaledHeads r t totalBonded scale) : r.yesRatio = t.yesRatio := by
  rw [TallyResult.yesRatio, h.yes, h.nonAbstain_eq, decQuo_heads h.positive, OneHumanTally.yesRatio]

/-- The two quorum comparisons can differ only next to the quorum. -/
theorem quorum (h : ScaledHeads r t totalBonded scale) (hvoted : 0 < t.totalVotes)
    (heligible : t.totalVotes ≤ t.totalEligible) (hbonded : t.totalEligible ≤ totalBonded)
    {quorum : Int} (hdiffer : ¬ (r.percentVoting totalBonded < quorum ↔ t.turnout < quorum)) :
    |(t.totalVotes : Int) * decPrecision - quorum * t.totalEligible| ≤ 2 * t.totalEligible := by
  have hunit : (0 : Int) < decPrecision := Int.natCast_pos.2 decPrecision_pos
  have hpos : 0 < t.totalEligible := hvoted.trans_le heligible
  have hstake : 0 < totalBonded := hpos.trans_le hbonded
  obtain ⟨ratio, hratio, hup, hdown⟩ := decQuo_near t.totalVotes hpos
  obtain ⟨percent, hpercent, hpup, hpdown⟩ :=
    decQuo_near (t.totalVotes * scale) (Nat.mul_pos hstake decPrecision_pos)
  have hturnout : t.turnout = ratio := by
    rw [OneHumanTally.turnout, decFromU64, decFromU64, decFromInt, decFromInt,
      decQuo_mul_mul _ _ hunit, hratio]
  have hvoting : r.percentVoting totalBonded = percent := by
    rw [TallyResult.percentVoting, h.total, decFromInt, ← Nat.cast_mul, hpercent]
  -- the unit of the stake is on both sides of the bounds on the percentage
  have hpup' : 2 * (percent * totalBonded) ≤ 2 * (t.totalVotes * scale) + totalBonded := by
    refine Nat.le_of_mul_le_mul_left ?_ decPrecision_pos
    linarith only [hpup]
  have hpdown' : t.totalVotes * scale ≤ percent * totalBonded + totalBonded := by
    refine Nat.le_of_mul_le_mul_left ?_ decPrecision_pos
    linarith only [hpdown]
  rw [hturnout, hvoting] at hdiffer
  have hturn : (percent : Int) < quorum ∧ quorum ≤ ratio ∨ (ratio : Int) < quorum ∧ quorum ≤ percent := by
    by_contra hneither
    refine hdiffer ⟨fun hlt => ?_, fun hlt => ?_⟩
    · by_contra hge
      exact hneither (Or.inl ⟨hlt, not_lt.1 hge⟩)
    · by_contra hge
      exact hneither (Or.inr ⟨hlt, not_lt.1 hge⟩)
  obtain ⟨q, rfl⟩ : ∃ q : Nat, quorum = q := by
    refine Int.eq_ofNat_of_zero_le ?_
    rcases hturn with ⟨hlt, -⟩ | ⟨hlt, -⟩
    · exact le_of_lt ((Int.natCast_nonneg _).trans_lt hlt)
    · exact le_of_lt ((Int.natCast_nonneg _).trans_lt hlt)
  have hnear := quorum_near heligible hbonded hstake h.bound h.bound' hpup' hpdown' hup hdown
    (hturn.imp (fun hq => ⟨Int.ofNat_lt.1 hq.1, Int.ofNat_le.1 hq.2⟩)
      fun hq => ⟨Int.ofNat_lt.1 hq.1, Int.ofNat_le.1 hq.2⟩)
  have hcast : ((t.totalVotes * decPrecision : Nat) : Int) = t.totalVotes * decPrecision ∧
      ((q * t.totalEligible : Nat) : Int) = q * t.totalEligible := ⟨Nat.cast_mul _ _, Nat.cast_mul _ _⟩
  rw [← hcast.1, ← hcast.2, abs_le]
  omega

end ScaledHeads

theorem scaledHeads {counts : OrdMap Byte Nat}
    (hkeys : ∀ k, counts.has k = true → ∃ o : VoteOption, o.code = k)
    {totalEligible totalBonded : Nat} (hvoted : 1 ≤ headTurnout counts)
    (heligible : headTurnout counts ≤ totalEligible) (hbonded : totalEligible ≤ totalBonded) :
    ∃ scale, ScaledHeads
      (scalePublicResults counts.entries (headTurnout counts) totalEligible totalBonded)
      (headCount counts totalEligible) totalBonded scale := by
  have hpos : 0 < totalEligible := Nat.lt_of_lt_of_le hvoted heligible
  obtain ⟨scale, hscale, hscalePos, hup, hdown⟩ := scale_near hpos hbonded
  have hresult := scalePublicResults_eq counts (Nat.pos_iff_ne_zero.1 hvoted)
    (Nat.pos_iff_ne_zero.1 hpos) (Nat.pos_iff_ne_zero.1 (hpos.trans_le hbonded)) hscale
  refine ⟨scale, hscalePos, ?_, hresult.2 _, hresult.2 _, hresult.2 _, hup, hdown⟩
  rw [headCount_totalVotes hkeys]
  exact hresult.1

/-- For stored counts of which at least one and at most all eligible heads voted, and a bonded stake
not below the electorate, x/gov's veto and yes comparisons on the scaled tally are those of the
heads, whatever the stake. The quorum comparison differs only when turnout and quorum are within
2·10⁻¹⁸ of each other, and otherwise the two decisions are the same. -/
theorem scaled_tally_decides_by_heads {counts : OrdMap Byte Nat}
    (hkeys : ∀ k, counts.has k = true → ∃ o : VoteOption, o.code = k)
    {totalEligible : Nat} {totalBonded : Int} (hvoted : 1 ≤ headTurnout counts)
    (heligible : headTurnout counts ≤ totalEligible) (hbonded : (totalEligible : Int) ≤ totalBonded) :
    let r := scalePublicResults counts.entries (headTurnout counts) totalEligible totalBonded
    let t := headCount counts totalEligible
    t.totalVotes = headTurnout counts ∧
      (∀ vetoThreshold, vetoThreshold < r.veto ↔ vetoThreshold < t.veto) ∧
      (r.nonAbstain = 0 ↔ t.nonAbstain = 0) ∧
      (∀ threshold, threshold < r.yesRatio ↔ threshold < t.yesRatio) ∧
      (∀ quorum, ¬ (r.percentVoting totalBonded < quorum ↔ t.turnout < quorum) →
        |(headTurnout counts : Int) * decPrecision - quorum * totalEligible| ≤ 2 * totalEligible) ∧
      ∀ quorum threshold vetoThreshold,
        (r.percentVoting totalBonded < quorum ↔ t.turnout < quorum) →
          r.passes totalBonded quorum threshold vetoThreshold =
            t.passes quorum threshold vetoThreshold := by
  intro r t
  obtain ⟨bonded, rfl⟩ := Int.eq_ofNat_of_zero_le ((Int.natCast_nonneg _).trans hbonded)
  have hle : totalEligible ≤ bonded := Int.ofNat_le.1 hbonded
  have hvotes : t.totalVotes = headTurnout counts := headCount_totalVotes hkeys totalEligible
  obtain ⟨scale, hheads⟩ := scaledHeads hkeys hvoted heligible hle
  have hheads : ScaledHeads r t bonded scale := hheads
  refine ⟨hvotes, fun _ => by rw [hheads.veto_eq], hheads.nonAbstain_eq_zero,
    fun _ => by rw [hheads.yesRatio_eq], fun quorum hdiffer => ?_, ?_⟩
  · rw [← hvotes]
    exact hheads.quorum (hvotes ▸ hvoted) (hvotes ▸ heligible) hle hdiffer
  · intro quorum threshold vetoThreshold hquorum
    have hpos : 0 < totalEligible := Nat.lt_of_lt_of_le hvoted heligible
    have hstake : ((bonded : Nat) : Int) ≠ 0 := by omega
    have htotal : t.totalEligible ≠ 0 := Nat.pos_iff_ne_zero.1 hpos
    have hcast : t.totalVotes ≠ 0 := by omega
    simp only [TallyResult.passes, OneHumanTally.passes, if_neg hstake, if_neg htotal, if_neg hcast,
      hquorum, hheads.veto_eq, hheads.yesRatio_eq, hheads.nonAbstain_eq_zero]
    -- the two rules look at the veto and at abstention in a different order
    split_ifs <;> rfl

/-- Ten of thirty vote under a stake of one hundred, seven of them in favour: both rules pass
the proposal at a quorum of one third less 10⁻¹⁷. -/
theorem scaled_tally_decides_by_heads_ten :
    let counts : OrdMap Byte Nat := ((∅ : OrdMap Byte Nat).put 1 7).put 3 3
    (scalePublicResults counts.entries (headTurnout counts) 30 100).passes 100 333333333333333323
        500000000000000000 334000000000000000 = true ∧
      (scalePublicResults counts.entries (headTurnout counts) 30 100).passes 100 333333333333333323
        500000000000000000 334000000000000000 =
      (headCount counts 30).passes 333333333333333323 500000000000000000 334000000000000000 := by
  intro counts
  have hkeys : ∀ k, counts.has k = true → ∃ o : VoteOption, o.code = k := by
    intro k hk
    rcases OrdMap.has_put.1 hk with rfl | hk
    · exact ⟨.no, rfl⟩
    · rcases OrdMap.has_put.1 hk with rfl | hk
      · exact ⟨.yes, rfl⟩
      · exact absurd hk Bool.false_ne_true
  have heligible : headTurnout counts ≤ 30 := by decide
  have hbonded : ((30 : Nat) : Int) ≤ 100 := by decide
  have hheads := scaled_tally_decides_by_heads hkeys (by decide) heligible hbonded
  exact ⟨by decide +kernel, hheads.2.2.2.2.2 _ _ _ (by decide +kernel)⟩

end PhiChain.Governance
