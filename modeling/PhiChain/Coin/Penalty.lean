import PhiChain.Coin.Aging
import PhiChain.Coin.Keeper

/-!
# Penalties and merged lots

The penalty of a list of lots is a sum of shares, one for each lot at the rate of its tier
(`penaltyForLots_eq`). A merge prices the lots it joins at one rate. Where the merged lot counts
as young, or all of the lots were old, that is at least what they owed (`churn_penalty_kept`);
where old and young coin are merged into a lot that counts as old, the young coin in it is priced
as old (`churn_launders_young_coin`).
-/

set_option autoImplicit false

namespace PhiChain.Coin

open Foundations Sdk

/-! ## Penalties as sums of shares -/

/-- Rate of a lot at a given time. -/
def Params.penaltyBps (p : Params) (now : Int) (l : CoinLot) : Int :=
  if isOld l.acquiredAt now p.coinAgeThresholdSeconds then p.oldPenaltyBps else p.youngPenaltyBps

def Params.penaltyOf (p : Params) (now : Int) (l : CoinLot) : Int :=
  share bpsDenominator (lotAmount l) (p.penaltyBps now l)

section Shares

variable {p : Params} {now : Int}

theorem penaltyBps_nonneg (p : Params) (now : Int) (l : CoinLot) : 0 ≤ p.penaltyBps now l := by
  unfold Params.penaltyBps
  split <;> omega

theorem penaltyForLots_eq (lots : List CoinLot) (now : Int) (p : Params) :
    penaltyForLots lots now p = (lots.map (p.penaltyOf now)).sum := by
  have hfold : ∀ start : Int, lots.foldl (fun penalty l =>
      penalty + quo (lotAmount l * p.penaltyBps now l) bpsDenominator) start =
        start + (lots.map (p.penaltyOf now)).sum := by
    induction lots with
    | nil => simp
    | cons l rest ih =>
      intro start
      have hnonneg : 0 ≤ lotAmount l * p.penaltyBps now l :=
        mul_nonneg (lotAmount_nonneg l) (penaltyBps_nonneg p now l)
      rw [List.foldl_cons, ih, List.map_cons, List.sum_cons, quo_of_nonneg hnonneg,
        Params.penaltyOf, share, add_assoc]
  exact (hfold 0).trans (zero_add _)

@[simp] theorem penaltyForLots_cons (l : CoinLot) (lots : List CoinLot) (now : Int) (p : Params) :
    penaltyForLots (l :: lots) now p = p.penaltyOf now l + penaltyForLots lots now p := by
  simp [penaltyForLots_eq]

@[simp] theorem penaltyForLots_append (lots lots' : List CoinLot) (now : Int) (p : Params) :
    penaltyForLots (lots ++ lots') now p = penaltyForLots lots now p + penaltyForLots lots' now p := by
  simp [penaltyForLots_eq]

theorem penaltyForLots_nonneg (lots : List CoinLot) (now : Int) (p : Params) :
    0 ≤ penaltyForLots lots now p := by
  rw [penaltyForLots_eq]
  apply List.sum_nonneg
  intro x hx
  obtain ⟨l, -, rfl⟩ := List.mem_map.1 hx
  exact share_nonneg bpsDenominator_pos.le (lotAmount_nonneg l) (penaltyBps_nonneg p now l)

/-- Lots owe at most what their total owes at a rate above both tiers. -/
theorem penaltyForLots_le (lots : List CoinLot) {top : Int} (hold : (p.oldPenaltyBps : Int) ≤ top)
    (hyoung : (p.youngPenaltyBps : Int) ≤ top) :
    penaltyForLots lots now p ≤ share bpsDenominator (totalLots lots) top := by
  rw [penaltyForLots_eq]
  refine sum_share_le bpsDenominator_pos lotAmount (p.penaltyBps now) top lots
    (fun l _ => lotAmount_nonneg l) fun l _ => ?_
  unfold Params.penaltyBps
  split
  · exact hold
  · exact hyoung

/-- Pricing a spend computes with amounts that fit, where the spend times each rate does, and the
penalty is at most the share of the higher rate. -/
theorem penaltyAmounts_fit {s : Store} {address : Bytes} {uphi : Int} (hpos : 0 < uphi)
    (hyoung : Fits (uphi * s.params.youngPenaltyBps)) (hold : Fits (uphi * s.params.oldPenaltyBps)) :
    (∀ v ∈ s.penaltyAmounts now address uphi, Fits v) ∧
      0 ≤ (s.earlyRedeemPenalty now address uphi).1 ∧
      Fits (bpsDenominator * (s.earlyRedeemPenalty now address uphi).1) := by
  set consumed := (s.spendOldestFirst now address uphi).1
  have htotal : totalLots consumed = uphi :=
    (totalLots_consumed now _ (s.getCoinAge address) uphi).trans (max_eq_right hpos.le)
  have hpenalty : (s.earlyRedeemPenalty now address uphi).1 = penaltyForLots consumed now s.params := by
    unfold Store.earlyRedeemPenalty
    rw [if_pos hpos]
  have hnonneg := penaltyForLots_nonneg consumed now s.params
  obtain ⟨top, htop, hyoung', hold'⟩ : ∃ top : Int, Fits (uphi * top) ∧
      (s.params.youngPenaltyBps : Int) ≤ top ∧ (s.params.oldPenaltyBps : Int) ≤ top := by
    rcases le_total (s.params.youngPenaltyBps : Int) s.params.oldPenaltyBps with h | h
    · exact ⟨_, hold, h, le_rfl⟩
    · exact ⟨_, hyoung, le_rfl, h⟩
  have hshare := @penaltyForLots_le s.params now consumed top hold' hyoung'
  have hscaled : bpsDenominator * penaltyForLots consumed now s.params ≤ uphi * top := by
    rw [htotal] at hshare
    have hmul : share bpsDenominator uphi top * bpsDenominator ≤ uphi * top :=
      share_mul_le bpsDenominator_pos
    unfold bpsDenominator at *
    omega
  have hfit : Fits (bpsDenominator * penaltyForLots consumed now s.params) :=
    fits_of_le (mul_nonneg bpsDenominator_pos.le hnonneg) hscaled htop
  refine ⟨List.forall_mem_cons.2 ⟨fits_of_le hnonneg ?_ hfit, ?_⟩, hpenalty ▸ hnonneg,
    hpenalty ▸ hfit⟩
  · exact le_mul_of_one_le_left hnonneg bpsDenominator_pos
  · intro v hv
    obtain ⟨l, hl, rfl⟩ := List.mem_map.1 hv
    have hlot : lotAmount l ≤ uphi := by
      rw [← htotal]
      exact List.single_le_sum (fun x hx => by
        obtain ⟨l', -, rfl⟩ := List.mem_map.1 hx
        exact lotAmount_nonneg l') _ (List.mem_map.2 ⟨l, hl, rfl⟩)
    have hrate := penaltyBps_nonneg s.params now l
    refine fits_of_le (mul_nonneg (lotAmount_nonneg l) hrate)
      (mul_le_mul hlot ?_ hrate hpos.le) htop
    split
    · exact hold'
    · exact hyoung'

end Shares

/-! ## Redeeming a whole queue -/

def redeemPenalty (p : Params) (now : Int) (lots : List CoinLot) : Int :=
  penaltyForLots (spendLots now p.coinAgeThresholdSeconds lots (totalLots lots)).1 now p

/-- Spending all of a queue consumes its lots. -/
theorem spendLots_all (now thresholdSeconds : Int) {lots : List CoinLot}
    (hpos : ∀ l ∈ lots, 0 < l.amount) :
    (spendLots now thresholdSeconds lots (totalLots lots)).1 = lots := by
  induction lots with
  | nil => simp [spendLots]
  | cons l rest ih =>
    have hl := hpos l List.mem_cons_self
    have hamount := lotAmount_of_nonneg hl.le
    have hrest := totalLots_nonneg rest
    have htotal : totalLots (l :: rest) - lotAmount l = totalLots rest := by
      rw [totalLots_cons]
      omega
    rw [spendLots_whole _ _ l rest (by rw [totalLots_cons]; omega) (by rw [totalLots_cons]; omega),
      htotal, ih fun l' hl' => hpos l' (List.mem_cons_of_mem _ hl'), hamount]

theorem redeemPenalty_eq (p : Params) (now : Int) {lots : List CoinLot}
    (hpos : ∀ l ∈ lots, 0 < l.amount) : redeemPenalty p now lots = penaltyForLots lots now p := by
  rw [redeemPenalty, spendLots_all now _ hpos]

/-! ## An insertion with and without its merges -/

/-- The queue with a lot put into it and nothing merged. -/
def insertUnbounded (lots : List CoinLot) (lot : CoinLot) : List CoinLot :=
  if 0 < lotAmount lot then placeLot lots lot else lots

/-- Number of merges of an insertion. -/
def insertMerges (lots : List CoinLot) (lot : CoinLot) (bound : Nat) : Nat :=
  (insertRounds lots lot bound).length

/-- Redeeming the queue costs what it cost before the merges, less one uphi for each at most. -/
def PenaltyKept (p : Params) (now : Int) (lots : List CoinLot) (lot : CoinLot) (bound : Nat) : Prop :=
  redeemPenalty p now (insertUnbounded lots lot) - insertMerges lots lot bound ≤
    redeemPenalty p now (insertLot lots lot bound)

/-- The lots that end up in the first one: the oldest of the queue with the new lot in it. -/
def mergedLots (lots : List CoinLot) (lot : CoinLot) (bound : Nat) : List CoinLot :=
  (placeLot lots lot).take (excess (boundInForce bound) (lots.length + 1) + 1)

/-- The rounded mean of the times of some lots, taken one after the other. -/
def meanTime : List CoinLot → Int
  | [] => 0
  | l :: rest => (rest.foldl mergeLots l).acquiredAt

/-- Lots that can be merged without pricing young coin as old: no two of them, or both tiers at
one rate, or all of them old, or lots whose mean age, weighted by the amounts, is below the
threshold (as that of young lots is). -/
inductive KeepsTier (p : Params) (now : Int) (lots : List CoinLot) : Prop where
  | single (h : lots.length ≤ 1)
  | oneRate (h : p.oldPenaltyBps = p.youngPenaltyBps)
  | old (h : ∀ l ∈ lots, isOld l.acquiredAt now p.coinAgeThresholdSeconds)
  | young (low high : Int) (span : Span low high) (times : Within low high lots)
      (hnow : low ≤ now ∧ now ≤ high)
      (h : totalLots lots * now - ageWeight lots < totalLots lots * p.coinAgeThresholdSeconds)

section Churn

variable {p : Params} {now : Int} {lots : List CoinLot} {lot : CoinLot} {bound : Nat}

/-- An insertion of a positive lot: the merged lots become one, and the rest stay. -/
theorem insertLot_merged (hpos : 0 < lotAmount lot) :
    ∃ front : CoinLot, front.acquiredAt = meanTime (mergedLots lots lot bound) ∧
      lotAmount front = totalLots (mergedLots lots lot bound) ∧
      insertLot lots lot bound =
        front :: (placeLot lots lot).drop (excess (boundInForce bound) (lots.length + 1) + 1) := by
  have hlength := length_placeLot lots lot
  unfold mergedLots
  rw [insertLot_of_pos hpos]
  cases hplaced : placeLot lots lot with
  | nil =>
    rw [hplaced] at hlength
    cases hlength
  | cons l rest =>
    rw [hplaced, List.length_cons] at hlength
    refine ⟨(rest.take (excess (boundInForce bound) (lots.length + 1))).foldl mergeLots l, ?_, ?_, ?_⟩
    · rw [List.take_succ_cons, meanTime]
    · rw [List.take_succ_cons, totalLots_cons, lotAmount_foldl_merge]
    · rw [boundLots_cons, hlength, List.drop_succ_cons]

theorem amount_pos {l : CoinLot} (h : 0 < lotAmount l) : 0 < l.amount := by
  unfold lotAmount at h
  split at h <;> omega

theorem placeLot_positive (hlot : 0 < lotAmount lot) (hpos : ∀ l ∈ lots, 0 < l.amount) :
    ∀ l ∈ placeLot lots lot, 0 < l.amount := by
  intro l hl
  rcases mem_placeLot.1 hl with rfl | hmem
  · exact amount_pos hlot
  · exact hpos l hmem

/-- Both penalties have the part of the unmerged lots in common. -/
theorem redeemPenalty_insert (hlot : 0 < lotAmount lot) (hpos : ∀ l ∈ lots, 0 < l.amount) :
    ∃ rest : Int,
      redeemPenalty p now (insertUnbounded lots lot) =
          penaltyForLots (mergedLots lots lot bound) now p + rest ∧
        redeemPenalty p now (insertLot lots lot bound) =
          share bpsDenominator (totalLots (mergedLots lots lot bound))
            (p.penaltyBps now ⟨0, meanTime (mergedLots lots lot bound)⟩) + rest := by
  have hplaced := placeLot_positive hlot hpos
  obtain ⟨front, htime, hamount, hinsert⟩ := @insertLot_merged lots lot bound hlot
  refine ⟨penaltyForLots ((placeLot lots lot).drop
    (excess (boundInForce bound) (lots.length + 1) + 1)) now p, ?_, ?_⟩
  · rw [insertUnbounded, if_pos hlot, redeemPenalty_eq p now hplaced, mergedLots,
      ← penaltyForLots_append, List.take_append_drop]
  · have hfront : 0 < lotAmount front := by
      -- the first lot is merged at least with itself
      have hmem : ∀ l ∈ mergedLots lots lot bound, 0 < l.amount := fun l hl =>
        hplaced l (List.mem_of_mem_take hl)
      rw [hamount]
      cases hmerged : mergedLots lots lot bound with
      | nil =>
        have hlength := congrArg List.length hmerged
        rw [mergedLots, List.length_take, length_placeLot] at hlength
        simp at hlength
      | cons l rest =>
        have hl := hmem l (hmerged ▸ List.mem_cons_self)
        have hrest := totalLots_nonneg rest
        rw [totalLots_cons, lotAmount_of_nonneg hl.le]
        omega
    have hpositive : ∀ l ∈ insertLot lots lot bound, 0 < l.amount := by
      rw [hinsert]
      refine List.forall_mem_cons.2 ⟨amount_pos hfront, fun l hl => ?_⟩
      exact hplaced l (List.mem_of_mem_drop hl)
    rw [redeemPenalty_eq p now hpositive, hinsert, penaltyForLots_cons, Params.penaltyOf, hamount,
      Params.penaltyBps, Params.penaltyBps, htime]

/-- Lots of a mean age below the threshold are merged into a young one. -/
theorem meanTime_young {low high : Int} (hspan : Span low high) (htimes : Within low high lots)
    (hnow : low ≤ now ∧ now ≤ high)
    (h : totalLots lots * now - ageWeight lots < totalLots lots * p.coinAgeThresholdSeconds) :
    isOld (meanTime lots) now p.coinAgeThresholdSeconds = false := by
  cases lots with
  | nil => simp at h
  | cons l rest =>
    obtain ⟨hmean, hweight⟩ := foldl_merge_weight hspan l rest htimes
    rw [lotAmount_foldl_merge] at hweight
    have hwidth := hspan.width
    have htotal := totalLots_nonneg (l :: rest)
    rw [totalLots_cons] at h htotal
    rw [ageWeight_cons] at h
    unfold isOld
    rw [meanTime, int64_of_inInt64 ⟨by omega, by omega⟩, decide_eq_false_iff_not, not_le]
    refine lt_of_mul_lt_mul_left ?_ htotal
    rw [mul_sub]
    omega

/-- Merged into one, lots that keep their tier owe at least what they owed. -/
theorem penaltyForLots_le_merged {merged : List CoinLot} (hrates : p.oldPenaltyBps ≤ p.youngPenaltyBps)
    (h : KeepsTier p now merged) :
    penaltyForLots merged now p ≤
      share bpsDenominator (totalLots merged) (p.penaltyBps now ⟨0, meanTime merged⟩) := by
  have hrates' : (p.oldPenaltyBps : Int) ≤ p.youngPenaltyBps := by exact_mod_cast hrates
  cases h with
  | single h =>
    match merged, h with
    | [], _ => simp [penaltyForLots]
    | [l], _ =>
      rw [penaltyForLots_cons, totalLots_cons, totalLots_nil, add_zero]
      exact le_of_eq (add_zero _)
  | oneRate h =>
    have hrate : p.penaltyBps now ⟨0, meanTime merged⟩ = p.youngPenaltyBps := by
      unfold Params.penaltyBps
      rw [h, ite_self]
    rw [hrate]
    exact penaltyForLots_le _ hrates' le_rfl
  | old h =>
    have hlots : penaltyForLots merged now p ≤
        share bpsDenominator (totalLots merged) p.oldPenaltyBps := by
      rw [penaltyForLots_eq]
      refine sum_share_le bpsDenominator_pos lotAmount (p.penaltyBps now) _ merged
        (fun l _ => lotAmount_nonneg l) fun l hl => ?_
      rw [Params.penaltyBps, if_pos (h l hl)]
    refine hlots.trans (share_mono_rate bpsDenominator_pos (totalLots_nonneg merged) ?_)
    unfold Params.penaltyBps
    split
    · exact le_rfl
    · exact hrates'
  | young low high span times hnow h =>
    rw [Params.penaltyBps, meanTime_young span times hnow h]
    exact penaltyForLots_le _ hrates' le_rfl

/-- With the old rate at most the young one, the merges of an insertion do not lower the penalty
of a holder's queue where the lots that are merged keep their tier. -/
theorem churn_penalty_kept (hrates : p.oldPenaltyBps ≤ p.youngPenaltyBps)
    (hpos : ∀ l ∈ lots, 0 < l.amount)
    (hmerged : 0 < lotAmount lot → KeepsTier p now (mergedLots lots lot bound)) :
    PenaltyKept p now lots lot bound := by
  unfold PenaltyKept
  by_cases hlot : 0 < lotAmount lot
  · obtain ⟨rest, hbefore, hafter⟩ := @redeemPenalty_insert p now lots lot bound hlot hpos
    have hkept := penaltyForLots_le_merged hrates (hmerged hlot)
    rw [hbefore, hafter]
    omega
  · rw [insertUnbounded, if_neg hlot, insertLot_of_not_pos hlot]
    omega

/-- An old lot, a young one and a third: the mean of the first two is three days and a half. -/
theorem churn_penalty_mixed :
    PenaltyKept defaultParams 1700000000 [⟨20000, 1699395200⟩, ⟨20000, 1699999000⟩]
      ⟨20000, 1700000000⟩ 2 :=
  churn_penalty_kept (by decide) (by decide) fun _ =>
    .young 0 1700000000 ⟨by decide, by decide, by decide⟩
      (by unfold Within; decide) (by decide) (by decide)

/-- A million uphi of a hundred days and ten thousand of a minute ago are merged when one more
lot arrives: all count as old, and redeeming costs 2020 where it cost 2100. -/
theorem churn_launders_young_coin :
    let lots : List CoinLot := [⟨1000000, 1691360000⟩, ⟨10000, 1699999940⟩]
    let lot : CoinLot := ⟨1, 1700000000⟩
    redeemPenalty defaultParams 1700000000 (insertUnbounded lots lot) = 2100 ∧
      redeemPenalty defaultParams 1700000000 (insertLot lots lot 2) = 2020 ∧
      ¬ PenaltyKept defaultParams 1700000000 lots lot 2 := by
  intro lots lot
  refine ⟨by decide, by decide, ?_⟩
  unfold PenaltyKept
  decide

end Churn

end PhiChain.Coin
