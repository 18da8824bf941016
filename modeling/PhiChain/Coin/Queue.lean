import PhiChain.Coin.CoinAge
import PhiChain.Foundations.Shares

/-!
# Lot queues

What the functions over a lot queue do to its length, its total and its age. The age of a
queue is `ageWeight`, the sum of amount times acquisition time: the larger it is, the younger
the coin counts.

Bounding a queue merges its oldest lots into one (`boundLots_cons`), and a merged lot is dated
at the weighted mean, rounded up (`mergedAcquiredAt_eq`). So a bounded queue keeps its total and
never looks older than before. `Tracked` runs insertions and spends from an empty queue.
-/

set_option autoImplicit false

namespace PhiChain.Coin

open Foundations Sdk

/-! ## Totals -/

def totalLots (lots : List CoinLot) : Int := (lots.map lotAmount).sum

/-- Sum of amount times acquisition time. -/
def ageWeight (lots : List CoinLot) : Int := (lots.map fun l => lotAmount l * l.acquiredAt).sum

theorem lotAmount_nonneg (l : CoinLot) : 0 ≤ lotAmount l := by
  unfold lotAmount
  split <;> omega

theorem lotAmount_of_nonneg {l : CoinLot} (h : 0 ≤ l.amount) : lotAmount l = l.amount :=
  if_neg (not_lt.2 h)

theorem lotAmount_mk {amount : Int} (h : 0 ≤ amount) (acquiredAt : Int) :
    lotAmount ⟨amount, acquiredAt⟩ = amount :=
  lotAmount_of_nonneg h

@[simp] theorem totalLots_nil : totalLots [] = 0 := rfl

@[simp] theorem totalLots_cons (l : CoinLot) (lots : List CoinLot) :
    totalLots (l :: lots) = lotAmount l + totalLots lots := by
  simp [totalLots]

@[simp] theorem totalLots_append (lots lots' : List CoinLot) :
    totalLots (lots ++ lots') = totalLots lots + totalLots lots' := by
  simp [totalLots]

@[simp] theorem ageWeight_nil : ageWeight [] = 0 := rfl

@[simp] theorem ageWeight_cons (l : CoinLot) (lots : List CoinLot) :
    ageWeight (l :: lots) = lotAmount l * l.acquiredAt + ageWeight lots := by
  simp [ageWeight]

theorem totalLots_nonneg (lots : List CoinLot) : 0 ≤ totalLots lots := by
  induction lots with
  | nil => simp
  | cons l rest ih =>
    have := lotAmount_nonneg l
    simp only [totalLots_cons]
    omega

/-! ## Merging two lots -/

section Merge

variable {older newer : CoinLot}

@[simp] theorem lotAmount_mergeLots (older newer : CoinLot) :
    lotAmount (mergeLots older newer) = lotAmount older + lotAmount newer := by
  have holder := lotAmount_nonneg older
  have hnewer := lotAmount_nonneg newer
  exact lotAmount_of_nonneg (by unfold mergeLots; dsimp only; omega)

/-- Two times of 64 bits whose difference has 64 bits, too. -/
structure Near (t t' : Int) : Prop where
  first : InInt64 t
  second : InInt64 t'
  gap : InInt64 (t' - t)

instance (t t' : Int) : Decidable (Near t t') :=
  decidable_of_iff (InInt64 t ∧ InInt64 t' ∧ InInt64 (t' - t))
    ⟨fun h => ⟨h.1, h.2.1, h.2.2⟩, fun h => ⟨h.first, h.second, h.gap⟩⟩

theorem Near.of_nonneg {t t' : Int} (h : 0 ≤ t ∧ t < 2 ^ 63) (h' : 0 ≤ t' ∧ t' < 2 ^ 63) :
    Near t t' := by
  refine ⟨⟨?_, ?_⟩, ⟨?_, ?_⟩, ⟨?_, ?_⟩⟩ <;> omega

/-- Where the gap does not wrap, a merged lot is dated the rounded-up share of the gap behind
the older one. -/
theorem mergedAcquiredAt_eq (hnear : Near older.acquiredAt newer.acquiredAt)
    (horder : older.acquiredAt ≤ newer.acquiredAt) (htotal : 0 < lotAmount older + lotAmount newer) :
    mergedAcquiredAt older newer = older.acquiredAt +
      roundUp (lotAmount newer * (newer.acquiredAt - older.acquiredAt))
        (lotAmount older + lotAmount newer) := by
  have holder := lotAmount_nonneg older
  have hnewer := lotAmount_nonneg newer
  have hgap : 0 ≤ newer.acquiredAt - older.acquiredAt := by omega
  have hnum := mul_nonneg hnewer hgap
  simp only [mergedAcquiredAt, int64_of_inInt64 hnear.gap]
  rcases eq_or_lt_of_le hgap with hzero | hpos
  · rw [if_pos (by omega), ← hzero, mul_zero, roundUp_zero htotal, add_zero]
  · rw [if_neg (by omega), if_neg (by omega), quo_of_nonneg (by omega)]
    -- the weighted share of the gap is at most the gap, so the sum does not wrap
    have hshare : roundUp (lotAmount newer * (newer.acquiredAt - older.acquiredAt))
        (lotAmount older + lotAmount newer) ≤ newer.acquiredAt - older.acquiredAt := by
      apply roundUp_le htotal
      rw [mul_comm]
      exact mul_le_mul_of_nonneg_left (by omega) hgap
    have hlow := roundUp_nonneg hnum htotal
    obtain ⟨hfirst, -⟩ := hnear.first
    obtain ⟨-, hsecond⟩ := hnear.second
    exact int64_of_inInt64 ⟨by unfold roundUp at hlow; omega, by unfold roundUp at hshare; omega⟩

/-- A queue that is not oldest first keeps the time at its front. -/
theorem mergedAcquiredAt_of_lt (hnear : Near older.acquiredAt newer.acquiredAt)
    (horder : newer.acquiredAt < older.acquiredAt) :
    mergedAcquiredAt older newer = older.acquiredAt := by
  simp only [mergedAcquiredAt, int64_of_inInt64 hnear.gap]
  rw [if_pos (by omega)]

/-- A merged time lies between the two it replaces. -/
theorem mergedAcquiredAt_between (hnear : Near older.acquiredAt newer.acquiredAt)
    (horder : older.acquiredAt ≤ newer.acquiredAt) (htotal : 0 < lotAmount older + lotAmount newer) :
    older.acquiredAt ≤ mergedAcquiredAt older newer ∧
      mergedAcquiredAt older newer ≤ newer.acquiredAt := by
  have holder := lotAmount_nonneg older
  have hgap : 0 ≤ newer.acquiredAt - older.acquiredAt := by omega
  have hlow := roundUp_nonneg (mul_nonneg (lotAmount_nonneg newer) hgap) htotal
  have hhigh : roundUp (lotAmount newer * (newer.acquiredAt - older.acquiredAt))
      (lotAmount older + lotAmount newer) ≤ newer.acquiredAt - older.acquiredAt := by
    apply roundUp_le htotal
    rw [mul_comm]
    exact mul_le_mul_of_nonneg_left (by omega) hgap
  rw [mergedAcquiredAt_eq hnear horder htotal]
  constructor <;> omega

/-- A merge does not make coin older. -/
theorem le_mergeLots_weight (hnear : Near older.acquiredAt newer.acquiredAt) :
    lotAmount older * older.acquiredAt + lotAmount newer * newer.acquiredAt ≤
      lotAmount (mergeLots older newer) * (mergeLots older newer).acquiredAt := by
  have holder := lotAmount_nonneg older
  have hnewer := lotAmount_nonneg newer
  have htime : (mergeLots older newer).acquiredAt = mergedAcquiredAt older newer := rfl
  rw [lotAmount_mergeLots, htime]
  rcases lt_or_ge newer.acquiredAt older.acquiredAt with horder | horder
  · rw [mergedAcquiredAt_of_lt hnear horder, add_mul]
    exact add_le_add_right (mul_le_mul_of_nonneg_left horder.le hnewer) _
  · rcases eq_or_lt_of_le (add_nonneg holder hnewer) with hzero | htotal
    · -- nothing is merged into nothing
      have hold : lotAmount older = 0 := by omega
      have hnew : lotAmount newer = 0 := by omega
      simp [hold, hnew]
    · rw [mergedAcquiredAt_eq hnear horder htotal]
      have hround := le_roundUp_mul htotal
        (n := lotAmount newer * (newer.acquiredAt - older.acquiredAt))
      rw [mul_sub] at hround
      rw [mul_add, add_mul, mul_comm (lotAmount older + lotAmount newer)
        (roundUp _ _), mul_sub]
      omega

end Merge

/-! ## Bounding a queue -/

/-- Number of merges that bring a queue down to a bound. -/
def excess (bound length : Nat) : Nat := length % 2 ^ 32 - bound

theorem excess_lt {bound length : Nat} (hbound : 0 < bound) (hlength : 0 < length) :
    excess bound length < length := by
  have hmod : length % 2 ^ 32 ≤ length := Nat.mod_le _ _
  unfold excess
  omega

theorem excess_succ {bound length : Nat} (h : bound < (length + 1) % 2 ^ 32) :
    excess bound (length + 1) = excess bound length + 1 := by
  unfold excess
  omega

/-- The rounds merge the oldest lots into the first, one after the other. -/
theorem mergeOldest_cons {bound : Nat} (hbound : 0 < bound) (fuel : Nat) (l : CoinLot)
    (rest : List CoinLot) (hfuel : rest.length ≤ fuel) :
    mergeOldest bound (fuel + 1) (l :: rest) =
      (rest.take (excess bound (rest.length + 1))).foldl mergeLots l ::
        rest.drop (excess bound (rest.length + 1)) := by
  induction fuel generalizing l rest with
  | zero =>
    have hnil : rest = [] := List.eq_nil_of_length_eq_zero (by omega)
    have hnone := excess_lt hbound Nat.zero_lt_one
    subst hnil
    simp [mergeOldest]
  | succ fuel ih =>
    cases rest with
    | nil => simp [mergeOldest]
    | cons newer rest =>
      rw [List.length_cons] at hfuel ⊢
      rw [mergeOldest]
      split
      · rename_i hlong
        rw [ih (mergeLots l newer) rest (by omega), excess_succ hlong]
        simp
      · rename_i hshort
        have hnone : excess bound (rest.length + 1 + 1) = 0 := by
          unfold excess
          omega
        rw [hnone]
        simp

theorem boundInForce_pos (maxLots : Nat) : 0 < boundInForce maxLots := by
  unfold boundInForce defaultMaxCoinAgeLots
  split <;> omega

/-- A bounded queue: its oldest lots merged into the first. -/
theorem boundLots_cons (l : CoinLot) (rest : List CoinLot) (maxLots : Nat) :
    boundLots (l :: rest) maxLots =
      (rest.take (excess (boundInForce maxLots) (rest.length + 1))).foldl mergeLots l ::
        rest.drop (excess (boundInForce maxLots) (rest.length + 1)) :=
  mergeOldest_cons (boundInForce_pos maxLots) rest.length l rest le_rfl

theorem length_boundLots (lots : List CoinLot) (maxLots : Nat) :
    (boundLots lots maxLots).length =
      lots.length - excess (boundInForce maxLots) lots.length := by
  cases lots with
  | nil => simp [boundLots, mergeOldest]
  | cons l rest =>
    have hlt : excess (boundInForce maxLots) (rest.length + 1) < rest.length + 1 :=
      excess_lt (boundInForce_pos maxLots) (Nat.succ_pos _)
    rw [boundLots_cons, List.length_cons, List.length_drop, List.length_cons]
    omega

/-- Merging lots into one keeps what they add up to. -/
theorem lotAmount_foldl_merge (l : CoinLot) (lots : List CoinLot) :
    lotAmount (lots.foldl mergeLots l) = lotAmount l + totalLots lots := by
  induction lots generalizing l with
  | nil => simp
  | cons newer rest ih =>
    rw [List.foldl_cons, ih, lotAmount_mergeLots, totalLots_cons]
    omega

@[simp] theorem totalLots_boundLots (lots : List CoinLot) (maxLots : Nat) :
    totalLots (boundLots lots maxLots) = totalLots lots := by
  cases lots with
  | nil => rfl
  | cons l rest =>
    rw [boundLots_cons, totalLots_cons, lotAmount_foldl_merge, totalLots_cons, add_assoc,
      ← totalLots_append, List.take_append_drop]

/-- A range of 64-bit times in which differences have 64 bits, too. -/
structure Span (low high : Int) : Prop where
  first : InInt64 low
  last : InInt64 high
  width : high - low < 2 ^ 63

/-- All times of a queue lie in a range. -/
def Within (low high : Int) (lots : List CoinLot) : Prop :=
  ∀ l ∈ lots, low ≤ l.acquiredAt ∧ l.acquiredAt ≤ high

/-- Merged into one, lots of a span do not look older, and the merged lot is in the span. -/
theorem foldl_merge_weight {low high : Int} (hspan : Span low high) (l : CoinLot)
    (lots : List CoinLot) (htimes : Within low high (l :: lots)) :
    (low ≤ (lots.foldl mergeLots l).acquiredAt ∧ (lots.foldl mergeLots l).acquiredAt ≤ high) ∧
      lotAmount l * l.acquiredAt + ageWeight lots ≤
        lotAmount (lots.foldl mergeLots l) * (lots.foldl mergeLots l).acquiredAt := by
  induction lots generalizing l with
  | nil => simpa [Within] using htimes
  | cons newer rest ih =>
    have hl := htimes l List.mem_cons_self
    have hnewer := htimes newer (List.mem_cons_of_mem _ List.mem_cons_self)
    obtain ⟨⟨hlow, -⟩, ⟨-, hhigh⟩, hwidth⟩ := hspan
    have hnear : Near l.acquiredAt newer.acquiredAt := by
      refine ⟨⟨?_, ?_⟩, ⟨?_, ?_⟩, ⟨?_, ?_⟩⟩ <;> omega
    have hmerged : low ≤ (mergeLots l newer).acquiredAt ∧ (mergeLots l newer).acquiredAt ≤ high := by
      have htime : (mergeLots l newer).acquiredAt = mergedAcquiredAt l newer := rfl
      rw [htime]
      rcases lt_or_ge newer.acquiredAt l.acquiredAt with horder | horder
      · rw [mergedAcquiredAt_of_lt hnear horder]
        exact hl
      · rcases le_or_gt (lotAmount l + lotAmount newer) 0 with hempty | htotal
        · simp only [mergedAcquiredAt, if_pos hempty, ite_self]
          exact hl
        · have := mergedAcquiredAt_between hnear horder htotal
          omega
    obtain ⟨hbetween, hweight⟩ := ih (mergeLots l newer) fun l' hl' => by
      rcases List.mem_cons.1 hl' with rfl | hrest
      · exact hmerged
      · exact htimes l' (List.mem_cons_of_mem _ (List.mem_cons_of_mem _ hrest))
    rw [List.foldl_cons]
    refine ⟨hbetween, le_trans ?_ hweight⟩
    have hstep := le_mergeLots_weight hnear
    rw [ageWeight_cons]
    omega

/-! ## Inserting a lot -/

theorem insertLot_of_pos {lots : List CoinLot} {lot : CoinLot} {maxLots : Nat}
    (h : 0 < lotAmount lot) : insertLot lots lot maxLots = boundLots (placeLot lots lot) maxLots :=
  if_pos h

theorem insertLot_of_not_pos {lots : List CoinLot} {lot : CoinLot} {maxLots : Nat}
    (h : ¬ 0 < lotAmount lot) : insertLot lots lot maxLots = lots :=
  if_neg h

theorem placeLot_perm (lots : List CoinLot) (lot : CoinLot) : (placeLot lots lot).Perm (lot :: lots) := by
  refine List.perm_middle.trans ?_
  rw [List.takeWhile_append_dropWhile]

theorem mem_placeLot {lots : List CoinLot} {lot l : CoinLot} :
    l ∈ placeLot lots lot ↔ l = lot ∨ l ∈ lots := by
  rw [(placeLot_perm lots lot).mem_iff, List.mem_cons]

@[simp] theorem length_placeLot (lots : List CoinLot) (lot : CoinLot) :
    (placeLot lots lot).length = lots.length + 1 :=
  (placeLot_perm lots lot).length_eq

@[simp] theorem totalLots_placeLot (lots : List CoinLot) (lot : CoinLot) :
    totalLots (placeLot lots lot) = lotAmount lot + totalLots lots := by
  rw [← totalLots_cons]
  exact ((placeLot_perm lots lot).map lotAmount).sum_eq

@[simp] theorem ageWeight_placeLot (lots : List CoinLot) (lot : CoinLot) :
    ageWeight (placeLot lots lot) = lotAmount lot * lot.acquiredAt + ageWeight lots := by
  rw [← ageWeight_cons]
  exact ((placeLot_perm lots lot).map fun l => lotAmount l * l.acquiredAt).sum_eq

theorem placeLot_cons (l : CoinLot) (rest : List CoinLot) (lot : CoinLot) :
    placeLot (l :: rest) lot =
      if l.acquiredAt ≤ lot.acquiredAt then l :: placeLot rest lot else lot :: l :: rest := by
  by_cases h : l.acquiredAt ≤ lot.acquiredAt
  · simp [placeLot, h]
  · simp [placeLot, h]

theorem placeLot_sorted {lots : List CoinLot} (lot : CoinLot)
    (h : lots.Pairwise fun l l' => l.acquiredAt ≤ l'.acquiredAt) :
    (placeLot lots lot).Pairwise fun l l' => l.acquiredAt ≤ l'.acquiredAt := by
  induction lots with
  | nil => exact List.pairwise_singleton _ _
  | cons l rest ih =>
    obtain ⟨hfirst, hrest⟩ := List.pairwise_cons.1 h
    rw [placeLot_cons]
    split
    · rename_i hold
      refine List.pairwise_cons.2 ⟨fun l' hl' => ?_, ih hrest⟩
      rcases mem_placeLot.1 hl' with rfl | hmem
      · exact hold
      · exact hfirst l' hmem
    · rename_i hyoung
      refine List.pairwise_cons.2 ⟨fun l' hl' => ?_, h⟩
      rcases List.mem_cons.1 hl' with rfl | hmem
      · omega
      · have := hfirst l' hmem
        omega

@[simp] theorem totalLots_insertLot (lots : List CoinLot) (lot : CoinLot) (maxLots : Nat) :
    totalLots (insertLot lots lot maxLots) = totalLots lots + lotAmount lot := by
  by_cases h : 0 < lotAmount lot
  · rw [insertLot_of_pos h, totalLots_boundLots, totalLots_placeLot, add_comm]
  · have := lotAmount_nonneg lot
    rw [insertLot_of_not_pos h]
    omega

/-! ## Spending -/

section Spend

variable (now thresholdSeconds : Int)

/-- A spend consumes exactly its amount. -/
theorem totalLots_consumed (lots : List CoinLot) (left : Int) :
    totalLots (spendLots now thresholdSeconds lots left).1 = max 0 left := by
  induction lots generalizing left with
  | nil =>
    rw [spendLots]
    split
    · rename_i hpos
      rw [totalLots_cons, lotAmount_mk hpos.le, totalLots_nil]
      omega
    · rw [totalLots_nil]
      omega
  | cons l rest ih =>
    have hamount := lotAmount_nonneg l
    rw [spendLots]
    split
    · rename_i hpos
      split
      · simp only [totalLots_cons, ih, lotAmount_mk hamount]
        omega
      · rw [totalLots_cons, lotAmount_mk hpos.le, totalLots_nil]
        omega
    · rw [totalLots_nil]
      omega

/-- The queue loses what it tracked of the spend. -/
theorem totalLots_remaining (lots : List CoinLot) (left : Int) :
    totalLots (spendLots now thresholdSeconds lots left).2 =
      totalLots lots - max 0 (min left (totalLots lots)) := by
  induction lots generalizing left with
  | nil =>
    rw [spendLots]
    split <;> simp
  | cons l rest ih =>
    have hamount := lotAmount_nonneg l
    have hrest := totalLots_nonneg rest
    rw [spendLots]
    split
    · split
      · simp only [totalLots_cons, ih]
        omega
      · rw [totalLots_cons, totalLots_cons, lotAmount_mk (by omega)]
        omega
    · rw [totalLots_cons]
      omega

/-- A spend keeps every coin's time; what the queue does not track is dated at the boundary. -/
theorem ageWeight_spendLots (lots : List CoinLot) (left : Int) :
    ageWeight (spendLots now thresholdSeconds lots left).1 +
        ageWeight (spendLots now thresholdSeconds lots left).2 =
      ageWeight lots + max 0 (left - totalLots lots) * int64 (now - thresholdSeconds) := by
  induction lots generalizing left with
  | nil =>
    rw [spendLots]
    split
    · rename_i hpos
      simp only [ageWeight_cons, ageWeight_nil, totalLots_nil, sub_zero, max_eq_right hpos.le,
        lotAmount_mk hpos.le]
      ring
    · rename_i hnone
      simp [max_eq_left (not_lt.1 hnone)]
  | cons l rest ih =>
    have hamount := lotAmount_nonneg l
    have hrest := totalLots_nonneg rest
    rw [spendLots]
    split
    · split
      · have hsplit := ih (left - lotAmount l)
        rw [sub_sub] at hsplit
        simp only [ageWeight_cons, totalLots_cons, lotAmount_mk hamount]
        linarith
      · rename_i hpos hpart
        have hnone : max 0 (left - totalLots (l :: rest)) = 0 := by
          rw [totalLots_cons]
          omega
        rw [hnone]
        rw [ageWeight_cons, ageWeight_cons, ageWeight_cons, ageWeight_nil, lotAmount_mk hpos.le,
          lotAmount_mk (by omega)]
        ring
    · rename_i hnone
      have hzero : max 0 (left - totalLots (l :: rest)) = 0 := by
        rw [totalLots_cons]
        omega
      rw [hzero, ageWeight_nil]
      ring

end Spend

/-! ## Spending in two parts -/

/-- Put a lot in front, adding it to the first lot if that has the same time. -/
def joinLot (l : CoinLot) : List CoinLot → List CoinLot
  | [] => [l]
  | l' :: rest =>
    if l.acquiredAt = l'.acquiredAt then ⟨l.amount + l'.amount, l.acquiredAt⟩ :: rest
    else l :: l' :: rest

/-- Adjacent lots of one time added together. -/
def coalesce (lots : List CoinLot) : List CoinLot := lots.foldr joinLot []

@[simp] theorem coalesce_nil : coalesce [] = [] := rfl

@[simp] theorem coalesce_cons (l : CoinLot) (lots : List CoinLot) :
    coalesce (l :: lots) = joinLot l (coalesce lots) := rfl

/-- A lot that was split is joined again. -/
theorem joinLot_joinLot (a b acquiredAt : Int) (lots : List CoinLot) :
    joinLot ⟨a, acquiredAt⟩ (joinLot ⟨b, acquiredAt⟩ lots) = joinLot ⟨a + b, acquiredAt⟩ lots := by
  cases lots with
  | nil => simp [joinLot]
  | cons l rest =>
    by_cases h : acquiredAt = l.acquiredAt
    · simp [joinLot, h, add_assoc]
    · simp [joinLot, h]

section Additive

variable (now thresholdSeconds : Int)

theorem spendLots_of_not_pos (lots : List CoinLot) {left : Int} (h : ¬ 0 < left) :
    spendLots now thresholdSeconds lots left = ([], lots) := by
  cases lots with
  | nil | cons => rw [spendLots, if_neg h]

theorem spendLots_whole (l : CoinLot) (rest : List CoinLot) {left : Int} (h : 0 < left)
    (hwhole : lotAmount l ≤ left) :
    spendLots now thresholdSeconds (l :: rest) left =
      (⟨lotAmount l, l.acquiredAt⟩ :: (spendLots now thresholdSeconds rest (left - lotAmount l)).1,
        (spendLots now thresholdSeconds rest (left - lotAmount l)).2) := by
  rw [spendLots, if_pos h, if_pos hwhole]

theorem spendLots_part (l : CoinLot) (rest : List CoinLot) {left : Int} (h : 0 < left)
    (hpart : left < lotAmount l) :
    spendLots now thresholdSeconds (l :: rest) left =
      ([⟨left, l.acquiredAt⟩], ⟨lotAmount l - left, l.acquiredAt⟩ :: rest) := by
  rw [spendLots, if_pos h, if_neg (not_le.2 hpart)]

/-- A second spend from a lot that the first has split. -/
theorem spendLots_split (l : CoinLot) (rest : List CoinLot) {a b : Int} (ha : 0 < a)
    (hpart : a < lotAmount l) (hb : 0 < b) :
    (spendLots now thresholdSeconds (⟨lotAmount l - a, l.acquiredAt⟩ :: rest) b).2 =
        (spendLots now thresholdSeconds (l :: rest) (a + b)).2 ∧
      joinLot ⟨a, l.acquiredAt⟩ (coalesce
          (spendLots now thresholdSeconds (⟨lotAmount l - a, l.acquiredAt⟩ :: rest) b).1) =
        coalesce (spendLots now thresholdSeconds (l :: rest) (a + b)).1 := by
  have hamount : lotAmount ⟨lotAmount l - a, l.acquiredAt⟩ = lotAmount l - a :=
    lotAmount_mk (by omega) _
  rcases le_or_gt (lotAmount l) (a + b) with hwhole | hshort
  · -- the rest of the lot goes and both spends continue behind it
    have hleft : b - (lotAmount l - a) = a + b - lotAmount l := by omega
    rw [spendLots_whole _ _ _ _ hb (by omega), spendLots_whole _ _ _ _ (by omega) hwhole, hamount,
      hleft]
    simp only [coalesce_cons, joinLot_joinLot, add_sub_cancel, and_self]
  · rw [spendLots_part _ _ _ _ hb (by omega), spendLots_part _ _ _ _ (by omega) hshort, hamount]
    simp only [coalesce_cons, coalesce_nil, joinLot_joinLot, and_true, List.cons.injEq,
      CoinLot.mk.injEq]
    omega

/-- Spending in two parts leaves the queue that spending at once leaves, and consumes the same
lots up to where the first spend split one. -/
theorem spend_additive (lots : List CoinLot) {a b : Int} (ha : 0 ≤ a) (hb : 0 ≤ b) :
    (spendLots now thresholdSeconds (spendLots now thresholdSeconds lots a).2 b).2 =
        (spendLots now thresholdSeconds lots (a + b)).2 ∧
      coalesce ((spendLots now thresholdSeconds lots a).1 ++
          (spendLots now thresholdSeconds (spendLots now thresholdSeconds lots a).2 b).1) =
        coalesce (spendLots now thresholdSeconds lots (a + b)).1 := by
  rcases eq_or_lt_of_le ha with rfl | hapos
  · rw [spendLots_of_not_pos _ _ _ (lt_irrefl 0), zero_add]
    exact ⟨rfl, rfl⟩
  rcases eq_or_lt_of_le hb with rfl | hbpos
  · rw [spendLots_of_not_pos _ _ _ (lt_irrefl 0), add_zero, List.append_nil]
    exact ⟨rfl, rfl⟩
  induction lots generalizing a with
  | nil =>
    -- the queue has run out: both parts are untracked
    simp only [spendLots, if_pos hapos, if_pos hbpos, if_pos (add_pos hapos hbpos), true_and,
      List.cons_append, List.nil_append, coalesce_cons, coalesce_nil, joinLot_joinLot]
  | cons l rest ih =>
    rcases le_or_gt (lotAmount l) a with hwhole | hpart
    · have hnonneg : 0 ≤ a - lotAmount l := by omega
      have hamount := lotAmount_nonneg l
      have hleft : a + b - lotAmount l = a - lotAmount l + b := by omega
      rw [spendLots_whole _ _ _ _ hapos hwhole, spendLots_whole _ _ _ _ (by omega) (by omega),
        hleft]
      simp only [List.cons_append, coalesce_cons]
      rcases eq_or_lt_of_le hnonneg with hzero | hpos
      · rw [← hzero, spendLots_of_not_pos _ _ _ (lt_irrefl 0), zero_add]
        exact ⟨rfl, rfl⟩
      · obtain ⟨hqueue, hconsumed⟩ := ih hnonneg hpos
        rw [hqueue, hconsumed]
        exact ⟨rfl, rfl⟩
    · rw [spendLots_part _ _ _ _ hapos hpart]
      exact spendLots_split now thresholdSeconds l rest hapos hpart hbpos

/-- Three and four of a lot of five and one of ten, where a week is the threshold. -/
theorem spend_additive_small :
    (0 : Int) ≤ 3 ∧ (0 : Int) ≤ 4 ∧
      (spendLots 1000000 604800 (spendLots 1000000 604800 [⟨5, 10⟩, ⟨10, 20⟩] 3).2 4).2 =
        (spendLots 1000000 604800 [⟨5, 10⟩, ⟨10, 20⟩] (3 + 4)).2 ∧
      coalesce ((spendLots 1000000 604800 [⟨5, 10⟩, ⟨10, 20⟩] 3).1 ++
          (spendLots 1000000 604800 (spendLots 1000000 604800 [⟨5, 10⟩, ⟨10, 20⟩] 3).2 4).1) =
        coalesce (spendLots 1000000 604800 [⟨5, 10⟩, ⟨10, 20⟩] (3 + 4)).1 :=
  ⟨by decide, by decide, spend_additive 1000000 604800 [⟨5, 10⟩, ⟨10, 20⟩] (by decide) (by decide)⟩

end Additive

end PhiChain.Coin
