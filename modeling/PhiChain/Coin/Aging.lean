import PhiChain.Coin.Queue

/-!
# The age of a queue over a run

A queue that starts empty and is fed with lots of non-negative times stays oldest first, with
positive lots (`OldestFirst`). `Tracked` runs insertions and spends next to the amounts that
went in and out; `queue_invariants` says what every run keeps. The length of a queue is compared
as a 32-bit number, which no bound below the largest one notices.
-/

set_option autoImplicit false

namespace PhiChain.Coin

open Foundations Sdk

/-! ## Queues that are oldest first -/

structure OldestFirst (lots : List CoinLot) : Prop where
  sorted : lots.Pairwise fun l l' => l.acquiredAt ≤ l'.acquiredAt
  positive : ∀ l ∈ lots, 0 < l.amount
  timed : ∀ l ∈ lots, 0 ≤ l.acquiredAt ∧ l.acquiredAt < 2 ^ 63

/-- What a merge may do to the times: it lies between them, and it moves the older one by the
share of the gap that the newer one has of the amount, rounded up. -/
structure FairMerge (older newer : CoinLot) : Prop where
  between : older.acquiredAt ≤ mergedAcquiredAt older newer ∧
    mergedAcquiredAt older newer ≤ newer.acquiredAt
  moved : mergedAcquiredAt older newer - older.acquiredAt ≤
    ⌈((newer.amount * (newer.acquiredAt - older.acquiredAt) : Int) : ℚ) /
      ((older.amount + newer.amount : Int) : ℚ)⌉

section OldestFirst

variable {lots rest : List CoinLot} {lot older newer : CoinLot}

theorem oldestFirst_nil : OldestFirst [] := by
  refine ⟨List.Pairwise.nil, ?_, ?_⟩ <;> simp

theorem OldestFirst.tail (h : OldestFirst (lot :: rest)) : OldestFirst rest where
  sorted := (List.pairwise_cons.1 h.sorted).2
  positive l hl := h.positive l (List.mem_cons_of_mem _ hl)
  timed l hl := h.timed l (List.mem_cons_of_mem _ hl)

/-- A front lot of positive amount whose time is not behind the others. -/
theorem OldestFirst.cons (h : OldestFirst rest) (hpos : 0 < lot.amount)
    (htime : 0 ≤ lot.acquiredAt ∧ lot.acquiredAt < 2 ^ 63)
    (hfirst : ∀ l ∈ rest, lot.acquiredAt ≤ l.acquiredAt) : OldestFirst (lot :: rest) where
  sorted := List.pairwise_cons.2 ⟨hfirst, h.sorted⟩
  positive := List.forall_mem_cons.2 ⟨hpos, h.positive⟩
  timed := List.forall_mem_cons.2 ⟨htime, h.timed⟩

theorem OldestFirst.place (h : OldestFirst lots) (hpos : 0 < lot.amount)
    (htime : 0 ≤ lot.acquiredAt ∧ lot.acquiredAt < 2 ^ 63) : OldestFirst (placeLot lots lot) := by
  refine ⟨placeLot_sorted lot h.sorted, fun l hl => ?_, fun l hl => ?_⟩
  · rcases mem_placeLot.1 hl with rfl | hmem
    · exact hpos
    · exact h.positive l hmem
  · rcases mem_placeLot.1 hl with rfl | hmem
    · exact htime
    · exact h.timed l hmem

/-- The two oldest lots are near each other and worth something. -/
theorem OldestFirst.near (h : OldestFirst (older :: newer :: rest)) :
    Near older.acquiredAt newer.acquiredAt ∧ older.acquiredAt ≤ newer.acquiredAt ∧
      0 < lotAmount older + lotAmount newer := by
  have holder := h.positive older List.mem_cons_self
  have hnewer := h.positive newer (List.mem_cons_of_mem _ List.mem_cons_self)
  refine ⟨Near.of_nonneg (h.timed older List.mem_cons_self)
    (h.timed newer (List.mem_cons_of_mem _ List.mem_cons_self)), ?_, ?_⟩
  · exact (List.pairwise_cons.1 h.sorted).1 newer List.mem_cons_self
  · rw [lotAmount_of_nonneg holder.le, lotAmount_of_nonneg hnewer.le]
    omega

theorem OldestFirst.fairMerge (h : OldestFirst (older :: newer :: rest)) :
    FairMerge older newer := by
  obtain ⟨hnear, horder, htotal⟩ := h.near
  refine ⟨mergedAcquiredAt_between hnear horder htotal, ?_⟩
  have holder := lotAmount_of_nonneg (h.positive older List.mem_cons_self).le
  have hnewer := lotAmount_of_nonneg
    (h.positive newer (List.mem_cons_of_mem _ List.mem_cons_self)).le
  rw [mergedAcquiredAt_eq hnear horder htotal, roundUp_eq_ceil htotal, add_sub_cancel_left, holder,
    hnewer]

/-- One round keeps the queue oldest first. -/
theorem OldestFirst.round (h : OldestFirst (older :: newer :: rest)) :
    OldestFirst (mergeLots older newer :: rest) := by
  obtain ⟨hnear, horder, htotal⟩ := h.near
  obtain ⟨hlow, hhigh⟩ := mergedAcquiredAt_between hnear horder htotal
  have holder := h.timed older List.mem_cons_self
  have hnewer := h.timed newer (List.mem_cons_of_mem _ List.mem_cons_self)
  refine h.tail.tail.cons htotal ?_ fun l hl => ?_
  · exact ⟨le_trans holder.1 hlow, lt_of_le_of_lt hhigh hnewer.2⟩
  · exact le_trans hhigh ((List.pairwise_cons.1 h.tail.sorted).1 l hl)

/-- The rounds of a bounding, from any queue that is oldest first. -/
theorem OldestFirst.rounds (bound fuel : Nat) (h : OldestFirst lots) :
    OldestFirst (mergeOldest bound fuel lots) ∧
      ageWeight lots ≤ ageWeight (mergeOldest bound fuel lots) ∧
      ∀ r ∈ mergeRounds bound fuel lots, FairMerge r.1 r.2 := by
  induction fuel generalizing lots with
  | zero => exact ⟨h, le_rfl, by simp [mergeRounds]⟩
  | succ fuel ih =>
    match lots with
    | [] => exact ⟨h, le_rfl, by simp [mergeRounds]⟩
    | [l] => exact ⟨h, le_rfl, by simp [mergeRounds]⟩
    | older :: newer :: rest =>
      rw [mergeOldest, mergeRounds]
      split
      · obtain ⟨hkept, hweight, hfair⟩ := ih h.round
        refine ⟨hkept, le_trans ?_ hweight, List.forall_mem_cons.2 ⟨h.fairMerge, hfair⟩⟩
        have hmerge := le_mergeLots_weight h.near.1
        rw [ageWeight_cons, ageWeight_cons, ageWeight_cons]
        omega
      · exact ⟨h, le_rfl, by simp⟩

theorem OldestFirst.insert (h : OldestFirst lots) (maxLots : Nat)
    (htime : 0 ≤ lot.acquiredAt ∧ lot.acquiredAt < 2 ^ 63) :
    OldestFirst (insertLot lots lot maxLots) := by
  by_cases hpos : 0 < lotAmount lot
  · have hamount : 0 < lot.amount := by
      unfold lotAmount at hpos
      split at hpos <;> omega
    rw [insertLot_of_pos hpos]
    exact ((h.place hamount htime).rounds _ _).1
  · rw [insertLot_of_not_pos hpos]
    exact h

theorem OldestFirst.spend (h : OldestFirst lots) (now thresholdSeconds left : Int) :
    OldestFirst (spendLots now thresholdSeconds lots left).2 := by
  induction lots generalizing left with
  | nil =>
    rw [spendLots]
    split <;> exact oldestFirst_nil
  | cons l rest ih =>
    rw [spendLots]
    split
    · split
      · exact ih h.tail _
      · rename_i hpart
        -- the half that stays is positive and as old as the lot was
        exact h.tail.cons (by dsimp only; omega) (h.timed l List.mem_cons_self)
          (List.pairwise_cons.1 h.sorted).1
    · exact h

end OldestFirst

/-! ## Runs -/

inductive QueueOp where
  | insert (lot : CoinLot)
  | spend (amount now thresholdSeconds : Int)

/-- Inserted lots have non-negative times of 64 bits. -/
def QueueOp.timed : QueueOp → Prop
  | .insert lot => 0 ≤ lot.acquiredAt ∧ lot.acquiredAt < 2 ^ 63
  | .spend .. => True

/-- A queue, what was inserted into it, and what spends took from it. -/
structure Tracked where
  lots : List CoinLot
  inserted : Int
  spent : Int

def Tracked.start : Tracked := ⟨[], 0, 0⟩

/-- A spend is tracked as far as the queue goes. -/
def Tracked.step (bound : Nat) (q : Tracked) : QueueOp → Tracked
  | .insert lot => ⟨insertLot q.lots lot bound, q.inserted + lotAmount lot, q.spent⟩
  | .spend amount now thresholdSeconds =>
    ⟨(spendLots now thresholdSeconds q.lots amount).2, q.inserted,
      q.spent + max 0 (min amount (totalLots q.lots))⟩

structure Bounded (bound : Nat) (q : Tracked) : Prop where
  oldestFirst : OldestFirst q.lots
  length : q.lots.length ≤ bound
  total : totalLots q.lots = q.inserted - q.spent

theorem length_spendLots (now thresholdSeconds : Int) (lots : List CoinLot) (left : Int) :
    (spendLots now thresholdSeconds lots left).2.length ≤ lots.length := by
  induction lots generalizing left with
  | nil =>
    rw [spendLots]
    split <;> simp
  | cons l rest ih =>
    rw [spendLots]
    split
    · split
      · exact le_trans (ih _) (Nat.le_succ _)
      · simp
    · exact le_rfl

/-- An insertion into a queue within its bound. -/
theorem length_insertLot {bound : Nat} (hbound : 2 ≤ bound) (hmax : bound < 2 ^ 32 - 1)
    {lots : List CoinLot} (hlength : lots.length ≤ bound) (lot : CoinLot) :
    (insertLot lots lot bound).length ≤ bound := by
  by_cases hpos : 0 < lotAmount lot
  · have hforce : boundInForce bound = bound := if_neg (by omega)
    rw [insertLot_of_pos hpos, length_boundLots, hforce, length_placeLot]
    unfold excess
    omega
  · rw [insertLot_of_not_pos hpos]
    exact hlength

theorem Bounded.step {bound : Nat} (hbound : 2 ≤ bound) (hmax : bound < 2 ^ 32 - 1) {q : Tracked}
    (h : Bounded bound q) {op : QueueOp} (hop : op.timed) : Bounded bound (q.step bound op) := by
  have htotal := h.total
  cases op with
  | insert lot =>
    refine ⟨h.oldestFirst.insert bound hop, length_insertLot hbound hmax h.length lot, ?_⟩
    simp only [Tracked.step, totalLots_insertLot]
    omega
  | spend amount now thresholdSeconds =>
    refine ⟨h.oldestFirst.spend _ _ _, le_trans (length_spendLots _ _ _ _) h.length, ?_⟩
    simp only [Tracked.step, totalLots_remaining]
    omega

/-- Over every run from an empty queue, for a bound from two to below the largest 32-bit number:
the queue is oldest first with positive lots, within its bound, and holds what was inserted less
what was spent of it; and the next insertion merges fairly and does not make the coin older. -/
theorem queue_invariants {bound : Nat} (hbound : 2 ≤ bound) (hmax : bound < 2 ^ 32 - 1)
    (ops : List QueueOp) (hops : ∀ op ∈ ops, op.timed) :
    Bounded bound (run (Tracked.step bound) Tracked.start ops) ∧
      ∀ lot : CoinLot, 0 ≤ lot.acquiredAt ∧ lot.acquiredAt < 2 ^ 63 → 0 < lot.amount →
        ageWeight (placeLot (run (Tracked.step bound) Tracked.start ops).lots lot) ≤
            ageWeight (insertLot (run (Tracked.step bound) Tracked.start ops).lots lot bound) ∧
          ∀ r ∈ boundRounds (placeLot (run (Tracked.step bound) Tracked.start ops).lots lot) bound,
            FairMerge r.1 r.2 := by
  have hstart : Bounded bound Tracked.start :=
    ⟨oldestFirst_nil, Nat.zero_le _, by simp [Tracked.start]⟩
  have hrun : Bounded bound (run (Tracked.step bound) Tracked.start ops) :=
    run_preserves (fun q op hop hq => hq.step hbound hmax hop) hstart (along_of_forall hops)
  refine ⟨hrun, fun lot htime hpos => ?_⟩
  have hplaced := hrun.oldestFirst.place hpos htime
  obtain ⟨-, hweight, hfair⟩ := hplaced.rounds (boundInForce bound)
    (placeLot (run (Tracked.step bound) Tracked.start ops).lots lot).length
  have hamount : 0 < lotAmount lot := by
    rw [lotAmount_of_nonneg hpos.le]
    exact hpos
  rw [insertLot_of_pos hamount]
  exact ⟨hweight, hfair⟩

/-- Three lots into a queue of two, and a spend that takes more than the older lot. -/
def threeLots : List QueueOp :=
  [.insert ⟨30, 100⟩, .insert ⟨10, 200⟩, .insert ⟨5, 150⟩, .spend 36 1000 604800]

/-- The two oldest are merged at 108, the rounded-up mean. -/
theorem queue_invariants_three :
    (run (Tracked.step 2) Tracked.start threeLots).lots = [⟨9, 200⟩] ∧
      Bounded 2 (run (Tracked.step 2) Tracked.start threeLots) :=
  ⟨by decide, (@queue_invariants 2 (by decide) (by decide) threeLots (by
    simp [threeLots, QueueOp.timed])).1⟩

/-! ## The largest bound -/

theorem boundLots_of_excess {lots : List CoinLot} {maxLots : Nat}
    (h : excess (boundInForce maxLots) lots.length = 0) : boundLots lots maxLots = lots := by
  cases lots with
  | nil => simp [boundLots, mergeOldest]
  | cons l rest =>
    rw [List.length_cons] at h
    rw [boundLots_cons, h]
    simp

/-- No 32-bit number is above the largest one, so a queue under that bound is never merged. -/
theorem run_inserts_largest (n : Nat) :
    (run (Tracked.step (2 ^ 32 - 1)) Tracked.start
      (List.replicate n (.insert ⟨1, 0⟩))).lots = List.replicate n ⟨1, 0⟩ := by
  induction n with
  | zero => rfl
  | succ n ih =>
    have hperm := placeLot_perm (List.replicate n ⟨1, 0⟩) ⟨1, 0⟩
    have hplaced : placeLot (List.replicate n ⟨1, 0⟩) ⟨1, 0⟩ = List.replicate (n + 1) ⟨1, 0⟩ :=
      List.perm_replicate.1 hperm
    have hexcess : excess (boundInForce (2 ^ 32 - 1)) (List.replicate (n + 1) (⟨1, 0⟩ : CoinLot)).length =
        0 := by
      have hforce : boundInForce (2 ^ 32 - 1) = 2 ^ 32 - 1 := if_neg (by omega)
      rw [hforce, List.length_replicate]
      unfold excess
      omega
    have hinsert : insertLot (List.replicate n ⟨1, 0⟩) ⟨1, 0⟩ (2 ^ 32 - 1) =
        List.replicate (n + 1) ⟨1, 0⟩ := by
      rw [insertLot_of_pos (by decide), hplaced, boundLots_of_excess hexcess]
    rw [List.replicate_succ', run_append]
    simp only [run, Tracked.step]
    rw [ih, hinsert]

/-- Under the largest bound a queue of as many lots as there are 32-bit numbers is kept. -/
theorem queue_bound_unenforced :
    (∀ op ∈ List.replicate (2 ^ 32) (QueueOp.insert ⟨1, 0⟩), op.timed) ∧
      ¬ Bounded (2 ^ 32 - 1) (run (Tracked.step (2 ^ 32 - 1)) Tracked.start
        (List.replicate (2 ^ 32) (.insert ⟨1, 0⟩))) := by
  constructor
  · intro op hop
    rw [List.eq_of_mem_replicate hop]
    exact ⟨le_rfl, by decide⟩
  · intro h
    have hlength := h.length
    rw [run_inserts_largest, List.length_replicate] at hlength
    omega

end PhiChain.Coin
