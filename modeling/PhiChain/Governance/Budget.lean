import PhiChain.Governance.Prune

/-!
# Governance: the budget of the pruner

The pruner is called with a budget and answers with the number of records it deleted. Per-voter
records are charged one by one. A proposal without per-voter records is charged its option counts
and one more, for which its turnout, its basis and its place in the queue all go, and it is charged
without a look at what is left of the budget. `fitsBudget` walks the queue for a proposal that
overdraws or that has a record nobody charges: without one the answer is exact and within the
budget, and with one it is not (`pruneStep_within_budget`).

The budget matters for one call only: what is queued is gone after finitely many calls, whatever
the budget (`pruning_confined_complete`).
-/

set_option autoImplicit false

namespace PhiChain.Governance

open Foundations Sdk

namespace Store

/-- Number of records the keyspaces hold beside the parameters. -/
def records (s : Store) : Nat :=
  s.tallyCounts.entries.length + s.tallyTurnout.entries.length + s.countedVotes.entries.length +
    s.eligibility.entries.length + s.pruneQueue.entries.length

/-- What the pruner charges for a queued proposal when nothing stops it. -/
def pruneCost (s : Store) (id : Nat) : Nat :=
  if s.countedVoteKeys id = [] then (s.tallyCountKeys id).length + 1
  else (s.countedVoteKeys id).length

/-- The proposals of a queue that are reached within the budget without a per-voter record have no
turnout and no basis, and their option counts fit; `spent` is the cost of those before. -/
def fitsBudget (s : Store) (budget : Nat) : Nat → List Nat → Bool
  | _, [] => true
  | spent, id :: rest =>
    (spent < budget ∧ s.countedVoteKeys id = [] →
      s.tallyTurnout.has id = false ∧ s.eligibility.has id = false ∧
        spent + s.pruneCost id ≤ budget) ∧
    s.fitsBudget budget (spent + s.pruneCost id) rest

end Store

/-! ## Records that are deleted -/

section Records

variable {s : Store} {id : Nat}

theorem records_eraseVotes (s : Store) (id n : Nat) :
    (s.eraseVotes ((s.countedVoteKeys id).take n)).records + ((s.countedVoteKeys id).take n).length =
      s.records := by
  have hnodup : ((s.countedVoteKeys id).take n).Nodup :=
    (List.take_sublist n _).nodup (s.countedVotes.nodup_keysWhere _)
  have hvotes := OrdMap.length_eraseAll hnodup fun k hk =>
    (mem_countedVoteKeys (List.mem_of_mem_take hk)).2
  simp only [Store.records, Store.eraseVotes]
  omega

/-- Beside what is charged for it, dropping a proposal deletes its turnout and its basis. -/
theorem records_dropAggregates (hqueued : s.isQueuedForPruning id = true) :
    (s.dropAggregates id).records + ((s.tallyCountKeys id).length + 1) +
      ((if s.tallyTurnout.has id then 1 else 0) + if s.eligibility.has id then 1 else 0) =
        s.records := by
  have hcounts := OrdMap.length_eraseAll (s.tallyCounts.nodup_keysWhere fun k => k.proposal = id)
    fun k hk => (OrdMap.mem_keysWhere.1 hk).2
  have hturnout := s.tallyTurnout.length_erase_add id
  have hbasis := s.eligibility.length_erase_add id
  have hqueue := s.pruneQueue.length_erase_add id
  have hqueued : s.pruneQueue.has id = true := hqueued
  rw [if_pos hqueued] at hqueue
  simp only [Store.records, Store.dropAggregates, Store.tallyCountKeys]
  omega

end Records

/-! ## The loop -/

section Loop

variable {s s' : Store} {id budget spent : Nat} {rest : List Nat}

theorem Untouched.countedVoteKeys_eq (h : Untouched s s' id) :
    s'.countedVoteKeys id = s.countedVoteKeys id := by
  apply OrdMap.keysWhere_congr
  rintro ⟨p, v⟩ hp
  obtain rfl : p = id := of_decide_eq_true hp
  exact h.votes v

theorem Untouched.tallyCountKeys_eq (h : Untouched s s' id) :
    s'.tallyCountKeys id = s.tallyCountKeys id := by
  apply OrdMap.keysWhere_congr
  rintro ⟨p, o⟩ hp
  obtain rfl : p = id := of_decide_eq_true hp
  exact h.counts o

theorem fitsBudget_cons :
    s.fitsBudget budget spent (id :: rest) = true ↔
      (spent < budget ∧ s.countedVoteKeys id = [] →
        s.tallyTurnout.has id = false ∧ s.eligibility.has id = false ∧
          spent + s.pruneCost id ≤ budget) ∧
      s.fitsBudget budget (spent + s.pruneCost id) rest = true :=
  decide_eq_true_iff

/-- The walk depends on the proposals it is about. -/
theorem fitsBudget_congr (h : ∀ id ∈ rest, Untouched s s' id) :
    s'.fitsBudget budget spent rest = s.fitsBudget budget spent rest := by
  induction rest generalizing spent with
  | nil => rfl
  | cons id rest ih =>
    have hsame := h id List.mem_cons_self
    have hturnout : s'.tallyTurnout.has id = s.tallyTurnout.has id :=
      congrArg Option.isSome hsame.turnout
    have hbasis : s'.eligibility.has id = s.eligibility.has id := congrArg Option.isSome hsame.basis
    rw [Bool.eq_iff_iff, fitsBudget_cons, fitsBudget_cons]
    simp only [Store.pruneCost, hsame.countedVoteKeys_eq, hsame.tallyCountKeys_eq, hturnout, hbasis,
      ih fun id' hid' => h id' (List.mem_cons_of_mem _ hid')]

/-- Nothing is reached once the budget is spent. -/
theorem fitsBudget_of_le (h : budget ≤ spent) : s.fitsBudget budget spent rest = true := by
  induction rest generalizing spent with
  | nil => rfl
  | cons id rest ih =>
    have hrest : s.fitsBudget budget (spent + s.pruneCost id) rest = true :=
      ih (Nat.le_add_right_of_le h)
    exact fitsBudget_cons.2 ⟨fun hreached => absurd hreached.1 (Nat.not_lt.2 h), hrest⟩

theorem pruneLoop_of_le (h : budget ≤ spent) :
    Store.pruneLoop budget rest (spent, s) = (spent, s) := by
  cases rest with
  | nil => rfl
  | cons id rest => exact if_pos h

theorem pruneLoop_votes (hspent : spent < budget) (hvotes : s.countedVoteKeys id ≠ []) :
    Store.pruneLoop budget (id :: rest) (spent, s) =
      Store.pruneLoop budget rest
        (spent + ((s.countedVoteKeys id).take (budget - spent)).length,
          s.eraseVotes ((s.countedVoteKeys id).take (budget - spent))) := by
  have hpos : 0 < ((s.countedVoteKeys id).take (budget - spent)).length := by
    have hlength := List.length_pos_iff.2 hvotes
    rw [List.length_take]
    omega
  simp only [Store.pruneLoop, if_neg (Nat.not_le.2 hspent), if_pos hpos]

theorem pruneLoop_aggregates (hspent : spent < budget) (hvotes : s.countedVoteKeys id = []) :
    Store.pruneLoop budget (id :: rest) (spent, s) =
      Store.pruneLoop budget rest (spent + s.pruneCost id, s.dropAggregates id) := by
  simp only [Store.pruneLoop, if_neg (Nat.not_le.2 hspent), Store.pruneCost, hvotes, List.take_nil,
    List.length_nil, Nat.lt_irrefl, if_false, if_true, Nat.add_assoc]

/-- The batch of a proposal leaves those behind it in the queue alone. -/
theorem eraseVotes_rest (hhead : id ∉ rest) (n : Nat) :
    ∀ j ∈ rest, Untouched s (s.eraseVotes ((s.countedVoteKeys id).take n)) j := by
  intro j hj
  apply eraseVotes_other
  · intro k hk
    exact (mem_countedVoteKeys (List.mem_of_mem_take hk)).1
  · rintro rfl
    exact hhead hj

theorem dropAggregates_rest (hhead : id ∉ rest) :
    ∀ j ∈ rest, Untouched s (s.dropAggregates id) j := by
  intro j hj
  apply dropAggregates_other
  rintro rfl
  exact hhead hj

/-- The loop charges no more than what it deletes. -/
theorem pruneLoop_charges {ids : List Nat} (hnodup : ids.Nodup)
    (hqueued : ∀ id ∈ ids, s.isQueuedForPruning id = true) :
    spent ≤ (Store.pruneLoop budget ids (spent, s)).1 ∧
      (Store.pruneLoop budget ids (spent, s)).1 + (Store.pruneLoop budget ids (spent, s)).2.records ≤
        spent + s.records := by
  induction ids generalizing spent s with
  | nil => exact ⟨Nat.le_refl _, Nat.le_refl _⟩
  | cons id rest ih =>
    obtain ⟨hhead, hrest⟩ := List.nodup_cons.1 hnodup
    have hothers := fun j hj => hqueued j (List.mem_cons_of_mem _ hj)
    rcases Nat.lt_or_ge spent budget with hspent | hspent
    · by_cases hvotes : s.countedVoteKeys id = []
      · rw [pruneLoop_aggregates hspent hvotes]
        have hdropped := records_dropAggregates (hqueued id List.mem_cons_self)
        have hcost : s.pruneCost id = (s.tallyCountKeys id).length + 1 := if_pos hvotes
        obtain ⟨hmore, hcharged⟩ := @ih (s.dropAggregates id) (spent + s.pruneCost id) hrest
          fun j hj => (dropAggregates_rest hhead j hj).queue.trans (hothers j hj)
        constructor
        · omega
        · omega
      · rw [pruneLoop_votes hspent hvotes]
        have herased := records_eraseVotes s id (budget - spent)
        obtain ⟨hmore, hcharged⟩ := ih hrest fun j hj =>
          (eraseVotes_rest (s := s) hhead (budget - spent) j hj).queue.trans (hothers j hj)
        constructor
        · exact le_trans (Nat.le_add_right _ _) hmore
        · refine le_trans hcharged ?_
          omega
    · rw [pruneLoop_of_le hspent]
      exact ⟨Nat.le_refl _, Nat.le_refl _⟩

/-- The loop answers with what it deletes, and stays within the budget. -/
def ChargesExactly (budget spent : Nat) (s : Store) (ids : List Nat) : Prop :=
  (Store.pruneLoop budget ids (spent, s)).1 + (Store.pruneLoop budget ids (spent, s)).2.records =
      spent + s.records ∧ (Store.pruneLoop budget ids (spent, s)).1 ≤ budget

/-- A round over a proposal without votes: its turnout and its basis are not charged. -/
theorem chargesExactly_aggregates (hspent : spent < budget) (hvotes : s.countedVoteKeys id = [])
    (hqueued : s.isQueuedForPruning id = true) (hnodup : rest.Nodup)
    (hqueue : ∀ j ∈ rest, (s.dropAggregates id).isQueuedForPruning j = true) :
    ChargesExactly budget spent s (id :: rest) ↔
      (s.tallyTurnout.has id = false ∧ s.eligibility.has id = false ∧
        spent + s.pruneCost id ≤ budget) ∧
      ChargesExactly budget (spent + s.pruneCost id) (s.dropAggregates id) rest := by
  have hdropped := records_dropAggregates hqueued
  have hcost : s.pruneCost id = (s.tallyCountKeys id).length + 1 := if_pos hvotes
  have hcharges : spent + s.pruneCost id ≤ (Store.pruneLoop budget rest
      (spent + s.pruneCost id, s.dropAggregates id)).1 ∧ _ := pruneLoop_charges hnodup hqueue
  rw [← hcost] at hdropped
  unfold ChargesExactly
  rw [pruneLoop_aggregates hspent hvotes]
  constructor
  · rintro ⟨hexact, hwithin⟩
    -- what is not charged for the proposal is missing from the sum
    have hfree : s.tallyTurnout.has id = false ∧ s.eligibility.has id = false := by
      constructor
      · refine Bool.eq_false_iff.2 fun hhas => ?_
        rw [if_pos hhas] at hdropped
        omega
      · refine Bool.eq_false_iff.2 fun hhas => ?_
        rw [if_pos hhas] at hdropped
        omega
    rw [hfree.1, hfree.2] at hdropped
    simp only [Bool.false_eq_true, if_false, Nat.add_zero] at hdropped
    refine ⟨⟨hfree.1, hfree.2, le_trans hcharges.1 hwithin⟩, ?_, hwithin⟩
    omega
  · rintro ⟨⟨hturnout, hbasis, -⟩, hexact, hwithin⟩
    rw [hturnout, hbasis] at hdropped
    simp only [Bool.false_eq_true, if_false, Nat.add_zero] at hdropped
    refine ⟨?_, hwithin⟩
    omega

/-- A round over a proposal with votes charges what it deletes. -/
theorem chargesExactly_votes (hspent : spent < budget) (hvotes : s.countedVoteKeys id ≠ []) :
    ChargesExactly budget spent s (id :: rest) ↔
      ChargesExactly budget (spent + ((s.countedVoteKeys id).take (budget - spent)).length)
        (s.eraseVotes ((s.countedVoteKeys id).take (budget - spent))) rest := by
  have herased := records_eraseVotes s id (budget - spent)
  unfold ChargesExactly
  rw [pruneLoop_votes hspent hvotes]
  refine and_congr_left fun _ => ?_
  constructor
  · intro hexact
    omega
  · intro hexact
    omega

/-- A batch that is cut short ends the walk and the loop alike. -/
theorem fitsBudget_batch (hspent : spent < budget) (hvotes : s.countedVoteKeys id ≠ []) :
    s.fitsBudget budget spent (id :: rest) =
      s.fitsBudget budget (spent + ((s.countedVoteKeys id).take (budget - spent)).length) rest := by
  have hcost : s.pruneCost id = (s.countedVoteKeys id).length := if_neg hvotes
  have hwalk : s.fitsBudget budget spent (id :: rest) =
      s.fitsBudget budget (spent + s.pruneCost id) rest := by
    rw [Bool.eq_iff_iff]
    exact fitsBudget_cons.trans (and_iff_right fun hnone => absurd hnone.2 hvotes)
  rw [hwalk, List.length_take]
  rcases Nat.le_total (s.countedVoteKeys id).length (budget - spent) with hall | hcut
  · rw [hcost, Nat.min_eq_right hall]
  · rw [fitsBudget_of_le (by omega), fitsBudget_of_le (by omega)]

/-- The loop charges exactly what it deletes when its queue fits. -/
theorem pruneLoop_fits {ids : List Nat} (hnodup : ids.Nodup)
    (hqueued : ∀ id ∈ ids, s.isQueuedForPruning id = true) (hspent : spent ≤ budget) :
    ChargesExactly budget spent s ids ↔ s.fitsBudget budget spent ids = true := by
  induction ids generalizing spent s with
  | nil => exact ⟨fun _ => rfl, fun _ => ⟨rfl, hspent⟩⟩
  | cons id rest ih =>
    obtain ⟨hhead, hrest⟩ := List.nodup_cons.1 hnodup
    have hothers := fun j hj => hqueued j (List.mem_cons_of_mem _ hj)
    rcases Nat.lt_or_ge spent budget with hreached | hfull
    · by_cases hvotes : s.countedVoteKeys id = []
      · have hqueue : ∀ j ∈ rest, (s.dropAggregates id).isQueuedForPruning j = true := fun j hj =>
          (dropAggregates_rest hhead j hj).queue.trans (hothers j hj)
        rw [chargesExactly_aggregates hreached hvotes (hqueued id List.mem_cons_self) hrest hqueue,
          fitsBudget_cons, forall_prop_of_true ⟨hreached, hvotes⟩]
        refine and_congr_right fun hfree => ?_
        rw [ih hrest hqueue hfree.2.2, fitsBudget_congr (dropAggregates_rest hhead)]
      · have hqueue := fun j hj =>
          (eraseVotes_rest (s := s) hhead (budget - spent) j hj).queue.trans (hothers j hj)
        have hwithin : spent + ((s.countedVoteKeys id).take (budget - spent)).length ≤ budget := by
          rw [List.length_take]
          omega
        rw [chargesExactly_votes hreached hvotes, ih hrest hqueue hwithin,
          fitsBudget_congr (eraseVotes_rest hhead (budget - spent)), fitsBudget_batch hreached hvotes]
    · unfold ChargesExactly
      rw [pruneLoop_of_le hfull]
      exact ⟨fun _ => fitsBudget_of_le hfull, fun _ => ⟨rfl, hspent⟩⟩

end Loop

/-- One call deletes at most the budget and answers with the number of records deleted exactly when
the queue fits the budget; a negative budget counts as none. -/
theorem pruneStep_within_budget (s : Store) (budget : Int) :
    (s.records ≤ (s.pruneStep budget).2.records + budget.toNat ∧
        (s.pruneStep budget).1 + (s.pruneStep budget).2.records = s.records) ↔
      s.fitsBudget budget.toNat 0 (s.pruneQueue.entries.map Prod.fst) = true := by
  have hloop : s.pruneStep budget =
      Store.pruneLoop budget.toNat (s.pruneQueue.entries.map Prod.fst) (0, s) := by
    simp only [Store.pruneStep]
    split
    · rename_i hnone
      rw [Int.toNat_of_nonpos hnone, pruneLoop_of_le (Nat.le_refl 0)]
    · rfl
  have hfits := pruneLoop_fits s.pruneQueue.nodup_keys (fun _ => queued_of_mem)
    (Nat.zero_le budget.toNat)
  rw [ChargesExactly, ← hloop, Nat.zero_add] at hfits
  rw [← hfits]
  constructor
  · rintro ⟨hwithin, hexact⟩
    exact ⟨hexact, by omega⟩
  · rintro ⟨hexact, hwithin⟩
    exact ⟨by omega, hexact⟩

/-- A finished proposal on which nobody voted: a basis, and its place in the queue. -/
def unvotedStore : Store :=
  { Store.fresh with
    eligibility := OrdMap.put ∅ 1 ⟨3, 0, 5⟩
    pruneQueue := OrdMap.put ∅ 1 () }

/-- A call with a budget of one deletes two records and counts one. -/
theorem pruneStep_overdraws :
    unvotedStore.records = 2 ∧ (unvotedStore.pruneStep 1).2.records = 0 ∧
      (unvotedStore.pruneStep 1).1 = 1 := by
  decide

/-! ## Repeated calls -/

/-- Calls of the pruner, one after another. -/
def Store.pruneCalls (budget : Int) : Nat → Store → Store
  | 0, s => s
  | n + 1, s => Store.pruneCalls budget n (s.pruneStep budget).2

/-- Votes and queue entries that are left. -/
def pruneMeasure (s : Store) : Nat := s.countedVotes.entries.length + s.pruneQueue.entries.length

section Measure

variable {s : Store} {id budget spent : Nat}

theorem pruneMeasure_eraseVotes (s : Store) (id n : Nat) :
    pruneMeasure (s.eraseVotes ((s.countedVoteKeys id).take n)) +
      ((s.countedVoteKeys id).take n).length = pruneMeasure s := by
  have hrecords := records_eraseVotes s id n
  simp only [Store.records, Store.eraseVotes] at hrecords
  simp only [pruneMeasure, Store.eraseVotes]
  omega

theorem pruneMeasure_dropAggregates (s : Store) (id : Nat) :
    pruneMeasure (s.dropAggregates id) + (if s.pruneQueue.has id then 1 else 0) =
      pruneMeasure s := by
  have hqueue := s.pruneQueue.length_erase_add id
  simp only [pruneMeasure, Store.dropAggregates]
  omega

theorem pruneLoop_measure_le (ids : List Nat) :
    pruneMeasure (Store.pruneLoop budget ids (spent, s)).2 ≤ pruneMeasure s := by
  induction ids generalizing spent s with
  | nil => exact Nat.le_refl _
  | cons id rest ih =>
    rcases Nat.lt_or_ge spent budget with hspent | hspent
    · by_cases hvotes : s.countedVoteKeys id = []
      · have hdropped := pruneMeasure_dropAggregates s id
        rw [pruneLoop_aggregates hspent hvotes]
        exact le_trans ih (by omega)
      · have herased := pruneMeasure_eraseVotes s id (budget - spent)
        rw [pruneLoop_votes hspent hvotes]
        exact le_trans ih (by omega)
    · rw [pruneLoop_of_le hspent]

/-- The first proposal of a queue loses a vote or its place. -/
theorem pruneLoop_measure_lt (rest : List Nat) (hspent : spent < budget)
    (hqueued : s.isQueuedForPruning id = true) :
    pruneMeasure (Store.pruneLoop budget (id :: rest) (spent, s)).2 < pruneMeasure s := by
  by_cases hvotes : s.countedVoteKeys id = []
  · have hdropped := pruneMeasure_dropAggregates s id
    have hplace : s.pruneQueue.has id = true := hqueued
    rw [if_pos hplace] at hdropped
    rw [pruneLoop_aggregates hspent hvotes]
    exact lt_of_le_of_lt (pruneLoop_measure_le rest) (by omega)
  · have herased := pruneMeasure_eraseVotes s id (budget - spent)
    have hlength := List.length_pos_iff.2 hvotes
    rw [List.length_take] at herased
    rw [pruneLoop_votes hspent hvotes]
    exact lt_of_le_of_lt (pruneLoop_measure_le rest) (by omega)

end Measure

variable {id : Nat} {s : Store}

theorem pruneStep_measure_lt {budget : Int} (hbudget : 0 < budget)
    (hqueued : s.isQueuedForPruning id = true) :
    pruneMeasure (s.pruneStep budget).2 < pruneMeasure s := by
  have hmem := OrdMap.mem_keys.2 hqueued
  simp only [Store.pruneStep, if_neg (not_le.2 hbudget)]
  cases hqueue : s.pruneQueue.entries.map Prod.fst with
  | nil =>
    rw [hqueue] at hmem
    cases hmem
  | cons first rest =>
    have hfirst : s.isQueuedForPruning first = true :=
      queued_of_mem (hqueue ▸ List.mem_cons_self)
    exact pruneLoop_measure_lt rest (by omega) hfirst

/-- A proposal that is not queued is not touched. -/
theorem pruneStep_untouched (budget : Int)
    (h : s.isQueuedForPruning id = false) : Untouched s (s.pruneStep budget).2 id := by
  simp only [Store.pruneStep]
  split
  · exact Untouched.refl s id
  · refine (pruneLoop_pruned _ s.pruneQueue.nodup_keys 0 s (fun _ => queued_of_mem) id).2 fun hmem => ?_
    rw [queued_of_mem hmem] at h
    cases h

/-- A proposal that is queued stays so until nothing is left of it. -/
theorem pruneStep_queued (budget : Int) (h : s.isQueuedForPruning id = true ∨ Cleared s id) :
    (s.pruneStep budget).2.isQueuedForPruning id = true ∨ Cleared (s.pruneStep budget).2 id := by
  rcases h with hqueued | hcleared
  · cases pruneStep_pruned s budget id with
    | untouched hsame => exact Or.inl (hsame.queue.trans hqueued)
    | begun hbegun => exact Or.inl hbegun.still
    | cleared _ hcleared => exact Or.inr hcleared
  · exact Or.inr (hcleared.of_untouched (pruneStep_untouched budget hcleared.queue))

theorem pruneCalls_unqueued (budget : Int) (n : Nat) (h : ∀ id, s.isQueuedForPruning id = false)
    (id : Nat) :
    (s.pruneCalls budget n).isQueuedForPruning id = false := by
  induction n generalizing s with
  | zero => exact h id
  | succ n ih =>
    apply ih
    intro j
    exact (pruneStep_untouched budget (h j)).queue.trans (h j)

/-- After as many calls as there are votes and queue entries, the queue is empty. -/
theorem pruneCalls_drained {budget : Int} (hbudget : 0 < budget) {n : Nat} (h : pruneMeasure s ≤ n)
    (id : Nat) :
    (s.pruneCalls budget n).isQueuedForPruning id = false := by
  induction n generalizing s with
  | zero =>
    refine Bool.eq_false_iff.2 fun hqueued => ?_
    have hlt : pruneMeasure (s.pruneStep budget).2 < pruneMeasure s :=
      pruneStep_measure_lt hbudget hqueued
    omega
  | succ n ih =>
    by_cases hqueue : ∃ j, s.isQueuedForPruning j = true
    · obtain ⟨j, hqueued⟩ := hqueue
      have hlt := pruneStep_measure_lt hbudget hqueued
      exact ih (by omega)
    · refine pruneCalls_unqueued budget (n + 1) (fun j => ?_) id
      exact Bool.eq_false_iff.2 fun hqueued => hqueue ⟨j, hqueued⟩

theorem pruneCalls_queued (budget : Int) (n : Nat)
    (h : s.isQueuedForPruning id = true ∨ Cleared s id) :
    (s.pruneCalls budget n).isQueuedForPruning id = true ∨ Cleared (s.pruneCalls budget n) id := by
  induction n generalizing s with
  | zero => exact h
  | succ n ih => exact ih (pruneStep_queued budget h)

/-- The pruner leaves the proposals alone that are not queued, and after finitely many calls
nothing is left of those that are. -/
theorem pruning_confined_complete (s : Store) {budget : Int} (hbudget : 0 < budget) :
    (∀ id, s.isQueuedForPruning id = false → Untouched s (s.pruneStep budget).2 id) ∧
      ∃ n, ∀ m, n ≤ m → ∀ id, s.isQueuedForPruning id = true →
        Cleared (s.pruneCalls budget m) id := by
  refine ⟨fun id => pruneStep_untouched budget, pruneMeasure s, fun m hm id hqueued => ?_⟩
  rcases pruneCalls_queued budget m (Or.inl hqueued) with hstill | hcleared
  · rw [pruneCalls_drained hbudget hm id] at hstill
    cases hstill
  · exact hcleared

/-- A budget of one, on a finished proposal that nobody voted on. -/
theorem pruning_confined_complete_unvoted :
    (∀ id, unvotedStore.isQueuedForPruning id = false →
        Untouched unvotedStore (unvotedStore.pruneStep 1).2 id) ∧
      ∃ n, ∀ m, n ≤ m → ∀ id, unvotedStore.isQueuedForPruning id = true →
        Cleared (unvotedStore.pruneCalls 1 m) id :=
  pruning_confined_complete unvotedStore (by decide)

end PhiChain.Governance
