import PhiChain.Governance.Store

/-!
# The running tally is a recount

`Consistent s id` says that a proposal's aggregates are what counting its per-voter
records gives: the count of each option is the number of voters last counted under it,
and both the counts and the records add up to the turnout. Recording a vote keeps this.

Every other operation is described by what it leaves alone: `SameRecords s s' id` says
that no record of a proposal changed, and `pruneStep_pruned` that the pruner, for each
proposal, changes nothing, or has begun to delete its votes and keeps it queued, or has
removed everything.
-/

set_option autoImplicit false

namespace PhiChain.Governance

open Foundations Sdk

namespace Store

/-- Number of voters last counted under an option. -/
def recount (s : Store) (proposalID : Nat) (option : Byte) : Nat :=
  s.countedVotes.total fun k marker =>
    if k.proposal = proposalID ∧ marker = option then 1 else 0

/-- Sum of a proposal's option counts. -/
def countSum (s : Store) (proposalID : Nat) : Nat :=
  s.tallyCounts.total fun k n => if k.proposal = proposalID then n else 0

theorem sumCounts_getRunningTally (s : Store) (id : Nat) :
    sumCounts (s.getRunningTally id) = s.countSum id := by
  have houtside : ∀ (k : TallyCountKey) (n : Nat), ¬ k.proposal = id →
      (if k.proposal = id then n else 0) = 0 := fun _ _ h => if_neg h
  unfold countSum
  rw [OrdMap.total_eq_filter houtside]
  unfold sumCounts getRunningTally
  rw [List.map_map]
  refine congrArg List.sum (List.map_congr_left fun e he => ?_)
  have hid : e.1.proposal = id := of_decide_eq_true (List.mem_filter.1 he).2
  exact (if_pos hid).symm

end Store

/-- The aggregates of a proposal agree with its per-voter records. -/
structure Consistent (s : Store) (id : Nat) : Prop where
  sum : s.countSum id = s.turnout id
  counted : s.countedBallots id = s.turnout id
  options : ∀ o, o ≠ ineligibleVoteMarker → s.optionCount id o = s.recount id o

/-- No record of a proposal differs between two stores. -/
structure SameRecords (s s' : Store) (id : Nat) : Prop where
  counts : ∀ o, s'.tallyCounts.get? ⟨id, o⟩ = s.tallyCounts.get? ⟨id, o⟩
  turnout : s'.tallyTurnout.get? id = s.tallyTurnout.get? id
  votes : ∀ v, s'.countedVotes.get? ⟨id, v⟩ = s.countedVotes.get? ⟨id, v⟩
  basis : s'.eligibility.get? id = s.eligibility.get? id

namespace SameRecords

variable {s s' s'' : Store} {id : Nat}

theorem refl (s : Store) (id : Nat) : SameRecords s s id :=
  ⟨fun _ => rfl, rfl, fun _ => rfl, rfl⟩

theorem trans (h : SameRecords s s' id) (h' : SameRecords s' s'' id) : SameRecords s s'' id where
  counts o := (h'.counts o).trans (h.counts o)
  turnout := h'.turnout.trans h.turnout
  votes v := (h'.votes v).trans (h.votes v)
  basis := h'.basis.trans h.basis

theorem turnout_eq (h : SameRecords s s' id) : s'.turnout id = s.turnout id := by
  unfold Store.turnout OrdMap.getD
  rw [h.turnout]

/-- A total over the votes of one proposal does not see the others. -/
theorem total_votes (h : ∀ v, s'.countedVotes.get? ⟨id, v⟩ = s.countedVotes.get? ⟨id, v⟩)
    {f : CountedVoteKey → Byte → Nat} (hf : ∀ k x, ¬ k.proposal = id → f k x = 0) :
    s'.countedVotes.total f = s.countedVotes.total f := by
  refine OrdMap.total_congr hf fun k hk => ?_
  obtain ⟨p, v⟩ := k
  cases hk
  exact h v

theorem countedBallots (h : ∀ v, s'.countedVotes.get? ⟨id, v⟩ = s.countedVotes.get? ⟨id, v⟩) :
    s'.countedBallots id = s.countedBallots id :=
  total_votes h fun _ _ hk => if_neg fun hand => hk hand.1

theorem recount (h : ∀ v, s'.countedVotes.get? ⟨id, v⟩ = s.countedVotes.get? ⟨id, v⟩) (o : Byte) :
    s'.recount id o = s.recount id o :=
  total_votes h fun _ _ hk => if_neg fun hand => hk hand.1

theorem countSum (h : ∀ o, s'.tallyCounts.get? ⟨id, o⟩ = s.tallyCounts.get? ⟨id, o⟩) :
    s'.countSum id = s.countSum id := by
  refine OrdMap.total_congr (p := fun k : TallyCountKey => k.proposal = id) (fun _ _ hk => if_neg hk) ?_
  rintro ⟨p, o⟩ hk
  cases hk
  exact h o

theorem consistent (h : SameRecords s s' id) (hc : Consistent s id) : Consistent s' id where
  sum := by rw [countSum h.counts, h.turnout_eq, hc.sum]
  counted := by rw [countedBallots h.votes, h.turnout_eq, hc.counted]
  options o ho := by
    rw [recount h.votes, ← hc.options o ho]
    unfold Store.optionCount OrdMap.getD
    rw [h.counts]

end SameRecords

/-! ## Recording a vote -/

theorem applyDelta_one (n : Nat) : applyDelta n 1 = n + 1 := rfl

theorem applyDelta_neg_one (n : Nat) : applyDelta n (-1) = n - 1 := by
  unfold applyDelta
  have hneg : (-1 : Int) < 0 := by decide
  rw [if_pos hneg]
  split
  · rename_i h
    have hzero : n < 1 := h
    omega
  · rfl

variable {o : Byte} {v : Bytes} {id : Nat} {s : Store}

namespace Store

variable (s : Store) (id : Nat)

theorem addOptionCount_optionCount (o o' : Byte) (d : Int) :
    (s.addOptionCount id o d).optionCount id o' =
      if o = o' then applyDelta (s.optionCount id o) d else s.optionCount id o' := by
  unfold optionCount addOptionCount OrdMap.getD
  rw [OrdMap.get?_put]
  by_cases h : o = o'
  · subst h
    simp [optionCount, OrdMap.getD]
  · have hne : ¬ (⟨id, o⟩ : TallyCountKey) = ⟨id, o'⟩ := fun heq => h (TallyCountKey.mk.inj heq).2
    rw [if_neg hne, if_neg h]

/-- One changed count changes the sum of the counts by as much. -/
theorem addOptionCount_countSum (o : Byte) (d : Int) :
    (s.addOptionCount id o d).countSum id + s.optionCount id o =
      applyDelta (s.optionCount id o) d + s.countSum id := by
  have h := OrdMap.total_put_add (fun (k : TallyCountKey) n => if k.proposal = id then n else 0)
    s.tallyCounts ⟨id, o⟩ (applyDelta (s.optionCount id o) d)
  have hold : (s.tallyCounts.get? ⟨id, o⟩).elim 0 (fun n => n) = s.optionCount id o := by
    unfold optionCount OrdMap.getD
    cases s.tallyCounts.get? ⟨id, o⟩ with
    | none => rfl
    | some n => rfl
  simp only [if_true] at h
  rw [hold] at h
  exact h

/-- One changed vote moves from the previous marker to the new one, whichever markers count. -/
theorem setCountedVote_total (p : Byte → Prop) [DecidablePred p] (v : Bytes) (m : Byte) :
    ((s.setCountedVote id v m).countedVotes.total fun k marker =>
        if k.proposal = id ∧ p marker then 1 else 0) +
        (s.getCountedVote id v).elim 0 (fun prev => if p prev then 1 else 0) =
      (if p m then 1 else 0) +
        s.countedVotes.total fun k marker => if k.proposal = id ∧ p marker then 1 else 0 := by
  have h := OrdMap.total_put_add (fun k marker => if k.proposal = id ∧ p marker then 1 else 0)
    s.countedVotes ⟨id, v⟩ m
  simp only [true_and] at h
  exact h

theorem setCountedVote_recount (v : Bytes) (m o : Byte) :
    (s.setCountedVote id v m).recount id o +
        (s.getCountedVote id v).elim 0 (fun prev => if prev = o then 1 else 0) =
      (if m = o then 1 else 0) + s.recount id o :=
  s.setCountedVote_total id (· = o) v m

theorem setCountedVote_countedBallots (v : Bytes) (m : Byte) :
    (s.setCountedVote id v m).countedBallots id +
        (s.getCountedVote id v).elim 0 (fun prev => if prev ≠ ineligibleVoteMarker then 1 else 0) =
      (if m ≠ ineligibleVoteMarker then 1 else 0) + s.countedBallots id :=
  s.setCountedVote_total id (· ≠ ineligibleVoteMarker) v m

variable {s id}

/-- An option someone is counted under has a positive recount. -/
theorem recount_pos (h : s.getCountedVote id v = some o) :
    0 < s.recount id o := by
  unfold recount
  rw [OrdMap.total_eq_erase _ h, if_pos ⟨rfl, rfl⟩]
  exact Nat.add_pos_left Nat.one_pos _

end Store

/-- A first ballot adds one to the turnout, to its option and to the records. -/
theorem recordVote_consistent_first (ho : o ≠ ineligibleVoteMarker)
    (hnew : s.getCountedVote id v = none) (hc : Consistent s id) :
    Consistent (((s.addTurnout id 1).addOptionCount id o 1).setCountedVote id v o) id := by
  have hturnout : (s.addTurnout id 1).turnout id = s.turnout id + 1 := by
    unfold Store.turnout Store.addTurnout OrdMap.getD
    rw [OrdMap.get?_put_self]
    exact applyDelta_one _
  constructor
  · have hsum := (s.addTurnout id 1).addOptionCount_countSum id o 1
    have hsame : (s.addTurnout id 1).countSum id = s.countSum id := rfl
    rw [applyDelta_one, hsame, hc.sum] at hsum
    have hgoal : ((s.addTurnout id 1).addOptionCount id o 1).countSum id = s.turnout id + 1 := by
      omega
    exact hgoal.trans hturnout.symm
  · have hcount := ((s.addTurnout id 1).addOptionCount id o 1).setCountedVote_countedBallots id v o
    have hnone : ((s.addTurnout id 1).addOptionCount id o 1).getCountedVote id v = none := hnew
    have hsame : ((s.addTurnout id 1).addOptionCount id o 1).countedBallots id =
      s.countedBallots id := rfl
    rw [hnone, Option.elim_none, if_pos ho, hsame, hc.counted] at hcount
    have hgoal := hcount.trans (Nat.add_comm _ _)
    exact hgoal.trans hturnout.symm
  · intro o' ho'
    have hrecount := ((s.addTurnout id 1).addOptionCount id o 1).setCountedVote_recount id v o o'
    have hnone : ((s.addTurnout id 1).addOptionCount id o 1).getCountedVote id v = none := hnew
    have hsame : ((s.addTurnout id 1).addOptionCount id o 1).recount id o' = s.recount id o' := rfl
    rw [hnone, Option.elim_none, Nat.add_zero, hsame, ← hc.options o' ho'] at hrecount
    rw [hrecount]
    have hoption := (s.addTurnout id 1).addOptionCount_optionCount id o o' 1
    refine hoption.trans ?_
    rw [applyDelta_one]
    by_cases heq : o = o'
    · rw [if_pos heq, if_pos heq, heq]
      exact Nat.add_comm _ _
    · rw [if_neg heq, if_neg heq, Nat.zero_add]
      rfl

/-- A changed ballot moves one from the previous option to the new one. -/
theorem recordVote_consistent_changed {prev : Byte} (ho : o ≠ ineligibleVoteMarker)
    (hprev : s.getCountedVote id v = some prev) (hcounted : prev ≠ ineligibleVoteMarker)
    (hne : prev ≠ o) (hc : Consistent s id) :
    Consistent (((s.addOptionCount id prev (-1)).addOptionCount id o 1).setCountedVote id v o)
      id := by
  have hpos : 0 < s.optionCount id prev := by
    rw [hc.options prev hcounted]
    exact Store.recount_pos hprev
  have hminus := s.addOptionCount_optionCount id prev
  constructor
  · have hfirst := s.addOptionCount_countSum id prev (-1)
    have hsecond := (s.addOptionCount id prev (-1)).addOptionCount_countSum id o 1
    rw [applyDelta_neg_one] at hfirst
    rw [applyDelta_one] at hsecond
    have hgoal : ((s.addOptionCount id prev (-1)).addOptionCount id o 1).countSum id =
        s.countSum id := by omega
    exact hgoal.trans hc.sum
  · have hcount := ((s.addOptionCount id prev (-1)).addOptionCount id o 1
      ).setCountedVote_countedBallots id v o
    have hvote : ((s.addOptionCount id prev (-1)).addOptionCount id o 1).getCountedVote id v =
      some prev := hprev
    rw [hvote, Option.elim_some, if_pos hcounted, if_pos ho, Nat.add_comm] at hcount
    exact (Nat.add_left_cancel hcount).trans hc.counted
  · intro o' ho'
    have hrecount := ((s.addOptionCount id prev (-1)).addOptionCount id o 1
      ).setCountedVote_recount id v o o'
    have hvote : ((s.addOptionCount id prev (-1)).addOptionCount id o 1).getCountedVote id v =
      some prev := hprev
    have hsame : ((s.addOptionCount id prev (-1)).addOptionCount id o 1).recount id o' =
      s.recount id o' := rfl
    rw [hvote, Option.elim_some, hsame, ← hc.options o' ho'] at hrecount
    have hoption : (((s.addOptionCount id prev (-1)).addOptionCount id o 1).setCountedVote id v
        o).optionCount id o' = _ :=
      (s.addOptionCount id prev (-1)).addOptionCount_optionCount id o o' 1
    rw [hoption]
    rw [applyDelta_one, hminus, hminus, applyDelta_neg_one, if_neg hne]
    -- the option is the old one, the new one, or neither
    by_cases hold : prev = o'
    · subst hold
      rw [if_neg (Ne.symm hne), if_pos rfl]
      rw [if_neg (Ne.symm hne), if_pos rfl] at hrecount
      omega
    · rw [if_neg hold] at hrecount ⊢
      by_cases hnew : o = o'
      · subst hnew
        rw [if_pos rfl] at hrecount ⊢
        omega
      · rw [if_neg hnew] at hrecount ⊢
        omega

/-- Recording a ballot under a real option keeps the tally a recount. -/
theorem recordVote_consistent (ho : o ≠ ineligibleVoteMarker) (hc : Consistent s id) :
    Consistent (s.recordVote id v o true).2 id := by
  unfold Store.recordVote
  split
  · rename_i prev hprev
    split
    · exact hc
    · rename_i hcounted
      split
      · exact hc
      · rename_i hne
        exact recordVote_consistent_changed ho hprev hcounted hne hc
  · rename_i hnew
    exact recordVote_consistent_first ho hnew hc

theorem VoteOption.code_ne_marker (o : VoteOption) : o.code ≠ ineligibleVoteMarker := by
  cases o <;> decide

/-! ## What an operation leaves alone -/

theorem params_same (s : Store) (p : Params) (j : Nat) : SameRecords s { s with params := p } j :=
  ⟨fun _ => rfl, rfl, fun _ => rfl, rfl⟩

theorem enqueue_same (s : Store) (id j : Nat) : SameRecords s (s.enqueueForPruning id) j :=
  ⟨fun _ => rfl, rfl, fun _ => rfl, rfl⟩

section RecordVote

variable {j : Nat}

theorem addOptionCount_other (d : Int) (h : id ≠ j) :
    SameRecords s (s.addOptionCount id o d) j where
  counts _ := OrdMap.get?_put_ne _ _ fun heq => h (TallyCountKey.mk.inj heq).1
  turnout := rfl
  votes _ := rfl
  basis := rfl

theorem addTurnout_other (d : Int) (h : id ≠ j) : SameRecords s (s.addTurnout id d) j where
  counts _ := rfl
  turnout := OrdMap.get?_put_ne _ _ h
  votes _ := rfl
  basis := rfl

theorem setCountedVote_other (m : Byte) (h : id ≠ j) :
    SameRecords s (s.setCountedVote id v m) j where
  counts _ := rfl
  turnout := rfl
  votes _ := OrdMap.get?_put_ne _ _ fun heq => h (CountedVoteKey.mk.inj heq).1
  basis := rfl

/-- A ballot on one proposal leaves the records of the others. -/
theorem recordVote_other (b : Bool) (h : id ≠ j) :
    SameRecords s (s.recordVote id v o b).2 j := by
  unfold Store.recordVote
  split
  · rename_i prev _
    split
    · exact SameRecords.refl s j
    · split
      · exact SameRecords.refl s j
      · exact ((addOptionCount_other (-1) h).trans (addOptionCount_other 1 h)).trans
          (setCountedVote_other o h)
  · split
    · exact ((addTurnout_other 1 h).trans (addOptionCount_other 1 h)).trans
        (setCountedVote_other o h)
    · exact setCountedVote_other _ h

/-- What recording a ballot leaves alone besides the other proposals. -/
theorem recordVote_frame (b : Bool) :
    (s.recordVote id v o b).2.eligibility = s.eligibility ∧
      (s.recordVote id v o b).2.pruneQueue = s.pruneQueue ∧
      (s.recordVote id v o b).2.params = s.params := by
  unfold Store.recordVote
  split
  · split
    · exact ⟨rfl, rfl, rfl⟩
    · split
      · exact ⟨rfl, rfl, rfl⟩
      · exact ⟨rfl, rfl, rfl⟩
  · split
    · exact ⟨rfl, rfl, rfl⟩
    · exact ⟨rfl, rfl, rfl⟩

/-- The ballot recorded last is the one counted, unless the voter had been turned away. -/
theorem recordVote_getCountedVote (hprev : s.getCountedVote id v ≠ some ineligibleVoteMarker) :
    (s.recordVote id v o true).2.getCountedVote id v = some o := by
  unfold Store.recordVote
  split
  · rename_i prev hvote
    have hcounted : prev ≠ ineligibleVoteMarker := fun heq => hprev (heq ▸ hvote)
    rw [if_neg hcounted]
    split
    · rename_i heq
      exact heq ▸ hvote
    · exact OrdMap.get?_put_self _ _ _
  · exact OrdMap.get?_put_self _ _ _

theorem recordVote_getCountedVote_ne (b : Bool) {u : Bytes} (h : v ≠ u) :
    (s.recordVote id v o b).2.getCountedVote id u = s.getCountedVote id u := by
  have hput : ∀ (t : Store) (m : Byte),
      (t.setCountedVote id v m).getCountedVote id u = t.getCountedVote id u :=
    fun t m => OrdMap.get?_put_ne _ _ fun heq => h (CountedVoteKey.mk.inj heq).2
  unfold Store.recordVote
  split
  · split
    · rfl
    · split
      · rfl
      · exact hput _ o
  · split
    · exact hput _ o
    · exact hput _ _

/-- Only a first ballot adds to the turnout. -/
theorem recordVote_turnout :
    (s.recordVote id v o true).2.turnout id =
      s.turnout id + if s.getCountedVote id v = none then 1 else 0 := by
  unfold Store.recordVote
  split
  · rename_i prev hvote
    rw [hvote, if_neg (Option.some_ne_none prev), Nat.add_zero]
    split
    · rfl
    · split
      · rfl
      · rfl
  · rename_i hvote
    rw [hvote, if_pos rfl]
    unfold Store.turnout OrdMap.getD
    exact congrArg (Option.getD · 0) (OrdMap.get?_put_self _ _ _)

end RecordVote

end PhiChain.Governance
