import PhiChain.Governance.Recount

/-!
# What the pruner does to a proposal

One call of the pruner treats each proposal in one of three ways (`Pruned`): it leaves
its records alone, it deletes some per-voter records and keeps the aggregates and the
queue entry, or it removes everything the proposal still holds. The middle way is taken
exactly for queued proposals that hold per-voter records.
-/

set_option autoImplicit false

namespace PhiChain.Governance

open Foundations

/-- The two stores agree on a proposal, its place in the queue included. -/
structure Untouched (s s' : Store) (id : Nat) : Prop extends SameRecords s s' id where
  queue : s'.isQueuedForPruning id = s.isQueuedForPruning id

theorem Untouched.refl (s : Store) (id : Nat) : Untouched s s id :=
  ⟨SameRecords.refl s id, rfl⟩

variable {id : Nat} {s s' : Store}

theorem Untouched.trans {s'' : Store} (h : Untouched s s' id)
    (h' : Untouched s' s'' id) : Untouched s s'' id :=
  ⟨h.toSameRecords.trans h'.toSameRecords, h'.queue.trans h.queue⟩

/-- Nothing is left of a proposal. -/
structure Cleared (s : Store) (id : Nat) : Prop where
  counts : ∀ o, s.tallyCounts.get? ⟨id, o⟩ = none
  turnout : s.tallyTurnout.get? id = none
  votes : ∀ v, s.countedVotes.get? ⟨id, v⟩ = none
  basis : s.eligibility.get? id = none
  queue : s.isQueuedForPruning id = false

theorem Cleared.of_untouched (h : Untouched s s' id) (hc : Cleared s id) : Cleared s' id where
  counts o := (h.counts o).trans (hc.counts o)
  turnout := h.turnout.trans hc.turnout
  votes v := (h.votes v).trans (hc.votes v)
  basis := h.basis.trans hc.basis
  queue := h.queue.trans hc.queue

theorem Cleared.consistent (h : Cleared s id) : Consistent s id := by
  have hturnout : s.turnout id = 0 := by
    unfold Store.turnout OrdMap.getD
    rw [h.turnout]
    rfl
  have hvotes : ∀ f : CountedVoteKey → Byte → Nat, (∀ k x, ¬ k.proposal = id → f k x = 0) →
      s.countedVotes.total f = 0 := by
    intro f hf
    refine OrdMap.total_eq_zero fun k x hk => ?_
    by_cases hid : k.proposal = id
    · obtain ⟨p, v⟩ := k
      cases hid
      rw [h.votes] at hk
      cases hk
    · exact hf k x hid
  constructor
  · rw [hturnout]
    refine OrdMap.total_eq_zero fun k n hk => ?_
    obtain ⟨p, o⟩ := k
    by_cases hid : p = id
    · cases hid
      rw [h.counts] at hk
      cases hk
    · exact if_neg hid
  · rw [hturnout]
    exact hvotes _ fun k x hid => if_neg fun hand => hid hand.1
  · intro o _
    have hzero : s.recount id o = 0 := hvotes _ fun k x hid => if_neg fun hand => hid hand.1
    rw [hzero]
    unfold Store.optionCount OrdMap.getD
    rw [h.counts]
    rfl

/-- A proposal whose votes are being deleted: it stays queued with its aggregates. -/
structure Begun (s s' : Store) (id : Nat) : Prop where
  held : ∃ v, s.getCountedVote id v ≠ none
  queued : s.isQueuedForPruning id = true
  still : s'.isQueuedForPruning id = true
  turnout : s'.tallyTurnout.get? id = s.tallyTurnout.get? id
  basis : s'.eligibility.get? id = s.eligibility.get? id
  votes : ∀ v m, s'.getCountedVote id v = some m → s.getCountedVote id v = some m

/-- The ways the pruner can treat a proposal. -/
inductive Pruned (s s' : Store) (id : Nat) : Prop where
  | untouched (h : Untouched s s' id)
  | begun (h : Begun s s' id)
  | cleared (queued : s.isQueuedForPruning id = true) (h : Cleared s' id)

theorem Pruned.after_untouched {s'' : Store} (h : Untouched s s' id)
    (hp : Pruned s' s'' id) : Pruned s s'' id := by
  cases hp with
  | untouched h' => exact .untouched (h.trans h')
  | begun h' =>
    obtain ⟨v, hv⟩ := h'.held
    refine .begun ⟨⟨v, ?_⟩, h.queue ▸ h'.queued, h'.still, h'.turnout.trans h.turnout,
      h'.basis.trans h.basis, ?_⟩
    · intro hnone
      exact hv ((h.votes v).trans hnone)
    · intro u m hu
      exact (h.votes u).symm.trans (h'.votes u m hu)
  | cleared hq h' => exact .cleared (h.queue ▸ hq) h'

/-! ## One proposal of the loop -/

section OneProposal

variable {j : Nat}

theorem mem_countedVoteKeys {k : CountedVoteKey} (h : k ∈ s.countedVoteKeys id) :
    k.proposal = id ∧ s.countedVotes.has k = true := by
  obtain ⟨hk, hhas⟩ := OrdMap.mem_keysWhere.1 h
  exact ⟨of_decide_eq_true hk, hhas⟩

/-- Deleting votes of one proposal leaves the others untouched. -/
theorem eraseVotes_other {batch : List CountedVoteKey} (hb : ∀ k ∈ batch, k.proposal = id)
    (h : id ≠ j) : Untouched s (s.eraseVotes batch) j where
  counts _ := rfl
  turnout := rfl
  votes _ := OrdMap.get?_eraseAll_of_not_mem _ fun hmem => h (hb _ hmem).symm
  basis := rfl
  queue := rfl

theorem eraseVotes_begun {batch : List CountedVoteKey} (hb : ∀ k ∈ batch, k ∈ s.countedVoteKeys id)
    (hne : 0 < batch.length) (hq : s.isQueuedForPruning id = true) :
    Begun s (s.eraseVotes batch) id where
  held := by
    obtain ⟨⟨p, v⟩, hk⟩ := List.exists_mem_of_length_pos hne
    obtain ⟨rfl, hhas⟩ := mem_countedVoteKeys (hb _ hk)
    obtain ⟨m, hm⟩ := OrdMap.has_iff.1 hhas
    refine ⟨v, fun hnone => ?_⟩
    cases hnone.symm.trans hm
  queued := hq
  still := hq
  turnout := rfl
  basis := rfl
  votes _ _ h := OrdMap.get?_of_eraseAll h

theorem dropAggregates_other (h : id ≠ j) : Untouched s (s.dropAggregates id) j where
  counts o := by
    refine OrdMap.get?_eraseAll_of_not_mem _ fun hmem => ?_
    exact h (of_decide_eq_true (OrdMap.mem_keysWhere.1 hmem).1).symm
  turnout := OrdMap.get?_erase_ne _ h
  votes _ := rfl
  basis := OrdMap.get?_erase_ne _ h
  queue := congrArg Option.isSome (OrdMap.get?_erase_ne _ h)

theorem dropAggregates_cleared (hempty : s.countedVoteKeys id = []) :
    Cleared (s.dropAggregates id) id where
  counts o := by
    by_cases hmem : (⟨id, o⟩ : TallyCountKey) ∈ s.tallyCountKeys id
    · exact OrdMap.get?_eraseAll_of_mem _ hmem
    · refine (OrdMap.get?_eraseAll_of_not_mem _ hmem).trans ?_
      by_contra hne
      obtain ⟨n, hn⟩ := Option.ne_none_iff_exists'.1 hne
      exact hmem (OrdMap.mem_keysWhere.2 ⟨decide_eq_true rfl, OrdMap.has_iff.2 ⟨n, hn⟩⟩)
  turnout := OrdMap.get?_erase_self _ _
  votes v := by
    by_contra hne
    obtain ⟨m, hm⟩ := Option.ne_none_iff_exists'.1 hne
    have hmem : (⟨id, v⟩ : CountedVoteKey) ∈ s.countedVoteKeys id :=
      OrdMap.mem_keysWhere.2 ⟨decide_eq_true rfl, OrdMap.has_iff.2 ⟨m, hm⟩⟩
    rw [hempty] at hmem
    cases hmem
  basis := OrdMap.get?_erase_self _ _
  queue := congrArg Option.isSome (OrdMap.get?_erase_self _ _)

end OneProposal

/-! ## The loop -/

/-- The loop treats each listed proposal in one of the three ways and no other at all. -/
theorem pruneLoop_pruned (budget : Nat) {ids : List Nat} (hnodup : ids.Nodup) (deleted : Nat)
    (s : Store) (hq : ∀ id ∈ ids, s.isQueuedForPruning id = true) (id : Nat) :
    Pruned s (Store.pruneLoop budget ids (deleted, s)).2 id ∧
      (id ∉ ids → Untouched s (Store.pruneLoop budget ids (deleted, s)).2 id) := by
  induction ids generalizing deleted s with
  | nil => exact ⟨.untouched (Untouched.refl s id), fun _ => Untouched.refl s id⟩
  | cons head rest ih =>
    obtain ⟨hhead, hrest⟩ := List.nodup_cons.1 hnodup
    unfold Store.pruneLoop
    split
    · exact ⟨.untouched (Untouched.refl s id), fun _ => Untouched.refl s id⟩
    · rename_i hbudget
      -- the head changes only at its own turn: the rest does not list it
      dsimp only
      split
      · rename_i hpos
        have hmem : ∀ k ∈ (s.countedVoteKeys head).take (budget - deleted),
            k ∈ s.countedVoteKeys head := fun k hk => List.mem_of_mem_take hk
        have hrec := ih hrest
          (deleted + ((s.countedVoteKeys head).take (budget - deleted)).length)
          (s.eraseVotes ((s.countedVoteKeys head).take (budget - deleted)))
          fun j hj => hq j (List.mem_cons_of_mem _ hj)
        by_cases hid : head = id
        · subst hid
          have hafter := (hrec.2 hhead)
          have hbegun := eraseVotes_begun hmem hpos (hq head List.mem_cons_self)
          refine ⟨.begun ?_, fun hout => absurd List.mem_cons_self hout⟩
          exact ⟨hbegun.held, hbegun.queued, hafter.queue.trans hbegun.still, hafter.turnout,
            hafter.basis, fun v m hv => hbegun.votes v m ((hafter.votes v).symm.trans hv)⟩
        · have hbefore := eraseVotes_other (s := s)
            (fun k hk => (mem_countedVoteKeys (hmem k hk)).1) hid
          refine ⟨hrec.1.after_untouched hbefore, fun hout => ?_⟩
          have hafter := hrec.2 fun hin => hout (List.mem_cons_of_mem _ hin)
          exact hbefore.trans hafter
      · rename_i hnone
        have hempty : s.countedVoteKeys head = [] := by
          rw [List.length_take] at hnone
          exact List.length_eq_zero_iff.1 (by omega)
        have hqueue : ∀ j ∈ rest, (s.dropAggregates head).isQueuedForPruning j = true := by
          intro j hj
          have hne : head ≠ j := fun heq => hhead (heq ▸ hj)
          exact (dropAggregates_other hne).queue.trans (hq j (List.mem_cons_of_mem _ hj))
        have hrec := ih hrest (deleted + (s.tallyCountKeys head).length + 1) _ hqueue
        by_cases hid : head = id
        · subst hid
          refine ⟨.cleared (hq head List.mem_cons_self) ?_,
            fun hout => absurd List.mem_cons_self hout⟩
          exact (dropAggregates_cleared hempty).of_untouched (hrec.2 hhead)
        · have hbefore := dropAggregates_other (s := s) hid
          refine ⟨hrec.1.after_untouched hbefore, fun hout => ?_⟩
          have hafter := hrec.2 fun hin => hout (List.mem_cons_of_mem _ hin)
          exact hbefore.trans hafter

theorem queued_of_mem (h : id ∈ s.pruneQueue.entries.map Prod.fst) :
    s.isQueuedForPruning id = true :=
  OrdMap.mem_keys.1 h

/-- What one call of the pruner does to any proposal. -/
theorem pruneStep_pruned (s : Store) (budget : Int) (id : Nat) :
    Pruned s (s.pruneStep budget).2 id := by
  unfold Store.pruneStep
  split
  · exact .untouched (Untouched.refl s id)
  · exact (pruneLoop_pruned _ s.pruneQueue.nodup_keys 0 s (fun _ => queued_of_mem) id).1

theorem pruneLoop_params (budget : Nat) (ids : List Nat) (deleted : Nat) (s : Store) :
    (Store.pruneLoop budget ids (deleted, s)).2.params = s.params := by
  induction ids generalizing deleted s with
  | nil => rfl
  | cons head rest ih =>
    unfold Store.pruneLoop
    split
    · rfl
    · dsimp only
      split
      · exact ih _ _
      · exact ih _ _

theorem pruneStep_params (s : Store) (budget : Int) : (s.pruneStep budget).2.params = s.params := by
  unfold Store.pruneStep
  split
  · rfl
  · exact pruneLoop_params _ _ 0 s

end PhiChain.Governance
