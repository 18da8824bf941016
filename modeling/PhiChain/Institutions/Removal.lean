import PhiChain.Institutions.Sweeps

/-!
# Institutions: what the removal sweep deletes

`Sweeping` is the loop of `SweepRemovals` with no bound on its rounds. `sweepRemovals` is its
only outcome: each round that goes on has retired a queue entry and paid for it, so the
budget bounds the rounds.

Over a queue of well-formed keys the sweep deletes records of queued ids only, at most one
more than its budget, and it makes progress as long as something is queued.
-/

set_option autoImplicit false

namespace PhiChain.Institutions

open Foundations Sdk

variable {D : Type} [LinearOrder D]

/-! ## The keyspaces of one institution

The sweep iterates the byte keys under `PerInstitutionRangePrefixes`. Ids have at most 255
bytes, so the length byte does not wrap and the range of an id holds its own keys only; this is
proved for all keys at once where their layout is modelled. -/

def rolePrefixFor (instID : Bytes) : Bytes := (0x20 : Byte) :: bytePrefixed instID

def approvalInstitutionPrefixFor (instID : Bytes) : Bytes := (0x30 : Byte) :: bytePrefixed instID

def holderKycTierPrefixFor (instID : Bytes) : Bytes := (0xA0 : Byte) :: bytePrefixed instID

def perInstitutionRangePrefixes (instID : Bytes) : List Bytes :=
  [rolePrefixFor instID, approvalInstitutionPrefixFor instID, holderKycTierPrefixFor instID]

/-! ## The loop -/

/-- Runs of the loop: from a budget and a store to the store it leaves. -/
inductive Sweeping : Nat → Store D → Store D → Prop where
  | spent (s : Store D) : Sweeping 0 s s
  | idle {budget : Nat} {s : Store D} (left : budget ≠ 0) (idle : firstPendingRemoval s = none) :
      Sweeping budget s s
  | paused {budget : Nat} {s : Store D} {id : Bytes} (left : budget ≠ 0)
      (first : firstPendingRemoval s = some id)
      (more : institutionRangedEmpty (drainInstitutionRanged s id budget).2 id = false) :
      Sweeping budget s (drainInstitutionRanged s id budget).2
  | retired {budget : Nat} {s s' : Store D} {id : Bytes} (left : budget ≠ 0)
      (first : firstPendingRemoval s = some id)
      (empty : institutionRangedEmpty (drainInstitutionRanged s id budget).2 id = true)
      (rest : Sweeping (budget - (drainInstitutionRanged s id budget).1 - 1)
        (dequeueRemoval (drainInstitutionRanged s id budget).2 id) s') :
      Sweeping budget s s'

variable {budget : Nat} {s : Store D} {id : Bytes}

/-- As many rounds as the budget are enough. -/
theorem sweeping_sweepLoop {rounds : Nat} (h : budget ≤ rounds) (s : Store D) :
    Sweeping budget s (sweepLoop rounds budget s) := by
  induction rounds generalizing budget s with
  | zero =>
    obtain rfl : budget = 0 := Nat.le_zero.1 h
    exact .spent s
  | succ rounds ih =>
    rw [sweepLoop]
    split
    · rename_i hspent
      rw [hspent]
      exact .spent s
    · rename_i hleft
      split
      · rename_i hidle
        exact .idle hleft hidle
      · rename_i id hfirst
        dsimp only
        split
        · rename_i hempty
          exact .retired hleft hfirst hempty (ih (by omega) _)
        · rename_i hmore
          exact .paused hleft hfirst (Bool.not_eq_true _ ▸ hmore)

/-- The loop has one outcome. -/
theorem Sweeping.eq {s₁ s₂ : Store D} (h₁ : Sweeping budget s s₁)
    (h₂ : Sweeping budget s s₂) : s₁ = s₂ := by
  induction h₁ with
  | spent s =>
    cases h₂ with
    | spent | idle => rfl
    | paused left | retired left => exact absurd rfl left
  | idle left idle =>
    cases h₂ with
    | spent | idle => rfl
    | paused _ first | retired _ first => cases idle.symm.trans first
  | paused left first more =>
    cases h₂ with
    | spent => exact absurd rfl left
    | idle _ idle => cases idle.symm.trans first
    | paused _ first' =>
      cases first.symm.trans first'
      rfl
    | retired _ first' empty =>
      cases first.symm.trans first'
      cases more.symm.trans empty
  | retired left first empty rest ih =>
    cases h₂ with
    | spent => exact absurd rfl left
    | idle _ idle => cases idle.symm.trans first
    | paused _ first' more =>
      cases first.symm.trans first'
      cases more.symm.trans empty
    | retired _ first' _ rest' =>
      cases first.symm.trans first'
      exact ih rest'

theorem sweeping_iff (s s' : Store D) :
    Sweeping removalPruneBudget s s' ↔ s' = sweepRemovals s := by
  constructor
  · intro h
    exact h.eq (sweeping_sweepLoop le_rfl s)
  · rintro rfl
    exact sweeping_sweepLoop le_rfl s

/-! ## One drain -/

/-- Ranged records and queue entries. -/
def footprint (s : Store D) : Nat :=
  s.roles.entries.length + s.approvals.entries.length + s.kycTiers.entries.length +
    s.removalQueue.entries.length

/-- What the sweeps still have to do: ranged records of queued ids, and queue entries. -/
def drainWork (s : Store D) : Nat :=
  (s.roles.keysWhere fun k => s.hasPendingRemoval k.institution).length +
    (s.approvals.keysWhere fun k => s.hasPendingRemoval k.institution).length +
    (s.kycTiers.keysWhere fun k => s.hasPendingRemoval k.institution).length +
    s.removalQueue.entries.length

section Drain

variable {κ ν : Type} [LinearOrder κ]

/-- Some of the keys that pass a test. -/
theorem taken_keys {p : κ → Bool} {m : OrdMap κ ν} {n : Nat} {k : κ}
    (h : k ∈ (m.keysWhere p).take n) : p k = true ∧ m.has k = true :=
  OrdMap.mem_keysWhere.1 (List.mem_of_mem_take h)

/-- Erasing some of the keys that pass a test lowers a count of keys of a weaker one by as
many. -/
theorem length_keysWhere_drained {p q : κ → Bool} (hpq : ∀ k, p k = true → q k = true)
    (m : OrdMap κ ν) (n : Nat) :
    ((m.eraseAll ((m.keysWhere p).take n)).keysWhere q).length + ((m.keysWhere p).take n).length =
      (m.keysWhere q).length := by
  refine OrdMap.length_keysWhere_eraseAll ?_ fun k hk => ?_
  · exact (m.nodup_keysWhere p).sublist (List.take_sublist n _)
  · obtain ⟨hp, hhas⟩ := taken_keys hk
    exact OrdMap.mem_keysWhere.2 ⟨hpq k hp, hhas⟩

theorem length_entries_drained {p : κ → Bool} (m : OrdMap κ ν) (n : Nat) :
    (m.eraseAll ((m.keysWhere p).take n)).entries.length + ((m.keysWhere p).take n).length =
      m.entries.length := by
  rw [← OrdMap.length_keysWhere_true, ← OrdMap.length_keysWhere_true]
  exact length_keysWhere_drained (fun _ _ => rfl) m n

end Drain

theorem drain_le (s : Store D) (id : Bytes) (budget : Nat) :
    (drainInstitutionRanged s id budget).1 ≤ budget := by
  simp only [drainInstitutionRanged, List.length_take]
  omega

theorem drain_footprint (s : Store D) (id : Bytes) (budget : Nat) :
    footprint (drainInstitutionRanged s id budget).2 + (drainInstitutionRanged s id budget).1 =
      footprint s := by
  have hroles := length_entries_drained (p := fun k => k.institution = id) s.roles budget
  have happrovals := length_entries_drained (p := fun k => k.institution = id) s.approvals
    (budget - ((s.roles.keysWhere fun k => k.institution = id).take budget).length)
  have hkyc := length_entries_drained (p := fun k => k.institution = id) s.kycTiers
    (budget - ((s.roles.keysWhere fun k => k.institution = id).take budget).length -
      ((s.approvals.keysWhere fun k => k.institution = id).take
        (budget - ((s.roles.keysWhere fun k => k.institution = id).take budget).length)).length)
  simp only [footprint, drainInstitutionRanged]
  omega

/-- A drain that leaves something behind has deleted something. -/
theorem drain_pos (hbudget : budget ≠ 0)
    (hmore : institutionRangedEmpty (drainInstitutionRanged s id budget).2 id = false) :
    (drainInstitutionRanged s id budget).1 ≠ 0 := by
  intro hzero
  simp only [drainInstitutionRanged, List.length_take] at hzero
  -- nothing was taken although there was budget: there was nothing to take
  have hroles : (s.roles.keysWhere fun k => k.institution = id) = [] :=
    List.eq_nil_of_length_eq_zero (by omega)
  have happrovals : (s.approvals.keysWhere fun k => k.institution = id) = [] :=
    List.eq_nil_of_length_eq_zero (by omega)
  have hkyc : (s.kycTiers.keysWhere fun k => k.institution = id) = [] :=
    List.eq_nil_of_length_eq_zero (by omega)
  simp [institutionRangedEmpty, drainInstitutionRanged, hroles, happrovals, hkyc,
    OrdMap.eraseAll] at hmore

theorem drain_work (hpending : s.hasPendingRemoval id = true)
    (budget : Nat) : drainWork (drainInstitutionRanged s id budget).2 +
      (drainInstitutionRanged s id budget).1 = drainWork s := by
  have hqueued : ∀ {institution : Bytes}, decide (institution = id) = true →
      s.hasPendingRemoval institution = true := by
    intro institution h
    rw [of_decide_eq_true h]
    exact hpending
  have hroles := length_keysWhere_drained (p := fun k => k.institution = id)
    (q := fun k => s.hasPendingRemoval k.institution) (fun _ => hqueued) s.roles budget
  have happrovals := length_keysWhere_drained (p := fun k => k.institution = id)
    (q := fun k => s.hasPendingRemoval k.institution) (fun _ => hqueued) s.approvals
    (budget - ((s.roles.keysWhere fun k => k.institution = id).take budget).length)
  have hkyc := length_keysWhere_drained (p := fun k => k.institution = id)
    (q := fun k => s.hasPendingRemoval k.institution) (fun _ => hqueued) s.kycTiers
    (budget - ((s.roles.keysWhere fun k => k.institution = id).take budget).length -
      ((s.approvals.keysWhere fun k => k.institution = id).take
        (budget - ((s.roles.keysWhere fun k => k.institution = id).take budget).length)).length)
  have hsame : ∀ institution, (drainInstitutionRanged s id budget).2.hasPendingRemoval institution =
      s.hasPendingRemoval institution := fun _ => rfl
  simp only [drainWork, hsame]
  simp only [drainInstitutionRanged]
  omega

/-- Retiring a queue entry. -/
theorem dequeue_footprint (hpending : s.hasPendingRemoval id = true) :
    footprint (dequeueRemoval s id) + 1 = footprint s := by
  obtain ⟨x, hx⟩ := OrdMap.has_iff.1 hpending
  have hlength := OrdMap.length_erase hx
  simp only [footprint, dequeueRemoval]
  omega

theorem dequeue_work (hpending : s.hasPendingRemoval id = true) :
    drainWork (dequeueRemoval s id) < drainWork s := by
  obtain ⟨x, hx⟩ := OrdMap.has_iff.1 hpending
  have hlength := OrdMap.length_erase hx
  have hfewer : ∀ j, (dequeueRemoval s id).hasPendingRemoval j = true →
      s.hasPendingRemoval j = true := fun j hj => OrdMap.has_of_erase hj
  have hroles : ((dequeueRemoval s id).roles.keysWhere fun k =>
      (dequeueRemoval s id).hasPendingRemoval k.institution).length ≤
        (s.roles.keysWhere fun k => s.hasPendingRemoval k.institution).length :=
    OrdMap.length_keysWhere_le fun k hk hhas => ⟨hfewer _ hk, hhas⟩
  have happrovals : ((dequeueRemoval s id).approvals.keysWhere fun k =>
      (dequeueRemoval s id).hasPendingRemoval k.institution).length ≤
        (s.approvals.keysWhere fun k => s.hasPendingRemoval k.institution).length :=
    OrdMap.length_keysWhere_le fun k hk hhas => ⟨hfewer _ hk, hhas⟩
  have hkyc : ((dequeueRemoval s id).kycTiers.keysWhere fun k =>
      (dequeueRemoval s id).hasPendingRemoval k.institution).length ≤
        (s.kycTiers.keysWhere fun k => s.hasPendingRemoval k.institution).length :=
    OrdMap.length_keysWhere_le fun k hk hhas => ⟨hfewer _ hk, hhas⟩
  have hqueue : (dequeueRemoval s id).removalQueue.entries.length + 1 =
      s.removalQueue.entries.length := hlength
  simp only [drainWork]
  omega

/-! ## A whole sweep -/

theorem removalQueueKey_inj {id' : Bytes} (h : removalQueueKey id = removalQueueKey id') :
    id = id' := by
  simp only [removalQueueKey, bytePrefixed, List.cons.injEq] at h
  exact h.2.2

/-- Every queue key is the key of an id within the length bound. -/
def WellQueued (s : Store D) : Prop :=
  ∀ key, s.removalQueue.has key = true →
    ∃ id, id.length ≤ maxInstitutionIDLen ∧ key = removalQueueKey id

theorem parseRemovalQueueKey_removalQueueKey
    (h : id.length ≤ maxInstitutionIDLen) : parseRemovalQueueKey (removalQueueKey id) = some id := by
  have hlen : id.length % 256 = id.length := Nat.mod_eq_of_lt (Nat.lt_succ_of_le h)
  have hval : (Fin.ofNat 256 id.length).val = id.length := hlen
  simp only [parseRemovalQueueKey, idFromLenPrefixedKey, removalQueueKey, bytePrefixed, hval,
    le_refl, and_self, if_true, List.take_length]

/-- The sweep works on an id that is queued. -/
theorem firstPendingRemoval_pending (hs : WellQueued s)
    (h : firstPendingRemoval s = some id) : s.hasPendingRemoval id = true := by
  unfold firstPendingRemoval at h
  split at h
  · cases h
  · rename_i e rest hentries
    have hmem : e ∈ s.removalQueue.entries := hentries ▸ List.mem_cons_self
    have hkey : s.removalQueue.has e.1 = true := OrdMap.has_iff.2 ⟨e.2, OrdMap.mem_entries.1 hmem⟩
    obtain ⟨id', hlen, hid'⟩ := hs e.1 hkey
    rw [hid', parseRemovalQueueKey_removalQueueKey hlen] at h
    cases h
    rw [hid'] at hkey
    exact hkey

/-- As long as something is queued, the sweep finds an id. -/
theorem firstPendingRemoval_isSome (hs : WellQueued s)
    (hne : s.removalQueue.entries ≠ []) : ∃ id, firstPendingRemoval s = some id := by
  unfold firstPendingRemoval
  split
  · contradiction
  · rename_i e rest hentries
    have hmem : e ∈ s.removalQueue.entries := hentries ▸ List.mem_cons_self
    obtain ⟨id, hlen, hid⟩ := hs e.1 (OrdMap.has_iff.2 ⟨e.2, OrdMap.mem_entries.1 hmem⟩)
    exact ⟨id, by rw [hid, parseRemovalQueueKey_removalQueueKey hlen]⟩

theorem WellQueued.dequeue (hs : WellQueued s) (id : Bytes) :
    WellQueued (dequeueRemoval s id) := fun key hkey => hs key (OrdMap.has_of_erase hkey)

/-- Only records of queued ids and queue entries are gone. -/
structure Swept (s s' : Store D) : Prop where
  roles : OrdMap.Thins (fun k => s.hasPendingRemoval k.institution = true) s.roles s'.roles
  approvals :
    OrdMap.Thins (fun k => s.hasPendingRemoval k.institution = true) s.approvals s'.approvals
  kycTiers : OrdMap.Thins (fun k => s.hasPendingRemoval k.institution = true) s.kycTiers s'.kycTiers
  queue : OrdMap.Thins (fun key => s.removalQueue.has key = true) s.removalQueue s'.removalQueue
  rest : s' = { s with
    roles := s'.roles
    approvals := s'.approvals
    kycTiers := s'.kycTiers
    removalQueue := s'.removalQueue }

theorem Swept.refl (s : Store D) : Swept s s := ⟨.refl _ _, .refl _ _, .refl _ _, .refl _ _, rfl⟩

theorem Swept.trans {s₁ s₂ s₃ : Store D} (h : Swept s₁ s₂) (h' : Swept s₂ s₃) : Swept s₁ s₃ := by
  -- what is queued later was queued before
  have hqueue : ∀ key, s₂.removalQueue.has key = true → s₁.removalQueue.has key = true := by
    intro key hkey
    obtain ⟨x, hx⟩ := OrdMap.has_iff.1 hkey
    exact OrdMap.has_iff.2 ⟨x, h.queue.fewer key x hx⟩
  refine ⟨h.roles.trans (h'.roles.mono fun k => hqueue _),
    h.approvals.trans (h'.approvals.mono fun k => hqueue _),
    h.kycTiers.trans (h'.kycTiers.mono fun k => hqueue _),
    h.queue.trans (h'.queue.mono hqueue), ?_⟩
  rw [h'.rest, h.rest]

theorem swept_drain (hpending : s.hasPendingRemoval id = true)
    (budget : Nat) : Swept s (drainInstitutionRanged s id budget).2 := by
  have hown : ∀ {institution : Bytes}, decide (institution = id) = true →
      s.hasPendingRemoval institution = true := by
    intro institution h
    rw [of_decide_eq_true h]
    exact hpending
  refine ⟨?_, ?_, ?_, .refl _ _, rfl⟩
  · exact OrdMap.thins_eraseAll (fun k hk => hown (taken_keys hk).1) s.roles
  · exact OrdMap.thins_eraseAll (fun k hk => hown (taken_keys hk).1) s.approvals
  · exact OrdMap.thins_eraseAll (fun k hk => hown (taken_keys hk).1) s.kycTiers

theorem swept_dequeue (hpending : s.hasPendingRemoval id = true) :
    Swept s (dequeueRemoval s id) :=
  ⟨.refl _ _, .refl _ _, .refl _ _,
    OrdMap.thins_erase (p := fun key => s.removalQueue.has key = true) hpending _, rfl⟩

theorem isEmpty_keysWhere_iff {κ ν : Type} [LinearOrder κ] {m : OrdMap κ ν} {p : κ → Bool} :
    (m.keysWhere p).isEmpty = true ↔ ∀ k x, m.get? k = some x → p k = false := by
  rw [List.isEmpty_iff, List.eq_nil_iff_forall_not_mem]
  constructor
  · intro h k x hx
    exact Bool.eq_false_iff.2 fun hp => h k (OrdMap.mem_keysWhere.2 ⟨hp, OrdMap.has_iff.2 ⟨x, hx⟩⟩)
  · intro h k hk
    obtain ⟨hp, hhas⟩ := OrdMap.mem_keysWhere.1 hk
    obtain ⟨x, hx⟩ := OrdMap.has_iff.1 hhas
    cases (h k x hx).symm.trans hp

/-- No ranged record names the id. -/
theorem institutionRangedEmpty_iff :
    institutionRangedEmpty s id = true ↔
      (∀ key role, s.roles.get? key = some role → key.institution ≠ id) ∧
        (∀ key stamp, s.approvals.get? key = some stamp → key.institution ≠ id) ∧
        ∀ key tier, s.kycTiers.get? key = some tier → key.institution ≠ id := by
  simp only [institutionRangedEmpty, Bool.and_eq_true, isEmpty_keysWhere_iff,
    decide_eq_false_iff_not, and_assoc, ne_eq]

theorem Swept.rangedEmpty {s' : Store D} (h : Swept s s')
    (hempty : institutionRangedEmpty s id = true) : institutionRangedEmpty s' id = true := by
  obtain ⟨hroles, happrovals, hkyc⟩ := institutionRangedEmpty_iff.1 hempty
  exact institutionRangedEmpty_iff.2 ⟨fun key role hkey => hroles key role (h.roles.fewer _ _ hkey),
    fun key stamp hkey => happrovals key stamp (h.approvals.fewer _ _ hkey),
    fun key tier hkey => hkyc key tier (h.kycTiers.fewer _ _ hkey)⟩

section Outcome

variable {s' : Store D}

theorem Sweeping.swept (h : Sweeping budget s s') (hs : WellQueued s) : Swept s s' := by
  induction h with
  | spent s => exact .refl s
  | idle => exact .refl _
  | paused _ first => exact swept_drain (firstPendingRemoval_pending hs first) _
  | @retired budget s s' id left first empty rest ih =>
    have hpending := firstPendingRemoval_pending hs first
    have hdequeue : Swept (drainInstitutionRanged s id budget).2
        (dequeueRemoval (drainInstitutionRanged s id budget).2 id) := swept_dequeue hpending
    have hrest := ih (WellQueued.dequeue (s := (drainInstitutionRanged s id budget).2) hs id)
    exact (swept_drain hpending budget).trans (hdequeue.trans hrest)

/-- At most one deletion more than the budget; none without budget. -/
theorem Sweeping.footprint_le (h : Sweeping budget s s') (hs : WellQueued s) :
    footprint s ≤ footprint s' + if budget = 0 then 0 else budget + 1 := by
  induction h with
  | spent => simp
  | idle => omega
  | @paused budget s id left first more =>
    have hdrain := drain_footprint s id budget
    have hle := drain_le s id budget
    rw [if_neg left]
    omega
  | @retired budget s s' id left first empty rest ih =>
    have hpending := firstPendingRemoval_pending hs first
    have hdrain := drain_footprint s id budget
    have hle := drain_le s id budget
    have hdequeue : footprint (dequeueRemoval (drainInstitutionRanged s id budget).2 id) + 1 =
        footprint (drainInstitutionRanged s id budget).2 := dequeue_footprint hpending
    have hrest := ih (WellQueued.dequeue (s := (drainInstitutionRanged s id budget).2) hs id)
    rw [if_neg left]
    -- the last queue entry is retired even if the drain used up the budget
    split at hrest
    · omega
    · omega

/-- A sweep adds no work, and one with budget makes progress as long as something is queued. -/
theorem Sweeping.work (h : Sweeping budget s s') (hs : WellQueued s) :
    drainWork s' ≤ drainWork s ∧
      (budget ≠ 0 → s.removalQueue.entries ≠ [] → drainWork s' < drainWork s) := by
  induction h with
  | spent => exact ⟨le_rfl, fun hbudget => absurd rfl hbudget⟩
  | idle _ idle =>
    refine ⟨le_rfl, fun _ hne => ?_⟩
    obtain ⟨id, hfirst⟩ := firstPendingRemoval_isSome hs hne
    cases idle.symm.trans hfirst
  | @paused budget s id left first more =>
    have hwork := drain_work (firstPendingRemoval_pending hs first) budget
    have hpos := drain_pos left more
    exact ⟨by omega, fun _ _ => by omega⟩
  | @retired budget s s' id left first empty rest ih =>
    have hpending := firstPendingRemoval_pending hs first
    have hwork := drain_work hpending budget
    have hdequeue : drainWork (dequeueRemoval (drainInstitutionRanged s id budget).2 id) <
        drainWork (drainInstitutionRanged s id budget).2 := dequeue_work hpending
    have hrest := (ih (WellQueued.dequeue (s := (drainInstitutionRanged s id budget).2) hs id)).1
    -- the entry that left the queue is progress, however little was drained
    exact ⟨by omega, fun _ _ => by omega⟩

/-- An id leaves the queue when nothing of it is left. -/
theorem Sweeping.rangedEmpty (h : Sweeping budget s s') (hs : WellQueued s)
    (hbefore : s.hasPendingRemoval id = true) (hafter : s'.hasPendingRemoval id = false) :
    institutionRangedEmpty s' id = true := by
  induction h with
  | spent | idle | paused => cases hbefore.symm.trans hafter
  | @retired budget s s' id' left first empty rest ih =>
    have hqueued := WellQueued.dequeue (s := (drainInstitutionRanged s id' budget).2) hs id'
    by_cases hid : id' = id
    · subst hid
      exact (rest.swept hqueued).rangedEmpty empty
    · refine ih hqueued ?_ hafter
      exact OrdMap.has_erase.2 ⟨fun hkey => hid (removalQueueKey_inj hkey), hbefore⟩

end Outcome

end PhiChain.Institutions
