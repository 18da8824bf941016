import PhiChain.App.Upkeep

/-!
# A removed institution leaves no authority behind

No handler writes a ranged record for an id that is not registered, an id leaves the removal
queue only when nothing of it is left, and registration waits for the queue. So a new
institution starts with no role, approval or KYC tier of an earlier one
(`removal_leaves_no_authority`).

`drainWork` is the measure of the sweeps: no step but a removal raises it, and every start of a
block lowers it until it is zero.
-/

set_option autoImplicit false

namespace PhiChain.App

open Foundations Sdk Institutions

variable {D : Type} [LinearOrder D] {k : Keeper D} {ctx : Ctx} {op : Op} {s s' : Store D}

/-- No role grant, approval or KYC tier of an id. -/
structure HoldsNothing (s : Store D) (id : Bytes) : Prop where
  roles : ∀ key role, s.roles.get? key = some role → key.institution ≠ id
  approvals : ∀ key stamp, s.approvals.get? key = some stamp → key.institution ≠ id
  kycTiers : ∀ key tier, s.kycTiers.get? key = some tier → key.institution ≠ id

variable {id : Bytes} {w : World D}

theorem holdsNothing_iff : HoldsNothing s id ↔ institutionRangedEmpty s id = true := by
  rw [institutionRangedEmpty_iff]
  exact ⟨fun h => ⟨h.roles, h.approvals, h.kycTiers⟩, fun ⟨hr, ha, hk⟩ => ⟨hr, ha, hk⟩⟩

/-- An id that is neither registered nor draining has no ranged record. -/
theorem Kept.holdsNothing (hs : Kept s) (hfree : ¬ Owned s id) :
    HoldsNothing s id where
  roles key role hkey hid := hfree (hid ▸ (hs.roles key role hkey).1)
  approvals key stamp hkey hid := hfree (hid ▸ hs.approvals key (OrdMap.has_iff.2 ⟨stamp, hkey⟩))
  kycTiers key tier hkey hid := hfree (hid ▸ hs.kycTiers key (OrdMap.has_iff.2 ⟨tier, hkey⟩))

theorem not_owned (hfresh : s.institutions.has id = false)
    (hidle : s.hasPendingRemoval id = false) : ¬ Owned s id := by
  rintro (hreg | hpending)
  · exact Bool.eq_false_iff.1 hfresh hreg
  · exact Bool.eq_false_iff.1 hidle hpending

/-- Registration finds no ranged record of the id and writes none. -/
theorem register_holdsNothing {w' : World D} {msg : MsgRegisterInstitution}
    {hrunning : Action.register msg ≠ .restart} (hw : Kept w.inst)
    (h : perform k ctx w (.deliver (.register msg) hrunning) = .ok w') :
    msg.id.length ≤ maxInstitutionIDLen ∧ HoldsNothing w.inst msg.id ∧
      HoldsNothing w'.inst msg.id := by
  simp only [perform, apply, onInstitutions, bind_eq_ok, pure_eq_ok] at h
  obtain ⟨⟨⟩, -, s, hregister, rfl⟩ := h
  obtain ⟨hlen, hfresh, hidle, rfl⟩ := registerInstitution_ok hregister
  have hnone := hw.holdsNothing (not_owned hfresh hidle)
  exact ⟨hlen, hnone, hnone.roles, hnone.approvals, hnone.kycTiers⟩

/-! ## The sweeps catch up -/

def Op.isRemoval : Op → Bool
  | .deliver (.remove _) _ => true
  | _ => false

def Op.isBlockStart : Op → Bool
  | .deliver .beginBlock _ => true
  | _ => false

/-- Starts of blocks in a run. -/
def blockStarts (ops : List (Ctx × Op)) : Nat := ops.countP fun op => op.2.isBlockStart

/-- Without a removal no id enters the queue. -/
theorem pending_of_change (h : Change ctx op s s') (hs : Kept s) (hop : op.isRemoval = false)
    {key : Bytes} (hkey : s'.removalQueue.has key = true) : s.removalQueue.has key = true := by
  rcases queue_of_change h hs.queued hkey with hold | ⟨⟨msg, hrunning, rfl⟩, -⟩
  · exact hold
  · cases hop

theorem drainWork_le (h : Change ctx op s s') (hs : Kept s) (hop : op.isRemoval = false) :
    drainWork s' ≤ drainWork s := by
  have hpending : ∀ id, s'.hasPendingRemoval id = true → s.hasPendingRemoval id = true :=
    fun id => pending_of_change h hs hop
  -- what a step writes belongs to a registered id, and that is not queued
  have hidle : ∀ id, s.hasPendingRemoval id = true → (s.getInstitution id).isSome = true → False := by
    intro id hqueued hreg
    obtain ⟨inst, hinst⟩ := Option.isSome_iff_exists.1 hreg
    exact Bool.eq_false_iff.1 (hs.exclusive id inst hinst) hqueued
  have hroles : (s'.roles.keysWhere fun key => s'.hasPendingRemoval key.institution).length ≤
      (s.roles.keysWhere fun key => s.hasPendingRemoval key.institution).length := by
    refine OrdMap.length_keysWhere_le fun key hqueued hkey => ⟨hpending _ hqueued, ?_⟩
    obtain ⟨role, hrole⟩ := OrdMap.has_iff.1 hkey
    rcases role_of_change h hs.queued hrole with hold | ⟨hreg, -⟩
    · exact OrdMap.has_iff.2 ⟨role, hold⟩
    · exact (hidle _ (hpending _ hqueued) hreg).elim
  have happrovals :
      (s'.approvals.keysWhere fun key => s'.hasPendingRemoval key.institution).length ≤
        (s.approvals.keysWhere fun key => s.hasPendingRemoval key.institution).length := by
    refine OrdMap.length_keysWhere_le fun key hqueued hkey => ⟨hpending _ hqueued, ?_⟩
    exact (approval_of_change h hs.queued hkey).resolve_right (hidle _ (hpending _ hqueued))
  have hkyc : (s'.kycTiers.keysWhere fun key => s'.hasPendingRemoval key.institution).length ≤
      (s.kycTiers.keysWhere fun key => s.hasPendingRemoval key.institution).length := by
    refine OrdMap.length_keysWhere_le fun key hqueued hkey => ⟨hpending _ hqueued, ?_⟩
    exact (kycTier_of_change h hs.queued hkey).resolve_right (hidle _ (hpending _ hqueued))
  have hqueue : s'.removalQueue.entries.length ≤ s.removalQueue.entries.length := by
    rw [← OrdMap.length_keysWhere_true, ← OrdMap.length_keysWhere_true]
    exact OrdMap.length_keysWhere_le fun key _ hkey => ⟨rfl, pending_of_change h hs hop hkey⟩
  unfold drainWork
  omega

theorem drainWork_eq_zero (h : s.removalQueue.entries = []) : drainWork s = 0 := by
  have hidle : ∀ id, s.hasPendingRemoval id = false := by
    intro id
    have hnone : s.removalQueue.get? (removalQueueKey id) = none := by
      unfold OrdMap.get?
      rw [h]
      rfl
    exact OrdMap.has_eq_false.2 hnone
  simp [drainWork, hidle, h, OrdMap.keysWhere]

/-- The start of a block does some of the work, if there is any. -/
theorem drainWork_beginBlock (ctx : Ctx) (hs : Kept s) :
    drainWork (Institutions.beginBlock ctx s) ≤ drainWork s - 1 := by
  have hsame : drainWork (pruneStaleCounters ctx s) = drainWork s := by
    obtain ⟨counters, subjects, cursor, hframe⟩ := pruneStaleCounters_frame ctx s
    rw [hframe]
    rfl
  have hsweep := sweeping_beginBlock ctx s
  have hqueued : WellQueued (pruneStaleCounters ctx s) := wellQueued_pruned hs.queued
  by_cases hempty : (pruneStaleCounters ctx s).removalQueue.entries = []
  · have hle := (hsweep.work hqueued).1
    have hzero := drainWork_eq_zero hempty
    omega
  · have hlt := (hsweep.work hqueued).2 (by decide) hempty
    omega

theorem drainWork_advance (hw : Kept w.inst) {op : Ctx × Op}
    (hop : op.2.isRemoval = false) : drainWork (advance k w op).inst ≤
      drainWork w.inst - if op.2.isBlockStart then 1 else 0 := by
  obtain ⟨ctx, op⟩ := op
  by_cases hblock : op.isBlockStart = true
  · -- the start of a block does not fail
    cases op with
    | assignKycTier => cases hblock
    | deliver a hrunning =>
      cases a with
      | beginBlock =>
        rw [if_pos hblock]
        exact drainWork_beginBlock ctx hw
      | mint | redeem | register | remove | freeze | attest | updateParams | setEmergency |
        requestFx | guaranteeFx | finalizeFx | sensitive | transfer | deductFee |
        withdrawRevenue | updateCoinParams | slash | govBurn | restart => cases hblock
  · rw [if_neg hblock, Nat.sub_zero]
    rcases advance_cases k w (ctx, op) with hsame | hdone
    · rw [hsame]
    · exact drainWork_le (change_of_perform hdone) hw hop

theorem drainWork_run (hw : Kept w.inst) {ops : List (Ctx × Op)}
    (hops : ∀ op ∈ ops, op.2.isRemoval = false) :
    drainWork (run (advance k) w ops).inst ≤ drainWork w.inst - blockStarts ops := by
  induction ops generalizing w with
  | nil => exact le_rfl
  | cons op rest ih =>
    have hfirst := drainWork_advance (k := k) hw (hops op List.mem_cons_self)
    have hkept : Kept (advance k w op).inst := run_kept k hw [op]
    have hrest := ih hkept fun op' hmem => hops op' (List.mem_cons_of_mem op hmem)
    have hcount : blockStarts (op :: rest) =
        blockStarts rest + if op.2.isBlockStart then 1 else 0 := List.countP_cons
    rw [run]
    omega

/-- An id leaves the queue in a state that holds nothing of it. -/
theorem holdsNothing_of_retired (h : Change ctx op s s') (hs : Kept s)
    (hbefore : s.hasPendingRemoval id = true) (hafter : s'.hasPendingRemoval id = false) :
    HoldsNothing s' id := by
  rw [holdsNothing_iff]
  by_contra hleft
  -- something left means that the id is registered now, although it was queued before
  rcases hs.step_owned h (.inr hbefore) hleft with hreg | hpending
  · obtain ⟨inst, hinst⟩ := Option.isSome_iff_exists.1 hreg
    cases hbefore.symm.trans (hs.idle_of_step h hinst)
  · cases hafter.symm.trans hpending

/-- With as many block starts as there is work, every queued id leaves the queue. -/
theorem retired_of_blocks (hw : Kept w.inst) {ops : List (Ctx × Op)}
    (hops : ∀ op ∈ ops, op.2.isRemoval = false) (hblocks : drainWork w.inst ≤ blockStarts ops)
    (hid : w.inst.hasPendingRemoval id = true) : ∃ before after,
      ops = before ++ after ∧ (run (advance k) w before).inst.hasPendingRemoval id = false ∧
        HoldsNothing (run (advance k) w before).inst id := by
  have hwork := drainWork_run (k := k) hw hops
  have hempty : (run (advance k) w ops).inst.removalQueue.entries = [] := by
    refine List.eq_nil_of_length_eq_zero ?_
    have hle : (run (advance k) w ops).inst.removalQueue.entries.length ≤
        drainWork (run (advance k) w ops).inst := Nat.le_add_left _ _
    omega
  have hgone : (run (advance k) w ops).inst.hasPendingRemoval id = false := by
    refine OrdMap.has_eq_false.2 ?_
    unfold OrdMap.get?
    rw [hempty]
    rfl
  obtain ⟨before, op, after, rfl, hstill, hturned⟩ := exists_turning_step
    (p := fun w' : World D => w'.inst.hasPendingRemoval id = false) (by simp [hid]) hgone
  refine ⟨before ++ [op], after, by simp, ?_⟩
  rw [run_append]
  refine ⟨hturned, ?_⟩
  have hkept := run_kept k hw before
  have hpending : (run (advance k) w before).inst.hasPendingRemoval id = true :=
    Bool.not_eq_false _ ▸ hstill
  -- a failed step changes nothing, so the turning step took effect
  rcases advance_cases k (run (advance k) w before) op with hsame | hdone
  · rw [hsame] at hturned
    cases hpending.symm.trans hturned
  · exact holdsNothing_of_retired (change_of_perform hdone) hkept hpending hturned

/-! ## The life cycle of an id -/

/-- Over every run from the default genesis: a registration finds and leaves no role grant,
approval or KYC tier of its id. The sweep of a block deletes ranged records of queued ids and
queue entries only, at most one more than its budget, and its loop ends in one store. Every
queued id is drained once as many blocks have started as there is work, unless more is removed
in between. -/
theorem removal_leaves_no_authority (k : Keeper D) (bank : Bank) (coin : Coin.Store)
    (ops : List (Ctx × Op)) :
    let w := run (advance k) (startWorld bank coin) ops
    (∀ ctx msg hrunning w', perform k ctx w (.deliver (.register msg) hrunning) = .ok w' →
        msg.id.length ≤ maxInstitutionIDLen ∧ HoldsNothing w.inst msg.id ∧
          HoldsNothing w'.inst msg.id) ∧
      (∀ ctx, Swept (pruneStaleCounters ctx w.inst) (Institutions.beginBlock ctx w.inst) ∧
        footprint (pruneStaleCounters ctx w.inst) ≤
          footprint (Institutions.beginBlock ctx w.inst) + (removalPruneBudget + 1) ∧
        ∀ s', Sweeping removalPruneBudget (pruneStaleCounters ctx w.inst) s' ↔
          s' = Institutions.beginBlock ctx w.inst) ∧
      ∀ more, (∀ op ∈ more, op.2.isRemoval = false) → drainWork w.inst ≤ blockStarts more →
        ∀ id, w.inst.hasPendingRemoval id = true → ∃ before after, more = before ++ after ∧
          (run (advance k) w before).inst.hasPendingRemoval id = false ∧
          HoldsNothing (run (advance k) w before).inst id := by
  intro w
  have hkept : Kept w.inst := run_kept k kept_fresh ops
  refine ⟨?_, ?_, ?_⟩
  · intro ctx msg hrunning w' h
    exact register_holdsNothing hkept h
  · intro ctx
    have hsweep := sweeping_beginBlock ctx w.inst
    have hqueued : WellQueued (pruneStaleCounters ctx w.inst) := wellQueued_pruned hkept.queued
    exact ⟨hsweep.swept hqueued, hsweep.footprint_le hqueued, sweeping_iff _⟩
  · intro more hmore hblocks id hid
    exact retired_of_blocks hkept hmore hblocks hid

/-- A holder has a KYC tier when the institution is removed; two blocks drain it. -/
theorem removal_leaves_no_authority_small :
    (∃ w', perform govKeeper (smallCtx 1) emptyStart (registerSmall (accAddressString [1])) = .ok w' ∧
        HoldsNothing w'.inst (ascii "a")) ∧
      let w := run (advance govKeeper) emptyStart [(smallCtx 1, registerSmall (accAddressString [1])),
        (smallCtx 1, .assignKycTier (ascii "a") [2] 1), (smallCtx 1, removeSmall)]
      w.inst.hasPendingRemoval (ascii "a") = true ∧ drainWork w.inst = 2 ∧
        ∃ before after, [(smallCtx 2, startBlock), (smallCtx 3, startBlock)] = before ++ after ∧
          HoldsNothing (run (advance govKeeper) w before).inst (ascii "a") := by
  refine ⟨?_, ?_⟩
  · have haccepted : isOk (perform govKeeper (smallCtx 1) emptyStart
        (registerSmall (accAddressString [1]))) = true := by decide +kernel
    obtain ⟨w', hw'⟩ := isOk_iff.1 haccepted
    have hfirst := (removal_leaves_no_authority govKeeper ⟨∅, ∅⟩ ⟨Coin.defaultParams, ∅, ∅⟩ []).1
    exact ⟨w', hw', (hfirst (smallCtx 1) _ _ w' hw').2.2⟩
  · intro w
    have hpending : w.inst.hasPendingRemoval (ascii "a") = true := by decide +kernel
    have hwork : drainWork w.inst = 2 := by decide +kernel
    have hdrained := (removal_leaves_no_authority govKeeper ⟨∅, ∅⟩ ⟨Coin.defaultParams, ∅, ∅⟩
      [(smallCtx 1, registerSmall (accAddressString [1])),
        (smallCtx 1, .assignKycTier (ascii "a") [2] 1), (smallCtx 1, removeSmall)]).2.2
    obtain ⟨before, after, hsplit, -, hnothing⟩ := hdrained
      [(smallCtx 2, startBlock), (smallCtx 3, startBlock)] (by decide) hwork.le (ascii "a") hpending
    exact ⟨hpending, hwork, before, after, hsplit, hnothing⟩

end PhiChain.App
