import PhiChain.Institutions.Lifecycle

/-!
# Institutions: block hooks

`BeginBlock` runs two sweeps over x/institutions: `pruneStaleCounters` deletes cap
counters of past days, and `sweepRemovals` drains the ranged records (roles,
approvals, KYC tiers) of institutions queued for removal. Both work under a
per-block budget and resume where they stopped. `EndBlock` halts the node when a
registered invariant is broken.
-/

set_option autoImplicit false

namespace PhiChain.Institutions

open Foundations Sdk

variable {D : Type} [LinearOrder D]

/-! ## Removal sweep -/

def removalPruneBudget : Nat := 512

def firstPendingRemoval (s : Store D) : Option Bytes :=
  match s.removalQueue.entries with
  | [] => none
  | e :: _ => parseRemovalQueueKey e.1

/-- Delete up to `budget` ranged records of an institution: roles, then approvals, then
KYC tiers. Returns how many were deleted. -/
def drainInstitutionRanged (s : Store D) (id : Bytes) (budget : Nat) : Nat × Store D :=
  let roleKeys := (s.roles.keysWhere fun k => k.institution = id).take budget
  let approvalKeys :=
    (s.approvals.keysWhere fun k => k.institution = id).take (budget - roleKeys.length)
  let kycKeys := (s.kycTiers.keysWhere fun k => k.institution = id).take
    (budget - roleKeys.length - approvalKeys.length)
  (roleKeys.length + approvalKeys.length + kycKeys.length,
    { s with
      roles := s.roles.eraseAll roleKeys
      approvals := s.approvals.eraseAll approvalKeys
      kycTiers := s.kycTiers.eraseAll kycKeys })

def institutionRangedEmpty (s : Store D) (id : Bytes) : Bool :=
  (s.roles.keysWhere fun k => k.institution = id).isEmpty &&
    (s.approvals.keysWhere fun k => k.institution = id).isEmpty &&
    (s.kycTiers.keysWhere fun k => k.institution = id).isEmpty

/-- Drain queued institutions in key order. Retiring a queue entry costs one unit of
budget, so as many rounds as the budget are enough. -/
def sweepLoop : Nat → Nat → Store D → Store D
  | 0, _, s => s
  | rounds + 1, budget, s =>
    if budget = 0 then s
    else
      match firstPendingRemoval s with
      | none => s
      | some id =>
        let drained := drainInstitutionRanged s id budget
        if institutionRangedEmpty drained.2 id then
          sweepLoop rounds (budget - drained.1 - 1) (dequeueRemoval drained.2 id)
        else drained.2

def sweepRemovals (s : Store D) : Store D := sweepLoop removalPruneBudget removalPruneBudget s

/-! ## Counter pruning -/

def counterRetentionDays : Int := 2

def counterPruneBudget : Nat := 256

def isPrunableCounterKind (kind : Bytes) : Bool :=
  kind = kindMintDaily ∨ kind = kindMintUser ∨ kind = kindRedeemDaily ∨ kind = kindRedeemUser

/-- Signed reading of eight big-endian bytes. -/
def ofI64be (b : Bytes) : Int :=
  if ofBigEndian b < 2 ^ 63 then ofBigEndian b else (ofBigEndian b : Int) - 2 ^ 64

/-- A field behind its one-byte length, and what follows it. -/
def takeByteField : Bytes → Option (Bytes × Bytes)
  | [] => none
  | l :: rest => if l.val ≤ rest.length then some (rest.take l.val, rest.drop l.val) else none

/-- Kind and day of a counter key. -/
def parseCounterKeyDay (key : Bytes) : Option (Bytes × Int) :=
  match key with
  | [] => none
  | p :: rest =>
    if p = 0x40 then do
      let (_, rest) ← takeByteField rest
      let (kind, rest) ← takeByteField rest
      if 8 ≤ rest.length then some (kind, ofI64be (rest.take 8)) else none
    else none

/-- Whether the sweep may delete a counter key. -/
def isStaleCounter (staleBefore : Int) (key : Bytes) : Bool :=
  match parseCounterKeyDay key with
  | some (kind, day) => isPrunableCounterKind kind ∧ day < staleBefore
  | none => false

def pruneRedeemSubjectCounters (staleBefore : Int) (s : Store D) : Store D :=
  let bound := (0x80 : Byte) :: i64be staleBefore
  let stale := (s.redeemSubjects.keysWhere fun key => key < bound).take counterPruneBudget
  { s with redeemSubjects := s.redeemSubjects.eraseAll stale }

/-- One step of the ring sweep over the cap counters, from behind the cursor. -/
def pruneCounterPrefix (staleBefore : Int) (s : Store D) : Store D :=
  let start :=
    match s.pruneCursor with
    | some cursor => if cursor = [] then [(0x40 : Byte)] else cursor ++ [0x00]
    | none => [(0x40 : Byte)]
  let upcoming := s.counters.keysWhere fun key => start ≤ key
  let examined := upcoming.take counterPruneBudget
  { s with
    counters := s.counters.eraseAll (examined.filter (isStaleCounter staleBefore))
    pruneCursor := if upcoming.length ≤ counterPruneBudget then none else examined.getLast? }

def pruneStaleCounters (ctx : Ctx) (s : Store D) : Store D :=
  let staleBefore := ctx.dayIndex - counterRetentionDays
  if staleBefore ≤ 0 then s
  else pruneCounterPrefix staleBefore (pruneRedeemSubjectCounters staleBefore s)

/-! ## Hooks -/

def beginBlock (ctx : Ctx) (s : Store D) : Store D := sweepRemovals (pruneStaleCounters ctx s)

/-- The removal sweep works on ranged records and its queue. -/
theorem sweepLoop_frame (rounds budget : Nat) (s : Store D) :
    ∃ roles approvals kycTiers queue, sweepLoop rounds budget s =
      { s with
        roles := roles
        approvals := approvals
        kycTiers := kycTiers
        removalQueue := queue } := by
  induction rounds generalizing budget s with
  | zero => exact ⟨_, _, _, _, rfl⟩
  | succ rounds ih =>
    unfold sweepLoop
    split
    · exact ⟨_, _, _, _, rfl⟩
    · split
      · exact ⟨_, _, _, _, rfl⟩
      · dsimp only
        split
        · obtain ⟨roles, approvals, kycTiers, queue, hrest⟩ := ih _ _
          rw [hrest]
          exact ⟨roles, approvals, kycTiers, queue, rfl⟩
        · exact ⟨_, _, _, _, rfl⟩

theorem beginBlock_frame (ctx : Ctx) (s : Store D) :
    ∃ roles approvals kycTiers queue, beginBlock ctx s =
      { pruneStaleCounters ctx s with
        roles := roles
        approvals := approvals
        kycTiers := kycTiers
        removalQueue := queue } := sweepLoop_frame _ _ _

/-- The counter sweep works on its two keyspaces and its cursor. -/
theorem pruneStaleCounters_frame (ctx : Ctx) (s : Store D) :
    ∃ counters redeemSubjects cursor, pruneStaleCounters ctx s =
      { s with
        counters := counters
        redeemSubjects := redeemSubjects
        pruneCursor := cursor } := by
  unfold pruneStaleCounters
  dsimp only
  split
  · exact ⟨_, _, _, rfl⟩
  · exact ⟨_, _, _, rfl⟩

/-- The keyspaces that no block sweep writes. -/
theorem beginBlock_keeps (ctx : Ctx) (s : Store D) :
    (beginBlock ctx s).params = s.params ∧ (beginBlock ctx s).institutions = s.institutions ∧
      (beginBlock ctx s).deposits = s.deposits ∧ (beginBlock ctx s).fxRequests = s.fxRequests ∧
      (beginBlock ctx s).lastAttestors = s.lastAttestors := by
  obtain ⟨roles, approvals, kycTiers, queue, hframe⟩ := beginBlock_frame ctx s
  obtain ⟨counters, redeemSubjects, cursor, hprune⟩ := pruneStaleCounters_frame ctx s
  rw [hframe, hprune]
  exact ⟨rfl, rfl, rfl, rfl, rfl⟩

/-- The halting invariants: global solvency, then non-negative vaults. -/
def allInvariants (w : World D) : Result Unit := do
  let holds ← w.solvencyInvariant
  ensure (holds = true) ⟨.unregistered, "solvency"⟩
  ensure (∀ e ∈ w.inst.institutions.records.entries, 0 ≤ e.2.vaultBalance)
    ⟨.unregistered, "non-negative-vault"⟩

/-- A broken invariant panics, and the block is not committed. -/
def endBlock (w : World D) : Result Unit := allInvariants w

end PhiChain.Institutions
