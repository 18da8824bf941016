import Mathlib.Data.List.Dedup
import Mathlib.Data.Prod.Lex
import PhiChain.Governance.Types

/-!
# Governance: the running tally

Ballots of the public route are folded into stored aggregates as they are cast: a
count per option, the turnout, and for each voter the option counted last, so that a
changed ballot retracts its previous contribution. Once a proposal is finished its
records are deleted in instalments: the per-voter records first, and the aggregates
in a later call that finds no per-voter record left.

`turnoutWithinFrozenBasisInvariant` compares the aggregates with the per-voter records
and with the frozen electorate; a verdict other than `none` halts the chain.
-/

set_option autoImplicit false

namespace PhiChain.Governance

open Foundations Sdk

/-- Key of the count of one option. -/
structure TallyCountKey where
  proposal : Nat
  option : Byte
  deriving DecidableEq

instance : LinearOrder TallyCountKey :=
  LinearOrder.lift' (fun k => toLex (k.proposal, k.option)) (by
    rintro ⟨p, o⟩ ⟨p', o'⟩ h
    obtain ⟨rfl, rfl⟩ := Prod.mk.inj (toLex_inj.1 h)
    rfl)

/-- Key of what one voter contributed. -/
structure CountedVoteKey where
  proposal : Nat
  voter : Bytes
  deriving DecidableEq

instance : LinearOrder CountedVoteKey :=
  LinearOrder.lift' (fun k => toLex (k.proposal, k.voter)) (by
    rintro ⟨p, v⟩ ⟨p', v'⟩ h
    obtain ⟨rfl, rfl⟩ := Prod.mk.inj (toLex_inj.1 h)
    rfl)

/-- Eligibility basis of a proposal, taken once when its voting starts. -/
structure FrozenEligibility where
  denominator : Nat
  cutoff : Int
  frozenAt : Int
  deriving DecidableEq

/-- The keyspaces of x/governance. -/
structure Store where
  params : Params
  tallyCounts : OrdMap TallyCountKey Nat
  tallyTurnout : OrdMap Nat Nat
  countedVotes : OrdMap CountedVoteKey Byte
  eligibility : OrdMap Nat FrozenEligibility
  pruneQueue : OrdMap Nat Unit

/-- A store without tally state. -/
def Store.fresh : Store := ⟨defaultParams, ∅, ∅, ∅, ∅, ∅⟩

/-- Recorded for a voter turned away when the ballot was cast. -/
def ineligibleVoteMarker : Byte := 0xFF

structure RunningTally where
  counts : List (Byte × Nat)
  turnout : Nat

def sumCounts (t : RunningTally) : Nat := (t.counts.map Prod.snd).sum

/-- Sum of a counter and a signed change, not below zero. -/
def applyDelta (cur : Nat) (delta : Int) : Nat :=
  if delta < 0 then if cur < delta.natAbs then 0 else cur - delta.natAbs
  else cur + delta.natAbs

namespace Store

def setParams (s : Store) (p : Params) : Result Store := do
  p.validate
  return { s with params := p }

def optionCount (s : Store) (proposalID : Nat) (option : Byte) : Nat :=
  s.tallyCounts.getD ⟨proposalID, option⟩ 0

def turnout (s : Store) (proposalID : Nat) : Nat := s.tallyTurnout.getD proposalID 0

def getRunningTally (s : Store) (proposalID : Nat) : RunningTally where
  counts := (s.tallyCounts.entries.filter fun e => e.1.proposal = proposalID).map
    fun e => (e.1.option, e.2)
  turnout := s.turnout proposalID

def addOptionCount (s : Store) (proposalID : Nat) (option : Byte) (delta : Int) : Store :=
  { s with tallyCounts :=
      s.tallyCounts.put ⟨proposalID, option⟩ (applyDelta (s.optionCount proposalID option) delta) }

def addTurnout (s : Store) (proposalID : Nat) (delta : Int) : Store :=
  { s with tallyTurnout :=
      s.tallyTurnout.put proposalID (applyDelta (s.turnout proposalID) delta) }

def getCountedVote (s : Store) (proposalID : Nat) (voter : Bytes) : Option Byte :=
  s.countedVotes.get? ⟨proposalID, voter⟩

def setCountedVote (s : Store) (proposalID : Nat) (voter : Bytes) (marker : Byte) : Store :=
  { s with countedVotes := s.countedVotes.put ⟨proposalID, voter⟩ marker }

/-- Fold one ballot into the running tally; the flag says whether it was counted. -/
def recordVote (s : Store) (proposalID : Nat) (voter : Bytes) (option : Byte) (eligible : Bool) :
    Bool × Store :=
  match s.getCountedVote proposalID voter with
  | some prev =>
    if prev = ineligibleVoteMarker then (false, s)
    else if prev = option then (true, s)
    else
      let s := s.addOptionCount proposalID prev (-1)
      let s := s.addOptionCount proposalID option 1
      (true, s.setCountedVote proposalID voter option)
  | none =>
    if eligible then
      let s := s.addTurnout proposalID 1
      let s := s.addOptionCount proposalID option 1
      (true, s.setCountedVote proposalID voter option)
    else (false, s.setCountedVote proposalID voter ineligibleVoteMarker)

/-- Proposals that hold tally state, in ascending order. -/
def talliedProposalIDs (s : Store) : List Nat :=
  (s.eligibility.entries.map Prod.fst ++ s.tallyTurnout.entries.map Prod.fst ++
    s.countedVotes.entries.map (fun e => e.1.proposal) ++
    s.tallyCounts.entries.map (fun e => e.1.proposal)).dedup.insertionSort (· ≤ ·)

def enqueueForPruning (s : Store) (proposalID : Nat) : Store :=
  { s with pruneQueue := s.pruneQueue.put proposalID () }

def isQueuedForPruning (s : Store) (proposalID : Nat) : Bool := s.pruneQueue.has proposalID

/-- Keys of the votes recorded for a proposal. -/
def countedVoteKeys (s : Store) (proposalID : Nat) : List CountedVoteKey :=
  s.countedVotes.keysWhere fun k => k.proposal = proposalID

def tallyCountKeys (s : Store) (proposalID : Nat) : List TallyCountKey :=
  s.tallyCounts.keysWhere fun k => k.proposal = proposalID

/-- Delete a batch of recorded votes. -/
def eraseVotes (s : Store) (batch : List CountedVoteKey) : Store :=
  { s with countedVotes := s.countedVotes.eraseAll batch }

/-- Drop a proposal's aggregates and take it off the queue. -/
def dropAggregates (s : Store) (proposalID : Nat) : Store :=
  { s with
    tallyCounts := s.tallyCounts.eraseAll (s.tallyCountKeys proposalID)
    tallyTurnout := s.tallyTurnout.erase proposalID
    eligibility := s.eligibility.erase proposalID
    pruneQueue := s.pruneQueue.erase proposalID }

/-- The pruner's loop over the queued proposals, with the number of deletions so far. -/
def pruneLoop (budget : Nat) : List Nat → Nat × Store → Nat × Store
  | [], acc => acc
  | proposalID :: rest, (deleted, s) =>
    if budget ≤ deleted then (deleted, s)
    else
      let batch := (s.countedVoteKeys proposalID).take (budget - deleted)
      if 0 < batch.length then
        -- more may remain for this proposal, so its aggregates stay
        pruneLoop budget rest (deleted + batch.length, s.eraseVotes batch)
      else
        pruneLoop budget rest
          (deleted + (s.tallyCountKeys proposalID).length + 1, s.dropAggregates proposalID)

/-- Delete records of queued proposals within a budget; also the number counted as deleted. -/
def pruneStep (s : Store) (budget : Int) : Nat × Store :=
  if budget ≤ 0 then (0, s)
  else pruneLoop budget.toNat (s.pruneQueue.entries.map Prod.fst) (0, s)

/-! ## The registered invariant -/

/-- Number of a proposal's voters recorded as counted. -/
def countedBallots (s : Store) (proposalID : Nat) : Nat :=
  s.countedVotes.total fun k marker =>
    if k.proposal = proposalID ∧ marker ≠ ineligibleVoteMarker then 1 else 0

/-- What the invariant reports about one proposal. -/
def checkTurnout (s : Store) (proposalID : Nat) : Option String :=
  let running := s.getRunningTally proposalID
  let counted := s.countedBallots proposalID
  let turnout := running.turnout
  match s.eligibility.get? proposalID with
  | none =>
    if counted = 0 ∧ turnout = 0 ∧ sumCounts running = 0 then none
    else some s!"proposal {proposalID} holds {counted} counted ballot(s) and turnout {turnout} with NO frozen eligibility basis"
  | some basis =>
    let denominator := basis.denominator
    let total := sumCounts running
    if denominator < turnout then
      some s!"proposal {proposalID} turnout {turnout} exceeds its frozen denominator {denominator}"
    else if total ≠ turnout then
      some s!"proposal {proposalID} per-option counts sum to {total} but turnout is {turnout}"
    else if counted ≠ turnout then
      some s!"proposal {proposalID} records {counted} counted ballot(s) but turnout is {turnout}"
    else none

/-- First report over the proposals with tally state; `none` is "not broken". -/
def turnoutWithinFrozenBasisInvariant (s : Store) : Option String :=
  s.talliedProposalIDs.findSome? s.checkTurnout

end Store

end PhiChain.Governance
