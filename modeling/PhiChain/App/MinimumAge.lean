import PhiChain.App.FrozenBasis
import PhiChain.Identity.AgeScan

/-!
# Raising the minimum age

The minimum age of a document is a parameter in seconds. It is turned into a duration, which
counts nanoseconds in 64 bits, and taken off the start of the voting to give the cutoff of a
basis. `age_shrinks_iff` says when a larger age gives a smaller electorate in every state
and for every start: when the durations are in the same order as the ages. Up to 9223372036
seconds they are; `age_enlarges` has two accepted ages of which the larger one is wrapped to
a negative duration, so that its cutoff lies in the future.
-/

set_option autoImplicit false

namespace PhiChain.FrozenBasis

open Foundations Sdk
open Governance (FrozenEligibility VoteCtx ValidatorGovInfo takeBasis Proposal)
open Identity (Directory secondsAsDuration)

/-- Unix time of the start of the voting, in nanoseconds, less the minimum age. -/
def startCutoff (s : Identity.Store) (votingStart : Int) : Int :=
  (votingStart + int64 (-secondsAsDuration s.params.minIdentityAgeSeconds)) / 1000000000

/-- The basis that is frozen for a proposal; the start of its voting is in nanoseconds. -/
def frozenBasis (s : Identity.Store) (votingStart : Option Int) (now : Int) : FrozenEligibility :=
  let cutoff :=
    match votingStart with
    | none => 0
    | some start => startCutoff s start
  { denominator := s.directory.countEligibleControllersAt cutoff 0
    cutoff := cutoff
    frozenAt := now }

/-- For a start in whole seconds it is the basis that the vote hooks take. -/
theorem takeBasis_eq_frozenBasis (s : Identity.Store) (now : Int) (isOperator : Bytes → Bool)
    (validators : OrdMap Bytes ValidatorGovInfo) (p : Proposal) :
    takeBasis ⟨now, identitySource s, isOperator, validators⟩ p =
      frozenBasis s (p.votingStart.map fun start => start * 1000000000) now := by
  cases hstart : p.votingStart with
  | none =>
    simp only [takeBasis, frozenBasis, hstart, Option.map_none]
    rfl
  | some start =>
    have hcutoff : start - s.minIdentityAge = startCutoff s (start * 1000000000) := by
      rw [Identity.Store.minIdentityAge, startCutoff]
      omega
    simp only [takeBasis, frozenBasis, identitySource, hstart, Option.map_some, hcutoff]

/-- Whether a controller passes the test of a basis. -/
def eligibleUnder (s : Identity.Store) (basis : FrozenEligibility) (c : Bytes) : Bool :=
  s.directory.isEligibleControllerSince c basis.cutoff 0 basis.frozenAt

/-- In every state with a mirror in order and for every start of the voting, the second
parameters give a basis with no more controllers and no larger denominator than the first. -/
def Shrinks (before after : Identity.Params) : Prop :=
  ∀ s : Identity.Store, s.directory.Mirrored → ∀ (votingStart : Option Int) (now : Int),
    let larger := frozenBasis { s with params := before } votingStart now
    let smaller := frozenBasis { s with params := after } votingStart now
    (∀ c, eligibleUnder s smaller c = true → eligibleUnder s larger c = true) ∧
      smaller.denominator ≤ larger.denominator

/-! ## The cutoff decides -/

section Cutoff

variable {dir : Directory} {cutoff cutoff' : Int}

/-- A later cutoff ends the scan earlier. -/
theorem countNewer_anti (h : cutoff ≤ cutoff') (ceiling : Nat)
    (es : List (Identity.AgeKey × Unit)) (n : Nat) :
    (Directory.countNewer cutoff' ceiling es n).1 ≤ (Directory.countNewer cutoff ceiling es n).1 := by
  have hgrows : ∀ (es : List (Identity.AgeKey × Unit)) (n : Nat),
      n ≤ (Directory.countNewer cutoff ceiling es n).1 := by
    intro es
    induction es with
    | nil => exact fun n => Nat.le_refl n
    | cons e rest ih =>
      intro n
      rw [Directory.countNewer]
      split_ifs
      · exact Nat.le_refl n
      · exact Nat.le_refl n
      · exact (Nat.le_succ n).trans (ih (n + 1))
  induction es generalizing n with
  | nil => exact Nat.le_refl n
  | cons e rest ih =>
    by_cases hceiling : ceiling ≤ n
    · simp only [Directory.countNewer, if_pos hceiling, Nat.le_refl]
    · by_cases hold : (ofLex e.1).1 ≤ cutoff'
      · have hstop : (Directory.countNewer cutoff' ceiling (e :: rest) n).1 = n := by
          rw [Directory.countNewer, if_neg hceiling, if_pos hold]
        rw [hstop]
        exact hgrows (e :: rest) n
      · have hnewer : ¬ (ofLex e.1).1 ≤ cutoff := fun hle => hold (hle.trans h)
        simp only [Directory.countNewer, if_neg hceiling, if_neg hold, if_neg hnewer]
        exact ih (n + 1)

/-- A later cutoff reports no fewer controllers. -/
theorem countEligible_mono (hdir : dir.Mirrored) (h : cutoff ≤ cutoff') :
    dir.countEligibleControllersAt cutoff 0 ≤ dir.countEligibleControllersAt cutoff' 0 := by
  have hscan := countNewer_anti h Directory.maxEligibilityTailScan
    dir.eligibilityByAge.entries.reverse 0
  -- the scan is over as many entries as the total counts
  have hbound := Directory.countNewer_le cutoff Directory.maxEligibilityTailScan
    dir.eligibilityByAge.entries.reverse 0
  have hfilter := List.length_filter_le
    (fun e : Identity.AgeKey × Unit => decide (cutoff < (ofLex e.1).1))
    dir.eligibilityByAge.entries.reverse
  rw [List.length_reverse, Directory.length_mirror hdir, ← hdir.total] at hfilter
  simp only [Directory.countEligibleControllersAt, Directory.countEligibleNewerThanCapped,
    Int.sub_zero]
  split_ifs <;> omega

theorem eligibleSince_mono {c : Bytes} {since : Int} (h : cutoff ≤ cutoff')
    (hpass : dir.isEligibleControllerSince c cutoff 0 since = true) :
    dir.isEligibleControllerSince c cutoff' 0 since = true := by
  obtain ⟨r, hr, hold, hsince⟩ := Directory.isEligibleControllerSince_iff.1 hpass
  exact Directory.isEligibleControllerSince_iff.2 ⟨r, hr, by omega, hsince⟩

end Cutoff

/-! ## Ages in order -/

/-- Nanoseconds that a minimum age adds to the start of the voting. -/
theorem startCutoff_eq (s : Identity.Store) (votingStart : Int) :
    startCutoff s votingStart =
      (votingStart + int64 (-(s.params.minIdentityAgeSeconds * 1000000000))) / 1000000000 := by
  rw [startCutoff, secondsAsDuration, int64, int64, Int.bmod_neg_bmod, ← int64]

/-- A document created at the start of 1970. -/
def epochWrites : List (Int × Identity.DIDDocument) :=
  [(0, { Directory.sample [1] [2] with createdAt := 0 })]

def epochStore : Identity.Store :=
  { Identity.Store.fresh with directory := run Directory.write Directory.fresh epochWrites }

theorem epochStore_mirrored : epochStore.directory.Mirrored := by
  have htimes : ∀ w ∈ epochWrites, InInt64 w.2.createdAt := by decide
  exact (Directory.timed_of_writes htimes).mirrored

/-- In every state and for every start of the voting, the basis frozen with the second parameters
has no more controllers and no larger denominator than the one frozen with the first, exactly when
the second age in nanoseconds, wrapped to 64 bits, is not below the first. Accepted ages in
ascending order up to 9223372036 seconds are not wrapped. -/
theorem age_shrinks_iff (before after : Identity.Params) :
    (Shrinks before after ↔
      int64 (-(after.minIdentityAgeSeconds * 1000000000)) ≤
        int64 (-(before.minIdentityAgeSeconds * 1000000000))) ∧
      (before.validate = .ok () → before.minIdentityAgeSeconds ≤ after.minIdentityAgeSeconds →
        after.minIdentityAgeSeconds ≤ 9223372036 → Shrinks before after) := by
  have hiff : Shrinks before after ↔
      int64 (-(after.minIdentityAgeSeconds * 1000000000)) ≤
        int64 (-(before.minIdentityAgeSeconds * 1000000000)) := by
    constructor
    · intro hshrinks
      by_contra hlt
      -- voting starts so that the cutoff of the second age is the start of 1970
      have hsubset := (hshrinks epochStore epochStore_mirrored
        (some (-int64 (-(after.minIdentityAgeSeconds * 1000000000)))) 0).1 [2]
      simp only [eligibleUnder, frozenBasis, startCutoff_eq] at hsubset
      obtain ⟨r, hr, hold, -⟩ := Directory.isEligibleControllerSince_iff.1 (hsubset (by
        rw [Int.add_left_neg, Int.zero_ediv]
        decide +kernel))
      have hrecord : epochStore.directory.eligibility.get? [2] = some ⟨0, 0⟩ := by decide +kernel
      rw [hrecord] at hr
      cases hr
      have hzero : (0 : Int) ≤ _ := hold
      omega
    · intro hle s hs votingStart now
      have hcutoff : (frozenBasis { s with params := after } votingStart now).cutoff ≤
          (frozenBasis { s with params := before } votingStart now).cutoff := by
        cases votingStart with
        | none => exact Int.le_refl 0
        | some start =>
          simp only [frozenBasis, startCutoff_eq]
          exact Int.ediv_le_ediv (by decide) (by omega)
      exact ⟨fun c => eligibleSince_mono hcutoff, countEligible_mono hs hcutoff⟩
  refine ⟨hiff, fun hvalid hle hfits => hiff.2 ?_⟩
  simp only [Identity.Params.validate, bind_eq_ok, ensure_eq_ok, exists_const] at hvalid
  obtain ⟨hnonneg, -⟩ := hvalid
  rw [int64_of_inInt64 ⟨by omega, by omega⟩, int64_of_inInt64 ⟨by omega, by omega⟩]
  omega

/-- The default parameters with another minimum age. -/
def agedParams (seconds : Int) (h : InInt64 seconds) : Identity.Params :=
  { Identity.defaultParams with
    minIdentityAgeSeconds := seconds
    int64Fields := ⟨h, Identity.defaultParams.int64Fields.2⟩ }

/-- A minimum age of 9223372037 seconds is accepted and makes a controller eligible that the
default of seven days does not: voting starts 100 seconds after the controller's document. -/
theorem age_enlarges :
    let before := agedParams 604800 (by decide)
    let after := agedParams 9223372037 (by decide)
    let larger := frozenBasis { epochStore with params := before } (some 100000000000) 100
    let smaller := frozenBasis { epochStore with params := after } (some 100000000000) 100
    before.validate = .ok () ∧ after.validate = .ok () ∧
      before.minIdentityAgeSeconds ≤ after.minIdentityAgeSeconds ∧
      eligibleUnder epochStore smaller [2] = true ∧ eligibleUnder epochStore larger [2] = false ∧
      smaller.denominator = 1 ∧ larger.denominator = 0 := by
  refine ⟨?_, ?_, ?_⟩
  · rfl
  · rfl
  · decide +kernel

end PhiChain.FrozenBasis
