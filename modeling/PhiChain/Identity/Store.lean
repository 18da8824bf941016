import PhiChain.Foundations.KeyedMap
import PhiChain.Foundations.NulKeys
import PhiChain.Identity.Messages

/-!
# Identity: the directory and its derived indexes

`Directory` holds the identity documents together with everything that a write of a
document rebuilds: the index of the documents of a controller, one eligibility record
per controller with a standing document, an age-ordered mirror of these records, their
number, and the record the validator sweep reads. `setIdentity` is their only writer.

An eligibility record holds the creation time of the oldest standing document and the
time since when the controller is as well off as that. The electorate of a proposal is
counted from the mirror, and a voter is later judged by the record.

Keys of two parts are the bytes `a ‖ 0x00 ‖ b` their builders produce; the mirror is keyed
by pairs, ordered as their fixed-width encoding orders them.
-/

set_option autoImplicit false

namespace PhiChain.Identity

open Foundations Sdk

/-- Standing of a controller for votes. -/
structure ControllerEligibility where
  oldest : Int
  eligibleSince : Int
  deriving DecidableEq

/-- What the validator sweep reads about a controller; no active document leaves the
first field empty. -/
structure ControllerSweep where
  activeDID : Bytes
  hasSuspended : Bool
  hasRevoked : Bool
  deriving DecidableEq

abbrev AgeKey := Int ×ₗ Bytes

def controllerIndexKey (controller did : Bytes) : Bytes := nulKey controller did

def eligibilityByAgeKey (createdAt : Int) (controller : Bytes) : AgeKey :=
  toLex (createdAt, controller)

/-- Earliest creation time among the documents of a list that are not revoked. -/
def oldestAmong (docs : List DIDDocument) : Option Int :=
  ((docs.filter fun d => d.status ≠ .revoked).map DIDDocument.createdAt).min?

/-- The sweep record of a list of documents, which has none when it is empty. An empty DID
does not count as a first active one. -/
def sweepOf (docs : List DIDDocument) : Option ControllerSweep :=
  if docs = [] then none
  else
    let first := docs.find? fun d => d.status = .active ∧ d.did ≠ []
    some ⟨(first.map DIDDocument.did).getD [], docs.any fun d => d.status = .suspended,
      docs.any fun d => d.status = .revoked⟩

/-- One less in 64 bits: below zero the counter wraps to its largest value. -/
def decrement64 : Nat → Nat
  | 0 => 2 ^ 64 - 1
  | n + 1 => n

/-- Identity documents and the keyspaces derived from them. -/
structure Directory where
  identities : KeyedMap Bytes DIDDocument DIDDocument.did
  controllerIndex : OrdMap Bytes Unit
  eligibility : OrdMap Bytes ControllerEligibility
  eligibilityByAge : OrdMap AgeKey Unit
  eligibleControllerTotal : Nat
  controllerSweep : OrdMap Bytes ControllerSweep

namespace Directory

def fresh : Directory := ⟨∅, ∅, ∅, ∅, 0, ∅⟩

/-- The documents indexed under a controller, in key order. -/
def documentsOf (dir : Directory) (controller : Bytes) : List DIDDocument :=
  (under dir.controllerIndex controller).filterMap dir.identities.get?

/-- Creation time of the controller's oldest document that is not revoked. -/
def oldestStanding (dir : Directory) (controller : Bytes) : Option Int :=
  oldestAmong (dir.documentsOf controller)

/-- Store a record together with its mirror. -/
def putEligibility (dir : Directory) (controller : Bytes) (r : ControllerEligibility) :
    Directory :=
  { dir with
    eligibility := dir.eligibility.put controller r
    eligibilityByAge := dir.eligibilityByAge.put (eligibilityByAgeKey r.oldest controller) () }

def dropMirror (dir : Directory) (createdAt : Int) (controller : Bytes) : Directory :=
  { dir with eligibilityByAge :=
      dir.eligibilityByAge.erase (eligibilityByAgeKey createdAt controller) }

/-- Bring the eligibility record of a controller up to date with its documents. -/
def refreshControllerEligibility (dir : Directory) (now : Int) (controller : Bytes) :
    Directory :=
  match dir.eligibility.get? controller, dir.oldestStanding controller with
  | some prev, none =>
    { dir.dropMirror prev.oldest controller with
      eligibility := dir.eligibility.erase controller
      eligibleControllerTotal := decrement64 dir.eligibleControllerTotal }
  | none, some oldest =>
    { dir.putEligibility controller ⟨oldest, now⟩ with
      eligibleControllerTotal := dir.eligibleControllerTotal + 1 }
  | some prev, some oldest =>
    if prev.oldest ≠ oldest then
      let since := if oldest < prev.oldest then now else prev.eligibleSince
      (dir.dropMirror prev.oldest controller).putEligibility controller ⟨oldest, since⟩
    else dir
  | none, none => dir

/-- Bring the sweep record of a controller up to date with its documents. -/
def refreshControllerSweepStatus (dir : Directory) (controller : Bytes) : Directory :=
  { dir with controllerSweep :=
      match sweepOf (dir.documentsOf controller) with
      | none => dir.controllerSweep.erase controller
      | some r => dir.controllerSweep.put controller r }

def refresh (dir : Directory) (now : Int) (controller : Bytes) : Directory :=
  (dir.refreshControllerEligibility now controller).refreshControllerSweepStatus controller

/-- The controller a write takes the document from: empty when there is none. -/
def prevController (dir : Directory) (d : DIDDocument) : Bytes :=
  match dir.identities.get? d.did with
  | some prev => if prev.controller ≠ d.controller then prev.controller else []
  | none => []

/-- The documents and the controller index after a write, before the records are rebuilt. -/
def putDocument (dir : Directory) (d : DIDDocument) : Directory :=
  let index :=
    match dir.identities.get? d.did with
    | some prev =>
      if prev.controller ≠ d.controller then
        dir.controllerIndex.erase (controllerIndexKey prev.controller prev.did)
      else dir.controllerIndex
    | none => dir.controllerIndex
  { dir with
    identities := dir.identities.set d
    controllerIndex := index.put (controllerIndexKey d.controller d.did) () }

/-- Store a document and bring the derived keyspaces up to date. -/
def setIdentity (dir : Directory) (now : Int) (d : DIDDocument) : Directory :=
  let written := (dir.putDocument d).refresh now d.controller
  if dir.prevController d ≠ [] then written.refresh now (dir.prevController d) else written

/-! ## Electorate -/

def maxEligibilityTailScan : Nat := 5000000

/-- Number of mirror entries above a cutoff, scanned from the youngest; the flag says that
the scan was cut off. -/
def countNewer (cutoff : Int) (ceiling : Nat) : List (AgeKey × Unit) → Nat → Nat × Bool
  | [], n => (n, false)
  | e :: rest, n =>
    if ceiling ≤ n then (n, true)
    else if (ofLex e.1).1 ≤ cutoff then (n, false)
    else countNewer cutoff ceiling rest (n + 1)

def countEligibleNewerThanCapped (dir : Directory) (cutoff : Int) (ceiling : Nat) : Nat × Bool :=
  countNewer cutoff ceiling dir.eligibilityByAge.entries.reverse 0

/-- Number of controllers that stand and are old enough; times and ages are in seconds. -/
def countEligibleControllersAt (dir : Directory) (t minAge : Int) : Nat :=
  let tail := (dir.countEligibleNewerThanCapped (t - minAge) maxEligibilityTailScan).1
  if dir.eligibleControllerTotal < tail then dir.eligibleControllerTotal
  else dir.eligibleControllerTotal - tail

def isEligibleControllerAt (dir : Directory) (controller : Bytes) (t minAge : Int) : Bool :=
  (dir.eligibility.get? controller).any fun r => r.oldest ≤ t - minAge

/-- Whether a controller passes the test of a basis frozen at `since` with cutoff `t`; a
basis without a time is judged by the cutoff alone. -/
def isEligibleControllerSince (dir : Directory) (controller : Bytes) (t minAge since : Int) :
    Bool :=
  match dir.eligibility.get? controller with
  | none => false
  | some r => if t - minAge < r.oldest then false else since = 0 ∨ r.eligibleSince ≤ since

end Directory

/-- The keyspaces of x/identity. -/
structure Store where
  params : Params
  identityCount : Nat
  directory : Directory
  uniqueness : OrdMap Bytes Bytes
  didToValidator : OrdMap Bytes Bytes
  validatorToDID : OrdMap Bytes Bytes
  trustedIssuers : KeyedMap Bytes TrustedIssuer TrustedIssuer.did
  issuerNonces : OrdMap Bytes Unit
  guardians : KeyedMap Bytes GuardianSet GuardianSet.did
  recoveries : KeyedMap Bytes RecoveryRequest RecoveryRequest.recoveryId
  recoveriesByDID : OrdMap Bytes Unit
  recoveryNonces : OrdMap Bytes Unit
  guardianEpochs : OrdMap Bytes Nat
  recoveryTallyEpochs : OrdMap Bytes Nat

def Store.fresh : Store := ⟨defaultParams, 0, .fresh, ∅, ∅, ∅, ∅, ∅, ∅, ∅, ∅, ∅, ∅, ∅⟩

/-- Seconds as a duration, which counts nanoseconds in 64 bits. -/
def secondsAsDuration (seconds : Int) : Int := int64 (seconds * 1000000000)

/-- Context of one transaction; the block time is a 64-bit integer. -/
structure Env where
  blockTime : Int
  chainID : Bytes
  accounts : Accounts
  timeFits : InInt64 blockTime

namespace Store

def setParams (s : Store) (p : Params) : Result Store := do
  p.validate
  return { s with params := p }

/-- Minimum age in the seconds it takes off a time in whole seconds. -/
def minIdentityAge (s : Store) : Int :=
  -(int64 (-secondsAsDuration s.params.minIdentityAgeSeconds) / 1000000000)

def getIdentity (s : Store) (did : Bytes) : Option DIDDocument := s.directory.identities.get? did

def hasIdentity (s : Store) (did : Bytes) : Bool := s.directory.identities.has did

def setIdentity (s : Store) (env : Env) (d : DIDDocument) : Store :=
  { s with directory := s.directory.setIdentity env.blockTime d }

/-! ## Validator bindings -/

def validatorForDID (s : Store) (did : Bytes) : Option Bytes := s.didToValidator.get? did

def didForValidator (s : Store) (valoper : Bytes) : Option Bytes := s.validatorToDID.get? valoper

def unbindValidator (s : Store) (valoper : Bytes) : Store :=
  { s with
    didToValidator :=
      match s.didForValidator valoper with
      | some did => s.didToValidator.erase did
      | none => s.didToValidator
    validatorToDID := s.validatorToDID.erase valoper }

/-! ## Guardian sets and their epochs -/

def setGuardianSet (s : Store) (gs : GuardianSet) : Store :=
  { s with guardians := s.guardians.set gs }

def deleteGuardianSet (s : Store) (did : Bytes) : Store :=
  { s with guardians := s.guardians.erase did }

def maxUint64 : Nat := 2 ^ 64 - 1

def guardianEpoch (s : Store) (did : Bytes) : Nat := s.guardianEpochs.getD did 0

/-- A replaced guardian set starts a new epoch; the counter stops at its ceiling. -/
def bumpGuardianEpoch (s : Store) (did : Bytes) : Store :=
  if s.guardianEpoch did = maxUint64 then s
  else { s with guardianEpochs := s.guardianEpochs.put did (s.guardianEpoch did + 1) }

def recoveryTallyEpoch (s : Store) (recoveryID : Bytes) : Nat :=
  s.recoveryTallyEpochs.getD recoveryID 0

def setRecoveryTallyEpoch (s : Store) (recoveryID : Bytes) (epoch : Nat) : Store :=
  { s with recoveryTallyEpochs := s.recoveryTallyEpochs.put recoveryID epoch }

/-! ## Recovery requests -/

def setRecoveryRequest (s : Store) (r : RecoveryRequest) : Store :=
  { s with
    recoveries := s.recoveries.set r
    recoveriesByDID := s.recoveriesByDID.put (nulKey r.did r.recoveryId) () }

def deleteRecoveryRequest (s : Store) (r : RecoveryRequest) : Store :=
  { s with
    recoveries := s.recoveries.erase r.recoveryId
    recoveriesByDID := s.recoveriesByDID.erase (nulKey r.did r.recoveryId)
    recoveryTallyEpochs := s.recoveryTallyEpochs.erase r.recoveryId }

def getRecoveryRequest (s : Store) (recoveryID : Bytes) : Option RecoveryRequest :=
  s.recoveries.get? recoveryID

/-- The requests of a DID, by the index of requests. -/
def recoveryRequestsForDID (s : Store) (did : Bytes) : List RecoveryRequest :=
  (under s.recoveriesByDID did).filterMap s.getRecoveryRequest

def tallyIsCurrent (s : Store) (r : RecoveryRequest) : Bool :=
  s.recoveryTallyEpoch r.recoveryId = s.guardianEpoch r.did

/-- Approvals under the guardian set in force. -/
def effectiveApprovals (s : Store) (r : RecoveryRequest) : List Bytes :=
  if s.tallyIsCurrent r then r.approvals else []

/-- Discard a tally collected under a guardian set that was replaced since. -/
def syncTallyEpoch (s : Store) (r : RecoveryRequest) : RecoveryRequest × Store :=
  if s.tallyIsCurrent r then (r, s)
  else
    ({ r with approvals := [], rejections := [] },
      s.setRecoveryTallyEpoch r.recoveryId (s.guardianEpoch r.did))

end Store

end PhiChain.Identity
