import PhiChain.Foundations.Paired
import PhiChain.Identity.Uniqueness

/-!
# Identity: validators and the DIDs behind them

A validator is backed by one DID and a DID backs one validator. The two directions of the
binding are two keyspaces, written by the staking hooks, by the sweep that runs at the end
of every block, and by a revocation.

x/staking is present as the set of operators that exist: it creates a validator only under
a new operator, calls the hooks, and hands the sweep validators that exist. What its calls
answer is an input of the step.

`validator_bindings_biject` is the result about runs.
-/

set_option autoImplicit false

namespace PhiChain.Identity

open Foundations Sdk

/-! ## Bindings -/

/-- How many documents of a controller the lookup of its first active one reads. -/
def maxControllerDIDScan : Nat := 64

namespace Store

def bindValidatorToDID (s : Store) (did valoper : Bytes) : Store :=
  { s with
    didToValidator := s.didToValidator.put did valoper
    validatorToDID := s.validatorToDID.put valoper did }

/-- First active document of a controller, within the bound of the scan. -/
def primaryDID (s : Store) (controller : Bytes) : Option Bytes :=
  let candidates := (under s.directory.controllerIndex controller).take maxControllerDIDScan
  ((candidates.filterMap s.getIdentity).find? fun d => d.status = .active).map DIDDocument.did

/-- The sweep record of a controller; none reads as an empty one. -/
def controllerSweepStatus (s : Store) (controller : Bytes) : ControllerSweep :=
  (s.directory.controllerSweep.get? controller).getD ⟨[], false, false⟩

end Store

/-! ## Staking hooks -/

/-- Hook of a new validator; `validator` is the minimum self-delegation x/staking reports
for it. The founding set of block zero is not checked. -/
def afterValidatorCreated (minSelfStake height : Int) (valAddr : Bytes) (validator : Option Int)
    (s : Store) : Result Store :=
  if height = 0 then .ok s
  else do
    let did ← orFail (s.primaryDID (accAddressString valAddr)) ⟨.validatorNeedsDID, "account"⟩
    ensure ((s.validatorForDID did).all (fun bound => bound = valAddressString valAddr) = true)
      ⟨.didAlreadyValidator, "did already backs"⟩
    let minSelfDelegation ← orFail validator ⟨.unregistered, "validator does not exist"⟩
    ensure (minSelfStake ≤ minSelfDelegation)
      ⟨.minSelfDelegation, "min_self_delegation < floor uphi"⟩
    return s.bindValidatorToDID did (valAddressString valAddr)

def afterValidatorRemoved (valAddr : Bytes) (s : Store) : Store :=
  s.unbindValidator (valAddressString valAddr)

/-! ## The sweep -/

/-- What a call into x/staking or x/slashing does. -/
inductive CallResult where
  | ok
  | failed
  | panicked

/-- A call whose error ends the judgement of a validator. -/
def CallResult.checked : CallResult → Result Unit
  | .ok => .ok ()
  | .failed => .error ⟨.unregistered, "cannot act on a validator"⟩
  | .panicked => .error ⟨.unregistered, "panic while judging a validator"⟩

/-- A call whose error is dropped. -/
def CallResult.ignored : CallResult → Result Unit
  | .ok => .ok ()
  | .failed => .ok ()
  | .panicked => .error ⟨.unregistered, "panic while judging a validator"⟩

/-- The calls of the sweep, by consensus address. -/
structure SweepPorts where
  jail : Bytes → CallResult
  isTombstoned : Bytes → Bool
  tombstone : Bytes → CallResult
  jailUntil : Bytes → CallResult

inductive ValidatorSweepOutcome where
  | kept
  | bound
  | jailed
  | tombstoned
  deriving DecidableEq

/-- A validator of the active set as the sweep reads it. -/
structure Candidate where
  valoper : Bytes
  consAddr : Bytes
  jailed : Bool

def removeReversibly (ports : SweepPorts) (c : Candidate) : Result ValidatorSweepOutcome :=
  if c.jailed then .ok .jailed
  else do
    (ports.jail c.consAddr).checked
    return .jailed

def removePermanently (ports : SweepPorts) (c : Candidate) : Result ValidatorSweepOutcome := do
  if c.jailed then .ok () else (ports.jail c.consAddr).checked
  if ports.isTombstoned c.consAddr then .ok ()
  else do
    (ports.tombstone c.consAddr).ignored
    (ports.jailUntil c.consAddr).ignored
  return .tombstoned

/-- Without an active document, only an operator all of whose identities are revoked is
removed for good. -/
def removeByIdentityStatus (ports : SweepPorts) (acc : Bytes) (c : Candidate) (s : Store) :
    Result ValidatorSweepOutcome :=
  let record := s.controllerSweepStatus acc
  if record.hasRevoked ∧ record.hasSuspended = false then removePermanently ports c
  else removeReversibly ports c

/-- The account behind an operator text; one that does not decode has none. -/
def operatorAccount (valoper : Bytes) : Bytes :=
  accAddressString ((valAddressFromBech32 valoper).getD [])

/-- Judge an operator without a binding. -/
def sweepUnbound (ports : SweepPorts) (c : Candidate) (s : Store) :
    Result (ValidatorSweepOutcome × Store) := do
  let acc := operatorAccount c.valoper
  let primary := (s.controllerSweepStatus acc).activeDID
  if primary = [] then
    let outcome ← removeByIdentityStatus ports acc c s
    return (outcome, s)
  else if (s.validatorForDID primary).any fun other => other ≠ c.valoper then
    let outcome ← removeReversibly ports c
    return (outcome, s)
  else return (.bound, s.bindValidatorToDID primary c.valoper)

/-- Judge an operator that is bound to a DID. -/
def sweepBound (ports : SweepPorts) (c : Candidate) (did : Bytes) (s : Store) :
    Result (ValidatorSweepOutcome × Store) :=
  match s.getIdentity did with
  | none => do
    let s := s.unbindValidator c.valoper
    let outcome ← removeByIdentityStatus ports (operatorAccount c.valoper) c s
    return (outcome, s)
  | some doc =>
    match doc.status with
    | .active => .ok (.kept, s)
    -- a suspension is reversible: the binding stays
    | .suspended => do
      let outcome ← removeReversibly ports c
      return (outcome, s)
    | _ => do
      let outcome ← removePermanently ports c
      return (outcome, s.unbindValidator c.valoper)

def sweepOne (ports : SweepPorts) (c : Candidate) (s : Store) :
    Result (ValidatorSweepOutcome × Store) :=
  match s.didForValidator c.valoper with
  | none => sweepUnbound ports c s
  | some did => sweepBound ports c did s

/-- One validator in a store of its own: an error or a panic discards what it wrote. -/
def sweepOneIsolated (ports : SweepPorts) (c : Candidate) (s : Store) :
    Option ValidatorSweepOutcome × Store :=
  match sweepOne ports c s with
  | .ok (outcome, s') => (some outcome, s')
  | .error _ => (none, s)

/-- The validators of the active set one after the other, with the decision on each. -/
def sweepValidatorBindings (ports : SweepPorts) (actives : List Candidate) (s : Store) :
    OrdMap Bytes ValidatorSweepOutcome × Store :=
  actives.foldl (fun acc c =>
    match sweepOneIsolated ports c acc.2 with
    | (some outcome, s) => (acc.1.put c.valoper outcome, s)
    | (none, s) => (acc.1, s)) (∅, s)

/-! ## The machine -/

/-- Address of an operator. -/
structure Operator where
  addr : Bytes
  nonempty : addr ≠ []
  short : addr.length ≤ 255
  deriving DecidableEq

/-- The canonical text of an operator. -/
def Operator.valoper (op : Operator) : Bytes := valAddressString op.addr

/-- A validator x/staking lists; the consensus address may be unreadable. -/
structure LastValidator where
  operator : Operator
  consAddr : Option Bytes
  jailed : Bool

def LastValidator.candidate (v : LastValidator) : Option Candidate :=
  v.consAddr.map fun consAddr => ⟨v.operator.valoper, consAddr, v.jailed⟩

/-- The identity world next to the operators that have a validator. -/
structure ValidatorWorld where
  world : World
  operators : List Operator

/-- What happens in a run. A failed listing of the active set is `none`. -/
inductive ValidatorAction where
  | message (tx : Tx)
  | createValidator (height : Int) (op : Operator) (validator : Option Int)
  | removeValidator (op : Operator)
  | endBlock (ports : SweepPorts) (last : Option (List LastValidator))

def ValidatorWorld.withStore (v : ValidatorWorld) (s : Store) : ValidatorWorld :=
  { v with world := { v.world with store := s } }

def applyValidator (k : Keeper) (minSelfStake : Int) (v : ValidatorWorld) :
    ValidatorAction → Result ValidatorWorld
  | .message tx => do
    let w ← apply k tx.env v.world tx.action
    return { v with world := w }
  | .createValidator height op validator => do
    ensure (op ∉ v.operators) ⟨.unregistered, "validator already exist for this operator address"⟩
    let s ← afterValidatorCreated minSelfStake height op.addr validator v.world.store
    return { v.withStore s with operators := op :: v.operators }
  | .removeValidator op => do
    ensure (op ∈ v.operators) ⟨.unregistered, "validator does not exist"⟩
    let s := afterValidatorRemoved op.addr v.world.store
    return { v.withStore s with operators := v.operators.filter fun o => o ≠ op }
  | .endBlock ports last =>
    match last with
    -- a sweep that cannot list the validators runs again in the next block
    | none => .ok v
    | some vs => do
      ensure (∀ val ∈ vs, val.operator ∈ v.operators)
        ⟨.unregistered, "validator record not found"⟩
      return v.withStore <|
        (sweepValidatorBindings ports (vs.filterMap LastValidator.candidate) v.world.store).2

def validatorStep (k : Keeper) (minSelfStake : Int) (v : ValidatorWorld) (a : ValidatorAction) :
    ValidatorWorld :=
  commit v (applyValidator k minSelfStake v a)

/-! ## The invariant -/

/-- Stores that differ in the bindings at most. -/
def Rebound (s s' : Store) : Prop :=
  s' = { s with
    didToValidator := s'.didToValidator
    validatorToDID := s'.validatorToDID }

variable {s s' : Store} {ports : SweepPorts}

theorem Rebound.directory (h : Rebound s s') : s'.directory = s.directory := by
  unfold Rebound at h
  rw [h]

theorem Rebound.requests (h : Rebound s s') :
    s'.recoveries = s.recoveries ∧ s'.recoveriesByDID = s.recoveriesByDID := by
  unfold Rebound at h
  rw [h]
  exact ⟨rfl, rfl⟩

theorem Rebound.trans {s'' : Store} (h : Rebound s s') (h' : Rebound s' s'') :
    Rebound s s'' := by
  unfold Rebound at *
  rw [h'] at *
  rw [h]

/-- The binding is one-to-one, between operators that exist and DIDs that stand. -/
structure Bindings (operators : List Operator) (s : Store) : Prop where
  paired : Paired s.didToValidator s.validatorToDID
  operated : ∀ valoper did, s.didForValidator valoper = some did →
    ∃ op ∈ operators, valoper = op.valoper
  standing : ∀ did valoper, s.validatorForDID did = some valoper →
    ∃ doc, s.getIdentity did = some doc ∧ doc.status ≠ .revoked

section Operations

variable {operators : List Operator} {did valoper : Bytes} {doc : DIDDocument}

/-- A free operator and a free DID that stands may be bound. -/
theorem bindings_bind (h : Bindings operators s) {op : Operator} (hop : op ∈ operators)
    (hfree : s.didForValidator op.valoper = none) (hunbound : s.validatorForDID did = none)
    (hdoc : s.getIdentity did = some doc) (hstanding : doc.status ≠ .revoked) :
    Bindings operators (s.bindValidatorToDID did op.valoper) := by
  refine ⟨paired_put h.paired hunbound hfree, fun valoper did' hget => ?_, fun did' valoper hget => ?_⟩
  · have hput : (s.bindValidatorToDID did op.valoper).didForValidator valoper =
        if op.valoper = valoper then some did else s.didForValidator valoper :=
      OrdMap.get?_put _ _ _ _
    rw [hput] at hget
    split at hget
    · rename_i hsame
      exact ⟨op, hop, hsame.symm⟩
    · exact h.operated valoper did' hget
  · have hput : (s.bindValidatorToDID did op.valoper).validatorForDID did' =
        if did = did' then some op.valoper else s.validatorForDID did' :=
      OrdMap.get?_put _ _ _ _
    rw [hput] at hget
    split at hget
    · rename_i hsame
      subst hsame
      exact ⟨doc, hdoc, hstanding⟩
    · exact h.standing did' valoper hget

/-- The maps after an unbinding. -/
theorem unbindValidator_bound (hget : s.didForValidator valoper = some did) :
    (s.unbindValidator valoper).didToValidator = s.didToValidator.erase did ∧
      (s.unbindValidator valoper).validatorToDID = s.validatorToDID.erase valoper := by
  unfold Store.unbindValidator
  rw [hget]
  exact ⟨rfl, rfl⟩

theorem unbindValidator_free (hget : s.didForValidator valoper = none) :
    (s.unbindValidator valoper).didToValidator = s.didToValidator ∧
      (s.unbindValidator valoper).validatorToDID = s.validatorToDID := by
  unfold Store.unbindValidator
  rw [hget]
  exact ⟨rfl, OrdMap.erase_of_get?_none hget⟩

/-- An unbinding takes both ends of one pair away. -/
theorem paired_unbindValidator (h : Paired s.didToValidator s.validatorToDID) (valoper : Bytes) :
    Paired (s.unbindValidator valoper).didToValidator (s.unbindValidator valoper).validatorToDID := by
  cases hget : s.didForValidator valoper with
  | none =>
    obtain ⟨hto, hfrom⟩ := unbindValidator_free hget
    rw [hto, hfrom]
    exact h
  | some did =>
    obtain ⟨hto, hfrom⟩ := unbindValidator_bound hget
    rw [hto, hfrom]
    exact paired_erase h ((h did valoper).2 hget)

theorem didForValidator_unbind (s : Store) (valoper other : Bytes) :
    (s.unbindValidator valoper).didForValidator other =
      if valoper = other then none else s.didForValidator other :=
  OrdMap.get?_erase s.validatorToDID valoper other

theorem validatorForDID_of_unbind {other : Bytes}
    (h : (s.unbindValidator valoper).validatorForDID did = some other) :
    s.validatorForDID did = some other := by
  unfold Store.unbindValidator Store.validatorForDID at *
  dsimp only at h
  split at h
  · rename_i did' _
    rw [OrdMap.get?_erase] at h
    split at h
    · cases h
    · exact h
  · exact h

/-- An operator that is unbound need not exist any more. -/
theorem bindings_unbind (h : Bindings operators s) {kept : List Operator}
    (hkept : ∀ op ∈ operators, op.valoper ≠ valoper → op ∈ kept) :
    Bindings kept (s.unbindValidator valoper) := by
  refine ⟨paired_unbindValidator h.paired valoper, fun other did hget => ?_, fun did other hget => ?_⟩
  · rw [didForValidator_unbind] at hget
    split at hget
    · cases hget
    · rename_i hne
      obtain ⟨op, hop, rfl⟩ := h.operated other did hget
      exact ⟨op, hkept op hop fun hsame => hne hsame.symm, rfl⟩
  · exact h.standing did other (validatorForDID_of_unbind hget)

/-- The bindings do not depend on the rest of the store, the documents apart. -/
theorem bindings_congr (h : Bindings operators s) (hto : s'.didToValidator = s.didToValidator)
    (hfrom : s'.validatorToDID = s.validatorToDID)
    (hdocs : ∀ did doc, s.getIdentity did = some doc → doc.status ≠ .revoked →
      s.validatorForDID did ≠ none → ∃ doc', s'.getIdentity did = some doc' ∧ doc'.status ≠ .revoked) :
    Bindings operators s' := by
  refine ⟨?_, fun valoper did hget => ?_, fun did valoper hget => ?_⟩
  · rw [hto, hfrom]
    exact h.paired
  · have hsame : s'.didForValidator valoper = s.didForValidator valoper := by
      unfold Store.didForValidator
      rw [hfrom]
    exact h.operated valoper did (hsame.symm.trans hget)
  · have hsame : s'.validatorForDID did = s.validatorForDID did := by
      unfold Store.validatorForDID
      rw [hto]
    rw [hsame] at hget
    obtain ⟨doc, hdoc, hstanding⟩ := h.standing did valoper hget
    exact hdocs did doc hdoc hstanding (by simp [hget])

end Operations

variable {minSelfStake : Int} {c : Candidate} {outcome : ValidatorSweepOutcome}
  {v v' : ValidatorWorld}

/-! ## Hooks and the sweep -/

section Staking

variable {operators : List Operator} {did : Bytes}

/-- The lookup by account returns a registered, active DID. -/
theorem active_of_primaryDID {controller : Bytes} (h : s.primaryDID controller = some did) :
    ∃ doc, s.getIdentity did = some doc ∧ doc.status = .active := by
  obtain ⟨doc, hfind, rfl⟩ := Option.map_eq_some_iff.1 h
  have hactive : doc.status = .active := by simpa using List.find?_some hfind
  obtain ⟨candidate, -, hdoc⟩ := List.mem_filterMap.1 (List.mem_of_find?_eq_some hfind)
  exact ⟨doc, (KeyedMap.key_of_get? hdoc).symm ▸ hdoc, hactive⟩

/-- So does the sweep record, when it names one. -/
theorem active_of_sweepStatus (hindexed : s.directory.Indexed) {controller : Bytes}
    (h : (s.controllerSweepStatus controller).activeDID ≠ []) :
    ∃ doc, s.getIdentity (s.controllerSweepStatus controller).activeDID = some doc ∧
      doc.status = .active := by
  have hrecord := (hindexed.current controller).2
  unfold Store.controllerSweepStatus at h ⊢
  rw [hrecord] at h ⊢
  unfold sweepOf at h ⊢
  split at h
  · exact absurd rfl h
  · dsimp only [Option.getD_some] at h ⊢
    cases hfind : (s.directory.recordsOf controller).find? fun d => d.status = .active ∧ d.did ≠ [] with
    | none =>
      rw [hfind] at h
      exact absurd rfl h
    | some doc =>
      rename_i hsome
      rw [if_neg hsome]
      dsimp only [Option.getD_some]
      have hactive : doc.status = .active ∧ doc.did ≠ [] := by simpa using List.find?_some hfind
      have hmem := Directory.mem_recordsOf.1 (List.mem_of_find?_eq_some hfind)
      exact ⟨doc, hmem.1, hactive.1⟩

/-- A new operator is not bound yet, so its hook binds two free ends. -/
theorem bindings_afterValidatorCreated {height : Int} {op : Operator} {validator : Option Int}
    (h : Bindings operators s) (hnew : op ∉ operators)
    (hcreated : afterValidatorCreated minSelfStake height op.addr validator s = .ok s') :
    Rebound s s' ∧ Bindings (op :: operators) s' := by
  have hmore : Bindings (op :: operators) s := by
    refine ⟨h.paired, fun valoper did hget => ?_, h.standing⟩
    obtain ⟨op', hop', heq⟩ := h.operated valoper did hget
    exact ⟨op', List.mem_cons_of_mem _ hop', heq⟩
  unfold afterValidatorCreated at hcreated
  split at hcreated
  · cases hcreated
    exact ⟨rfl, hmore⟩
  · simp only [bind_eq_ok, orFail_eq_ok, ensure_eq_ok, exists_const, pure_eq_ok] at hcreated
    obtain ⟨did, hprimary, hother, minSelfDelegation, -, -, rfl⟩ := hcreated
    obtain ⟨doc, hdoc, hactive⟩ := active_of_primaryDID hprimary
    have hfree : s.didForValidator op.valoper = none := by
      cases hget : s.didForValidator op.valoper with
      | none => rfl
      | some did' =>
        obtain ⟨op', hop', heq⟩ := h.operated _ did' hget
        have haddr : op.addr = op'.addr := addressString_inj heq
        have hsame : op = op' := by
          cases op
          cases op'
          simpa using haddr
        exact absurd (hsame ▸ hop') hnew
    have hunbound : s.validatorForDID did = none := by
      cases hget : s.validatorForDID did with
      | none => rfl
      | some bound =>
        rw [hget] at hother
        have hbound : bound = op.valoper := of_decide_eq_true hother
        rw [hbound] at hget
        rw [show s.didForValidator op.valoper = some did from (h.paired did _).1 hget] at hfree
        cases hfree
    refine ⟨rfl, bindings_bind hmore List.mem_cons_self hfree hunbound hdoc ?_⟩
    rw [hactive]
    decide

/-- A decision is taken, and the store is the one it stands with. -/
theorem store_of_decision {x : Result ValidatorSweepOutcome} {s₁ : Store}
    (h : (do let outcome ← x; return (outcome, s₁)) = Except.ok (outcome, s')) : s' = s₁ := by
  simp only [bind_eq_ok, pure_eq_ok] at h
  obtain ⟨_, -, heq⟩ := h
  exact (Prod.mk.inj heq).2.symm

theorem sweepUnbound_ok (h : sweepUnbound ports c s = .ok (outcome, s')) :
    s' = s ∨ ∃ did, did = (s.controllerSweepStatus (operatorAccount c.valoper)).activeDID ∧ did ≠ [] ∧
      (∀ other, s.validatorForDID did = some other → other = c.valoper) ∧
      s' = s.bindValidatorToDID did c.valoper := by
  unfold sweepUnbound at h
  dsimp only at h
  split at h
  · exact Or.inl (store_of_decision h)
  · rename_i hactive
    split at h
    · exact Or.inl (store_of_decision h)
    · rename_i hother
      cases h
      refine Or.inr ⟨_, rfl, hactive, fun other hget => ?_, rfl⟩
      rw [hget] at hother
      simpa using hother

theorem sweepBound_ok (h : sweepBound ports c did s = .ok (outcome, s')) :
    s' = s ∨ s' = s.unbindValidator c.valoper := by
  unfold sweepBound at h
  split at h
  · exact Or.inr (store_of_decision h)
  · split at h
    · cases h
      exact Or.inl rfl
    · exact Or.inl (store_of_decision h)
    · exact Or.inr (store_of_decision h)

/-- Judging one validator keeps the bindings. -/
theorem bindings_sweepOne (hindexed : s.directory.Indexed) (h : Bindings operators s)
    (hc : ∃ op ∈ operators, c.valoper = op.valoper)
    (hsweep : sweepOne ports c s = .ok (outcome, s')) :
    Rebound s s' ∧ Bindings operators s' := by
  unfold sweepOne at hsweep
  split at hsweep
  · rename_i hfree
    rcases sweepUnbound_ok hsweep with rfl | ⟨did, hdid, hne, hother, rfl⟩
    · exact ⟨rfl, h⟩
    · obtain ⟨op, hop, hvaloper⟩ := hc
      rw [hvaloper] at hfree hother ⊢
      subst hdid
      obtain ⟨doc, hdoc, hactive⟩ := active_of_sweepStatus hindexed hne
      refine ⟨rfl, bindings_bind h hop hfree ?_ hdoc (by rw [hactive]; nofun)⟩
      -- a DID that leads back to this operator would make it bound
      cases hget : s.validatorForDID _ with
      | none => rfl
      | some other =>
        rw [hother other hget] at hget
        rw [show s.didForValidator op.valoper = some _ from (h.paired _ _).1 hget] at hfree
        cases hfree
  · rcases sweepBound_ok hsweep with rfl | rfl
    · exact ⟨rfl, h⟩
    · exact ⟨rfl, bindings_unbind h fun op hop _ => hop⟩

theorem bindings_sweep {actives : List Candidate}
    (hactives : ∀ c ∈ actives, ∃ op ∈ operators, c.valoper = op.valoper)
    (hindexed : s.directory.Indexed) (h : Bindings operators s) :
    Rebound s (sweepValidatorBindings ports actives s).2 ∧
      Bindings operators (sweepValidatorBindings ports actives s).2 := by
  unfold sweepValidatorBindings
  generalize (∅ : OrdMap Bytes ValidatorSweepOutcome) = outcomes
  induction actives generalizing s outcomes with
  | nil => exact ⟨rfl, h⟩
  | cons c rest ih =>
    rw [List.foldl_cons]
    have hrest := fun c' hc' => hactives c' (List.mem_cons_of_mem _ hc')
    cases hsweep : sweepOne ports c s with
    | error e =>
      have hskip : sweepOneIsolated ports c s = (none, s) := by
        unfold sweepOneIsolated
        rw [hsweep]
      rw [hskip]
      exact ih hrest hindexed h _
    | ok result =>
      obtain ⟨outcome, s'⟩ := result
      have hjudged : sweepOneIsolated ports c s = (some outcome, s') := by
        unfold sweepOneIsolated
        rw [hsweep]
      rw [hjudged]
      obtain ⟨hrebound, hbound⟩ :=
        bindings_sweepOne hindexed h (hactives c List.mem_cons_self) hsweep
      have hnext := ih hrest (hrebound.directory ▸ hindexed) hbound (outcomes.put c.valoper outcome)
      exact ⟨hrebound.trans hnext.1, hnext.2⟩

end Staking

/-! ## Messages -/

section Messages

variable {k : Keeper} {env : Env} {w w' : World} {a : Action} {operators : List Operator}

/-- A revocation unbinds the operator of the DID, when it has one. -/
theorem bindings_releaseRevoked (s : Store) (did : Bytes) :
    (s.validatorForDID did = none ∧ (s.releaseRevoked did).didToValidator = s.didToValidator ∧
        (s.releaseRevoked did).validatorToDID = s.validatorToDID) ∨
      ∃ valoper, s.validatorForDID did = some valoper ∧
        (s.releaseRevoked did).didToValidator = (s.unbindValidator valoper).didToValidator ∧
        (s.releaseRevoked did).validatorToDID = (s.unbindValidator valoper).validatorToDID := by
  have hsame : (s.deleteGuardianSet did).validatorForDID did = s.validatorForDID did := rfl
  unfold Store.releaseRevoked
  dsimp only
  rw [hsame]
  cases hget : s.validatorForDID did with
  | none =>
    obtain ⟨_, hbump⟩ := bumpGuardianEpoch_eq (s.deleteGuardianSet did) did
    left
    dsimp only
    rw [hbump]
    exact ⟨rfl, rfl, rfl⟩
  | some valoper =>
    obtain ⟨_, hbump⟩ := bumpGuardianEpoch_eq ((s.deleteGuardianSet did).unbindValidator valoper) did
    right
    dsimp only
    rw [hbump]
    exact ⟨valoper, rfl, rfl, rfl⟩

/-- A revoked DID is bound to nothing, every other binding stays. -/
theorem validatorForDID_releaseRevoked (h : Paired s.didToValidator s.validatorToDID)
    (did other : Bytes) :
    (s.releaseRevoked did).validatorForDID other =
      if did = other then none else s.validatorForDID other := by
  have hread : (s.releaseRevoked did).validatorForDID other =
    (s.releaseRevoked did).didToValidator.get? other := rfl
  rw [hread]
  rcases bindings_releaseRevoked s did with ⟨hfree, hto, -⟩ | ⟨valoper, hbound, hto, -⟩
  · rw [hto]
    split
    · rename_i heq
      rw [← heq]
      exact hfree
    · rfl
  · rw [hto, (unbindValidator_bound ((h did valoper).1 hbound)).1]
    exact OrdMap.get?_erase s.didToValidator did other

/-- What a revocation leaves of the two maps is one-to-one, on fewer operators. -/
theorem paired_releaseRevoked (h : Paired s.didToValidator s.validatorToDID) (did : Bytes) :
    Paired (s.releaseRevoked did).didToValidator (s.releaseRevoked did).validatorToDID ∧
      ∀ valoper did', (s.releaseRevoked did).didForValidator valoper = some did' →
        s.didForValidator valoper = some did' := by
  have hread : (s.releaseRevoked did).didForValidator =
    (s.releaseRevoked did).validatorToDID.get? := rfl
  rw [hread]
  rcases bindings_releaseRevoked s did with ⟨-, hto, hback⟩ | ⟨valoper, -, hto, hback⟩
  · rw [hto, hback]
    exact ⟨h, fun _ _ hfor => hfor⟩
  · rw [hto, hback]
    refine ⟨paired_unbindValidator h valoper, fun other did' hfor => ?_⟩
    have hkept := (didForValidator_unbind s valoper other).symm.trans hfor
    split at hkept
    · cases hkept
    · exact hkept

/-- Only a revocation touches the bindings. -/
theorem bindings_kept_of_event (hevent : Event k env w a w')
    (hnot : ∀ msg, a ≠ .revokeIdentity msg) :
    w'.store.didToValidator = w.store.didToValidator ∧
      w'.store.validatorToDID = w.store.validatorToDID := by
  obtain ⟨base, hbasis, _, _, _, hstore⟩ := basis_of_event hevent
  rw [hstore]
  cases hbasis with
  | kept | registered | wrote | initiated | issuerSet | issuerRevoked | reparametrised =>
    exact ⟨rfl, rfl⟩
  | revoked msg => exact absurd rfl (hnot msg)
  | guarded msg =>
    obtain ⟨_, hguarded⟩ := guarded_eq w.store
      ⟨msg.did, msg.commitments, msg.threshold, env.blockTime⟩
    rw [hguarded]
    exact ⟨rfl, rfl⟩

/-- A write that is no revocation leaves a standing document standing. -/
theorem standing_of_writes {d doc : DIDDocument} (hwrites : Writes k env w a d)
    (hnot : ∀ msg, a ≠ .revokeIdentity msg) (hdoc : w.store.getIdentity d.did = some doc)
    (hstanding : doc.status ≠ .revoked) : d.status ≠ .revoked := by
  cases hwrites with
  | registered msg => nofun
  | revoked msg => exact absurd rfl (hnot msg)
  | restated msg doc' _ _ hnew =>
    rcases hnew with hnew | hnew
    · change msg.newStatus ≠ .revoked
      rw [hnew]
      nofun
    · change msg.newStatus ≠ .revoked
      rw [hnew]
      nofun
  | rekeyed msg doc' derived hdoc' =>
    have hkey := did_of_getIdentity hdoc'
    change w.store.getIdentity doc'.did = some doc at hdoc
    rw [hkey, hdoc'] at hdoc
    cases hdoc
    exact hstanding
  | recovered msg r doc' _ _ hactive =>
    change doc'.status ≠ .revoked
    rw [hactive]
    nofun

theorem bindings_of_event (hevent : Event k env w a w') (h : Bindings operators w.store) :
    Bindings operators w'.store := by
  have hsummary := summary_of_event hevent
  by_cases hrevokes : ∃ msg, a = .revokeIdentity msg
  · obtain ⟨msg, rfl⟩ := hrevokes
    cases hevent with
    | revoked _ doc w₁ hdoc hsigner hstanding hclosed =>
      obtain ⟨_, _, _, hdrop⟩ := dropAll_eq (w.store.setIdentity env (doc.withStatus .revoked))
        ((w.store.recoveryRequestsForDID msg.did).filter fun r => r.status = .pending)
      have hstore := hclosed.store
      dsimp only at hstore
      rw [hdrop] at hstore
      have hto : w₁.store.didToValidator = w.store.didToValidator := by rw [hstore]; rfl
      have hfrom : w₁.store.validatorToDID = w.store.validatorToDID := by rw [hstore]; rfl
      have hpaired : Paired w₁.store.didToValidator w₁.store.validatorToDID := by
        rw [hto, hfrom]
        exact h.paired
      obtain ⟨hpair, hfewer⟩ := paired_releaseRevoked hpaired msg.did
      refine ⟨hpair, fun valoper did hget => ?_, fun did valoper hget => ?_⟩
      · have hbefore := hfewer valoper did hget
        unfold Store.didForValidator at hbefore
        rw [hfrom] at hbefore
        exact h.operated valoper did hbefore
      · dsimp only at hget
        rw [validatorForDID_releaseRevoked hpaired] at hget
        split at hget
        · cases hget
        · rename_i hne
          unfold Store.validatorForDID at hget
          rw [hto] at hget
          obtain ⟨doc', hdoc', hstands⟩ := h.standing did valoper hget
          refine ⟨doc', ?_, hstands⟩
          rcases hsummary.directory with hsame | ⟨d, hwrites, hset⟩
          · exact (getIdentity_of_same hsame did).trans hdoc'
          · -- the document written is the one of the revoked DID
            have hwritten : d.did = msg.did := by
              cases hwrites with
              | revoked _ doc'' hdoc'' =>
                have hkey := did_of_getIdentity hdoc''
                exact hkey
            rw [getIdentity_of_set hset, hwritten, if_neg hne]
            exact hdoc'
  · have hnot : ∀ msg, a ≠ .revokeIdentity msg := fun msg ha => hrevokes ⟨msg, ha⟩
    obtain ⟨hto, hfrom⟩ := bindings_kept_of_event hevent hnot
    refine bindings_congr h hto hfrom fun did doc hdoc hstanding _ => ?_
    rcases hsummary.directory with hsame | ⟨d, hwrites, hset⟩
    · exact ⟨doc, (getIdentity_of_same hsame did).trans hdoc, hstanding⟩
    · have hlookup := getIdentity_of_set hset did
      split at hlookup
      · rename_i hdid
        subst hdid
        exact ⟨d, hlookup, standing_of_writes hwrites hnot hdoc hstanding⟩
      · exact ⟨doc, hlookup.trans hdoc, hstanding⟩

end Messages

/-! ## Runs -/

/-- What a run keeps: the indexes the hooks read are sound, and so are the bindings. -/
structure BindingsSound (v : ValidatorWorld) : Prop where
  sound : Sound Nameable v.world.store
  bindings : Bindings v.operators v.world.store

/-- The indexes do not depend on the bindings. -/
theorem Sound.rebound {P : Bytes → Prop} (h : Sound P s) (hrebound : Rebound s s') :
    Sound P s' := by
  have hdirectory := hrebound.directory
  obtain ⟨hrecoveries, hbyDID⟩ := hrebound.requests
  refine ⟨filed_congr h.filed hrecoveries hbyDID, ⟨fun did doc hdoc => ?_, fun id r hget => ?_⟩, ?_⟩
  · unfold Store.getIdentity at hdoc
    rw [hdirectory] at hdoc
    exact h.controlled.documents did doc hdoc
  · unfold Store.getRecoveryRequest at hget
    rw [hrecoveries] at hget
    exact h.controlled.requests id r hget
  · rw [hdirectory]
    exact h.indexed

theorem rebound_unbindValidator (s : Store) (valoper : Bytes) :
    Rebound s (s.unbindValidator valoper) := rfl

/-- A step is a message, or a hook or a sweep that changes bindings only. -/
theorem bindings_of_hook {k : Keeper} {a : ValidatorAction} (h : BindingsSound v)
    (happly : applyValidator k minSelfStake v a = .ok v') :
    (∃ tx w, a = .message tx ∧ apply k tx.env v.world tx.action = .ok w ∧
      v' = { v with world := w }) ∨
    Rebound v.world.store v'.world.store ∧ Bindings v'.operators v'.world.store := by
  cases a with
  | message tx =>
    simp only [applyValidator, bind_eq_ok, pure_eq_ok] at happly
    obtain ⟨w, hw, rfl⟩ := happly
    exact Or.inl ⟨tx, w, rfl, hw, rfl⟩
  | createValidator height op validator =>
    simp only [applyValidator, bind_eq_ok, ensure_eq_ok, exists_const, pure_eq_ok] at happly
    obtain ⟨hnew, s, hcreated, rfl⟩ := happly
    exact Or.inr (bindings_afterValidatorCreated h.bindings hnew hcreated)
  | removeValidator op =>
    simp only [applyValidator, bind_eq_ok, ensure_eq_ok, exists_const, pure_eq_ok] at happly
    obtain ⟨-, rfl⟩ := happly
    refine Or.inr ⟨rebound_unbindValidator _ _, bindings_unbind h.bindings ?_⟩
    intro op' hop' hne
    refine List.mem_filter.2 ⟨hop', decide_eq_true ?_⟩
    rintro rfl
    exact hne rfl
  | endBlock ports last =>
    cases last with
    | none =>
      cases happly
      exact Or.inr ⟨rfl, h.bindings⟩
    | some vs =>
      simp only [applyValidator, bind_eq_ok, ensure_eq_ok, exists_const, pure_eq_ok] at happly
      obtain ⟨hlisted, rfl⟩ := happly
      have hcandidates : ∀ c ∈ vs.filterMap LastValidator.candidate,
          ∃ op ∈ v.operators, c.valoper = op.valoper := by
        intro c hc
        obtain ⟨val, hval, hcandidate⟩ := List.mem_filterMap.1 hc
        obtain ⟨consAddr, -, rfl⟩ := Option.map_eq_some_iff.1 hcandidate
        exact ⟨val.operator, hlisted val hval, rfl⟩
      exact Or.inr (bindings_sweep hcandidates h.sound.indexed h.bindings)

theorem bindingsSound_of_apply {k : Keeper} {a : ValidatorAction} (h : BindingsSound v)
    (happly : applyValidator k minSelfStake v a = .ok v') :
    BindingsSound v' := by
  rcases bindings_of_hook h happly with ⟨tx, w, -, hw, rfl⟩ | ⟨hrebound, hbindings⟩
  · obtain ⟨hbasic, hevent⟩ := event_of_apply hw
    exact ⟨sound_of_event hbasic hevent (fun _ hc => hc) (nameable_newController hbasic) h.sound,
      bindings_of_event hevent h.bindings⟩
  · exact ⟨h.sound.rebound hrebound, hbindings⟩

theorem bindingsSound_of_run (k : Keeper) (minSelfStake : Int) (h : BindingsSound v)
    (as : List ValidatorAction) : BindingsSound (run (validatorStep k minSelfStake) v as) := by
  refine @run_invariant _ _ (validatorStep k minSelfStake) BindingsSound ?_ _ h as
  intro v a hv
  exact commit_preserves (p := BindingsSound) hv fun v' happly => bindingsSound_of_apply hv happly

/-- An empty registry next to any founding set. -/
theorem bindingsSound_emptyRegistry (bank : Bank) (params : Params) (operators : List Operator) :
    BindingsSound ⟨emptyRegistry bank params, operators⟩ := by
  refine ⟨⟨filed_of_empty rfl rfl, ⟨fun _ _ hdoc => ?_, fun _ _ hget => ?_⟩, Directory.indexed_fresh⟩,
    ⟨paired_empty, fun _ _ hget => ?_, fun _ _ hget => ?_⟩⟩
  · cases hdoc
  · cases hget
  · cases hget
  · cases hget

/-- The two directions of the binding are inverse to each other, no end is bound twice, and a
bound DID is registered and not revoked. -/
structure BindingsBiject (s : Store) : Prop where
  inverse : ∀ did valoper,
    s.validatorForDID did = some valoper ↔ s.didForValidator valoper = some did
  oneValidator : ∀ did valoper valoper', s.didForValidator valoper = some did →
    s.didForValidator valoper' = some did → valoper = valoper'
  oneDID : ∀ did did' valoper, s.validatorForDID did = some valoper →
    s.validatorForDID did' = some valoper → did = did'
  standing : ∀ did valoper, s.validatorForDID did = some valoper →
    ∃ doc, s.getIdentity did = some doc ∧ doc.status ≠ .revoked

/-- One validator, one human: in every run from an empty registry, with any founding set. -/
theorem validator_bindings_biject (k : Keeper) (minSelfStake : Int) (bank : Bank) (params : Params)
    (operators : List Operator) (as : List ValidatorAction) :
    BindingsBiject
      (run (validatorStep k minSelfStake) ⟨emptyRegistry bank params, operators⟩ as).world.store := by
  have hsound := bindingsSound_of_run k minSelfStake (bindingsSound_emptyRegistry bank params operators) as
  obtain ⟨hpaired, -, hstanding⟩ := hsound.bindings
  exact ⟨hpaired, fun _ _ _ hget hget' => hpaired.symm.left_unique hget hget',
    fun _ _ _ hget hget' => hpaired.left_unique hget hget', hstanding⟩

example : (run (validatorStep smallKeeper 1) ⟨emptyRegistry ⟨∅, ∅⟩ smallParams, []⟩
    [.message ⟨smallEnv 1, trustIssuer⟩,
      .message ⟨smallEnv 2, smallRegister (accAddressString [21]) 1⟩,
      .createValidator 3 ⟨[21], by decide, by decide⟩ (some 1)]).world.store.validatorForDID
        (smallDID 1) = some (valAddressString [21]) := by
  decide +kernel

end PhiChain.Identity
