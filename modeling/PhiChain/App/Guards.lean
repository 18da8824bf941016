import PhiChain.Institutions.Redeem

/-!
# Burns outside the institutions module

Staking burns slashed tokens and governance burns deposits, both without touching a
vault. The application wraps both: `compensate` mints the slashed supply again for
the penalty destination, and `govBurnGuard` sends a burned deposit to the fee
collector while any vault is backed. Parameters that arm such burns are refused at ingress
(`deposit_burn_unarmed_iff`).
-/

set_option autoImplicit false

namespace PhiChain.App

open Foundations Sdk Institutions
open PhiChain.Coin (coinsOf denom)

variable {D : Type} [LinearOrder D]

/-! ## Slash compensation -/

/-- First readable address of the penalty destination, the operator and the authority. -/
def penaltyDestination (k : Keeper D) (s : Store D) : Option Bytes :=
  [s.params.penaltyDestination, s.params.operator, k.authority].findSome? fun candidate =>
    if candidate = [] then none else accAddressFromBech32 candidate

/-- Mint the slashed amount and route it; what cannot be sent stays in escrow. -/
def redirectSlashedToPenalty (k : Keeper D) (ctx : Ctx) (slashedUphi : Int) (s : Store D)
    (b : Bank) : Result Bank :=
  if 0 < slashedUphi then do
    let b ← b.mintCoins ctx.accounts .institutions (coinsOf slashedUphi)
    match penaltyDestination k s with
    | none => return b
    | some dest =>
      match b.sendCoinsFromModuleToAccount ctx.accounts .institutions dest (coinsOf slashedUphi)
        with
      | .ok sent => return sent
      | .error _ => return b
  else .ok b

/-- Staking pools a slash burns from. -/
inductive StakingPool where
  | bonded
  | notBonded
  deriving DecidableEq

def StakingPool.moduleName : StakingPool → ModuleName
  | .bonded => .bondedPool
  | .notBonded => .notBondedPool

/-- Burn slashed tokens from a pool; nothing happens for an amount that is not positive. -/
def burnPoolTokens (ctx : Ctx) (b : Bank) (burn : StakingPool × Sdk.Coin) : Result Bank :=
  if 0 < burn.2.amount then b.burnCoins ctx.accounts burn.1.moduleName [burn.2] else .ok b

/-- What a slash does to the bank: burns of the bond denomination from the pools, one
after another. -/
def slash (ctx : Ctx) (burns : List (StakingPool × Sdk.Coin)) (b : Bank) : Result Bank :=
  burns.foldlM (burnPoolTokens ctx) b

/-- Slash, measure the supply that went, and compensate it. -/
def compensate (k : Keeper D) (ctx : Ctx) (burns : List (StakingPool × Sdk.Coin)) (s : Store D)
    (b : Bank) : Result Bank := do
  let slashed ← slash ctx burns b
  redirectSlashedToPenalty k ctx (b.getSupply denom - slashed.getSupply denom) s slashed

/-! ## Governance burns -/

/-- `BurnCoins` as the governance module sees it. -/
def govBurnGuard (ctx : Ctx) (name : ModuleName) (amt : Coins) (s : Store D) (b : Bank) :
    Result Bank :=
  let uphi := amt.amountOf denom
  if name = .gov ∧ 0 < uphi ∧ 0 < s.sumVaultBalance then do
    let redirect := coinsOf uphi
    let b ← b.sendCoinsFromModuleToModule ctx.accounts .gov .feeCollector redirect
    let rest := amt.sub redirect
    -- only vault-backed uphi is protected; the remainder burns as usual
    if rest = [] then return b else b.burnCoins ctx.accounts name rest
  else b.burnCoins ctx.accounts name amt

/-! ## Deposit burns at ingress -/

/-- The parameters of x/gov that decide what becomes of a deposit. -/
structure GovParams where
  burnVoteVeto : Bool
  burnVoteQuorum : Bool
  burnProposalDepositPrevote : Bool
  proposalCancelDest : Bytes

/-- A message as the decorator reads it; `none` are messages of a proposal that do not unpack. -/
inductive GovMsg where
  | submitProposal (msgs : Option (List GovMsg))
  | updateParams (params : GovParams)
  | other

def enablesDepositBurn (p : GovParams) : Bool :=
  p.burnVoteVeto ∨ p.burnVoteQuorum ∨ p.burnProposalDepositPrevote ∨ p.proposalCancelDest = []

namespace RejectUnsafeGovParamsDecorator

mutual

def check (vaults : Int) : GovMsg → Result Unit
  | .submitProposal none => .ok ()
  | .submitProposal (some inner) => checkAll vaults inner
  | .updateParams p => ensure (¬ (enablesDepositBurn p = true ∧ 0 < vaults))
      ⟨.invalidRequest, "governance deposit-burn (BurnVoteVeto/BurnVoteQuorum/BurnProposalDepositPrevote or an empty ProposalCancelDest) may not be enabled while any institution vault is non-zero: uphi is vault-backed, so burning deposits would break the solvency invariant"⟩
  | .other => .ok ()

/-- The loop over the messages of a transaction or of a proposal. -/
def checkAll (vaults : Int) : List GovMsg → Result Unit
  | [] => .ok ()
  | msg :: rest => do
    check vaults msg
    checkAll vaults rest

end

def anteHandle (s : Store D) (msgs : List GovMsg) : Result Unit := checkAll s.sumVaultBalance msgs

/-- A message is another one or stands in the proposal that this submits, at any depth. -/
inductive Proposes (m : GovMsg) : GovMsg → Prop where
  | itself : Proposes m m
  | inside {inner : List GovMsg} {sub : GovMsg} (member : sub ∈ inner) (within : Proposes m sub) :
      Proposes m (.submitProposal (some inner))

/-- Whatever change of parameters under the message lets deposits burn, no vault is backed. -/
def Safe (vaults : Int) (msg : GovMsg) : Prop :=
  ∀ p, Proposes (.updateParams p) msg → enablesDepositBurn p = true → vaults ≤ 0

mutual

theorem check_iff {vaults : Int} : ∀ msg, check vaults msg = .ok () ↔ Safe vaults msg
  | .submitProposal none => iff_of_true rfl fun _ h => nomatch h
  | .submitProposal (some inner) => by
    rw [check, checkAll_iff inner]
    refine ⟨fun h p hp => ?_, fun h sub hsub p hp => h p (.inside hsub hp)⟩
    cases hp with
    | inside member within => exact h _ member p within
  | .updateParams p => by
    rw [check, ensure_eq_ok]
    refine ⟨fun h q hq hburn => ?_, fun h hburn => absurd (h p .itself hburn.1) hburn.2.not_ge⟩
    cases hq
    exact not_lt.1 fun hbacked => h ⟨hburn, hbacked⟩
  | .other => iff_of_true rfl fun _ h => nomatch h

theorem checkAll_iff {vaults : Int} :
    ∀ msgs, checkAll vaults msgs = .ok () ↔ ∀ msg ∈ msgs, Safe vaults msg
  | [] => iff_of_true rfl (List.forall_mem_nil _)
  | msg :: rest => by
    rw [checkAll, List.forall_mem_cons, ← check_iff msg, ← checkAll_iff rest, bind_eq_ok]
    exact ⟨fun ⟨⟨⟩, hmsg, hrest⟩ => ⟨hmsg, hrest⟩, fun ⟨hmsg, hrest⟩ => ⟨(), hmsg, hrest⟩⟩

end

/-- The decorator lets a transaction pass exactly when every change of the parameters of x/gov in
it, directly or in proposals nested to any depth, leaves deposits unburned or comes while no vault
holds backing. -/
theorem deposit_burn_unarmed_iff (s : Store D) (msgs : List GovMsg) :
    anteHandle s msgs = .ok () ↔ ∀ msg ∈ msgs, ∀ p, Proposes (.updateParams p) msg →
      enablesDepositBurn p = true → s.sumVaultBalance ≤ 0 :=
  checkAll_iff msgs

end RejectUnsafeGovParamsDecorator

end PhiChain.App
