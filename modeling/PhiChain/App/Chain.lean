import PhiChain.App.Guards
import PhiChain.Institutions.Genesis

/-!
# Chain steps

One step of the chain is one action in a context of its own: a message of x/coin or
x/institutions, a fee deduction, a guarded burn, the sweeps of a block, or a restart
from an exported genesis. A failed action leaves the state as it was. A run is a
list of actions (`run (step k)`).
-/

set_option autoImplicit false

namespace PhiChain.App

open Foundations Sdk Institutions

variable {D : Type} [LinearOrder D]

inductive Action where
  | mint (msg : MsgInstitutionMint)
  | redeem (msg : MsgInstitutionRedeem)
  | register (msg : MsgRegisterInstitution)
  | remove (msg : MsgRemoveInstitution)
  | freeze (msg : MsgFreezeInstitution)
  | attest (msg : MsgPublishInstitutionAttestation)
  | updateParams (msg : Institutions.MsgUpdateParams)
  | setEmergency (msg : MsgSetEmergencyRedemption)
  | requestFx (msg : MsgRequestFxEntry)
  | guaranteeFx (msg : MsgGuaranteeFxEntry)
  | finalizeFx (msg : MsgFinalizeFxEntry)
  | sensitive (msg : SensitiveMsg)
  | transfer (msg : Coin.MsgTransfer)
  | deductFee (payer deductFrom : Bytes) (msgs : List Coin.FeeMsg)
  | withdrawRevenue (msg : Coin.MsgWithdrawRevenue)
  | updateCoinParams (msg : Coin.MsgUpdateParams)
  | slash (burns : List (StakingPool × Sdk.Coin))
  | govBurn (amt : { amt : Coins // amt.isValid })
  | beginBlock
  | restart

/-- Run a handler that touches x/institutions only. -/
def onInstitutions (w : World D) (x : Result (Store D)) : Result (World D) := do
  let s ← x
  return { w with inst := s }

/-- Run an operation that touches the bank only. -/
def onBank (w : World D) (x : Result Bank) : Result (World D) := do
  let b ← x
  return { w with bank := b }

/-- Run a handler that touches the bank and x/coin. -/
def onCoin (w : World D) (x : Result (Bank × Coin.Store)) : Result (World D) := do
  let r ← x
  return { w with bank := r.1, coin := r.2 }

theorem onInstitutions_ok {w w' : World D} {x : Result (Store D)}
    (h : onInstitutions w x = .ok w') : ∃ s, x = .ok s ∧ { w with inst := s } = w' := by
  simpa only [onInstitutions, bind_eq_ok, pure_eq_ok] using h

theorem onBank_ok {w w' : World D} {x : Result Bank} (h : onBank w x = .ok w') :
    ∃ b, x = .ok b ∧ { w with bank := b } = w' := by
  simpa only [onBank, bind_eq_ok, pure_eq_ok] using h

theorem onCoin_ok {w w' : World D} {x : Result (Bank × Coin.Store)} (h : onCoin w x = .ok w') :
    ∃ r, x = .ok r ∧ { w with bank := r.1, coin := r.2 } = w' := by
  simpa only [onCoin, bind_eq_ok, pure_eq_ok] using h

/-- Outcome of an action. -/
def apply (k : Keeper D) (ctx : Ctx) (w : World D) : Action → Result (World D)
  | .mint msg => do
    msg.validateBasic
    let r ← institutionMint k ctx msg w
    return r.2
  | .redeem msg => do
    msg.validateBasic
    let r ← institutionRedeem ctx msg w
    return r.2
  | .register msg => onInstitutions w (registerInstitution k ctx msg w.inst)
  | .remove msg => onInstitutions w (removeInstitution k ctx msg w.inst)
  | .freeze msg => onInstitutions w (freezeInstitution k ctx msg w.inst)
  | .attest msg => onInstitutions w (publishInstitutionAttestation ctx msg w.inst)
  | .updateParams msg => onInstitutions w (Institutions.updateParams k ctx msg w.inst)
  | .setEmergency msg => onInstitutions w (setEmergencyRedemption k ctx msg w.inst)
  | .requestFx msg => onInstitutions w (requestFxEntry msg w.inst)
  | .guaranteeFx msg => onInstitutions w (guaranteeFxEntry msg w.inst)
  | .finalizeFx msg => onInstitutions w (finalizeFxEntry k ctx msg w.inst)
  | .sensitive msg => do
    msg.validateBasic
    let r ← sensitiveAction k msg w.inst
    return { w with inst := r.2 }
  | .transfer msg => do
    msg.validateBasic
    onCoin w (Coin.transfer ctx msg w.bank w.coin)
  | .deductFee payer deductFrom msgs =>
    onCoin w (Coin.deductFee ctx payer deductFrom msgs w.bank w.coin)
  | .withdrawRevenue msg => onBank w (Coin.withdrawRevenue k.authority ctx msg w.bank w.coin)
  | .updateCoinParams msg => do
    let c ← Coin.updateParams k.authority msg w.coin
    return { w with coin := c }
  | .slash burns => onBank w (compensate k ctx burns w.inst w.bank)
  | .govBurn amt => onBank w (govBurnGuard ctx .gov amt.1 w.inst w.bank)
  -- x/coin begins the block before x/institutions
  | .beginBlock => .ok { w with
      coin := w.coin.pruneMicroQuota ctx
      inst := Institutions.beginBlock ctx w.inst }
  | .restart => initGenesis ctx (exportGenesis w.inst) w.bank w.coin

section Inversion

variable {k : Keeper D} {ctx : Ctx} {w w' : World D}

theorem apply_mint_ok {msg : MsgInstitutionMint} (h : apply k ctx w (.mint msg) = .ok w') :
    msg.validateBasic = .ok () ∧ ∃ r, institutionMint k ctx msg w = .ok (r, w') := by
  simp only [apply, bind_eq_ok, pure_eq_ok] at h
  obtain ⟨⟨⟩, hbasic, ⟨r, w₁⟩, hmint, rfl⟩ := h
  exact ⟨hbasic, r, hmint⟩

theorem apply_redeem_ok {msg : MsgInstitutionRedeem} (h : apply k ctx w (.redeem msg) = .ok w') :
    ∃ burned, institutionRedeem ctx msg w = .ok (burned, w') := by
  simp only [apply, bind_eq_ok, pure_eq_ok] at h
  obtain ⟨⟨⟩, -, ⟨burned, w₁⟩, hredeem, rfl⟩ := h
  exact ⟨burned, hredeem⟩

end Inversion

/-- The action is none of x/institutions. -/
def Action.sparesInst : Action → Bool
  | .transfer _ => true
  | .deductFee _ _ _ => true
  | .withdrawRevenue _ => true
  | .updateCoinParams _ => true
  | .slash _ => true
  | .govBurn _ => true
  | _ => false

theorem inst_of_apply {k : Keeper D} {ctx : Ctx} {w w' : World D} {a : Action}
    (ha : a.sparesInst = true) (h : apply k ctx w a = .ok w') : w'.inst = w.inst := by
  cases a with
  | transfer msg =>
    obtain ⟨⟨⟩, -, h⟩ := bind_eq_ok.1 h
    obtain ⟨r, -, rfl⟩ := onCoin_ok h
    rfl
  | deductFee =>
    obtain ⟨r, -, rfl⟩ := onCoin_ok h
    rfl
  | withdrawRevenue | slash | govBurn =>
    obtain ⟨b, -, rfl⟩ := onBank_ok h
    rfl
  | updateCoinParams msg =>
    simp only [apply, bind_eq_ok, pure_eq_ok] at h
    obtain ⟨c, -, rfl⟩ := h
    rfl
  | _ => cases ha

/-- One step: an error leaves the state as it was. -/
def step (k : Keeper D) (w : World D) (a : Ctx × Action) : World D :=
  commit w (apply k a.1 w a.2)

/-! ## Small chains

`smallWorld` has one institution whose vault backs ten uphi held by the bonded pool.
`multisigWorld` has one institution with root admin 1, a second admin 2 and an
attestation by 3, where mints from five toman need both admins. -/

def smallCtx (now : Int) : Ctx where
  blockTime := now
  accounts := smallAccounts
  bootstrapPhase := true
  subjectDID _ := none
  proposal _ := none

/-- A keeper whose digest is the hashed text itself. -/
def textKeeper : Keeper Bytes where
  authority := []
  sha256 := id
  verifySignature _ _ _ := false
  marshalParams _ := []

def smallInstitution : Institution :=
  { newInstitution (ascii "a") [] .financial 0 with vaultBalance := 1, attestedReserve := 1 }

def smallWorld : World Bytes where
  bank := (⟨∅, ∅⟩ : Bank).setBalance [3] Coin.denom 10 |>.setSupply Coin.denom 10
  coin := ⟨Coin.defaultParams, ∅, ∅⟩
  inst := Store.fresh.setInstitution smallInstitution

def multisigParams : ValidParams where
  toParams := { defaultParams with largeMintThresholdToman := ascii "5" }
  valid := by decide +kernel

def multisigInstitution : Institution :=
  { newInstitution (ascii "a") (accAddressString [1]) .financial 0 with attestedReserve := 100 }

def multisigStore : Store Bytes :=
  let s := ({ Store.fresh with params := multisigParams } : Store Bytes)
  let s := s.setInstitution multisigInstitution
  let s := (s.setRole (ascii "a") [2] .admin).setRole (ascii "a") [3] .compliance
  s.setLastAttestor (ascii "a") [3]

def multisigWorld : World Bytes where
  bank := ⟨∅, ∅⟩
  coin := ⟨Coin.defaultParams, ∅, ∅⟩
  inst := multisigStore

/-- A mint of ten toman to account 9. -/
def largeMint (admin : Bytes) : MsgInstitutionMint where
  admin := accAddressString admin
  institution := ascii "a"
  recipient := accAddressString [9]
  amountToman := ascii "10"
  depositRef := ascii "r"
  depositProof := []
  fxCurrency := []
  fxAmount := []
  fxTxRef := []
  kycTier := 0

/-- Amount of a mint that executed. -/
def mintedAmount (x : Result (MintResponse × World D)) : Option Int :=
  match x with
  | .ok (.minted uphi, _) => some uphi
  | _ => none

theorem mintedAmount_eq {x : Result (MintResponse × World D)} {uphi : Int}
    (h : mintedAmount x = some uphi) : ∃ w, x = .ok (.minted uphi, w) := by
  unfold mintedAmount at h
  split at h
  · cases h
    exact ⟨_, rfl⟩
  · cases h

end PhiChain.App
