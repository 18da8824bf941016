import PhiChain.Institutions.Store

/-!
# Institutions: minting

`institutionMint` is the mint handler: the checks (`mintChecks`), the large-mint
multisig (`mintGate`) and the execution (`executeMint`). A large mint below its
threshold is not an error: it leaves the signer's approval behind and mints
nothing.
-/

set_option autoImplicit false

namespace PhiChain.Institutions

open Foundations Sdk
open PhiChain.Coin (uphiPerPhi coinsOf denom)

variable {D : Type} [LinearOrder D]

/-! ## Rates and solvency -/

/-- Uphi of a toman amount, and whether the conversion is integral. -/
def mintedUphiForToman (toman : Int) (phiToToman : Nat) : Result (Int × Bool) := do
  let num ← intMul toman uphiPerPhi
  return (quo num phiToToman, num % (phiToToman : Int) = 0)

theorem mintedUphiForToman_ok {toman : Int} {phiToToman : Nat} {r : Int × Bool} :
    mintedUphiForToman toman phiToToman = .ok r ↔ Fits (toman * uphiPerPhi) ∧
      (uphiForToman toman phiToToman, decide (toman * uphiPerPhi % (phiToToman : Int) = 0)) = r := by
  simp only [mintedUphiForToman, bind_eq_ok, intMul_eq_ok, pure_eq_ok]
  constructor
  · rintro ⟨num, ⟨hfit, rfl⟩, rfl⟩
    exact ⟨hfit, rfl⟩
  · rintro ⟨hfit, rfl⟩
    exact ⟨_, ⟨hfit, rfl⟩, rfl⟩

def World.totalSupplyUphi (w : World D) : Int := w.bank.getSupply denom

/-- Global solvency: `supply_uphi * phi_to_toman = sum(vault_balance) * UphiPerPhi`. -/
def World.solvencyHolds (w : World D) : Prop :=
  w.totalSupplyUphi * (w.inst.params.phiToToman : Int) = w.inst.sumVaultBalance * uphiPerPhi

/-- The solvency invariant as the code evaluates it: both products are amounts. -/
def World.solvencyInvariant (w : World D) : Result Bool := do
  let sumVault ← intSum w.inst.institutions.vaultBalances
  let lhs ← intMul w.totalSupplyUphi w.inst.params.phiToToman
  let rhs ← intMul sumVault uphiPerPhi
  return lhs = rhs

/-- Write-path assertion of the solvency invariant. -/
def assertSolvency (w : World D) : Result Unit := do
  let holds ← w.solvencyInvariant
  ensure (holds = true) ⟨.solvencyBroken, "solvency"⟩

/-! ## Gates shared by mint and redeem -/

/-- Provenance fields are required for an fx institution and forbidden otherwise. -/
def validateFxMetadata (instType : InstitutionType) (currency amount txRef : Bytes) :
    Result Unit := do
  ensure (instType = .fx → currency ≠ [] ∧ amount ≠ [] ∧ txRef ≠ [])
    ⟨.invalidFxMetadata, "fx institution requires fx_currency, fx_amount and fx_tx_ref"⟩
  ensure (instType ≠ .fx → currency = [] ∧ amount = [] ∧ txRef = [])
    ⟨.invalidFxMetadata, "fx_* metadata is only allowed for fx institutions"⟩

def effectiveStaleness (floorSeconds instLatencySeconds : Nat) : Nat :=
  if instLatencySeconds = 0 then floorSeconds
  else if floorSeconds = 0 ∨ instLatencySeconds < floorSeconds then instLatencySeconds
  else floorSeconds

/-- The deadline is computed in 64-bit arithmetic; a negative attestation time is stale. -/
def isAttestationStale (lastAttestedAt blockTime : Int) (threshold : Nat) : Bool :=
  if threshold = 0 then false
  else if lastAttestedAt < 0 then true
  else 0 ≤ blockTime ∧ (lastAttestedAt + threshold) % 2 ^ 64 < blockTime

def Institution.isStaleAt (inst : Institution) (blockTime : Int) (floorSeconds : Nat) : Bool :=
  isAttestationStale inst.lastAttestedAt blockTime
    (effectiveStaleness floorSeconds inst.params.maxVaultAttestationLatencyS)

/-- At least two admin keys, a recorded attestor, and a minter other than the attestor. -/
def requireMintSeparation (s : Store D) (inst : Institution) (minterBech : Bytes) :
    Result Unit := do
  ensure (minAdminsForMint ≤ s.countAdmins inst % 2 ^ 32) ⟨.tooFewAdmins, "admin keys"⟩
  let minter ← orFail (accAddressFromBech32 minterBech) ⟨.invalidAddress, "minter"⟩
  let attestor ← orFail (s.lastAttestor inst.id)
    ⟨.attestorIsMinter, "no recorded reserve attestor; publish an attestation before minting"⟩
  ensure (attestor ≠ minter)
    ⟨.attestorIsMinter, "attested the reserve and cannot also authorise the mint"⟩

/-! ## KYC tiers and caps -/

def kycTierDailyLimit (p : InstitutionParams) (tier : Nat) : Int :=
  match p.kycTierLimits.find? fun kt => kt.tier = tier with
  | some kt => capInt kt.dailyLimitToman
  | none => 0

/-- The smallest positive tier limit, when there is one. -/
def strictestKycLimit (p : InstitutionParams) : Option Int :=
  p.kycTierLimits.foldl
    (fun strictest kt =>
      let lim := capInt kt.dailyLimitToman
      if lim ≤ 0 then strictest
      else
        match strictest with
        | some m => if lim < m then some lim else some m
        | none => some lim) none

/-- Mint limit of a recipient: the asserted tier's, failing closed to the strictest,
tightened by a recorded tier. -/
def effectiveMintKycDailyLimit (s : Store D) (inst : Institution) (recipient : Bytes)
    (asserted : Nat) : Int :=
  let byTier := kycTierDailyLimit inst.params asserted
  let limit := if 0 < byTier then byTier else (strictestKycLimit inst.params).getD 0
  if limit ≤ 0 then 0
  else
    match s.kycTiers.get? ⟨inst.id, recipient⟩ with
    | some recorded =>
      let rl := kycTierDailyLimit inst.params recorded
      if 0 < rl ∧ rl < limit then rl else limit
    | none => limit

/-- A cap that is set bounds a counter. -/
def UnderCap (lim counter : Int) : Prop := 0 < lim → counter ≤ lim

instance (lim counter : Int) : Decidable (UnderCap lim counter) :=
  inferInstanceAs (Decidable (0 < lim → counter ≤ lim))

def enforceMintCaps (ctx : Ctx) (s : Store D) (inst : Institution) (recipient : Bytes)
    (toman : Int) (kycTier : Nat) : Result Unit := do
  let day := ctx.dayIndex
  let total := s.getCounter (counterTotalKey inst.id kindMintDaily day)
  let user := s.getCounter (counterUserKey inst.id kindMintUser day recipient)
  ensure (UnderCap (capInt s.params.mintCeilingPerTx) toman)
    ⟨.capExceeded, "mint per_tx exceeds protocol ceiling"⟩
  ensure (UnderCap (capInt s.params.mintCeilingDaily) (total + toman))
    ⟨.capExceeded, "mint daily exceeds protocol ceiling"⟩
  ensure (UnderCap (capInt inst.params.caps.mintPerTx) toman) ⟨.capExceeded, "mint per_tx"⟩
  ensure (UnderCap (capInt inst.params.caps.mintDaily) (total + toman))
    ⟨.capExceeded, "mint daily cap"⟩
  ensure (UnderCap (capInt inst.params.caps.mintPerUser) (user + toman))
    ⟨.capExceeded, "mint per_user cap"⟩
  ensure (UnderCap (effectiveMintKycDailyLimit s inst recipient kycTier) (user + toman))
    ⟨.kycTierExceeded, "mint KYC tier daily limit"⟩

def addMintCounters (ctx : Ctx) (s : Store D) (inst : Institution) (recipient : Bytes)
    (toman : Int) : Store D :=
  let s := s.addCounter (counterTotalKey inst.id kindMintDaily ctx.dayIndex) toman
  s.addCounter (counterUserKey inst.id kindMintUser ctx.dayIndex recipient) toman

/-! ## The mint handler -/

structure MsgInstitutionMint where
  admin : Bytes
  institution : Bytes
  recipient : Bytes
  amountToman : Bytes
  depositRef : Bytes
  depositProof : Bytes
  fxCurrency : Bytes
  fxAmount : Bytes
  fxTxRef : Bytes
  kycTier : Nat

def validateRefLen (field : String) (s : Bytes) : Result Unit :=
  ensure (s.length ≤ maxRefLen) ⟨.invalidRequest, field ++ " length exceeds the bound"⟩

def validateFxFieldLens (fxCurrency fxAmount fxTxRef : Bytes) : Result Unit := do
  ensure (fxCurrency.length ≤ maxFxFieldLen) ⟨.invalidRequest, "fx_currency length exceeds the bound"⟩
  ensure (fxAmount.length ≤ maxFxFieldLen) ⟨.invalidRequest, "fx_amount length exceeds the bound"⟩
  ensure (fxTxRef.length ≤ maxFxFieldLen) ⟨.invalidRequest, "fx_tx_ref length exceeds the bound"⟩

def MsgInstitutionMint.validateBasic (msg : MsgInstitutionMint) : Result Unit := do
  ensure ((accAddressFromBech32 msg.admin).isSome) ⟨.invalidAddress, "invalid admin"⟩
  ensure ((accAddressFromBech32 msg.recipient).isSome) ⟨.invalidAddress, "invalid recipient"⟩
  ensure (msg.institution ≠ []) ⟨.institutionNotFound, "institution cannot be empty"⟩
  ensure (Coin.amountIs msg.amountToman fun v => 0 < v) ⟨.invalidAmount, "amount_toman"⟩
  validateRefLen "deposit_ref" msg.depositRef
  validateFxFieldLens msg.fxCurrency msg.fxAmount msg.fxTxRef

def depositMessageDomain : Bytes := ascii "phi-deposit-attestation-v2"

def buildDepositMessage (instID recipient amountToman depositRef : Bytes) (isFx : Bool)
    (fxCurrency fxAmount fxTxRef : Bytes) : Bytes :=
  lengthPrefixed ([depositMessageDomain, instID, recipient, amountToman, depositRef] ++
    if isFx then [fxCurrency, fxAmount, fxTxRef] else [])

/-- What the checks of a mint settle on. -/
structure MintPlan where
  inst : Institution
  recipient : Bytes
  toman : Int
  uphi : Int

/-- A text naming a positive amount. -/
def positiveAmount (s : Bytes) (field : String) : Result Int := do
  let v ← orFail (newIntFromString s) ⟨.invalidAmount, field⟩
  ensure (0 < v) ⟨.invalidAmount, field⟩
  return v

/-- Integral, positive uphi of a toman amount. -/
def integralUphi (s : Store D) (toman : Int) : Result Int := do
  let converted ← mintedUphiForToman toman s.params.phiToToman
  ensure (converted.2 = true ∧ 0 < converted.1) ⟨.nonIntegralMint, "amount_toman"⟩
  return converted.1

/-- Checks of a mint, up to the large-mint multisig. -/
def mintChecks (k : Keeper D) (ctx : Ctx) (msg : MsgInstitutionMint) (s : Store D) :
    Result MintPlan := do
  let inst ← orFail (s.getInstitution msg.institution) ⟨.institutionNotFound, "id"⟩
  s.requireRole inst msg.admin [.operator, .admin]
  validateFxMetadata inst.institutionType msg.fxCurrency msg.fxAmount msg.fxTxRef
  ensure (msg.depositRef ≠ []) ⟨.missingRef, "deposit_ref is required"⟩
  ensure (s.depositSeen inst.id directionMint msg.depositRef = false)
    ⟨.duplicateDeposit, "deposit_ref"⟩
  ensure (inst.status ≠ .frozen) ⟨.institutionFrozen, ""⟩
  ensure (inst.pausedMint = false) ⟨.mintPaused, ""⟩
  ensure (inst.isStaleAt ctx.blockTime s.params.maxAttestationStalenessSeconds = false)
    ⟨.attestationStale, "last_attested_at"⟩
  requireMintSeparation s inst msg.admin
  let toman ← positiveAmount msg.amountToman "amount_toman"
  ensure (inst.depositPubkey = [] ∨ k.verifySignature inst.depositPubkey
      (buildDepositMessage inst.id msg.recipient msg.amountToman msg.depositRef
        (inst.institutionType = .fx) msg.fxCurrency msg.fxAmount msg.fxTxRef) msg.depositProof)
    ⟨.invalidDepositProof, "deposit_proof verification failed"⟩
  let uphi ← integralUphi s toman
  let newVault ← intAdd inst.vaultBalance toman
  ensure (newVault ≤ inst.attestedReserve)
    ⟨.mintExceedsBacking, "new vault_balance > attested_reserve"⟩
  let recipient ← orFail (accAddressFromBech32 msg.recipient) ⟨.invalidAddress, "recipient"⟩
  enforceMintCaps ctx s inst recipient toman msg.kycTier
  return ⟨inst, recipient, toman, uphi⟩

/-- What a mint that passed its checks satisfies. -/
structure MintAccepted (k : Keeper D) (ctx : Ctx) (msg : MsgInstitutionMint) (s : Store D)
    (plan : MintPlan) : Prop where
  found : s.getInstitution msg.institution = some plan.inst
  role : s.requireRole plan.inst msg.admin [.operator, .admin] = .ok ()
  ref : msg.depositRef ≠ []
  fresh : s.depositSeen plan.inst.id directionMint msg.depositRef = false
  separation : requireMintSeparation s plan.inst msg.admin = .ok ()
  toman : newIntFromString msg.amountToman = some plan.toman
  positive : 0 < plan.toman
  uphi : integralUphi s plan.toman = .ok plan.uphi
  backing : plan.inst.vaultBalance + plan.toman ≤ plan.inst.attestedReserve
  recipient : accAddressFromBech32 msg.recipient = some plan.recipient
  caps : enforceMintCaps ctx s plan.inst plan.recipient plan.toman msg.kycTier = .ok ()

variable {k : Keeper D} {msg : MsgInstitutionMint}

theorem mintChecks_ok {ctx : Ctx} {s : Store D} {plan : MintPlan}
    (h : mintChecks k ctx msg s = .ok plan) : MintAccepted k ctx msg s plan := by
  simp only [mintChecks, positiveAmount, bind_eq_ok, ensure_eq_ok, orFail_eq_ok, pure_eq_ok,
    intAdd_eq_ok, exists_const] at h
  obtain ⟨inst, found, ⟨⟩, role, ⟨⟩, -, ref, fresh, -, -, -, ⟨⟩, separation, toman,
    ⟨v, htoman, positive, rfl⟩, -, uphi, huphi, newVault, ⟨-, rfl⟩, backing, recipient, hrecipient,
    ⟨⟩, caps, rfl⟩ := h
  exact ⟨found, role, ref, fresh, separation, htoman, positive, huphi, backing, hrecipient, caps⟩

/-- Content hash under which approvals of a large mint are collected. -/
def mintContentHash (k : Keeper D) (instID : Bytes) (msg : MsgInstitutionMint) : D :=
  k.contentHashOf [directionMint, instID, msg.recipient, msg.amountToman, msg.depositRef,
    msg.fxCurrency, msg.fxAmount, msg.fxTxRef]

/-- A mint at or above the governed threshold. -/
def isLargeMint (s : Store D) (toman : Int) : Prop :=
  0 < capInt s.params.largeMintThresholdToman ∧ capInt s.params.largeMintThresholdToman ≤ toman

instance (s : Store D) (toman : Int) : Decidable (isLargeMint s toman) :=
  inferInstanceAs (Decidable (_ ∧ _))

/-- Outcome of the large-mint multisig: go ahead, or wait for more approvals. -/
inductive MintGate where
  | open
  | pending (r : SensitiveResult)

/-- A large mint collects admin approvals; the approvals are used up when it goes ahead. -/
def mintGate (k : Keeper D) (msg : MsgInstitutionMint) (plan : MintPlan) (s : Store D) :
    Result (MintGate × Store D) :=
  if isLargeMint s plan.toman then do
    let ch := mintContentHash k plan.inst.id msg
    let (r, s) ← trySensitive s plan.inst msg.admin ch
    if r.executed then return (.open, s.clearApprovals plan.inst.id ch)
    else return (.pending r, s)
  else return (.open, s)

/-- Outcomes of the gate: a small mint passes, a large one records an approval first. -/
theorem mintGate_ok {plan : MintPlan} {s s' : Store D} {gate : MintGate}
    (h : mintGate k msg plan s = .ok (gate, s')) :
    let ch := mintContentHash k plan.inst.id msg
    (¬ isLargeMint s plan.toman ∧ gate = .open ∧ s' = s) ∨
      (isLargeMint s plan.toman ∧ ∃ signer, accAddressFromBech32 msg.admin = some signer ∧
        s.effectiveRole plan.inst signer = .admin ∧
        ((∃ r, gate = .pending r ∧ s' = s.recordApproval plan.inst ch signer) ∨
          (gate = .open ∧
            s' = (s.recordApproval plan.inst ch signer).clearApprovals plan.inst.id ch))) := by
  intro ch
  unfold mintGate at h
  split at h
  · rename_i hlarge
    obtain ⟨⟨r, s₁⟩, htry, h⟩ := bind_eq_ok.1 h
    obtain ⟨signer, hsigner, hrole, rfl, -⟩ := trySensitive_ok htry
    refine .inr ⟨hlarge, signer, hsigner, hrole, ?_⟩
    dsimp only at h
    split at h
    · cases h
      exact .inr ⟨rfl, rfl⟩
    · cases h
      exact .inl ⟨r, rfl, rfl⟩
  · rename_i hsmall
    cases h
    exact .inl ⟨hsmall, rfl, rfl⟩

/-- The gate touches approvals only. -/
theorem mintGate_frame {plan : MintPlan} {s s' : Store D} {gate : MintGate}
    (h : mintGate k msg plan s = .ok (gate, s')) :
    ∃ approvals, s' = { s with approvals := approvals } := by
  obtain ⟨-, -, rfl⟩ | ⟨-, signer, -, -, ⟨r, -, rfl⟩ | ⟨-, rfl⟩⟩ := mintGate_ok h
  · exact ⟨s'.approvals, rfl⟩
  · exact ⟨_, rfl⟩
  · exact ⟨_, rfl⟩

/-- Uphi of a mint that reaches the recipient. -/
def MintPlan.toCustomer (plan : MintPlan) (p : Params) : Int := plan.uphi - p.protocolFee plan.uphi

/-- Mint the full backed amount and distribute it. -/
def mintTransfers (ctx : Ctx) (plan : MintPlan) (p : Params) (b : Bank) : Result Bank := do
  let b ← b.mintCoins ctx.accounts .institutions (coinsOf plan.uphi)
  let b ← b.sendCoinsFromModuleToAccount ctx.accounts .institutions plan.recipient
    (coinsOf (plan.toCustomer p))
  if 0 < p.protocolFee plan.uphi then
    b.sendCoinsFromModuleToModule ctx.accounts .institutions .phiRevenue
      (coinsOf (p.protocolFee plan.uphi))
  else .ok b

/-- Record vault, counters and the idempotency marker of a mint. -/
def mintStore (ctx : Ctx) (msg : MsgInstitutionMint) (plan : MintPlan) (s : Store D) : Store D :=
  let s := s.setInstitution { plan.inst with vaultBalance := plan.inst.vaultBalance + plan.toman }
  let s := addMintCounters ctx s plan.inst plan.recipient plan.toman
  s.markDeposit plan.inst.id directionMint msg.depositRef

/-- The sums that the counters of a mint come to. -/
def mintCounterSums (ctx : Ctx) (plan : MintPlan) (s : Store D) : List Int :=
  [s.getCounter (counterTotalKey plan.inst.id kindMintDaily ctx.dayIndex) + plan.toman,
    s.getCounter (counterUserKey plan.inst.id kindMintUser ctx.dayIndex plan.recipient) + plan.toman]

/-- The state a mint builds; the coin age is credited to the recipient string. -/
def mintedWorld (ctx : Ctx) (msg : MsgInstitutionMint) (plan : MintPlan) (w : World D) :
    Result (World D) := do
  let customer := plan.toCustomer w.inst.params.toParams
  ensureFit [plan.uphi * w.inst.params.protocolFeeBps]
  let bank ← mintTransfers ctx plan w.inst.params.toParams w.bank
  ensureFit (w.coin.creditAmounts msg.recipient [⟨customer, ctx.blockTime⟩] ++
    mintCounterSums ctx plan w.inst)
  return ⟨bank, w.coin.addCoins msg.recipient customer ctx.blockTime, mintStore ctx msg plan w.inst⟩

/-- Execution of a mint; solvency is asserted at the end. -/
def executeMint (ctx : Ctx) (msg : MsgInstitutionMint) (plan : MintPlan) (w : World D) :
    Result (World D) := do
  let w' ← mintedWorld ctx msg plan w
  assertSolvency w'
  return w'

theorem mintedWorld_ok {ctx : Ctx} {plan : MintPlan} {w w' : World D}
    (h : mintedWorld ctx msg plan w = .ok w') :
    ∃ b, mintTransfers ctx plan w.inst.params.toParams w.bank = .ok b ∧
      w' = ⟨b, w.coin.addCoins msg.recipient (plan.toCustomer w.inst.params.toParams) ctx.blockTime,
        mintStore ctx msg plan w.inst⟩ := by
  simp only [mintedWorld, bind_eq_ok, pure_eq_ok] at h
  obtain ⟨⟨⟩, -, b, hb, ⟨⟩, -, rfl⟩ := h
  exact ⟨b, hb, rfl⟩

/-- Response of the mint handler: the minted amount, or the state of the approvals. -/
inductive MintResponse where
  | minted (uphi : Int)
  | pending (r : SensitiveResult)

def institutionMint (k : Keeper D) (ctx : Ctx) (msg : MsgInstitutionMint) (w : World D) :
    Result (MintResponse × World D) := do
  let plan ← mintChecks k ctx msg w.inst
  let (gate, inst) ← mintGate k msg plan w.inst
  let w : World D := { w with inst := inst }
  match gate with
  | .pending r => return (.pending r, w)
  | .open =>
    let w ← executeMint ctx msg plan w
    return (.minted plan.uphi, w)

/-- A mint that went through the gate, or one that waits for approvals. -/
theorem institutionMint_ok {ctx : Ctx} {w w' : World D} {r : MintResponse}
    (h : institutionMint k ctx msg w = .ok (r, w')) :
    ∃ plan gate s, MintAccepted k ctx msg w.inst plan ∧ mintGate k msg plan w.inst = .ok (gate, s) ∧
      ((∃ p, gate = .pending p ∧ r = .pending p ∧ w' = { w with inst := s }) ∨
        (gate = .open ∧ r = .minted plan.uphi ∧ ∃ b,
          mintTransfers ctx plan s.params.toParams w.bank = .ok b ∧
          w' = ⟨b, w.coin.addCoins msg.recipient (plan.toCustomer s.params.toParams) ctx.blockTime,
            mintStore ctx msg plan s⟩)) := by
  simp only [institutionMint, bind_eq_ok] at h
  obtain ⟨plan, hplan, ⟨gate, s⟩, hgate, h⟩ := h
  refine ⟨plan, gate, s, mintChecks_ok hplan, hgate, ?_⟩
  cases gate with
  | pending p =>
    cases h
    exact .inl ⟨p, rfl, rfl, rfl⟩
  | «open» =>
    simp only [executeMint, bind_eq_ok, pure_eq_ok] at h
    obtain ⟨w₁, ⟨_, hw, ⟨⟩, -, rfl⟩, heq⟩ := h
    obtain ⟨rfl, rfl⟩ := Prod.mk.inj heq
    obtain ⟨b, hb, rfl⟩ := mintedWorld_ok hw
    exact .inr ⟨rfl, rfl, b, hb, rfl⟩

/-- A mint leaves the coin ages or credits one amount to the recipient string. -/
theorem institutionMint_coin {ctx : Ctx} {w w' : World D} {r : MintResponse}
    (h : institutionMint k ctx msg w = .ok (r, w')) :
    w'.coin = w.coin ∨ ∃ amount,
      ensureFit (w.coin.creditAmounts msg.recipient [⟨amount, ctx.blockTime⟩]) = .ok () ∧
      w'.coin = w.coin.addCoins msg.recipient amount ctx.blockTime := by
  simp only [institutionMint, bind_eq_ok] at h
  obtain ⟨plan, -, ⟨gate, s⟩, -, h⟩ := h
  cases gate with
  | pending p =>
    obtain ⟨-, rfl⟩ := Prod.mk.inj (Except.ok.inj h)
    exact .inl rfl
  | «open» =>
    simp only [executeMint, mintedWorld, bind_eq_ok, pure_eq_ok] at h
    obtain ⟨w₁, ⟨_, ⟨⟨⟩, -, b, -, ⟨⟩, hfit, rfl⟩, ⟨⟩, -, rfl⟩, heq⟩ := h
    obtain ⟨-, rfl⟩ := Prod.mk.inj heq
    refine .inr ⟨_, ?_, rfl⟩
    rw [ensureFit_eq_ok] at hfit ⊢
    exact fun v hv => hfit v (List.mem_append_left _ hv)

end PhiChain.Institutions
