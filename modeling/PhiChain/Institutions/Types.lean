import PhiChain.Coin.Keeper

/-!
# Institutions: records, parameters and rates

Data of x/institutions as its handlers read it. Amounts that messages and
parameters carry as text stay text and are read through `capInt` and
`newIntFromString`; the vault balance and the attested reserve, which handlers
write only from computed integers, are the integers.

Parameters are stored only after validation, so the store holds `ValidParams`;
`ValidParams.rate_dvd` and `ValidParams.rate_pos` are what the conversion between
toman and uphi rests on.
-/

set_option autoImplicit false

namespace PhiChain.Institutions

open Foundations Sdk
open PhiChain.Coin (uphiPerPhi bpsDenominator)

inductive InstitutionStatus where
  | unspecified
  | healthy
  | lowLiq
  | frozen
  deriving DecidableEq

inductive InstitutionType where
  | unspecified
  | financial
  | fx
  deriving DecidableEq

inductive InstitutionRole where
  | unspecified
  | admin
  | operator
  | finance
  | compliance
  | developer
  | viewer
  deriving DecidableEq

/-- Wire number of a role. -/
def InstitutionRole.number : InstitutionRole → Nat
  | .unspecified => 0
  | .admin => 1
  | .operator => 2
  | .finance => 3
  | .compliance => 4
  | .developer => 5
  | .viewer => 6

inductive FxEntryStatus where
  | unspecified
  | requested
  | guaranteed
  | finalized
  deriving DecidableEq

/-- Operational limits in toman; empty or zero is no cap. -/
structure Caps where
  mintDaily : Bytes
  mintPerTx : Bytes
  mintPerUser : Bytes
  redeemDaily : Bytes
  redeemPerTx : Bytes
  redeemPerUser : Bytes
  deriving DecidableEq

structure KycTierLimit where
  tier : Nat
  dailyLimitToman : Bytes
  deriving DecidableEq

structure InstitutionParams where
  caps : Caps
  kycTierLimits : List KycTierLimit
  maxVaultAttestationLatencyS : Nat
  sensitiveThreshold : Nat
  deriving DecidableEq

def Caps.unset : Caps := ⟨[], [], [], [], [], []⟩

def InstitutionParams.unset : InstitutionParams := ⟨Caps.unset, [], 0, 0⟩

/-- Record of a registered institution. The app display configuration is kept in its
wire encoding. -/
structure Institution where
  id : Bytes
  admin : Bytes
  status : InstitutionStatus
  vaultBalance : Int
  attestedReserve : Int
  pausedMint : Bool
  appConfig : Bytes
  params : InstitutionParams
  institutionType : InstitutionType
  depositPubkey : Bytes
  lastAttestedAt : Int

/-- Role grant as iteration returns it: the grantee in its canonical spelling. -/
structure RoleGrant where
  address : Bytes
  role : InstitutionRole
  deriving DecidableEq

/-- Pending fx onboarding request; the fx id is the key it is stored under. -/
structure FxEntryRequest where
  applicant : Bytes
  guarantorId : Bytes
  status : FxEntryStatus
  deriving DecidableEq

structure EmergencyRedemption where
  active : Bool
  startedAt : Int
  capBeforeDay30 : Bytes
  capFromDay30 : Bytes
  capFromDay60 : Bytes
  deriving DecidableEq

/-- Module parameters. -/
structure Params where
  operator : Bytes
  phiToToman : Nat
  redeemFloorPerTx : Bytes
  emergencyRedemption : EmergencyRedemption
  penaltyDestination : Bytes
  largeMintThresholdToman : Bytes
  mintCeilingPerTx : Bytes
  mintCeilingDaily : Bytes
  redeemDailyCapPerDidUphi : Bytes
  protocolFeeBps : Nat
  maxAttestationStalenessSeconds : Nat
  deriving DecidableEq

def defaultPhiToToman : Nat := 100000

def defaultSensitiveThreshold : Nat := 2

def defaultProtocolFeeBps : Nat := 20

def maxProtocolFeeBps : Nat := 1000

def maxAttestationStalenessCeiling : Nat := 90 * 24 * 60 * 60

def emergencyDay30 : Int := 30 * 86400

def emergencyDay60 : Int := 60 * 86400

def emergencyDay90 : Int := 90 * 86400

def defaultEmergencyCapFromDay30Toman : Bytes := ascii "20000000"

def defaultEmergencyCapFromDay60Toman : Bytes := ascii "200000000"

def maxInstitutionIDLen : Nat := 255

def maxRefLen : Nat := 128

def maxFxFieldLen : Nat := 128

def minAdminsForMint : Nat := 2

def defaultParams : Params where
  operator := []
  phiToToman := defaultPhiToToman
  redeemFloorPerTx := ascii "100000"
  emergencyRedemption := ⟨false, 0, [], [], []⟩
  penaltyDestination := []
  largeMintThresholdToman := []
  mintCeilingPerTx := []
  mintCeilingDaily := []
  redeemDailyCapPerDidUphi := ascii "200000000"
  protocolFeeBps := defaultProtocolFeeBps
  maxAttestationStalenessSeconds := 24 * 60 * 60

/-! ## Caps and the redeem floor -/

/-- Amount of a cap; empty, unreadable or negative is zero, which means no cap. -/
def capInt (s : Bytes) : Int :=
  match newIntFromString s with
  | some v => if v < 0 then 0 else v
  | none => 0

/-- A configured redeem cap raised to the floor. -/
def atLeastFloor (cap floor : Int) : Int :=
  if 0 < cap ∧ 0 < floor ∧ cap < floor then floor else cap

/-- Uphi of a toman amount, as a number. -/
def uphiForToman (toman : Int) (phiToToman : Nat) : Int := quo (toman * uphiPerPhi) phiToToman

/-- The floor in uphi, for the caps kept in uphi. -/
def Params.redeemFloorUphi (p : Params) : Result Int :=
  let toman := capInt p.redeemFloorPerTx
  if toman ≤ 0 ∨ p.phiToToman = 0 then .ok 0
  else do
    let num ← intMul toman uphiPerPhi
    return if num % (p.phiToToman : Int) ≠ 0 then 0 else quo num p.phiToToman

/-- Protocol cut of an amount, rounded down. -/
def Params.protocolFee (p : Params) (amount : Int) : Int :=
  if p.protocolFeeBps = 0 then 0 else quo (amount * p.protocolFeeBps) bpsDenominator

/-- Field name of a tier limit in errors. -/
def kycTierLimitName (kt : KycTierLimit) : String := "kyc_tier_limit[" ++ toString kt.tier ++ "]"

/-- The first redeem cap that is positive and below the floor. -/
def InstitutionParams.redeemCapsBelowFloor (p : InstitutionParams) (floor : Int) :
    Option (String × Int) :=
  if floor ≤ 0 then none
  else
    let capped := [("redeem_per_tx", p.caps.redeemPerTx), ("redeem_daily", p.caps.redeemDaily),
      ("redeem_per_user", p.caps.redeemPerUser)] ++
        p.kycTierLimits.map fun kt => (kycTierLimitName kt, kt.dailyLimitToman)
    (capped.map fun c => (c.1, capInt c.2)).find? fun c => 0 < c.2 ∧ c.2 < floor

/-- Empty, or the text of a non-negative integer. -/
def validateNonNegToman (field : String) (s : Bytes) : Result Unit := do
  ensure (s = [] ∨ (newIntFromString s).isSome) ⟨.invalidParams, field ++ ": invalid integer"⟩
  ensure (s = [] ∨ Coin.amountIs s fun v => 0 ≤ v)
    ⟨.invalidParams, field ++ ": must not be negative"⟩

def InstitutionParams.validate (p : InstitutionParams) : Result Unit := do
  validateNonNegToman "mint_daily" p.caps.mintDaily
  validateNonNegToman "mint_per_tx" p.caps.mintPerTx
  validateNonNegToman "mint_per_user" p.caps.mintPerUser
  validateNonNegToman "redeem_daily" p.caps.redeemDaily
  validateNonNegToman "redeem_per_tx" p.caps.redeemPerTx
  validateNonNegToman "redeem_per_user" p.caps.redeemPerUser
  p.kycTierLimits.forM fun kt => validateNonNegToman (kycTierLimitName kt) kt.dailyLimitToman

def EmergencyRedemption.validate (e : EmergencyRedemption) : Result Unit := do
  validateNonNegToman "cap_before_day30" e.capBeforeDay30
  validateNonNegToman "cap_from_day30" e.capFromDay30
  validateNonNegToman "cap_from_day60" e.capFromDay60
  ensure (¬ (e.active = true ∧ e.startedAt < 0))
    ⟨.invalidParams, "emergency_redemption.started_at must not be negative"⟩

/-- A positive emergency cap below the floor is refused. -/
def validateEmergencyCap (floor : Int) (field : String) (cap : Bytes) : Result Unit :=
  ensure (¬ (0 < capInt cap ∧ capInt cap < floor))
    ⟨.invalidParams, field ++ " is below the protocol redeem floor"⟩

def validAddressOrEmpty (s : Bytes) : Prop := s = [] ∨ (accAddressFromBech32 s).isSome

instance (s : Bytes) : Decidable (validAddressOrEmpty s) :=
  inferInstanceAs (Decidable (s = [] ∨ (accAddressFromBech32 s).isSome))

/-- A positive daily cap of a DID below the floor is refused. -/
def Params.validateDidCap (p : Params) : Result Unit :=
  if 0 < capInt p.redeemDailyCapPerDidUphi then do
    let floor ← p.redeemFloorUphi
    ensure (¬ (0 < floor ∧ capInt p.redeemDailyCapPerDidUphi < floor))
      ⟨.invalidParams, "redeem_daily_cap_per_did_uphi is below the protocol redeem floor"⟩
  else .ok ()

def Params.validate (p : Params) : Result Unit := do
  ensure (p.phiToToman ≠ 0) ⟨.invalidParams, "phi_to_toman must be > 0"⟩
  ensure (uphiPerPhi % (p.phiToToman : Int) = 0)
    ⟨.invalidParams, "phi_to_toman must divide UphiPerPhi"⟩
  ensure (validAddressOrEmpty p.operator) ⟨.invalidParams, "invalid operator address"⟩
  ensure (validAddressOrEmpty p.penaltyDestination)
    ⟨.invalidParams, "invalid penalty_destination address"⟩
  validateNonNegToman "redeem_floor_per_tx" p.redeemFloorPerTx
  ensure (0 < capInt p.redeemFloorPerTx)
    ⟨.invalidParams, "redeem_floor_per_tx must be positive"⟩
  validateNonNegToman "large_mint_threshold_toman" p.largeMintThresholdToman
  validateNonNegToman "mint_ceiling_per_tx" p.mintCeilingPerTx
  validateNonNegToman "mint_ceiling_daily" p.mintCeilingDaily
  validateNonNegToman "redeem_daily_cap_per_did_uphi" p.redeemDailyCapPerDidUphi
  p.validateDidCap
  ensure (p.protocolFeeBps ≤ maxProtocolFeeBps)
    ⟨.invalidParams, "protocol_fee_bps exceeds the sanity ceiling"⟩
  ensure (p.maxAttestationStalenessSeconds ≤ maxAttestationStalenessCeiling)
    ⟨.invalidParams, "max_attestation_staleness_seconds exceeds the sanity ceiling"⟩
  p.emergencyRedemption.validate
  validateEmergencyCap (capInt p.redeemFloorPerTx) "emergency_redemption.cap_before_day30"
    p.emergencyRedemption.capBeforeDay30
  validateEmergencyCap (capInt p.redeemFloorPerTx) "emergency_redemption.cap_from_day30"
    p.emergencyRedemption.capFromDay30
  validateEmergencyCap (capInt p.redeemFloorPerTx) "emergency_redemption.cap_from_day60"
    p.emergencyRedemption.capFromDay60

/-- Parameters that passed validation: the only ones ever stored. -/
structure ValidParams extends Params where
  valid : toParams.validate = .ok ()

/-- The checks of `Params.validate` that bear on rates, caps and fees. -/
theorem Params.validate_facts {p : Params} (h : p.validate = .ok ()) :
    p.phiToToman ≠ 0 ∧ uphiPerPhi % (p.phiToToman : Int) = 0 ∧ 0 < capInt p.redeemFloorPerTx ∧
      p.protocolFeeBps ≤ maxProtocolFeeBps := by
  simp only [Params.validate, bind_eq_ok, ensure_eq_ok, exists_const] at h
  obtain ⟨hrate, hdvd, -, -, -, -, hfloor, -, -, -, -, -, -, -, -, -, -, hfee, -⟩ := h
  exact ⟨hrate, hdvd, hfloor, hfee⟩

namespace ValidParams

variable (p : ValidParams)

theorem rate_pos : 0 < (p.phiToToman : Int) := by
  have hne := (Params.validate_facts p.valid).1
  omega

theorem rate_dvd : (p.phiToToman : Int) ∣ uphiPerPhi :=
  Int.dvd_of_emod_eq_zero (Params.validate_facts p.valid).2.1

/-- A valid rate converts every amount without remainder. -/
theorem uphiForToman_mul_rate (toman : Int) :
    uphiForToman toman p.phiToToman * (p.phiToToman : Int) = toman * uphiPerPhi :=
  Int.tdiv_mul_cancel (p.rate_dvd.mul_left toman)

/-- The floor in uphi is the converted floor, where the product fits. -/
theorem redeemFloorUphi_ok {floor : Int} : p.redeemFloorUphi = .ok floor ↔
    Fits (capInt p.redeemFloorPerTx * uphiPerPhi) ∧
      floor = uphiForToman (capInt p.redeemFloorPerTx) p.phiToToman := by
  obtain ⟨hrate, -, hfloor, -⟩ := Params.validate_facts p.valid
  have hexact : capInt p.redeemFloorPerTx * uphiPerPhi % (p.phiToToman : Int) = 0 :=
    Int.emod_eq_zero_of_dvd (p.rate_dvd.mul_left _)
  unfold Params.redeemFloorUphi
  dsimp only
  rw [if_neg (by rintro (h | h) <;> omega)]
  simp only [bind_eq_ok, intMul_eq_ok, pure_eq_ok]
  constructor
  · rintro ⟨num, ⟨hfit, rfl⟩, rfl⟩
    exact ⟨hfit, if_neg (not_not.2 hexact)⟩
  · rintro ⟨hfit, rfl⟩
    exact ⟨_, ⟨hfit, rfl⟩, if_neg (not_not.2 hexact)⟩

end ValidParams

/-- Parameters of a fresh chain. -/
def defaultValidParams : ValidParams where
  toParams := defaultParams
  valid := by decide

end PhiChain.Institutions
