import PhiChain.Institutions.Sweeps

/-!
# Institutions: stateless checks and KYC tiers

`ValidateBasic` of the registry, attestation, parameter and fx messages. Licence and bond are
not part of the records here, and the checks do not mention them.

A holder's KYC tier has a setter and no message. It is assigned for an institution that is
registered.
-/

set_option autoImplicit false

namespace PhiChain.Institutions

open Foundations Sdk

variable {D : Type} [LinearOrder D]

def MsgRegisterInstitution.validateBasic (m : MsgRegisterInstitution) : Result Unit := do
  validateAddress "operator" m.operator
  validateAddress "admin" m.admin
  ensure (m.id ≠ []) ⟨.institutionNotFound, "id cannot be empty"⟩
  ensure (m.id.length ≤ maxInstitutionIDLen) ⟨.idTooLong, "id length"⟩
  ensure (m.institutionType = .financial ∨ m.institutionType = .fx)
    ⟨.invalidInstitutionType, "institution_type"⟩

def MsgRemoveInstitution.validateBasic (m : MsgRemoveInstitution) : Result Unit := do
  validateAddress "operator" m.operator
  ensure (m.id ≠ []) ⟨.institutionNotFound, "id cannot be empty"⟩

def MsgFreezeInstitution.validateBasic (m : MsgFreezeInstitution) : Result Unit := do
  validateAddress "operator" m.operator
  ensure (m.id ≠ []) ⟨.institutionNotFound, "id cannot be empty"⟩

def MsgPublishInstitutionAttestation.validateBasic (m : MsgPublishInstitutionAttestation) :
    Result Unit := do
  validateAddress "admin" m.admin
  ensure (m.institution ≠ []) ⟨.institutionNotFound, "institution cannot be empty"⟩
  ensure (Coin.amountIs m.attestedReserve fun v => 0 ≤ v) ⟨.invalidAmount, "attested_reserve"⟩

def MsgUpdateParams.validateBasic (m : MsgUpdateParams) : Result Unit := do
  validateAddress "authority" m.authority
  m.params.validate

def MsgSetEmergencyRedemption.validateBasic (m : MsgSetEmergencyRedemption) : Result Unit := do
  validateAddress "authority" m.authority
  [m.capBeforeDay30, m.capFromDay30, m.capFromDay60].forM fun v =>
    ensure (v = [] ∨ Coin.amountIs v fun n => 0 ≤ n) ⟨.invalidAmount, "emergency cap"⟩

def MsgRequestFxEntry.validateBasic (m : MsgRequestFxEntry) : Result Unit := do
  validateAddress "applicant" m.applicant
  ensure (m.fxId ≠ []) ⟨.fxOnboarding, "fx_id cannot be empty"⟩
  ensure (m.fxId.length ≤ maxInstitutionIDLen) ⟨.idTooLong, "fx_id length"⟩
  ensure (m.guarantorId ≠ []) ⟨.guarantorRequired, "guarantor_id cannot be empty"⟩

def MsgGuaranteeFxEntry.validateBasic (m : MsgGuaranteeFxEntry) : Result Unit := do
  validateAddress "guarantor_admin" m.guarantorAdmin
  ensure (m.fxId ≠ []) ⟨.fxOnboarding, "fx_id cannot be empty"⟩

def MsgFinalizeFxEntry.validateBasic (m : MsgFinalizeFxEntry) : Result Unit := do
  validateAddress "operator" m.operator
  ensure (m.fxId ≠ []) ⟨.fxOnboarding, "fx_id cannot be empty"⟩

/-! ## KYC tiers -/

def Store.setHolderKycTier (s : Store D) (instID holder : Bytes) (tier : Nat) : Store D :=
  { s with kycTiers := s.kycTiers.put ⟨instID, holder⟩ tier }

/-- The setter as a step: the caller has looked the institution up. -/
def assignKycTier (instID holder : Bytes) (tier : Nat) (s : Store D) : Result (Store D) := do
  let inst ← orFail (s.getInstitution instID) ⟨.institutionNotFound, "id"⟩
  return s.setHolderKycTier inst.id holder tier

end PhiChain.Institutions
