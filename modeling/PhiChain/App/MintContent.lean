import PhiChain.App.Binding

/-!
# Content of an approved mint

Approvals of a large mint are collected under a digest of its content. Two accepted
mints with one digest agree in every field the digest covers (`mintContentHash_inj`),
whatever the length of the amount text. The asserted KYC tier is not covered, though
the mint is checked against that tier's daily limit, so approvals of mints with
different tiers are counted together (`counted_across_tiers`).
-/

set_option autoImplicit false

namespace PhiChain.App

open Foundations Sdk Institutions

variable {D : Type} [LinearOrder D] {k : Keeper D}

/-- Fields of a mint that its digest covers, the institution's id apart. -/
structure SameContent (m₁ m₂ : MsgInstitutionMint) : Prop where
  recipient : m₁.recipient = m₂.recipient
  amountToman : m₁.amountToman = m₂.amountToman
  depositRef : m₁.depositRef = m₂.depositRef
  fxCurrency : m₁.fxCurrency = m₂.fxCurrency
  fxAmount : m₁.fxAmount = m₂.fxAmount
  fxTxRef : m₁.fxTxRef = m₂.fxTxRef

/-- Two messages for one and the same mint: at most signer and deposit proof differ. -/
structure SameMint (m₁ m₂ : MsgInstitutionMint) : Prop extends SameContent m₁ m₂ where
  institution : m₁.institution = m₂.institution
  kycTier : m₁.kycTier = m₂.kycTier

/-- Approvals are counted together when institution and digest agree. -/
def countedTogether (key₁ key₂ : ApprovalKey D) : Prop :=
  key₁.institution = key₂.institution ∧ key₁.contentHash = key₂.contentHash

/-- Length bounds of a mint message that passed its stateless checks. -/
structure MintBounded (m : MsgInstitutionMint) : Prop where
  recipient : m.recipient.length ≤ bech32Limit
  depositRef : m.depositRef.length ≤ maxRefLen
  fxCurrency : m.fxCurrency.length ≤ maxFxFieldLen
  fxAmount : m.fxAmount.length ≤ maxFxFieldLen
  fxTxRef : m.fxTxRef.length ≤ maxFxFieldLen

variable {m : MsgInstitutionMint}

theorem mintBounded {u : Unit} (h : m.validateBasic = .ok u) :
    MintBounded m := by
  simp only [MsgInstitutionMint.validateBasic, validateRefLen, validateFxFieldLens, bind_eq_ok,
    ensure_eq_ok, exists_const] at h
  obtain ⟨-, hrecipient, -, -, href, hcurrency, hamount, htxRef⟩ := h
  obtain ⟨addr, haddr⟩ := Option.isSome_iff_exists.1 hrecipient
  exact ⟨accAddressFromBech32_length_le haddr, href, hcurrency, hamount, htxRef⟩

/-- What follows the amount in the digest's input is short. -/
theorem MintBounded.rest_lt (h : MintBounded m) :
    (lengthPrefixed [m.depositRef, m.fxCurrency, m.fxAmount, m.fxTxRef]).length <
      256 ^ lengthWidth := by
  have hwidth : 256 ^ lengthWidth = 4294967296 := rfl
  have href : m.depositRef.length ≤ 128 := h.depositRef
  have hcurrency : m.fxCurrency.length ≤ 128 := h.fxCurrency
  have hamount : m.fxAmount.length ≤ 128 := h.fxAmount
  have htxRef : m.fxTxRef.length ≤ 128 := h.fxTxRef
  have hnil : (lengthPrefixed []).length = 0 := rfl
  rw [hwidth]
  simp only [length_lengthPrefixed_cons, hnil, lengthWidth]
  omega

omit [LinearOrder D] in
/-- The digest tells the covered fields of an accepted mint. -/
theorem mintContentHash_inj (hsha : Function.Injective k.sha256) {id : Bytes}
    {m₁ m₂ : MsgInstitutionMint} (hb₁ : MintBounded m₁) (hb₂ : MintBounded m₂)
    (h : mintContentHash k id m₁ = mintContentHash k id m₂) : SameContent m₁ m₂ := by
  have hshort : ∀ {p : Bytes} {n : Nat}, p.length ≤ n → n ≤ 1023 → p.length < 256 ^ lengthWidth :=
    fun hp hn => (hp.trans hn).trans_lt (by decide)
  -- peel the parts off one by one: tag and id are the same, the amount may be long
  obtain ⟨-, h⟩ := lengthPrefixed_cons_inj (hsha h) rfl
  obtain ⟨-, h⟩ := lengthPrefixed_cons_inj h rfl
  obtain ⟨hrecipient, h⟩ := lengthPrefixed_cons_inj_of_lt h (hshort hb₁.recipient (le_refl _))
    (hshort hb₂.recipient (le_refl _))
  obtain ⟨htoman, h⟩ := lengthPrefixed_cons_inj_of_rest_lt h hb₁.rest_lt hb₂.rest_lt
  obtain ⟨href, h⟩ := lengthPrefixed_cons_inj_of_lt h (hshort hb₁.depositRef (by decide))
    (hshort hb₂.depositRef (by decide))
  obtain ⟨hcurrency, h⟩ := lengthPrefixed_cons_inj_of_lt h (hshort hb₁.fxCurrency (by decide))
    (hshort hb₂.fxCurrency (by decide))
  obtain ⟨hamount, h⟩ := lengthPrefixed_cons_inj_of_lt h (hshort hb₁.fxAmount (by decide))
    (hshort hb₂.fxAmount (by decide))
  obtain ⟨htxRef, -⟩ := lengthPrefixed_cons_inj_of_lt h (hshort hb₁.fxTxRef (by decide))
    (hshort hb₂.fxTxRef (by decide))
  exact ⟨hrecipient, htoman, href, hcurrency, hamount, htxRef⟩

theorem recordedKey_mint {w : World D} {key : ApprovalKey D}
    (h : recordedKey k w (.mint m) = some key) :
    key.institution = m.institution ∧ key.contentHash = mintContentHash k m.institution m := by
  simp only [recordedKey, Option.bind_eq_bind, Option.bind_eq_some_iff] at h
  obtain ⟨inst, hinst, signer, -, toman, -, h⟩ := h
  split at h
  · cases h
    have hid : inst.id = m.institution := Registry.id_of_get? hinst
    rw [hid]
    exact ⟨rfl, rfl⟩
  · cases h

theorem apply_mint_bounded {ctx : Ctx} {w w' : World D}
    (h : apply k ctx w (.mint m) = .ok w') : MintBounded m := by
  obtain ⟨u, hbasic, -⟩ := bind_eq_ok.1 h
  exact mintBounded hbasic

/-- For any two accepted large mints: that being counted together makes them the same mint is the
same as that they agree on the KYC tier or differ in a field the digest covers. -/
theorem counted_together_iff (hsha : Function.Injective k.sha256) {ctx₁ ctx₂ : Ctx}
    {w₁ w₂ w₁' w₂' : World D} {m₁ m₂ : MsgInstitutionMint} {key₁ key₂ : ApprovalKey D}
    (h₁ : apply k ctx₁ w₁ (.mint m₁) = .ok w₁') (h₂ : apply k ctx₂ w₂ (.mint m₂) = .ok w₂')
    (hkey₁ : recordedKey k w₁ (.mint m₁) = some key₁)
    (hkey₂ : recordedKey k w₂ (.mint m₂) = some key₂) :
    (countedTogether key₁ key₂ → SameMint m₁ m₂) ↔
      (m₁.kycTier = m₂.kycTier ∨ m₁.institution ≠ m₂.institution ∨ ¬ SameContent m₁ m₂) := by
  obtain ⟨hid₁, hhash₁⟩ := recordedKey_mint hkey₁
  obtain ⟨hid₂, hhash₂⟩ := recordedKey_mint hkey₂
  constructor
  · intro hsame
    rcases eq_or_ne m₁.institution m₂.institution with hinst | hinst
    · rcases Classical.em (SameContent m₁ m₂) with hc | hc
      · left
        refine (hsame ⟨?_, ?_⟩).kycTier
        · rw [hid₁, hid₂, hinst]
        · rw [hhash₁, hhash₂, hinst]
          unfold mintContentHash
          rw [hc.recipient, hc.amountToman, hc.depositRef, hc.fxCurrency, hc.fxAmount, hc.fxTxRef]
      · exact .inr (.inr hc)
    · exact .inr (.inl hinst)
  · rintro htier ⟨hinst, hhash⟩
    rw [hid₁, hid₂] at hinst
    rw [hhash₁, hhash₂, hinst] at hhash
    have hcontent := mintContentHash_inj hsha (apply_mint_bounded h₁) (apply_mint_bounded h₂) hhash
    refine ⟨hcontent, hinst, ?_⟩
    rcases htier with htier | hother | hother
    · exact htier
    · exact absurd hinst hother
    · exact absurd hcontent hother

/-- The two approvals of `largeMint` are for one mint. -/
theorem counted_together_iff_largeMint :
    ∃ w₁ key₁ key₂, apply textKeeper (smallCtx 1000) multisigWorld (.mint (largeMint [1])) = .ok w₁ ∧
      recordedKey textKeeper multisigWorld (.mint (largeMint [1])) = some key₁ ∧
      recordedKey textKeeper w₁ (.mint (largeMint [2])) = some key₂ ∧
      countedTogether key₁ key₂ ∧ SameMint (largeMint [1]) (largeMint [2]) := by
  have hfirst : isOk (apply textKeeper (smallCtx 1000) multisigWorld
      (.mint (largeMint [1]))) = true := by decide +kernel
  obtain ⟨w₁, hw₁⟩ := isOk_iff.1 hfirst
  have hworld : w₁ = step textKeeper multisigWorld (smallCtx 1000, .mint (largeMint [1])) := by
    unfold step
    rw [hw₁]
    rfl
  have hsecond : isOk (apply textKeeper (smallCtx 1000) w₁ (.mint (largeMint [2]))) = true := by
    rw [hworld]
    decide +kernel
  obtain ⟨w₂, hw₂⟩ := isOk_iff.1 hsecond
  let ch := mintContentHash textKeeper (ascii "a") (largeMint [1])
  have hkey₁ : recordedKey textKeeper multisigWorld (.mint (largeMint [1])) =
      some ⟨ascii "a", ch, [1]⟩ := by decide +kernel
  have hkey₂ : recordedKey textKeeper w₁ (.mint (largeMint [2])) = some ⟨ascii "a", ch, [2]⟩ := by
    rw [hworld]
    decide +kernel
  refine ⟨w₁, _, _, hw₁, hkey₁, hkey₂, ⟨rfl, rfl⟩, ?_⟩
  exact (counted_together_iff Function.injective_id hw₁ hw₂ hkey₁ hkey₂).2 (.inl rfl) ⟨rfl, rfl⟩

/-- `multisigWorld` with a daily limit of ten toman for tier 1 and of a thousand for
tier 2. -/
def tierWorld : World Bytes :=
  let limits := [⟨1, ascii "10"⟩, ⟨2, ascii "1000"⟩]
  let params := { multisigInstitution.params with kycTierLimits := limits }
  { multisigWorld with inst := multisigStore.setInstitution { multisigInstitution with params := params } }

/-- The mint asserting a tier. -/
def tierMint (admin : Bytes) (tier : Nat) : MsgInstitutionMint :=
  { largeMint admin with kycTier := tier }

/-- The first admin approves the mint under tier 1. Asserting tier 2, the second admin's
message is checked against another limit and executes on the first approval. -/
theorem counted_across_tiers :
    let w₁ := run (step textKeeper) tierWorld [(smallCtx 1000, .mint (tierMint [1] 1))]
    isOk (apply textKeeper (smallCtx 1000) tierWorld (.mint (tierMint [1] 1))) = true ∧
      mintedAmount (institutionMint textKeeper (smallCtx 1000) (tierMint [2] 2) w₁) = some 100 ∧
      (∃ key₁ key₂, recordedKey textKeeper tierWorld (.mint (tierMint [1] 1)) = some key₁ ∧
        recordedKey textKeeper w₁ (.mint (tierMint [2] 2)) = some key₂ ∧
        key₁ ∈ countedKeys textKeeper w₁ (.mint (tierMint [2] 2)) ∧ countedTogether key₁ key₂) ∧
      ¬ SameMint (tierMint [1] 1) (tierMint [2] 2) := by
  intro w₁
  let ch := mintContentHash textKeeper (ascii "a") (tierMint [1] 1)
  refine ⟨by decide +kernel, by decide +kernel,
    ⟨⟨ascii "a", ch, [1]⟩, ⟨ascii "a", ch, [2]⟩, by decide +kernel, by decide +kernel,
      by decide +kernel, ⟨rfl, rfl⟩⟩, ?_⟩
  intro hsame
  exact absurd hsame.kycTier (by decide)

end PhiChain.App
